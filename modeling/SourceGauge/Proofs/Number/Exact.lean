import SourceGauge.Number.Basic

/-!
# Numbers that are held exactly

A number is exactly representable if some binary64 value lies where it lies. Rounding such a
number finds that place: a real is itself, and a whole number whose units have a significand of at
most 53 bits is on the grid to which it is rounded. So rounding changes no comparison with it.

What rounding does to other whole numbers is not said here.
-/

namespace SourceGauge

/-- Representable units are on the grid to which they are rounded. -/
theorem nearestUnits_one {units : Nat} (h : Representable units) : nearestUnits units 1 = units := by
  have hstep : 0 < Nat.pow 2 (units.log2 - 52) := Nat.two_pow_pos _
  have hgrid : units / Nat.pow 2 (units.log2 - 52) * Nat.pow 2 (units.log2 - 52) = units :=
    Nat.div_mul_cancel (Nat.dvd_of_mod_eq_zero h.2)
  rw [nearestUnits, Nat.div_one, Nat.one_mul]
  calc roundDiv units (Nat.pow 2 (units.log2 - 52)) * Nat.pow 2 (units.log2 - 52)
      = roundDiv (units / Nat.pow 2 (units.log2 - 52) * Nat.pow 2 (units.log2 - 52))
          (Nat.pow 2 (units.log2 - 52)) * Nat.pow 2 (units.log2 - 52) := by rw [hgrid]
    _ = units / Nat.pow 2 (units.log2 - 52) * Nat.pow 2 (units.log2 - 52) := by
        rw [roundDiv_mul hstep]
    _ = units := hgrid

/-- Representable units are held as they are. -/
theorem Binary64.ofRatio_one {units : Nat} (h : Representable units) (negative : Bool) :
    ofRatio negative units 1 = .finite negative units h := by
  rw [ofRatio, nearestUnits_one h, ofUnits_of_representable h]

namespace Number

/-- A number that lies where some binary64 value lies. -/
def IsExact (n : Number) : Prop := ∃ x : Binary64, (real x).extent? = n.extent?

/-- Reals are exact. -/
theorem isExact_real (x : Binary64) : IsExact (real x) := ⟨x, rfl⟩

/-- The units of an exact whole number are representable. -/
theorem representable_of_isExact {n : Int} (h : IsExact (int n)) :
    Representable (n.natAbs * unitsPerOne) := by
  obtain ⟨x, hx⟩ := h
  cases x with
  | nan => simp [extent?] at hx
  | infinite negative => cases negative <;> simp [extent?] at hx
  | finite negative units hunits =>
    simp only [extent?, Option.some.injEq, Extent.at.injEq] at hx
    have habs : units = n.natAbs * unitsPerOne := by
      calc units = (if negative then -(units : Int) else units).natAbs := by
            cases negative <;> simp
        _ = (n * unitsPerOne).natAbs := by rw [hx]
        _ = n.natAbs * unitsPerOne := by rw [Int.natAbs_mul, Int.natAbs_natCast]
    exact habs ▸ hunits

/-- A whole number with representable units stays in its place when it is rounded. -/
theorem extent?_ofInt {n : Int} (h : Representable (n.natAbs * unitsPerOne)) :
    (real (.ofInt n)).extent? = (int n).extent? := by
  rw [Binary64.ofInt, Binary64.ofRatio_one h]
  simp only [extent?, decide_eq_true_eq, Option.some.injEq, Extent.at.injEq]
  split
  · rename_i hneg
    rw [Int.natCast_mul, ← Int.neg_mul, Int.ofNat_natAbs_of_nonpos (by omega), Int.neg_neg]
  · rw [Int.natCast_mul, Int.natAbs_of_nonneg (by omega)]

/-- A whole number is exact if its units are representable. -/
theorem isExact_int_iff {n : Int} : IsExact (int n) ↔ Representable (n.natAbs * unitsPerOne) :=
  ⟨representable_of_isExact, fun h => ⟨.ofInt n, extent?_ofInt h⟩⟩

instance (n : Number) : Decidable n.IsExact :=
  match n with
  | .flag value => decidable_of_iff (Representable ((ofFlag value).natAbs * unitsPerOne))
      (isExact_int_iff (n := ofFlag value)).symm
  | .int _ => decidable_of_iff _ isExact_int_iff.symm
  | .real x => .isTrue (isExact_real x)

/-- An exact number stays in its place when it is rounded. -/
theorem extent?_of_toBinary64? {n : Number} {x : Binary64} (hexact : n.IsExact)
    (h : n.toBinary64? = some x) : (real x).extent? = n.extent? := by
  cases n with
  | flag value =>
    rw [toBinary64?, Option.some.injEq] at h
    have hint : IsExact (int (ofFlag value)) := hexact
    exact h ▸ extent?_ofInt (representable_of_isExact hint)
  | int value =>
    simp only [toBinary64?, Option.ite_none_right_eq_some, Option.some.injEq] at h
    exact h.2 ▸ extent?_ofInt (representable_of_isExact hexact)
  | real y =>
    rw [toBinary64?, Option.some.injEq] at h
    rw [h]

/-- Comparison looks at nothing but where numbers lie. -/
theorem le_congr {a b c d : Number} (hac : a.extent? = c.extent?) (hbd : b.extent? = d.extent?) :
    a.le b = c.le d := by
  rw [le, le, hac, hbd]

end Number

end SourceGauge
