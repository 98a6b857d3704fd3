import SourceGauge.Proofs.Number.Naturals

/-!
# Rounding keeps the order

Units are rounded on a grid that gets coarser with every power of two. Within one grid more units
are rounded to no fewer steps, and a power of two is on the grids on both of its sides, so that
nothing is rounded across it. So of two numbers that have reals, the lesser one has no greater real;
numbers that differ may still be rounded to the same one.
-/

namespace SourceGauge

/-! ## Units -/

/-- What is rounded is rounded on the grid of its units. -/
theorem nearestUnits_one_eq (units : Nat) : nearestUnits units 1 =
    roundDiv units (2 ^ (units.log2 - 52)) * 2 ^ (units.log2 - 52) := by
  rw [nearestUnits, Nat.div_one, Nat.one_mul]
  rfl

/-- A power of two on the grid of some units. -/
theorem two_pow_eq_mul (units : Nat) {bits : Nat} (h : units.log2 ≤ bits) :
    (2 : Nat) ^ bits = 2 ^ (bits - (units.log2 - 52)) * 2 ^ (units.log2 - 52) := by
  rw [← Nat.pow_add]
  congr 1
  omega

/-- Units are not rounded beyond the next power of two. -/
theorem nearestUnits_le_two_pow (units : Nat) : nearestUnits units 1 ≤ 2 ^ (units.log2 + 1) := by
  have hgrid := two_pow_eq_mul units (Nat.le_add_right units.log2 1)
  have hunits : units ≤ 2 ^ (units.log2 + 1) := Nat.le_of_lt Nat.lt_log2_self
  rw [hgrid] at hunits
  rw [nearestUnits_one_eq, hgrid]
  exact Nat.mul_le_mul_right _ (roundDiv_le (Nat.two_pow_pos _) hunits)

/-- Units are not rounded below the last power of two. -/
theorem two_pow_le_nearestUnits {units : Nat} (h : units ≠ 0) :
    2 ^ units.log2 ≤ nearestUnits units 1 := by
  have hgrid := two_pow_eq_mul units (Nat.le_refl units.log2)
  have hunits : 2 ^ units.log2 ≤ units := Nat.log2_self_le h
  have hsteps : 2 ^ (units.log2 - (units.log2 - 52)) ≤
      roundDiv units (2 ^ (units.log2 - 52)) := by
    have hrounded := roundDiv_mono (2 ^ (units.log2 - 52)) hunits
    rwa [hgrid, roundDiv_mul (Nat.two_pow_pos _)] at hrounded
  rw [nearestUnits_one_eq, hgrid]
  exact Nat.mul_le_mul_right _ hsteps

/-- Rounding keeps the order of units. -/
theorem nearestUnits_mono {units more : Nat} (h : units ≤ more) :
    nearestUnits units 1 ≤ nearestUnits more 1 := by
  rcases Nat.eq_zero_or_pos units with rfl | hpos
  · rw [nearestUnits_one representable_zero]
    exact Nat.zero_le _
  have hmore : more ≠ 0 := by omega
  have hlog : units.log2 ≤ more.log2 :=
    (Nat.le_log2 hmore).2 (Nat.le_trans (Nat.log2_self_le (Nat.ne_of_gt hpos)) h)
  rcases Nat.lt_or_eq_of_le hlog with hless | heq
  · calc nearestUnits units 1 ≤ 2 ^ (units.log2 + 1) := nearestUnits_le_two_pow units
      _ ≤ 2 ^ more.log2 := Nat.pow_le_pow_right Nat.two_pos hless
      _ ≤ nearestUnits more 1 := two_pow_le_nearestUnits hmore
  · rw [nearestUnits_one_eq, nearestUnits_one_eq, heq]
    exact Nat.mul_le_mul_right _ (roundDiv_mono _ h)

/-! ## Places -/

/-- Where signed units lie once they were rounded. -/
def roundedUnits (units : Int) : Int :=
  if units < 0 then -(nearestUnits units.natAbs 1 : Int) else nearestUnits units.natAbs 1

/-- Rounding keeps the order of signed units. -/
theorem roundedUnits_mono {units more : Int} (h : units ≤ more) :
    roundedUnits units ≤ roundedUnits more := by
  rw [roundedUnits, roundedUnits]
  by_cases hunits : units < 0
  · rw [if_pos hunits]
    by_cases hmore : more < 0
    · rw [if_pos hmore]
      have hsize : more.natAbs ≤ units.natAbs := by omega
      exact Int.neg_le_neg (Int.ofNat_le.2 (nearestUnits_mono hsize))
    · rw [if_neg hmore]
      omega
  · have hmore : ¬more < 0 := by omega
    have hsize : units.natAbs ≤ more.natAbs := by omega
    rw [if_neg hunits, if_neg hmore]
    exact Int.ofNat_le.2 (nearestUnits_mono hsize)

/-- Units of a real stay where they are. -/
theorem roundedUnits_signed {units : Nat} (h : Representable units) (negative : Bool) :
    roundedUnits (if negative then -(units : Int) else units) =
      if negative then -(units : Int) else units := by
  cases negative with
  | false =>
    have hsign : ¬(units : Int) < 0 := by omega
    simp only [Bool.false_eq_true, if_false, roundedUnits, if_neg hsign, Int.natAbs_natCast,
      nearestUnits_one h]
  | true =>
    simp only [if_true, roundedUnits, Int.natAbs_neg, Int.natAbs_natCast, nearestUnits_one h]
    split <;> omega

namespace Number

/-- A whole number that has a real is rounded to where its units are. -/
theorem extent?_ofInt_of_isFinite {n : Int} (h : (Binary64.ofInt n).isFinite = true) :
    (real (.ofInt n)).extent? = some (.at (roundedUnits (n * unitsPerOne))) := by
  have hunits : (0 : Int) < unitsPerOne := Int.ofNat_lt.2 unitsPerOne_pos
  have hsign : n * unitsPerOne < 0 ↔ n < 0 := by
    refine ⟨fun hneg => Int.not_le.1 fun hn => ?_,
      fun hneg => Int.mul_neg_of_neg_of_pos hneg hunits⟩
    exact Int.not_lt.2 (Int.mul_nonneg hn (Int.le_of_lt hunits)) hneg
  have hsize : (n * unitsPerOne).natAbs = n.natAbs * unitsPerOne := by
    rw [Int.natAbs_mul, Int.natAbs_natCast]
  rw [Binary64.ofInt, Binary64.ofRatio, Binary64.ofUnits] at h ⊢
  split at h
  · rename_i hunits
    rw [dif_pos hunits, extent?, roundedUnits, hsize]
    simp only [decide_eq_true_eq, hsign]
  · contradiction

/-- A number that has a finite real is rounded to where its units are. -/
theorem extent?_real_of_toBinary64? {n : Number} {x : Binary64} {units : Int}
    (h : n.toBinary64? = some x) (hfinite : x.isFinite = true)
    (hunits : n.extent? = some (.at units)) :
    (real x).extent? = some (.at (roundedUnits units)) := by
  cases n with
  | flag value =>
    obtain rfl := Option.some.inj h
    obtain rfl := Extent.at.inj (Option.some.inj hunits)
    exact extent?_ofInt_of_isFinite hfinite
  | int value =>
    simp only [toBinary64?, Option.ite_none_right_eq_some, Option.some.injEq] at h
    obtain ⟨hvalue, rfl⟩ := h
    obtain rfl := Extent.at.inj (Option.some.inj hunits)
    exact extent?_ofInt_of_isFinite hvalue
  | real y =>
    obtain rfl := Option.some.inj h
    cases y with
    | finite negative size hsize =>
      obtain rfl := Extent.at.inj (Option.some.inj hunits)
      rw [roundedUnits_signed hsize]
      rfl
    | _ => contradiction

/-- A finite number has a finite real and lies at some units. -/
theorem exists_units {n : Number} (h : n.isFinite? = some true) : ∃ (x : Binary64) (units : Int),
    n.toBinary64? = some x ∧ x.isFinite = true ∧ n.extent? = some (.at units) := by
  obtain ⟨x, hx, hfinite⟩ := Option.map_eq_some_iff.1 h
  cases n with
  | flag value => exact ⟨x, _, hx, hfinite, rfl⟩
  | int value => exact ⟨x, _, hx, hfinite, rfl⟩
  | real y =>
    obtain rfl := Option.some.inj hx
    cases y with
    | finite negative units hunits => exact ⟨_, _, hx, hfinite, rfl⟩
    | _ => contradiction

/-- Numbers are compared by their units. -/
theorem le_eq_decide {a b : Number} {units more : Int} (ha : a.extent? = some (.at units))
    (hb : b.extent? = some (.at more)) : a.le b = decide (units ≤ more) := by
  rw [le, ha, hb]
  rfl

theorem lt_eq_decide {a b : Number} {units more : Int} (ha : a.extent? = some (.at units))
    (hb : b.extent? = some (.at more)) : a.lt b = decide (units < more) := by
  rw [lt, ha, hb]
  change (!decide (more ≤ units)) = decide (units < more)
  rw [← decide_not, decide_eq_decide]
  exact Int.not_le

/-- Numbers that have the same real, whether they differ or not. -/
def RoundAlike (a b : Number) : Prop := ∃ x y, a.toBinary64? = some x ∧ b.toBinary64? = some y ∧
  (real x).eqv (real y) = true

end Number

/-- The units of an exact whole number are not moved. -/
theorem roundedUnits_of_isExact {n : Int} (h : (Number.int n).IsExact) :
    roundedUnits (n * unitsPerOne) = n * unitsPerOne := by
  have hunits := Number.representable_of_isExact h
  have hfinite : (Binary64.ofInt n).isFinite = true := by
    rw [Binary64.ofInt, Binary64.ofRatio_one hunits]
    rfl
  have hplace := (Number.extent?_ofInt_of_isFinite hfinite).symm.trans (Number.extent?_ofInt hunits)
  exact Extent.at.inj (Option.some.inj hplace)

/-- Whole numbers are compared by their units. -/
theorem units_le_units_iff {n m : Int} : n * unitsPerOne ≤ m * unitsPerOne ↔ n ≤ m :=
  Int.mul_le_mul_iff_of_pos_right (Int.natCast_pos.2 unitsPerOne_pos)

end SourceGauge
