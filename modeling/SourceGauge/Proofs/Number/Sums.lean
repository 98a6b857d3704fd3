import Mathlib.Algebra.Ring.Nat
import SourceGauge.Proofs.Number.Exact

/-!
# Sums of natural numbers as reals

Natural numbers up to `2 ^ 53` are held exactly, so adding them one after the other is exact as long
as the sum stays within that range, whatever kind of number each of them is given as.

Sums that leave the range, and sums of other reals, depend on the order of adding.
-/

namespace SourceGauge

/-- The largest number below which every natural number is held exactly. -/
def exactLimit : Nat := 2 ^ 53

/-- The significand of a natural number in the range has at most 53 bits, wherever its units are. -/
theorem significand_natural {n : Nat} (hpos : 0 < n) (h : n ≤ exactLimit) (shift : Nat) :
    n * 2 ^ shift % 2 ^ ((n * 2 ^ shift).log2 - 52) = 0 := by
  have hunits : n * 2 ^ shift ≠ 0 := Nat.ne_of_gt (Nat.mul_pos hpos (Nat.two_pow_pos shift))
  have hlimit : exactLimit * 2 ^ shift = 2 ^ (53 + shift) := (Nat.pow_add 2 53 shift).symm
  apply Nat.mod_eq_zero_of_dvd
  rcases Nat.lt_or_eq_of_le h with hless | rfl
  · have hbits : (n * 2 ^ shift).log2 < 53 + shift := by
      rw [Nat.log2_lt hunits, ← hlimit]
      exact Nat.mul_lt_mul_of_pos_right hless (Nat.two_pow_pos shift)
    exact Nat.dvd_trans (Nat.pow_dvd_pow 2 (by omega)) (Nat.dvd_mul_left _ n)
  · rw [hlimit, Nat.log2_two_pow]
    exact Nat.pow_dvd_pow 2 (by omega)

/-- Natural numbers in the range are representable. -/
theorem representable_natural {n : Nat} (h : n ≤ exactLimit) : Representable (n * unitsPerOne) := by
  rcases Nat.eq_zero_or_pos n with rfl | hpos
  · rw [Nat.zero_mul]
    exact representable_zero
  have hbelow : exactLimit * unitsPerOne < overflowUnits := by
    unfold unitsPerOne overflowUnits
    decide +kernel
  have hpower : ∃ shift, unitsPerOne = 2 ^ shift := by
    unfold unitsPerOne
    exact ⟨1074, by decide +kernel⟩
  refine ⟨Nat.lt_of_le_of_lt (Nat.mul_le_mul_right unitsPerOne h) hbelow, ?_⟩
  obtain ⟨shift, hshift⟩ := hpower
  rw [hshift]
  exact significand_natural hpos h shift

namespace Binary64

/-- A natural number in the range is held as it is. -/
theorem ofInt_natural {n : Nat} (h : n ≤ exactLimit) :
    ofInt n = .finite false (n * unitsPerOne) (representable_natural h) := by
  have hsign : decide ((n : Int) < 0) = false := decide_eq_false (by omega)
  rw [ofInt, hsign]
  exact ofRatio_one (representable_natural h) false

/-- Adding a natural number to another is exact in the range. -/
theorem add_natural {sum n : Nat} (h : sum + n ≤ exactLimit) {x : Binary64}
    (hx : (Number.real x).extent? = some (.at (n * unitsPerOne))) :
    (ofInt sum).add x = ofInt (sum + n : Nat) := by
  rw [ofInt_natural (Nat.le_trans (Nat.le_add_right sum n) h), ofInt_natural h]
  cases x with
  | nan => simp [Number.extent?] at hx
  | infinite negative => cases negative <;> simp [Number.extent?] at hx
  | finite negative units hunits =>
    have hplace : (if negative then -(units : Int) else units) = n * unitsPerOne := by
      simpa [Number.extent?] using hx
    have hsum : ((sum * unitsPerOne : Nat) : Int) + (n : Int) * unitsPerOne =
        ((sum + n) * unitsPerOne : Nat) := by
      rw [Nat.add_mul, Int.natCast_add, Int.natCast_mul n]
    have hunitsOf : (finite false (sum * unitsPerOne) (representable_natural
        (Nat.le_trans (Nat.le_add_right sum n) h))).add (finite negative units hunits) =
        if (((sum + n) * unitsPerOne : Nat) : Int) = 0 then zero (false && negative)
        else ofRatio (decide ((((sum + n) * unitsPerOne : Nat) : Int) < 0))
          (((sum + n) * unitsPerOne : Nat) : Int).natAbs 1 := by
      rw [← hsum, ← hplace]
      rfl
    rw [hunitsOf, decide_eq_false (Int.not_lt.2 (Int.natCast_nonneg _)), Int.natAbs_natCast,
      ofRatio_one (representable_natural h)]
    split
    · rename_i hzero
      have hnone : (sum + n) * unitsPerOne = 0 := Int.ofNat_eq_zero.1 hzero
      simp only [zero, Bool.false_and, hnone]
    · rfl

/-- Zero is the natural number. -/
theorem zero_eq_ofInt : zero false = ofInt (0 : Nat) := by
  rw [ofInt_natural (Nat.zero_le exactLimit), zero]
  simp only [Nat.zero_mul]

/-- Adding natural numbers one after the other is exact in the range. -/
theorem foldl_add_naturals {xs : List Binary64} {counts : List Nat}
    (hxs : xs.map (fun x => (Number.real x).extent?) =
      counts.map fun n => some (.at ((n : Int) * unitsPerOne)))
    {sum : Nat} (h : sum + counts.sum ≤ exactLimit) :
    xs.foldl add (ofInt sum) = ofInt (sum + counts.sum : Nat) := by
  induction xs generalizing counts sum with
  | nil =>
    cases counts with
    | nil => rw [List.foldl_nil, List.sum_nil, Nat.add_zero]
    | cons n rest => simp at hxs
  | cons x others ih =>
    cases counts with
    | nil => simp at hxs
    | cons n rest =>
      rw [List.map_cons, List.map_cons, List.cons.injEq] at hxs
      rw [List.sum_cons, ← Nat.add_assoc] at h ⊢
      rw [List.foldl_cons, add_natural (Nat.le_trans (Nat.le_add_right _ _) h) hxs.1]
      exact ih hxs.2 h

end Binary64

/-- A number that lies at a natural number in the range is held exactly when it is rounded. -/
theorem Number.toBinary64?_natural {number : Number} {n : Nat} (h : n ≤ exactLimit)
    (hn : number.extent? = some (.at ((n : Int) * unitsPerOne))) :
    ∃ x, number.toBinary64? = some x ∧
      (real x).extent? = some (.at ((n : Int) * unitsPerOne)) := by
  have hexact : number.IsExact := by
    refine ⟨.finite false (n * unitsPerOne) (representable_natural h), ?_⟩
    rw [hn]
    simp [extent?]
  have hsome : ∃ x, number.toBinary64? = some x := by
    cases number with
    | flag value => exact ⟨_, rfl⟩
    | int value =>
      have hfinite : (Binary64.ofInt value).isFinite = true := by
        rw [Binary64.ofInt, Binary64.ofRatio_one (representable_of_isExact hexact)]
        rfl
      exact ⟨.ofInt value, if_pos hfinite⟩
    | real x => exact ⟨x, rfl⟩
  obtain ⟨x, hx⟩ := hsome
  exact ⟨x, hx, (extent?_of_toBinary64? hexact hx).trans hn⟩

end SourceGauge
