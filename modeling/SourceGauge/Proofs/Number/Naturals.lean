import Mathlib.Algebra.Ring.Nat
import SourceGauge.Proofs.Number.Sums

/-!
# Natural numbers as reals

What is rounded has a significand of at most 53 bits, so that it is representable unless it is too
large; every natural number below `2 ^ 64` has a real. The reals of natural numbers carry no sign,
and neither do sums of them: the whole number that such a sum holds is natural again.

Whether it is the sum of the numbers is another matter, since each of the three is rounded.
-/

namespace SourceGauge

/-! ## Rounding -/

/-- Rounding a quotient keeps the order of the numerators. -/
theorem roundDiv_mono (den : Nat) {num more : Nat} (h : num ≤ more) :
    roundDiv num den ≤ roundDiv more den := by
  have hround : ∀ n : Nat, n / den ≤ roundDiv n den ∧ roundDiv n den ≤ n / den + 1 := by
    intro n
    have hparity : n / den % 2 ≤ 1 := Nat.le_of_lt_succ (Nat.mod_lt _ Nat.two_pos)
    simp only [roundDiv]
    repeat' split
    all_goals omega
  rcases Nat.lt_or_eq_of_le (Nat.div_le_div_right h : num / den ≤ more / den) with hless | heq
  · exact Nat.le_trans (hround num).2 (Nat.le_trans hless (hround more).1)
  · -- With one quotient, the rests are in the order of the numerators.
    have hrest : num % den ≤ more % den := by
      have hnum := Nat.div_add_mod num den
      have hmore := Nat.div_add_mod more den
      rw [heq] at hnum
      omega
    have hparity : more / den % 2 ≤ 1 := Nat.le_of_lt_succ (Nat.mod_lt _ Nat.two_pos)
    simp only [roundDiv, heq]
    repeat' split
    all_goals omega

/-- What is at most a whole number of grid steps is rounded to at most as many. -/
theorem roundDiv_le {num den steps : Nat} (hden : 0 < den) (h : num ≤ steps * den) :
    roundDiv num den ≤ steps := by
  have hrounded := roundDiv_mono den h
  rwa [roundDiv_mul hden] at hrounded

/-- Units are rounded to at most `2 ^ 53` steps of their grid. -/
theorem roundDiv_step_le (units : Nat) :
    roundDiv units (Nat.pow 2 (units.log2 - 52)) ≤ exactLimit := by
  have hlt : units < 2 ^ (units.log2 + 1) := Nat.lt_log2_self
  have hpow : (2 : Nat) ^ (units.log2 + 1) ≤ 2 ^ (53 + (units.log2 - 52)) :=
    Nat.pow_le_pow_right Nat.two_pos (by omega)
  rw [Nat.pow_add 2 53] at hpow
  exact roundDiv_le (Nat.two_pow_pos _) (Nat.le_of_lt (Nat.lt_of_lt_of_le hlt hpow))

/-- Units that are rounded are representable if they are not too many. -/
theorem representable_nearestUnits {units : Nat} (h : nearestUnits units 1 < overflowUnits) :
    Representable (nearestUnits units 1) := by
  refine ⟨h, ?_⟩
  rw [nearestUnits, Nat.div_one, Nat.one_mul]
  rcases Nat.eq_zero_or_pos (roundDiv units (Nat.pow 2 (units.log2 - 52))) with hzero | hpos
  · rw [hzero, Nat.zero_mul, Nat.zero_mod]
  · exact significand_natural hpos (roundDiv_step_le units) _

/-- The grid of a natural number below `2 ^ 64` has steps of fewer than `2 ^ 12`. -/
theorem step_le {n : Nat} (h : n < unsignedWordLimit) :
    Nat.pow 2 ((n * unitsPerOne).log2 - 52) ≤ 2 ^ 12 * unitsPerOne := by
  have hpower : ∃ shift, unitsPerOne = 2 ^ shift := by
    unfold unitsPerOne
    exact ⟨1074, by decide +kernel⟩
  obtain ⟨shift, hshift⟩ := hpower
  have hlimit : unsignedWordLimit * unitsPerOne = 2 ^ (64 + shift) := by
    rw [hshift, Nat.pow_add]
    rfl
  have hbits : (n * unitsPerOne).log2 < 64 + shift := by
    rcases Nat.eq_zero_or_pos n with rfl | hpos
    · rw [Nat.zero_mul, Nat.log2_zero]
      omega
    · have hunits : n * unitsPerOne ≠ 0 := Nat.ne_of_gt (Nat.mul_pos hpos unitsPerOne_pos)
      rw [Nat.log2_lt hunits, ← hlimit]
      exact Nat.mul_lt_mul_of_pos_right h unitsPerOne_pos
  rw [hshift] at hbits ⊢
  rw [← Nat.pow_add]
  exact Nat.pow_le_pow_right Nat.two_pos (by omega)

/-- A natural number below `2 ^ 64` is not rounded beyond all reals. -/
theorem nearestUnits_lt_overflowUnits {n : Nat} (h : n < unsignedWordLimit) :
    nearestUnits (n * unitsPerOne) 1 < overflowUnits := by
  have hbelow : exactLimit * (2 ^ 12 * unitsPerOne) < overflowUnits := by
    unfold unitsPerOne overflowUnits
    decide +kernel
  rw [nearestUnits, Nat.div_one, Nat.one_mul]
  exact Nat.lt_of_le_of_lt (Nat.mul_le_mul (roundDiv_step_le _) (step_le h)) hbelow

/-- A natural number below `2 ^ 64` has a real. -/
theorem Number.toBinary64?_of_lt {n : Nat} (h : n < unsignedWordLimit) :
    (Number.int n).toBinary64? = some (.ofInt n) := by
  have hsign : decide ((n : Int) < 0) = false := decide_eq_false (by omega)
  have hfinite : (Binary64.ofInt n).isFinite = true := by
    rw [Binary64.ofInt, hsign, Binary64.ofRatio, Int.natAbs_natCast,
      Binary64.ofUnits_of_representable
        (representable_nearestUnits (nearestUnits_lt_overflowUnits h))]
    rfl
  rw [toBinary64?]
  exact if_pos hfinite

/-! ## Signs -/

namespace Binary64

/-- A value without a sign. -/
def IsSignless : Binary64 → Prop
  | .finite negative _ _ => negative = false
  | .infinite negative => negative = false
  | .nan => False

/-- What is rounded without a sign has none. -/
theorem isSignless_ofRatio (num den : Nat) : (ofRatio false num den).IsSignless := by
  rw [ofRatio, ofUnits]
  split <;> rfl

/-- The real of a natural number has no sign. -/
theorem isSignless_ofInt (n : Nat) : (ofInt n).IsSignless := by
  have hsign : decide ((n : Int) < 0) = false := decide_eq_false (by omega)
  rw [ofInt, hsign]
  exact isSignless_ofRatio _ _

/-- Sums of values without a sign have none. -/
theorem IsSignless.add {x y : Binary64} (hx : x.IsSignless) (hy : y.IsSignless) :
    (x.add y).IsSignless := by
  cases x with
  | nan => exact hx.elim
  | infinite negative =>
    obtain rfl : negative = false := hx
    cases y with
    | nan => exact hy.elim
    | infinite other =>
      obtain rfl : other = false := hy
      rfl
    | finite other units hunits => rfl
  | finite negative units hunits =>
    obtain rfl : negative = false := hx
    cases y with
    | nan => exact hy.elim
    | infinite other =>
      obtain rfl : other = false := hy
      rfl
    | finite other more hmore =>
      obtain rfl : other = false := hy
      have hsign : decide ((units : Int) + more < 0) = false := decide_eq_false (by omega)
      simp only [Binary64.add, Bool.false_eq_true, if_false, hsign]
      split
      · rfl
      · exact isSignless_ofRatio _ _

/-- The whole number that a value without a sign holds is not negative. -/
theorem IsSignless.integer_nonneg {x : Binary64} (hx : x.IsSignless) {n : Int}
    (h : x.integer? = some n) : 0 ≤ n := by
  cases x with
  | finite negative units hunits =>
    obtain rfl : negative = false := hx
    simp only [integer?, Option.ite_none_right_eq_some, Bool.false_eq_true, if_false,
      Option.some.injEq] at h
    exact h.2 ▸ Int.natCast_nonneg _
  | _ => contradiction

end Binary64

end SourceGauge
