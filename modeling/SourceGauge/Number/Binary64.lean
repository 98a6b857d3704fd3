/-!
# Binary64 values

The 64-bit binary floating-point values, held exactly. Every finite value is a whole number
of units of `2 ^ (-1074)`, so sums and comparisons are those of integers, and one function
rounds a quotient to the nearest value, ties going to the even significand.

Signs of zero are kept, since they show in texts. Payloads of NaN are not modelled.
-/

namespace SourceGauge

/-- The number of units in one. -/
@[irreducible] def unitsPerOne : Nat := Nat.pow 2 1074

/-- The first power of two beyond every finite value, in units. -/
@[irreducible] def overflowUnits : Nat := Nat.pow 2 2098

/-- One holds at least one unit. -/
theorem unitsPerOne_pos : 0 < unitsPerOne := by
  unfold unitsPerOne
  apply Nat.two_pow_pos

/-- Overflow starts above zero. -/
theorem overflowUnits_pos : 0 < overflowUnits := by
  unfold overflowUnits
  apply Nat.two_pow_pos

/-- A number of units below the overflow limit whose significand has at most 53 bits. -/
def Representable (units : Nat) : Prop :=
  units < overflowUnits ∧ units % Nat.pow 2 (units.log2 - 52) = 0

instance (units : Nat) : Decidable (Representable units) := by
  unfold Representable
  infer_instance

/-- Zero units are representable. -/
theorem representable_zero : Representable 0 := ⟨overflowUnits_pos, Nat.zero_mod _⟩

/-- A binary64 value: a finite one is a signed, representable number of units. -/
inductive Binary64
  | nan
  | infinite (negative : Bool)
  | finite (negative : Bool) (units : Nat) (representable : Representable units)
  deriving DecidableEq

/-- The quotient `num / den` rounded to an integer, a tie going to the even neighbour. -/
def roundDiv (num den : Nat) : Nat :=
  let q := num / den
  let r := num % den
  if 2 * r < den then q else if den < 2 * r then q + 1 else q + q % 2

/-- An integer quotient is rounded to itself. -/
theorem roundDiv_mul {q den : Nat} (h : 0 < den) : roundDiv (q * den) den = q := by
  unfold roundDiv
  have hq : q * den / den = q := Nat.mul_div_cancel q h
  have hr : q * den % den = 0 := Nat.mul_mod_left q den
  simp only [hq, hr]
  rw [if_pos (by omega)]

/-- The units nearest to `num / den` units on the grid of 53-bit significands. -/
def nearestUnits (num den : Nat) : Nat :=
  let step := Nat.pow 2 ((num / den).log2 - 52)
  roundDiv num (den * step) * step

namespace Binary64

/-- Zero, with either sign. -/
def zero (negative : Bool) : Binary64 :=
  .finite negative 0 representable_zero

/-- The value of that many units if they are representable; more than the largest finite value
is infinite. -/
def ofUnits (negative : Bool) (units : Nat) : Binary64 :=
  if h : Representable units then .finite negative units h else .infinite negative

/-- The value nearest to `num / den` units. -/
def ofRatio (negative : Bool) (num den : Nat) : Binary64 :=
  ofUnits negative (nearestUnits num den)

/-- The value nearest to an integer; infinite if the integer is too large. -/
def ofInt (n : Int) : Binary64 :=
  ofRatio (decide (n < 0)) (n.natAbs * unitsPerOne) 1

/-- How many decimal digits a natural number has. -/
def decimalSize (n : Nat) : Nat := (Nat.toDigits 10 n).length

/-- The value nearest to `digits * 10 ^ exponent`. A number with more than 310 digits before
the point is infinite and one with 330 zeros after it is zero, whatever its digits. -/
def ofDecimal (negative : Bool) (digits : Nat) (exponent : Int) : Binary64 :=
  if digits = 0 then zero negative
  else if 310 < exponent + decimalSize digits then .infinite negative
  else if exponent + decimalSize digits < -330 then zero negative
  else if 0 ≤ exponent then ofRatio negative (digits * Nat.pow 10 exponent.toNat * unitsPerOne) 1
  else ofRatio negative (digits * unitsPerOne) (Nat.pow 10 (-exponent).toNat)

/-- Whether a value is neither infinite nor NaN. -/
def isFinite : Binary64 → Bool
  | .finite .. => true
  | _ => false

/-- The signed number of units of a finite value. -/
def units? : Binary64 → Option Int
  | .finite negative units _ => some (if negative then -(units : Int) else units)
  | _ => none

/-- The integer a value equals, if it equals one. -/
def integer? : Binary64 → Option Int
  | .finite negative units _ =>
    if units % unitsPerOne = 0 then
      some (if negative then -(units / unitsPerOne : Nat) else (units / unitsPerOne : Nat))
    else none
  | _ => none

/-- The sum of two values, rounded once. An exact zero is positive unless both are negative. -/
def add : Binary64 → Binary64 → Binary64
  | .nan, _ => .nan
  | _, .nan => .nan
  | .infinite a, .infinite b => if a = b then .infinite a else .nan
  | .infinite a, _ => .infinite a
  | _, .infinite b => .infinite b
  | .finite a u _, .finite b v _ =>
    let sum : Int := (if a then -(u : Int) else u) + (if b then -(v : Int) else v)
    if sum = 0 then zero (a && b) else ofRatio (decide (sum < 0)) sum.natAbs 1

/-- A representable number of units gives a finite value. -/
theorem ofUnits_of_representable {negative : Bool} {units : Nat} (h : Representable units) :
    ofUnits negative units = .finite negative units h := by
  simp [ofUnits, h]

/-- What is built from units is never NaN. -/
theorem ofUnits_ne_nan (negative : Bool) (units : Nat) : ofUnits negative units ≠ .nan := by
  unfold ofUnits
  split <;> simp

/-- Rounding a quotient never gives NaN. -/
theorem ofRatio_ne_nan (negative : Bool) (num den : Nat) : ofRatio negative num den ≠ .nan :=
  ofUnits_ne_nan _ _

/-- A value is finite exactly when it has a number of units. -/
theorem isFinite_iff_units {x : Binary64} : x.isFinite = true ↔ ∃ u, x.units? = some u := by
  cases x <;> simp [isFinite, units?]

end Binary64

end SourceGauge
