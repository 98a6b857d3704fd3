import SourceGauge.Number.Numeral
import SourceGauge.Number.Shortest

/-!
# Numbers

The numbers that occur as metric values and bucket bounds: whole numbers of any size, binary64
values, and truth values, which count as one and zero but keep their own text. Comparison is
exact: every finite number is a whole number of units, so numbers of different kinds compare
without rounding.
-/

namespace SourceGauge

/-- The first natural number beyond the signed words of 64 bits. -/
def signedWordLimit : Nat := 0x8000000000000000

/-- The first natural number beyond the unsigned words of 64 bits. -/
def unsignedWordLimit : Nat := 0x10000000000000000

/-- A number as a caller gives it. -/
inductive Number
  | flag (value : Bool)
  | int (value : Int)
  | real (value : Binary64)
  deriving DecidableEq

/-- A point of the extended line on which numbers are compared, finite points in units. -/
inductive Extent
  | below
  | at (units : Int)
  | above
  deriving DecidableEq

/-- The order of the extended line. -/
def Extent.le : Extent → Extent → Bool
  | .below, _ => true
  | _, .above => true
  | .at u, .at v => decide (u ≤ v)
  | _, _ => false

/-- The order of the extended line is reflexive. -/
theorem Extent.le_refl (a : Extent) : a.le a = true := by
  cases a <;> simp [Extent.le]

/-- The order of the extended line is transitive. -/
theorem Extent.le_trans {a b c : Extent} (hab : a.le b = true) (hbc : b.le c = true) :
    a.le c = true := by
  cases a <;> cases b <;> cases c <;> simp_all [Extent.le]
  omega

/-- Any two points of the extended line are comparable. -/
theorem Extent.le_total (a b : Extent) : a.le b = true ∨ b.le a = true := by
  cases a <;> cases b <;> simp [Extent.le]
  omega

namespace Number

/-- The whole number that a truth value counts as. -/
def ofFlag (value : Bool) : Int := if value then 1 else 0

/-- Where a number lies; NaN lies nowhere. -/
def extent? : Number → Option Extent
  | .flag value => some (.at (ofFlag value * unitsPerOne))
  | .int value => some (.at (value * unitsPerOne))
  | .real (.finite negative units _) => some (.at (if negative then -(units : Int) else units))
  | .real (.infinite negative) => some (if negative then .below else .above)
  | .real .nan => none

/-- `a` is at most `b`; NaN compares with nothing. -/
def le (a b : Number) : Bool :=
  match a.extent?, b.extent? with
  | some x, some y => x.le y
  | _, _ => false

/-- `a` is less than `b`. -/
def lt (a b : Number) : Bool :=
  match a.extent?, b.extent? with
  | some x, some y => !y.le x
  | _, _ => false

/-- `a` and `b` are numerically equal. -/
def eqv (a b : Number) : Bool :=
  match a.extent?, b.extent? with
  | some x, some y => decide (x = y)
  | _, _ => false

/-- The nearest binary64 value; `none` for a whole number too large for any finite one. -/
def toBinary64? : Number → Option Binary64
  | .flag value => some (.ofInt (ofFlag value))
  | .int value => let x := Binary64.ofInt value; if x.isFinite then some x else none
  | .real x => some x

/-- Whether a number is finite; `none` for a whole number too large to be converted. -/
def isFinite? (n : Number) : Option Bool := n.toBinary64?.map Binary64.isFinite

/-- Whether a number counts as true: all but zero do. -/
def isTruthy (n : Number) : Bool := !n.eqv (.int 0)

/-- The text of a number. -/
def text : Number → String
  | .flag value => if value then "True" else "False"
  | .int value => toString value
  | .real x => x.text

/-- Whether a number can be written: a whole number may have as many digits as one that is
read. -/
def isWritable : Number → Bool
  | .int value => (Nat.toDigits 10 value.natAbs).length ≤ Numeral.maxDigits
  | _ => true

/-- Numeric equality is symmetric. -/
theorem eqv_comm (a b : Number) : a.eqv b = b.eqv a := by
  unfold eqv
  cases a.extent? <;> cases b.extent? <;> simp [eq_comm]

/-- The order of numbers is transitive, over all kinds of numbers. -/
theorem le_trans {a b c : Number} (hab : a.le b = true) (hbc : b.le c = true) :
    a.le c = true := by
  unfold le at *
  cases ha : a.extent? <;> cases hb : b.extent? <;> cases hc : c.extent? <;> simp_all
  exact Extent.le_trans hab hbc

/-- The strict order is transitive, over all kinds of numbers. -/
theorem lt_trans {a b c : Number} (hab : a.lt b = true) (hbc : b.lt c = true) :
    a.lt c = true := by
  unfold lt at *
  cases ha : a.extent? with
  | none => simp [ha] at hab
  | some x =>
    cases hb : b.extent? with
    | none => simp [hb] at hbc
    | some y =>
      cases hc : c.extent? with
      | none => simp [hc] at hbc
      | some z =>
        simp only [ha, hb, hc, Bool.not_eq_true'] at hab hbc ⊢
        rw [← Bool.not_eq_true] at hab hbc ⊢
        intro hzx
        rcases Extent.le_total x y with hxy | hyx
        · exact hbc (Extent.le_trans hzx hxy)
        · exact hab hyx

end Number

end SourceGauge
