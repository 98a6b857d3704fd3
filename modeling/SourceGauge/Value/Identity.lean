import SourceGauge.Value.Basic

/-!
# Values as keys

What makes two values the same key. Lists and tables cannot be keys. Numbers are the same key if
they are equal, whatever their kind, so one, a real one and a true flag are; every NaN is a key
of its own. Other values are the same key only as themselves.
-/

namespace SourceGauge

/-- What a value is as a key; one NaN is told from another by a place. -/
inductive KeyIdentity
  | null
  | number (extent : Extent)
  | notANumber (place : Nat)
  | text (text : Text)
  | moment (moment : Moment)
  deriving DecidableEq

namespace Value

/-- What a value is as a key, if it can be one; `place` tells a NaN from those at other places. -/
def identity? (place : Nat) : Value → Option KeyIdentity
  | .null => some .null
  | .number n =>
    match n.extent? with
    | some extent => some (.number extent)
    | none => some (.notANumber place)
  | .text t => some (.text t)
  | .moment m => some (.moment m)
  | .list _ => none
  | .table _ => none

/-- A value is something as a key exactly if it can be one. -/
theorem isSome_identity? (place : Nat) (value : Value) :
    (value.identity? place).isSome = value.isHashable := by
  cases value with
  | number n => cases h : n.extent? <;> simp [identity?, isHashable, h]
  | _ => rfl

end Value

end SourceGauge
