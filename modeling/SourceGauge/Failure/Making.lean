import SourceGauge.Failure.Basic

/-!
# Making complaints

Complaints made by a caller from a list of values. Every kind has its own parameters, some of
which may be left out; the families take a message and details.

Details have to be a table. Something else is first gone through as a sequence of pairs, whose
first parts are keys; even if it passes for one, it lacks the entries of a table.
-/

namespace SourceGauge

/-- A parameter: its name, and whether a value must be given for it. -/
structure Parameter where
  name : String
  required : Bool
  deriving DecidableEq, Repr

namespace ComplaintKind

/-- The parameters of the families. -/
def familyParameters : List Parameter := [⟨"message", true⟩, ⟨"details", false⟩]

/-- The parameters of a kind that has its own. -/
def ownParameters? : ComplaintKind → Option (List Parameter)
  | malformedNode => some [⟨"reason", true⟩, ⟨"node_key", false⟩]
  | malformedIndex => some [⟨"node_key", true⟩, ⟨"reason", true⟩]
  | missingMetric => some [⟨"node_key", true⟩, ⟨"metric", true⟩]
  | invalidBounds => some [⟨"boundaries", true⟩, ⟨"reason", true⟩]
  | finalized => some [⟨"metric", true⟩]
  | invalidPath => some [⟨"path", true⟩, ⟨"reason", true⟩]
  | invalidSetting => some [⟨"key", true⟩, ⟨"value", true⟩, ⟨"reason", true⟩]
  | _ => none

/-- The parameters of a kind, and the kind they belong to. -/
def parameters (kind : ComplaintKind) : ComplaintKind × List Parameter :=
  match kind.ownParameters? with
  | some own => (kind, own)
  | none => (general, familyParameters)

/-- Check the number of values. The complaint itself counts as one of those it takes. -/
def checkArguments (kind : ComplaintKind) (given : Nat) : Except Failure Unit :=
  let (owner, parameters) := kind.parameters
  let missing := (parameters.drop given).filter Parameter.required
  if parameters.length < given then
    let least := parameters.countP Parameter.required
    .error (.misfit (.tooManyArguments owner.name (least + 1) (parameters.length + 1) (given + 1)))
  else if missing.isEmpty then .ok ()
  else .error (.misfit (.missingArguments owner.name (missing.map Parameter.name)))

end ComplaintKind

namespace Complaint

/-- Check that a value at a position is a pair whose first part can be a key. -/
def checkPair (position : Nat) (value : Value) : Except Failure Unit :=
  match value.elements? with
  | none => .error (.misfit (.notAPair position))
  | some [key, _] => key.checkKey
  | some parts => .error (.value (.pairSize position parts.length))

/-- Check that values from a position on are pairs whose first parts can be keys. -/
def checkPairs (position : Nat) : List Value → Except Failure Unit
  | [] => .ok ()
  | value :: rest => do
    checkPair position value
    checkPairs (position + 1) rest

/-- The details that a value gives; an empty value gives none. -/
def detailsOf (value : Value) : Except Failure (List (Text × Value)) :=
  match value with
  | .table entries => .ok entries
  | other =>
    if other.isTruthy then do
      checkPairs 0 (← other.elements)
      throw (.noMember other.typeName "items")
    else .ok []

/-- Check that a complaint can show itself: without details it is its message, which must then
be a text. -/
def checkText (complaint : Complaint) : Except Failure Unit :=
  match complaint.details, complaint.message with
  | _ :: _, _ => .ok ()
  | [], .text _ => .ok ()
  | [], other => .error (.misfit (.notText other.typeName))

/-- Make a complaint of a family. -/
def ofFamily (family : ComplaintKind) (message details : Value) : Except Failure Complaint := do
  let complaint := plain family message (← detailsOf details)
  checkText complaint
  return complaint

/-- Make a complaint from values. -/
def ofArguments (kind : ComplaintKind) (arguments : List Value) : Except Failure Complaint := do
  kind.checkArguments arguments.length
  let first := arguments.head?.getD .null
  let second := arguments[1]?.getD .null
  let third := arguments[2]?.getD .null
  match kind with
  | .malformedNode => return malformedNode first second
  | .malformedIndex => return malformedIndex first second
  | .missingMetric => return missingMetric first second
  | .invalidBounds => return invalidBounds (← first.elements) second
  | .finalized => return finalized first
  | .invalidPath => return invalidPath first.plain second
  | .invalidSetting => return invalidSetting first second third
  | family => ofFamily family first second

end Complaint

end SourceGauge
