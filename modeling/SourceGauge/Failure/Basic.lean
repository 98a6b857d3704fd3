import SourceGauge.Failure.Cause
import SourceGauge.Failure.Complaint

/-!
# Failures

A failed operation ends with a failure: a complaint of the library in the terms of its own
concepts, or a misuse of values or files that the library lets through. Every failure has one
text; for the library's own complaints it is the text of the complaint.
-/

namespace SourceGauge

/-- Why an operation failed. -/
inductive Failure
  | bounds (bounds : List Value) (fault : BoundsFault)
  | finalized (measure : Measure)
  | node (fault : NodeFault) (key : Option Text)
  | index (id : NodeId) (fault : IndexFault)
  | missingMetric (id : NodeId) (metric : Metric)
  | path (path : Path) (fault : PathFault)
  | setting (key : Text) (value : Value) (fault : SettingFault)
  | misfit (cause : Misfit)
  | value (fault : BadValue)
  | overflow (cause : Overflow)
  | nesting (cause : Nesting)
  | missingKey (shown : String)
  | undecodable (fault : Utf8.Fault)
  | unencodable (fault : Text.EncodingFault)
  | noHome
  | system (fault : FileFault) (path : Text)
  | noMember (typeName member : String)
  | cancelled

namespace Failure

/-- Two hexadecimal digits of an octet. -/
def octetText (octet : UInt8) : String := String.ofList (Text.hexDigits 2 octet.toNat)

/-- The octets at fault and where they are. -/
def octetsAtFault (fault : Utf8.Fault) : String :=
  match fault.octets with
  | [octet] => "byte 0x" ++ octetText octet ++ " in position " ++ toString fault.position
  | octets => "bytes in position " ++ toString fault.position ++ "-" ++
      toString (fault.position + octets.length - 1)

/-- The wording of octets that are not text. -/
def undecodableMessage (fault : Utf8.Fault) : String :=
  "\x27utf-8\x27 codec can\x27t decode " ++ octetsAtFault fault ++ ": " ++ fault.reason.message

/-- The characters at fault and where they are. -/
def charactersAtFault (fault : Text.EncodingFault) : String :=
  if fault.size == 1 then
    "character \x27" ++ String.ofList (Text.numberedEscape fault.first) ++ "\x27 in position " ++
      toString fault.start
  else
    "characters in position " ++ toString fault.start ++ "-" ++
      toString (fault.start + fault.size - 1)

/-- The wording of characters that cannot be encoded. -/
def unencodableMessage (fault : Text.EncodingFault) : String :=
  "\x27utf-8\x27 codec can\x27t encode " ++ charactersAtFault fault ++ ": surrogates not allowed"

/-- What a failure says: a complaint in the library's own terms, or a bare wording. -/
def report : Failure → Complaint ⊕ Text
  | .bounds listed fault => .inl (.invalidBounds listed (.text fault.message))
  | .finalized measure => .inl (.finalized (.text measure.name))
  | .node fault key =>
    .inl (.malformedNode (.text fault.message) ((key.map Value.text).getD .null))
  | .index id fault => .inl (.malformedIndex (.text id.text) (.text fault.message))
  | .missingMetric id metric => .inl (.missingMetric (.text id.text) (.text metric.name))
  | .path place fault => .inl (.invalidPath place.text (.text fault.message))
  | .setting key got fault => .inl (.invalidSetting (.text key) got (.text fault.message))
  | .misfit cause => .inr cause.message
  | .value fault => .inr fault.message
  | .overflow cause => .inr cause.message
  | .nesting cause => .inr cause.message
  | .missingKey shown => .inr shown
  | .undecodable fault => .inr (undecodableMessage fault)
  | .unencodable fault => .inr (unencodableMessage fault)
  | .noHome => .inr "Could not determine home directory."
  | .system fault place => .inr (fault.message place)
  | .noMember typeName member =>
    .inr ("\x27" ++ typeName ++ "\x27 object has no attribute \x27" ++ member ++ "\x27")
  | .cancelled => .inr ""

/-- The text of a failure. -/
def message (failure : Failure) : Text :=
  match failure.report with
  | .inl complaint => complaint.text
  | .inr wording => wording

/-- How deep lists and tables in a value may be nested for the value to be shown. -/
def maxShownDepth : Nat := 987

mutual

/-- Why a value cannot be shown with so many levels left for lists and tables, if it cannot: the
first of its parts that is nested deeper or that cannot be written. -/
def unshowableWithin? (room : Nat) : Value → Option Failure
  | .number n => if n.isWritable then none else some (.value .unprintableInteger)
  | .list items =>
    match room with
    | 0 => some (.nesting .shown)
    | room + 1 => unshowableItems? room items
  | .table entries =>
    match room with
    | 0 => some (.nesting .shown)
    | room + 1 => unshowableEntries? room entries
  | _ => none

/-- Why the items of a list cannot be shown. -/
def unshowableItems? (room : Nat) : List Value → Option Failure
  | [] => none
  | item :: rest => (unshowableWithin? room item).or (unshowableItems? room rest)

/-- Why the values of a table cannot be shown. -/
def unshowableEntries? (room : Nat) : List (Text × Value) → Option Failure
  | [] => none
  | (_, item) :: rest => (unshowableWithin? room item).or (unshowableEntries? room rest)

end

/-- Why a value cannot be shown, if it cannot. -/
def unshowable? (value : Value) : Option Failure := unshowableWithin? maxShownDepth value

/-- The refusal of a count, which shows the value it was given. -/
def ofCount (count : Value) (fault : BadValue) : Failure := (unshowable? count).getD (.value fault)

/-- The refusal of a setting, which shows the value it was given. -/
def ofSetting (key : Text) (value : Value) (fault : SettingFault) : Failure :=
  (unshowable? value).getD (.setting key value fault)

/-- The refusal of bucket bounds, which shows all of them. -/
def ofBounds (bounds : List Value) (fault : BoundsFault) : Failure :=
  (unshowable? (.list bounds)).getD (.bounds bounds fault)

/-- The refusal of a node description, which shows a value of it. -/
def ofNode (shown : Value) (fault : NodeFault) (key : Option Text) : Failure :=
  (unshowable? shown).getD (.node fault key)

mutual

/-- What is shown is not nested deeper than there is room for, and all its numbers can be
written. -/
theorem unshowableWithin?_eq_none_iff {room : Nat} {value : Value} :
    unshowableWithin? room value = none ↔ value.depth ≤ room ∧ value.isWritable = true := by
  match value with
  | .null => simp [unshowableWithin?, Value.depth, Value.isWritable]
  | .number n => simp [unshowableWithin?, Value.depth, Value.isWritable]
  | .text text => simp [unshowableWithin?, Value.depth, Value.isWritable]
  | .moment moment => simp [unshowableWithin?, Value.depth, Value.isWritable]
  | .list items =>
    cases room with
    | zero => simp [unshowableWithin?, Value.depth]
    | succ room =>
      rw [unshowableWithin?, unshowableItems?_eq_none_iff, Value.depth, Value.isWritable,
        Nat.succ_le_succ_iff]
  | .table entries =>
    cases room with
    | zero => simp [unshowableWithin?, Value.depth]
    | succ room =>
      rw [unshowableWithin?, unshowableEntries?_eq_none_iff, Value.depth, Value.isWritable,
        Nat.succ_le_succ_iff]

theorem unshowableItems?_eq_none_iff {room : Nat} {items : List Value} :
    unshowableItems? room items = none ↔
      Value.itemsDepth items ≤ room ∧ Value.itemsWritable items = true := by
  match items with
  | [] => simp [unshowableItems?, Value.itemsDepth, Value.itemsWritable]
  | item :: rest =>
    rw [unshowableItems?, Option.or_eq_none_iff, unshowableWithin?_eq_none_iff,
      unshowableItems?_eq_none_iff, Value.itemsDepth, Value.itemsWritable, Nat.max_le,
      Bool.and_eq_true]
    exact and_and_and_comm

theorem unshowableEntries?_eq_none_iff {room : Nat} {entries : List (Text × Value)} :
    unshowableEntries? room entries = none ↔
      Value.entriesDepth entries ≤ room ∧ Value.entriesWritable entries = true := by
  match entries with
  | [] => simp [unshowableEntries?, Value.entriesDepth, Value.entriesWritable]
  | (key, item) :: rest =>
    rw [unshowableEntries?, Option.or_eq_none_iff, unshowableWithin?_eq_none_iff,
      unshowableEntries?_eq_none_iff, Value.entriesDepth, Value.entriesWritable, Nat.max_le,
      Bool.and_eq_true]
    exact and_and_and_comm

end

/-- A value is shown if it is not nested too deep and its numbers can be written. -/
theorem unshowable?_eq_none_iff {value : Value} :
    unshowable? value = none ↔ value.depth ≤ maxShownDepth ∧ value.isWritable = true :=
  unshowableWithin?_eq_none_iff

/-- A list is shown if nothing is nested in its items and their numbers can be written. -/
theorem unshowable?_list {items : List Value}
    (h : ∀ item ∈ items, item.depth = 0 ∧ item.isWritable = true) :
    unshowable? (.list items) = none := by
  have hitems : Value.itemsDepth items = 0 ∧ Value.itemsWritable items = true := by
    induction items with
    | nil => exact ⟨rfl, rfl⟩
    | cons item rest ih =>
      obtain ⟨hdepth, hwritable⟩ := h item List.mem_cons_self
      obtain ⟨hdepths, hwritables⟩ := ih fun other hother =>
        h other (List.mem_cons_of_mem item hother)
      rw [Value.itemsDepth, Value.itemsWritable, hdepth, hdepths, hwritable, hwritables]
      exact ⟨rfl, rfl⟩
  rw [unshowable?_eq_none_iff, Value.depth, Value.isWritable, hitems.1]
  exact ⟨by decide, hitems.2⟩

mutual

/-- What keeps a value from being shown is too deep a nesting or too long a number. -/
theorem cause_of_unshowableWithin? {room : Nat} {value : Value} {failure : Failure}
    (h : unshowableWithin? room value = some failure) :
    failure = .nesting .shown ∨ failure = .value .unprintableInteger := by
  match value with
  | .null => simp [unshowableWithin?] at h
  | .number n =>
    rw [unshowableWithin?] at h
    split at h
    · contradiction
    · exact .inr (Option.some.inj h).symm
  | .text text => simp [unshowableWithin?] at h
  | .moment moment => simp [unshowableWithin?] at h
  | .list items =>
    cases room with
    | zero => exact .inl (Option.some.inj h).symm
    | succ room => exact cause_of_unshowableItems? h
  | .table entries =>
    cases room with
    | zero => exact .inl (Option.some.inj h).symm
    | succ room => exact cause_of_unshowableEntries? h

theorem cause_of_unshowableItems? {room : Nat} {items : List Value} {failure : Failure}
    (h : unshowableItems? room items = some failure) :
    failure = .nesting .shown ∨ failure = .value .unprintableInteger := by
  match items with
  | [] => simp [unshowableItems?] at h
  | item :: rest =>
    rcases Option.or_eq_some_iff.1 h with hitem | ⟨_, hrest⟩
    · exact cause_of_unshowableWithin? hitem
    · exact cause_of_unshowableItems? hrest

theorem cause_of_unshowableEntries? {room : Nat} {entries : List (Text × Value)}
    {failure : Failure} (h : unshowableEntries? room entries = some failure) :
    failure = .nesting .shown ∨ failure = .value .unprintableInteger := by
  match entries with
  | [] => simp [unshowableEntries?] at h
  | (key, item) :: rest =>
    rcases Option.or_eq_some_iff.1 h with hitem | ⟨_, hrest⟩
    · exact cause_of_unshowableWithin? hitem
    · exact cause_of_unshowableEntries? hrest

end

/-- What keeps a value from being shown is too deep a nesting or too long a number. -/
theorem cause_of_unshowable? {value : Value} {failure : Failure}
    (h : unshowable? value = some failure) :
    failure = .nesting .shown ∨ failure = .value .unprintableInteger :=
  cause_of_unshowableWithin? h

/-- A value that is not nested too deep and whose numbers can be written is shown. -/
theorem ofSetting_eq {key : Text} {value : Value} {fault : SettingFault}
    (hdepth : value.depth ≤ maxShownDepth) (hwritable : value.isWritable = true) :
    ofSetting key value fault = .setting key value fault := by
  rw [ofSetting, unshowable?_eq_none_iff.2 ⟨hdepth, hwritable⟩, Option.getD_none]

end Failure

/-- Check that a value can be a key. -/
def Value.checkKey (value : Value) : Except Failure Unit :=
  if value.isHashable then .ok () else .error (.misfit (.unhashable value.typeName))

/-- The path that a value names. -/
def Value.path : Value → Except Failure Path
  | .text path => .ok (.ofText path)
  | other => .error (.misfit (.notAPath other.typeName))

/-- What a value yields when it is gone through; some values cannot be. -/
def Value.elements (value : Value) : Except Failure (List Value) :=
  match value.elements? with
  | some items => .ok items
  | none => .error (.misfit (.notIterable value.typeName))

/-- A value that cannot be gone through is a misfit. -/
theorem Value.misfit_of_elements {value : Value} {failure : Failure}
    (h : value.elements = .error failure) : ∃ cause, failure = .misfit cause := by
  unfold Value.elements at h
  split at h
  · contradiction
  · exact ⟨_, (Except.error.inj h).symm⟩

end SourceGauge
