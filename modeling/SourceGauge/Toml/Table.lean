import SourceGauge.OrderedMap
import SourceGauge.Value.Basic

/-!
# Growing a settings document

A document grows by headers and by key-value pairs with dotted keys. Two kinds of marks on
keys decide what may still be added: a *declared* key was opened by a header and cannot be
opened again, and whatever lies at or below a *closed* key was written inline and cannot
grow. Keys that dotted pairs pass through become declared at the next header.
-/

namespace SourceGauge.Toml

/-- The parts of a dotted key, from the top of the document. -/
abbrev Key := List Text

/-- What is recorded about a key. -/
inductive Mark
  | declared
  | closed
  deriving DecidableEq, Repr

/-- The marks of a document, and those that the next header brings into force. -/
structure Marks where
  current : List (Key × Mark)
  pending : List (Key × Mark)

namespace Marks

/-- No marks. -/
def none : Marks := ⟨[], []⟩

/-- Mark a key. -/
def add (marks : Marks) (key : Key) (mark : Mark) : Marks :=
  { marks with current := (key, mark) :: marks.current }

/-- Mark a key from the next header on. -/
def addLater (marks : Marks) (key : Key) (mark : Mark) : Marks :=
  { marks with pending := (key, mark) :: marks.pending }

/-- Bring the pending marks into force. -/
def settle (marks : Marks) : Marks := ⟨marks.pending ++ marks.current, []⟩

/-- Forget the marks at and below a key. -/
def forget (marks : Marks) (key : Key) : Marks :=
  { marks with current := marks.current.filter fun entry => !key.isPrefixOf entry.1 }

/-- Whether a key is marked. A closed key closes everything below it. -/
def has (marks : Marks) (key : Key) (mark : Mark) : Bool :=
  marks.current.any fun entry =>
    entry.2 == mark && (entry.1 == key || (mark == .closed && entry.1.isPrefixOf key)) &&
      !key.isEmpty

end Marks

/-- The entries of a table. -/
abbrev Entries := List (Text × Value)

/-- Change the table that a key leads to, making tables on the way; a list on the way stands for
its last item if `throughLists` allows it. `none` if something else is in the way. -/
def modifyAt (throughLists : Bool) (change : Entries → Option Entries) :
    Key → Entries → Option Entries
  | [], entries => change entries
  | part :: rest, entries =>
    match Value.lookup part entries with
    | Option.none => (modifyAt throughLists change rest []).map fun inner =>
        putEntry part (.table inner) entries
    | some (.table inner) => (modifyAt throughLists change rest inner).map fun changed =>
        putEntry part (.table changed) entries
    | some (.list items) =>
      if throughLists then
        match items.getLast? with
        | some (.table inner) => (modifyAt throughLists change rest inner).map fun changed =>
            putEntry part (.list (items.dropLast ++ [.table changed])) entries
        | _ => Option.none
      else Option.none
    | some _ => Option.none

/-- Add an entry that is not there yet. -/
def addNew (name : Text) (value : Value) (entries : Entries) : Option Entries :=
  if (Value.lookup name entries).isSome then none else some (putEntry name value entries)

/-- Append an empty table to the list of a name, making the list if there is none. -/
def appendTable (name : Text) (entries : Entries) : Option Entries :=
  match Value.lookup name entries with
  | some (.list items) => some (putEntry name (.list (items ++ [.table []])) entries)
  | some _ => none
  | none => some (putEntry name (.list [.table []]) entries)

end SourceGauge.Toml
