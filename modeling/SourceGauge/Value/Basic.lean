import SourceGauge.Number.Basic
import SourceGauge.Text.Quoted
import SourceGauge.Value.Moment

/-!
# Values

The dynamic values that node dumps, settings files and callers hand in, before they are
checked. A value has two texts: the plain one, in which a text stands for itself, and the
full one, in which it is quoted; inside lists and tables texts are always quoted. The full
text is made of characters alone. Tables keep their entries in the order given.
-/

namespace SourceGauge

/-- A value of unknown shape. -/
inductive Value
  | null
  | number (value : Number)
  | text (value : Text)
  | list (items : List Value)
  | table (entries : List (Text × Value))
  | moment (value : Moment)

namespace Value

/-- The name of a value's kind, as messages give it. -/
def typeName : Value → String
  | .null => "NoneType"
  | .number (.flag _) => "bool"
  | .number (.int _) => "int"
  | .number (.real _) => "float"
  | .text _ => "str"
  | .list _ => "list"
  | .table _ => "dict"
  | .moment m => m.typeName

mutual

/-- The full text of a value. -/
def full : Value → String
  | .null => "None"
  | .number n => n.text
  | .text s => Text.quote s
  | .list items => "[" ++ String.intercalate ", " (fullItems items) ++ "]"
  | .table entries => "\x7b" ++ String.intercalate ", " (fullEntries entries) ++ "\x7d"
  | .moment m => m.full

/-- The full texts of the items of a list. -/
def fullItems : List Value → List String
  | [] => []
  | item :: rest => full item :: fullItems rest

/-- The full texts of the entries of a table. -/
def fullEntries : List (Text × Value) → List String
  | [] => []
  | (key, item) :: rest => (Text.quote key ++ ": " ++ full item) :: fullEntries rest

end

/-- The plain text of a value: texts stand for themselves. -/
def plain : Value → Text
  | .text s => s
  | .moment m => m.plain
  | other => other.full

mutual

/-- How deep lists and tables are nested in a value. -/
def depth : Value → Nat
  | .list items => itemsDepth items + 1
  | .table entries => entriesDepth entries + 1
  | _ => 0

/-- The depth of the deepest item of a list. -/
def itemsDepth : List Value → Nat
  | [] => 0
  | item :: rest => max (depth item) (itemsDepth rest)

/-- The depth of the deepest value of a table. -/
def entriesDepth : List (Text × Value) → Nat
  | [] => 0
  | (_, item) :: rest => max (depth item) (entriesDepth rest)

end

mutual

/-- Whether every number in a value can be written. -/
def isWritable : Value → Bool
  | .number n => n.isWritable
  | .list items => itemsWritable items
  | .table entries => entriesWritable entries
  | _ => true

/-- Whether every number in the items of a list can be written. -/
def itemsWritable : List Value → Bool
  | [] => true
  | item :: rest => isWritable item && itemsWritable rest

/-- Whether every number in the values of a table can be written. -/
def entriesWritable : List (Text × Value) → Bool
  | [] => true
  | (_, item) :: rest => isWritable item && entriesWritable rest

end

/-- Whether a value counts as true: null, zero and whatever is empty do not. -/
def isTruthy : Value → Bool
  | .null => false
  | .number n => n.isTruthy
  | .text s => !s.isEmpty
  | .list items => !items.isEmpty
  | .table entries => !entries.isEmpty
  | .moment _ => true

/-- Whether a value can be a key. -/
def isHashable : Value → Bool
  | .list _ => false
  | .table _ => false
  | _ => true

/-- The values that iterating over a value yields: code points of a text, items of a list, keys
of a table; other values cannot be iterated over. -/
def elements? : Value → Option (List Value)
  | .text s => some (s.points.map fun point => .text ⟨[point]⟩)
  | .list items => some items
  | .table entries => some (entries.map fun entry => .text entry.1)
  | _ => none

/-- The number a value is. -/
def number? : Value → Option Number
  | .number n => some n
  | _ => none

/-- The value of a key in a list of entries, the first one if there are several. -/
def lookup (key : Text) (entries : List (Text × Value)) : Option Value :=
  List.lookup key entries

/-- The value of a key in a table, null counting as absent. -/
def field? (key : Text) (entries : List (Text × Value)) : Option Value :=
  match lookup key entries with
  | some .null => none
  | found => found

/-- Texts as a value. -/
def ofTexts (texts : List Text) : Value := .list (texts.map .text)

/-- Numbers as a value. -/
def ofNumbers (numbers : List Number) : Value := .list (numbers.map .number)

end Value

end SourceGauge
