import SourceGauge.Settings.Basic
import SourceGauge.Text.Split

/-!
# Settings from the environment

Variables named after settings, in capitals behind a common start. Lists are separated by
commas, with blanks around the items and blank items dropped. Bucket limits cannot be set
here.
-/

namespace SourceGauge.Settings

/-- How the text of a variable is read. -/
inductive VariableForm
  | texts
  | whole
  | text
  deriving DecidableEq, Repr

/-- The settings that a variable can give, in the order in which variables are read. -/
def variableForms : List (String × VariableForm) :=
  [("defines", .texts), ("include_directories", .texts), ("workers", .whole),
    ("parallel_threshold", .whole), ("verbosity", .text), ("log_file", .text)]

/-- The variable of a setting. -/
def variableName (field : String) : String :=
  "CODEMEASURE_" ++ String.ofList (field.toList.map Char.toUpper)

/-- The items between commas, trimmed, without those that are blank. -/
def splitItems (text : Text) : List Text :=
  ((text.pieces ',').map Text.trim).filter fun item => !item.isEmpty

/-- Read the text of a variable. -/
def readVariable (form : VariableForm) (text : Text) : Except BadValue Value :=
  match form with
  | .texts => .ok (.ofTexts (splitItems text))
  | .whole => (BadValue.readWhole text).map fun n => .number (.int n)
  | .text => .ok (.text text)

/-- The setting that a variable gives, if the variable is set. -/
def variableEntry (environment : List (Text × Text)) (field : String × VariableForm) :
    Except Failure (Option (Text × Value)) :=
  let name : Text := variableName field.1
  match environment.lookup name with
  | none => .ok none
  | some text =>
    match readVariable field.2 text with
    | .ok value => .ok (some (field.1, value))
    | .error fault => .error (.setting name (.text text) (.value fault))

/-- The settings that the environment gives. -/
def ofVariables (environment : List (Text × Text)) : Except Failure (List (Text × Value)) :=
  (mapOk (variableEntry environment) variableForms).map fun found => found.filterMap id

/-- An item is never empty. -/
theorem isEmpty_of_mem_splitItems {text item : Text} (h : item ∈ splitItems text) :
    item.isEmpty = false := by
  unfold splitItems at h
  have hkept := (List.mem_filter.1 h).2
  simpa using hkept

end SourceGauge.Settings
