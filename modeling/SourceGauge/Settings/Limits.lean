import SourceGauge.Histogram.Bounds

/-!
# Bucket limits

The bucket bounds of the two complexity histograms, as settings give them. A faulty bound is
reported under the dotted name of its setting.
-/

namespace SourceGauge

/-- Bucket bounds for the complexity of functions and of files. -/
structure Limits where
  functions : Bounds
  files : Bounds

/-- The name that a structure of settings goes by among its own fields; it cannot be given. -/
def selfName : String := "self"

/-- The first name that is none of the fields of a structure of settings. -/
def unknownField? (known : List String) (entries : List (Text × Value)) : Option Text :=
  (entries.find? fun entry => !known.any fun name => entry.1 == (name : Text)).map Prod.fst

/-- Refuse the first name that cannot be given. -/
def checkNames (owner : String) (known : List String) (entries : List (Text × Value)) :
    Except Failure Unit :=
  match unknownField? known entries with
  | none => .ok ()
  | some name =>
    if name == selfName then .error (.misfit (.repeatedArgument owner selfName))
    else .error (.misfit (.unexpectedField owner name))

namespace Limits

/-- The bounds for functions that are used unless others are set. -/
def standardFunctions : Bounds where
  values := [1, 2, 4, 6, 8, 10, 12, 20, 30].map .int
  nonempty := by simp
  bound := by decide +kernel
  increasing := by decide +kernel

/-- The bounds for files that are used unless others are set. -/
def standardFiles : Bounds where
  values := [0, 5, 10, 20, 30, 60, 90].map .int
  nonempty := by simp
  bound := by decide +kernel
  increasing := by decide +kernel

/-- The limits that are used unless others are set. -/
def standard : Limits := ⟨standardFunctions, standardFiles⟩

/-- The name of the limits for functions. -/
def functionsField : String := "function_bottom_limits"

/-- The name of the limits for files. -/
def filesField : String := "file_bottom_limits"

/-- Read the bounds of a field, a fault being one of the setting. -/
def readField (name : String) (standard : Bounds) (entries : List (Text × Value)) :
    Except Failure Bounds :=
  match Value.lookup name entries with
  | none => .ok standard
  | some value =>
    match Bounds.ofValue value with
    | .ok bounds => .ok bounds
    | .error (.bounds listed fault) =>
      .error (.setting ("distributions." ++ name) (.list listed) (.bounds fault))
    | .error failure => .error failure

/-- Read limits from the entries of a table; what is not given is standard. -/
def ofEntries (entries : List (Text × Value)) : Except Failure Limits := do
  checkNames "DistributionConfig" [functionsField, filesField] entries
  let functions ← readField functionsField standardFunctions entries
  let files ← readField filesField standardFiles entries
  return ⟨functions, files⟩

end Limits

end SourceGauge
