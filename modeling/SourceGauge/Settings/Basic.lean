import SourceGauge.Outcome
import SourceGauge.Settings.Limits

/-!
# Settings

The settings of one pass: what the scanner is told, how the pass is carried out, what is
logged and where, and the bucket limits. Settings are read from named values of unknown shape
and checked field by field, in a fixed order.
-/

namespace SourceGauge

/-- How much is logged. -/
inductive Verbosity
  | quiet
  | normal
  | verbose
  deriving DecidableEq, Repr

namespace Verbosity

/-- All degrees of verbosity. -/
def all : List Verbosity := [quiet, normal, verbose]

/-- The name of a degree. -/
def name : Verbosity → String
  | quiet => "quiet"
  | normal => "normal"
  | verbose => "verbose"

/-- The rank that an entry needs in order to be logged. -/
def rank : Verbosity → Nat
  | quiet => 40
  | normal => 30
  | verbose => 10

/-- The degree that a value names. -/
def ofValue? : Value → Option Verbosity
  | .text name => all.find? fun v => name == v.name
  | _ => none

end Verbosity

/-- The settings of one pass. -/
structure Settings where
  defines : List Text
  includeDirectories : List Text
  workers : Option Number
  parallelThreshold : Number
  verbosity : Verbosity
  logFile : Option Text
  limits : Limits

namespace Settings

/-- The name of the table of bucket limits. -/
def limitsField : String := "distributions"

/-- The names of all settings. -/
def fieldNames : List String :=
  ["defines", "include_directories", "workers", "parallel_threshold", "verbosity", "log_file",
    limitsField]

/-- The text that an item of a list of texts is. -/
def textOf (name : String) : Value → Except Failure Text
  | .text s => .ok s
  | other => .error (.ofSetting name other .notAText)

/-- Read a list of texts; a single text is not one. -/
def readTexts (name : String) (entries : List (Text × Value)) : Except Failure (List Text) :=
  match Value.lookup name entries with
  | none => .ok []
  | some (.text s) => .error (.setting name (.text s) .notAList)
  | some value => value.elements.bind (mapOk (textOf name))

/-- The number that a value is, if it is at least one. -/
def atLeastOne (name : String) (value : Value) : Except Failure Number :=
  match value.number? with
  | none => .error (.misfit (.notOrdered "<" value.typeName "int"))
  | some n => if n.lt (.int 1) then .error (.ofSetting name value .belowOne) else .ok n

/-- Read the number of workers; null leaves it to the machine. -/
def readWorkers (entries : List (Text × Value)) : Except Failure (Option Number) :=
  match Value.field? "workers" entries with
  | none => .ok none
  | some value => (atLeastOne "workers" value).map some

/-- The number of files from which on workers are used, unless another is set. -/
def standardThreshold : Number := .int 10

/-- Read the number of files from which on workers are used. -/
def readThreshold (entries : List (Text × Value)) : Except Failure Number :=
  match Value.lookup "parallel_threshold" entries with
  | none => .ok standardThreshold
  | some value => atLeastOne "parallel_threshold" value

/-- Read the verbosity. -/
def readVerbosity (entries : List (Text × Value)) : Except Failure Verbosity :=
  match Value.lookup "verbosity" entries with
  | none => .ok .normal
  | some value =>
    match Verbosity.ofValue? value with
    | some verbosity => .ok verbosity
    | none => .error (.ofSetting "verbosity" value .notAVerbosity)

/-- Read the log file. -/
def readLogFile (entries : List (Text × Value)) : Except Failure (Option Text) :=
  match Value.field? "log_file" entries with
  | none => .ok none
  | some (.text path) => .ok (some path)
  | some other => .error (.ofSetting "log_file" other .notALogFile)

/-- Settings from named values and limits that have been read before. -/
def ofEntries (entries : List (Text × Value)) (limits : Limits) : Except Failure Settings := do
  checkNames "MeasureSettings" fieldNames entries
  let defines ← readTexts "defines" entries
  let includeDirectories ← readTexts "include_directories" entries
  let workers ← readWorkers entries
  let parallelThreshold ← readThreshold entries
  let verbosity ← readVerbosity entries
  let logFile ← readLogFile entries
  return { defines, includeDirectories, workers, parallelThreshold, verbosity, logFile, limits }

/-- The settings when nothing is set. -/
def standard : Settings where
  defines := []
  includeDirectories := []
  workers := none
  parallelThreshold := standardThreshold
  verbosity := .normal
  logFile := none
  limits := .standard

/-- The number of workers on a machine that has the given number for passes that leave it open. -/
def effectiveWorkers (settings : Settings) (ofMachine : Nat) : Number :=
  settings.workers.getD (.int ofMachine)

/-- Nothing set gives the standard settings. -/
theorem ofEntries_nil : ofEntries [] .standard = .ok standard := rfl

end Settings

end SourceGauge
