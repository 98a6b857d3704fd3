import SourceGauge.Files.Access
import SourceGauge.Settings.Environment

/-!
# Loading settings

Settings come from several sources, each one replacing single settings of those before it: the
settings file in the home directory, the one in the working directory, a file that is named
explicitly, the environment, and the caller. The table of bucket limits is taken as a whole from the
last source that has it; a limit that it lacks is standard.
-/

namespace SourceGauge.Settings

/-- Named values of unknown shape. -/
abbrev Entries := List (Text × Value)

/-- The entries of one source put over those of the sources before it. -/
def overlay (lower upper : Entries) : Entries :=
  upper.foldl (fun entries entry => putEntry entry.1 entry.2 entries) lower

/-- The entries without those of a name. -/
def without (name : Text) (entries : Entries) : Entries :=
  entries.filter fun entry => entry.1 != name

/-- What a caller sets: named values, and perhaps limits that have been read before. -/
structure Overrides where
  entries : Entries
  limits : Option Limits

/-- The fault of a settings file. -/
def fileFault (path : Path) (fault : SettingFault) : Failure :=
  .setting path.text (.text "<file>") fault

/-- Read a settings file. -/
def readFile (host : Host) (path : Path) : Except Failure Entries :=
  match host.readText path with
  | .error (.system fault place) => .error (fileFault path (.unreadable fault place))
  | .error failure => .error failure
  | .ok text =>
    match Toml.read text with
    | .ok entries => .ok entries
    | .error (.fault fault) => .error (fileFault path (.document fault))
    | .error (.tooManyDigits count) => .error (.value (.tooManyDigits count))
    | .error .tooDeep => .error (.nesting .settings)

/-- Read a settings file that need not exist. -/
def readOptional (host : Host) (path : Path) : Except Failure Entries := do
  if ← host.exists? path then readFile host path else return []

/-- How a caller names a settings file: by its path, or by a value of some other kind, which
cannot be asked whether it exists. -/
inductive NamedFile
  | path (path : Path)
  | other (typeName : String)
  deriving DecidableEq, Repr

/-- Read a settings file that is named explicitly and must exist. -/
def readExplicit (host : Host) : Option NamedFile → Except Failure Entries
  | none => .ok []
  | some (.other typeName) => .error (.noMember typeName "exists")
  | some (.path path) => do
    if ← host.exists? path then readFile host path else throw (.path path .noSettings)

/-- The settings file in the home directory. -/
def globalPath (host : Host) : Except Failure Path :=
  match host.home with
  | none => .error .noHome
  | some home => .ok (home.join (.ofText ".codemeasure.toml"))

/-- The settings file in the working directory. -/
def projectPath (host : Host) : Path :=
  (Host.pathOf host.workingDirectory).join (.ofText "codemeasure.toml")

/-- The name of the verbosity among the settings. -/
def verbosityField : Text := "verbosity"

/-- Replace a flag by the verbosity it stands for, if it is set. -/
def applyFlag (flag : Text) (verbosity : Verbosity) (entries : Entries) : Entries :=
  match Value.lookup flag entries with
  | none => entries
  | some value =>
    let marked :=
      if value.isTruthy then putEntry verbosityField (.text verbosity.name) entries else entries
    without flag marked

/-- Replace the flags of a caller; the quiet flag wins. -/
def applyFlags (entries : Entries) : Entries :=
  applyFlag "quiet" .quiet (applyFlag "verbose" .verbose entries)

/-- A list of bounds whose shape is checked before any bound is looked at. -/
def checkShape (table : Entries) (entry : Text × Value) : Except Failure (Text × Value) :=
  match entry.2.elements? with
  | some items => .ok (entry.1, .list items)
  | none =>
    .error (.ofSetting limitsField (.table table) (.misfit (.notIterable entry.2.typeName)))

/-- Limits from the table that the last source gives. -/
def limitsOf (value : Value) : Except Failure Limits :=
  match value with
  | .table table => do
    let entries ← mapOk (checkShape table) table
    match Limits.ofEntries entries with
    | .error (.misfit misfit) => .error (.ofSetting limitsField value (.misfit misfit))
    | other => other
  | other => .error (.ofSetting limitsField other .notATable)

/-- The limits that all sources together give: those of the caller, those of the last source that
is not null, or the standard ones. -/
def mergedLimits (merged : Entries) (given : Option Limits) : Except Failure (Option Limits) :=
  match given with
  | some limits => .ok (some limits)
  | none =>
    match Value.field? limitsField merged with
    | none => .ok none
    | some value => (limitsOf value).map some

/-- Texts in the order of their code points. -/
def sortTexts (texts : List Text) : List Text := texts.mergeSort Text.le

/-- The names of the settings that were given, for the message that one of them is no setting. -/
def givenNames (rest : Entries) (limits : Option Limits) : Value :=
  let others : List Text := if limits.isSome then [limitsField] else []
  .ofTexts (sortTexts (rest.map Prod.fst ++ others))

/-- Settings from the merged entries. A value of the wrong kind is a fault of the settings as a
whole. -/
def ofMerged (merged : Entries) (given : Option Limits) : Except Failure Settings := do
  let limits ← mergedLimits merged given
  let rest := without limitsField merged
  match ofEntries rest (limits.getD .standard) with
  | .error (.misfit misfit) =>
    .error (.setting "settings" (givenNames rest limits) (.misfit misfit))
  | other => other

/-- The entries of all sources, each put over those before it. -/
def mergedEntries (host : Host) (explicitFile : Option NamedFile) (overrides : Entries) :
    Except Failure Entries := do
  let global ← readOptional host (← globalPath host)
  let project ← readOptional host (projectPath host)
  let named ← readExplicit host explicitFile
  let fromEnvironment ← ofVariables host.environment
  let sources := [project, named, fromEnvironment, applyFlags overrides]
  return sources.foldl overlay global

/-- Load settings from all sources. -/
def load (host : Host) (explicitFile : Option NamedFile) (overrides : Overrides) :
    Except Failure Settings := do
  let merged ← mergedEntries host explicitFile overrides.entries
  ofMerged merged overrides.limits

end SourceGauge.Settings
