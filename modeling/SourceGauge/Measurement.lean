import SourceGauge.Logging
import SourceGauge.Session
import SourceGauge.Settings.Layers

/-!
# Measuring a project

One measurement from start to end: settings are loaded, logging is set up after them, and one
pass is carried out with nodes that were scanned before. What was reported is filtered by the
log as it stands at the time.
-/

namespace SourceGauge

/-- A host together with the log of the library on it. -/
structure Desk where
  host : Host
  logging : Logging

namespace Desk

/-- Log what was reported. -/
def log (desk : Desk) (entries : List LogEntry) : List LogEntry × Desk :=
  let (passing, host) := desk.logging.log desk.host entries
  (passing, { desk with host })

/-- Set up logging as settings ask for. -/
def setUp (desk : Desk) (verbosity logFile : Value) : Desk × Except Failure Unit :=
  let ((logging, host), outcome) := desk.logging.setUp desk.host verbosity logFile
  (⟨host, logging⟩, outcome)

end Desk

/-- What a caller asks to be measured. A project that is described wrongly comes to light only
when the pass begins. -/
structure Measurement where
  project : Except Failure Project
  settingsFile : Option Settings.NamedFile
  overrides : Settings.Overrides

namespace Measurement

/-- The logger of measurements. -/
def logger : String := "codemeasure.api"

/-- What a measurement leaves behind: the desk, the store, and its run with the records. What
was reported is what was logged. -/
structure Result where
  desk : Desk
  store : RecordStore
  run : Run (List FileRecord)

/-- The report that settings were loaded. -/
def settingsReport (settings : Settings) : LogEntry :=
  ⟨.debug, logger, "Configuration loaded: " ++ settings.verbosity.name ++ " mode"⟩

/-- Set up logging by the settings. -/
def setUpLogging (desk : Desk) (settings : Settings) : Desk × Except Failure Unit :=
  desk.setUp (.text settings.verbosity.name) ((settings.logFile.map Value.text).getD .null)

/-- Measure with settings that have been loaded and logging that has been set up. -/
def runWith (measurement : Measurement) (desk : Desk) (ofMachine : Nat) (settings : Settings)
    (nodes : List SourceNode) : Result :=
  let session := Session.new settings
  let pass : Session.Pass := match measurement.project with
    | .error failure => ⟨session, .empty, .fail failure⟩
    | .ok project =>
      session.analyse desk.host ofMachine project (fun _ => nodes.map .ok) .empty
  let (entries, after) := desk.log (settingsReport settings :: pass.run.entries)
  ⟨after, pass.store, ⟨entries, pass.run.outcome⟩⟩

/-- Carry out a measurement over nodes that were scanned before. -/
def run (measurement : Measurement) (desk : Desk) (ofMachine : Nat) (nodes : List SourceNode) :
    Result :=
  match Settings.load desk.host measurement.settingsFile measurement.overrides with
  | .error failure => ⟨desk, .empty, .fail failure⟩
  | .ok settings =>
    match setUpLogging desk settings with
    | (after, .error failure) => ⟨after, .empty, .fail failure⟩
    | (after, .ok _) => measurement.runWith after ofMachine settings nodes

end Measurement

end SourceGauge
