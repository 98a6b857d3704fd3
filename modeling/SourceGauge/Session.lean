import SourceGauge.Aggregation.Basic
import SourceGauge.Project
import SourceGauge.RecordStore

/-!
# Measurement sessions

A session carries out passes with fixed settings: it asks the scanner for the nodes of a
project, indexes them, aggregates one record per file, and saves the records. Records are
saved only after all files have been aggregated, so a pass that fails leaves the store as it
was. The session remembers the latest index and what it asked the scanner for.
-/

namespace SourceGauge

/-- What the scanner was asked for. -/
structure ScanRequest where
  files : List Path
  configuration : ScannerConfiguration

/-- A session with its settings and what it remembers. -/
structure Session where
  settings : Settings
  index : Option NodeIndex
  requests : List ScanRequest

namespace Session

/-- The logger of sessions. -/
def logger : String := "codemeasure.sensor"

/-- A session that has not measured anything. -/
def new (settings : Settings) : Session := ⟨settings, none, []⟩

/-- How a session aggregates, on a machine that has the given number of workers. -/
def aggregator (session : Session) (ofMachine : Nat) : Aggregator :=
  .ofNumbers session.settings.limits (session.settings.effectiveWorkers ofMachine)
    session.settings.parallelThreshold

/-- What a pass leaves behind: the session, the store, and its run with the saved records. -/
structure Pass where
  session : Session
  store : RecordStore
  run : Run (List FileRecord)

/-- The report that a scan begins. -/
def scanReport (request : ScanRequest) : Run Unit :=
  .report .info logger
    ("Scanning " ++ toString request.files.length ++ " files under " ++
      request.configuration.baseDirectory)

/-- The report that records were saved. -/
def saveReport (records : List FileRecord) : Run Unit :=
  .report .info logger ("Saved measures for " ++ toString records.length ++ " files")

/-- Aggregate an index as a conduct says, save the records and report. The records of a pass have
texts as keys, so saving them cannot fail. -/
def finishBy (conduct : Conduct) (session : Session) (ofMachine : Nat) (store : RecordStore)
    (index : NodeIndex) : Pass :=
  let aggregated := Aggregator.aggregateBy conduct (session.aggregator ofMachine) index
  match aggregated.outcome with
  | .error failure => ⟨session, store, ⟨aggregated.entries, .error failure⟩⟩
  | .ok records =>
    { session
      store := store.putAll records
      run := aggregated.andThen fun records =>
        ⟨store.saveReports records ++ (saveReport records).entries, .ok records⟩ }

/-- A pass with more reported before it. -/
def Pass.after (entries : List LogEntry) (pass : Pass) : Pass :=
  { pass with run := ⟨entries ++ pass.run.entries, pass.run.outcome⟩ }

/-- Measure a project whose nodes the scanner converts one after the other, and aggregate them by
the conduct that their index meets with. -/
def analyseBy (conduct : NodeIndex → Conduct) (session : Session) (host : Host) (ofMachine : Nat)
    (project : Project) (scan : ScanRequest → List (Except Failure SourceNode))
    (store : RecordStore) : Pass :=
  match project.configuration session.settings host with
  | .error failure => ⟨session, store, .fail failure⟩
  | .ok configuration =>
    let request : ScanRequest := ⟨project.files, configuration⟩
    let asked := { session with requests := session.requests ++ [request] }
    let built := NodeIndex.build (scan request)
    let before := (scanReport request).entries ++ built.entries
    match built.outcome with
    | .error failure => ⟨asked, store, ⟨before, .error failure⟩⟩
    | .ok index =>
      (finishBy (conduct index) { asked with index := some index } ofMachine store index).after
        before

/-- Measure a project by the conduct that keeps all orders. -/
def analyse (session : Session) (host : Host) (ofMachine : Nat) (project : Project)
    (scan : ScanRequest → List (Except Failure SourceNode)) (store : RecordStore) : Pass :=
  analyseBy (fun index => .plain index.files.length) session host ofMachine project scan store

/-- How a session over a named kind of scanner shows itself. -/
def text (scanner : String) : String := "MeasureSensor(source=" ++ scanner ++ ")"

/-- A pass that fails leaves the store as it was. -/
theorem store_analyseBy_of_error {conduct : NodeIndex → Conduct} {session : Session} {host : Host}
    {ofMachine : Nat} {project : Project} {scan : ScanRequest → List (Except Failure SourceNode)}
    {store : RecordStore} {failure : Failure}
    (h : (analyseBy conduct session host ofMachine project scan store).run.outcome =
      .error failure) :
    (analyseBy conduct session host ofMachine project scan store).store = store := by
  revert h
  unfold analyseBy
  dsimp only
  split
  · intro _
    rfl
  · split
    · intro _
      rfl
    · unfold finishBy Pass.after
      dsimp only
      split
      · intro _
        rfl
      · rename_i records hrecords
        simp [Run.andThen, hrecords]

end Session

end SourceGauge
