import SourceGauge.Measurement
import SourceGauge.Node.Document

/-!
# Reports

The report on a project whose nodes were dumped by an earlier scan: one line for each file,
then a blank line and the complexity of the files over the whole project. What has been
printed before a failure stays printed.
-/

namespace SourceGauge

/-- What a report prints, and how it ends. -/
structure Report where
  desk : Desk
  lines : List Text
  run : Run Unit

namespace Report

/-- A scalar measure rounded to a whole number. -/
def roundedMeasure (record : FileRecord) (measure : Measure) : Except Failure String :=
  match record.measures.get? measure with
  | some value =>
    match value.number?.bind Number.toBinary64? with
    | some x => .ok x.wholeText
    | none => .error (.missingKey measure.shown)
  | none => .error (.missingKey measure.shown)

/-- The line of a file. -/
def fileLine (base : Path) (record : FileRecord) : Except Failure Text := do
  let lines ← roundedMeasure record .ncloc
  let complexity ← roundedMeasure record .complexity
  let functions ← record.functionComplexity.toText
  return FileRecord.pathBelow base record.key.plain ++ ": ncloc=" ++ lines ++
    " complexity=" ++ complexity ++ " functions=" ++ functions

/-- The last line: the complexity of all files. -/
def totalLine (store : RecordStore) : Except Failure Text := do
  match ← store.fileComplexity with
  | none => throw (.noMember "NoneType" "to_data")
  | some histogram =>
    let text ← histogram.toText
    return "File complexity across " ++ toString store.size ++ " files: " ++ text

/-- Lines up to the first that fails. -/
def printLines : List (Except Failure Text) → List Text × Except Failure Unit
  | [] => ([], .ok ())
  | .error failure :: _ => ([], .error failure)
  | .ok line :: rest =>
    let (lines, outcome) := printLines rest
    (line :: lines, outcome)

/-- The lines of a report on the records of a store. -/
def linesOf (base : Path) (store : RecordStore) : List (Except Failure Text) :=
  store.all.map (fileLine base) ++ [.ok "", totalLine store]

/-- The file that holds the nodes, unless one is named. -/
def dumpPath (base : Path) : Option Text → Path
  | some dump => .ofText dump
  | none => base.join (.ofText "nodes.json")

/-- The measurement that a report is about. -/
def measurementOf (base : Path) : Measurement where
  project := .ok ⟨base, .text "UTF-8", []⟩
  settingsFile := none
  overrides := ⟨[], none⟩

/-- The report on measured records. -/
def ofResult (base : Path) (loaded : List LogEntry) (result : Measurement.Result) : Report :=
  let entries := loaded ++ result.run.entries
  match result.run.outcome with
  | .error failure => ⟨result.desk, [], ⟨entries, .error failure⟩⟩
  | .ok _ =>
    let (lines, outcome) := printLines (linesOf (result.desk.host.resolve base) result.store)
    ⟨result.desk, lines, ⟨entries, outcome⟩⟩

/-- The report that command line arguments ask for: the base directory and the file that holds
the nodes, both of which may be left out. -/
def ofArguments (desk : Desk) (ofMachine : Nat) (arguments : List Text) : Report :=
  let base := Path.ofText (arguments.head?.getD ".")
  let loading := NodeDocument.load desk.host (dumpPath base arguments[1]?)
  let (loaded, ready) := desk.log loading.entries
  match loading.outcome with
  | .error failure => ⟨ready, [], ⟨loaded, .error failure⟩⟩
  | .ok nodes => ofResult base loaded ((measurementOf base).run ready ofMachine nodes)

end Report

end SourceGauge
