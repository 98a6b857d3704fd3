import SourceGauge.Report
import Std.Time

/-!
# The report command

Prints the report on a project: `main [base directory] [node dump]`. What the report may look
at is read from the file system beforehand: the settings files, the base directory, the node
dump, and the log file that the settings name. Log entries go to standard error and are
appended to the log file. A surrogate is printed as the replacement character, and nothing
stands at a place whose path has one.
-/

namespace SourceGauge.Command

/-- Whether a directory stands at a place. -/
def directoryExists (place : String) : IO Bool := do
  try (← IO.FS.realPath place).isDir catch _ => return false

/-- The content of a file, if there is one. -/
def contentOf? (place : String) : IO (Option (List UInt8)) := do
  try return some (← IO.FS.readBinFile place).toList catch _ => return none

/-- Add what stands at a location. -/
def addLocation (tree : FileTree) (location : Location) : IO FileTree := do
  match (Host.pathOf location).text.toString? with
  | none => return tree
  | some place =>
    if ← directoryExists place then return tree.makeDirectories location
    match ← contentOf? place with
    | some content => return tree.writeFile location content
    | none => return tree

/-- Add what stands on the way to a path and at its end. -/
def addPath (host : Host) (path : Path) : IO Host := do
  let locations := FileTree.ancestry (host.absolute path).parts
  let tree ← locations.foldlM addLocation host.tree
  return { host with tree }

/-- The variables that can give settings. -/
def readEnvironment : IO (List (Text × Text)) := do
  let found ← Settings.variableForms.mapM fun field => do
    let name := Settings.variableName field.1
    return (← IO.getEnv name).map fun text => (Text.ofString name, Text.ofString text)
  return found.filterMap id

/-- The host before anything has been looked at. -/
def bareHost : IO Host := do
  let time := (← Std.Time.PlainDateTime.now).format "uuuu-MM-dd HH:mm:ss"
  return {
    tree := .empty
    workingDirectory := (Path.ofText (← IO.currentDir).toString).parts
    home := Host.homeOf? ((← IO.getEnv "HOME").getD "/")
    environment := ← readEnvironment
    time }

/-- The log file that the settings of a host name. -/
def logFileOf (host : Host) (base : Path) : Option Path :=
  let measurement := Report.measurementOf base
  match Settings.load host measurement.settingsFile measurement.overrides with
  | .ok settings => settings.logFile.map Path.ofText
  | .error _ => none

/-- Write the log file back. -/
def writeLog (host : Host) (path : Path) : IO Unit := do
  match host.tree.read host.workingDirectory path, (host.absolute path).text.toString? with
  | .ok content, some place => IO.FS.writeBinFile place (ByteArray.mk content.toArray)
  | _, _ => return ()

/-- The number of workers for passes that leave it open. -/
def standardWorkers : Nat := 4

/-- A text as it is printed. -/
def printed (text : Text) : String := String.ofList text.shownChars

/-- Print a report and give its exit code. -/
def printReport (report : Report) : IO UInt32 := do
  for line in report.lines do
    IO.println (printed line)
  for entry in report.run.entries.filter report.desk.logging.passes do
    IO.eprintln (printed (entry.level.name ++ " " ++ entry.message))
  match report.run.outcome with
  | .ok _ => return 0
  | .error failure =>
    IO.eprintln (printed failure.message)
    return 1

/-- Print the report that arguments ask for. -/
def run (arguments : List Text) : IO UInt32 := do
  let base := Path.ofText (arguments.head?.getD ".")
  let bare ← bareHost
  let known := (Settings.globalPath bare).toOption.toList ++
    [Settings.projectPath bare, base, Report.dumpPath base arguments[1]?]
  let looked ← known.foldlM addPath bare
  let logFile := logFileOf looked base
  let host ← logFile.toList.foldlM addPath looked
  let report := Report.ofArguments ⟨host, ⟨LogLevel.debug.rank, []⟩⟩ standardWorkers arguments
  if let some path := logFile then writeLog report.desk.host path
  printReport report

end SourceGauge.Command

/-- Print the report on a project. -/
def main (arguments : List String) : IO UInt32 :=
  SourceGauge.Command.run (arguments.map SourceGauge.Text.ofString)
