import SourceGauge.Files.Access
import SourceGauge.Settings.Basic

/-!
# Projects

The project under analysis as a caller describes it, and what the scanner is told about it:
the base directory from the root of the file system, the encoding of the sources, and the
settings that are meant for the scanner.
-/

namespace SourceGauge

/-- A project: its base directory, the encoding of its sources, and the files to scan. -/
structure Project where
  baseDirectory : Path
  charset : Value
  files : List Path

/-- A project from the values that a caller describes it by; the base directory is looked at
before the files. -/
def Project.ofValues (baseDirectory charset files : Value) : Except Failure Project := do
  let baseDirectory ← baseDirectory.path
  let files ← mapOk Value.path (← files.elements)
  return ⟨baseDirectory, charset, files⟩

/-- What the scanner is told. -/
structure ScannerConfiguration where
  charset : Value
  baseDirectory : Text
  defines : List Text
  includeDirectories : List Text

/-- What the scanner is told about a project, whose base directory must exist. -/
def Project.configuration (project : Project) (settings : Settings) (host : Host) :
    Except Failure ScannerConfiguration := do
  if ← host.isDirectory project.baseDirectory then
    return {
      charset := project.charset
      baseDirectory := (host.resolve project.baseDirectory).text
      defines := settings.defines
      includeDirectories := settings.includeDirectories }
  else throw (.path project.baseDirectory .noProject)

end SourceGauge
