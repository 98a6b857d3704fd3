import SourceGauge.Files.Path
import SourceGauge.OrderedMap
import SourceGauge.Text.Encoding

/-!
# File trees

The files and directories that a run can see, and what opening a path finds. A location is
the list of names from the root down, in the form in which the system gives them back. A path
is followed name by name: every name but the last must be that of a directory, and a double dot
leads back to the directory above.
-/

namespace SourceGauge

/-- The names from the root down to a file or directory. -/
abbrev Location := List Text

/-- What stands at a location. -/
inductive FileEntry
  | directory
  | file (content : List UInt8)

/-- Why a path cannot be opened. -/
inductive FileFault
  | missing
  | notDirectory
  | isDirectory
  | nameTooLong
  deriving DecidableEq, Repr

/-- The number of a fault. -/
def FileFault.code : FileFault → Nat
  | .missing => 2
  | .notDirectory => 20
  | .isDirectory => 21
  | .nameTooLong => 36

/-- The wording of a fault. -/
def FileFault.wording : FileFault → String
  | .missing => "No such file or directory"
  | .notDirectory => "Not a directory"
  | .isDirectory => "Is a directory"
  | .nameTooLong => "File name too long"

/-- Files and directories by location; the root is a directory in every tree. -/
structure FileTree where
  entries : OrderedMap Location FileEntry

namespace FileTree

/-- The tree that holds the root alone. -/
def empty : FileTree := ⟨.empty⟩

/-- What stands at a location. -/
def at? (tree : FileTree) (location : Location) : Option FileEntry :=
  if location = [] then some .directory else tree.entries.get? location

/-- All locations above a location and the location itself, from the top. -/
def ancestry (location : Location) : List Location :=
  (List.range (location.length + 1)).map fun n => location.take n

/-- Make a directory and those above it, leaving what exists as it is. -/
def makeDirectories (tree : FileTree) (location : Location) : FileTree :=
  (ancestry location).foldl (fun tree above =>
    if (tree.at? above).isSome then tree else ⟨tree.entries.put above .directory⟩) tree

/-- Write a file, making the directories above it. -/
def writeFile (tree : FileTree) (location : Location) (content : List UInt8) : FileTree :=
  ⟨(tree.makeDirectories location.dropLast).entries.put location (.file content)⟩

/-- The longest name that a directory can hold, in octets. -/
def maxNameSize : Nat := 255

/-- The longest path that can be followed, in octets. -/
def maxPathSize : Nat := 4095

/-- Follow names from a location. The last name need not exist. -/
def walk (tree : FileTree) (here : Location) : List Text → Except FileFault Location
  | [] => .ok here
  | name :: rest =>
    match tree.at? here with
    | some .directory =>
      if name == ".." then walk tree here.dropLast rest
      else if maxNameSize < name.octets.length then .error .nameTooLong
      else walk tree (here ++ [name.stored]) rest
    | some (.file _) => .error .notDirectory
    | none => .error .missing

/-- The location a path leads to from a working directory. -/
def locate (tree : FileTree) (workingDirectory : Location) (path : Path) :
    Except FileFault Location :=
  if maxPathSize < path.text.octets.length then .error .nameTooLong
  else tree.walk (if path.isAbsolute then [] else workingDirectory) path.parts

/-- What a path leads to. -/
def find (tree : FileTree) (workingDirectory : Location) (path : Path) :
    Except FileFault FileEntry := do
  let location ← tree.locate workingDirectory path
  match tree.at? location with
  | some entry => pure entry
  | none => throw .missing

/-- The content of the file a path leads to. -/
def read (tree : FileTree) (workingDirectory : Location) (path : Path) :
    Except FileFault (List UInt8) := do
  match ← tree.find workingDirectory path with
  | .file content => pure content
  | .directory => throw .isDirectory

/-- What a path leads to, if it leads anywhere; only a name that is too long is a fault. -/
def probe (tree : FileTree) (workingDirectory : Location) (path : Path) :
    Except FileFault (Option FileEntry) :=
  match tree.find workingDirectory path with
  | .ok entry => .ok (some entry)
  | .error .nameTooLong => .error .nameTooLong
  | .error _ => .ok none

/-- Open a file for appending, making it empty if it does not exist. -/
def openToAppend (tree : FileTree) (workingDirectory : Location) (path : Path) :
    Except FileFault (FileTree × Location) := do
  let location ← tree.locate workingDirectory path
  match tree.at? location with
  | some .directory => throw .isDirectory
  | some (.file _) => pure (tree, location)
  | none => pure (⟨tree.entries.put location (.file [])⟩, location)

/-- Append to the file at a location. -/
def append (tree : FileTree) (location : Location) (more : List UInt8) : FileTree :=
  match tree.at? location with
  | some (.file content) => ⟨tree.entries.put location (.file (content ++ more))⟩
  | _ => ⟨tree.entries.put location (.file more)⟩

/-- The root of every tree is a directory. -/
theorem at?_root (tree : FileTree) : tree.at? [] = some .directory := by
  simp [at?]

end FileTree

/-- What a run can see of its surroundings: the files, the working directory, the home directory
if it can be found, the environment variables, and the time as the log shows it. -/
structure Host where
  tree : FileTree
  workingDirectory : Location
  home : Option Path
  environment : List (Text × Text)
  time : String

namespace Host

/-- A location as an absolute path. -/
def pathOf (location : Location) : Path := ⟨.single, location⟩

/-- The home directory that a text names. Slashes at its end carry no meaning, so that slashes
alone name the root, as does the empty text; a tilde would have to be looked up and names none. -/
def homeOf? (text : Text) : Option Path :=
  if text.startsWith "~" then none
  else if text.points.all (· == '/') then some (pathOf [])
  else some (.ofText text)

/-- A path without double dots, from the root of the file system. -/
def resolve (host : Host) (path : Path) : Path :=
  let absolute := (pathOf host.workingDirectory).join path
  ⟨.single, Path.collapse absolute.parts⟩

/-- A path without double dots, keeping a root of two slashes. -/
def absolute (host : Host) (path : Path) : Path :=
  ((pathOf host.workingDirectory).join path).collapsed

end Host

end SourceGauge
