import SourceGauge.Failure.Basic

/-!
# Access to files

What an operation sees of its host: whether a path leads anywhere, and the content of a file.
A path with a null character or with one that cannot be encoded leads nowhere, and opening it
is a misuse of its own.
-/

namespace SourceGauge.Host

/-- Why a text cannot be handed to the system, if it cannot. -/
def refusal? (text : Text) : Option Failure :=
  match text.pathFault? with
  | some fault => some (.unencodable fault)
  | none => if text.points.contains '\x00' then some (.value .embeddedNull) else none

/-- Why a path cannot be handed to the file system, if it cannot. -/
def unusable? (path : Path) : Option Failure := refusal? path.text

/-- What a path leads to, if it leads anywhere. -/
def lookAt (host : Host) (path : Path) : Except Failure (Option FileEntry) :=
  match unusable? path with
  | some _ => .ok none
  | none =>
    (host.tree.probe host.workingDirectory path).mapError fun fault => .system fault path.text

/-- Whether a path leads anywhere. -/
def exists? (host : Host) (path : Path) : Except Failure Bool :=
  (host.lookAt path).map Option.isSome

/-- Whether a path leads to a directory. -/
def isDirectory (host : Host) (path : Path) : Except Failure Bool :=
  (host.lookAt path).map fun
    | some .directory => true
    | _ => false

/-- The content of a file. -/
def readFile (host : Host) (path : Path) : Except Failure (List UInt8) :=
  match unusable? path with
  | some failure => .error failure
  | none =>
    (host.tree.read host.workingDirectory path).mapError fun fault => .system fault path.text

/-- The text of a file. -/
def readText (host : Host) (path : Path) : Except Failure (List Char) := do
  let octets ← host.readFile path
  (Utf8.decode octets).mapError .undecodable

end SourceGauge.Host
