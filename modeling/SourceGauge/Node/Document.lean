import SourceGauge.Files.Access
import SourceGauge.Node.Dump
import SourceGauge.Run

/-!
# Node dump documents

Nodes that an earlier scan has written to a file: a list of node dumps, or a table with such a
list under `nodes`. A file that is missing, that is not JSON, or that holds no list is refused.
-/

namespace SourceGauge.NodeDocument

/-- The logger of node sources. -/
def logger : String := "codemeasure.scanner"

/-- Read a list of node dumps. -/
def ofRecords (records : Value) : Except Failure (List SourceNode) :=
  records.elements.bind (mapOk SourceNode.ofValue)

/-- The list of node dumps that a document holds. -/
def recordsOf? : Value → Option (List Value)
  | .list records => some records
  | .table entries =>
    match Value.lookup "nodes" entries with
    | some (.list records) => some records
    | _ => none
  | _ => none

/-- The characters of a document; the file must exist. -/
def readChars (host : Host) (path : Path) : Except Failure (List Char) :=
  match host.readText path with
  | .error (.system .missing _) => .error (.path path .noDump)
  | .error failure => .error failure
  | .ok cs => .ok (Text.unifyLineEnds cs)

/-- Parse a document. -/
def parse (path : Path) (cs : List Char) : Except Failure Value :=
  match Json.read cs with
  | .ok value => .ok value
  | .error (.fault fault) => .error (.node (.invalidDocument path fault) none)
  | .error (.tooManyDigits count) => .error (.value (.tooManyDigits count))
  | .error (.tooDeep container) => .error (.nesting (.dump container))

/-- The nodes of a document. -/
def nodesOf (path : Path) (document : Value) : Except Failure (List SourceNode) :=
  match recordsOf? document with
  | some records => mapOk SourceNode.ofValue records
  | none => .error (.node (.noNodeList path) none)

/-- Read the nodes of a document. -/
def read (host : Host) (path : Path) : Except Failure (List SourceNode) := do
  let cs ← readChars host path
  let document ← parse path cs
  nodesOf path document

/-- Load the nodes of a document. -/
def load (host : Host) (path : Path) : Run (List SourceNode) :=
  (Run.ofOutcome (read host path)).andThen fun nodes =>
    (Run.report .debug logger
      ("Loaded " ++ toString nodes.length ++ " nodes from " ++ path.text)).andThen fun _ =>
      .done nodes

end SourceGauge.NodeDocument
