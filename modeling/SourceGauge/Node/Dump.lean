import SourceGauge.Metric.Spelling
import SourceGauge.Node.Basic
import SourceGauge.Number.Numeral

/-!
# Node dumps

Nodes as the scanner dumps them: tables with the kind and key of a node, its metrics by name,
and a reference to its parent. Metric names may be spelled in several ways, and values may be
written as text. What cannot be read is refused with the reason, and with the key of the node
once it is known.
-/

namespace SourceGauge

/-- The node kind that a value names. -/
def NodeKind.ofValue? : Value → Option NodeKind
  | .text name => name.toString?.bind NodeKind.ofName?
  | _ => none

namespace NodeId

/-- The text of the key of a node whose kind has been named. A number in the key that cannot be
written is blamed on the kind. -/
def keyText (named key : Value) : Except Failure Text :=
  match Failure.unshowable? key with
  | none => .ok key.plain
  | some (.value _) => .error (.ofNode named (.unknownKind named) none)
  | some failure => .error failure

/-- Read a node reference from the entries of a table: the kind is looked at before the key. -/
def ofEntries (entries : List (Text × Value)) : Except Failure NodeId :=
  match Value.lookup "kind" entries with
  | none => .error (.node (.lacksField "kind") none)
  | some named =>
    match NodeKind.ofValue? named with
    | none => .error (.ofNode named (.unknownKind named) none)
    | some kind =>
      match Value.lookup "key" entries with
      | none => .error (.node (.lacksField "key") none)
      | some key => (keyText named key).map fun text => ⟨kind, text⟩

/-- Read a node reference. -/
def ofValue : Value → Except Failure NodeId
  | .table entries => ofEntries entries
  | other => .error (.ofNode other (.notAnObject other) none)

/-- The entries of a node reference. -/
def toEntries (id : NodeId) : List (Text × Value) :=
  [("kind", .text id.kind.name), ("key", .text id.key)]

end NodeId

namespace SourceNode

/-- The real that a value stands for: a number, rounded, or the text of one. -/
def toReal (key name : Text) (value : Value) : Except Failure Binary64 :=
  match value with
  | .number n =>
    match n.toBinary64? with
    | some x => .ok x
    | none => .error (.overflow .real)
  | .text s =>
    match Numeral.readReal s.shownChars with
    | some x => .ok x
    | none => .error (.node (.notNumeric name value) (some key))
  | _ => .error (.ofNode value (.notNumeric name value) (some key))

/-- The real that a value stands for, if it stands for one. -/
def realOf? : Value → Option Binary64
  | .number n => n.toBinary64?
  | .text s => Numeral.readReal s.shownChars
  | _ => none

theorem toReal_eq_ok_iff {key name : Text} {value : Value} {x : Binary64} :
    toReal key name value = .ok x ↔ realOf? value = some x := by
  cases value with
  | number n =>
    rw [toReal, realOf?]
    cases n.toBinary64? <;> simp
  | text s =>
    rw [toReal, realOf?]
    cases Numeral.readReal s.shownChars <;> simp
  | _ => simp [toReal, realOf?]

/-- Read one entry of the metrics of a dump. -/
def readMetric (key : Text) (entry : Text × Value) : Except Failure (Metric × Value) :=
  match Metric.ofSpelling? entry.1 with
  | none => .error (.node (.unknownMetric entry.1) (some key))
  | some metric => (toReal key entry.1 entry.2).map fun x => (metric, .number (.real x))

/-- An entry is read as what its name and its value stand for. -/
theorem readMetric_eq_ok_iff {key : Text} {entry : Text × Value} {result : Metric × Value} :
    readMetric key entry = .ok result ↔ ∃ metric x, Metric.ofSpelling? entry.1 = some metric ∧
      realOf? entry.2 = some x ∧ result = (metric, .number (.real x)) := by
  rw [readMetric]
  cases Metric.ofSpelling? entry.1 with
  | none => simp
  | some metric =>
    simp only [map_eq_ok_iff, toReal_eq_ok_iff, Option.some.injEq, exists_and_left, exists_eq_left']
    exact exists_congr fun x => and_congr_right fun _ => eq_comm

/-- Read the metrics of a dump; without any a node has none. -/
def readMetrics (key : Text) (entries : List (Text × Value)) :
    Except Failure (OrderedMap Metric Value) :=
  match Value.field? "metrics" entries with
  | none => .ok .empty
  | some (.table metrics) => (mapOk (readMetric key) metrics).map OrderedMap.ofList
  | some other => .error (.node (.metricsNotAnObject other.typeName) (some key))

/-- Read the parent of a dump, if it has one. -/
def readParent (key : Text) (entries : List (Text × Value)) :
    Except Failure (Option NodeId) :=
  match Value.field? "parent" entries with
  | none => .ok none
  | some (.table parent) => (NodeId.ofEntries parent).map some
  | some other => .error (.node (.parentNotAnObject other.typeName) (some key))

/-- Read a node: its identifier, its metrics, its parent, and last the values of its metrics. -/
def ofValue : Value → Except Failure SourceNode
  | .table entries => do
    let id ← NodeId.ofEntries entries
    let metrics ← readMetrics id.key entries
    let parent ← readParent id.key entries
    ofMetrics id metrics parent
  | other => .error (.ofNode other (.notAnObject other) none)

/-- The metrics of a node by name. -/
def namedMetrics (node : SourceNode) : List (Text × Value) :=
  node.metrics.entries.map fun entry => (entry.1.name, .number entry.2)

/-- The entry of a parent. -/
def parentEntry (parent : NodeId) : Text × Value := ("parent", .table parent.toEntries)

/-- The entry of the metrics of a node. -/
def metricsEntry (node : SourceNode) : Text × Value := ("metrics", .table node.namedMetrics)

/-- The entries of the dump of a node. -/
def toEntries (node : SourceNode) : List (Text × Value) :=
  node.id.toEntries ++ node.parent.toList.map parentEntry ++ [node.metricsEntry]

/-- The dump of a node. -/
def toValue (node : SourceNode) : Value := .table node.toEntries

end SourceNode

end SourceGauge
