import SourceGauge.Value.Basic

/-!
# Complaints

What the library has to say when it gives up: a kind, a message, and details that name the
offending node, value or setting. The kinds form a tree, so that a caller can handle a whole
family at once. The text of a complaint is its message, with the details in parentheses.
-/

namespace SourceGauge

/-- The kinds of complaints. -/
inductive ComplaintKind
  | general
  | analysis
  | malformedNode
  | malformedIndex
  | missingMetric
  | distribution
  | invalidBounds
  | finalized
  | configuration
  | invalidPath
  | invalidSetting
  deriving DecidableEq, Repr

namespace ComplaintKind

/-- All kinds of complaints. -/
def all : List ComplaintKind :=
  [general, analysis, malformedNode, malformedIndex, missingMetric, distribution, invalidBounds,
    finalized, configuration, invalidPath, invalidSetting]

/-- The name of a kind. -/
def name : ComplaintKind → String
  | general => "CodeMeasureError"
  | analysis => "AnalysisError"
  | malformedNode => "MalformedNodeError"
  | malformedIndex => "MalformedIndexError"
  | missingMetric => "MissingMetricError"
  | distribution => "DistributionError"
  | invalidBounds => "InvalidBoundariesError"
  | finalized => "FinalizedDistributionError"
  | configuration => "ConfigurationError"
  | invalidPath => "InvalidPathError"
  | invalidSetting => "InvalidConfigError"

/-- The kind of a name. -/
def ofName? (name : String) : Option ComplaintKind := all.find? fun k => k.name == name

/-- The family a kind belongs to, if it is not one of its own. -/
def family? : ComplaintKind → Option ComplaintKind
  | malformedNode => some analysis
  | malformedIndex => some analysis
  | missingMetric => some analysis
  | invalidBounds => some distribution
  | finalized => some distribution
  | invalidPath => some configuration
  | invalidSetting => some configuration
  | _ => none

/-- A kind and the ever larger families it belongs to. -/
def lineage (kind : ComplaintKind) : List ComplaintKind :=
  kind :: ((family? kind).toList ++ if kind = general then [] else [general])

/-- Every complaint belongs to the general family. -/
theorem general_mem_lineage (kind : ComplaintKind) : general ∈ lineage kind := by
  cases kind <;> simp [lineage, family?]

end ComplaintKind

/-- A complaint. The particulars are the named values it was made from. -/
structure Complaint where
  kind : ComplaintKind
  message : Value
  details : List (Text × Value)
  particulars : List (String × Value)

namespace Complaint

/-- Details in parentheses. -/
def detailText (details : List (Text × Value)) : Text :=
  " (" ++ Text.intercalate ", " (details.map fun entry => entry.1 ++ "=" ++ entry.2.plain) ++ ")"

/-- The text of a complaint. -/
def text (complaint : Complaint) : Text :=
  match complaint.details with
  | [] => complaint.message.plain
  | details => complaint.message.plain ++ detailText details

/-- A complaint of a family, with a message and details of its own. -/
def plain (kind : ComplaintKind) (message : Value) (details : List (Text × Value)) : Complaint :=
  ⟨kind, message, details, []⟩

/-- A node description is malformed; the key of the node is given if it is known. -/
def malformedNode (reason key : Value) : Complaint where
  kind := .malformedNode
  message := .text "Malformed source node"
  details := ("reason", reason) :: match key with
    | .null => []
    | known => [("node", known)]
  particulars := [("reason", reason), ("node_key", key)]

/-- A node breaks a rule of the index. -/
def malformedIndex (node reason : Value) : Complaint where
  kind := .malformedIndex
  message := .text ("Malformed node index at " ++ node.plain)
  details := [("node", node), ("reason", reason)]
  particulars := [("node_key", node), ("reason", reason)]

/-- A node lacks a metric. -/
def missingMetric (node metric : Value) : Complaint where
  kind := .missingMetric
  message := .text ("Missing metric \x27" ++ metric.plain ++ "\x27 on " ++ node.plain)
  details := [("node", node), ("metric", metric)]
  particulars := [("node_key", node), ("metric", metric)]

/-- A list of bucket bounds is refused. -/
def invalidBounds (bounds : List Value) (reason : Value) : Complaint where
  kind := .invalidBounds
  message := .text ("Invalid distribution boundaries: " ++ (Value.list bounds).full)
  details := [("reason", reason)]
  particulars := [("boundaries", .list bounds), ("reason", reason)]

/-- A finished distribution is added to. -/
def finalized (metric : Value) : Complaint where
  kind := .finalized
  message := .text ("Distribution \x27" ++ metric.plain ++ "\x27 is already built")
  details := [("metric", metric)]
  particulars := [("metric", metric)]

/-- A path leads nowhere. -/
def invalidPath (path : Text) (reason : Value) : Complaint where
  kind := .invalidPath
  message := .text ("Invalid path: " ++ path)
  details := [("path", .text path), ("reason", reason)]
  particulars := [("path", .text path), ("reason", reason)]

/-- A setting has a bad name, type or value. -/
def invalidSetting (key value reason : Value) : Complaint where
  kind := .invalidSetting
  message := .text ("Invalid configuration for " ++ key.plain ++ ": " ++ value.plain)
  details := [("key", key), ("reason", reason)]
  particulars := [("key", key), ("value", value), ("reason", reason)]

/-- A complaint without details is its message. -/
theorem text_of_details_nil (complaint : Complaint) (h : complaint.details = []) :
    complaint.text = complaint.message.plain := by
  simp [text, h]

end Complaint

end SourceGauge
