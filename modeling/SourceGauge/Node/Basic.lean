import SourceGauge.Failure.Basic
import SourceGauge.Outcome

/-!
# Source nodes

A node is a structural element of the scanned source with the metrics that the scanner
computed for it. Every metric value is a finite number that is not negative; the type keeps
this. The parent is named by its identifier only. Two nodes are the same if their identifiers
and parents are, whatever their metrics.
-/

namespace SourceGauge

/-- Whether a number can be the value of a metric. -/
def isMetricValue (n : Number) : Bool := n.isFinite? == some true && !n.lt (.int 0)

/-- A source node with its metrics. -/
structure SourceNode where
  id : NodeId
  metrics : OrderedMap Metric Number
  parent : Option NodeId
  valid : ∀ n ∈ metrics.values, isMetricValue n = true

/-- What a caller names a metric by; only metrics themselves are accepted. -/
inductive MetricKey
  | metric (metric : Metric)
  | other (value : Value)

namespace SourceNode

/-- A node that nothing was measured of is in order. -/
theorem valid_empty : ∀ n ∈ (OrderedMap.empty : OrderedMap Metric Number).values,
    isMetricValue n = true :=
  fun _ hmem => absurd hmem List.not_mem_nil

/-- The kind of a node. -/
def kind (node : SourceNode) : NodeKind := node.id.kind

/-- The key of a node. -/
def key (node : SourceNode) : Text := node.id.key

/-- Whether a node has a metric. -/
def has (node : SourceNode) (metric : Metric) : Bool := node.metrics.contains metric

/-- The value of a metric, which the node must have. -/
def get (node : SourceNode) (metric : Metric) : Except Failure Number :=
  match node.metrics.get? metric with
  | some n => .ok n
  | none => .error (.missingMetric node.id metric)

/-- The value of a metric is found under it. -/
theorem get_eq_ok_iff {node : SourceNode} {metric : Metric} {n : Number} :
    node.get metric = .ok n ↔ node.metrics.get? metric = some n := by
  rw [get]
  cases node.metrics.get? metric <;> simp

/-- Whether two nodes are the same, their metrics left aside. -/
def same (a b : SourceNode) : Bool := a.id == b.id && a.parent == b.parent

/-- The number that a value is, if it can be the value of a metric. -/
def checkMetric (key : Text) (metric : Metric) (value : Value) : Except Failure Number :=
  match value.number? with
  | none => .error (.misfit (.notReal value.typeName))
  | some n =>
    match n.isFinite? with
    | none => .error (.overflow .real)
    | some finite =>
      if finite && !n.lt (.int 0) then .ok n
      else .error (.node (.invalidMetric metric n) (some key))

/-- What passes as the value of a metric is one. -/
theorem isMetricValue_of_checkMetric {key : Text} {metric : Metric} {value : Value} {n : Number}
    (h : checkMetric key metric value = .ok n) : isMetricValue n = true := by
  unfold checkMetric at h
  split at h
  · contradiction
  · split at h
    · contradiction
    · rename_i m finite hfinite
      split at h
      · rename_i hgood
        injection h with h
        subst h
        simp_all [isMetricValue]
      · contradiction

/-- What passes as the value of a metric is the number that was given. -/
theorem eq_number_of_checkMetric {key : Text} {metric : Metric} {value : Value} {n : Number}
    (h : checkMetric key metric value = .ok n) : value = .number n := by
  unfold checkMetric at h
  split at h
  · contradiction
  · rename_i m hm
    split at h
    · contradiction
    · split at h
      · injection h with h
        subst h
        cases value <;> simp_all [Value.number?]
      · contradiction

/-- Check one entry of a map of metrics. -/
def checkEntry (key : Text) (entry : Metric × Value) : Except Failure (Metric × Number) :=
  (checkMetric key entry.1 entry.2).map fun n => (entry.1, n)

/-- Checking keeps the metric of an entry, and its number can be the value of a metric. -/
theorem checkEntry_eq_ok {key : Text} {entry : Metric × Value} {result : Metric × Number}
    (h : checkEntry key entry = .ok result) :
    result.1 = entry.1 ∧ isMetricValue result.2 = true := by
  unfold checkEntry at h
  cases hcheck : checkMetric key entry.1 entry.2 with
  | error failure => simp [hcheck, Except.map] at h
  | ok n =>
    simp only [hcheck, Except.map, Except.ok.injEq] at h
    subst h
    exact ⟨rfl, isMetricValue_of_checkMetric hcheck⟩

/-- Checking every entry keeps the metrics and their order. -/
theorem keys_of_mapOk_checkEntry {key : Text} {entries : List (Metric × Value)}
    {results : List (Metric × Number)} (h : mapOk (checkEntry key) entries = .ok results) :
    results.map Prod.fst = entries.map Prod.fst := by
  have hmap := mapOk_eq_ok_iff.1 h
  clear h
  induction entries generalizing results with
  | nil => cases results <;> simp_all
  | cons entry rest ih =>
    cases results with
    | nil => simp at hmap
    | cons result others =>
      simp only [List.map_cons, List.cons.injEq] at hmap
      simp only [List.map_cons, List.cons.injEq]
      exact ⟨(checkEntry_eq_ok hmap.1).1, ih hmap.2⟩

/-- A node with the given metrics, if their values are in order. The first entry that is not
decides about the failure. -/
def ofMetrics (id : NodeId) (metrics : OrderedMap Metric Value) (parent : Option NodeId) :
    Except Failure SourceNode :=
  match h : mapOk (checkEntry id.key) metrics.entries with
  | .error failure => .error failure
  | .ok entries => .ok
    { id, parent
      metrics := ⟨entries, by
        rw [keys_of_mapOk_checkEntry h]
        exact metrics.nodup⟩
      valid := by
        intro n hn
        obtain ⟨result, hresult, rfl⟩ := List.mem_map.1 hn
        obtain ⟨entry, _, hentry⟩ := exists_of_mem_mapOk h hresult
        exact (checkEntry_eq_ok hentry).2 }

/-- A node that passes has the identifier, the parent and the checked metrics it was given. -/
theorem ofMetrics_eq_ok {id : NodeId} {metrics : OrderedMap Metric Value}
    {parent : Option NodeId} {node : SourceNode} (h : ofMetrics id metrics parent = .ok node) :
    node.id = id ∧ node.parent = parent ∧
      mapOk (checkEntry id.key) metrics.entries = .ok node.metrics.entries := by
  unfold ofMetrics at h
  split at h
  · contradiction
  · rename_i entries hentries
    injection h with h
    subst h
    exact ⟨rfl, rfl, hentries⟩

/-- Nodes with the same identifier, metrics and parent are equal. -/
theorem ext_entries {a b : SourceNode} (hid : a.id = b.id)
    (hmetrics : a.metrics.entries = b.metrics.entries) (hparent : a.parent = b.parent) : a = b := by
  obtain ⟨_, ⟨_, _⟩, _, _⟩ := a
  obtain ⟨_, ⟨_, _⟩, _, _⟩ := b
  cases hid
  cases hmetrics
  cases hparent
  rfl

/-- A node with checked metrics passes. -/
theorem ofMetrics_of_mapOk {metrics : OrderedMap Metric Value} {node : SourceNode}
    (h : mapOk (checkEntry node.id.key) metrics.entries = .ok node.metrics.entries) :
    ofMetrics node.id metrics node.parent = .ok node := by
  unfold ofMetrics
  split
  · rename_i failure hfailure
    rw [h] at hfailure
    contradiction
  · rename_i entries hentries
    rw [h] at hentries
    exact congrArg Except.ok (ext_entries rfl (Except.ok.inj hentries).symm rfl)

/-- A node is refused for the first of its metrics that is not in order. -/
theorem ofMetrics_eq_error_iff {id : NodeId} {metrics : OrderedMap Metric Value}
    {parent : Option NodeId} {failure : Failure} :
    ofMetrics id metrics parent = .error failure ↔
      mapOk (checkEntry id.key) metrics.entries = .error failure := by
  unfold ofMetrics
  split
  · rename_i cause hcause
    rw [hcause, Except.error.injEq, Except.error.injEq]
  · rename_i entries hentries
    exact ⟨nofun, fun h => nomatch hentries.symm.trans h⟩

/-- The entries that name a metric. -/
def metricEntries (entries : List (MetricKey × Value)) : List (Metric × Value) :=
  entries.filterMap fun
    | (.metric metric, value) => some (metric, value)
    | (.other _, _) => none

/-- Refuse the keys that cannot be keys at all. -/
def checkKeys (entries : List (MetricKey × Value)) : Except Failure Unit :=
  match entries.findSome? fun
    | (.other value, _) => if value.isHashable then none else some value.typeName
    | (.metric _, _) => none with
  | some typeName => .error (.misfit (.unhashable typeName))
  | none => .ok ()

/-- Check that an entry names a metric and that its last value is in order. -/
def checkNamed (key : Text) (metrics : OrderedMap Metric Value) (entry : MetricKey × Value) :
    Except Failure Unit :=
  match entry.1 with
  | .other value => .error (.ofNode value (.notAMetric value) (some key))
  | .metric metric =>
    (checkMetric key metric ((metrics.get? metric).getD entry.2)).map fun _ => ()

/-- A node from what a caller gives for its metrics. A repeated metric takes its last value and
its first place. -/
def ofNamed (id : NodeId) (entries : List (MetricKey × Value)) (parent : Option NodeId) :
    Except Failure SourceNode := do
  let metrics := OrderedMap.ofList (metricEntries entries)
  checkKeys entries
  let _ ← mapOk (checkNamed id.key metrics) entries
  ofMetrics id metrics parent

/-- A failure that leaves out the key of the node. -/
def withoutKey : Failure → Failure
  | .node fault _ => .node fault none
  | failure => failure

/-- A node whose key is given as a value: the key is its text. A key that is null is left out of
failures. -/
def ofNamedValue (kind : NodeKind) (key : Value) (entries : List (MetricKey × Value))
    (parent : Option NodeId) : Except Failure SourceNode :=
  let made := ofNamed ⟨kind, key.plain⟩ entries parent
  match key with
  | .null => made.mapError withoutKey
  | _ => made

end SourceNode

end SourceGauge
