import SourceGauge.Aggregation.Basic
import SourceGauge.Proofs.Histogram.Counting

/-!
# The complexity of nodes

Looking up the complexity of nodes and counting it: a histogram is finished exactly if all nodes
have a complexity, and does not depend on the order in which they are gone through. Metric values
are finite, so that a builder accepts all of them; with fewer than `2 ^ 63` nodes a missing
complexity is the only way to fail, and the histogram is the tally of the nodes.
-/

namespace SourceGauge

namespace SourceNode

/-- The complexities of those nodes that have one. -/
def complexities (nodes : List SourceNode) : List Number :=
  nodes.filterMap fun node => node.metrics.get? .complexity

theorem get_eq_error_iff {node : SourceNode} {metric : Metric} {failure : Failure} :
    node.get metric = .error failure ↔
      node.has metric = false ∧ failure = .missingMetric node.id metric := by
  rw [get, has, OrderedMap.contains]
  cases node.metrics.get? metric <;> simp [eq_comm]

/-- A node has a metric exactly if there is a value of it. -/
theorem has_eq_true_iff {node : SourceNode} {metric : Metric} :
    node.has metric = true ↔ ∃ n, node.get metric = .ok n := by
  simp only [get_eq_ok_iff]
  rw [has, OrderedMap.contains]
  cases node.metrics.get? metric <;> simp

/-- The value of a metric is finite. -/
theorem isFinite_of_get {node : SourceNode} {metric : Metric} {n : Number}
    (h : node.get metric = .ok n) : n.isFinite? = some true := by
  have hvalid := node.valid n (OrderedMap.mem_values_of_get? (get_eq_ok_iff.1 h))
  rw [isMetricValue, Bool.and_eq_true] at hvalid
  exact eq_of_beq hvalid.1

/-- The complexities of nodes that are looked up one by one are finite. -/
theorem isFinite_of_mapOk_get {nodes : List SourceNode} {values : List Number}
    (h : mapOk (fun node => node.get .complexity) nodes = .ok values) :
    ∀ value ∈ values, value.isFinite? = some true := by
  intro value hvalue
  obtain ⟨node, _, hnode⟩ := exists_of_mem_mapOk h hvalue
  exact isFinite_of_get hnode

/-- If all nodes have a complexity, looking them up gives these. -/
theorem map_get_complexity {nodes : List SourceNode}
    (h : ∀ node ∈ nodes, node.has .complexity = true) :
    nodes.map (fun node => node.get .complexity) = (complexities nodes).map .ok := by
  induction nodes with
  | nil => rfl
  | cons node rest ih =>
    obtain ⟨n, hn⟩ := has_eq_true_iff.1 (h node List.mem_cons_self)
    have hfirst : complexities (node :: rest) = n :: complexities rest := by
      simp [complexities, get_eq_ok_iff.1 hn]
    rw [hfirst, List.map_cons, List.map_cons, hn,
      ih fun other hother => h other (List.mem_cons_of_mem node hother)]

/-- The complexities of nodes are looked up without a failure exactly if all nodes have one. -/
theorem mapOk_get_eq_ok_iff {nodes : List SourceNode} {values : List Number} :
    mapOk (fun node => node.get .complexity) nodes = .ok values ↔
      (∀ node ∈ nodes, node.has .complexity = true) ∧ values = complexities nodes := by
  constructor
  · intro h
    have hall : ∀ node ∈ nodes, node.has .complexity = true := by
      intro node hnode
      obtain ⟨n, _, hn⟩ := exists_result_of_mapOk h hnode
      exact has_eq_true_iff.2 ⟨n, hn⟩
    have hvalues := mapOk_eq_ok_iff.1 h
    rw [map_get_complexity hall] at hvalues
    exact ⟨hall, ((List.map_inj_right fun _ _ heq => Except.ok.inj heq).1 hvalues).symm⟩
  · rintro ⟨hall, rfl⟩
    exact mapOk_eq_ok_iff.2 (map_get_complexity hall)

/-- Rearranging nodes rearranges their complexities. -/
theorem complexities_perm {nodes others : List SourceNode} (h : nodes.Perm others) :
    (complexities nodes).Perm (complexities others) := h.filterMap _

/-- Complexities are finite. -/
theorem isFinite_complexities (nodes : List SourceNode) :
    ∀ value ∈ complexities nodes, value.isFinite? = some true := by
  intro value h
  obtain ⟨node, _, hnode⟩ := List.mem_filterMap.1 h
  exact isFinite_of_get (get_eq_ok_iff.2 hnode)

/-- There are no more complexities than nodes. -/
theorem length_complexities_le (nodes : List SourceNode) :
    (complexities nodes).length ≤ nodes.length := List.length_filterMap_le _ _

/-- If all nodes have a complexity then there are as many complexities as nodes. -/
theorem length_complexities {nodes : List SourceNode}
    (h : ∀ node ∈ nodes, node.has .complexity = true) :
    (complexities nodes).length = nodes.length :=
  length_of_mapOk (mapOk_get_eq_ok_iff.2 ⟨h, rfl⟩)

end SourceNode

namespace Aggregator

/-- Counting the complexity of nodes looks all of them up and counts what is found. -/
theorem outcome_countComplexity {builder : Builder} (hopen : builder.built = none)
    (nodes : List SourceNode) :
    (countComplexity builder nodes).outcome =
      (mapOk (fun node => node.get .complexity) nodes).map fun values =>
        (onceEach values).foldl Builder.counted builder := by
  induction nodes generalizing builder with
  | nil => rfl
  | cons node rest ih =>
    rw [countComplexity, mapOk, Run.outcome_andThen, Run.outcome_ofOutcome]
    cases hnode : node.get .complexity with
    | error failure => rfl
    | ok n =>
      obtain ⟨hnext, hrun⟩ := Builder.add_once hopen (SourceNode.isFinite_of_get hnode)
      have hopenNext : (builder.counted (n, 1)).built = none := hopen
      simp only [ok_bind, Run.outcome_andThen, hrun, hnext, ih hopenNext]
      cases mapOk (fun node => node.get .complexity) rest <;> rfl

/-- The histogram of the complexity of nodes is what a fresh builder makes of their complexities,
all of which are needed. -/
theorem outcome_complexityHistogram (measure : Measure) (bounds : Bounds)
    (nodes : List SourceNode) :
    (complexityHistogram measure bounds nodes).outcome =
      (mapOk (fun node => node.get .complexity) nodes).bind
        (Builder.histogramOf measure bounds) := by
  have hopen : (Builder.new measure bounds).built = none := rfl
  rw [complexityHistogram, Run.outcome_andThen, outcome_countComplexity hopen]
  cases hvalues : mapOk (fun node => node.get .complexity) nodes with
  | error failure => rfl
  | ok values =>
    obtain ⟨hlast, hrun⟩ :=
      Builder.addList_numbers hopen (SourceNode.isFinite_of_mapOk_get hvalues)
    simp only [Except.map, ok_bind, Builder.histogramOf, hlast, hrun, Run.outcome_ofOutcome]

/-- A histogram of the complexity of nodes is finished exactly if all of them have one, and then it
is what a fresh builder makes of these. -/
theorem outcome_complexityHistogram_eq_ok_iff {measure : Measure} {bounds : Bounds}
    {nodes : List SourceNode} {histogram : Histogram} :
    (complexityHistogram measure bounds nodes).outcome = .ok histogram ↔
      (∀ node ∈ nodes, node.has .complexity = true) ∧
        Builder.histogramOf measure bounds (SourceNode.complexities nodes) = .ok histogram := by
  rw [outcome_complexityHistogram, bind_eq_ok_iff]
  constructor
  · rintro ⟨values, hvalues, hbuilt⟩
    obtain ⟨hall, rfl⟩ := SourceNode.mapOk_get_eq_ok_iff.1 hvalues
    exact ⟨hall, hbuilt⟩
  · rintro ⟨hall, hbuilt⟩
    exact ⟨_, SourceNode.mapOk_get_eq_ok_iff.2 ⟨hall, rfl⟩, hbuilt⟩

/-- The order in which nodes are gone through does not show in their histogram. -/
theorem outcome_complexityHistogram_perm {measure : Measure} {bounds : Bounds}
    {nodes others : List SourceNode} {histogram : Histogram} (h : nodes.Perm others) :
    (complexityHistogram measure bounds nodes).outcome = .ok histogram ↔
      (complexityHistogram measure bounds others).outcome = .ok histogram := by
  rw [outcome_complexityHistogram_eq_ok_iff, outcome_complexityHistogram_eq_ok_iff,
    Builder.histogramOf_perm measure bounds (SourceNode.complexities_perm h)
      (SourceNode.isFinite_complexities nodes)]
  simp only [h.mem_iff]

/-- Counting fewer than `2 ^ 63` nodes fails only for a missing complexity. -/
theorem exists_of_outcome_complexityHistogram_error {measure : Measure} {bounds : Bounds}
    {nodes : List SourceNode} {failure : Failure} (hsize : nodes.length < signedWordLimit)
    (h : (complexityHistogram measure bounds nodes).outcome = .error failure) :
    ∃ node ∈ nodes, node.get .complexity = .error failure := by
  rw [outcome_complexityHistogram, bind_eq_error_iff] at h
  rcases h with hmissing | ⟨values, hvalues, hbuilt⟩
  · exact exists_of_mapOk_error hmissing
  · have hlength := length_of_mapOk hvalues
    have hfits : values.length < signedWordLimit := by omega
    rw [Builder.histogramOf_of_lt measure bounds (SourceNode.isFinite_of_mapOk_get hvalues) hfits]
      at hbuilt
    contradiction

/-- The histogram of the complexity of fewer than `2 ^ 63` nodes is their tally. -/
theorem complexityHistogram_eq_tallied {measure : Measure} {bounds : Bounds}
    {nodes : List SourceNode} {histogram : Histogram} (hsize : nodes.length < signedWordLimit)
    (h : (complexityHistogram measure bounds nodes).outcome = .ok histogram) :
    histogram = .tallied measure bounds (onceEach (SourceNode.complexities nodes)) := by
  have hbuilt := (outcome_complexityHistogram_eq_ok_iff.1 h).2
  have hle := SourceNode.length_complexities_le nodes
  rw [Builder.histogramOf_of_lt measure bounds (SourceNode.isFinite_complexities nodes)
    (by omega)] at hbuilt
  exact (Except.ok.inj hbuilt).symm

end Aggregator

/-- A fresh builder that is fed with fewer than `2 ^ 63` nodes in any order finishes their
tally. -/
theorem exists_histogramOf_of_perm (measure : Measure) (bounds : Bounds)
    {counted order : List SourceNode} (horder : order.Perm counted)
    (hall : ∀ node ∈ counted, node.has .complexity = true)
    (hsize : counted.length < signedWordLimit) :
    ∃ values, mapOk (fun node : SourceNode => node.get .complexity) order = .ok values ∧
      Builder.histogramOf measure bounds values =
        .ok (.tallied measure bounds (onceEach (SourceNode.complexities counted))) := by
  have hhave : ∀ node ∈ order, node.has .complexity = true := fun node hmem =>
    hall node (horder.mem_iff.1 hmem)
  have hfits : (SourceNode.complexities order).length < signedWordLimit := by
    rw [SourceNode.length_complexities hhave, horder.length_eq]
    exact hsize
  refine ⟨_, SourceNode.mapOk_get_eq_ok_iff.2 ⟨hhave, rfl⟩, ?_⟩
  rw [Builder.histogramOf_of_lt measure bounds (SourceNode.isFinite_complexities order) hfits,
    Histogram.tallied_perm measure bounds (onceEach_perm (SourceNode.complexities_perm horder))]

end SourceGauge
