import SourceGauge.Proofs.Aggregation.Complexities
import SourceGauge.Proofs.Node.Queries

/-!
# The record of a file

What measuring one file of an index comes to, said on the nodes of the index: the metrics that it
needs, the record it gives, and the failure it ends with. The functions of a file may be gone
through in any order.

With `2 ^ 63` nodes or more the counts of a record may wrap around, and what a file fails with is
left open.
-/

namespace SourceGauge

/-- The metrics that aggregation needs of a node. -/
def NodeKind.requiredMetrics : NodeKind → List Metric
  | .file => fileMeasures.map Prod.fst
  | .function => [.complexity]
  | .type => []

/-- A failure that names one of the nodes, and a metric that is needed of it and that it lacks. -/
def Failure.NamesGap (failure : Failure) (nodes : List SourceNode) : Prop :=
  ∃ node ∈ nodes, ∃ metric ∈ node.kind.requiredMetrics,
    node.has metric = false ∧ failure = .missingMetric node.id metric

namespace SourceNode

/-- A node has all metrics that aggregation needs of it. -/
def IsMeasurable (node : SourceNode) : Prop :=
  ∀ metric ∈ node.kind.requiredMetrics, node.has metric = true

/-- The functions of a file among some nodes. -/
def functionsOf (nodes : List SourceNode) (file : SourceNode) : List SourceNode :=
  nodes.filter fun node => node.kind = .function ∧ node.parent = some file.id

end SourceNode

namespace Aggregator

/-- Metrics that are read off are listed under their names as measures. -/
theorem fst_of_map_measureOf {node : SourceNode} {items : List (Metric × Measure)}
    {results : List (Measure × Value)} (h : items.map (measureOf node) = results.map .ok) :
    results.map Prod.fst = items.map Prod.snd := by
  induction items generalizing results with
  | nil => simpa using h
  | cons item rest ih =>
    cases results with
    | nil => simp at h
    | cons result others =>
      rw [List.map_cons, List.map_cons, List.cons.injEq] at h
      obtain ⟨n, _, rfl⟩ := map_eq_ok_iff.1 h.1
      rw [List.map_cons, List.map_cons, ih h.2]

/-- The scalar measures of a file are its nine metrics under their names as measures. -/
theorem scalarMeasures_eq_ok {node : SourceNode} {measures : OrderedMap Measure Value}
    (h : scalarMeasures node = .ok measures) :
    measures.keys = fileMeasures.map Prod.snd ∧
      ∀ entry ∈ fileMeasures, ∃ n, node.get entry.1 = .ok n ∧
        measures.get? entry.2 = some (.number n) := by
  obtain ⟨entries, hentries, rfl⟩ := map_eq_ok_iff.1 h
  have hkeys := fst_of_map_measureOf (mapOk_eq_ok_iff.1 hentries)
  have hlisted : (OrderedMap.ofList entries).entries = entries :=
    OrderedMap.entries_ofList (hkeys ▸ nodup_fileMeasures)
  constructor
  · rw [OrderedMap.keys, hlisted, hkeys]
  · intro entry hentry
    obtain ⟨found, hfound, hread⟩ := exists_result_of_mapOk hentries hentry
    obtain ⟨n, hn, rfl⟩ := map_eq_ok_iff.1 hread
    exact ⟨n, hn, OrderedMap.get?_of_mem_entries (hlisted.symm ▸ hfound)⟩

/-- Reading off the scalar measures of a file fails only for a missing metric. -/
theorem exists_of_scalarMeasures_error {node : SourceNode} {failure : Failure}
    (h : scalarMeasures node = .error failure) :
    ∃ metric ∈ fileMeasures.map Prod.fst, node.get metric = .error failure := by
  obtain ⟨entry, hentry, hfailure⟩ := exists_of_mapOk_error (map_eq_error_iff.1 h)
  exact ⟨entry.1, List.mem_map_of_mem hentry, map_eq_error_iff.1 hfailure⟩

/-- The functions of a file in an index are those among its nodes. -/
theorem functions_eq_functionsOf (index : NodeIndex) (file : SourceNode) :
    index.functions (some file) = SourceNode.functionsOf index.nodes file :=
  index.byParent_eq_filter file .function

/-- A file is measured exactly if its measures can be read off and the complexity of its functions
and its own can be counted; its record is made up of these. -/
theorem outcome_measureFile_eq_ok_iff {conduct : Conduct} {limits : Limits} {index : NodeIndex}
    {file : SourceNode} {record : FileRecord} :
    (measureFile conduct limits index file).outcome = .ok record ↔
      record.key = .text file.key ∧ scalarMeasures file = .ok record.measures ∧
        (complexityHistogram .functionComplexityDistribution limits.functions
          (SourceNode.functionsOf index.nodes file)).outcome = .ok record.functionComplexity ∧
        (complexityHistogram .fileComplexityDistribution limits.files [file]).outcome =
          .ok record.fileComplexity := by
  have hperm := conduct.perm (index.functions (some file))
  rw [functions_eq_functionsOf] at hperm
  rw [measureFile]
  simp only [Run.outcome_andThen, Run.outcome_ofOutcome, Run.outcome_done, bind_eq_ok_iff,
    functions_eq_functionsOf, outcome_complexityHistogram_perm hperm, Except.ok.injEq]
  constructor
  · rintro ⟨measures, hmeasures, functions, hfunctions, own, hown, rfl⟩
    exact ⟨rfl, hmeasures, hfunctions, hown⟩
  · rintro ⟨hkey, hmeasures, hfunctions, hown⟩
    exact ⟨_, hmeasures, _, hfunctions, _, hown, by rw [← hkey]⟩

/-- A file that is measured has all metrics, and all its functions have a complexity. -/
theorem measurable_of_measureFile {conduct : Conduct} {limits : Limits} {index : NodeIndex}
    {file : SourceNode} {record : FileRecord}
    (h : (measureFile conduct limits index file).outcome = .ok record) :
    (∀ metric, file.has metric = true) ∧
      ∀ function ∈ SourceNode.functionsOf index.nodes file, function.has .complexity = true := by
  obtain ⟨_, hmeasures, hfunctions, _⟩ := outcome_measureFile_eq_ok_iff.1 h
  refine ⟨fun metric => ?_, (outcome_complexityHistogram_eq_ok_iff.1 hfunctions).1⟩
  obtain ⟨entry, hentry, rfl⟩ := List.mem_map.1 (mem_fileMeasures metric)
  obtain ⟨n, hn, _⟩ := (scalarMeasures_eq_ok hmeasures).2 entry hentry
  exact SourceNode.has_eq_true_iff.2 ⟨n, hn⟩

/-- In an index of fewer than `2 ^ 63` nodes, measuring a file fails only for a metric that is
needed and missing. -/
theorem namesGap_of_measureFile {conduct : Conduct} {limits : Limits} {index : NodeIndex}
    {file : SourceNode} {failure : Failure} (hsize : index.nodes.length < signedWordLimit)
    (hfile : file ∈ index.nodes) (hkind : file.kind = .file)
    (h : (measureFile conduct limits index file).outcome = .error failure) :
    failure.NamesGap index.nodes := by
  have hown : ∀ metric, file.get metric = .error failure → failure.NamesGap index.nodes := by
    intro metric hmissing
    refine ⟨file, hfile, metric, ?_, SourceNode.get_eq_error_iff.1 hmissing⟩
    rw [hkind]
    exact mem_fileMeasures metric
  have hperm := conduct.perm (index.functions (some file))
  rw [functions_eq_functionsOf] at hperm
  have hlength : (SourceNode.functionsOf index.nodes file).length ≤ index.nodes.length :=
    List.length_filter_le _ _
  rw [measureFile] at h
  simp only [Run.outcome_andThen, Run.outcome_ofOutcome, Run.outcome_done, bind_eq_error_iff,
    functions_eq_functionsOf, reduceCtorEq, and_false, exists_false, or_false] at h
  rcases h with hscalar | ⟨measures, _, hfunctions | ⟨functions, _, hcount⟩⟩
  · obtain ⟨metric, _, hmissing⟩ := exists_of_scalarMeasures_error hscalar
    exact hown metric hmissing
  · have hfits : (conduct.arrange (SourceNode.functionsOf index.nodes file)).length <
        signedWordLimit := by
      rw [hperm.length_eq]
      omega
    obtain ⟨function, hmem, hmissing⟩ :=
      exists_of_outcome_complexityHistogram_error hfits hfunctions
    rw [hperm.mem_iff] at hmem
    have hfunction := List.mem_filter.1 hmem
    rw [decide_eq_true_eq] at hfunction
    refine ⟨function, hfunction.1, .complexity, ?_, SourceNode.get_eq_error_iff.1 hmissing⟩
    rw [hfunction.2.1]
    exact List.mem_singleton_self _
  · have hfits : [file].length < signedWordLimit := (by decide : 1 < signedWordLimit)
    obtain ⟨node, hmem, hmissing⟩ := exists_of_outcome_complexityHistogram_error hfits hcount
    rw [List.mem_singleton] at hmem
    exact hown .complexity (hmem ▸ hmissing)

end Aggregator

/-- A record is that of a file among some nodes: it goes by the key of the file, holds its nine
metrics under their names as measures, and two histograms, the one that a fresh builder finishes
after it was fed with the complexity of the functions of the file, in any order, and the one of
the complexity of the file itself. -/
structure FileRecord.Describes (record : FileRecord) (limits : Limits) (nodes : List SourceNode)
    (file : SourceNode) : Prop where
  key : record.key = .text file.key
  measures : record.measures.keys = fileMeasures.map Prod.snd
  measure : ∀ entry ∈ fileMeasures, ∃ n, file.get entry.1 = .ok n ∧
    record.measures.get? entry.2 = some (.number n)
  functions : ∀ functions, functions.Perm (SourceNode.functionsOf nodes file) → ∃ values,
    mapOk (fun node : SourceNode => node.get .complexity) functions = .ok values ∧
      Builder.histogramOf .functionComplexityDistribution limits.functions values =
        .ok record.functionComplexity
  own : ∃ n, file.get .complexity = .ok n ∧
    Builder.histogramOf .fileComplexityDistribution limits.files [n] = .ok record.fileComplexity

/-- What measuring a file gives is the record of the file. -/
theorem Aggregator.describes_of_measureFile {conduct : Conduct} {limits : Limits}
    {index : NodeIndex} {file : SourceNode} {record : FileRecord}
    (h : (measureFile conduct limits index file).outcome = .ok record) :
    record.Describes limits index.nodes file := by
  obtain ⟨hkey, hmeasures, hfunctions, hown⟩ := outcome_measureFile_eq_ok_iff.1 h
  obtain ⟨hkeys, hread⟩ := scalarMeasures_eq_ok hmeasures
  refine ⟨hkey, hkeys, hread, fun functions hperm => ?_, ?_⟩
  · rw [← outcome_complexityHistogram_perm hperm, outcome_complexityHistogram,
      bind_eq_ok_iff] at hfunctions
    exact hfunctions
  · rw [outcome_complexityHistogram, bind_eq_ok_iff] at hown
    obtain ⟨values, hvalues, hbuilt⟩ := hown
    obtain ⟨n, _, hn⟩ := exists_result_of_mapOk hvalues (List.mem_singleton_self file)
    simp only [mapOk, hn, Except.ok.injEq] at hvalues
    exact ⟨n, hn, hvalues ▸ hbuilt⟩

end SourceGauge
