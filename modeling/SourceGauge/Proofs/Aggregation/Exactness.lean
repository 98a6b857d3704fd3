import SourceGauge.Proofs.Aggregation.Passes

/-!
# What a pass returns

A pass over an index succeeds exactly if no metric is missing that it needs, and then there is one
record for each file, in the order of the keys. With fewer than `2 ^ 63` nodes there is nothing
else that it can fail with: the values are finite, the bounds ascend, the builders are fresh and
the counts do not wrap around.
-/

namespace SourceGauge

instance (node : SourceNode) : Decidable node.IsMeasurable :=
  inferInstanceAs (Decidable (∀ metric ∈ node.kind.requiredMetrics, node.has metric = true))

/-- Records are those of all files among some nodes, one for each, and their keys strictly
ascend. -/
def FileRecord.Cover (records : List FileRecord) (limits : Limits) (nodes : List SourceNode) :
    Prop :=
  ∃ files : List SourceNode, files.Perm (nodes.filter fun node => node.kind = .file) ∧
    (files.Pairwise fun a b => a.key.le b.key = true ∧ a.key ≠ b.key) ∧
    List.Forall₂ (fun file record => FileRecord.Describes record limits nodes file) files records

/-- Nodes with a gap are not all measurable. -/
theorem Failure.NamesGap.exists_not_isMeasurable {failure : Failure} {nodes : List SourceNode}
    (h : failure.NamesGap nodes) : ∃ node ∈ nodes, ¬ node.IsMeasurable := by
  obtain ⟨node, hnode, metric, hmetric, hno, _⟩ := h
  refine ⟨node, hnode, fun hall => ?_⟩
  rw [hall metric hmetric] at hno
  contradiction

namespace Aggregator

variable {conduct : Conduct} {limits : Limits} {index : NodeIndex} {records : List FileRecord}

/-- If all files of an index are measured, every node has the metrics that are needed of it, since
every function belongs to one of the files. -/
theorem isMeasurable_of_mapOk_measureFile
    (h : mapOk (fun file => (measureFile conduct limits index file).outcome)
      (sortedFiles conduct index) = .ok records) : ∀ node ∈ index.nodes, node.IsMeasurable := by
  have hfiles : ∀ file ∈ index.nodes, file.kind = .file →
      (∀ metric, file.has metric = true) ∧
        ∀ function ∈ SourceNode.functionsOf index.nodes file, function.has .complexity = true := by
    intro file hfile hkind
    obtain ⟨record, _, hrecord⟩ := exists_result_of_mapOk h (mem_sortedFiles_iff.2 ⟨hfile, hkind⟩)
    exact measurable_of_measureFile hrecord
  intro node hnode metric hmetric
  cases hkind : node.kind with
  | file => exact (hfiles node hnode hkind).1 metric
  | function =>
    rw [hkind] at hmetric
    obtain ⟨file, hfile, hfileKind, hparent⟩ := index.exists_file_of_function hnode hkind
    have hmem : node ∈ SourceNode.functionsOf index.nodes file :=
      List.mem_filter.2 ⟨hnode, decide_eq_true ⟨hkind, hparent⟩⟩
    rw [List.mem_singleton.1 hmetric]
    exact (hfiles file hfile hfileKind).2 node hmem
  | type =>
    rw [hkind] at hmetric
    exact absurd hmetric List.not_mem_nil

/-- The records of all files of an index cover its nodes. -/
theorem cover_of_mapOk_measureFile
    (h : mapOk (fun file => (measureFile conduct limits index file).outcome)
      (sortedFiles conduct index) = .ok records) :
    FileRecord.Cover records limits index.nodes := by
  refine ⟨sortedFiles conduct index, sortedFiles_perm_filter conduct index,
    pairwise_lt_sortedFiles conduct index, ?_⟩
  exact (forall₂_of_mapOk h).imp fun _ _ hrecord => describes_of_measureFile hrecord

/-- A pass that fails names a gap, if there are fewer than `2 ^ 63` nodes. -/
theorem namesGap_of_outcome_aggregateBy {workers threshold : Number} {failure : Failure}
    (hoccurs : conduct.Occurs (ofNumbers limits workers threshold) index)
    (hsize : index.nodes.length < signedWordLimit)
    (h : (aggregateBy conduct (ofNumbers limits workers threshold) index).outcome =
      .error failure) : failure.NamesGap index.nodes := by
  obtain ⟨file, hfile, hfailure⟩ := exists_of_outcome_aggregateBy_error hoccurs h
  obtain ⟨hmem, hkind⟩ := mem_sortedFiles_iff.1 hfile
  exact namesGap_of_measureFile hsize hmem hkind hfailure

/-- A pass succeeds if every node has the metrics that are needed of it. -/
theorem exists_outcome_aggregateBy {workers threshold : Number}
    (hoccurs : conduct.Occurs (ofNumbers limits workers threshold) index)
    (hsize : index.nodes.length < signedWordLimit)
    (hall : ∀ node ∈ index.nodes, node.IsMeasurable) :
    ∃ records,
      (aggregateBy conduct (ofNumbers limits workers threshold) index).outcome = .ok records := by
  cases houtcome : (aggregateBy conduct (ofNumbers limits workers threshold) index).outcome with
  | ok records => exact ⟨records, rfl⟩
  | error failure =>
    obtain ⟨node, hnode, hno⟩ :=
      (namesGap_of_outcome_aggregateBy hoccurs hsize houtcome).exists_not_isMeasurable
    exact absurd (hall node hnode) hno

/-- A pass over the index of fewer than `2 ^ 63` nodes returns records exactly if every node has
the metrics that are needed of it, and these records cover the nodes; otherwise it names a metric
that is missing. -/
theorem aggregate_of_build {nodes : List SourceNode} {workers threshold : Number}
    (hbuild : (NodeIndex.build (nodes.map .ok)).outcome = .ok index)
    (hsize : nodes.length < signedWordLimit)
    (hoccurs : conduct.Occurs (ofNumbers limits workers threshold) index) :
    let outcome := (aggregateBy conduct (ofNumbers limits workers threshold) index).outcome
    ((∃ records, outcome = .ok records) ↔ ∀ node ∈ nodes, node.IsMeasurable) ∧
      (∀ failure, outcome = .error failure → failure.NamesGap nodes) ∧
      ∀ records, outcome = .ok records → FileRecord.Cover records limits nodes := by
  have hnodes : index.nodes = nodes := NodeIndex.outcome_build_map_ok_iff.1 hbuild
  subst hnodes
  refine ⟨⟨?_, exists_outcome_aggregateBy hoccurs hsize⟩,
    fun failure => namesGap_of_outcome_aggregateBy hoccurs hsize, ?_⟩
  · rintro ⟨records, hrecords⟩
    exact isMeasurable_of_mapOk_measureFile
      ((outcome_aggregateBy_eq_ok_iff hoccurs).1 hrecords)
  · intro records hrecords
    exact cover_of_mapOk_measureFile ((outcome_aggregateBy_eq_ok_iff hoccurs).1 hrecords)

end Aggregator

/-- A conduct that goes through sets backwards, and whose second task ends before the first. -/
def sampleConduct : Conduct := ⟨List.reverse, List.reverse_perm, ⟨[1, 0], []⟩⟩

/-- Two workers. -/
def sampleAggregator : Aggregator := .ofNumbers .standard (.int 2) (.int 2)

/-- Two workers can come to end the tasks of the sample in this way, whatever the order of its
nodes. -/
theorem occurs_sampleConduct {index : NodeIndex} (h : index.nodes.Perm sampleNodes) :
    sampleConduct.Occurs sampleAggregator index := by
  intro _
  have hfiles : (Aggregator.sortedFiles sampleConduct index).Perm
      (sampleNodes.filter fun node => node.kind = .file) :=
    (Aggregator.sortedFiles_perm_filter sampleConduct index).trans (h.filter _)
  have hcount : (Aggregator.sortedFiles sampleConduct index).length = 2 :=
    hfiles.length_eq.trans (by decide)
  rw [List.length_map, hcount]
  have hfirst : Pool.Step sampleAggregator.workers ⟨[0, 1], [], []⟩ ⟨[1], [0], []⟩ :=
    .take 0 [1] [] [] (by decide +kernel)
  have hsecond : Pool.Step sampleAggregator.workers ⟨[1], [0], []⟩ ⟨[], [1, 0], []⟩ :=
    .take 1 [] [0] [] (by decide +kernel)
  have hthird : Pool.Step sampleAggregator.workers ⟨[], [1, 0], []⟩ ⟨[], [0], [1]⟩ :=
    .finish 1 [] [] [0] []
  have hlast : Pool.Step sampleAggregator.workers ⟨[], [0], [1]⟩ ⟨[], [], [1, 0]⟩ :=
    .finish 0 [] [] [] [1]
  refine ⟨⟨[], [], [1, 0]⟩, ?_, .inl ⟨rfl, rfl⟩, .refl _, ?_⟩
  · exact (((Relation.ReflTransGen.single hfirst).tail hsecond).tail hthird).tail hlast
  · intro i hi
    exact absurd hi List.not_mem_nil

theorem length_sampleNodes_lt : sampleNodes.length < signedWordLimit :=
  (by decide : 5 < signedWordLimit)

/-- Nothing is missing in the sample. -/
theorem isMeasurable_of_mem_sampleNodes : ∀ node ∈ sampleNodes, node.IsMeasurable := by decide

/-- The pass over the sample returns records that cover it. -/
theorem Aggregator.aggregate_sampleIndex :
    (NodeIndex.build (sampleNodes.map .ok)).outcome = .ok sampleIndex ∧
      sampleNodes.length < signedWordLimit ∧
      sampleConduct.Occurs sampleAggregator sampleIndex ∧
      ∃ records, (aggregateBy sampleConduct sampleAggregator sampleIndex).outcome = .ok records ∧
        FileRecord.Cover records .standard sampleNodes := by
  have hoccurs : sampleConduct.Occurs sampleAggregator sampleIndex :=
    occurs_sampleConduct (.refl _)
  obtain ⟨hreturns, _, hcover⟩ :=
    aggregate_of_build build_sampleNodes length_sampleNodes_lt hoccurs
  obtain ⟨records, hrecords⟩ := hreturns.2 isMeasurable_of_mem_sampleNodes
  exact ⟨build_sampleNodes, length_sampleNodes_lt, hoccurs, records, hrecords,
    hcover records hrecords⟩

end SourceGauge
