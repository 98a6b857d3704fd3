import SourceGauge.Proofs.Aggregation.Exactness

/-!
# Order and schedule do not show

Indexing a scan and aggregating the index has the same records whatever the order of the scan,
the orders in which sets are gone through, the number of workers and what the pool of workers
does: those of a single worker that keeps all orders. If there are none then every way fails. The
failure of a pass always names a gap, though not always the same one, so that no failure of a
worker is lost.
-/

namespace SourceGauge

/-- Naming a gap does not depend on the order of the nodes. -/
theorem Failure.NamesGap.perm {failure : Failure} {nodes others : List SourceNode}
    (h : failure.NamesGap others) (hperm : others.Perm nodes) : failure.NamesGap nodes := by
  obtain ⟨node, hnode, hgap⟩ := h
  exact ⟨node, hperm.mem_iff.1 hnode, hgap⟩

namespace Aggregator

/-- The nodes of a scan are indexed, and the index is aggregated by the conduct that it meets
with. -/
def passBy (conduct : NodeIndex → Conduct) (aggregator : Aggregator) (nodes : List SourceNode) :
    Run (List FileRecord) :=
  (NodeIndex.build (nodes.map .ok)).andThen fun index =>
    aggregateBy (conduct index) aggregator index

/-- The pass of a single worker that keeps all orders. -/
def sequentialPass (limits : Limits) (threshold : Number) (nodes : List SourceNode) :
    Run (List FileRecord) :=
  (NodeIndex.build (nodes.map .ok)).andThen (aggregate (.ofNumbers limits (.int 1) threshold))

variable {limits : Limits} {workers threshold : Number} {index rearranged : NodeIndex}

/-- The functions of a file are the same in an index over rearranged nodes. -/
theorem functionsOf_perm (h : rearranged.nodes.Perm index.nodes) (file : SourceNode) :
    (SourceNode.functionsOf rearranged.nodes file).Perm
      (SourceNode.functionsOf index.nodes file) := h.filter _

/-- The record of a file depends neither on the conduct nor on the order of the nodes. -/
theorem outcome_measureFile_perm {conduct other : Conduct} {file : SourceNode}
    {record : FileRecord} (h : rearranged.nodes.Perm index.nodes) :
    (measureFile conduct limits rearranged file).outcome = .ok record ↔
      (measureFile other limits index file).outcome = .ok record := by
  rw [outcome_measureFile_eq_ok_iff, outcome_measureFile_eq_ok_iff,
    outcome_complexityHistogram_perm (functionsOf_perm h file)]

/-- The records of an index depend neither on the conduct, nor on the order of the nodes, nor on
the number of workers and when they are used. -/
theorem outcome_aggregateBy_perm {conduct other : Conduct} {otherWorkers otherThreshold : Number}
    {records : List FileRecord} (h : rearranged.nodes.Perm index.nodes)
    (hoccurs : conduct.Occurs (ofNumbers limits workers threshold) rearranged)
    (hother : other.Occurs (ofNumbers limits otherWorkers otherThreshold) index) :
    (aggregateBy conduct (ofNumbers limits workers threshold) rearranged).outcome = .ok records ↔
      (aggregateBy other (ofNumbers limits otherWorkers otherThreshold) index).outcome =
        .ok records := by
  rw [outcome_aggregateBy_eq_ok_iff hoccurs, outcome_aggregateBy_eq_ok_iff hother,
    sortedFiles_eq_of_perm other conduct h]
  exact mapOk_eq_ok_congr fun file _ record => outcome_measureFile_perm h

/-- A pass over rearranged nodes, by any number of workers and any conduct that its index can meet
with, has exactly the records of the sequential pass, and fails exactly if that one does. If its
index is built but not aggregated then the failure names a gap, given that there are fewer than
`2 ^ 63` nodes, as in every list that fits into memory. -/
theorem passBy_eq_sequentialPass {nodes others : List SourceNode} {conduct : NodeIndex → Conduct}
    (hperm : others.Perm nodes)
    (hoccurs : ∀ index, index.nodes = others →
      (conduct index).Occurs (ofNumbers limits workers threshold) index) :
    (∀ records, (passBy conduct (ofNumbers limits workers threshold) others).outcome =
      .ok records ↔ (sequentialPass limits threshold nodes).outcome = .ok records) ∧
      (nodes.length < signedWordLimit → ∀ index failure,
        (NodeIndex.build (others.map .ok)).outcome = .ok index →
          (aggregateBy (conduct index) (ofNumbers limits workers threshold) index).outcome =
            .error failure → failure.NamesGap nodes) := by
  constructor
  · intro records
    unfold passBy sequentialPass aggregate
    simp only [Run.outcome_andThen, bind_eq_ok_iff, NodeIndex.outcome_build_map_ok_iff]
    have hworker : ∀ index, (Conduct.plain (NodeIndex.files index).length).Occurs
        (ofNumbers limits (.int 1) threshold) index := fun index =>
      Conduct.occurs_plain (zero_lt_atLeastOneWorker (.int 1))
    constructor
    · rintro ⟨rearranged, rfl, hrecords⟩
      obtain ⟨index, rfl⟩ := rearranged.exists_of_perm hperm.symm
      exact ⟨index, rfl,
        (outcome_aggregateBy_perm hperm (hoccurs rearranged rfl) (hworker index)).1 hrecords⟩
    · rintro ⟨index, rfl, hrecords⟩
      obtain ⟨rearranged, rfl⟩ := index.exists_of_perm hperm
      exact ⟨rearranged, rfl,
        (outcome_aggregateBy_perm hperm (hoccurs rearranged rfl) (hworker index)).2 hrecords⟩
  · intro hsize index failure hbuild hfailure
    have hnodes : index.nodes = others := NodeIndex.outcome_build_map_ok_iff.1 hbuild
    have hfits : index.nodes.length < signedWordLimit := by
      rw [hnodes, hperm.length_eq]
      exact hsize
    have hgap := namesGap_of_outcome_aggregateBy (hoccurs index hnodes) hfits hfailure
    exact hgap.perm (hnodes ▸ hperm)

/-- Two workers on the sample in reverse have the records of the sequential pass over it. -/
theorem passBy_reverse_sampleNodes : sampleNodes.reverse.Perm sampleNodes ∧ ∃ records,
    (passBy (fun _ => sampleConduct) sampleAggregator sampleNodes.reverse).outcome = .ok records ∧
      (sequentialPass .standard (.int 2) sampleNodes).outcome = .ok records := by
  have hperm : sampleNodes.reverse.Perm sampleNodes := List.reverse_perm sampleNodes
  have hoccurs : ∀ index : NodeIndex, index.nodes = sampleNodes.reverse →
      sampleConduct.Occurs sampleAggregator index :=
    fun _ hindex => occurs_sampleConduct (hindex ▸ hperm)
  have hsame := (passBy_eq_sequentialPass hperm hoccurs).1
  have hworker : (Conduct.plain sampleIndex.files.length).Occurs
      (ofNumbers .standard (.int 1) (.int 2)) sampleIndex :=
    Conduct.occurs_plain (zero_lt_atLeastOneWorker (.int 1))
  obtain ⟨records, hrecords⟩ :=
    exists_outcome_aggregateBy hworker length_sampleNodes_lt isMeasurable_of_mem_sampleNodes
  have hsequential : (sequentialPass .standard (.int 2) sampleNodes).outcome = .ok records := by
    unfold sequentialPass aggregate
    simp only [Run.outcome_andThen, build_sampleNodes, ok_bind]
    exact hrecords
  exact ⟨hperm, records, (hsame records).2 hsequential, hsequential⟩

end Aggregator

end SourceGauge
