import Mathlib.Data.List.Forall2
import SourceGauge.Proofs.Aggregation.Pools
import SourceGauge.Proofs.Aggregation.Records

/-!
# Passes over an index

Whatever order a pass goes through the files of an index in, and whatever its workers do, it
measures the files in the order of their keys: each file once, since no two files share a key. It
succeeds exactly if every file is measured, with the records in that order, and it fails with the
failure of one of the files. Sorting the records of a pool changes nothing.

Which failure is found among several is left open.
-/

namespace SourceGauge

/-- Results stand in the order of the items that they are of. -/
theorem forall₂_of_mapOk {ε α β : Type} {f : α → Except ε β} {items : List α} {results : List β}
    (h : mapOk f items = .ok results) :
    List.Forall₂ (fun item result => f item = .ok result) items results := by
  have hlist := mapOk_eq_ok_iff.1 h
  rwa [← List.forall₂_eq_eq_eq, List.forall₂_map_left_iff, List.forall₂_map_right_iff] at hlist

/-- A conduct can occur in a pass over an index: if the pass uses workers, the schedule is what it
sees of its pool once it is awake. -/
def Conduct.Occurs (conduct : Conduct) (aggregator : Aggregator) (index : NodeIndex) : Prop :=
  let tasks := (Aggregator.sortedFiles conduct index).map
    (Aggregator.measureFile conduct aggregator.limits index)
  aggregator.isParallel tasks.length = .ok true → ∃ pool,
    Pool.Reaches aggregator.workers (.start tasks.length) pool ∧ pool.IsAwake tasks ∧
      pool.Shows conduct.schedule

namespace Aggregator

/-- There is at least one worker. -/
theorem zero_lt_atLeastOneWorker (n : Number) :
    (Number.int 0).lt (atLeastOneWorker n) = true := by
  have hone : (Number.int 0).lt (.int 1) = true := by decide +kernel
  rw [atLeastOneWorker]
  split
  · rename_i hmany
    exact Number.lt_trans hone hmany
  · exact hone

/-- With a number as its threshold a pass knows whether to use workers. -/
theorem exists_isParallel_ofNumbers (limits : Limits) (workers threshold : Number) (files : Nat) :
    ∃ parallel, (ofNumbers limits workers threshold).isParallel files = .ok parallel := by
  rw [isParallel, ofNumbers]
  split
  · exact ⟨_, rfl⟩
  · exact ⟨_, rfl⟩

/-- The files that are measured are those among the nodes. -/
theorem sortedFiles_perm_filter (conduct : Conduct) (index : NodeIndex) :
    (sortedFiles conduct index).Perm (index.nodes.filter fun node => node.kind = .file) := by
  have hperm := sortedFiles_perm conduct index
  rwa [NodeIndex.files, index.byKind_eq_filter] at hperm

theorem mem_sortedFiles_iff {conduct : Conduct} {index : NodeIndex} {file : SourceNode} :
    file ∈ sortedFiles conduct index ↔ file ∈ index.nodes ∧ file.kind = .file := by
  rw [(sortedFiles_perm_filter conduct index).mem_iff, List.mem_filter, decide_eq_true_eq]

/-- The keys of files ascend. -/
theorem pairwise_le_sortedFiles (conduct : Conduct) (index : NodeIndex) :
    (sortedFiles conduct index).Pairwise fun a b => a.key.le b.key = true := by
  rw [sortedFiles]
  apply List.pairwise_mergeSort
  · intro a b c hab hbc
    exact Text.le_trans hab hbc
  · intro a b
    exact Text.le_total a.key b.key

/-- Files of an index that share a key are one file. -/
theorem eq_of_file_key_eq (index : NodeIndex) {a b : SourceNode} (ha : a ∈ index.nodes)
    (hb : b ∈ index.nodes) (hkinds : a.kind = b.kind) (hkeys : a.key = b.key) : a = b := by
  refine index.eq_of_id_eq ha hb ?_
  obtain ⟨⟨_, _⟩, _⟩ := a
  obtain ⟨⟨_, _⟩, _⟩ := b
  cases hkinds
  cases hkeys
  rfl

/-- The keys of files strictly ascend. -/
theorem pairwise_lt_sortedFiles (conduct : Conduct) (index : NodeIndex) :
    (sortedFiles conduct index).Pairwise fun a b => a.key.le b.key = true ∧ a.key ≠ b.key := by
  have hnodup : (sortedFiles conduct index).Nodup :=
    (sortedFiles_perm_filter conduct index).nodup_iff.2 (index.nodup_nodes.filter _)
  refine ((pairwise_le_sortedFiles conduct index).and hnodup).imp_of_mem ?_
  rintro a b ha hb ⟨hle, hne⟩
  obtain ⟨haMem, haKind⟩ := mem_sortedFiles_iff.1 ha
  obtain ⟨hbMem, hbKind⟩ := mem_sortedFiles_iff.1 hb
  exact ⟨hle, fun hkey => hne (eq_of_file_key_eq index haMem hbMem (haKind.trans hbKind.symm) hkey)⟩

/-- The keys of the files that are measured are distinct. -/
theorem nodup_map_key_sortedFiles (conduct : Conduct) (index : NodeIndex) :
    ((sortedFiles conduct index).map SourceNode.key).Nodup :=
  List.pairwise_map.2 ((pairwise_lt_sortedFiles conduct index).imp And.right)

/-- The order in which files are measured does not depend on the conduct or on the order of the
nodes. -/
theorem sortedFiles_eq_of_perm (conduct other : Conduct) {index rearranged : NodeIndex}
    (h : rearranged.nodes.Perm index.nodes) :
    sortedFiles other rearranged = sortedFiles conduct index := by
  have hperm : (sortedFiles other rearranged).Perm (sortedFiles conduct index) :=
    (sortedFiles_perm_filter other rearranged).trans
      ((h.filter _).trans (sortedFiles_perm_filter conduct index).symm)
  refine hperm.eq_of_pairwise (fun a b ha hb hab hba => ?_)
    (pairwise_le_sortedFiles other rearranged) (pairwise_le_sortedFiles conduct index)
  obtain ⟨haMem, haKind⟩ := mem_sortedFiles_iff.1 (hperm.mem_iff.1 ha)
  obtain ⟨hbMem, hbKind⟩ := mem_sortedFiles_iff.1 hb
  exact eq_of_file_key_eq index haMem hbMem (haKind.trans hbKind.symm) (Text.le_antisymm hab hba)

/-- Runs that follow one another give the results of all items, or fail with the first. -/
theorem outcome_inSequence {α β : Type} (f : α → Run β) (items : List α) :
    (inSequence f items).outcome = mapOk (fun item => (f item).outcome) items := by
  induction items with
  | nil => rfl
  | cons item rest ih =>
    rw [inSequence, mapOk]
    simp only [Run.outcome_andThen, Run.outcome_done, ih]
    cases (f item).outcome with
    | error failure => rfl
    | ok result => cases mapOk (fun item => (f item).outcome) rest <;> rfl

/-- Records go by the keys of the files that they are of. -/
theorem map_key_of_mapOk_measureFile {conduct : Conduct} {limits : Limits} {index : NodeIndex}
    {files : List SourceNode} {records : List FileRecord}
    (h : mapOk (fun file => (measureFile conduct limits index file).outcome) files = .ok records) :
    records.map FileRecord.key = files.map fun file => .text file.key := by
  have hkeys : List.Forall₂ (fun file record => Value.text (SourceNode.key file) =
      FileRecord.key record) files records :=
    (forall₂_of_mapOk h).imp fun _ _ hrecord =>
      (outcome_measureFile_eq_ok_iff.1 hrecord).1.symm
  rw [← List.forall₂_map_right_iff, ← List.forall₂_map_left_iff, List.forall₂_eq_eq_eq] at hkeys
  exact hkeys.symm

/-- Sorting records by their keys changes nothing if they stand in the order of sorted files. -/
theorem sortRecords_eq_self {conduct : Conduct} {limits : Limits} {index : NodeIndex}
    {records : List FileRecord}
    (h : mapOk (fun file => (measureFile conduct limits index file).outcome)
      (sortedFiles conduct index) = .ok records) : sortRecords records = records := by
  have hfiles : ((sortedFiles conduct index).map fun file => Value.text file.key).Pairwise
      fun a b => a.plain.le b.plain = true :=
    List.pairwise_map.2 (pairwise_le_sortedFiles conduct index)
  rw [← map_key_of_mapOk_measureFile h, List.pairwise_map] at hfiles
  exact List.mergeSort_of_pairwise hfiles

/-- The outcome of a pass, whose workers are used or not. -/
theorem outcome_aggregateBy {conduct : Conduct} {aggregator : Aggregator} {index : NodeIndex}
    {parallel : Bool}
    (hparallel : aggregator.isParallel (sortedFiles conduct index).length = .ok parallel) :
    (aggregateBy conduct aggregator index).outcome =
      if parallel then
        ((conduct.schedule.run ((sortedFiles conduct index).map
          (measureFile conduct aggregator.limits index))).outcome).map sortRecords
      else mapOk (fun file => (measureFile conduct aggregator.limits index file).outcome)
        (sortedFiles conduct index) := by
  rw [aggregateBy]
  simp only [Run.outcome_andThen, Run.outcome_ofOutcome, hparallel, ok_bind, Run.outcome_report,
    Run.outcome_done]
  cases parallel with
  | false =>
    simp only [Bool.false_eq_true, if_false, measureInSequence, outcome_inSequence]
    cases mapOk (fun file => (measureFile conduct aggregator.limits index file).outcome)
      (sortedFiles conduct index) <;> rfl
  | true =>
    simp only [if_true, measurePooled, Run.outcome_andThen, Run.outcome_done]
    cases (conduct.schedule.run ((sortedFiles conduct index).map
      (measureFile conduct aggregator.limits index))).outcome <;> rfl

/-- The records of a pass are those of the files in the order of their keys, under any conduct at
all. -/
theorem mapOk_of_outcome_aggregateBy {conduct : Conduct} {aggregator : Aggregator}
    {index : NodeIndex} {records : List FileRecord}
    (h : (aggregateBy conduct aggregator index).outcome = .ok records) :
    mapOk (fun file => (measureFile conduct aggregator.limits index file).outcome)
      (sortedFiles conduct index) = .ok records := by
  cases hparallel : aggregator.isParallel (sortedFiles conduct index).length with
  | error failure =>
    rw [aggregateBy, Run.outcome_andThen] at h
    simp only [hparallel, Run.outcome_ofOutcome, error_bind, reduceCtorEq] at h
  | ok parallel =>
    rw [outcome_aggregateBy hparallel] at h
    cases parallel with
    | false => exact h
    | true =>
      rw [if_pos rfl, map_eq_ok_iff] at h
      obtain ⟨found, hfound, rfl⟩ := h
      have hmeasured := Schedule.mapOk_of_outcome_run hfound
      rw [mapOk_map] at hmeasured
      rw [sortRecords_eq_self hmeasured]
      exact hmeasured

/-- A schedule that a pass meets with is possible. -/
theorem possible_of_occurs {conduct : Conduct} {aggregator : Aggregator} {index : NodeIndex}
    (hoccurs : conduct.Occurs aggregator index)
    (hparallel : aggregator.isParallel (sortedFiles conduct index).length = .ok true) :
    conduct.schedule.Possible ((sortedFiles conduct index).map
      (measureFile conduct aggregator.limits index)) := by
  rw [← List.length_map (measureFile conduct aggregator.limits index)] at hparallel
  obtain ⟨pool, hreach, hawake, hshows⟩ := hoccurs hparallel
  exact Pool.possible_of_shows hreach hawake hshows

variable {conduct : Conduct} {limits : Limits} {workers threshold : Number} {index : NodeIndex}

/-- A pass succeeds exactly if all files are measured, with the records in the order of the keys
of the files. -/
theorem outcome_aggregateBy_eq_ok_iff {records : List FileRecord}
    (hoccurs : conduct.Occurs (ofNumbers limits workers threshold) index) :
    (aggregateBy conduct (ofNumbers limits workers threshold) index).outcome = .ok records ↔
      mapOk (fun file => (measureFile conduct limits index file).outcome)
        (sortedFiles conduct index) = .ok records := by
  obtain ⟨parallel, hparallel⟩ := exists_isParallel_ofNumbers limits workers threshold
    (sortedFiles conduct index).length
  rw [outcome_aggregateBy hparallel]
  cases parallel with
  | false => rfl
  | true =>
    have hpossible := possible_of_occurs hoccurs hparallel
    rw [if_pos rfl, map_eq_ok_iff]
    simp only [Schedule.outcome_run_eq_ok_iff hpossible, mapOk_map]
    constructor
    · rintro ⟨found, hfound, rfl⟩
      rw [sortRecords_eq_self hfound]
      exact hfound
    · intro h
      exact ⟨records, h, sortRecords_eq_self h⟩

/-- A pass that fails does so with the failure of measuring one of the files. -/
theorem exists_of_outcome_aggregateBy_error {failure : Failure}
    (hoccurs : conduct.Occurs (ofNumbers limits workers threshold) index)
    (h : (aggregateBy conduct (ofNumbers limits workers threshold) index).outcome =
      .error failure) :
    ∃ file ∈ sortedFiles conduct index,
      (measureFile conduct limits index file).outcome = .error failure := by
  obtain ⟨parallel, hparallel⟩ := exists_isParallel_ofNumbers limits workers threshold
    (sortedFiles conduct index).length
  rw [outcome_aggregateBy hparallel] at h
  cases parallel with
  | false => exact exists_of_mapOk_error h
  | true =>
    rw [if_pos rfl, map_eq_error_iff] at h
    obtain ⟨task, htask, hfailure⟩ :=
      Schedule.exists_of_outcome_run_error (possible_of_occurs hoccurs hparallel) h
    obtain ⟨file, hfile, rfl⟩ := List.mem_map.1 htask
    exact ⟨file, hfile, hfailure⟩

end Aggregator

/-- The conduct that keeps all orders can occur in a pass of at least one worker. -/
theorem Conduct.occurs_plain {aggregator : Aggregator} {index : NodeIndex}
    (hworkers : (Number.int 0).lt aggregator.workers = true) :
    (plain index.files.length).Occurs aggregator index := by
  intro _
  have hcount : (Aggregator.sortedFiles (plain index.files.length) index).length =
      index.files.length := (Aggregator.sortedFiles_perm _ index).length_eq
  rw [List.length_map, hcount]
  refine ⟨⟨[], [], List.range index.files.length⟩, ?_, .inl ⟨rfl, rfl⟩, .refl _, ?_⟩
  · exact Pool.reaches_inOrder hworkers [] (List.range index.files.length)
  · intro i hi
    exact absurd hi List.not_mem_nil

end SourceGauge
