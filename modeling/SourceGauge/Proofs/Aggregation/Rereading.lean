import Mathlib.Data.List.Forall2
import SourceGauge.Proofs.Aggregation.Independence
import SourceGauge.Proofs.Node.Acceptance
import SourceGauge.Proofs.Node.RoundTrip

/-!
# Passes over nodes that were dumped

What reading nodes back from their dumps changes about a pass over them: nothing but the kinds of
numbers. Nodes with exact metrics have an index exactly if those read back from their dumps do, the
files come in the same order, every value falls into the same bucket, and each record has equal
measures and the same histograms. Passes may differ in their conduct and in their workers.

Which failure a pass ends with is not compared: it is left open for each pass alone.
-/

namespace SourceGauge

/-! ## Outcomes that agree -/

/-- Two outcomes agree if both are failures, or both are successes with related results. -/
def Agree {ε α β : Type} (related : α → β → Prop) : Except ε α → Except ε β → Prop
  | .ok result, .ok other => related result other
  | .error _, .error _ => True
  | _, _ => False

section Agree

variable {ε α β γ : Type} {related : α → β → Prop}

/-- Outcomes agree exactly if a success of either comes with a related one of the other. -/
theorem agree_iff {outcome : Except ε α} {other : Except ε β} :
    Agree related outcome other ↔
      (∀ result, outcome = .ok result → ∃ found, other = .ok found ∧ related result found) ∧
        ∀ found, other = .ok found → ∃ result, outcome = .ok result ∧ related result found := by
  cases outcome <;> cases other <;> simp [Agree]

/-- Agreement looks at nothing but successes. -/
theorem agree_congr {outcome again : Except ε α} {other found : Except ε β}
    (houtcome : ∀ result, outcome = .ok result ↔ again = .ok result)
    (hother : ∀ result, other = .ok result ↔ found = .ok result) :
    Agree related outcome other ↔ Agree related again found := by
  simp only [agree_iff, houtcome, hother]

/-- Operations that agree on all items agree on the list of them. -/
theorem agree_mapOk {f : γ → Except ε α} {g : γ → Except ε β} {items : List γ}
    (h : ∀ item ∈ items, Agree related (f item) (g item)) :
    Agree (List.Forall₂ related) (mapOk f items) (mapOk g items) := by
  induction items with
  | nil => exact .nil
  | cons item rest ih =>
    have hfirst := h item List.mem_cons_self
    have hrest := ih fun other hother => h other (List.mem_cons_of_mem item hother)
    rw [mapOk, mapOk]
    cases hf : f item <;> cases hg : g item <;> rw [hf, hg] at hfirst
    case error.error => trivial
    case error.ok => exact hfirst.elim
    case ok.error => exact hfirst.elim
    case ok.ok =>
      cases hfs : mapOk f rest <;> cases hgs : mapOk g rest <;> rw [hfs, hgs] at hrest
      case error.error => trivial
      case error.ok => exact hrest.elim
      case ok.error => exact hrest.elim
      case ok.ok => exact .cons hfirst hrest

end Agree

/-! ## Buckets -/

namespace Number

/-- Rounding changes nothing about being finite. -/
theorem isFinite?_asReal (n : Number) : n.asReal.isFinite? = n.isFinite? := by
  cases hn : n.toBinary64? with
  | some x =>
    rw [asReal_of_toBinary64? hn, isFinite?, isFinite?, hn]
    rfl
  | none => rw [asReal, hn]

/-- What an exact number is rounded to is exact. -/
theorem IsExact.asReal {n : Number} (h : n.IsExact) : n.asReal.IsExact := by
  have hplace := extent?_asReal h
  obtain ⟨x, hx⟩ := h
  exact ⟨x, hx.trans hplace.symm⟩

end Number

namespace Builder

/-- An exact number falls into the bucket that it is rounded into. -/
theorem bucketOf_asReal (bounds : Bounds) {n : Number} (h : n.IsExact) :
    bucketOf bounds n.asReal = bucketOf bounds n := by
  have hplace : (searched n.asReal).extent? = (searched n).extent? := by
    rw [extent?_searched h.asReal, extent?_searched h, Number.extent?_asReal h]
  have hrank : rank bounds n.asReal = rank bounds n := by
    rw [rank, rank]
    exact List.countP_congr fun limit _ => by rw [Number.le_congr rfl hplace]
  rw [bucketOf, bucketOf, hrank]

/-- Exact numbers are tallied as those that they are rounded to. -/
theorem tally_asReal (bounds : Bounds) {values : List Number} (h : ∀ n ∈ values, n.IsExact) :
    bounds.tally (onceEach (values.map Number.asReal)) = bounds.tally (onceEach values) := by
  have hload : ∀ bucket, bounds.load (onceEach (values.map Number.asReal)) bucket =
      bounds.load (onceEach values) bucket := by
    intro bucket
    induction values with
    | nil => rfl
    | cons n rest ih =>
      have hrest := ih fun other hother => h other (List.mem_cons_of_mem n hother)
      have hbucket := bucketOf_asReal bounds (h n List.mem_cons_self)
      simp only [onceEach, List.map_cons, Bounds.load, hbucket] at hrest ⊢
      rw [hrest]
  rw [Bounds.tally, Bounds.tally, funext hload]

/-- A fresh builder finishes the same histogram of exact numbers and of those that they are rounded
to. -/
theorem histogramOf_asReal (measure : Measure) (bounds : Bounds) {values : List Number}
    (hfinite : ∀ n ∈ values, n.isFinite? = some true) (hexact : ∀ n ∈ values, n.IsExact) :
    histogramOf measure bounds (values.map Number.asReal) = histogramOf measure bounds values := by
  have hrounded : ∀ n ∈ values.map Number.asReal, n.isFinite? = some true := by
    intro n hn
    obtain ⟨given, hgiven, rfl⟩ := List.mem_map.1 hn
    rw [Number.isFinite?_asReal, hfinite given hgiven]
  rw [histogramOf_eq measure bounds hrounded, histogramOf_eq measure bounds hfinite,
    tally_asReal bounds hexact]

end Builder

/-! ## Metrics -/

namespace SourceNode

/-- Metrics are looked up as they were, and rounded. -/
theorem get_reread (node : SourceNode) (metric : Metric) :
    node.reread.get metric = (node.get metric).map Number.asReal := by
  have hfound : node.reread.metrics.get? metric = (node.metrics.get? metric).map Number.asReal :=
    OrderedMap.get?_mapValues _ _ _
  rw [get, get, hfound]
  cases node.metrics.get? metric <;> rfl

theorem has_reread (node : SourceNode) (metric : Metric) :
    node.reread.has metric = node.has metric := by
  rw [Bool.eq_iff_iff, has_eq_true_iff, has_eq_true_iff, get_reread]
  cases node.get metric <;> simp [Except.map]

/-- The value of a metric is exact if all metrics are. -/
theorem isExact_of_get {node : SourceNode} {metric : Metric} {n : Number} (hexact : node.IsExact)
    (h : node.get metric = .ok n) : n.IsExact :=
  hexact n (OrderedMap.mem_values_of_get? (get_eq_ok_iff.1 h))

theorem complexities_reread (nodes : List SourceNode) :
    complexities (nodes.map reread) = (complexities nodes).map Number.asReal := by
  rw [complexities, complexities, List.filterMap_map, List.map_filterMap]
  refine List.filterMap_congr fun node _ => ?_
  exact OrderedMap.get?_mapValues _ _ _

/-- The functions of a file that was read back are those of the file. -/
theorem functionsOf_reread (nodes : List SourceNode) (file : SourceNode) :
    functionsOf (nodes.map reread) file.reread = (functionsOf nodes file).map reread := by
  rw [functionsOf, functionsOf, List.filter_map]
  rfl

end SourceNode

namespace Aggregator

/-- The histogram of the complexity of nodes with exact metrics is that of the nodes that are read
back. -/
theorem outcome_complexityHistogram_reread {measure : Measure} {bounds : Bounds}
    {nodes : List SourceNode} {histogram : Histogram} (hexact : ∀ node ∈ nodes, node.IsExact) :
    (complexityHistogram measure bounds (nodes.map SourceNode.reread)).outcome = .ok histogram ↔
      (complexityHistogram measure bounds nodes).outcome = .ok histogram := by
  have hvalues : ∀ n ∈ SourceNode.complexities nodes, n.IsExact := by
    intro n hn
    obtain ⟨node, hnode, hget⟩ := List.mem_filterMap.1 hn
    exact SourceNode.isExact_of_get (hexact node hnode) (SourceNode.get_eq_ok_iff.2 hget)
  rw [outcome_complexityHistogram_eq_ok_iff, outcome_complexityHistogram_eq_ok_iff,
    SourceNode.complexities_reread,
    Builder.histogramOf_asReal measure bounds (SourceNode.isFinite_complexities nodes) hvalues]
  simp only [List.forall_mem_map, SourceNode.has_reread]

/-- The scalar measures of a file have the nine metrics that are read off as their entries. -/
theorem mapOk_measureOf_eq_ok_iff {node : SourceNode} {entries : List (Measure × Value)} :
    mapOk (measureOf node) fileMeasures = .ok entries ↔
      ∃ measures, scalarMeasures node = .ok measures ∧ measures.entries = entries := by
  have hlisted : ∀ {found}, mapOk (measureOf node) fileMeasures = .ok found →
      (OrderedMap.ofList found).entries = found := fun hfound =>
    OrderedMap.entries_ofList (fst_of_map_measureOf (mapOk_eq_ok_iff.1 hfound) ▸ nodup_fileMeasures)
  simp only [scalarMeasures, map_eq_ok_iff]
  constructor
  · intro h
    exact ⟨_, ⟨entries, h, rfl⟩, hlisted h⟩
  · rintro ⟨_, ⟨found, hfound, rfl⟩, rfl⟩
    rw [hlisted hfound]
    exact hfound

/-- The measures of one record as another has them: the same in the same order, with equal
values. -/
def SameMeasures (measures others : OrderedMap Measure Value) : Prop :=
  List.Forall₂ (fun entry other => entry.1 = other.1 ∧ entry.2.same other.2 = true)
    measures.entries others.entries

/-- A file with exact metrics that is read back has the same scalar measures. -/
theorem agree_scalarMeasures {file : SourceNode} (hexact : file.IsExact) :
    Agree SameMeasures (scalarMeasures file.reread) (scalarMeasures file) := by
  have hmeasure : ∀ entry ∈ fileMeasures, Agree
      (fun result found => result.1 = found.1 ∧ result.2.same found.2 = true)
      (measureOf file.reread entry) (measureOf file entry) := by
    intro entry _
    rw [measureOf, measureOf, SourceNode.get_reread]
    cases hget : file.get entry.1 with
    | error failure => trivial
    | ok n =>
      refine ⟨rfl, ?_⟩
      rw [Value.same]
      exact Number.eqv_asReal (SourceNode.isExact_of_get hexact hget)
        (SourceNode.isFinite_of_get hget)
  have hentries := agree_iff.1 (agree_mapOk hmeasure)
  refine agree_iff.2 ⟨fun measures h => ?_, fun measures h => ?_⟩
  · obtain ⟨_, hfound, hsame⟩ := hentries.1 _ (mapOk_measureOf_eq_ok_iff.2 ⟨measures, h, rfl⟩)
    obtain ⟨others, hothers, rfl⟩ := mapOk_measureOf_eq_ok_iff.1 hfound
    exact ⟨others, hothers, hsame⟩
  · obtain ⟨_, hfound, hsame⟩ := hentries.2 _ (mapOk_measureOf_eq_ok_iff.2 ⟨measures, h, rfl⟩)
    obtain ⟨others, hothers, rfl⟩ := mapOk_measureOf_eq_ok_iff.1 hfound
    exact ⟨others, hothers, hsame⟩

end Aggregator

/-! ## Records -/

/-- Two records are the same: the same key, the same measures in the same order with equal values,
and the same histograms. -/
structure FileRecord.Same (record other : FileRecord) : Prop where
  key : record.key = other.key
  measures : Aggregator.SameMeasures record.measures other.measures
  functionComplexity : record.functionComplexity = other.functionComplexity
  fileComplexity : record.fileComplexity = other.fileComplexity

/-- Nodes have an index exactly if those that are read back have one. -/
theorem NodeIndex.exists_reread_iff {nodes : List SourceNode} :
    (∃ index : NodeIndex, index.nodes = nodes.map SourceNode.reread) ↔
      ∃ index : NodeIndex, index.nodes = nodes := by
  have hids : (nodes.map SourceNode.reread).map SourceNode.id = nodes.map SourceNode.id := by
    rw [List.map_map]
    rfl
  have hplaced : ∀ ids (node : SourceNode), node.reread.IsPlaced ids ↔ node.IsPlaced ids :=
    fun _ _ => Iff.rfl
  rw [exists_nodes_eq_iff, exists_nodes_eq_iff]
  constructor
  · intro h
    refine ⟨hids ▸ h.distinct, fun node hnode => ?_⟩
    rw [← hids, ← hplaced]
    exact h.placed _ (List.mem_map_of_mem hnode)
  · intro h
    refine ⟨hids.symm ▸ h.distinct, fun node hnode => ?_⟩
    obtain ⟨given, hgiven, rfl⟩ := List.mem_map.1 hnode
    rw [hids, hplaced]
    exact h.placed given hgiven

namespace Aggregator

variable {index back : NodeIndex} {conduct other : Conduct} {limits : Limits}

/-- Files that are read back are measured in the order of the files. -/
theorem sortedFiles_reread (hback : back.nodes = index.nodes.map SourceNode.reread) :
    sortedFiles other back = (sortedFiles conduct index).map SourceNode.reread := by
  have hkinds : ((fun node : SourceNode => decide (node.kind = .file)) ∘ SourceNode.reread) =
      fun node => decide (node.kind = .file) := rfl
  have hperm : (sortedFiles other back).Perm
      ((sortedFiles conduct index).map SourceNode.reread) := by
    refine (sortedFiles_perm_filter other back).trans ?_
    rw [hback, List.filter_map, hkinds]
    exact ((sortedFiles_perm_filter conduct index).map _).symm
  have hsorted : ((sortedFiles conduct index).map SourceNode.reread).Pairwise
      fun a b => a.key.le b.key = true :=
    List.pairwise_map.2 (pairwise_le_sortedFiles conduct index)
  refine hperm.eq_of_pairwise (fun a b ha hb hab hba => ?_)
    (pairwise_le_sortedFiles other back) hsorted
  obtain ⟨haMem, haKind⟩ := mem_sortedFiles_iff.1 ha
  obtain ⟨hbMem, hbKind⟩ := mem_sortedFiles_iff.1 (hperm.mem_iff.2 hb)
  exact eq_of_file_key_eq back haMem hbMem (haKind.trans hbKind.symm) (Text.le_antisymm hab hba)

/-- A file with exact metrics that is read back has the same record, whatever the conducts. -/
theorem agree_measureFile (hback : back.nodes = index.nodes.map SourceNode.reread)
    (hexact : ∀ node ∈ index.nodes, node.IsExact) {file : SourceNode} (hfile : file ∈ index.nodes) :
    Agree FileRecord.Same (measureFile other limits back file.reread).outcome
      (measureFile conduct limits index file).outcome := by
  -- Both files are measured with the same histograms, so that only their measures can differ.
  have hback : ∀ record, (measureFile other limits back file.reread).outcome = .ok record ↔
      record.key = .text file.key ∧ scalarMeasures file.reread = .ok record.measures ∧
        (complexityHistogram .functionComplexityDistribution limits.functions
          (SourceNode.functionsOf index.nodes file)).outcome = .ok record.functionComplexity ∧
        (complexityHistogram .fileComplexityDistribution limits.files [file]).outcome =
          .ok record.fileComplexity := by
    intro record
    have hfunctions : ∀ node ∈ SourceNode.functionsOf index.nodes file, node.IsExact :=
      fun node hnode => hexact node (List.mem_filter.1 hnode).1
    have hown : ∀ node ∈ [file], node.IsExact := by
      simpa using hexact file hfile
    rw [outcome_measureFile_eq_ok_iff, hback, SourceNode.functionsOf_reread,
      outcome_complexityHistogram_reread hfunctions, ← outcome_complexityHistogram_reread hown]
    rfl
  have hmeasures := agree_iff.1 (agree_scalarMeasures (hexact file hfile))
  refine agree_iff.2 ⟨fun record h => ?_, fun record h => ?_⟩
  · obtain ⟨hkey, hscalars, hfunctions, hown⟩ := (hback record).1 h
    obtain ⟨measures, hfound, hsame⟩ := hmeasures.1 _ hscalars
    exact ⟨⟨.text file.key, measures, record.functionComplexity, record.fileComplexity⟩,
      outcome_measureFile_eq_ok_iff.2 ⟨rfl, hfound, hfunctions, hown⟩, hkey, hsame, rfl, rfl⟩
  · obtain ⟨hkey, hscalars, hfunctions, hown⟩ := outcome_measureFile_eq_ok_iff.1 h
    obtain ⟨measures, hfound, hsame⟩ := hmeasures.2 _ hscalars
    exact ⟨⟨.text file.key, measures, record.functionComplexity, record.fileComplexity⟩,
      (hback _).2 ⟨rfl, hfound, hfunctions, hown⟩, hkey.symm, hsame, rfl, rfl⟩

variable {workers threshold otherWorkers otherThreshold : Number}

/-- Passes over an index and over one of the nodes that are read back have the same records. -/
theorem agree_aggregateBy (hback : back.nodes = index.nodes.map SourceNode.reread)
    (hexact : ∀ node ∈ index.nodes, node.IsExact)
    (hother : other.Occurs (ofNumbers limits otherWorkers otherThreshold) back)
    (hoccurs : conduct.Occurs (ofNumbers limits workers threshold) index) :
    Agree (List.Forall₂ FileRecord.Same)
      (aggregateBy other (ofNumbers limits otherWorkers otherThreshold) back).outcome
      (aggregateBy conduct (ofNumbers limits workers threshold) index).outcome := by
  rw [agree_congr (fun _ => outcome_aggregateBy_eq_ok_iff hother)
    (fun _ => outcome_aggregateBy_eq_ok_iff hoccurs), sortedFiles_reread hback, mapOk_map]
  exact agree_mapOk fun file hfile =>
    agree_measureFile hback hexact (mem_sortedFiles_iff.1 hfile).1

/-- Passes over nodes with exact metrics and over those that are read back have the same records. -/
theorem agree_passBy {nodes : List SourceNode} {others conducts : NodeIndex → Conduct}
    (hexact : ∀ node ∈ nodes, node.IsExact)
    (hothers : ∀ back, back.nodes = nodes.map SourceNode.reread →
      (others back).Occurs (ofNumbers limits otherWorkers otherThreshold) back)
    (hoccurs : ∀ index, index.nodes = nodes →
      (conducts index).Occurs (ofNumbers limits workers threshold) index) :
    Agree (List.Forall₂ FileRecord.Same)
      (passBy others (ofNumbers limits otherWorkers otherThreshold)
        (nodes.map SourceNode.reread)).outcome
      (passBy conducts (ofNumbers limits workers threshold) nodes).outcome := by
  have hagree : ∀ back index, back.nodes = nodes.map SourceNode.reread → index.nodes = nodes →
      Agree (List.Forall₂ FileRecord.Same)
        (aggregateBy (others back) (ofNumbers limits otherWorkers otherThreshold) back).outcome
        (aggregateBy (conducts index) (ofNumbers limits workers threshold) index).outcome := by
    intro back index hback hindex
    subst hindex
    exact agree_aggregateBy hback hexact (hothers back hback) (hoccurs index rfl)
  rw [agree_iff]
  unfold passBy
  simp only [Run.outcome_andThen, bind_eq_ok_iff, NodeIndex.outcome_build_map_ok_iff]
  constructor
  · rintro records ⟨back, hback, hrecords⟩
    obtain ⟨index, hindex⟩ := NodeIndex.exists_reread_iff.1 ⟨back, hback⟩
    obtain ⟨found, hfound, hsame⟩ := (agree_iff.1 (hagree back index hback hindex)).1 _ hrecords
    exact ⟨found, ⟨index, hindex, hfound⟩, hsame⟩
  · rintro records ⟨index, hindex, hrecords⟩
    obtain ⟨back, hback⟩ := NodeIndex.exists_reread_iff.2 ⟨index, hindex⟩
    obtain ⟨found, hfound, hsame⟩ := (agree_iff.1 (hagree back index hback hindex)).2 _ hrecords
    exact ⟨found, ⟨back, hback, hfound⟩, hsame⟩

end Aggregator

namespace SourceNode

/-- A node that was read from a dump has exact metrics and is read back from its own dump as it is.
A node with exact metrics is read back with the same identifier and parent and equal metrics in the
same order, and the dump of what is read back equals its own. So passes over nodes with exact
metrics and over those that are read back from their dumps have the same records, or both fail. -/
theorem dump_round_trip :
    (∀ dump node, ofValue dump = .ok node → node.IsExact ∧ ofValue node.toValue = .ok node) ∧
    (∀ node : SourceNode, node.IsExact → ∃ again, ofValue node.toValue = .ok again ∧
      again.id = node.id ∧ again.parent = node.parent ∧ again.SameMetrics node ∧
        again.toValue.same node.toValue = true) ∧
    ∀ nodes : List SourceNode, (∀ node ∈ nodes, node.IsExact) → ∃ others,
      mapOk (fun node : SourceNode => ofValue node.toValue) nodes = .ok others ∧
      ∀ (limits : Limits) (workers threshold otherWorkers otherThreshold : Number)
        (conducts otherConducts : NodeIndex → Conduct),
        (∀ index, index.nodes = nodes →
          (conducts index).Occurs (.ofNumbers limits workers threshold) index) →
        (∀ index, index.nodes = others →
          (otherConducts index).Occurs (.ofNumbers limits otherWorkers otherThreshold) index) →
        Agree (List.Forall₂ FileRecord.Same)
          (Aggregator.passBy otherConducts (.ofNumbers limits otherWorkers otherThreshold)
            others).outcome
          (Aggregator.passBy conducts (.ofNumbers limits workers threshold) nodes).outcome := by
  refine ⟨fun dump node h => ⟨isExact_of_ofValue h, ofValue_toValue_of_ofValue h⟩,
    fun node hexact => ?_, fun nodes hexact => ?_⟩
  · have hmetrics := sameMetrics_reread hexact
    exact ⟨node.reread, ofValue_toValue node, rfl, rfl, hmetrics, same_toValue rfl rfl hmetrics⟩
  · refine ⟨nodes.map reread, ?_, ?_⟩
    · rw [mapOk_eq_ok_iff, List.map_map]
      exact List.map_congr_left fun node _ => ofValue_toValue node
    · intro limits workers threshold otherWorkers otherThreshold conducts otherConducts hoccurs
        hothers
      exact Aggregator.agree_passBy hexact hothers hoccurs

/-- The sample has the same records after all its nodes were dumped and read back, and those are
read back from their dumps as they are. -/
theorem dump_round_trip_sampleNodes :
    (∀ node ∈ sampleNodes, node.IsExact) ∧
    (∀ node ∈ sampleNodes, ∃ again, ofValue node.toValue = .ok again ∧ again.SameMetrics node ∧
      ofValue again.toValue = .ok again) ∧
    ∃ others again records,
      mapOk (fun node : SourceNode => ofValue node.toValue) sampleNodes = .ok others ∧
      (Aggregator.passBy (fun index => .plain index.files.length)
        (.ofNumbers .standard (.int 1) (.int 2)) others).outcome = .ok again ∧
      (Aggregator.passBy (fun index => .plain index.files.length)
        (.ofNumbers .standard (.int 1) (.int 2)) sampleNodes).outcome = .ok records ∧
      List.Forall₂ FileRecord.Same again records := by
  have hexact : ∀ node ∈ sampleNodes, node.IsExact := by decide +kernel
  have hoccurs : ∀ index : NodeIndex, (Conduct.plain index.files.length).Occurs
      (.ofNumbers .standard (.int 1) (.int 2)) index := fun _ =>
    Conduct.occurs_plain (Aggregator.zero_lt_atLeastOneWorker (.int 1))
  obtain ⟨hread, hnode, hpass⟩ := dump_round_trip
  refine ⟨hexact, fun node hmem => ?_, ?_⟩
  · obtain ⟨again, hagain, _, _, hmetrics, _⟩ := hnode node (hexact node hmem)
    exact ⟨again, hagain, hmetrics, (hread _ again hagain).2⟩
  · obtain ⟨others, hothers, hagree⟩ := hpass sampleNodes hexact
    obtain ⟨records, hrecords⟩ := Aggregator.exists_outcome_aggregateBy (hoccurs sampleIndex)
      length_sampleNodes_lt isMeasurable_of_mem_sampleNodes
    have hsample : (Aggregator.passBy (fun index => .plain index.files.length)
        (.ofNumbers .standard (.int 1) (.int 2)) sampleNodes).outcome = .ok records := by
      unfold Aggregator.passBy
      simp only [Run.outcome_andThen, build_sampleNodes, ok_bind]
      exact hrecords
    obtain ⟨again, hagain, hsame⟩ := (agree_iff.1 (hagree .standard (.int 1) (.int 2) (.int 1)
      (.int 2) _ _ (fun index _ => hoccurs index) fun index _ => hoccurs index)).2 _ hsample
    exact ⟨others, again, records, hothers, hagain, hsample, hsame⟩

end SourceNode

end SourceGauge
