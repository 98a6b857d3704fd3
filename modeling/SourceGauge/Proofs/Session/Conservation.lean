import SourceGauge.Proofs.Aggregation.Exactness
import SourceGauge.Proofs.Session.RollUps
import SourceGauge.Session

/-!
# From the scan to the roll-up

After a pass into an empty store, the roll-ups of the store are those of the scan: all files and
all functions are counted, each of them once, as if one builder had been fed with them. Keys of
files are distinct, so that no record replaces another; every function belongs to one file; and
merging is exact for fewer than `2 ^ 63` nodes.
-/

namespace SourceGauge

/-- What is rolled up is the complexity of those nodes of a scan that are to be counted: nothing
without a file, and else what one fresh builder finishes after it was fed with the counted nodes,
in any order, with their number as its total. -/
structure RollsUp (rollUp : Except Failure (Option Histogram)) (measure : Measure)
    (bounds : Bounds) (nodes counted : List SourceNode) : Prop where
  none_iff : rollUp = .ok none ↔ ∀ node ∈ nodes, node.kind ≠ .file
  some_of_file : (∃ node ∈ nodes, node.kind = .file) →
    ∃ histogram, rollUp = .ok (some histogram) ∧ histogram.total = counted.length ∧
      ∀ order : List SourceNode, order.Perm counted → ∃ values,
        mapOk (fun node => node.get .complexity) order = .ok values ∧
          Builder.histogramOf measure bounds values = .ok histogram

namespace SourceNode

/-- Counting parts of nodes one after the other is counting all of them. -/
theorem flatten_onceEach_complexities (parts : SourceNode → List SourceNode)
    (files : List SourceNode) :
    (files.map fun file => onceEach (complexities (parts file))).flatten =
      onceEach (complexities (files.flatMap parts)) := by
  induction files with
  | nil => rfl
  | cons file rest ih =>
    rw [List.map_cons, List.flatten_cons, ih, List.flatMap_cons, complexities, complexities,
      complexities, List.filterMap_append, onceEach_append]

end SourceNode

section Parts

variable {measure : Measure} {bounds : Bounds} {counted files : List SourceNode}
  {records : List FileRecord} {parts : SourceNode → List SourceNode}

/-- Records of files that hold tallies of parts of the counted nodes are merged into the tally of
all of these. -/
theorem mergeFrom_of_parts (hparts : (files.flatMap parts).Perm counted)
    (hrecords : List.Forall₂ (fun file record => FileRecord.histogram record measure =
      .ok (.tallied measure bounds (onceEach (SourceNode.complexities (parts file)))))
      files records)
    (hsize : counted.length < signedWordLimit) :
    RecordStore.mergeFrom measure none records = .ok (if files = [] then none
      else some (.tallied measure bounds (onceEach (SourceNode.complexities counted)))) := by
  have hcomplexities := SourceNode.complexities_perm hparts
  have hfits : timesCounted (files.map fun file =>
      onceEach (SourceNode.complexities (parts file))).flatten < signedWordLimit := by
    have hle := SourceNode.length_complexities_le counted
    rw [SourceNode.flatten_onceEach_complexities, timesCounted_onceEach, hcomplexities.length_eq]
    omega
  rw [RecordStore.mergeFrom_none_tallied (List.forall₂_map_left_iff.2 hrecords) hfits,
    SourceNode.flatten_onceEach_complexities,
    Histogram.tallied_perm measure bounds (onceEach_perm hcomplexities)]
  simp only [List.map_eq_nil_iff]

/-- Records of files that hold tallies of parts of the counted nodes roll up to all of these. -/
theorem rollsUp_of_parts {nodes : List SourceNode}
    (hfiles : files.Perm (nodes.filter fun node => node.kind = .file))
    (hparts : (files.flatMap parts).Perm counted)
    (hrecords : List.Forall₂ (fun file record => FileRecord.histogram record measure =
      .ok (.tallied measure bounds (onceEach (SourceNode.complexities (parts file)))))
      files records)
    (hall : ∀ node ∈ counted, node.has .complexity = true)
    (hsize : counted.length < signedWordLimit) :
    RollsUp (RecordStore.mergeFrom measure none records) measure bounds nodes counted := by
  rw [mergeFrom_of_parts hparts hrecords hsize]
  have hempty : files = [] ↔ ∀ node ∈ nodes, node.kind ≠ .file := by
    rw [← List.length_eq_zero_iff, hfiles.length_eq, List.length_eq_zero_iff,
      List.filter_eq_nil_iff]
    simp only [decide_eq_true_eq, ne_eq]
  constructor
  · rw [← hempty]
    by_cases hnone : files = [] <;> simp [hnone]
  · rintro ⟨node, hnode, hkind⟩
    have hsome : files ≠ [] := fun hnone => hempty.1 hnone node hnode hkind
    rw [if_neg hsome]
    refine ⟨_, rfl, ?_, fun order horder =>
      exists_histogramOf_of_perm measure bounds horder hall hsize⟩
    rw [Histogram.total_tallied, timesCounted_onceEach, SourceNode.length_complexities hall]

end Parts

namespace Aggregator

variable {conduct : Conduct} {limits : Limits} {index : NodeIndex}

/-- The functions of the files that are measured are all functions, each once. -/
theorem flatMap_functionsOf_perm (conduct : Conduct) (index : NodeIndex) :
    ((sortedFiles conduct index).flatMap (SourceNode.functionsOf index.nodes)).Perm
      (index.nodes.filter fun node => node.kind = .function) := by
  have hperm := index.flatMap_functions_perm
  simp only [functions_eq_functionsOf] at hperm
  rw [NodeIndex.functions, index.byKind_eq_filter] at hperm
  exact ((sortedFiles_perm conduct index).flatMap_right _).trans hperm

/-- The records of all files of an index roll up to all its files and all its functions. -/
theorem rollsUp_of_mapOk_measureFile {records : List FileRecord}
    (hsize : index.nodes.length < signedWordLimit)
    (h : mapOk (fun file => (measureFile conduct limits index file).outcome)
      (sortedFiles conduct index) = .ok records) :
    RollsUp (RecordStore.mergeFrom .fileComplexityDistribution none records)
        .fileComplexityDistribution limits.files index.nodes
        (index.nodes.filter fun node => node.kind = .file) ∧
      RollsUp (RecordStore.mergeFrom .functionComplexityDistribution none records)
        .functionComplexityDistribution limits.functions index.nodes
        (index.nodes.filter fun node => node.kind = .function) := by
  have hmeasurable := isMeasurable_of_mapOk_measureFile h
  have hfits : ∀ keep : SourceNode → Bool, (index.nodes.filter keep).length < signedWordLimit :=
    fun keep => Nat.lt_of_le_of_lt (List.length_filter_le keep index.nodes) hsize
  have hhave : ∀ kind : NodeKind, .complexity ∈ kind.requiredMetrics →
      ∀ node ∈ index.nodes.filter fun node => node.kind = kind, node.has .complexity = true := by
    intro kind hneeded node hnode
    rw [List.mem_filter, decide_eq_true_eq] at hnode
    exact hmeasurable node hnode.1 .complexity (hnode.2 ▸ hneeded)
  have hrecords := forall₂_of_mapOk h
  have hfiles := sortedFiles_perm_filter conduct index
  constructor
  · have hparts : ((sortedFiles conduct index).flatMap fun file => [file]).Perm
        (index.nodes.filter fun node => node.kind = .file) := by
      rw [List.flatMap_singleton']
      exact hfiles
    refine rollsUp_of_parts hfiles hparts (hrecords.imp fun file record hrecord => ?_)
      (hhave .file (mem_fileMeasures .complexity)) (hfits _)
    have hown := (outcome_measureFile_eq_ok_iff.1 hrecord).2.2.2
    have hone : [file].length < signedWordLimit := (by decide : 1 < signedWordLimit)
    rw [← complexityHistogram_eq_tallied hone hown]
    rfl
  · refine rollsUp_of_parts hfiles (flatMap_functionsOf_perm conduct index)
      (hrecords.imp fun file record hrecord => ?_)
      (hhave .function (List.mem_singleton_self _)) (hfits _)
    have hfunctions := (outcome_measureFile_eq_ok_iff.1 hrecord).2.2.1
    have hfew : (SourceNode.functionsOf index.nodes file).length < signedWordLimit := hfits _
    rw [← complexityHistogram_eq_tallied hfew hfunctions]
    rfl

end Aggregator

namespace Session

variable {conduct : NodeIndex → Conduct} {session : Session} {host : Host} {ofMachine : Nat}
  {project : Project} {scan : ScanRequest → List (Except Failure SourceNode)}
  {store : RecordStore} {nodes : List SourceNode} {records : List FileRecord}

/-- Finishing a pass ends as its aggregation does. -/
theorem outcome_finishBy (conduct : Conduct) (session : Session) (ofMachine : Nat)
    (store : RecordStore) (index : NodeIndex) :
    (finishBy conduct session ofMachine store index).run.outcome =
      (Aggregator.aggregateBy conduct (session.aggregator ofMachine) index).outcome := by
  rw [finishBy]
  cases houtcome :
      (Aggregator.aggregateBy conduct (session.aggregator ofMachine) index).outcome with
  | error failure => rfl
  | ok found => simp only [houtcome, Run.outcome_andThen, ok_bind]

/-- Finishing a pass puts its records into the store. -/
theorem store_finishBy_of_ok {conduct : Conduct} {index : NodeIndex}
    (h : (Aggregator.aggregateBy conduct (session.aggregator ofMachine) index).outcome =
      .ok records) :
    (finishBy conduct session ofMachine store index).store = store.putAll records := by
  rw [finishBy]
  simp only [h]

/-- A pass succeeds exactly if the project exists, what is scanned has an index, and the index is
aggregated. -/
theorem outcome_analyseBy_eq_ok_iff :
    (analyseBy conduct session host ofMachine project scan store).run.outcome = .ok records ↔
      ∃ configuration, project.configuration session.settings host = .ok configuration ∧
        ∃ index, (NodeIndex.build (scan ⟨project.files, configuration⟩)).outcome = .ok index ∧
          (Aggregator.aggregateBy (conduct index) (session.aggregator ofMachine) index).outcome =
            .ok records := by
  rw [analyseBy]
  cases project.configuration session.settings host with
  | error failure => simp
  | ok configuration =>
    cases hbuild : (NodeIndex.build (scan ⟨project.files, configuration⟩)).outcome with
    | error failure =>
      simp only [Except.ok.injEq, exists_eq_left', hbuild, reduceCtorEq, false_and, exists_false]
    | ok index =>
      simp only [Except.ok.injEq, exists_eq_left', hbuild, Pass.after, outcome_finishBy]
      rfl

/-- A pass that succeeds has put its records into the store. -/
theorem store_analyseBy_of_ok
    (h : (analyseBy conduct session host ofMachine project scan store).run.outcome = .ok records) :
    (analyseBy conduct session host ofMachine project scan store).store =
      store.putAll records := by
  obtain ⟨configuration, hconfiguration, index, hbuild, haggregated⟩ :=
    outcome_analyseBy_eq_ok_iff.1 h
  rw [analyseBy]
  simp only [hconfiguration, hbuild]
  exact store_finishBy_of_ok haggregated

/-- After a pass over fewer than `2 ^ 63` scanned nodes that succeeds, a store that was empty
rolls up the complexity of all files and of all functions of the scan. -/
theorem rollsUp_of_analyseBy
    (hscan : ∀ configuration, project.configuration session.settings host = .ok configuration →
      scan ⟨project.files, configuration⟩ = nodes.map .ok)
    (hsize : nodes.length < signedWordLimit)
    (hoccurs : ∀ index, index.nodes = nodes →
      (conduct index).Occurs (session.aggregator ofMachine) index)
    (h : (analyseBy conduct session host ofMachine project scan .empty).run.outcome =
      .ok records) :
    let store := (analyseBy conduct session host ofMachine project scan .empty).store
    RollsUp store.fileComplexity .fileComplexityDistribution session.settings.limits.files nodes
        (nodes.filter fun node => node.kind = .file) ∧
      RollsUp store.functionComplexity .functionComplexityDistribution
        session.settings.limits.functions nodes
        (nodes.filter fun node => node.kind = .function) := by
  have hstore := store_analyseBy_of_ok h
  obtain ⟨configuration, hconfiguration, index, hbuild, haggregated⟩ :=
    outcome_analyseBy_eq_ok_iff.1 h
  rw [hscan configuration hconfiguration] at hbuild
  obtain rfl := NodeIndex.outcome_build_map_ok_iff.1 hbuild
  have hmeasured := (Aggregator.outcome_aggregateBy_eq_ok_iff (hoccurs index rfl)).1 haggregated
  have hkeys := Aggregator.map_key_of_mapOk_measureFile hmeasured
  have hall : (RecordStore.empty.putAll records).all = records := by
    refine RecordStore.all_putAll_empty ?_
      (Aggregator.nodup_map_key_sortedFiles (conduct index) index)
    rw [hkeys, List.map_map]
    rfl
  rw [hstore]
  unfold RecordStore.fileComplexity RecordStore.functionComplexity RecordStore.distribution
  simp only [hall]
  exact Aggregator.rollsUp_of_mapOk_measureFile hsize hmeasured

/-- A session with two workers. -/
def sampleSession : Session :=
  .new { Settings.standard with workers := some (.int 2), parallelThreshold := .int 2 }

/-- A machine without files. -/
def sampleHost : Host := ⟨.empty, [], none, [], ""⟩

/-- The project in the working directory. -/
def sampleProject : Project := ⟨.ofText ".", .text "utf-8", []⟩

/-- The pass over the sample rolls up its two files and its two functions. -/
theorem rollsUp_sampleNodes :
    let pass := analyseBy (fun _ => sampleConduct) sampleSession sampleHost 1 sampleProject
      (fun _ => sampleNodes.map .ok) .empty
    (∃ records, pass.run.outcome = .ok records) ∧
      RollsUp pass.store.fileComplexity .fileComplexityDistribution Limits.standard.files
        sampleNodes (sampleNodes.filter fun node => node.kind = .file) ∧
      RollsUp pass.store.functionComplexity .functionComplexityDistribution
        Limits.standard.functions sampleNodes
        (sampleNodes.filter fun node => node.kind = .function) := by
  have hoccurs : ∀ index : NodeIndex, index.nodes = sampleNodes →
      sampleConduct.Occurs (sampleSession.aggregator 1) index :=
    fun index hindex => occurs_sampleConduct (.of_eq hindex)
  obtain ⟨configuration, hconfiguration⟩ : ∃ configuration,
      sampleProject.configuration sampleSession.settings sampleHost = .ok configuration :=
    ⟨_, rfl⟩
  obtain ⟨records, hrecords⟩ := Aggregator.exists_outcome_aggregateBy (hoccurs sampleIndex rfl)
    length_sampleNodes_lt isMeasurable_of_mem_sampleNodes
  have hrun : (analyseBy (fun _ => sampleConduct) sampleSession sampleHost 1 sampleProject
      (fun _ => sampleNodes.map .ok) .empty).run.outcome = .ok records :=
    outcome_analyseBy_eq_ok_iff.2
      ⟨configuration, hconfiguration, sampleIndex, build_sampleNodes, hrecords⟩
  exact ⟨⟨records, hrun⟩,
    rollsUp_of_analyseBy (fun _ _ => rfl) length_sampleNodes_lt hoccurs hrun⟩

end Session

end SourceGauge
