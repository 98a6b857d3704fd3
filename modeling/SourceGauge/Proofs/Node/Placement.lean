import SourceGauge.Node.Index

/-!
# Which collections of nodes are indexed

The rule for the parent of a node, said kind by kind, and the collections that an index is built
from: those without repeated identifiers in which every node keeps the rule. An index is
determined by its nodes, so that a statement about one is a statement about a list of nodes.

Which fault is reported for another collection is left open here.
-/

namespace SourceGauge

/-- The rule for the parent of a node among the identifiers that exist: files have none, functions
have a file, and other nodes have any node or none. -/
def SourceNode.IsPlaced (ids : List NodeId) (node : SourceNode) : Prop :=
  match node.kind with
  | .file => node.parent = none
  | .function => ∃ parent ∈ ids, parent.kind = .file ∧ node.parent = some parent
  | .type => ∀ parent, node.parent = some parent → parent ∈ ids

/-- No fault is found with the parent of a node exactly if the node keeps the rule. -/
theorem SourceNode.parentFault?_eq_none_iff {ids : List NodeId} {node : SourceNode} :
    node.parentFault? ids = none ↔ node.IsPlaced ids := by
  rw [parentFault?, IsPlaced]
  cases hparent : node.parent with
  | none => cases node.kind <;> simp [NodeKind.parentKinds?]
  | some parent =>
    by_cases hmem : parent ∈ ids
    · cases node.kind <;> simp [NodeKind.parentKinds?, hmem]
    · cases node.kind <;> simp [hmem]

/-- The rule only looks at which identifiers exist. -/
theorem SourceNode.IsPlaced.mono {ids others : List NodeId} {node : SourceNode}
    (h : node.IsPlaced ids) (hsub : ∀ id ∈ ids, id ∈ others) : node.IsPlaced others := by
  unfold IsPlaced at *
  cases hkind : node.kind with
  | file => simpa [hkind] using h
  | function =>
    rw [hkind] at h
    obtain ⟨parent, hmem, hrest⟩ := h
    exact ⟨parent, hsub parent hmem, hrest⟩
  | type =>
    rw [hkind] at h
    exact fun parent hparent => hsub parent (h parent hparent)

namespace NodeIndex

/-- What is collected is all that was converted. -/
theorem eq_map_ok_of_collect {before : List NodeId} {converted : List (Except Failure SourceNode)}
    {nodes : List SourceNode} (h : collect before converted = .ok nodes) :
    converted = nodes.map .ok := by
  induction converted generalizing before nodes with
  | nil =>
    simp only [collect, Except.ok.injEq] at h
    rw [← h]
    rfl
  | cons first rest ih =>
    cases first with
    | error found => simp [collect] at h
    | ok node =>
      rw [collect] at h
      split at h
      · contradiction
      · obtain ⟨others, hothers, rfl⟩ := map_eq_ok_iff.1 h
        rw [ih hothers, List.map_cons]

/-- Nodes that are given as they are come out of the collection unchanged. -/
theorem eq_of_collect_map_ok {before : List NodeId} {nodes found : List SourceNode}
    (h : collect before (nodes.map .ok) = .ok found) : found = nodes := by
  have hsame : (nodes.map .ok : List (Except Failure SourceNode)) = found.map .ok :=
    eq_map_ok_of_collect h
  exact (List.map_inj_right fun _ _ => Except.ok.inj).1 hsame.symm

/-- Nodes with identifiers that are new and distinct are all collected. -/
theorem collect_map_ok {before : List NodeId} {nodes : List SourceNode}
    (hdistinct : (nodes.map SourceNode.id).Nodup) (hnew : ∀ node ∈ nodes, node.id ∉ before) :
    collect before (nodes.map .ok) = .ok nodes := by
  induction nodes generalizing before with
  | nil => rfl
  | cons node rest ih =>
    rw [List.map_cons, List.nodup_cons] at hdistinct
    have hrest : collect (node.id :: before) (rest.map .ok) = .ok rest := by
      refine ih hdistinct.2 fun other hother hmem => ?_
      rcases List.mem_cons.1 hmem with heq | hmem
      · exact hdistinct.1 (heq ▸ List.mem_map_of_mem hother)
      · exact hnew other (List.mem_cons_of_mem node hother) hmem
    have hfirst : before.contains node.id = false := by
      simpa using hnew node List.mem_cons_self
    rw [List.map_cons, collect, hfirst, hrest]
    rfl

/-- An index is determined by its nodes. -/
theorem ext_nodes {a b : NodeIndex} (h : a.nodes = b.nodes) : a = b := by
  obtain ⟨nodes, tables, _, _, htables⟩ := a
  obtain ⟨others, otherTables, _, _, hothers⟩ := b
  subst htables hothers
  cases h
  rfl

/-- The index over given nodes is built exactly if there is one. -/
theorem ofConverted_map_ok_iff {nodes : List SourceNode} {index : NodeIndex} :
    ofConverted (nodes.map .ok) = .ok index ↔ index.nodes = nodes := by
  constructor
  · intro h
    exact eq_of_collect_map_ok (collect_of_ofConverted h)
  · intro h
    have hcollect : collect [] (nodes.map .ok) = .ok nodes :=
      collect_map_ok (h ▸ index.distinct) fun _ _ => List.not_mem_nil
    have hplaced : firstMisplaced? nodes = none := by
      refine List.findSome?_eq_none_iff.2 fun node hnode => ?_
      have hnone := index.placed node (h ▸ hnode)
      rw [h] at hnone
      rw [hnone]
      rfl
    rw [ofConverted]
    split
    · rename_i failure hfailure
      rw [hcollect] at hfailure
      contradiction
    · rename_i found hfound
      rw [hcollect, Except.ok.injEq] at hfound
      subst hfound
      split
      · rename_i hfault
        rw [hplaced] at hfault
        contradiction
      · exact congrArg Except.ok (ext_nodes h.symm)

@[simp] theorem outcome_build (converted : List (Except Failure SourceNode)) :
    (build converted).outcome = ofConverted converted := by
  unfold build buildReport
  simp only [Run.outcome_andThen, Run.outcome_ofOutcome, Run.outcome_report, Run.outcome_done]
  cases ofConverted converted <;> rfl

/-- An index is built of given nodes exactly if its nodes are those. -/
theorem outcome_build_map_ok_iff {nodes : List SourceNode} {index : NodeIndex} :
    (build (nodes.map .ok)).outcome = .ok index ↔ index.nodes = nodes := by
  rw [outcome_build, ofConverted_map_ok_iff]

/-- Every node of an index keeps the rule for parents. -/
theorem isPlaced (index : NodeIndex) {node : SourceNode} (h : node ∈ index.nodes) :
    node.IsPlaced (index.nodes.map SourceNode.id) :=
  SourceNode.parentFault?_eq_none_iff.1 (index.placed node h)

/-- A function of an index has a file of the index as its parent. -/
theorem exists_file_of_function (index : NodeIndex) {node : SourceNode} (h : node ∈ index.nodes)
    (hkind : node.kind = .function) :
    ∃ file ∈ index.nodes, file.kind = .file ∧ node.parent = some file.id := by
  have hplaced := index.isPlaced h
  rw [SourceNode.IsPlaced, hkind] at hplaced
  obtain ⟨parent, hmem, hfile, hparent⟩ := hplaced
  obtain ⟨file, hfileMem, rfl⟩ := List.mem_map.1 hmem
  exact ⟨file, hfileMem, hfile, hparent⟩

/-- A rearrangement of the nodes of an index has an index as well. -/
theorem exists_of_perm (index : NodeIndex) {nodes : List SourceNode}
    (h : nodes.Perm index.nodes) : ∃ other : NodeIndex, other.nodes = nodes := by
  have hids : (nodes.map SourceNode.id).Perm (index.nodes.map SourceNode.id) := h.map _
  have hdistinct : (nodes.map SourceNode.id).Nodup := hids.nodup_iff.2 index.distinct
  have hplaced : ∀ node ∈ nodes, node.parentFault? (nodes.map SourceNode.id) = none := by
    intro node hnode
    have hrule := index.isPlaced (h.mem_iff.1 hnode)
    exact SourceNode.parentFault?_eq_none_iff.2 (hrule.mono fun id hid => hids.mem_iff.2 hid)
  exact ⟨⟨nodes, .ofNodes nodes, hdistinct, hplaced, rfl⟩, rfl⟩

end NodeIndex

end SourceGauge
