import Mathlib.Data.List.Nodup
import SourceGauge.Proofs.Node.Grouping
import SourceGauge.Proofs.Node.Placement

/-!
# What an index answers

The queries of an index, said on the nodes it was built from: a group holds exactly the nodes
that are asked for, each once, and an identifier leads to the one node that has it. The groups of
the kinds divide the nodes among themselves, and the functions are divided among the files.

The order of a group is that of the scan here, which no statement below relies on.
-/

namespace SourceGauge

/-- Items are divided into their groups by a key, if each key is listed once. -/
theorem flatMap_filter_perm {α κ : Type} [DecidableEq κ] (key : α → κ) {keys : List κ}
    {items : List α} (hkeys : keys.Nodup) (hmem : ∀ item ∈ items, key item ∈ keys) :
    (keys.flatMap fun k => items.filter fun item => key item = k).Perm items := by
  induction keys generalizing items with
  | nil =>
    cases items with
    | nil => exact .nil
    | cons item rest => exact absurd (hmem item List.mem_cons_self) List.not_mem_nil
  | cons k rest ih =>
    rw [List.nodup_cons] at hkeys
    -- the groups of the other keys are not changed by leaving out the items of the first
    have hothers : (rest.flatMap fun other => items.filter fun item => key item = other) =
        rest.flatMap fun other => (items.filter fun item => !decide (key item = k)).filter
          fun item => key item = other := by
      refine List.flatMap_congr fun other hother => ?_
      rw [List.filter_filter]
      refine List.filter_congr fun item _ => ?_
      have hne : other ≠ k := fun heq => hkeys.1 (heq ▸ hother)
      by_cases hitem : key item = other <;> simp [hitem, hne]
    have hrest : ∀ item ∈ items.filter fun item => !decide (key item = k), key item ∈ rest := by
      intro item hitem
      rw [List.mem_filter] at hitem
      have hne : key item ≠ k := by simpa using hitem.2
      exact (List.mem_cons.1 (hmem item hitem.1)).resolve_left hne
    rw [List.flatMap_cons, hothers]
    exact ((ih hkeys.2 hrest).append_left _).trans (List.filter_append_perm _ items)

namespace NodeIndex

/-- Both tables of an index group its nodes. -/
theorem hold_tables (index : NodeIndex) : index.tables.Hold index.nodes := by
  rw [index.tables_eq]
  exact NodeTables.hold_ofNodes (SourceNode.pairwise_not_same index.distinct)

/-- The nodes of a kind are those that have it. -/
theorem byKind_eq_filter (index : NodeIndex) (kind : NodeKind) :
    index.byKind kind = index.nodes.filter fun node => node.kind = kind := by
  rw [byKind, index.hold_tables.byKind kind]
  simp only [Option.some.injEq]

/-- The children of a parent are the nodes that name it, of the kind that is asked for. -/
theorem byParent_eq_filter (index : NodeIndex) (parent : NodeReference) (kind : NodeKind) :
    index.byParent parent kind =
      index.nodes.filter fun node => node.kind = kind ∧ node.parent = some parent.target := by
  rw [byParent, index.hold_tables.byParent (parent.target, kind)]
  refine List.filter_congr fun node _ => ?_
  cases hparent : node.parent with
  | none => simp [NodeTables.parentKey, hparent]
  | some found => simp [NodeTables.parentKey, hparent, and_comm]

/-- Nodes of an index with one identifier are one node. -/
theorem eq_of_id_eq (index : NodeIndex) {a b : SourceNode} (ha : a ∈ index.nodes)
    (hb : b ∈ index.nodes) (h : a.id = b.id) : a = b :=
  List.inj_on_of_nodup_map index.distinct ha hb h

/-- The nodes of an index are distinct. -/
theorem nodup_nodes (index : NodeIndex) : index.nodes.Nodup :=
  index.distinct.of_map SourceNode.id

/-- An identifier leads to the node that has it. -/
theorem get?_eq_some_iff_mem (index : NodeIndex) {id : NodeId} {node : SourceNode} :
    index.get? id = some node ↔ node ∈ index.nodes ∧ node.id = id := by
  rw [get?]
  constructor
  · intro h
    exact ⟨List.mem_of_find?_eq_some h, by simpa using List.find?_some h⟩
  · rintro ⟨hmem, rfl⟩
    cases hfound : index.nodes.find? fun other => other.id == node.id with
    | none =>
      have hnone := List.find?_eq_none.1 hfound node hmem
      simp at hnone
    | some found =>
      have hid : found.id = node.id := by simpa using List.find?_some hfound
      rw [index.eq_of_id_eq (List.mem_of_find?_eq_some hfound) hmem hid]

/-- The groups of the kinds divide the nodes among themselves. -/
theorem flatMap_byKind_perm (index : NodeIndex) :
    (NodeKind.all.flatMap index.byKind).Perm index.nodes := by
  have hgroups : index.byKind = fun kind => index.nodes.filter fun node => node.kind = kind :=
    funext index.byKind_eq_filter
  rw [hgroups]
  refine flatMap_filter_perm SourceNode.kind (by decide) fun node _ => ?_
  cases node.kind <;> simp [NodeKind.all]

/-- The files of an index have distinct identifiers. -/
theorem nodup_ids_files (index : NodeIndex) : (index.files.map SourceNode.id).Nodup := by
  rw [files, byKind_eq_filter]
  exact index.distinct.sublist (List.filter_sublist.map _)

/-- The functions of an index are divided among its files. -/
theorem flatMap_functions_perm (index : NodeIndex) :
    (index.files.flatMap fun file : SourceNode => index.functions (some file)).Perm
      (index.functions none) := by
  have hgroups : (index.files.flatMap fun file : SourceNode => index.functions (some file)) =
      (index.files.map fun file => some file.id).flatMap fun parent =>
        (index.functions none).filter fun node => node.parent = parent := by
    rw [List.flatMap_map]
    refine List.flatMap_congr fun file _ => ?_
    simp [functions, byParent_eq_filter, byKind_eq_filter, List.filter_filter,
      NodeReference.target, and_comm]
  rw [hgroups]
  refine flatMap_filter_perm SourceNode.parent ?_ fun node hnode => ?_
  · have hids := index.nodup_ids_files
    rw [List.Nodup, List.pairwise_map] at hids ⊢
    exact hids.imp fun hne heq => hne (Option.some.inj heq)
  · rw [functions, byKind_eq_filter, List.mem_filter, decide_eq_true_eq] at hnode
    obtain ⟨file, hfile, hkind, hparent⟩ := index.exists_file_of_function hnode.1 hnode.2
    rw [hparent]
    refine List.mem_map.2 ⟨file, ?_, rfl⟩
    simpa [files, byKind_eq_filter] using ⟨hfile, hkind⟩

/-- The queries of an index are exact for a list of nodes. -/
structure Answers (index : NodeIndex) (nodes : List SourceNode) : Prop where
  nodes_eq : index.nodes = nodes
  size_eq : index.size = nodes.length
  none_same : nodes.Pairwise fun a b => a.same b = false
  mem_byKind : ∀ kind node, node ∈ index.byKind kind ↔ node ∈ nodes ∧ node.kind = kind
  byKind_nodup : ∀ kind, (index.byKind kind).Nodup
  mem_byParent : ∀ (parent : NodeReference) kind node, node ∈ index.byParent parent kind ↔
    node ∈ nodes ∧ node.kind = kind ∧ node.parent = some parent.target
  byParent_nodup : ∀ (parent : NodeReference) kind, (index.byParent parent kind).Nodup
  byParent_node : ∀ (parent : SourceNode) kind,
    index.byParent parent kind = index.byParent parent.id kind
  get?_eq_some : ∀ id node, index.get? id = some node ↔ node ∈ nodes ∧ node.id = id
  kinds_perm : (NodeKind.all.flatMap index.byKind).Perm nodes
  kinds_disjoint : ∀ a b node, node ∈ index.byKind a → node ∈ index.byKind b → a = b
  functions_perm : (index.files.flatMap fun file : SourceNode => index.functions (some file)).Perm
    (index.functions none)
  functions_disjoint : ∀ a ∈ index.files, ∀ b ∈ index.files, ∀ node,
    node ∈ index.functions (some a) → node ∈ index.functions (some b) → a = b

/-- The index that is built of nodes answers every query exactly, though its groups tell nodes
apart by identifiers and parents alone. -/
theorem answers_of_build {nodes : List SourceNode} {index : NodeIndex}
    (h : (build (nodes.map .ok)).outcome = .ok index) : index.Answers nodes := by
  have hnodes : index.nodes = nodes := outcome_build_map_ok_iff.1 h
  subst hnodes
  have hkind : ∀ kind node, node ∈ index.byKind kind ↔ node ∈ index.nodes ∧ node.kind = kind := by
    intro kind node
    rw [byKind_eq_filter, List.mem_filter, decide_eq_true_eq]
  have hparent : ∀ (parent : NodeReference) kind node, node ∈ index.byParent parent kind ↔
      node ∈ index.nodes ∧ node.kind = kind ∧ node.parent = some parent.target := by
    intro parent kind node
    rw [byParent_eq_filter, List.mem_filter, decide_eq_true_eq]
  refine
    { nodes_eq := rfl
      size_eq := rfl
      none_same := SourceNode.pairwise_not_same index.distinct
      mem_byKind := hkind
      byKind_nodup := fun kind => ?_
      mem_byParent := hparent
      byParent_nodup := fun parent kind => ?_
      byParent_node := fun _ _ => rfl
      get?_eq_some := fun _ _ => index.get?_eq_some_iff_mem
      kinds_perm := index.flatMap_byKind_perm
      kinds_disjoint := ?_
      functions_perm := index.flatMap_functions_perm
      functions_disjoint := ?_ }
  · rw [byKind_eq_filter]
    exact index.nodup_nodes.filter _
  · rw [byParent_eq_filter]
    exact index.nodup_nodes.filter _
  · intro a b node ha hb
    exact ((hkind a node).1 ha).2.symm.trans ((hkind b node).1 hb).2
  · intro a ha b hb node hnodeA hnodeB
    have hidA := ((hparent a .function node).1 hnodeA).2.2
    have hidB := ((hparent b .function node).1 hnodeB).2.2
    have hid : a.id = b.id := Option.some.inj (hidA.symm.trans hidB)
    exact index.eq_of_id_eq ((hkind .file a).1 ha).1 ((hkind .file b).1 hb).1 hid

end NodeIndex

/-- Two files with a function each, and a class in one of the functions: children come before
their parents, and the class shares its key with a file. -/
def sampleNodes : List SourceNode :=
  let measured : OrderedMap Metric Number := ⟨Metric.all.map fun m => (m, .int 12), by decide⟩
  let complexity (n : Nat) : OrderedMap Metric Number := ⟨[(.complexity, .int n)], by simp⟩
  let first : NodeId := ⟨.file, ⟨[.char 'b']⟩⟩
  let second : NodeId := ⟨.file, ⟨[.char 'a']⟩⟩
  let function : NodeId := ⟨.function, ⟨[.char 'm']⟩⟩
  [⟨function, complexity 7, some first, by decide +kernel⟩,
    ⟨⟨.type, second.key⟩, .empty, some function, by decide +kernel⟩,
    ⟨first, measured, none, by decide +kernel⟩,
    ⟨second, measured, none, by decide +kernel⟩,
    ⟨⟨.function, ⟨[.char 'n']⟩⟩, complexity 1, some second, by decide +kernel⟩]

/-- The index over the sample. -/
def sampleIndex : NodeIndex where
  nodes := sampleNodes
  tables := .ofNodes sampleNodes
  distinct := by decide
  placed := by decide
  tables_eq := rfl

/-- The index over the sample is the one that is built of it. -/
theorem build_sampleNodes : (NodeIndex.build (sampleNodes.map .ok)).outcome = .ok sampleIndex :=
  NodeIndex.outcome_build_map_ok_iff.2 rfl

/-- The index over the sample answers every query exactly. -/
theorem NodeIndex.answers_sampleIndex :
    (build (sampleNodes.map .ok)).outcome = .ok sampleIndex ∧ sampleIndex.Answers sampleNodes :=
  ⟨build_sampleNodes, answers_of_build build_sampleNodes⟩

end SourceGauge
