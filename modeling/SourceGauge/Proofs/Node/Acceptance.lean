import SourceGauge.Proofs.Node.Placement

/-!
# Which collections are refused, and why

An index is built of exactly the well-formed collections: no identifier repeats, and every node
keeps the rule for parents. Any other collection is refused for one fault. Identifiers are looked
at first: an identifier that repeats an earlier one is reported before any parent is. Only if all
are distinct the first node in the order of the scan that breaks the rule for parents is reported,
with what is wrong about its parent.

Being well formed does not depend on the order of the nodes, though the fault that is reported
does.
-/

namespace SourceGauge

/-- What is wrong with the parent of a node among the identifiers that exist, in the words in
which it is reported. -/
inductive SourceNode.Misplaced (ids : List NodeId) (node : SourceNode) : Text → Prop
  | noParent : node.kind = .function → node.parent = none →
      Misplaced ids node (node.kind.name ++ " node has no parent")
  | unknownParent (parent : NodeId) : node.parent = some parent → parent ∉ ids →
      Misplaced ids node ("parent " ++ parent.text ++ " is not in the index")
  | badNesting (parent : NodeId) : node.parent = some parent → parent ∈ ids →
      node.kind = .file ∨ node.kind = .function ∧ parent.kind ≠ .file →
      Misplaced ids node
        (node.kind.name ++ " node cannot be nested in a " ++ parent.kind.name ++ " node")

/-- The fault that is found with the parent of a node is what is wrong with it. -/
theorem SourceNode.misplaced_of_parentFault? {ids : List NodeId} {node : SourceNode}
    {fault : IndexFault} (h : node.parentFault? ids = some fault) :
    node.Misplaced ids fault.message := by
  rw [parentFault?] at h
  cases hparent : node.parent with
  | none =>
    cases hkind : node.kind with
    | file => simp [hparent, hkind, NodeKind.parentKinds?] at h
    | type => simp [hparent, hkind, NodeKind.parentKinds?] at h
    | function =>
      simp only [hparent, hkind, NodeKind.parentKinds?, Option.some.injEq] at h
      subst h
      exact hkind ▸ .noParent hkind hparent
  | some parent =>
    by_cases hmem : parent ∈ ids
    · have hnesting : node.kind = .file ∨ node.kind = .function ∧ parent.kind ≠ .file →
          fault = .badNesting node.kind parent.kind → node.Misplaced ids fault.message := by
        rintro hrule rfl
        exact .badNesting parent hparent hmem hrule
      cases hkind : node.kind with
      | file =>
        refine hnesting (.inl hkind) ?_
        simpa [hparent, hkind, hmem, NodeKind.parentKinds?, eq_comm] using h
      | type => simp [hparent, hkind, hmem, NodeKind.parentKinds?] at h
      | function =>
        by_cases hfile : parent.kind = .file
        · simp [hparent, hkind, hmem, hfile, NodeKind.parentKinds?] at h
        · refine hnesting (.inr ⟨hkind, hfile⟩) ?_
          simpa [hparent, hkind, hmem, hfile, NodeKind.parentKinds?, eq_comm] using h
    · simp only [hparent, List.contains_eq_mem, hmem, decide_false, Bool.not_false, if_true,
        Option.some.injEq] at h
      subst h
      exact .unknownParent parent hparent hmem

/-- A collection of nodes is well formed if no identifier repeats and every node keeps the rule
for parents. -/
structure WellFormed (nodes : List SourceNode) : Prop where
  distinct : (nodes.map SourceNode.id).Nodup
  placed : ∀ node ∈ nodes, node.IsPlaced (nodes.map SourceNode.id)

/-- Being well formed does not depend on the order of the nodes. -/
theorem WellFormed.perm {nodes others : List SourceNode} (h : WellFormed nodes)
    (hperm : others.Perm nodes) : WellFormed others := by
  have hids : (others.map SourceNode.id).Perm (nodes.map SourceNode.id) := hperm.map _
  refine ⟨hids.nodup_iff.2 h.distinct, fun node hnode => ?_⟩
  exact (h.placed node (hperm.mem_iff.1 hnode)).mono fun id hid => hids.mem_iff.2 hid

/-- A failure reports a node of a collection, for a reason given in words: the first node whose
identifier repeats an earlier one, or, if all identifiers are distinct, the first node that breaks
the rule for parents. -/
def Failure.NamesFirstFault (failure : Failure) (nodes : List SourceNode) : Prop :=
  ∃ before node after reason, nodes = before ++ node :: after ∧
    failure.report = .inl (.malformedIndex (.text node.id.text) (.text reason)) ∧
      ((before.map SourceNode.id).Nodup ∧ node.id ∈ before.map SourceNode.id ∧
          reason = "duplicate node id" ∨
        (nodes.map SourceNode.id).Nodup ∧
          (∀ earlier ∈ before, earlier.IsPlaced (nodes.map SourceNode.id)) ∧
            node.Misplaced (nodes.map SourceNode.id) reason)

namespace NodeIndex

/-- A collection that ends at one of the given nodes does so at the first whose identifier was
collected before. -/
theorem exists_duplicate_of_collect {before : List NodeId} {nodes : List SourceNode}
    {failure : Failure} (h : collect before (nodes.map .ok) = .error failure) :
    ∃ front node back, nodes = front ++ node :: back ∧ (front.map SourceNode.id).Nodup ∧
      (∀ earlier ∈ front, earlier.id ∉ before) ∧
        (node.id ∈ before ∨ node.id ∈ front.map SourceNode.id) ∧
          failure = .index node.id .duplicate := by
  -- The identifiers collected before are any at all: every node adds its own to them.
  induction nodes generalizing before with
  | nil => simp [collect] at h
  | cons first rest ih =>
    rw [List.map_cons, collect] at h
    by_cases hmem : first.id ∈ before
    · simp only [List.contains_eq_mem, hmem, decide_true, if_true, Except.error.injEq] at h
      exact ⟨[], first, rest, rfl, .nil, fun _ hnone => absurd hnone List.not_mem_nil, .inl hmem,
        h.symm⟩
    · simp only [List.contains_eq_mem, hmem, decide_false, Bool.false_eq_true, if_false,
        map_eq_error_iff] at h
      obtain ⟨front, node, back, rfl, hdistinct, hnew, hrepeats, hfailure⟩ := ih h
      have hfirst : first.id ∉ front.map SourceNode.id := fun hid => by
        obtain ⟨other, hother, heq⟩ := List.mem_map.1 hid
        exact hnew other hother (heq ▸ List.mem_cons_self)
      refine ⟨first :: front, node, back, rfl, List.nodup_cons.2 ⟨hfirst, hdistinct⟩, ?_, ?_,
        hfailure⟩
      · intro earlier hearlier
        rcases List.mem_cons.1 hearlier with rfl | hearlier
        · exact hmem
        · exact fun hbefore => hnew earlier hearlier (List.mem_cons_of_mem _ hbefore)
      · rw [List.map_cons, List.mem_cons]
        rcases hrepeats with hbefore | hfront
        · exact (List.mem_cons.1 hbefore).symm.imp id .inl
        · exact .inr (.inr hfront)

/-- An index is not built if the collection ends early or some parent is at fault. -/
theorem ofConverted_eq_error {converted : List (Except Failure SourceNode)} {failure : Failure}
    (h : ofConverted converted = .error failure) :
    collect [] converted = .error failure ∨ ∃ nodes id fault, collect [] converted = .ok nodes ∧
      firstMisplaced? nodes = some (id, fault) ∧ failure = .index id fault := by
  rw [ofConverted] at h
  split at h
  · rename_i found hfound
    rw [Except.error.injEq] at h
    exact .inl (h ▸ hfound)
  · rename_i nodes hnodes
    split at h
    · rename_i id fault hfault
      rw [Except.error.injEq] at h
      exact .inr ⟨nodes, id, fault, hnodes, hfault, h.symm⟩
    · contradiction

/-- A collection ends early at a node that was not converted, or within the nodes before it. -/
theorem collect_eq_error {before : List NodeId} {converted : List (Except Failure SourceNode)}
    {failure : Failure} (h : collect before converted = .error failure) :
    ∃ (nodes : List SourceNode) (rest : List (Except Failure SourceNode)),
      converted = nodes.map .ok ++ rest ∧
      (rest.head? = some (.error failure) ∨ collect before (nodes.map .ok) = .error failure) := by
  induction converted generalizing before with
  | nil => simp [collect] at h
  | cons first rest ih =>
    cases first with
    | error found =>
      simp only [collect, Except.error.injEq] at h
      exact ⟨[], .error found :: rest, rfl, .inl (h ▸ rfl)⟩
    | ok node =>
      rw [collect] at h
      split at h
      · rename_i hrepeats
        refine ⟨[node], rest, rfl, .inr ?_⟩
        rw [List.map_singleton, collect, if_pos hrepeats]
        exact h
      · rename_i hnew
        obtain ⟨nodes, others, rfl, hends⟩ := ih (map_eq_error_iff.1 h)
        refine ⟨node :: nodes, others, rfl, hends.imp_right fun hcollect => ?_⟩
        rw [List.map_cons, collect, if_neg hnew, hcollect]
        rfl

/-- Nodes that are not collected have a first repetition. -/
theorem namesFirstFault_of_collect {nodes : List SourceNode} {failure : Failure}
    (h : collect [] (nodes.map .ok) = .error failure) : failure.NamesFirstFault nodes := by
  obtain ⟨front, node, back, rfl, hdistinct, _, hrepeats, rfl⟩ := exists_duplicate_of_collect h
  have hid : node.id ∈ front.map SourceNode.id := hrepeats.resolve_left List.not_mem_nil
  exact ⟨front, node, back, _, rfl, rfl, .inl ⟨hdistinct, hid, rfl⟩⟩

/-- The first misplaced of distinct nodes is their first fault. -/
theorem namesFirstFault_of_firstMisplaced? {nodes : List SourceNode} {id : NodeId}
    {fault : IndexFault} (hdistinct : (nodes.map SourceNode.id).Nodup)
    (h : firstMisplaced? nodes = some (id, fault)) :
    (Failure.index id fault).NamesFirstFault nodes := by
  obtain ⟨front, node, back, hnodes, hnode, hfront⟩ := List.findSome?_eq_some_iff.1 h
  obtain ⟨found, hfound, hpair⟩ := Option.map_eq_some_iff.1 hnode
  rw [Prod.mk.injEq] at hpair
  obtain ⟨rfl, rfl⟩ := hpair
  refine ⟨front, node, back, _, hnodes, rfl, .inr ⟨hdistinct, ?_,
    SourceNode.misplaced_of_parentFault? hfound⟩⟩
  intro earlier hearlier
  exact SourceNode.parentFault?_eq_none_iff.1 (Option.map_eq_none_iff.1 (hfront earlier hearlier))

/-- An index is not built because of the first node that was not converted, or else because of the
first fault of the nodes before it. -/
theorem failure_of_ofConverted {converted : List (Except Failure SourceNode)} {failure : Failure}
    (h : ofConverted converted = .error failure) :
    ∃ (nodes : List SourceNode) (rest : List (Except Failure SourceNode)),
      converted = nodes.map .ok ++ rest ∧
      (rest.head? = some (.error failure) ∨ failure.NamesFirstFault nodes) := by
  rcases ofConverted_eq_error h with hcollect | ⟨nodes, id, fault, hcollect, hfault, rfl⟩
  · obtain ⟨nodes, rest, hconverted, hends⟩ := collect_eq_error hcollect
    exact ⟨nodes, rest, hconverted, hends.imp_right namesFirstFault_of_collect⟩
  · have hconverted := eq_map_ok_of_collect hcollect
    refine ⟨nodes, [], by rw [List.append_nil, hconverted], .inr ?_⟩
    exact namesFirstFault_of_firstMisplaced? (distinct_of_collect hcollect).1 hfault

/-- The failure to index given nodes names their first fault. -/
theorem namesFirstFault_of_ofConverted {nodes : List SourceNode} {failure : Failure}
    (h : ofConverted (nodes.map .ok) = .error failure) : failure.NamesFirstFault nodes := by
  rcases ofConverted_eq_error h with hcollect | ⟨found, id, fault, hcollect, hfault, rfl⟩
  · exact namesFirstFault_of_collect hcollect
  · obtain rfl := eq_of_collect_map_ok hcollect
    exact namesFirstFault_of_firstMisplaced? (distinct_of_collect hcollect).1 hfault

/-- A collection has an index exactly if it is well formed. -/
theorem exists_nodes_eq_iff {nodes : List SourceNode} :
    (∃ index : NodeIndex, index.nodes = nodes) ↔ WellFormed nodes := by
  constructor
  · rintro ⟨index, rfl⟩
    exact ⟨index.distinct, fun _ hnode => index.isPlaced hnode⟩
  · intro h
    exact ⟨⟨nodes, .ofNodes nodes, h.distinct,
      fun node hnode => SourceNode.parentFault?_eq_none_iff.2 (h.placed node hnode), rfl⟩, rfl⟩

/-- An index is built of exactly the well-formed collections, whatever the order of their nodes;
for any other collection the first fault is named. -/
theorem build_accepts_wellFormed (nodes : List SourceNode) :
    ((∃ index, (build (nodes.map .ok)).outcome = .ok index) ↔ WellFormed nodes) ∧
      (∀ index, (build (nodes.map .ok)).outcome = .ok index → index.nodes = nodes) ∧
      (∀ failure, (build (nodes.map .ok)).outcome = .error failure →
        failure.NamesFirstFault nodes) ∧
      ∀ others : List SourceNode, others.Perm nodes →
        ((∃ index, (build (others.map .ok)).outcome = .ok index) ↔
          ∃ index, (build (nodes.map .ok)).outcome = .ok index) := by
  have haccepts : ∀ list : List SourceNode,
      (∃ index, (build (list.map .ok)).outcome = .ok index) ↔ WellFormed list := by
    intro list
    simp only [outcome_build_map_ok_iff, exists_nodes_eq_iff]
  refine ⟨haccepts nodes, fun index h => outcome_build_map_ok_iff.1 h, fun failure h => ?_,
    fun others hperm => ?_⟩
  · rw [outcome_build] at h
    exact namesFirstFault_of_ofConverted h
  · rw [haccepts, haccepts]
    exact ⟨fun h => h.perm hperm.symm, fun h => h.perm hperm⟩

end NodeIndex

end SourceGauge
