import Mathlib.Data.List.Perm.Subperm
import SourceGauge.Proofs.Node.Queries

/-!
# Where parent links lead

Following parent links from a node of an index, by looking each parent up, either ends at a node
without a parent or comes to a node that is its own ancestor. The rule for parents is checked node
by node, so it excludes the second case for files and functions alone: a class may hang off any node
of the index, itself and the classes inside it among them. The links of an index form a hierarchy if
and only if no class is its own ancestor.

A chain that ends has fewer steps than the index has nodes. Nothing is said of how deep classes may
be nested in one another.
-/

namespace SourceGauge

/-- One more value than there are items repeats one of them. -/
theorem exists_repeat {α : Type} {items : List α} {value : Nat → α}
    (h : ∀ i ≤ items.length, value i ∈ items) :
    ∃ i j, i < j ∧ j ≤ items.length ∧ value i = value j := by
  by_contra hnone
  have hdistinct : ((List.range (items.length + 1)).map value).Nodup := by
    rw [List.Nodup, List.pairwise_map]
    refine List.pairwise_lt_range.imp_of_mem fun _ hj hlt hsame => hnone ⟨_, _, hlt, ?_, hsame⟩
    exact Nat.le_of_lt_succ (List.mem_range.1 hj)
  have hwithin : (List.range (items.length + 1)).map value ⊆ items := by
    intro item hitem
    obtain ⟨i, hi, rfl⟩ := List.mem_map.1 hitem
    exact h i (Nat.le_of_lt_succ (List.mem_range.1 hi))
  have hlength := (hdistinct.subperm hwithin).length_le
  rw [List.length_map, List.length_range] at hlength
  omega

namespace NodeIndex

/-- The node that the parent link of a node leads to. -/
def parentOf? (index : NodeIndex) (node : SourceNode) : Option SourceNode :=
  node.parent.bind index.get?

/-- The node so many parent links above a node. -/
def above? (index : NodeIndex) : Nat → SourceNode → Option SourceNode
  | 0, node => some node
  | steps + 1, node => (index.parentOf? node).bind (index.above? steps)

/-- So many parent links lead from a node to one without a parent. -/
def EndsAfter (index : NodeIndex) (steps : Nat) (node : SourceNode) : Prop :=
  ∃ top, index.above? steps node = some top ∧ top.parent = none

/-- Some parent links, at least one, lead from a node back to itself. -/
def IsOwnAncestor (index : NodeIndex) (node : SourceNode) : Prop :=
  ∃ steps, index.above? (steps + 1) node = some node

/-- From every node the parent links lead to one without a parent. -/
def IsHierarchy (index : NodeIndex) : Prop :=
  ∀ node ∈ index.nodes, ∃ steps, index.EndsAfter steps node

variable {index : NodeIndex} {node above : SourceNode}

/-! ## Single links -/

/-- A parent link leads to a node of the index. -/
theorem mem_of_parentOf? (h : index.parentOf? node = some above) : above ∈ index.nodes := by
  obtain ⟨id, _, hfound⟩ := Option.bind_eq_some_iff.1 h
  exact (index.get?_eq_some_iff_mem.1 hfound).1

/-- A node has no parent link exactly if it names no parent, since parents are in the index. -/
theorem parentOf?_eq_none_iff (h : node ∈ index.nodes) :
    index.parentOf? node = none ↔ node.parent = none := by
  constructor
  · intro hnone
    cases hparent : node.parent with
    | none => rfl
    | some id =>
      have hid : id ∈ index.nodes.map SourceNode.id := by
        have hplaced := index.isPlaced h
        unfold SourceNode.IsPlaced at hplaced
        split at hplaced
        · rw [hparent] at hplaced
          contradiction
        · obtain ⟨file, hfile, _, hsame⟩ := hplaced
          rw [hparent, Option.some.injEq] at hsame
          exact hsame ▸ hfile
        · exact hplaced id hparent
      obtain ⟨parent, hmem, hsame⟩ := List.mem_map.1 hid
      have hfound : index.get? id = some parent := index.get?_eq_some_iff_mem.2 ⟨hmem, hsame⟩
      rw [parentOf?, hparent, Option.bind_some, hfound] at hnone
      contradiction
  · intro hnone
    rw [parentOf?, hnone, Option.bind_none]

/-- No parent link leads on from a file. -/
theorem parentOf?_of_file (h : node ∈ index.nodes) (hkind : node.kind = .file) :
    index.parentOf? node = none := by
  have hplaced := index.isPlaced h
  rw [SourceNode.IsPlaced, hkind] at hplaced
  exact (parentOf?_eq_none_iff h).2 hplaced

/-- The parent link of a function leads to a file. -/
theorem kind_of_parentOf?_function (h : node ∈ index.nodes) (hkind : node.kind = .function)
    (hparent : index.parentOf? node = some above) : above.kind = .file := by
  obtain ⟨file, hfile, hfileKind, hsame⟩ := index.exists_file_of_function h hkind
  have hfound : index.get? file.id = some file := index.get?_eq_some_iff_mem.2 ⟨hfile, rfl⟩
  rw [parentOf?, hsame, Option.bind_some, hfound, Option.some.injEq] at hparent
  exact hparent ▸ hfileKind

/-! ## Chains of links -/

/-- Links may be followed in two parts. -/
theorem above?_add (index : NodeIndex) (first second : Nat) (node : SourceNode) :
    index.above? (first + second) node =
      (index.above? first node).bind (index.above? second) := by
  induction first generalizing node with
  | zero => rw [Nat.zero_add, above?, Option.bind_some]
  | succ first ih =>
    rw [Nat.succ_add, above?, above?, Option.bind_assoc]
    exact congrArg _ (funext ih)

/-- One more link is the one at the end. -/
theorem above?_succ (index : NodeIndex) (steps : Nat) (node : SourceNode) :
    index.above? (steps + 1) node = (index.above? steps node).bind index.parentOf? := by
  have hone : index.above? 1 = index.parentOf? := by
    funext other
    simp only [above?, Option.bind_fun_some]
  rw [above?_add, hone]

/-- Chains stay within the index. -/
theorem mem_of_above? (h : node ∈ index.nodes) {steps : Nat}
    (habove : index.above? steps node = some above) : above ∈ index.nodes := by
  cases steps with
  | zero =>
    rw [above?, Option.some.injEq] at habove
    exact habove ▸ h
  | succ steps =>
    rw [above?_succ] at habove
    obtain ⟨_, _, hlast⟩ := Option.bind_eq_some_iff.1 habove
    exact mem_of_parentOf? hlast

/-- A chain goes on for so many links unless it has ended before. -/
theorem exists_above?_or_endsAfter (h : node ∈ index.nodes) (steps : Nat) :
    (∃ above, index.above? steps node = some above) ∨
      ∃ fewer < steps, index.EndsAfter fewer node := by
  induction steps with
  | zero => exact .inl ⟨node, rfl⟩
  | succ steps ih =>
    rcases ih with ⟨above, habove⟩ | ⟨fewer, hfewer, hends⟩
    · rw [above?_succ, habove, Option.bind_some]
      cases hlink : index.parentOf? above with
      | some next => exact .inl ⟨next, rfl⟩
      | none =>
        have hnone := (parentOf?_eq_none_iff (mem_of_above? h habove)).1 hlink
        exact .inr ⟨steps, Nat.lt_succ_self steps, above, habove, hnone⟩
    · exact .inr ⟨fewer, Nat.lt_succ_of_lt hfewer, hends⟩

/-- A chain that has ended does not go on. -/
theorem above?_of_endsAfter {steps : Nat} (h : index.EndsAfter steps node) (more : Nat) :
    index.above? (steps + (more + 1)) node = none := by
  obtain ⟨top, htop, hnone⟩ := h
  rw [above?_add, htop, Option.bind_some, above?, parentOf?, hnone, Option.bind_none,
    Option.bind_none]

/-- From a node that is its own ancestor a chain never ends. -/
theorem IsOwnAncestor.exists_le (h : index.IsOwnAncestor node) (bound : Nat) :
    ∃ steps, bound ≤ steps ∧ index.above? steps node = some node := by
  obtain ⟨around, haround⟩ := h
  induction bound with
  | zero => exact ⟨0, Nat.le_refl 0, rfl⟩
  | succ bound ih =>
    obtain ⟨steps, hsteps, hback⟩ := ih
    refine ⟨steps + (around + 1), by omega, ?_⟩
    rw [above?_add, hback, Option.bind_some, haround]

/-! ## Where chains end -/

/-- Above a node whose chain ends no node is its own ancestor. -/
theorem not_isOwnAncestor_of_endsAfter {steps : Nat} (h : index.EndsAfter steps node)
    {links : Nat} (habove : index.above? links node = some above) : ¬index.IsOwnAncestor above := by
  intro hown
  obtain ⟨more, hmore, hback⟩ := hown.exists_le (steps + 1)
  have hgoes : index.above? (links + more) node = some above := by
    rw [above?_add, habove, Option.bind_some, hback]
  have hsplit : links + more = steps + (links + more - steps - 1 + 1) := by omega
  rw [hsplit, above?_of_endsAfter h] at hgoes
  contradiction

/-- A chain that passes a node twice shows that the node is its own ancestor. -/
theorem isOwnAncestor_of_above? {first second : Nat} (hlt : first < second)
    (hfirst : index.above? first node = some above)
    (hsecond : index.above? second node = some above) : index.IsOwnAncestor above := by
  have hsplit : second = first + (second - first - 1 + 1) := by omega
  rw [hsplit, above?_add, hfirst, Option.bind_some] at hsecond
  exact ⟨_, hsecond⟩

/-- A chain ends within the number of nodes or comes to a node that is its own ancestor: as many
links as there are nodes pass one node more than that, so one of them twice. -/
theorem exists_endsAfter_or_isOwnAncestor (h : node ∈ index.nodes) :
    (∃ steps < index.size, index.EndsAfter steps node) ∨
      ∃ steps above, index.above? steps node = some above ∧ index.IsOwnAncestor above := by
  by_cases hends : ∃ steps < index.size, index.EndsAfter steps node
  · exact .inl hends
  · right
    have hgoes : ∀ steps, ∃ above, steps ≤ index.size →
        index.above? steps node = some above := by
      intro steps
      by_cases hsteps : steps ≤ index.size
      · rcases exists_above?_or_endsAfter h steps with ⟨above, habove⟩ | ⟨fewer, hfewer, hearly⟩
        · exact ⟨above, fun _ => habove⟩
        · exact absurd ⟨fewer, Nat.lt_of_lt_of_le hfewer hsteps, hearly⟩ hends
      · exact ⟨node, fun hle => absurd hle hsteps⟩
    -- A chain that goes on without a repetition would pass more nodes than there are.
    choose passed hpassed using hgoes
    obtain ⟨first, second, hlt, hsecond, hsame⟩ :=
      exists_repeat fun steps hsteps => mem_of_above? h (hpassed steps hsteps)
    have habove := hpassed first (Nat.le_trans (Nat.le_of_lt hlt) hsecond)
    exact ⟨first, passed first, habove,
      isOwnAncestor_of_above? hlt habove (hsame ▸ hpassed second hsecond)⟩

/-- A chain ends exactly if it comes to no node that is its own ancestor. -/
theorem exists_endsAfter_iff (h : node ∈ index.nodes) :
    (∃ steps, index.EndsAfter steps node) ↔
      ∀ steps above, index.above? steps node = some above → ¬index.IsOwnAncestor above := by
  constructor
  · intro hends steps above habove
    obtain ⟨links, hlinks⟩ := hends
    exact not_isOwnAncestor_of_endsAfter hlinks habove
  · intro hnone
    rcases exists_endsAfter_or_isOwnAncestor h with hbounded | ⟨links, above, habove, hown⟩
    · obtain ⟨links, -, hlinks⟩ := hbounded
      exact ⟨links, hlinks⟩
    · exact absurd hown (hnone links above habove)

/-- A chain that ends is shorter than the number of nodes. -/
theorem exists_endsAfter_lt_size (h : node ∈ index.nodes) {steps : Nat}
    (hends : index.EndsAfter steps node) : ∃ fewer < index.size, index.EndsAfter fewer node := by
  rcases exists_endsAfter_or_isOwnAncestor h with hbounded | ⟨links, above, habove, hown⟩
  · exact hbounded
  · exact absurd hown (not_isOwnAncestor_of_endsAfter hends habove)

/-- Only a class can be its own ancestor. -/
theorem IsOwnAncestor.kind_eq_type (hown : index.IsOwnAncestor node) (h : node ∈ index.nodes) :
    node.kind = .type := by
  obtain ⟨steps, hback⟩ := hown
  obtain ⟨parent, hparent, hback⟩ := Option.bind_eq_some_iff.1 hback
  cases hkind : node.kind with
  | type => rfl
  | file =>
    rw [parentOf?_of_file h hkind] at hparent
    contradiction
  | function =>
    have hfile := kind_of_parentOf?_function h hkind hparent
    cases steps with
    | zero =>
      rw [above?, Option.some.injEq] at hback
      rw [hback, hkind] at hfile
      contradiction
    | succ steps =>
      rw [above?, parentOf?_of_file (mem_of_parentOf? hparent) hfile, Option.bind_none] at hback
      contradiction

/-- The links of an index form a hierarchy exactly if no class is its own ancestor. -/
theorem isHierarchy_iff (index : NodeIndex) :
    index.IsHierarchy ↔ ∀ node ∈ index.nodes, node.kind = .type → ¬index.IsOwnAncestor node := by
  constructor
  · intro h node hnode _
    exact (exists_endsAfter_iff hnode).1 (h node hnode) 0 node rfl
  · intro h node hnode
    apply (exists_endsAfter_iff hnode).2
    intro steps above habove hown
    have hmem := mem_of_above? hnode habove
    exact h above hmem (hown.kind_eq_type hmem) hown

/-- The parent links of an index that is built lead from a node to one without a parent if and only
if they lead to no class that is its own ancestor, and then in fewer steps than there are nodes. So
they form a hierarchy if and only if no class is its own ancestor; no other node ever is. -/
theorem isHierarchy_iff_of_build {nodes : List SourceNode} {index : NodeIndex}
    (h : (build (nodes.map .ok)).outcome = .ok index) :
    (index.IsHierarchy ↔ ∀ node ∈ nodes, node.kind = .type → ¬index.IsOwnAncestor node) ∧
    ∀ node ∈ nodes, (index.IsOwnAncestor node → node.kind = .type) ∧
      ((∃ steps, index.EndsAfter steps node) ↔
        ∀ steps above, index.above? steps node = some above → ¬index.IsOwnAncestor above) ∧
      ((∃ steps, index.EndsAfter steps node) →
        ∃ steps < nodes.length, index.EndsAfter steps node) := by
  obtain rfl := outcome_build_map_ok_iff.1 h
  refine ⟨isHierarchy_iff index, fun node hnode => ⟨fun hown => hown.kind_eq_type hnode,
    exists_endsAfter_iff hnode, fun hends => ?_⟩⟩
  obtain ⟨steps, hsteps⟩ := hends
  exact exists_endsAfter_lt_size hnode hsteps

/-- The links of the sample lead from the class over a function to a file. -/
theorem isHierarchy_sampleIndex :
    (build (sampleNodes.map .ok)).outcome = .ok sampleIndex ∧ sampleIndex.IsHierarchy := by
  obtain ⟨hhierarchy, hnodes⟩ := isHierarchy_iff_of_build build_sampleNodes
  refine ⟨build_sampleNodes, hhierarchy.2 fun node hnode hkind => ?_⟩
  have hends : sampleIndex.EndsAfter 2 node := by
    simp only [sampleNodes, List.mem_cons, List.not_mem_nil, or_false] at hnode
    rcases hnode with rfl | rfl | rfl | rfl | rfl
    case inr.inl => exact ⟨_, rfl, rfl⟩
    all_goals contradiction
  exact (hnodes node hnode).2.1.1 ⟨2, hends⟩ 0 node rfl

/-- A class that names another class as its parent. -/
def classIn (parent key : Char) : SourceNode where
  id := ⟨.type, ⟨[.char key]⟩⟩
  metrics := .empty
  parent := some ⟨.type, ⟨[.char parent]⟩⟩
  valid := SourceNode.valid_empty

/-- Two classes, each of them inside the other. -/
def mutualIndex : NodeIndex where
  nodes := [classIn 'a' 'b', classIn 'b' 'a']
  tables := .ofNodes [classIn 'a' 'b', classIn 'b' 'a']
  distinct := by decide
  placed := by decide
  tables_eq := rfl

/-- Two classes, each of them inside the other, are accepted, and no chain of parents ends. -/
theorem not_isHierarchy_mutualIndex :
    (build ([classIn 'a' 'b', classIn 'b' 'a'].map .ok)).outcome = .ok mutualIndex ∧
      mutualIndex.IsOwnAncestor (classIn 'a' 'b') ∧ ¬mutualIndex.IsHierarchy := by
  have hown : mutualIndex.IsOwnAncestor (classIn 'a' 'b') := ⟨1, rfl⟩
  refine ⟨outcome_build_map_ok_iff.2 rfl, hown, fun hhierarchy => ?_⟩
  exact (isHierarchy_iff mutualIndex).1 hhierarchy _ List.mem_cons_self rfl hown

end NodeIndex

end SourceGauge
