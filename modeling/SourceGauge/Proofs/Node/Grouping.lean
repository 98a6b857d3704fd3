import SourceGauge.Node.Index

/-!
# The tables of an index

Nodes are put into the two tables one after the other. The invariant of this loop is that the
group of every key holds exactly the nodes so far that have the key, in their order. It needs
that no node is the same as an earlier one, since a group takes only one of them: what counts as
the same looks at identifiers and parents alone, so distinct identifiers are enough.
-/

namespace SourceGauge

/-- Nodes that are the same have one identifier. -/
theorem SourceNode.id_eq_of_same {a b : SourceNode} (h : a.same b = true) : a.id = b.id := by
  rw [same, Bool.and_eq_true] at h
  exact eq_of_beq h.1

/-- Among nodes with distinct identifiers no two are the same, whatever their metrics. -/
theorem SourceNode.pairwise_not_same {nodes : List SourceNode}
    (h : (nodes.map SourceNode.id).Nodup) : nodes.Pairwise fun a b => a.same b = false := by
  rw [List.Nodup, List.pairwise_map] at h
  refine h.imp fun {a b} hne => ?_
  rw [← Bool.not_eq_true]
  exact fun hsame => hne (id_eq_of_same hsame)

namespace NodeTable

variable {κ : Type} [DecidableEq κ]

/-- A table groups nodes by a key, which some nodes may lack, if the group of every key holds
exactly the nodes that have it, in their order. -/
def Groups (table : NodeTable κ) (key : SourceNode → Option κ) (nodes : List SourceNode) : Prop :=
  ∀ k, group table k = nodes.filter fun node => key node = some k

variable {table : NodeTable κ} {key : SourceNode → Option κ} {nodes : List SourceNode}

/-- A table without entries groups no nodes. -/
theorem groups_empty (key : SourceNode → Option κ) : Groups .empty key [] := fun _ => rfl

/-- A node that is not in a group yet comes at its end. -/
theorem insertInto_of_new {members : List SourceNode} {node : SourceNode}
    (h : ∀ other ∈ members, other.same node = false) :
    insertInto members node = members ++ [node] := by
  have hany : (members.any fun other => other.same node) = false := by
    rw [List.any_eq_false]
    exact fun other hother => by simp [h other hother]
  simp [insertInto, hany]

/-- The group of the key that a node was added to. -/
theorem group_add_self (table : NodeTable κ) (k : κ) (node : SourceNode) :
    group (add table k node) k = insertInto (group table k) node := by
  rw [add, group, OrderedMap.get?_put_self]
  rfl

/-- Adding a node to one group leaves the others as they are. -/
theorem group_add_of_ne (table : NodeTable κ) {k other : κ} (node : SourceNode) (h : other ≠ k) :
    group (add table k node) other = group table other := by
  rw [add, group, OrderedMap.get?_put_of_ne table _ h]
  rfl

/-- Adding a node under its key keeps the invariant, if it is not the same as an earlier one. -/
theorem Groups.add {k : κ} {node : SourceNode} (h : Groups table key nodes)
    (hkey : key node = some k) (hnew : ∀ other ∈ nodes, other.same node = false) :
    Groups (NodeTable.add table k node) key (nodes ++ [node]) := by
  intro other
  rw [List.filter_append]
  by_cases hother : other = k
  · subst hother
    have hmembers : ∀ member ∈ group table other, member.same node = false := by
      intro member hmember
      rw [h other] at hmember
      exact hnew member (List.mem_filter.1 hmember).1
    rw [group_add_self, insertInto_of_new hmembers, h other]
    simp [hkey]
  · have hne : ¬ k = other := fun heq => hother heq.symm
    rw [group_add_of_ne table node hother, h other]
    simp [hkey, hne]

/-- A node without a key leaves the invariant as it is. -/
theorem Groups.skip {node : SourceNode} (h : Groups table key nodes) (hkey : key node = none) :
    Groups table key (nodes ++ [node]) := by
  intro k
  rw [List.filter_append, h k]
  simp [hkey]

end NodeTable

namespace NodeTables

/-- What the children of a parent are grouped by. -/
def parentKey (node : SourceNode) : Option (NodeId × NodeKind) :=
  node.parent.map fun parent => (parent, node.kind)

/-- The invariant of filling the tables: both of them group the nodes so far. -/
structure Hold (tables : NodeTables) (nodes : List SourceNode) : Prop where
  byKind : NodeTable.Groups tables.byKind (fun node => some node.kind) nodes
  byParent : NodeTable.Groups tables.byParent parentKey nodes

/-- Adding one node keeps the invariant, if it is not the same as an earlier one. -/
theorem Hold.add {tables : NodeTables} {nodes : List SourceNode} {node : SourceNode}
    (h : tables.Hold nodes) (hnew : ∀ other ∈ nodes, other.same node = false) :
    (tables.add node).Hold (nodes ++ [node]) where
  byKind := h.byKind.add rfl hnew
  byParent := by
    rw [NodeTables.add]
    cases hparent : node.parent with
    | none =>
      have hkey : parentKey node = none := by rw [parentKey, hparent]; rfl
      exact h.byParent.skip hkey
    | some parent =>
      have hkey : parentKey node = some (parent, node.kind) := by rw [parentKey, hparent]; rfl
      exact h.byParent.add hkey hnew

/-- Adding nodes one after the other keeps the invariant, if no two of them are the same. -/
theorem Hold.foldl_add {tables : NodeTables} {before nodes : List SourceNode}
    (h : tables.Hold before) (hnew : (before ++ nodes).Pairwise fun a b => a.same b = false) :
    (nodes.foldl NodeTables.add tables).Hold (before ++ nodes) := by
  induction nodes generalizing tables before with
  | nil =>
    rw [List.append_nil]
    exact h
  | cons node rest ih =>
    have hnode : ∀ other ∈ before, other.same node = false := fun other hother =>
      (List.pairwise_append.1 hnew).2.2 other hother node List.mem_cons_self
    rw [List.append_cons] at hnew ⊢
    exact ih (h.add hnode) hnew

/-- The tables of nodes no two of which are the same group all of them. -/
theorem hold_ofNodes {nodes : List SourceNode}
    (h : nodes.Pairwise fun a b => a.same b = false) : (ofNodes nodes).Hold nodes := by
  have hempty : empty.Hold [] := ⟨NodeTable.groups_empty _, NodeTable.groups_empty _⟩
  exact hempty.foldl_add h

end NodeTables

end SourceGauge
