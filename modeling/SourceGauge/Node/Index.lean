import SourceGauge.Node.Basic
import SourceGauge.Run

/-!
# The node index

A read-only view of the nodes of one scan. The identifiers of an index are distinct, files have
no parent, functions have a file of the index as their parent, and any other node has a parent
in the index or none. Nodes keep the order of the scan.

Two tables are filled when the index is built, so that no query goes through all nodes: the
nodes of each kind, and the children of each kind of each parent. Groups of nodes are sets, in
which nodes count as the same if their identifiers and parents agree; they are given here in
the order of the scan.
-/

namespace SourceGauge

/-- The kinds of parent a node may have: `none` allows any. -/
def NodeKind.parentKinds? : NodeKind → Option (List NodeKind)
  | .file => some []
  | .function => some [.file]
  | .type => none

/-- What is wrong with the parent of a node, given the identifiers that exist. -/
def SourceNode.parentFault? (ids : List NodeId) (node : SourceNode) : Option IndexFault :=
  match node.parent with
  | none =>
    match node.kind.parentKinds? with
    | some (_ :: _) => some (.noParent node.kind)
    | _ => none
  | some parent =>
    if !ids.contains parent then some (.unknownParent parent)
    else match node.kind.parentKinds? with
      | none => none
      | some allowed =>
        if allowed.contains parent.kind then none else some (.badNesting node.kind parent.kind)

/-- What a caller names a node by: the node itself, which need not be in an index, or its
identifier. -/
inductive NodeReference
  | node (node : SourceNode)
  | id (id : NodeId)

namespace NodeReference

instance : Coe SourceNode NodeReference := ⟨node⟩

instance : Coe NodeId NodeReference := ⟨id⟩

/-- The identifier that a reference leads to. -/
def target : NodeReference → NodeId
  | node named => named.id
  | id named => named

end NodeReference

/-- Nodes by some key, each group without a node that is the same as another. -/
abbrev NodeTable (κ : Type) := OrderedMap κ (List SourceNode)

namespace NodeTable

/-- Add a node to a group unless the group holds the same node. -/
def insertInto (group : List SourceNode) (node : SourceNode) : List SourceNode :=
  if group.any fun other => other.same node then group else group ++ [node]

/-- The group of a key; it is empty if the key is unknown. -/
def group {κ : Type} [DecidableEq κ] (table : NodeTable κ) (key : κ) : List SourceNode :=
  (table.get? key).getD []

/-- Add a node to the group of a key. -/
def add {κ : Type} [DecidableEq κ] (table : NodeTable κ) (key : κ) (node : SourceNode) :
    NodeTable κ :=
  table.put key (insertInto (table.group key) node)

end NodeTable

/-- The nodes by kind, and the children by parent and kind. -/
structure NodeTables where
  byKind : NodeTable NodeKind
  byParent : NodeTable (NodeId × NodeKind)

namespace NodeTables

/-- The tables of no nodes. -/
def empty : NodeTables := ⟨.empty, .empty⟩

/-- Add a node to the group of its kind and to the children of its parent. -/
def add (tables : NodeTables) (node : SourceNode) : NodeTables where
  byKind := NodeTable.add tables.byKind node.kind node
  byParent :=
    match node.parent with
    | none => tables.byParent
    | some parent => NodeTable.add tables.byParent (parent, node.kind) node

/-- The tables of nodes that are added in order. -/
def ofNodes (nodes : List SourceNode) : NodeTables := nodes.foldl add empty

end NodeTables

/-- An index over the nodes of one scan. -/
structure NodeIndex where
  nodes : List SourceNode
  tables : NodeTables
  distinct : (nodes.map SourceNode.id).Nodup
  placed : ∀ node ∈ nodes, node.parentFault? (nodes.map SourceNode.id) = none
  tables_eq : tables = NodeTables.ofNodes nodes

namespace NodeIndex

/-- The logger of the index. -/
def logger : String := "codemeasure.index.node_index"

/-- Collect converted nodes in order, after those collected before. A node that was not
converted, or that repeats an identifier, ends the collection. -/
def collect (before : List NodeId) :
    List (Except Failure SourceNode) → Except Failure (List SourceNode)
  | [] => .ok []
  | .error failure :: _ => .error failure
  | .ok node :: rest =>
    if before.contains node.id then .error (.index node.id .duplicate)
    else (collect (node.id :: before) rest).map (node :: ·)

/-- The first node whose parent is at fault. -/
def firstMisplaced? (nodes : List SourceNode) : Option (NodeId × IndexFault) :=
  nodes.findSome? fun node =>
    (node.parentFault? (nodes.map SourceNode.id)).map fun fault => (node.id, fault)

/-- Collected nodes have identifiers that are new and distinct. -/
theorem distinct_of_collect {before : List NodeId} {converted : List (Except Failure SourceNode)}
    {nodes : List SourceNode} (h : collect before converted = .ok nodes) :
    (nodes.map SourceNode.id).Nodup ∧ ∀ node ∈ nodes, node.id ∉ before := by
  induction converted generalizing before nodes with
  | nil =>
    simp only [collect, Except.ok.injEq] at h
    simp [← h]
  | cons first rest ih =>
    cases first with
    | error failure => simp [collect] at h
    | ok node =>
      unfold collect at h
      split at h
      · contradiction
      · rename_i hnew
        cases hrest : collect (node.id :: before) rest with
        | error failure => simp [hrest, Except.map] at h
        | ok others =>
          simp only [hrest, Except.map, Except.ok.injEq] at h
          obtain ⟨hdistinct, hfresh⟩ := ih hrest
          subst h
          refine ⟨?_, ?_⟩
          · rw [List.map_cons, List.nodup_cons]
            refine ⟨fun hmem => ?_, hdistinct⟩
            obtain ⟨other, hother, hid⟩ := List.mem_map.1 hmem
            exact hfresh other hother (hid ▸ List.mem_cons_self)
          · intro found hfound
            rcases List.mem_cons.1 hfound with rfl | hfound
            · simpa using hnew
            · exact fun hmem => hfresh found hfound (List.mem_cons_of_mem _ hmem)

/-- Without a first misplaced node every node is well placed. -/
theorem placed_of_firstMisplaced? {nodes : List SourceNode} (h : firstMisplaced? nodes = none) :
    ∀ node ∈ nodes, node.parentFault? (nodes.map SourceNode.id) = none := by
  intro node hnode
  have hnone := List.findSome?_eq_none_iff.1 h node hnode
  simpa using hnone

/-- The index of converted nodes. -/
def ofConverted (converted : List (Except Failure SourceNode)) : Except Failure NodeIndex :=
  match h : collect [] converted with
  | .error failure => .error failure
  | .ok nodes =>
    match hplaced : firstMisplaced? nodes with
    | some (id, fault) => .error (.index id fault)
    | none => .ok
      ⟨nodes, NodeTables.ofNodes nodes, (distinct_of_collect h).1,
        placed_of_firstMisplaced? hplaced, rfl⟩

/-- The nodes of an index are those that were collected, in their order. -/
theorem collect_of_ofConverted {converted : List (Except Failure SourceNode)} {index : NodeIndex}
    (h : ofConverted converted = .ok index) : collect [] converted = .ok index.nodes := by
  unfold ofConverted at h
  split at h
  · contradiction
  · rename_i nodes hnodes
    split at h
    · contradiction
    · injection h with h
      subst h
      exact hnodes

/-- How many nodes of each kind there are, as text, in the order of first appearance. -/
def summary (index : NodeIndex) : String :=
  match index.tables.byKind.entries with
  | [] => "empty"
  | groups => String.intercalate ", " (groups.map fun entry =>
      entry.1.name ++ "=" ++ toString entry.2.length)

/-- The report of a built index. -/
def buildReport (index : NodeIndex) : Run Unit :=
  .report .debug logger
    ("Built node index: " ++ toString index.nodes.length ++ " nodes (" ++ index.summary ++ ")")

/-- Build the index of nodes that are converted one after the other. -/
def build (converted : List (Except Failure SourceNode)) : Run NodeIndex :=
  (Run.ofOutcome (ofConverted converted)).andThen fun index =>
    index.buildReport.andThen fun _ => .done index

/-- The nodes of a kind. -/
def byKind (index : NodeIndex) (kind : NodeKind) : List SourceNode :=
  NodeTable.group index.tables.byKind kind

/-- The nodes of a kind that have a given parent. -/
def byParent (index : NodeIndex) (parent : NodeReference) (kind : NodeKind) : List SourceNode :=
  NodeTable.group index.tables.byParent (parent.target, kind)

/-- The files. -/
def files (index : NodeIndex) : List SourceNode := index.byKind .file

/-- The functions, all of them or those of one parent. -/
def functions (index : NodeIndex) : Option NodeReference → List SourceNode
  | none => index.byKind .function
  | some parent => index.byParent parent .function

/-- The node with an identifier. -/
def get? (index : NodeIndex) (id : NodeId) : Option SourceNode :=
  index.nodes.find? fun node => node.id == id

/-- Whether a node of the index has an identifier. -/
def containsId (index : NodeIndex) (id : NodeId) : Bool := (index.get? id).isSome

/-- Whether the index holds the same node. -/
def containsNode (index : NodeIndex) (node : SourceNode) : Bool :=
  (index.get? node.id).any fun found => found.same node

/-- The number of nodes. -/
def size (index : NodeIndex) : Nat := index.nodes.length

/-- How an index shows itself. -/
def text (index : NodeIndex) : String := "NodeIndex(nodes=" ++ toString index.size ++ ")"

end NodeIndex

end SourceGauge
