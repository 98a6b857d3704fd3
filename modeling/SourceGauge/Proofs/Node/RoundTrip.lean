import Mathlib.Data.List.Forall2
import SourceGauge.Proofs.Histogram.Buckets
import SourceGauge.Proofs.Histogram.SameBounds
import SourceGauge.Proofs.Node.Reading
import SourceGauge.Proofs.Number.Exact

/-!
# Dumps of nodes read back

Every node is read back from its dump, with the same identifier, the same parent and the same
metrics in the same order; only the kind of a number is lost, since metrics are read as reals. So a
node that was itself read from a dump comes back as it was, and a node with exact metrics comes back
as one that is numerically the same.

A whole number that is not exact comes back rounded.
-/

namespace SourceGauge

/-! ## Rounding -/

namespace Number

/-- The real nearest to a number; a whole number beyond all reals is left as it is. -/
def asReal (n : Number) : Number :=
  match n.toBinary64? with
  | some x => .real x
  | none => n

theorem asReal_of_toBinary64? {n : Number} {x : Binary64} (h : n.toBinary64? = some x) :
    n.asReal = .real x := by
  rw [asReal, h]

@[simp] theorem asReal_real (x : Binary64) : (real x).asReal = real x := rfl

/-- An exact number stays in its place. -/
theorem extent?_asReal {n : Number} (h : n.IsExact) : n.asReal.extent? = n.extent? := by
  cases hn : n.toBinary64? with
  | some x => rw [asReal_of_toBinary64? hn, extent?_of_toBinary64? h hn]
  | none => rw [asReal, hn]

/-- An exact finite number is equal to what it is rounded to. -/
theorem eqv_asReal {n : Number} (hexact : n.IsExact) (hfinite : n.isFinite? = some true) :
    n.asReal.eqv n = true := by
  have hplace := extent?_asReal hexact
  obtain ⟨extent, hextent⟩ := extent?_of_isFinite? hfinite
  exact (eqv_iff (hplace.trans hextent)).2 hplace

/-- A whole number below zero is below zero on the line. -/
theorem lt_zero_iff {n : Int} : (int n).lt (int 0) = true ↔ n < 0 := by
  have hpos : (0 : Int) < unitsPerOne := Int.natCast_pos.2 unitsPerOne_pos
  simp only [lt, extent?, Extent.le, Int.zero_mul, Bool.not_eq_true', decide_eq_false_iff_not,
    Int.not_le]
  constructor
  · intro h
    by_contra hn
    exact absurd (Int.mul_nonneg (Int.not_lt.1 hn) (Int.le_of_lt hpos)) (Int.not_le.2 h)
  · exact fun h => Int.mul_neg_of_neg_of_pos h hpos

/-- A whole number that is not negative is not rounded to a negative real. -/
theorem not_lt_zero_ofInt {n : Int} (h : 0 ≤ n) :
    (real (.ofInt n)).lt (int 0) = false := by
  have hsign : decide (n < 0) = false := decide_eq_false (Int.not_lt.2 h)
  rw [Binary64.ofInt, hsign, Binary64.ofRatio, Binary64.ofUnits]
  split
  · simp [lt, extent?, Extent.le]
  · simp [lt, extent?, Extent.le]

end Number

/-- What can be the value of a metric has a nearest real, and that can be one too. -/
theorem isMetricValue_asReal {n : Number} (h : isMetricValue n = true) :
    ∃ x, n.toBinary64? = some x ∧ isMetricValue (.real x) = true := by
  rw [isMetricValue, Bool.and_eq_true, Bool.not_eq_true'] at h
  obtain ⟨hfinite, hnonneg⟩ := h
  obtain ⟨x, hx, hxfinite⟩ := Option.map_eq_some_iff.1 (eq_of_beq hfinite)
  have hxnonneg : (Number.real x).lt (.int 0) = false := by
    cases n with
    | flag value =>
      rw [← Option.some.inj hx]
      exact Number.not_lt_zero_ofInt (by cases value <;> decide)
    | int n =>
      have hn : 0 ≤ n := by
        rw [← Bool.not_eq_true, Number.lt_zero_iff] at hnonneg
        exact Int.not_lt.1 hnonneg
      simp only [Number.toBinary64?, Option.ite_none_right_eq_some, Option.some.injEq] at hx
      exact hx.2 ▸ Number.not_lt_zero_ofInt hn
    | real y => exact Option.some.inj hx ▸ hnonneg
  refine ⟨x, hx, ?_⟩
  rw [isMetricValue, hxnonneg, Number.isFinite?, Number.toBinary64?, Option.map_some, hxfinite]
  rfl

namespace Value

mutual

/-- Whether two values are equal: numbers as numbers, lists item by item, tables entry by entry in
their order, and other values as they are. -/
def same : Value → Value → Bool
  | .null, .null => true
  | .number a, .number b => a.eqv b
  | .text a, .text b => a == b
  | .list items, .list others => sameItems items others
  | .table entries, .table others => sameEntries entries others
  | .moment a, .moment b => a == b
  | _, _ => false

/-- Whether the items of two lists are equal. -/
def sameItems : List Value → List Value → Bool
  | [], [] => true
  | item :: rest, other :: more => same item other && sameItems rest more
  | _, _ => false

/-- Whether the entries of two tables are equal. -/
def sameEntries : List (Text × Value) → List (Text × Value) → Bool
  | [], [] => true
  | (key, item) :: rest, (otherKey, other) :: more =>
    key == otherKey && same item other && sameEntries rest more
  | _, _ => false

end

/-- Tables are equal if they have equal values under the same keys in the same order. -/
theorem sameEntries_iff {entries others : List (Text × Value)} :
    sameEntries entries others = true ↔
      List.Forall₂ (fun entry other => entry.1 = other.1 ∧ entry.2.same other.2 = true) entries
        others := by
  induction entries generalizing others with
  | nil =>
    cases others with
    | nil => simp [sameEntries]
    | cons other more => exact ⟨nofun, nofun⟩
  | cons entry rest ih =>
    cases others with
    | nil => exact ⟨nofun, nofun⟩
    | cons other more => simp [sameEntries, ih, and_assoc]

end Value

/-- The reference of a node is read from whatever starts with it. -/
theorem NodeId.ofEntries_append (id : NodeId) (more : List (Text × Value)) :
    ofEntries (id.toEntries ++ more) = .ok id := by
  have hkind : Value.lookup "kind" (id.toEntries ++ more) = some (.text id.kind.name) := rfl
  have hkey : Value.lookup "key" (id.toEntries ++ more) = some (.text id.key) := rfl
  have hnamed : NodeKind.ofValue? (.text id.kind.name) = some id.kind := by
    cases id.kind <;> rfl
  rw [ofEntries, hkind]
  simp only [hnamed, hkey]
  rfl

namespace SourceNode

/-! ## Reading back -/

/-- A node with the nearest real in place of every metric. -/
def reread (node : SourceNode) : SourceNode where
  id := node.id
  metrics := node.metrics.mapValues Number.asReal
  parent := node.parent
  valid := by
    intro n hn
    obtain ⟨_, hentry, rfl⟩ := List.mem_map.1 hn
    obtain ⟨entry, hmem, rfl⟩ := List.mem_map.1 hentry
    obtain ⟨x, hx, hvalid⟩ := isMetricValue_asReal (node.valid _ (List.mem_map_of_mem hmem))
    rw [Number.asReal_of_toBinary64? hx]
    exact hvalid

theorem entries_reread (node : SourceNode) :
    node.reread.metrics.entries = node.metrics.entries.map fun entry => (entry.1, entry.2.asReal) :=
  rfl

/-- A node whose metrics are reals is its own reread. -/
theorem reread_eq_self {node : SourceNode}
    (h : ∀ entry ∈ node.metrics.entries, ∃ x, entry.2 = .real x) : node.reread = node := by
  refine ext_entries rfl ?_ rfl
  rw [entries_reread]
  have hsame : ∀ entry ∈ node.metrics.entries, (entry.1, entry.2.asReal) = entry := by
    intro entry hentry
    obtain ⟨x, hx⟩ := h entry hentry
    rw [hx, Number.asReal_real, ← hx]
  exact (List.map_congr_left hsame).trans (List.map_id' _)

/-- A metric is read from the dump of a node under its name, as the nearest real. -/
theorem readMetric_named {key : Text} {metric : Metric} {n : Number}
    (h : isMetricValue n = true) :
    readMetric key (metric.name, .number n) = .ok (metric, .number n.asReal) := by
  obtain ⟨x, hx, _⟩ := isMetricValue_asReal h
  rw [readMetric]
  simp only [Metric.ofSpelling?_name, toReal, hx, Except.map, Number.asReal_of_toBinary64? hx]

/-- A real that can be the value of a metric passes as one. -/
theorem checkEntry_asReal {key : Text} {metric : Metric} {n : Number}
    (h : isMetricValue n = true) :
    checkEntry key (metric, .number n.asReal) = .ok (metric, n.asReal) := by
  obtain ⟨x, hx, hvalid⟩ := isMetricValue_asReal h
  rw [isMetricValue, Bool.and_eq_true] at hvalid
  obtain ⟨hfinite, hnonneg⟩ := hvalid
  rw [checkEntry, Number.asReal_of_toBinary64? hx, checkMetric]
  simp only [Value.number?, eq_of_beq hfinite, hnonneg, Bool.and_self, if_true, Except.map]

/-- The metrics of a node as they are read from its dump. -/
def readBack (node : SourceNode) : OrderedMap Metric Value :=
  node.metrics.mapValues fun n => .number n.asReal

/-- The metrics of a node are read from its dump in their order. -/
theorem readMetrics_toEntries (node : SourceNode) :
    readMetrics node.id.key node.toEntries = .ok node.readBack := by
  have hfield : Value.field? "metrics" node.toEntries = some (.table node.namedMetrics) := by
    rw [toEntries]
    cases node.parent <;> rfl
  have hread : mapOk (readMetric node.id.key) node.namedMetrics = .ok node.readBack.entries := by
    rw [namedMetrics, mapOk_map, mapOk_eq_ok_iff, readBack, OrderedMap.mapValues, List.map_map]
    refine List.map_congr_left fun entry hentry => ?_
    exact readMetric_named (node.valid _ (List.mem_map_of_mem hentry))
  rw [readMetrics, hfield]
  simp only [hread, Except.map]
  exact congrArg Except.ok (OrderedMap.ofList_entries node.readBack)

/-- The parent of a node is read from its dump. -/
theorem readParent_toEntries (node : SourceNode) :
    readParent node.id.key node.toEntries = .ok node.parent := by
  rw [toEntries]
  cases node.parent with
  | none => rfl
  | some parent =>
    have hfield : Value.field? "parent"
        (node.id.toEntries ++ (some parent).toList.map parentEntry ++ [node.metricsEntry]) =
          some (.table parent.toEntries) := rfl
    have hparent := parent.ofEntries_append []
    rw [List.append_nil] at hparent
    rw [readParent, hfield]
    simp only [hparent, Except.map]

/-- A dumped node is read back with the nearest real in place of every metric. -/
theorem ofValue_toValue (node : SourceNode) : ofValue node.toValue = .ok node.reread := by
  have hmetrics : mapOk (checkEntry node.reread.id.key) node.readBack.entries =
      .ok node.reread.metrics.entries := by
    rw [readBack, OrderedMap.mapValues, mapOk_map, mapOk_eq_ok_iff, entries_reread, List.map_map]
    refine List.map_congr_left fun entry hentry => ?_
    exact checkEntry_asReal (node.valid _ (List.mem_map_of_mem hentry))
  calc ofValue node.toValue
      = (NodeId.ofEntries node.toEntries).bind fun id =>
          (readMetrics id.key node.toEntries).bind fun metrics =>
            (readParent id.key node.toEntries).bind fun parent => ofMetrics id metrics parent := rfl
    _ = ofMetrics node.reread.id node.readBack node.reread.parent := by
        rw [toEntries, List.append_assoc, NodeId.ofEntries_append, ← List.append_assoc, ← toEntries]
        simp only [ok_bind, readMetrics_toEntries, readParent_toEntries]
        rfl
    _ = .ok node.reread := ofMetrics_of_mapOk hmetrics

/-- A node that was read from a dump is read back as it is. -/
theorem ofValue_toValue_of_ofValue {dump : Value} {node : SourceNode}
    (h : ofValue dump = .ok node) : ofValue node.toValue = .ok node := by
  have hreals : ∀ entry ∈ node.metrics.entries, ∃ x, entry.2 = .real x := fun entry hentry =>
    let ⟨x, hx, _⟩ := isMeasurement_of_ofValue h entry hentry
    ⟨x, hx⟩
  rw [ofValue_toValue, reread_eq_self hreals]

/-! ## Exact metrics -/

/-- All metrics of a node are exactly representable. -/
def IsExact (node : SourceNode) : Prop := ∀ n ∈ node.metrics.values, n.IsExact

instance (node : SourceNode) : Decidable node.IsExact := by
  unfold IsExact
  infer_instance

/-- A node that was read from a dump has exact metrics. -/
theorem isExact_of_ofValue {dump : Value} {node : SourceNode} (h : ofValue dump = .ok node) :
    node.IsExact := by
  intro n hn
  obtain ⟨entry, hentry, rfl⟩ := List.mem_map.1 hn
  obtain ⟨x, hx, _⟩ := isMeasurement_of_ofValue h entry hentry
  exact hx ▸ Number.isExact_real x

/-- The metrics of a node as another has them: the same in the same order, with equal values. -/
def SameMetrics (a b : SourceNode) : Prop :=
  List.Forall₂ (fun entry other => entry.1 = other.1 ∧ entry.2.eqv other.2 = true)
    a.metrics.entries b.metrics.entries

/-- Exact metrics are read back as the same. -/
theorem sameMetrics_reread {node : SourceNode} (hexact : node.IsExact) :
    node.reread.SameMetrics node := by
  rw [SameMetrics, entries_reread, List.forall₂_map_left_iff, List.forall₂_same]
  intro entry hentry
  have hmem : entry.2 ∈ node.metrics.values := List.mem_map_of_mem hentry
  have hvalid := node.valid _ hmem
  rw [isMetricValue, Bool.and_eq_true] at hvalid
  exact ⟨rfl, Number.eqv_asReal (hexact _ hmem) (eq_of_beq hvalid.1)⟩

/-- Nodes with the same identifier, parent and metrics have equal dumps. -/
theorem same_toValue {a b : SourceNode} (hid : a.id = b.id) (hparent : a.parent = b.parent)
    (hmetrics : a.SameMetrics b) : a.toValue.same b.toValue = true := by
  have hnamed : Value.sameEntries a.namedMetrics b.namedMetrics = true := by
    rw [Value.sameEntries_iff, namedMetrics, namedMetrics, List.forall₂_map_left_iff,
      List.forall₂_map_right_iff]
    refine hmetrics.imp fun entry other h => ⟨by rw [h.1], ?_⟩
    rw [Value.same]
    exact h.2
  simp only [toValue, toEntries, hid, hparent]
  cases b.parent with
  | none => simp [NodeId.toEntries, metricsEntry, Value.same, Value.sameEntries, hnamed]
  | some parent =>
    simp [NodeId.toEntries, parentEntry, metricsEntry, Value.same, Value.sameEntries, hnamed]

end SourceNode

end SourceGauge
