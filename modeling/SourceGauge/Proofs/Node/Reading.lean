import Mathlib.Algebra.Ring.Int.Defs
import SourceGauge.Node.Dump

/-!
# What reading a node dump promises

Reading a dump promises a node whose metrics are finite reals, none of them negative, or else the
complaint that the description of a node is malformed. It keeps the promise unless another failure
escapes, and there are two causes for which one does: a whole number among the metrics is beyond all
reals, or the complaint would have to show a value that is nested too deep or holds a number that is
too long to be written. Every value that a dump may hold is looked at here, in the place and in the
order in which it is read.
-/

namespace SourceGauge

/-! ## Failures -/

namespace Failure

/-- Whether a failure is the complaint that the description of a node is malformed. -/
def isMalformedNode (failure : Failure) : Bool :=
  match failure.report with
  | .inl complaint => complaint.kind == .malformedNode
  | .inr _ => false

/-- A failure escapes with an outcome: it is how that ended, and it is no complaint about the
description of a node. -/
def Escapes {α : Type} (failure : Failure) (outcome : Except Failure α) : Prop :=
  outcome = .error failure ∧ failure.isMalformedNode = false

variable {α β : Type} {failure : Failure}

/-- What keeps a value from being shown is no complaint about a node. -/
theorem isMalformedNode_of_unshowable? {value : Value} (h : unshowable? value = some failure) :
    failure.isMalformedNode = false := by
  rcases cause_of_unshowable? h with rfl | rfl <;> rfl

@[simp] theorem not_escapes_ok (value : α) : ¬failure.Escapes (.ok value : Except Failure α) :=
  fun h => nomatch h.1

@[simp] theorem not_escapes_node (fault : NodeFault) (key : Option Text) :
    ¬failure.Escapes (.error (.node fault key) : Except Failure α) := by
  rintro ⟨hfailure, hno⟩
  rw [← Except.error.inj hfailure] at hno
  contradiction

/-- Refusing a description lets out what keeps the value that it shows from being shown. -/
theorem escapes_ofNode_iff {shown : Value} {fault : NodeFault} {key : Option Text} :
    failure.Escapes (.error (ofNode shown fault key) : Except Failure α) ↔
      unshowable? shown = some failure := by
  rw [Escapes, Except.error.injEq, ofNode]
  cases hshown : unshowable? shown with
  | none =>
    constructor
    · rintro ⟨rfl, hno⟩
      contradiction
    · nofun
  | some cause =>
    constructor
    · rintro ⟨rfl, _⟩
      rfl
    · intro h
      obtain rfl := Option.some.inj h
      exact ⟨rfl, isMalformedNode_of_unshowable? hshown⟩

/-- Carrying an outcome on lets out what it let out before. -/
@[simp] theorem escapes_map_iff {outcome : Except Failure α} {f : α → β} :
    failure.Escapes (outcome.map f) ↔ failure.Escapes outcome := by
  rw [Escapes, Escapes, map_eq_error_iff]

/-- Going on from an outcome lets out what the outcome lets out, or what comes next. -/
theorem escapes_bind_iff {outcome : Except Failure α} {next : α → Except Failure β} :
    failure.Escapes (outcome.bind next) ↔
      failure.Escapes outcome ∨ ∃ value, outcome = .ok value ∧ failure.Escapes (next value) := by
  simp only [Escapes, bind_eq_error_iff]
  constructor
  · rintro ⟨hfailure | ⟨value, hvalue, hfailure⟩, hno⟩
    · exact .inl ⟨hfailure, hno⟩
    · exact .inr ⟨value, hvalue, hfailure, hno⟩
  · rintro (⟨hfailure, hno⟩ | ⟨value, hvalue, hfailure, hno⟩)
    · exact ⟨.inl hfailure, hno⟩
    · exact ⟨.inr ⟨value, hvalue, hfailure⟩, hno⟩

/-- Going through items lets out what the first one lets out that does not succeed. -/
theorem escapes_mapOk_iff {f : α → Except Failure β} {items : List α} :
    failure.Escapes (mapOk f items) ↔ ∃ before item after, items = before ++ item :: after ∧
      (∀ other ∈ before, ∃ result, f other = .ok result) ∧ failure.Escapes (f item) := by
  rw [Escapes, mapOk_eq_error_iff]
  constructor
  · rintro ⟨⟨before, item, after, hitems, hbefore, hitem⟩, hno⟩
    exact ⟨before, item, after, hitems, hbefore, hitem, hno⟩
  · rintro ⟨before, item, after, hitems, hbefore, hitem, hno⟩
    exact ⟨⟨before, item, after, hitems, hbefore, hitem⟩, hno⟩

end Failure

/-! ## Node references -/

/-- Only a text names a kind. -/
theorem NodeKind.eq_text_of_ofValue? {value : Value} {kind : NodeKind}
    (h : ofValue? value = some kind) : ∃ text, value = .text text := by
  cases value with
  | text text => exact ⟨text, rfl⟩
  | _ => contradiction

namespace NodeId

/-- Why a failure escapes from reading a node reference: the kind is unknown and cannot be shown, or
it is known and the key is nested too deep to have a text. -/
inductive EscapeCause (entries : List (Text × Value)) : Failure → Prop
  | kind {named : Value} {failure : Failure} (hnamed : Value.lookup "kind" entries = some named)
    (hunknown : NodeKind.ofValue? named = none) (h : Failure.unshowable? named = some failure) :
    EscapeCause entries failure
  | key {named key : Value} {kind : NodeKind} (hnamed : Value.lookup "kind" entries = some named)
    (hknown : NodeKind.ofValue? named = some kind) (hkey : Value.lookup "key" entries = some key)
    (h : Failure.unshowable? key = some (.nesting .shown)) : EscapeCause entries (.nesting .shown)

variable {entries : List (Text × Value)} {failure : Failure}

/-- A key whose kind is known lets out nothing but that it is nested too deep: a number that cannot
be written is blamed on the kind, which can be shown. -/
theorem escapes_keyText_iff {named key : Value} {kind : NodeKind}
    (hknown : NodeKind.ofValue? named = some kind) :
    failure.Escapes (keyText named key) ↔
      Failure.unshowable? key = some (.nesting .shown) ∧ failure = .nesting .shown := by
  obtain ⟨text, rfl⟩ := NodeKind.eq_text_of_ofValue? hknown
  rw [keyText]
  cases hkey : Failure.unshowable? key with
  | none => simp
  | some cause =>
    rcases Failure.cause_of_unshowable? hkey with rfl | rfl
    · constructor
      · rintro ⟨hfailure, _⟩
        exact ⟨rfl, (Except.error.inj hfailure).symm⟩
      · rintro ⟨_, rfl⟩
        exact ⟨rfl, rfl⟩
    · simp only [Failure.escapes_ofNode_iff]
      constructor
      · nofun
      · rintro ⟨hcause, _⟩
        cases hcause

theorem escapes_ofEntries_iff :
    failure.Escapes (ofEntries entries) ↔ EscapeCause entries failure := by
  rw [ofEntries]
  constructor
  · intro h
    split at h
    · exact absurd h (Failure.not_escapes_node _ _)
    · rename_i named hnamed
      split at h
      · rename_i hunknown
        exact .kind hnamed hunknown (Failure.escapes_ofNode_iff.1 h)
      · rename_i kind hknown
        split at h
        · exact absurd h (Failure.not_escapes_node _ _)
        · rename_i key hkey
          rw [Failure.escapes_map_iff, escapes_keyText_iff hknown] at h
          obtain ⟨hdeep, rfl⟩ := h
          exact .key hnamed hknown hkey hdeep
  · intro h
    cases h with
    | kind hnamed hunknown h =>
      rw [hnamed]
      simp only [hunknown]
      exact Failure.escapes_ofNode_iff.2 h
    | key hnamed hknown hkey h =>
      rw [hnamed]
      simp only [hknown, hkey, Failure.escapes_map_iff]
      exact (escapes_keyText_iff hknown).2 ⟨h, rfl⟩

end NodeId

namespace SourceNode

/-! ## Metrics -/

/-- Why a failure escapes from reading the value of a metric: it is a whole number beyond all reals,
or it is no number and cannot be shown. -/
inductive MetricEscapeCause : Value → Failure → Prop
  | unbounded {n : Number} (h : n.toBinary64? = none) :
    MetricEscapeCause (.number n) (.overflow .real)
  | unshowable {value : Value} {failure : Failure} (hnumber : value.number? = none)
    (h : Failure.unshowable? value = some failure) : MetricEscapeCause value failure

variable {failure : Failure} {key : Text}

theorem escapes_toReal_iff {name : Text} {value : Value} :
    failure.Escapes (toReal key name value) ↔ MetricEscapeCause value failure := by
  have hother : value.number? = none → (failure.Escapes (.error (.ofNode value
      (.notNumeric name value) (some key)) : Except Failure Binary64) ↔
        MetricEscapeCause value failure) := by
    intro hnumber
    rw [Failure.escapes_ofNode_iff]
    constructor
    · exact .unshowable hnumber
    · intro h
      cases h with
      | unbounded _ => contradiction
      | unshowable _ h => exact h
  cases value with
  | number n =>
    rw [toReal]
    cases hn : n.toBinary64? with
    | some x =>
      simp only [Failure.not_escapes_ok, false_iff]
      intro h
      cases h with
      | unbounded hnone => rw [hn] at hnone; contradiction
      | unshowable hnumber _ => contradiction
    | none =>
      constructor
      · rintro ⟨hfailure, _⟩
        rw [← Except.error.inj hfailure]
        exact .unbounded hn
      · intro h
        cases h with
        | unbounded _ => exact ⟨rfl, rfl⟩
        | unshowable hnumber _ => contradiction
  | text text =>
    -- A text is shown as it is, so that refusing one is always the complaint.
    have hnone : ¬MetricEscapeCause (.text text) failure := by
      intro h
      cases h with
      | unshowable _ h => contradiction
    rw [toReal]
    cases Numeral.readReal text.shownChars with
    | some x => simp [hnone]
    | none => simp [hnone]
  | _ => exact hother rfl

theorem escapes_readMetric_iff {entry : Text × Value} :
    failure.Escapes (readMetric key entry) ↔
      (∃ metric, Metric.ofSpelling? entry.1 = some metric) ∧ MetricEscapeCause entry.2 failure := by
  rw [readMetric]
  cases Metric.ofSpelling? entry.1 with
  | none => simp
  | some metric => simp [escapes_toReal_iff]

/-- All metrics that are read are reals. -/
theorem exists_real_of_readMetrics {entries : List (Text × Value)}
    {metrics : OrderedMap Metric Value} (h : readMetrics key entries = .ok metrics) :
    ∀ entry ∈ metrics.entries, ∃ x, entry.2 = .number (.real x) := by
  intro entry hentry
  unfold readMetrics at h
  split at h
  · rw [← Except.ok.inj h] at hentry
    exact absurd hentry List.not_mem_nil
  · obtain ⟨results, hresults, rfl⟩ := map_eq_ok_iff.1 h
    obtain ⟨given, _, hread⟩ :=
      exists_of_mem_mapOk hresults (OrderedMap.mem_of_mem_entries_ofList hentry)
    obtain ⟨_, x, _, _, rfl⟩ := readMetric_eq_ok_iff.1 hread
    exact ⟨x, rfl⟩
  · contradiction

/-- Checking reals lets no failure out. -/
theorem not_escapes_ofMetrics {id : NodeId} {metrics : OrderedMap Metric Value}
    {parent : Option NodeId} (h : ∀ entry ∈ metrics.entries, ∃ x, entry.2 = .number (.real x)) :
    ¬failure.Escapes (ofMetrics id metrics parent) := by
  rintro ⟨hfailure, hno⟩
  obtain ⟨entry, hentry, hrefused⟩ := exists_of_mapOk_error (ofMetrics_eq_error_iff.1 hfailure)
  obtain ⟨x, hx⟩ := h entry hentry
  have hcheck := map_eq_error_iff.1 hrefused
  rw [hx, checkMetric] at hcheck
  simp only [Value.number?, Number.isFinite?, Number.toBinary64?, Option.map_some] at hcheck
  split at hcheck
  · contradiction
  · rw [← Except.error.inj hcheck] at hno
    contradiction

/-! ## Dumps -/

/-- Why a failure escapes from reading a dump: it is no table and cannot be shown, or it is one and
what is read up to there is in order, and then the failure escapes from the reference of the node,
from the first metric that is refused, or from the reference of the parent. -/
inductive EscapeCause : Value → Failure → Prop
  | reference {value : Value} {failure : Failure} (hother : ∀ entries, value ≠ .table entries)
    (h : Failure.unshowable? value = some failure) : EscapeCause value failure
  | id {entries : List (Text × Value)} {failure : Failure}
    (h : NodeId.EscapeCause entries failure) : EscapeCause (.table entries) failure
  | metric {entries metrics before after : List (Text × Value)} {entry : Text × Value} {id : NodeId}
    {metric : Metric} {failure : Failure} (hid : NodeId.ofEntries entries = .ok id)
    (hmetrics : Value.field? "metrics" entries = some (.table metrics))
    (hsplit : metrics = before ++ entry :: after)
    (hbefore : ∀ other ∈ before, ∃ result, readMetric id.key other = .ok result)
    (hmetric : Metric.ofSpelling? entry.1 = some metric)
    (h : MetricEscapeCause entry.2 failure) : EscapeCause (.table entries) failure
  | parent {entries parent : List (Text × Value)} {id : NodeId} {metrics : OrderedMap Metric Value}
    {failure : Failure} (hid : NodeId.ofEntries entries = .ok id)
    (hmetrics : readMetrics id.key entries = .ok metrics)
    (hparent : Value.field? "parent" entries = some (.table parent))
    (h : NodeId.EscapeCause parent failure) : EscapeCause (.table entries) failure

theorem escapes_readMetrics_iff {entries : List (Text × Value)} :
    failure.Escapes (readMetrics key entries) ↔ ∃ metrics before entry after metric,
      Value.field? "metrics" entries = some (.table metrics) ∧
        metrics = before ++ entry :: after ∧
        (∀ other ∈ before, ∃ result, readMetric key other = .ok result) ∧
        Metric.ofSpelling? entry.1 = some metric ∧ MetricEscapeCause entry.2 failure := by
  unfold readMetrics
  split
  · rename_i hnone
    simp [hnone]
  · rename_i metrics hmetrics
    simp only [Failure.escapes_map_iff, Failure.escapes_mapOk_iff, escapes_readMetric_iff, hmetrics]
    constructor
    · rintro ⟨before, entry, after, hsplit, hbefore, ⟨metric, hmetric⟩, h⟩
      exact ⟨metrics, before, entry, after, metric, rfl, hsplit, hbefore, hmetric, h⟩
    · rintro ⟨_, before, entry, after, metric, ⟨⟩, hsplit, hbefore, hmetric, h⟩
      exact ⟨before, entry, after, hsplit, hbefore, ⟨metric, hmetric⟩, h⟩
  · rename_i other hother hmetrics
    simp only [Failure.not_escapes_node, hmetrics, false_iff]
    rintro ⟨metrics, _, _, _, _, htable, _⟩
    exact hother metrics (Option.some.inj htable)

theorem escapes_readParent_iff {entries : List (Text × Value)} :
    failure.Escapes (readParent key entries) ↔ ∃ parent,
      Value.field? "parent" entries = some (.table parent) ∧ NodeId.EscapeCause parent failure := by
  unfold readParent
  split
  · rename_i hnone
    simp [hnone]
  · rename_i parent hparent
    simp [hparent, NodeId.escapes_ofEntries_iff]
  · rename_i other hother hparent
    simp only [Failure.not_escapes_node, hparent, false_iff]
    rintro ⟨parent, htable, _⟩
    exact hother parent (Option.some.inj htable)

/-- The steps of reading a table lets a failure out with. -/
theorem escapes_ofTable_iff {entries : List (Text × Value)} :
    failure.Escapes (ofValue (.table entries)) ↔
      failure.Escapes (NodeId.ofEntries entries) ∨ ∃ id, NodeId.ofEntries entries = .ok id ∧
        (failure.Escapes (readMetrics id.key entries) ∨
          ∃ metrics, readMetrics id.key entries = .ok metrics ∧
            failure.Escapes (readParent id.key entries)) := by
  have hsteps : ofValue (.table entries) = (NodeId.ofEntries entries).bind fun id =>
      (readMetrics id.key entries).bind fun metrics =>
        (readParent id.key entries).bind fun parent => ofMetrics id metrics parent := rfl
  rw [hsteps, Failure.escapes_bind_iff]
  simp only [Failure.escapes_bind_iff]
  constructor
  · rintro (hid | ⟨id, hid, hmetrics | ⟨metrics, hmetrics, hparent | ⟨parent, _, hchecked⟩⟩⟩)
    · exact .inl hid
    · exact .inr ⟨id, hid, .inl hmetrics⟩
    · exact .inr ⟨id, hid, .inr ⟨metrics, hmetrics, hparent⟩⟩
    · exact absurd hchecked (not_escapes_ofMetrics (exists_real_of_readMetrics hmetrics))
  · rintro (hid | ⟨id, hid, hmetrics | ⟨metrics, hmetrics, hparent⟩⟩)
    · exact .inl hid
    · exact .inr ⟨id, hid, .inl hmetrics⟩
    · exact .inr ⟨id, hid, .inr ⟨metrics, hmetrics, .inl hparent⟩⟩

/-- A failure escapes from reading a dump exactly if there is a cause for it. -/
theorem escapes_ofValue_iff {value : Value} :
    failure.Escapes (ofValue value) ↔ EscapeCause value failure := by
  have hother : (∀ entries, value ≠ .table entries) →
      (failure.Escapes (.error (.ofNode value (.notAnObject value) none) :
        Except Failure SourceNode) ↔ EscapeCause value failure) := by
    intro hother
    rw [Failure.escapes_ofNode_iff]
    constructor
    · exact .reference hother
    · intro h
      cases h with
      | reference _ h => exact h
      | id _ => exact absurd rfl (hother _)
      | metric _ _ _ _ _ _ => exact absurd rfl (hother _)
      | parent _ _ _ _ => exact absurd rfl (hother _)
  cases value with
  | table entries =>
    rw [escapes_ofTable_iff, NodeId.escapes_ofEntries_iff]
    simp only [escapes_readMetrics_iff, escapes_readParent_iff]
    constructor
    · rintro (hid | ⟨id, hid, ⟨_, _, _, _, _, hmetrics, hsplit, hbefore, hmetric, h⟩ |
        ⟨_, hmetrics, _, hparent, h⟩⟩)
      · exact .id hid
      · exact .metric hid hmetrics hsplit hbefore hmetric h
      · exact .parent hid hmetrics hparent h
    · intro h
      cases h with
      | reference hother _ => exact absurd rfl (hother entries)
      | id h => exact .inl h
      | metric hid hmetrics hsplit hbefore hmetric h =>
        exact .inr ⟨_, hid, .inl ⟨_, _, _, _, _, hmetrics, hsplit, hbefore, hmetric, h⟩⟩
      | parent hid hmetrics hparent h =>
        exact .inr ⟨_, hid, .inr ⟨_, hmetrics, _, hparent, h⟩⟩
  | _ => exact hother nofun

/-! ## The promise -/

/-- A finite real that is not negative. -/
def IsMeasurement (n : Number) : Prop :=
  ∃ x : Binary64, n = .real x ∧ x.isFinite = true ∧ (Number.int 0).le n = true

/-- An outcome of reading a dump is promised: a node whose metrics are all finite reals that are not
negative, or the complaint that the description of a node is malformed. -/
def IsPromised (outcome : Except Failure SourceNode) : Prop :=
  (∃ node, outcome = .ok node ∧ ∀ entry ∈ node.metrics.entries, IsMeasurement entry.2) ∨
    ∃ failure, outcome = .error failure ∧ failure.isMalformedNode = true

/-- A real that passes as the value of a metric is finite and not negative. -/
theorem isMeasurement_of_isMetricValue {x : Binary64} (h : isMetricValue (.real x) = true) :
    IsMeasurement (.real x) := by
  rw [isMetricValue, Bool.and_eq_true] at h
  obtain ⟨hfinite, hnonneg⟩ := h
  have hx : x.isFinite = true := Option.some.inj (eq_of_beq hfinite)
  refine ⟨x, rfl, hx, ?_⟩
  cases x with
  | finite negative units hunits =>
    rw [Number.lt, Number.extent?, Number.extent?] at hnonneg
    rw [Number.le, Number.extent?, Number.extent?]
    simpa using hnonneg
  | _ => contradiction

/-- The metrics of a node that is read are finite reals that are not negative. -/
theorem isMeasurement_of_ofValue {value : Value} {node : SourceNode}
    (h : ofValue value = .ok node) : ∀ entry ∈ node.metrics.entries, IsMeasurement entry.2 := by
  intro entry hentry
  cases value with
  | table entries =>
    obtain ⟨id, _, h⟩ := bind_eq_ok_iff.1 h
    obtain ⟨metrics, hmetrics, h⟩ := bind_eq_ok_iff.1 h
    obtain ⟨parent, _, h⟩ := bind_eq_ok_iff.1 h
    obtain ⟨given, hgiven, hchecked⟩ := exists_of_mem_mapOk (ofMetrics_eq_ok h).2.2 hentry
    obtain ⟨x, hx⟩ := exists_real_of_readMetrics hmetrics given hgiven
    have hvalid := node.valid entry.2 (List.mem_map_of_mem hentry)
    obtain ⟨n, hn, rfl⟩ := map_eq_ok_iff.1 hchecked
    rw [hx] at hn
    have hreal : Number.real x = n := Value.number.inj (eq_number_of_checkMetric hn)
    subst hreal
    exact isMeasurement_of_isMetricValue hvalid
  | _ => contradiction

/-- Where there is a cause for a failure to escape the promise is not kept. -/
theorem not_isPromised_of_escapeCause {value : Value} {failure : Failure}
    (h : EscapeCause value failure) : ¬IsPromised (ofValue value) := by
  obtain ⟨houtcome, hno⟩ := escapes_ofValue_iff.2 h
  rw [houtcome]
  rintro (⟨_, hok, _⟩ | ⟨other, hother, hmalformed⟩)
  · contradiction
  · rw [← Except.error.inj hother, hno] at hmalformed
    contradiction

/-- Reading a dump keeps its promise exactly if there is no cause for a failure to escape, and a
failure escapes exactly if there is a cause for it. -/
theorem ofValue_keeps_promise_iff (value : Value) :
    (IsPromised (ofValue value) ↔ ∀ failure, ¬EscapeCause value failure) ∧
      ∀ failure, failure.Escapes (ofValue value) ↔ EscapeCause value failure := by
  refine ⟨⟨fun h failure hcause => not_isPromised_of_escapeCause hcause h, fun hnone => ?_⟩,
    fun failure => escapes_ofValue_iff⟩
  cases houtcome : ofValue value with
  | ok node => exact .inl ⟨node, rfl, isMeasurement_of_ofValue houtcome⟩
  | error failure =>
    refine .inr ⟨failure, rfl, ?_⟩
    rw [← Bool.not_eq_false]
    exact fun hno => hnone failure (escapes_ofValue_iff.1 ⟨houtcome, hno⟩)

/-- The entries of a dump with one metric. -/
def sampleEntries (n : Number) : List (Text × Value) :=
  [("kind", .text "file"), ("key", .text "a.c"), ("metrics", .table [("lines", .number n)])]

/-- A metric beyond all reals lets out that it is too large. -/
theorem escapeCause_sampleEntries {n : Number} (h : n.toBinary64? = none) :
    EscapeCause (.table (sampleEntries n)) (.overflow .real) := by
  have hid : NodeId.ofEntries (sampleEntries n) = .ok ⟨.file, "a.c"⟩ := rfl
  have hmetric : Metric.ofSpelling? "lines" = some .lines := rfl
  have hbefore : ∀ other ∈ ([] : List (Text × Value)),
      ∃ result, readMetric "a.c" other = .ok result := fun _ hmem => absurd hmem List.not_mem_nil
  exact .metric hid rfl rfl hbefore hmetric (.unbounded h)

/-- Reading a dump with a metric of 401 digits fails with that instead of the complaint. -/
theorem ofValue_breaks_promise :
    ofValue (.table (sampleEntries (.int (10 ^ 400)))) = .error (.overflow .real) ∧
      ¬IsPromised (ofValue (.table (sampleEntries (.int (10 ^ 400))))) := by
  have hunbounded : (Number.int (10 ^ 400)).toBinary64? = none := by decide +kernel
  have hcause := escapeCause_sampleEntries hunbounded
  exact ⟨(escapes_ofValue_iff.2 hcause).1, not_isPromised_of_escapeCause hcause⟩

end SourceNode

end SourceGauge
