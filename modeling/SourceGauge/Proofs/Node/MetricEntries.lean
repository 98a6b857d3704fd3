import Mathlib.Data.List.Nodup
import Mathlib.Data.List.Perm.Subperm
import SourceGauge.Node.Dump

/-!
# What a node keeps of the metrics of its dump

The metrics of a dump are read entry by entry, and an entry that cannot be read is refused. Two
entries whose names spell the same metric meet, though: the last one is kept, and the others are
passed over without a complaint. So all entries are kept exactly if those that meet have the same
value, and a node has as many metrics as its dump has entries exactly if no two of them meet. An
entry that is passed over may even have a value that no metric can have.
-/

namespace SourceGauge

/-- A list with an item that has a property has a last one with it. -/
theorem exists_last {α : Type} {P : α → Prop} {items : List α} (h : ∃ item ∈ items, P item) :
    ∃ before last after, items = before ++ last :: after ∧ P last ∧ ∀ later ∈ after, ¬P later := by
  induction items with
  | nil =>
    obtain ⟨_, hitem, _⟩ := h
    exact absurd hitem List.not_mem_nil
  | cons first rest ih =>
    by_cases hrest : ∃ item ∈ rest, P item
    · obtain ⟨before, last, after, rfl, hlast, hlater⟩ := ih hrest
      exact ⟨first :: before, last, after, rfl, hlast, hlater⟩
    · obtain ⟨item, hitem, hp⟩ := h
      obtain rfl := (List.mem_cons.1 hitem).resolve_right fun hmem => hrest ⟨item, hmem, hp⟩
      exact ⟨[], item, rest, rfl, hp, fun later hlater hp' => hrest ⟨later, hlater, hp'⟩⟩

/-- An outcome that is a success is one of something. -/
theorem exists_of_isOk {ε α : Type} {outcome : Except ε α} (h : outcome.isOk = true) :
    ∃ value, outcome = .ok value := by
  cases outcome with
  | ok value => exact ⟨value, rfl⟩
  | error failure => contradiction

namespace OrderedMap

variable {α β : Type} [DecidableEq α]

/-- Putting other keys does not change the value of a key. -/
theorem get?_foldl_put_of_not_mem {map : OrderedMap α β} {entries : List (α × β)} {key : α}
    (h : key ∉ entries.map Prod.fst) :
    (entries.foldl (fun map entry => map.put entry.1 entry.2) map).get? key = map.get? key := by
  induction entries generalizing map with
  | nil => rfl
  | cons entry rest ih =>
    rw [List.map_cons, List.mem_cons, not_or] at h
    rw [List.foldl_cons, ih h.2, get?_put_of_ne map entry.2 h.1]

/-- A key has the value of the last entry that was put under it. -/
theorem get?_ofList_of_last {before after : List (α × β)} {key : α} {value : β}
    (h : key ∉ after.map Prod.fst) :
    (ofList (before ++ (key, value) :: after)).get? key = some value := by
  rw [ofList, List.foldl_append, List.foldl_cons, get?_foldl_put_of_not_mem h, get?_put_self]

/-- A map has as many entries as were put one after the other exactly if no key was repeated. -/
theorem size_ofList_eq_length_iff {entries : List (α × β)} :
    (ofList entries).size = entries.length ↔ (entries.map Prod.fst).Nodup := by
  constructor
  · intro h
    have hsubset : (ofList entries).keys ⊆ entries.map Prod.fst := by
      intro key hkey
      obtain ⟨entry, hentry, rfl⟩ := List.mem_map.1 hkey
      exact List.mem_map_of_mem (mem_of_mem_entries_ofList hentry)
    have hlength : (entries.map Prod.fst).length ≤ (ofList entries).keys.length := by
      rw [List.length_map, keys, List.length_map]
      exact Nat.le_of_eq h.symm
    have hperm := (List.subperm_of_subset (ofList entries).nodup hsubset).perm_of_length_le hlength
    exact hperm.nodup (ofList entries).nodup
  · intro h
    rw [size, entries_ofList h]

end OrderedMap

namespace SourceNode

/-! ## Entries -/

/-- The entries of the metrics of a dump. -/
def metricsOf : Value → List (Text × Value)
  | .table entries =>
    match Value.field? "metrics" entries with
    | some (.table metrics) => metrics
    | _ => []
  | _ => []

/-- Two entries meet if their names spell the same metric. -/
def Meet (a b : Text × Value) : Prop := Metric.ofSpelling? a.1 = Metric.ofSpelling? b.1

instance (a b : Text × Value) : Decidable (Meet a b) :=
  inferInstanceAs (Decidable (Metric.ofSpelling? a.1 = Metric.ofSpelling? b.1))

/-- A node keeps an entry if it has the metric that the name spells, with the real that the value
stands for. -/
def Keeps (node : SourceNode) (entry : Text × Value) : Prop :=
  ∃ metric x, Metric.parse (.text entry.1) = .ok metric ∧ realOf? entry.2 = some x ∧
    node.get metric = .ok (.real x)

/-- A checked entry is the entry that was checked. -/
theorem eq_of_checkEntry {key : Text} {entry : Metric × Value} {result : Metric × Number}
    (h : checkEntry key entry = .ok result) : entry = (result.1, .number result.2) := by
  obtain ⟨n, hn, rfl⟩ := map_eq_ok_iff.1 h
  exact Prod.ext rfl (eq_number_of_checkMetric hn)

/-- The metrics of a node that was read are those of the entries of its dump, put one after the
other. -/
theorem exists_results_of_ofValue {dump : Value} {node : SourceNode}
    (h : ofValue dump = .ok node) :
    ∃ results, mapOk (readMetric node.id.key) (metricsOf dump) = .ok results ∧
      (OrderedMap.ofList results).entries = (node.metrics.mapValues Value.number).entries := by
  cases dump with
  | table entries =>
    obtain ⟨id, -, h⟩ := bind_eq_ok_iff.1 h
    obtain ⟨metrics, hmetrics, h⟩ := bind_eq_ok_iff.1 h
    obtain ⟨parent, -, h⟩ := bind_eq_ok_iff.1 h
    obtain ⟨rfl, -, hchecked⟩ := ofMetrics_eq_ok h
    have hentries : metrics.entries = (node.metrics.mapValues Value.number).entries :=
      eq_map_of_mapOk hchecked fun _ _ => eq_of_checkEntry
    rw [← hentries]
    unfold readMetrics at hmetrics
    split at hmetrics
    · rename_i hnone
      obtain rfl := Except.ok.inj hmetrics
      exact ⟨[], by simp [metricsOf, hnone, mapOk], rfl⟩
    · rename_i given hgiven
      obtain ⟨results, hresults, rfl⟩ := map_eq_ok_iff.1 hmetrics
      exact ⟨results, by simpa [metricsOf, hgiven] using hresults, rfl⟩
    · contradiction
  | _ => contradiction

/-- The last of the entries that meet is kept. -/
theorem keeps_last {dump : Value} {node : SourceNode} (h : ofValue dump = .ok node)
    {before after : List (Text × Value)} {entry : Text × Value}
    (hsplit : metricsOf dump = before ++ entry :: after)
    (hlast : ∀ later ∈ after, ¬Meet later entry) : node.Keeps entry := by
  obtain ⟨results, hresults, hentries⟩ := exists_results_of_ofValue h
  rw [hsplit, mapOk_eq_ok_iff, List.map_append, List.map_cons, eq_comm] at hresults
  obtain ⟨front, others, rfl, -, hothers⟩ := List.map_eq_append_iff.1 hresults
  obtain ⟨result, back, rfl, hresult, hback⟩ := List.map_eq_cons_iff.1 hothers
  obtain ⟨metric, x, hmetric, hx, rfl⟩ := readMetric_eq_ok_iff.1 hresult.symm
  have hnew : metric ∉ back.map Prod.fst := by
    intro hmem
    obtain ⟨other, hother, rfl⟩ := List.mem_map.1 hmem
    obtain ⟨later, hlater, hread⟩ := exists_of_mem_mapOk (mapOk_eq_ok_iff.2 hback.symm) hother
    obtain ⟨found, y, hfound, -, rfl⟩ := readMetric_eq_ok_iff.1 hread
    exact hlast later hlater (hfound.trans hmetric.symm)
  have hvalue : (node.metrics.mapValues Value.number).get? metric = some (.number (.real x)) := by
    rw [OrderedMap.get?, ← hentries]
    exact OrderedMap.get?_ofList_of_last hnew
  rw [OrderedMap.get?_mapValues, Option.map_eq_some_iff] at hvalue
  obtain ⟨n, hn, hreal⟩ := hvalue
  obtain rfl := Value.number.inj hreal
  exact ⟨metric, x, Metric.parse_text_eq_ok_iff.2 hmetric, hx, get_eq_ok_iff.2 hn⟩

/-- An entry that meets one that is kept is kept itself exactly if it has the same value. -/
theorem keeps_iff_of_meet {node : SourceNode} {entry other : Text × Value}
    (hother : node.Keeps other) (hmeet : Meet entry other) :
    node.Keeps entry ↔ realOf? entry.2 = realOf? other.2 := by
  obtain ⟨metric, x, hmetric, hx, hvalue⟩ := hother
  have hentry : Metric.parse (.text entry.1) = .ok metric :=
    Metric.parse_text_eq_ok_iff.2 (hmeet.trans (Metric.parse_text_eq_ok_iff.1 hmetric))
  constructor
  · rintro ⟨found, y, hfound, hy, hkept⟩
    obtain rfl := Except.ok.inj (hfound.symm.trans hentry)
    obtain rfl := Number.real.inj (Except.ok.inj (hkept.symm.trans hvalue))
    rw [hy, hx]
  · intro hsame
    exact ⟨metric, x, hentry, hsame.trans hx, hvalue⟩

/-- All entries are kept if entries that meet have the same value, and only then. -/
theorem keeps_all_iff {dump : Value} {node : SourceNode} (h : ofValue dump = .ok node) :
    (∀ entry ∈ metricsOf dump, node.Keeps entry) ↔
      ∀ a ∈ metricsOf dump, ∀ b ∈ metricsOf dump, Meet a b → realOf? a.2 = realOf? b.2 := by
  constructor
  · intro hkeeps a ha b hb hmeet
    exact (keeps_iff_of_meet (hkeeps b hb) hmeet).1 (hkeeps a ha)
  · intro hsame entry hentry
    obtain ⟨before, last, after, hsplit, hmeet, hlast⟩ :=
      exists_last (P := fun other => Meet other entry) ⟨entry, hentry, rfl⟩
    have hmem : last ∈ metricsOf dump := by simp [hsplit]
    have hkeeps : node.Keeps last := keeps_last h hsplit fun later hlater hmeets =>
      hlast later hlater (hmeets.trans hmeet)
    exact (keeps_iff_of_meet hkeeps hmeet.symm).2 (hsame entry hentry last hmem hmeet.symm)

/-- A node has as many metrics as its dump has entries exactly if no two of them meet. -/
theorem size_metrics_eq_length_iff {dump : Value} {node : SourceNode}
    (h : ofValue dump = .ok node) :
    node.metrics.size = (metricsOf dump).length ↔
      (metricsOf dump).Pairwise fun a b => ¬Meet a b := by
  obtain ⟨results, hresults, hentries⟩ := exists_results_of_ofValue h
  have hsize : (OrderedMap.ofList results).size = node.metrics.size := by
    rw [OrderedMap.size, hentries]
    exact List.length_map _
  have hmetrics : (metricsOf dump).map (fun entry => Metric.ofSpelling? entry.1) =
      (results.map Prod.fst).map some := by
    rw [List.map_map]
    refine map_eq_map_of_mapOk hresults fun entry result hread => ?_
    obtain ⟨metric, x, hmetric, -, rfl⟩ := readMetric_eq_ok_iff.1 hread
    exact hmetric
  calc
    node.metrics.size = (metricsOf dump).length ↔
        (OrderedMap.ofList results).size = results.length := by
      rw [hsize, length_of_mapOk hresults]
    _ ↔ (results.map Prod.fst).Nodup := OrderedMap.size_ofList_eq_length_iff
    _ ↔ ((metricsOf dump).map fun entry => Metric.ofSpelling? entry.1).Nodup := by
      rw [hmetrics, List.nodup_map_iff fun _ _ h => Option.some.inj h]
    _ ↔ (metricsOf dump).Pairwise fun a b => ¬Meet a b := List.pairwise_map

/-- Of the entries of a dump that meet the last one is kept, and an earlier one only if it has the
same value. So all entries are kept exactly if those that meet have the same value, and there are
as many metrics as entries exactly if no two meet. -/
theorem keeps_metrics_iff {dump : Value} {node : SourceNode} (h : ofValue dump = .ok node) :
    ((∀ entry ∈ metricsOf dump, node.Keeps entry) ↔
        ∀ a ∈ metricsOf dump, ∀ b ∈ metricsOf dump, Meet a b → realOf? a.2 = realOf? b.2) ∧
      (node.metrics.size = (metricsOf dump).length ↔
        (metricsOf dump).Pairwise fun a b => ¬Meet a b) ∧
      ∀ before entry after, metricsOf dump = before ++ entry :: after →
        (∀ later ∈ after, ¬Meet later entry) → node.Keeps entry ∧
          ∀ earlier ∈ before, Meet earlier entry →
            (node.Keeps earlier ↔ realOf? earlier.2 = realOf? entry.2) := by
  refine ⟨keeps_all_iff h, size_metrics_eq_length_iff h, ?_⟩
  intro before entry after hsplit hlast
  have hkeeps := keeps_last h hsplit hlast
  exact ⟨hkeeps, fun earlier _ hmeet => keeps_iff_of_meet hkeeps hmeet⟩

/-- The dump of a file with the given metrics. -/
def fileDump (metrics : List (Text × Value)) : Value :=
  .table [("kind", .text "file"), ("key", .text "a.c"), ("metrics", .table metrics)]

/-- Metrics whose names are spelled in different ways. -/
def mixedSpellings : List (Text × Value) :=
  [("linesOfCode", .number (.int 12)), ("LINES", .number (.int 20)), ("__Complexity", .text " 2.5 ")]

/-- Metrics in different spellings are all kept. -/
theorem keeps_mixedSpellings : ∃ node, ofValue (fileDump mixedSpellings) = .ok node ∧
    (∀ entry ∈ mixedSpellings, node.Keeps entry) ∧ node.metrics.size = 3 := by
  obtain ⟨node, hnode⟩ := exists_of_isOk
    (by decide +kernel : (ofValue (fileDump mixedSpellings)).isOk = true)
  obtain ⟨hall, hsize, -⟩ := keeps_metrics_iff hnode
  have hdistinct : (metricsOf (fileDump mixedSpellings)).Pairwise fun a b => ¬Meet a b := by
    decide +kernel
  have hsame : ∀ a ∈ metricsOf (fileDump mixedSpellings),
      ∀ b ∈ metricsOf (fileDump mixedSpellings), Meet a b → realOf? a.2 = realOf? b.2 := by
    decide +kernel
  exact ⟨node, hnode, hall.2 hsame, hsize.2 hdistinct⟩

/-- The number of lines under the name of the metric. -/
def smallLines (n : Number) : Text × Value := ("lines", .number n)

/-- The number of lines under the name of the metric in capitals. -/
def largeLines (n : Number) : Text × Value := ("LINES", .number n)

/-- A dump with two numbers of lines is read, and only the second one is kept. The first one is not
even looked at closely: it may be below zero. -/
theorem not_keeps_smallLines :
    (∃ node, ofValue (fileDump [smallLines (.int 1), largeLines (.int 2)]) = .ok node ∧
      ¬node.Keeps (smallLines (.int 1)) ∧ node.metrics.size ≠ 2) ∧
    ∃ node, ofValue (fileDump [smallLines (.int (-1)), largeLines (.int 2)]) = .ok node := by
  constructor
  · obtain ⟨node, hnode⟩ := exists_of_isOk (by decide +kernel :
      (ofValue (fileDump [smallLines (.int 1), largeLines (.int 2)])).isOk = true)
    have hsplit : metricsOf (fileDump [smallLines (.int 1), largeLines (.int 2)]) =
        [smallLines (.int 1)] ++ largeLines (.int 2) :: [] := rfl
    have hkept : node.Keeps (largeLines (.int 2)) := keeps_last hnode hsplit nofun
    refine ⟨node, hnode, ?_, ?_⟩
    · rw [keeps_iff_of_meet hkept (by decide +kernel)]
      decide +kernel
    · intro hsize
      exact absurd ((size_metrics_eq_length_iff hnode).1 hsize) (by decide +kernel)
  · exact exists_of_isOk (by decide +kernel)

end SourceNode

end SourceGauge
