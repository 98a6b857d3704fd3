import Mathlib.Data.List.Forall2
import Mathlib.Data.List.Nodup
import SourceGauge.Proofs.Histogram.Merging
import SourceGauge.RecordStore

/-!
# Roll-ups of a store

Records that are saved under distinct texts all stay in the store, in the order of saving, and
the histograms of tallies are rolled up into the histogram of all tallies one after the other.
Merging is exact here, so fewer than `2 ^ 63` things must have been counted altogether.
-/

namespace SourceGauge

namespace RecordStore

/-- A record that is put under a new text comes last, and so does its key. -/
theorem put_of_not_mem {store : RecordStore} {record : FileRecord} {name : Text}
    (hkey : record.key = .text name) (hnew : KeyIdentity.text name ∉ store.records.keys) :
    (store.put record).all = store.all ++ [record] ∧
      (store.put record).records.keys = store.records.keys ++ [.text name] := by
  have hentries : ∀ saved : SavedRecord, (store.records.put (.text name) saved).entries =
      store.records.entries ++ [(.text name, saved)] := fun saved => putEntry_of_not_mem saved hnew
  rw [put, identity?]
  simp only [hkey, Value.identity?]
  unfold all OrderedMap.values OrderedMap.keys
  simp only [hentries, List.map_append, List.map_cons, List.map_nil, and_self]

/-- Records that are put under new and distinct texts all come last, in their order. -/
theorem all_putAll {store : RecordStore} {records : List FileRecord} {names : List Text}
    (hkeys : records.map FileRecord.key = names.map .text)
    (hnew : (store.records.keys ++ names.map KeyIdentity.text).Nodup) :
    (store.putAll records).all = store.all ++ records := by
  induction records generalizing store names with
  | nil => simp [putAll]
  | cons record rest ih =>
    cases names with
    | nil => simp at hkeys
    | cons name others =>
      rw [List.map_cons, List.map_cons, List.cons.injEq] at hkeys
      have hfirst : KeyIdentity.text name ∉ store.records.keys := by
        rw [List.nodup_append] at hnew
        exact fun hmem => hnew.2.2 _ hmem _ (by simp) rfl
      obtain ⟨hall, hstored⟩ := put_of_not_mem hkeys.1 hfirst
      rw [List.map_cons, List.append_cons, ← hstored] at hnew
      have hrest := ih hkeys.2 hnew
      rw [hall, List.append_assoc] at hrest
      exact hrest

/-- Records with distinct texts as keys make up a store. -/
theorem all_putAll_empty {records : List FileRecord} {names : List Text}
    (hkeys : records.map FileRecord.key = names.map .text) (hnames : names.Nodup) :
    (empty.putAll records).all = records := by
  have hnew : (empty.records.keys ++ names.map KeyIdentity.text).Nodup :=
    List.Nodup.map (fun _ _ heq => KeyIdentity.text.inj heq) hnames
  simpa [all, empty, OrderedMap.empty, OrderedMap.values] using all_putAll hkeys hnew

variable {measure kind : Measure} {bounds : Bounds}

/-- Merging records onto the histogram of a tally gives the histogram of all tallies. -/
theorem mergeFrom_tallied {before : List (Number × Nat)} {parts : List (List (Number × Nat))}
    {records : List FileRecord}
    (hparts : List.Forall₂ (fun part record =>
      FileRecord.histogram record measure = .ok (.tallied kind bounds part)) parts records)
    (hsize : timesCounted (before ++ parts.flatten) < signedWordLimit) :
    mergeFrom measure (some (.tallied kind bounds before)) records =
      .ok (some (.tallied kind bounds (before ++ parts.flatten))) := by
  induction hparts generalizing before with
  | nil => simp [mergeFrom]
  | @cons part record others rest hfirst hrest ih =>
    rw [List.flatten_cons, ← List.append_assoc] at hsize
    have hstep : timesCounted (before ++ part) < signedWordLimit := by
      rw [timesCounted_append] at hsize
      omega
    rw [mergeFrom]
    simp only [hfirst, Histogram.merge_tallied kind bounds hstep, bind, ok_bind, List.flatten_cons]
    rw [← List.append_assoc]
    exact ih hsize

/-- The roll-up of records that hold tallies: there is none without records, and else it is the
histogram of all tallies. -/
theorem mergeFrom_none_tallied {parts : List (List (Number × Nat))} {records : List FileRecord}
    (hparts : List.Forall₂ (fun part record =>
      FileRecord.histogram record measure = .ok (.tallied kind bounds part)) parts records)
    (hsize : timesCounted parts.flatten < signedWordLimit) :
    mergeFrom measure none records =
      .ok (if parts = [] then none else some (.tallied kind bounds parts.flatten)) := by
  cases hparts with
  | nil => rfl
  | @cons part record others rest hfirst hrest =>
    rw [mergeFrom]
    simp only [hfirst, bind, ok_bind, pure, Except.pure, List.flatten_cons, reduceCtorEq, if_false]
    exact mergeFrom_tallied hrest hsize

end RecordStore

end SourceGauge
