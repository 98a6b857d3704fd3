import Mathlib.Data.List.Basic
import Mathlib.Data.List.Induction
import SourceGauge.RecordStore

/-!
# Which records a store holds

Records that are saved one after the other leave one record for each key: the one that was saved
last. The keys stay in the order and in the form in which they first came. So what a store holds is
told by the list of records that were saved, without a store; two lists that tell the same leave the
same store, and saving a list once more changes nothing.

Keys that are NaN are left out, since each of them is a key of its own.
-/

namespace SourceGauge

namespace OrderedMap

variable {α β : Type} [DecidableEq α]

/-- The entries are the keys with what is found under them. -/
theorem entries_eq (map : OrderedMap α β) :
    map.entries = map.keys.filterMap fun key => (map.get? key).map fun value => (key, value) := by
  have hfound : ∀ entry ∈ map.entries,
      (map.get? entry.1).map (fun value => (entry.1, value)) = some (id entry) :=
    fun entry hentry => by rw [get?_of_mem_entries hentry]; rfl
  rw [keys, List.filterMap_map]
  exact ((List.filterMap_eq_map_iff_forall_eq_some.2 hfound).trans (List.map_id _)).symm

/-- The values are what is found under the keys. -/
theorem values_eq (map : OrderedMap α β) : map.values = map.keys.filterMap map.get? := by
  have hfound : ∀ entry ∈ map.entries, map.get? entry.1 = some entry.2 :=
    fun entry hentry => get?_of_mem_entries hentry
  rw [keys, List.filterMap_map]
  exact (List.filterMap_eq_map_iff_forall_eq_some.2 hfound).symm

/-- Maps with the same keys in the same order and the same values are equal. -/
theorem eq_of_get? {map other : OrderedMap α β} (hkeys : map.keys = other.keys)
    (hvalues : ∀ key, map.get? key = other.get? key) : map = other := by
  have hentries : map.entries = other.entries := by
    rw [entries_eq map, entries_eq other, hkeys]
    simp only [hvalues]
  obtain ⟨entries, nodup⟩ := map
  obtain ⟨others, distinct⟩ := other
  congr

end OrderedMap

/-- An item that came before is no new one. -/
theorem eraseDups_concat_of_mem {α : Type} [BEq α] [LawfulBEq α] {items : List α} {item : α}
    (h : item ∈ items) : (items ++ [item]).eraseDups = items.eraseDups := by
  have hnone : [item].removeAll items = [] := by simp [List.removeAll, h]
  rw [List.eraseDups_append, hnone]
  exact List.append_nil _

/-- An item that did not come before is a new one. -/
theorem eraseDups_concat_of_not_mem {α : Type} [BEq α] [LawfulBEq α] {items : List α} {item : α}
    (h : item ∉ items) : (items ++ [item]).eraseDups = items.eraseDups ++ [item] := by
  have hnew : [item].removeAll items = [item] := by simp [List.removeAll, h]
  rw [List.eraseDups_append, hnew]
  rfl

/-- A value that can be a key and is the same key wherever it comes. -/
def Value.IsKey (value : Value) : Prop :=
  value.isHashable = true ∧ value ≠ .number (.real .nan)

/-- What such a value is as a key does not depend on its place. -/
theorem Value.IsKey.exists_identity {value : Value} (h : value.IsKey) :
    ∃ identity, ∀ place, value.identity? place = some identity := by
  obtain ⟨hhashable, hnan⟩ := h
  cases value with
  | null => exact ⟨.null, fun _ => rfl⟩
  | number n =>
    cases hextent : n.extent? with
    | some extent => exact ⟨.number extent, fun place => by simp [identity?, hextent]⟩
    | none =>
      cases n with
      | flag value => simp [Number.extent?] at hextent
      | int value => simp [Number.extent?] at hextent
      | real x =>
        cases x with
        | nan => exact absurd rfl hnan
        | infinite negative => simp [Number.extent?] at hextent
        | finite negative units hunits => simp [Number.extent?] at hextent
  | text text => exact ⟨.text text, fun _ => rfl⟩
  | list items => contradiction
  | table entries => contradiction
  | moment moment => exact ⟨.moment moment, fun _ => rfl⟩

/-- Texts are keys. -/
theorem Value.isKey_text (text : Text) : (Value.text text).IsKey := ⟨rfl, nofun⟩

namespace FileRecord

/-- What the key of a record is as a key. -/
def identity? (record : FileRecord) : Option KeyIdentity := record.key.identity? 0

/-- The different keys of records, in the order in which they first come. -/
def identities (records : List FileRecord) : List (Option KeyIdentity) :=
  (records.map identity?).eraseDups

/-- The records with a key. -/
def under (identity : Option KeyIdentity) (records : List FileRecord) : List FileRecord :=
  records.filter fun record => record.identity? = identity

/-- The different keys of records, each in the form in which it first comes. -/
def distinctKeys (records : List FileRecord) : List Value :=
  (identities records).filterMap fun identity => (under identity records).head?.map key

/-- The records that stand when records were saved one after the other: the last one of each
key. -/
def standing (records : List FileRecord) : List FileRecord :=
  (identities records).filterMap fun identity => (under identity records).getLast?

theorem under_append (identity : Option KeyIdentity) (records others : List FileRecord) :
    under identity (records ++ others) = under identity records ++ under identity others :=
  List.filter_append _ _

end FileRecord

open FileRecord

namespace RecordStore

theorem putAll_append (store : RecordStore) (records others : List FileRecord) :
    store.putAll (records ++ others) = (store.putAll records).putAll others :=
  List.foldl_append

/-- What is saved when a record is put under its key: the key as it first came, and the record. -/
theorem records_put {store : RecordStore} {record : FileRecord} {identity : KeyIdentity}
    (h : ∀ place, record.key.identity? place = some identity) :
    (store.put record).records = store.records.put identity
      ⟨((store.records.get? identity).map SavedRecord.key).getD record.key, record⟩ := by
  rw [put, saved?, RecordStore.identity?, h]
  rfl

/-- The keys of a store are the different keys of the records that were put into it. -/
theorem keys_putAll {records : List FileRecord} (hkeys : ∀ record ∈ records, record.key.IsKey) :
    (empty.putAll records).records.keys.map some = identities records := by
  induction records using List.reverseRecOn with
  | nil => rfl
  | append_singleton records record ih =>
    have hbefore := ih fun other hother => hkeys other (List.mem_append_left _ hother)
    obtain ⟨identity, hidentity⟩ := (hkeys record (by simp)).exists_identity
    have hrecord : record.identity? = some identity := hidentity 0
    have hmem : identity ∈ (empty.putAll records).records.keys ↔
        some identity ∈ records.map FileRecord.identity? := by
      rw [← List.mem_eraseDups (l := records.map FileRecord.identity?)]
      show _ ↔ some identity ∈ identities records
      rw [← hbefore]
      simp
    have hput : empty.putAll (records ++ [record]) = (empty.putAll records).put record :=
      putAll_append empty records [record]
    rw [hput, records_put hidentity, OrderedMap.keys_put, identities, List.map_append,
      List.map_singleton, hrecord]
    by_cases hpresent : some identity ∈ records.map FileRecord.identity?
    · rw [if_pos (hmem.2 hpresent), eraseDups_concat_of_mem hpresent, hbefore, identities]
    · rw [if_neg (mt hmem.1 hpresent), eraseDups_concat_of_not_mem hpresent, List.map_append,
        hbefore, identities, List.map_singleton]

/-- Under each key stand the form in which it first came and the record that was put last. -/
theorem get?_putAll {records : List FileRecord} (hkeys : ∀ record ∈ records, record.key.IsKey)
    (identity : KeyIdentity) :
    (empty.putAll records).records.get? identity =
      (under (some identity) records).head?.bind fun first =>
        (under (some identity) records).getLast?.map fun last => ⟨first.key, last⟩ := by
  induction records using List.reverseRecOn with
  | nil => rfl
  | append_singleton records record ih =>
    have hbefore := ih fun other hother => hkeys other (List.mem_append_left _ hother)
    obtain ⟨found, hfound⟩ := (hkeys record (by simp)).exists_identity
    have hrecord : record.identity? = some found := hfound 0
    have hput : empty.putAll (records ++ [record]) = (empty.putAll records).put record :=
      putAll_append empty records [record]
    rw [hput, records_put hfound, under_append]
    by_cases hsame : found = identity
    · subst hsame
      have hunder : under (some found) [record] = [record] := by simp [under, hrecord]
      rw [OrderedMap.get?_put_self, hbefore, hunder, List.getLast?_append]
      -- The first record with the key is the new one exactly if there was none before.
      cases hrecords : under (some found) records with
      | nil => rfl
      | cons first rest =>
        have hlast := List.getLast?_eq_some_getLast (List.cons_ne_nil first rest)
        rw [hlast]
        rfl
    · have hunder : under (some identity) [record] = [] := by simp [under, hrecord, hsame]
      rw [OrderedMap.get?_put_of_ne _ _ (Ne.symm hsame), hbefore, hunder, List.append_nil]

/-- What stands under a key, by parts: the form of the key and the record. -/
theorem map_get?_putAll {records : List FileRecord} (hkeys : ∀ record ∈ records, record.key.IsKey)
    (identity : KeyIdentity) :
    ((empty.putAll records).records.get? identity).map SavedRecord.key =
        (under (some identity) records).head?.map FileRecord.key ∧
      ((empty.putAll records).records.get? identity).map SavedRecord.record =
        (under (some identity) records).getLast? := by
  rw [get?_putAll hkeys]
  cases hrecords : under (some identity) records with
  | nil => exact ⟨rfl, rfl⟩
  | cons first rest =>
    rw [List.getLast?_eq_some_getLast (List.cons_ne_nil first rest)]
    exact ⟨rfl, rfl⟩

/-- The keys of a store stand in the order and in the form in which they first came. -/
theorem keys_putAll_eq {records : List FileRecord}
    (hkeys : ∀ record ∈ records, record.key.IsKey) :
    (empty.putAll records).keys = distinctKeys records := by
  rw [keys, OrderedMap.values_eq, List.map_filterMap, distinctKeys, ← keys_putAll hkeys,
    List.filterMap_map]
  exact List.filterMap_congr fun identity _ => (map_get?_putAll hkeys identity).1

/-- The records of a store are those that stand. -/
theorem all_putAll_eq {records : List FileRecord}
    (hkeys : ∀ record ∈ records, record.key.IsKey) :
    (empty.putAll records).all = standing records := by
  rw [all, OrderedMap.values_eq, List.map_filterMap, standing, ← keys_putAll hkeys,
    List.filterMap_map]
  exact List.filterMap_congr fun identity _ => (map_get?_putAll hkeys identity).2

/-- Under a key is found the record that was saved last under it. -/
theorem get_putAll {records : List FileRecord} (hkeys : ∀ record ∈ records, record.key.IsKey)
    {key : Value} (h : key.IsKey) :
    (empty.putAll records).get key =
      match (under (key.identity? 0) records).getLast? with
      | some record => .ok record
      | none => .error (.missingKey key.full) := by
  obtain ⟨identity, hidentity⟩ := h.exists_identity
  have hsaved : (empty.putAll records).saved? key =
      (empty.putAll records).records.get? identity := by
    rw [saved?, RecordStore.identity?, hidentity]
    rfl
  rw [get, hsaved, hidentity, ← (map_get?_putAll hkeys identity).2]
  cases (empty.putAll records).records.get? identity with
  | some saved => rfl
  | none =>
    have hcheck : key.checkKey = .ok () := by rw [Value.checkKey, if_pos h.1]
    show key.checkKey.bind _ = _
    rw [hcheck]
    rfl

/-- Putting the same records into a store once more changes nothing. -/
theorem putAll_putAll {records : List FileRecord} (hkeys : ∀ record ∈ records, record.key.IsKey) :
    (empty.putAll records).putAll records = empty.putAll records := by
  have hboth : ∀ record ∈ records ++ records, record.key.IsKey := fun record hrecord =>
    (List.mem_append.1 hrecord).elim (hkeys record) (hkeys record)
  have hidentities : identities (records ++ records) = identities records := by
    have hnone : (records.map FileRecord.identity?).removeAll
        (records.map FileRecord.identity?) = [] := by
      rw [List.removeAll, List.filter_eq_nil_iff]
      intro identity hidentity
      simp [hidentity]
    rw [identities, List.map_append, List.eraseDups_append, hnone]
    exact List.append_nil _
  have hmaps : (empty.putAll (records ++ records)).records = (empty.putAll records).records := by
    refine OrderedMap.eq_of_get? ?_ fun identity => ?_
    · have hsome := (keys_putAll hboth).trans (hidentities.trans (keys_putAll hkeys).symm)
      exact (List.map_injective_iff.2 fun _ _ => Option.some.inj) hsome
    · rw [get?_putAll hboth, get?_putAll hkeys, under_append, List.head?_append,
        List.getLast?_append, Option.or_self, Option.or_self]
  rw [← putAll_append]
  cases hstore : empty.putAll (records ++ records)
  cases hother : empty.putAll records
  rw [hstore, hother] at hmaps
  exact congrArg RecordStore.mk hmaps

end RecordStore

end SourceGauge
