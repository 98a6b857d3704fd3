/-!
# Ordered maps

Finite maps that keep their entries in the order in which the keys first came. Putting a key
that is present replaces its value and keeps its place. The keys of a map are distinct by
construction.
-/

namespace SourceGauge

variable {α β γ : Type}

/-- Put an entry into a list of entries: in place of the entry with that key, or at the end. -/
def putEntry [DecidableEq α] (key : α) (value : β) : List (α × β) → List (α × β)
  | [] => [(key, value)]
  | (k, v) :: rest => if k = key then (k, value) :: rest else (k, v) :: putEntry key value rest

/-- Putting an entry adds its key at the end unless it is present. -/
theorem keys_putEntry [DecidableEq α] (key : α) (value : β) (entries : List (α × β)) :
    (putEntry key value entries).map Prod.fst =
      if key ∈ entries.map Prod.fst then entries.map Prod.fst
      else entries.map Prod.fst ++ [key] := by
  induction entries with
  | nil => simp [putEntry]
  | cons entry rest ih =>
    obtain ⟨k, v⟩ := entry
    by_cases hk : k = key
    · simp [putEntry, hk]
    · have hk' : key ≠ k := fun h => hk h.symm
      simp only [putEntry, if_neg hk, List.map_cons, ih, List.mem_cons, hk', false_or]
      split <;> simp

/-- Putting an entry keeps the keys distinct. -/
theorem nodup_putEntry [DecidableEq α] (key : α) (value : β) {entries : List (α × β)}
    (h : (entries.map Prod.fst).Nodup) : ((putEntry key value entries).map Prod.fst).Nodup := by
  rw [keys_putEntry]
  split
  · exact h
  · rename_i hkey
    refine List.nodup_append.2 ⟨h, by simp, ?_⟩
    intro a ha b hb hab
    rw [List.mem_singleton] at hb
    exact hkey (hb ▸ hab ▸ ha)

/-- An entry with a new key comes at the end. -/
theorem putEntry_of_not_mem [DecidableEq α] {key : α} (value : β) {entries : List (α × β)}
    (h : key ∉ entries.map Prod.fst) : putEntry key value entries = entries ++ [(key, value)] := by
  induction entries with
  | nil => rfl
  | cons entry rest ih =>
    obtain ⟨k, v⟩ := entry
    rw [List.map_cons, List.mem_cons, not_or] at h
    have hk : ¬ k = key := fun heq => h.1 heq.symm
    rw [putEntry, if_neg hk, ih h.2, List.cons_append]

/-- Putting an entry adds no other. -/
theorem mem_of_mem_putEntry [DecidableEq α] {key : α} {value : β} {entries : List (α × β)}
    {entry : α × β} (h : entry ∈ putEntry key value entries) :
    entry = (key, value) ∨ entry ∈ entries := by
  induction entries with
  | nil => exact .inl (List.mem_singleton.1 h)
  | cons first rest ih =>
    obtain ⟨k, v⟩ := first
    rw [putEntry] at h
    split at h
    · rename_i hk
      rcases List.mem_cons.1 h with rfl | hrest
      · exact .inl (by rw [hk])
      · exact .inr (List.mem_cons_of_mem _ hrest)
    · rcases List.mem_cons.1 h with rfl | hrest
      · exact .inr List.mem_cons_self
      · exact (ih hrest).imp_right (List.mem_cons_of_mem _)

/-- A finite map whose entries are in the order of first insertion. -/
structure OrderedMap (α β : Type) where
  entries : List (α × β)
  nodup : (entries.map Prod.fst).Nodup

namespace OrderedMap

/-- The map without entries. -/
def empty : OrderedMap α β := ⟨[], by simp⟩

/-- Put an entry, replacing the value of a key that is present. -/
def put [DecidableEq α] (map : OrderedMap α β) (key : α) (value : β) : OrderedMap α β :=
  ⟨putEntry key value map.entries, nodup_putEntry key value map.nodup⟩

/-- The map of a list of entries put one after the other. -/
def ofList [DecidableEq α] (entries : List (α × β)) : OrderedMap α β :=
  entries.foldl (fun map entry => map.put entry.1 entry.2) empty

/-- The keys in order of first insertion. -/
def keys (map : OrderedMap α β) : List α := map.entries.map Prod.fst

/-- The values in the order of their keys. -/
def values (map : OrderedMap α β) : List β := map.entries.map Prod.snd

/-- The number of entries. -/
def size (map : OrderedMap α β) : Nat := map.entries.length

/-- The value of a key. -/
def get? [DecidableEq α] (map : OrderedMap α β) (key : α) : Option β :=
  (map.entries.find? fun entry => entry.1 = key).map Prod.snd

/-- Whether a key is present. -/
def contains [DecidableEq α] (map : OrderedMap α β) (key : α) : Bool := (map.get? key).isSome

/-- Apply a function to every value. -/
def mapValues (f : β → γ) (map : OrderedMap α β) : OrderedMap α γ :=
  ⟨map.entries.map fun entry => (entry.1, f entry.2), by
    simpa [List.map_map, Function.comp_def] using map.nodup⟩

/-- The function is applied to the value of each key. -/
theorem get?_mapValues [DecidableEq α] (f : β → γ) (map : OrderedMap α β) (key : α) :
    (map.mapValues f).get? key = (map.get? key).map f := by
  simp [get?, mapValues, List.find?_map, Function.comp_def]

/-- Putting a key keeps the order of the others. -/
theorem keys_put [DecidableEq α] (map : OrderedMap α β) (key : α) (value : β) :
    (map.put key value).keys = if key ∈ map.keys then map.keys else map.keys ++ [key] :=
  keys_putEntry key value map.entries

/-- A key that was put last has the value put with it. -/
theorem get?_put_self [DecidableEq α] (map : OrderedMap α β) (key : α) (value : β) :
    (map.put key value).get? key = some value := by
  unfold put get?
  dsimp only
  induction map.entries with
  | nil => simp [putEntry]
  | cons entry rest ih =>
    obtain ⟨k, v⟩ := entry
    by_cases hk : k = key
    · simp [putEntry, hk]
    · simpa [putEntry, hk] using ih

/-- Putting a key does not change the value of another. -/
theorem get?_put_of_ne [DecidableEq α] (map : OrderedMap α β) {key other : α} (value : β)
    (h : other ≠ key) : (map.put key value).get? other = map.get? other := by
  unfold put get?
  dsimp only
  induction map.entries with
  | nil => simp [putEntry, Ne.symm h]
  | cons entry rest ih =>
    obtain ⟨k, v⟩ := entry
    by_cases hk : k = key
    · have hko : k ≠ other := fun h' => h (h' ▸ hk)
      simp [putEntry, hk, Ne.symm h]
    · by_cases hko : k = other
      · simp [putEntry, hko, h]
      · simpa [putEntry, hk, hko] using ih

/-- Entries that are put one after the other keep their places, if all keys are new. -/
theorem entries_foldl_put [DecidableEq α] {map : OrderedMap α β} {entries : List (α × β)}
    (h : ((map.entries ++ entries).map Prod.fst).Nodup) :
    (entries.foldl (fun map entry => map.put entry.1 entry.2) map).entries =
      map.entries ++ entries := by
  induction entries generalizing map with
  | nil => simp
  | cons entry rest ih =>
    have hnew : entry.1 ∉ map.entries.map Prod.fst := by
      rw [List.map_append, List.nodup_append] at h
      exact fun hmem => h.2.2 _ hmem _ (by simp) rfl
    have hput : (map.put entry.1 entry.2).entries = map.entries ++ [entry] :=
      putEntry_of_not_mem entry.2 hnew
    rw [List.append_cons, ← hput] at h
    rw [List.foldl_cons, ih h, hput, List.append_assoc, List.singleton_append]

/-- The map of a list of entries has no others. -/
theorem mem_of_mem_entries_ofList [DecidableEq α] {entries : List (α × β)} {entry : α × β}
    (h : entry ∈ (ofList entries).entries) : entry ∈ entries := by
  have hput : ∀ (more : List (α × β)) (map : OrderedMap α β),
      entry ∈ (more.foldl (fun map entry => map.put entry.1 entry.2) map).entries →
        entry ∈ map.entries ∨ entry ∈ more := by
    intro more
    induction more with
    | nil => exact fun _ hmem => .inl hmem
    | cons first rest ih =>
      intro map hmem
      rcases ih (map.put first.1 first.2) hmem with hmap | hrest
      · rcases mem_of_mem_putEntry hmap with rfl | hold
        · exact .inr List.mem_cons_self
        · exact .inl hold
      · exact .inr (List.mem_cons_of_mem _ hrest)
  exact (hput entries empty h).resolve_left List.not_mem_nil

/-- The map of a list of entries with distinct keys has those entries. -/
theorem entries_ofList [DecidableEq α] {entries : List (α × β)}
    (h : (entries.map Prod.fst).Nodup) : (ofList entries).entries = entries :=
  entries_foldl_put h

/-- A map is the map of its entries. -/
theorem ofList_entries [DecidableEq α] (map : OrderedMap α β) : ofList map.entries = map := by
  have hentries := entries_ofList map.nodup
  obtain ⟨entries, nodup⟩ := map
  dsimp only at hentries ⊢
  cases hmap : ofList entries with
  | mk found distinct =>
    rw [hmap] at hentries
    dsimp only at hentries
    subst hentries
    rfl

/-- The value of an entry is found under its key. -/
theorem get?_of_mem_entries [DecidableEq α] {map : OrderedMap α β} {key : α} {value : β}
    (h : (key, value) ∈ map.entries) : map.get? key = some value := by
  obtain ⟨entries, nodup⟩ := map
  unfold get?
  dsimp only at h ⊢
  induction entries with
  | nil => simp at h
  | cons entry rest ih =>
    rw [List.map_cons, List.nodup_cons] at nodup
    by_cases hkey : entry.1 = key
    · rcases List.mem_cons.1 h with rfl | hrest
      · simp
      · exact absurd (hkey ▸ List.mem_map_of_mem hrest) nodup.1
    · rcases List.mem_cons.1 h with rfl | hrest
      · exact absurd rfl hkey
      · simpa [hkey] using ih nodup.2 hrest

/-- What is found under a key is a value of the map. -/
theorem mem_values_of_get? [DecidableEq α] {map : OrderedMap α β} {key : α} {value : β}
    (h : map.get? key = some value) : value ∈ map.values := by
  obtain ⟨entry, hentry, rfl⟩ := Option.map_eq_some_iff.1 h
  exact List.mem_map_of_mem (List.mem_of_find?_eq_some hentry)

/-- What has a value is a key of the map. -/
theorem mem_keys_of_get? [DecidableEq α] {map : OrderedMap α β} {key : α} {value : β}
    (h : map.get? key = some value) : key ∈ map.keys := by
  obtain ⟨entry, hentry, _⟩ := Option.map_eq_some_iff.1 h
  have hkey : entry.1 = key := by simpa using List.find?_some hentry
  exact hkey ▸ List.mem_map_of_mem (List.mem_of_find?_eq_some hentry)

/-- A key has a value exactly if it is one of the map. -/
theorem isSome_get?_iff [DecidableEq α] {map : OrderedMap α β} {key : α} :
    (map.get? key).isSome = true ↔ key ∈ map.keys := by
  constructor
  · intro h
    obtain ⟨value, hvalue⟩ := Option.isSome_iff_exists.1 h
    exact mem_keys_of_get? hvalue
  · intro h
    obtain ⟨entry, hentry, rfl⟩ := List.mem_map.1 h
    rw [get?_of_mem_entries hentry]
    rfl

end OrderedMap

end SourceGauge
