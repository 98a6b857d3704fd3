import Mathlib.Data.List.Basic
import SourceGauge.Settings.Layers

/-!
# Entries put over others

What is found under a name after the entries of one source were put over those of another: the
value of the upper source if it has the name, and that of the lower one otherwise. Entries with
different names are told by their names and by what is found under each, so two lists that agree on
both are equal.
-/

namespace SourceGauge.Settings

open Value (lookup)

@[simp] theorem lookup_nil (name : Text) : lookup name [] = none := rfl

@[simp] theorem lookup_cons_self (name : Text) (value : Value) (rest : Entries) :
    lookup name ((name, value) :: rest) = some value := List.lookup_cons_self

theorem lookup_cons_of_ne {name other : Text} (h : other ≠ name) (value : Value)
    (rest : Entries) : lookup name ((other, value) :: rest) = lookup name rest := by
  rw [lookup, List.lookup_cons, beq_false_of_ne (Ne.symm h)]
  rfl

/-- A name has a value exactly if it is one of those of the entries. -/
theorem isSome_lookup_iff {name : Text} {entries : Entries} :
    (lookup name entries).isSome = true ↔ name ∈ entries.map Prod.fst := by
  induction entries with
  | nil => simp
  | cons entry rest ih =>
    obtain ⟨other, value⟩ := entry
    by_cases h : other = name
    · subst h
      simp
    · rw [lookup_cons_of_ne h, ih, List.map_cons, List.mem_cons]
      exact ⟨.inr, fun hmem => hmem.resolve_left (Ne.symm h)⟩

/-- A name that no entry has is not found. -/
theorem lookup_eq_none {name : Text} {entries : Entries} (h : name ∉ entries.map Prod.fst) :
    lookup name entries = none := by
  rw [← Option.not_isSome_iff_eq_none, isSome_lookup_iff]
  exact h

/-- A value that is found is that of an entry. -/
theorem mem_of_lookup {name : Text} {value : Value} {entries : Entries}
    (h : lookup name entries = some value) : (name, value) ∈ entries := by
  obtain ⟨before, after, rfl, _⟩ := List.lookup_eq_some_iff.1 h
  exact List.mem_append_right before List.mem_cons_self

theorem lookup_putEntry_self (name : Text) (value : Value) (entries : Entries) :
    lookup name (putEntry name value entries) = some value := by
  induction entries with
  | nil => exact lookup_cons_self name value []
  | cons entry rest ih =>
    obtain ⟨other, held⟩ := entry
    by_cases h : other = name
    · subst h
      rw [putEntry, if_pos rfl, lookup_cons_self]
    · rw [putEntry, if_neg h, lookup_cons_of_ne h, ih]

theorem lookup_putEntry_of_ne {name other : Text} (h : other ≠ name) (value : Value)
    (entries : Entries) : lookup other (putEntry name value entries) = lookup other entries := by
  induction entries with
  | nil => exact lookup_cons_of_ne (Ne.symm h) value []
  | cons entry rest ih =>
    obtain ⟨found, held⟩ := entry
    by_cases hfound : found = name
    · subst hfound
      rw [putEntry, if_pos rfl, lookup_cons_of_ne (Ne.symm h), lookup_cons_of_ne (Ne.symm h)]
    · rw [putEntry, if_neg hfound]
      by_cases hother : found = other
      · subst hother
        rw [lookup_cons_self, lookup_cons_self]
      · rw [lookup_cons_of_ne hother, lookup_cons_of_ne hother, ih]

/-- What is found after entries were put over others: the upper ones come first. -/
theorem lookup_overlay (name : Text) (lower : Entries) {upper : Entries}
    (h : (upper.map Prod.fst).Nodup) :
    lookup name (overlay lower upper) = (lookup name upper).or (lookup name lower) := by
  induction upper generalizing lower with
  | nil => rfl
  | cons entry rest ih =>
    obtain ⟨first, value⟩ := entry
    obtain ⟨hnew, hrest⟩ := List.nodup_cons.1 h
    have hnext : lookup name (overlay lower ((first, value) :: rest)) =
        (lookup name rest).or (lookup name (putEntry first value lower)) := ih _ hrest
    rw [hnext]
    by_cases hname : first = name
    · subst hname
      rw [lookup_eq_none hnew, lookup_putEntry_self, lookup_cons_self]
      rfl
    · rw [lookup_putEntry_of_ne (Ne.symm hname), lookup_cons_of_ne hname]

/-- Entries that are put over others keep the names different. -/
theorem nodup_overlay {lower : Entries} (h : (lower.map Prod.fst).Nodup) (upper : Entries) :
    ((overlay lower upper).map Prod.fst).Nodup := by
  induction upper generalizing lower with
  | nil => exact h
  | cons entry rest ih => exact ih (nodup_putEntry entry.1 entry.2 h)

/-- The names after entries were put over others are told by the names. -/
theorem keys_overlay_congr {lower other upper above : Entries}
    (hlower : lower.map Prod.fst = other.map Prod.fst)
    (hupper : upper.map Prod.fst = above.map Prod.fst) :
    (overlay lower upper).map Prod.fst = (overlay other above).map Prod.fst := by
  induction upper generalizing lower other above with
  | nil =>
    cases above with
    | nil => exact hlower
    | cons entry rest => simp at hupper
  | cons entry rest ih =>
    cases above with
    | nil => simp at hupper
    | cons another more =>
      rw [List.map_cons, List.map_cons, List.cons.injEq] at hupper
      have hput : (putEntry entry.1 entry.2 lower).map Prod.fst =
          (putEntry another.1 another.2 other).map Prod.fst := by
        rw [keys_putEntry, keys_putEntry, hlower, hupper.1]
      show (overlay (putEntry entry.1 entry.2 lower) rest).map Prod.fst =
        (overlay (putEntry another.1 another.2 other) more).map Prod.fst
      exact ih hput hupper.2

/-- Entries with different names are what is found under the names. -/
theorem entries_eq_filterMap {entries : Entries} (h : (entries.map Prod.fst).Nodup) :
    entries = (entries.map Prod.fst).filterMap fun name =>
      (lookup name entries).map fun value => (name, value) := by
  have hfound : ∀ entry ∈ entries,
      (lookup entry.1 entries).map (fun value => (entry.1, value)) = some (id entry) := by
    induction entries with
    | nil => simp
    | cons first rest ih =>
      obtain ⟨hnew, hrest⟩ := List.nodup_cons.1 h
      intro entry hentry
      rcases List.mem_cons.1 hentry with rfl | hentry
      · rw [lookup_cons_self]
        rfl
      · have hne : first.1 ≠ entry.1 := fun heq => hnew (heq ▸ List.mem_map_of_mem hentry)
        rw [lookup_cons_of_ne hne]
        exact ih hrest entry hentry
  rw [List.filterMap_map]
  exact ((List.filterMap_eq_map_iff_forall_eq_some.2 hfound).trans (List.map_id _)).symm

/-- Entries with the same names in the same order and the same values are equal. -/
theorem eq_of_lookup {entries others : Entries} (hnodup : (entries.map Prod.fst).Nodup)
    (hkeys : entries.map Prod.fst = others.map Prod.fst)
    (hvalues : ∀ name, lookup name entries = lookup name others) : entries = others := by
  calc entries = (entries.map Prod.fst).filterMap fun name =>
          (lookup name entries).map fun value => (name, value) := entries_eq_filterMap hnodup
    _ = (others.map Prod.fst).filterMap fun name =>
          (lookup name others).map fun value => (name, value) := by rw [hkeys]; simp only [hvalues]
    _ = others := (entries_eq_filterMap (hkeys ▸ hnodup)).symm

/-! ## Entries of items that may have a value -/

section Items

variable {α : Type} (key : α → Text) (value? : α → Option Value)

/-- The entries of items that have a value. -/
def entriesOf (items : List α) : Entries :=
  items.filterMap fun item => (value? item).map fun value => (key item, value)

variable {key value?}

theorem entriesOf_cons_none {item : α} (h : value? item = none) (rest : List α) :
    entriesOf key value? (item :: rest) = entriesOf key value? rest :=
  List.filterMap_cons_none (by rw [h]; rfl)

theorem entriesOf_cons_some {item : α} {value : Value} (h : value? item = some value)
    (rest : List α) : entriesOf key value? (item :: rest) =
      (key item, value) :: entriesOf key value? rest :=
  List.filterMap_cons_some (by rw [h]; rfl)

variable (key value?)

/-- The names are among those of the items, in their order. -/
theorem sublist_keys_entriesOf (items : List α) :
    ((entriesOf key value? items).map Prod.fst).Sublist (items.map key) := by
  induction items with
  | nil => exact .slnil
  | cons item rest ih =>
    cases hvalue : value? item with
    | none =>
      rw [entriesOf_cons_none hvalue]
      exact ih.cons (key item)
    | some value =>
      rw [entriesOf_cons_some hvalue]
      exact ih.cons_cons (key item)

/-- Under a name stands the value of its item, if it has one. -/
theorem lookup_entriesOf {items : List α} (h : (items.map key).Nodup) (name : Text) :
    lookup name (entriesOf key value? items) =
      (items.find? fun item => decide (key item = name)).bind value? := by
  induction items with
  | nil => rfl
  | cons item rest ih =>
    obtain ⟨hnew, hrest⟩ := List.nodup_cons.1 h
    by_cases hname : key item = name
    · rw [List.find?_cons_of_pos (by simpa using hname), Option.bind_some]
      cases hvalue : value? item with
      | none =>
        rw [entriesOf_cons_none hvalue]
        exact lookup_eq_none fun hmem =>
          hnew (hname ▸ (sublist_keys_entriesOf key value? rest).subset hmem)
      | some value =>
        rw [entriesOf_cons_some hvalue, ← hname, lookup_cons_self]
    · rw [List.find?_cons_of_neg (by simpa using hname), ← ih hrest]
      cases hvalue : value? item with
      | none =>
        rw [entriesOf_cons_none hvalue]
      | some value =>
        rw [entriesOf_cons_some hvalue, lookup_cons_of_ne hname]

end Items

/-! ## Leaving out a name -/

theorem lookup_without_self (name : Text) (entries : Entries) :
    lookup name (without name entries) = none := by
  refine lookup_eq_none fun hmem => ?_
  obtain ⟨entry, hentry, hname⟩ := List.mem_map.1 hmem
  have hother := (List.mem_filter.1 hentry).2
  simp [hname] at hother

theorem lookup_without_of_ne {name other : Text} (h : other ≠ name) (entries : Entries) :
    lookup other (without name entries) = lookup other entries := by
  induction entries with
  | nil => rfl
  | cons entry rest ih =>
    obtain ⟨found, value⟩ := entry
    by_cases hfound : found = name
    · subst hfound
      have hskip : without found ((found, value) :: rest) = without found rest := by
        simp [without]
      rw [hskip, ih, lookup_cons_of_ne (Ne.symm h)]
    · have hkeep : without name ((found, value) :: rest) =
          (found, value) :: without name rest := by
        simp [without, hfound]
      rw [hkeep]
      by_cases hother : found = other
      · subst hother
        rw [lookup_cons_self, lookup_cons_self]
      · rw [lookup_cons_of_ne hother, lookup_cons_of_ne hother, ih]

/-- The names that remain when one is left out. -/
theorem keys_without (name : Text) (entries : Entries) :
    (without name entries).map Prod.fst = (entries.map Prod.fst).filter (· != name) := by
  rw [without, List.filter_map]
  rfl

theorem nodup_without {entries : Entries} (h : (entries.map Prod.fst).Nodup) (name : Text) :
    ((without name entries).map Prod.fst).Nodup := by
  rw [keys_without]
  exact h.filter _

end SourceGauge.Settings
