import SourceGauge.Outcome
import SourceGauge.Toml.Reader

/-!
# Names in settings documents

The entries of a document that is read have different names: whatever a statement does to them, it
puts entries under a name at the top, and a name that is there already keeps its place.

Tables inside a document are not looked at here.
-/

namespace SourceGauge.Toml

/-- Entries with different names. -/
def Distinct (entries : Entries) : Prop := (entries.map Prod.fst).Nodup

/-- A change that keeps names different. -/
def KeepsDistinct (change : Entries → Option Entries) : Prop :=
  ∀ entries changed, Distinct entries → change entries = some changed → Distinct changed

/-- Changing a table below the top changes one entry at the top. -/
theorem keepsDistinct_modifyAt {throughLists : Bool} {change : Entries → Option Entries}
    (h : KeepsDistinct change) (key : Key) :
    KeepsDistinct (modifyAt throughLists change key) := by
  intro entries changed hentries hchanged
  cases key with
  | nil => exact h entries changed hentries hchanged
  | cons part rest =>
    have hput : ∀ value, Distinct (putEntry part value entries) := fun value =>
      nodup_putEntry part value hentries
    unfold modifyAt at hchanged
    split at hchanged
    · obtain ⟨inner, _, rfl⟩ := Option.map_eq_some_iff.1 hchanged
      exact hput _
    · obtain ⟨inner, _, rfl⟩ := Option.map_eq_some_iff.1 hchanged
      exact hput _
    · split at hchanged
      · split at hchanged
        · obtain ⟨inner, _, rfl⟩ := Option.map_eq_some_iff.1 hchanged
          exact hput _
        · contradiction
      · contradiction
    · contradiction

/-- Adding an entry keeps names different. -/
theorem keepsDistinct_addNew (name : Text) (value : Value) : KeepsDistinct (addNew name value) := by
  intro entries changed hentries hchanged
  unfold addNew at hchanged
  split at hchanged
  · contradiction
  · obtain rfl := Option.some.inj hchanged
    exact nodup_putEntry name value hentries

/-- Appending a table keeps names different. -/
theorem keepsDistinct_appendTable (name : Text) : KeepsDistinct (appendTable name) := by
  intro entries changed hentries hchanged
  unfold appendTable at hchanged
  split at hchanged
  · obtain rfl := Option.some.inj hchanged
    exact nodup_putEntry name _ hentries
  · contradiction
  · obtain rfl := Option.some.inj hchanged
    exact nodup_putEntry name _ hentries

variable {draft next : Draft}

theorem distinct_of_addPair {key : Key} {value : Value} (hdraft : Distinct draft.entries)
    (h : draft.addPair key value = .ok next) : Distinct next.entries := by
  unfold Draft.addPair at h
  dsimp only at h
  split at h
  · contradiction
  · split at h
    · contradiction
    · split at h
      · contradiction
      · rename_i hchanged
        obtain rfl := Except.ok.inj h
        exact keepsDistinct_modifyAt (keepsDistinct_addNew _ _) _ _ _ hdraft hchanged

theorem distinct_of_openTable {key : Key} (hdraft : Distinct draft.entries)
    (h : draft.openTable key = .ok next) : Distinct next.entries := by
  unfold Draft.openTable at h
  split at h
  · contradiction
  · split at h
    · contradiction
    · rename_i hchanged
      obtain rfl := Except.ok.inj h
      have hsome : KeepsDistinct some := fun _ _ hentries heq => Option.some.inj heq ▸ hentries
      exact keepsDistinct_modifyAt hsome _ _ _ hdraft hchanged

theorem distinct_of_openItem {key : Key} (hdraft : Distinct draft.entries)
    (h : draft.openItem key = .ok next) : Distinct next.entries := by
  unfold Draft.openItem at h
  split at h
  · contradiction
  · split at h
    · contradiction
    · rename_i hchanged
      obtain rfl := Except.ok.inj h
      exact keepsDistinct_modifyAt (keepsDistinct_appendTable _) _ _ _ hdraft hchanged

/-- What succeeds at a place succeeded before. -/
theorem atPlace_eq_ok_iff {α : Type} {rest : List Char} {made : Except Reason α} {value : α} :
    atPlace rest made = .ok value ↔ made = .ok value := by
  cases made <;> simp [atPlace, malformed]

/-- A statement keeps names different. -/
theorem distinct_of_readStatement {cs rest : List Char} (hdraft : Distinct draft.entries)
    (h : readStatement draft cs = .ok (next, rest)) : Distinct next.entries := by
  unfold readStatement at h
  split at h
  · obtain ⟨⟨key, after⟩, _, h⟩ := bind_eq_ok_iff.1 h
    obtain ⟨opened, hopened, h⟩ := bind_eq_ok_iff.1 h
    split at h
    · obtain ⟨rfl, rfl⟩ := Prod.mk.inj (Except.ok.inj h)
      refine distinct_of_openItem ?_ (atPlace_eq_ok_iff.1 hopened)
      exact hdraft
    · contradiction
  · obtain ⟨⟨key, after⟩, _, h⟩ := bind_eq_ok_iff.1 h
    obtain ⟨opened, hopened, h⟩ := bind_eq_ok_iff.1 h
    split at h
    · obtain ⟨rfl, rfl⟩ := Prod.mk.inj (Except.ok.inj h)
      refine distinct_of_openTable ?_ (atPlace_eq_ok_iff.1 hopened)
      exact hdraft
    · contradiction
  · obtain ⟨rfl, rfl⟩ := Prod.mk.inj (Except.ok.inj h)
    exact hdraft
  · split at h
    · obtain ⟨⟨key, afterKey⟩, _, h⟩ := bind_eq_ok_iff.1 h
      dsimp only at h
      split at h
      · obtain ⟨⟨value, after⟩, _, h⟩ := bind_eq_ok_iff.1 h
        obtain ⟨added, hadded, h⟩ := bind_eq_ok_iff.1 h
        obtain ⟨rfl, rfl⟩ := Prod.mk.inj (Except.ok.inj h)
        exact distinct_of_addPair hdraft (atPlace_eq_ok_iff.1 hadded)
      · contradiction
    · contradiction
  · obtain ⟨rfl, rfl⟩ := Prod.mk.inj (Except.ok.inj h)
    exact hdraft

/-- The lines of a document keep names different. -/
theorem distinct_of_readStatements {fuel : Nat} {cs : List Char} {entries : Entries}
    (hdraft : Distinct draft.entries) (h : readStatements fuel draft cs = .ok entries) :
    Distinct entries := by
  induction fuel generalizing draft cs with
  | zero => exact Except.ok.inj h ▸ hdraft
  | succ fuel ih =>
    unfold readStatements at h
    split at h
    · exact Except.ok.inj h ▸ hdraft
    · exact ih hdraft h
    · obtain ⟨⟨next, afterStatement⟩, hstatement, h⟩ := bind_eq_ok_iff.1 h
      have hnext := distinct_of_readStatement hdraft hstatement
      obtain ⟨afterComment, _, h⟩ := bind_eq_ok_iff.1 h
      split at h
      · exact Except.ok.inj h ▸ hnext
      · exact ih hnext h
      · contradiction

/-- The entries of a document have different names. -/
theorem distinct_of_read {cs : List Char} {entries : Entries} (h : read cs = .ok entries) :
    Distinct entries := by
  unfold read at h
  dsimp only at h
  split at h
  · rename_i found hfound
    have hempty : Distinct (Draft.mk [] .none []).entries := List.nodup_nil
    exact Except.ok.inj h ▸ distinct_of_readStatements hempty hfound
  all_goals contradiction

end SourceGauge.Toml
