import Mathlib.Data.List.TakeWhile
import SourceGauge.Text.Blank

/-!
# What trimming leaves

Trimming takes members off both ends of a list as long as they are to be removed. What it leaves is
found at both ends to begin and to end with members that stay, and it is found again between any
members that are to be removed. Members in the middle are not looked at.
-/

namespace SourceGauge.Text

variable {α : Type} {drop : α → Bool}

/-- Neither the first member nor the last one is to be removed. -/
structure IsTrimmed (drop : α → Bool) (items : List α) : Prop where
  head : ∀ item ∈ items.head?, drop item = false
  last : ∀ item ∈ items.getLast?, drop item = false

/-- A trimmed list is found between any members that are to be removed. -/
theorem trimWhere_append {before items after : List α} (hbefore : ∀ item ∈ before, drop item = true)
    (hitems : IsTrimmed drop items) (hafter : ∀ item ∈ after, drop item = true) :
    trimWhere drop (before ++ (items ++ after)) = items := by
  rw [trimWhere, List.dropWhile_append_of_pos hbefore]
  cases items with
  | nil =>
    rw [List.nil_append, List.dropWhile_eq_nil_iff.2 hafter]
    rfl
  | cons first rest =>
    have hfront : (first :: rest ++ after).dropWhile drop = first :: rest ++ after :=
      List.dropWhile_eq_self_iff.2 fun _ => by simp [hitems.head first rfl]
    have hback : (first :: rest).reverse.dropWhile drop = (first :: rest).reverse := by
      apply List.dropWhile_eq_self_iff.2
      intro hpos
      have hlast : (first :: rest).getLast? = some (first :: rest).reverse[0] := by
        rw [← List.head?_reverse, List.head?_eq_getElem?, List.getElem?_eq_getElem hpos]
      simp only [hitems.last _ hlast, Bool.false_eq_true, not_false_iff]
    rw [hfront, List.reverse_append,
      List.dropWhile_append_of_pos fun item hitem => hafter item (List.mem_reverse.1 hitem), hback,
      List.reverse_reverse]

/-- Nothing is removed where no member is to be. -/
theorem trimWhere_eq_self {items : List α} (h : ∀ item ∈ items, drop item = false) :
    trimWhere drop items = items := by
  have hnone : ∀ item ∈ ([] : List α), drop item = true := List.forall_mem_nil _
  have hitems : IsTrimmed drop items :=
    ⟨fun item hitem => h item (List.mem_of_head? hitem),
      fun item hitem => h item (List.mem_of_getLast? hitem)⟩
  have hwhole := trimWhere_append hnone hitems hnone
  rwa [List.nil_append, List.append_nil] at hwhole

/-- What the front leaves ends with what the back removes. -/
theorem dropWhile_eq_trimWhere_append (drop : α → Bool) (items : List α) :
    items.dropWhile drop = trimWhere drop items ++
      ((items.dropWhile drop).reverse.takeWhile drop).reverse := by
  rw [trimWhere, ← List.reverse_append, List.takeWhile_append_dropWhile, List.reverse_reverse]

/-- Trimming removes members from both ends and nothing else. -/
theorem exists_eq_append_trimWhere (drop : α → Bool) (items : List α) : ∃ before after,
    items = before ++ (trimWhere drop items ++ after) ∧ (∀ item ∈ before, drop item = true) ∧
      ∀ item ∈ after, drop item = true := by
  refine ⟨items.takeWhile drop, ((items.dropWhile drop).reverse.takeWhile drop).reverse, ?_,
    fun item hitem => List.mem_takeWhile_imp hitem,
    fun item hitem => List.mem_takeWhile_imp (List.mem_reverse.1 hitem)⟩
  rw [← dropWhile_eq_trimWhere_append, List.takeWhile_append_dropWhile]

/-- What trimming leaves is trimmed. -/
theorem isTrimmed_trimWhere (drop : α → Bool) (items : List α) :
    IsTrimmed drop (trimWhere drop items) := by
  have hstays : ∀ others : List α, ∀ item ∈ (others.dropWhile drop).head?, drop item = false := by
    intro others item hitem
    have hhead := List.head?_dropWhile_not drop others
    rwa [Option.mem_def.1 hitem] at hhead
  constructor
  · intro item hitem
    apply hstays items
    rw [dropWhile_eq_trimWhere_append, List.head?_append, hitem]
    rfl
  · intro item hitem
    rw [trimWhere, List.getLast?_reverse] at hitem
    exact hstays _ item hitem

end SourceGauge.Text
