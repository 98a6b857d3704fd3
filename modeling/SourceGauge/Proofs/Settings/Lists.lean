import SourceGauge.Proofs.Text.Splitting
import SourceGauge.Proofs.Text.Trimming
import SourceGauge.Settings.Environment

/-!
# Lists in variables

The variable of a list gives the items between commas. Blanks around an item belong to none, and a
place between commas with nothing but blanks holds none, so a list can be written in many ways. What
is read is said here for all of them at once: a variable gives certain items exactly if they are
items and its text writes them. An item is not empty, holds no comma and has no blank at either end;
blanks and anything else may stand inside.

Items cannot be quoted, so that a text with a comma is never an item. Two texts that write the same
items need not be equal; the one without blanks and empty places is found again from any of them.
-/

namespace SourceGauge

namespace Settings

/-- Whether trimming removes a code point. -/
def isBlankPoint (point : CodePoint) : Bool := point.satisfies Text.isBlank

/-- A text that can be an item of a list: it is not empty, holds no comma and has no blank at either
end. -/
structure IsItem (item : Text) : Prop where
  nonempty : item.points ≠ []
  comma : CodePoint.char ',' ∉ item.points
  trimmed : Text.IsTrimmed isBlankPoint item.points

/-- Items spread over pieces, in order: a piece is an item with blanks around it, or it is blank and
holds none. -/
inductive Spread : List Text → List Text → Prop
  | nil : Spread [] []
  | blank {piece : Text} {pieces items : List Text}
    (hpiece : ∀ point ∈ piece.points, isBlankPoint point = true) (rest : Spread pieces items) :
    Spread (piece :: pieces) items
  | item {before item after : Text} {pieces items : List Text}
    (hbefore : ∀ point ∈ before.points, isBlankPoint point = true)
    (hafter : ∀ point ∈ after.points, isBlankPoint point = true) (rest : Spread pieces items) :
    Spread ((before ++ (item ++ after)) :: pieces) (item :: items)

/-- A text writes a list of items: it joins pieces that they are spread over with commas. -/
def Writes (text : Text) (items : List Text) : Prop :=
  ∃ pieces, Spread pieces items ∧ text = Text.intercalate "," pieces

/-- The items that pieces hold. -/
def itemsOf (pieces : List Text) : List Text :=
  (pieces.map Text.trim).filter fun item => !item.isEmpty

/-! ## One piece -/

/-- The blanks around an item are trimmed. -/
theorem trim_padded {before item after : Text}
    (hbefore : ∀ point ∈ before.points, isBlankPoint point = true)
    (hitem : Text.IsTrimmed isBlankPoint item.points)
    (hafter : ∀ point ∈ after.points, isBlankPoint point = true) :
    (before ++ (item ++ after)).trim = item :=
  Text.eq_of_points_eq (Text.trimWhere_append hbefore hitem hafter)

/-- Every piece is what trimming leaves of it, with blanks around. -/
theorem exists_eq_padded (piece : Text) : ∃ before after : Text,
    piece = before ++ (piece.trim ++ after) ∧
      (∀ point ∈ before.points, isBlankPoint point = true) ∧
        ∀ point ∈ after.points, isBlankPoint point = true := by
  obtain ⟨before, after, hpoints, hbefore, hafter⟩ :=
    Text.exists_eq_append_trimWhere isBlankPoint piece.points
  exact ⟨⟨before⟩, ⟨after⟩, Text.eq_of_points_eq hpoints, hbefore, hafter⟩

/-- A piece is blank if and only if trimming leaves nothing. -/
theorem isEmpty_trim_iff (piece : Text) :
    piece.trim.isEmpty = true ↔ ∀ point ∈ piece.points, isBlankPoint point = true := by
  rw [Text.isEmpty, List.isEmpty_iff]
  constructor
  · intro hempty
    obtain ⟨before, after, hpiece, hbefore, hafter⟩ := exists_eq_padded piece
    rw [hpiece, Text.points_append, Text.points_append, hempty, List.nil_append,
      List.forall_mem_append]
    exact ⟨hbefore, hafter⟩
  · intro hblank
    change Text.trimWhere isBlankPoint piece.points = []
    rw [Text.trimWhere, List.dropWhile_eq_nil_iff.2 hblank]
    rfl

/-- What trimming leaves of a piece without a comma is an item, unless it is empty. -/
theorem isItem_trim {piece : Text} (hcomma : CodePoint.char ',' ∉ piece.points)
    (hsome : piece.trim.isEmpty = false) : IsItem piece.trim where
  nonempty := by
    intro hnone
    rw [Text.isEmpty, hnone] at hsome
    exact Bool.noConfusion hsome
  comma := by
    intro hmem
    obtain ⟨before, after, hpiece, -, -⟩ := exists_eq_padded piece
    apply hcomma
    rw [hpiece]
    exact List.mem_append_right _ (List.mem_append_left _ hmem)
  trimmed := Text.isTrimmed_trimWhere isBlankPoint piece.points

/-- A comma is no blank. -/
theorem comma_not_mem_of_blank {points : List CodePoint}
    (h : ∀ point ∈ points, isBlankPoint point = true) : CodePoint.char ',' ∉ points := by
  intro hmem
  exact absurd (h _ hmem) (by decide)

/-! ## All pieces -/

/-- A blank piece holds no item. -/
theorem itemsOf_cons_of_isEmpty {piece : Text} (h : piece.trim.isEmpty = true)
    (pieces : List Text) : itemsOf (piece :: pieces) = itemsOf pieces := by
  rw [itemsOf, List.map_cons, List.filter_cons_of_neg (by simp [h])]
  rfl

/-- Any other piece holds what trimming leaves of it. -/
theorem itemsOf_cons_of_not_isEmpty {piece : Text} (h : piece.trim.isEmpty = false)
    (pieces : List Text) : itemsOf (piece :: pieces) = piece.trim :: itemsOf pieces := by
  rw [itemsOf, List.map_cons, List.filter_cons_of_pos (by simp [h])]
  rfl

/-- What pieces hold is spread over them. -/
theorem spread_itemsOf (pieces : List Text) : Spread pieces (itemsOf pieces) := by
  induction pieces with
  | nil => exact .nil
  | cons piece pieces ih =>
    cases hempty : piece.trim.isEmpty with
    | true =>
      rw [itemsOf_cons_of_isEmpty hempty]
      exact .blank ((isEmpty_trim_iff piece).1 hempty) ih
    | false =>
      rw [itemsOf_cons_of_not_isEmpty hempty]
      obtain ⟨before, after, hpiece, hbefore, hafter⟩ := exists_eq_padded piece
      have hspread : Spread ((before ++ (piece.trim ++ after)) :: pieces)
          (piece.trim :: itemsOf pieces) := .item hbefore hafter ih
      rwa [← hpiece] at hspread

/-- Items are found again in the pieces that they are spread over. -/
theorem Spread.itemsOf_eq {pieces items : List Text} (h : Spread pieces items)
    (hitems : ∀ item ∈ items, IsItem item) : itemsOf pieces = items := by
  induction h with
  | nil => rfl
  | blank hpiece rest ih =>
    rw [itemsOf_cons_of_isEmpty ((isEmpty_trim_iff _).2 hpiece), ih hitems]
  | @item before item after pieces items hbefore hafter rest ih =>
    have hitem := hitems item List.mem_cons_self
    have htrim := trim_padded hbefore hitem.trimmed hafter
    have hsome : (before ++ (item ++ after)).trim.isEmpty = false := by
      rw [htrim, Text.isEmpty, List.isEmpty_eq_false_iff]
      exact hitem.nonempty
    rw [itemsOf_cons_of_not_isEmpty hsome, htrim,
      ih fun other hother => hitems other (List.mem_cons_of_mem item hother)]

/-- Pieces that items are spread over hold no comma. -/
theorem Spread.comma_not_mem {pieces items : List Text} (h : Spread pieces items)
    (hitems : ∀ item ∈ items, IsItem item) :
    ∀ piece ∈ pieces, CodePoint.char ',' ∉ piece.points := by
  induction h with
  | nil => exact List.forall_mem_nil _
  | blank hpiece rest ih =>
    exact List.forall_mem_cons.2 ⟨comma_not_mem_of_blank hpiece, ih hitems⟩
  | @item before item after pieces items hbefore hafter rest ih =>
    have hrest := ih fun other hother => hitems other (List.mem_cons_of_mem item hother)
    refine List.forall_mem_cons.2 ⟨?_, hrest⟩
    rw [Text.points_append, Text.points_append, List.mem_append, List.mem_append]
    intro hmem
    rcases hmem with hmem | hmem | hmem
    · exact comma_not_mem_of_blank hbefore hmem
    · exact (hitems item List.mem_cons_self).comma hmem
    · exact comma_not_mem_of_blank hafter hmem

/-- Items are spread over themselves. -/
theorem spread_self (items : List Text) : Spread items items := by
  induction items with
  | nil => exact .nil
  | cons item items ih =>
    have hnone : ∀ point ∈ (⟨[]⟩ : Text).points, isBlankPoint point = true :=
      List.forall_mem_nil _
    have hitem : (⟨[]⟩ : Text) ++ (item ++ ⟨[]⟩) = item :=
      Text.eq_of_points_eq (List.append_nil item.points)
    have hspread : Spread ((⟨[]⟩ ++ (item ++ ⟨[]⟩)) :: items) (item :: items) :=
      .item hnone hnone ih
    rwa [hitem] at hspread

/-! ## The text of a variable -/

/-- Every text writes what it is split into. -/
theorem writes_splitItems (text : Text) : Writes text (splitItems text) :=
  ⟨text.pieces ',', spread_itemsOf _, (Text.intercalate_pieces rfl text).symm⟩

/-- What a text is split into are items. -/
theorem isItem_of_mem_splitItems {text item : Text} (h : item ∈ splitItems text) :
    IsItem item := by
  obtain ⟨hmem, -⟩ := List.mem_filter.1 h
  obtain ⟨piece, hpiece, rfl⟩ := List.mem_map.1 hmem
  obtain ⟨points, hpoints, rfl⟩ := List.mem_map.1 hpiece
  exact isItem_trim (Text.not_mem_of_mem_splitOn hpoints) (isEmpty_of_mem_splitItems h)

/-- A text that writes items is split into them. -/
theorem Writes.splitItems_eq {text : Text} {items : List Text} (h : Writes text items)
    (hitems : ∀ item ∈ items, IsItem item) : splitItems text = items := by
  obtain ⟨pieces, hspread, rfl⟩ := h
  cases pieces with
  | nil =>
    cases hspread
    rfl
  | cons piece pieces =>
    have hpieces : (Text.intercalate "," (piece :: pieces)).pieces ',' = piece :: pieces :=
      Text.pieces_intercalate_texts rfl (hspread.comma_not_mem hitems) (List.cons_ne_nil _ _)
    rw [← hspread.itemsOf_eq hitems, itemsOf, splitItems, hpieces]

/-- A text writes certain items exactly if it is split into them. -/
theorem splitItems_eq_iff (text : Text) (items : List Text) :
    splitItems text = items ↔ (∀ item ∈ items, IsItem item) ∧ Writes text items := by
  constructor
  · rintro rfl
    exact ⟨fun item hitem => isItem_of_mem_splitItems hitem, writes_splitItems text⟩
  · intro ⟨hitems, hwrites⟩
    exact hwrites.splitItems_eq hitems

/-- Lists of different texts are different values. -/
theorem ofTexts_injective : Function.Injective Value.ofTexts := by
  intro texts others h
  exact List.map_injective_iff.2 (fun _ _ => Value.text.inj) (Value.list.inj h)

/-- The variable of a list gives items exactly if its text writes them, whatever blanks stand around
them and whatever blank places stand between them. It always gives some, and these joined with
commas give the same again. -/
theorem readVariable_texts_iff_writes (text : Text) :
    (∀ items, readVariable .texts text = .ok (.ofTexts items) ↔
      (∀ item ∈ items, IsItem item) ∧ Writes text items) ∧
    ∃ items, readVariable .texts text = .ok (.ofTexts items) ∧ (∀ item ∈ items, IsItem item) ∧
      readVariable .texts (Text.intercalate "," items) = .ok (.ofTexts items) := by
  have hread : ∀ (other : Text) items, readVariable .texts other = .ok (.ofTexts items) ↔
      (∀ item ∈ items, IsItem item) ∧ Writes other items := by
    intro other items
    rw [← splitItems_eq_iff, readVariable, Except.ok.injEq]
    exact ofTexts_injective.eq_iff
  have hitems : ∀ item ∈ splitItems text, IsItem item :=
    fun item hitem => isItem_of_mem_splitItems hitem
  have hself : Writes (Text.intercalate "," (splitItems text)) (splitItems text) :=
    ⟨splitItems text, spread_self _, rfl⟩
  exact ⟨hread text, splitItems text, rfl, hitems, (hread _ _).2 ⟨hitems, hself⟩⟩

end Settings

end SourceGauge
