import Mathlib.Data.List.Basic
import SourceGauge.Text.Split

/-!
# Splitting what was joined

Pieces that do not hold the separator are found again in the list that joins them, whatever they
hold otherwise, as long as there is at least one. For texts this needs to be known of their
characters alone, since surrogates are no separators.
-/

namespace SourceGauge.Text

/-- What is made of joined pieces is joined from what is made of each of them. -/
theorem map_intercalate {α β : Type} (f : α → β) (joint : List α) (pieces : List (List α)) :
    (joint.intercalate pieces).map f = (joint.map f).intercalate (pieces.map (List.map f)) := by
  induction pieces with
  | nil => rfl
  | cons piece others ih =>
    cases others with
    | nil => simp only [List.map_cons, List.map_nil, List.intercalate_singleton]
    | cons next rest =>
      rw [List.map_cons] at ih
      simp only [List.map_cons, List.intercalate_cons_cons, List.map_append, ih]

variable {α : Type} [DecidableEq α]

/-- A list without the separator is a single piece. -/
theorem splitOn_of_not_mem {separator : α} {piece : List α} (h : separator ∉ piece) :
    splitOn separator piece = [piece] := by
  induction piece with
  | nil => rfl
  | cons item rest ih =>
    rw [List.mem_cons, not_or] at h
    rw [splitOn, if_neg (Ne.symm h.1), ih h.2]

/-- The first piece ends at the first separator. -/
theorem splitOn_append {separator : α} {piece : List α} (h : separator ∉ piece) (rest : List α) :
    splitOn separator (piece ++ separator :: rest) = piece :: splitOn separator rest := by
  induction piece with
  | nil => rw [List.nil_append, splitOn, if_pos rfl]
  | cons item others ih =>
    rw [List.mem_cons, not_or] at h
    rw [List.cons_append, splitOn, if_neg (Ne.symm h.1), ih h.2]

/-- Joined pieces are found again. -/
theorem splitOn_intercalate {separator : α} {pieces : List (List α)}
    (hpieces : ∀ piece ∈ pieces, separator ∉ piece) (hsome : pieces ≠ []) :
    splitOn separator ([separator].intercalate pieces) = pieces := by
  induction pieces with
  | nil => contradiction
  | cons piece others ih =>
    have hpiece : separator ∉ piece := hpieces piece List.mem_cons_self
    cases others with
    | nil => rw [List.intercalate_singleton, splitOn_of_not_mem hpiece]
    | cons next rest =>
      have hrest := ih (fun other hother => hpieces other (List.mem_cons_of_mem piece hother))
        (List.cons_ne_nil next rest)
      rw [List.intercalate_cons_cons, List.append_assoc, List.singleton_append,
        splitOn_append hpiece, hrest]

/-- The pieces of a list, with the separator between them, are the list. -/
theorem intercalate_splitOn (separator : α) (items : List α) :
    [separator].intercalate (splitOn separator items) = items := by
  have hjoin : ∀ pieces : List (List α),
      [separator].intercalate pieces = joinWith separator pieces := by
    intro pieces
    induction pieces with
    | nil => rfl
    | cons piece others ih =>
      cases others with
      | nil => exact List.intercalate_singleton
      | cons next rest =>
        rw [List.intercalate_cons_cons, ih, List.append_assoc]
        rfl
  rw [hjoin, joinWith_splitOn]

/-- Joined strings are found again in the text that they make. -/
theorem pieces_intercalate {separator : Char} {joint : String} {strings : List String}
    (hjoint : joint.toList = [separator])
    (hstrings : ∀ string ∈ strings, separator ∉ string.toList) (hsome : strings ≠ []) :
    (ofString (joint.intercalate strings)).pieces separator = strings.map ofString := by
  have hpoints : (ofString (joint.intercalate strings)).points =
      [CodePoint.char separator].intercalate (strings.map fun string =>
        string.toList.map CodePoint.char) := by
    rw [ofString, ofChars, String.toList_intercalate, map_intercalate, hjoint, List.map_map]
    rfl
  have hnone : ∀ piece ∈ strings.map (fun string => string.toList.map CodePoint.char),
      CodePoint.char separator ∉ piece := by
    intro piece hpiece hmem
    obtain ⟨string, hstring, rfl⟩ := List.mem_map.1 hpiece
    exact hstrings string hstring (by simpa using hmem)
  rw [pieces, hpoints, splitOn_intercalate hnone (by simpa using hsome), List.map_map]
  rfl

/-- Joined texts are found again. -/
theorem pieces_intercalate_texts {separator : Char} {joint : Text} {texts : List Text}
    (hjoint : joint.points = [.char separator])
    (htexts : ∀ text ∈ texts, CodePoint.char separator ∉ text.points) (hsome : texts ≠ []) :
    (intercalate joint texts).pieces separator = texts := by
  have hnone : ∀ piece ∈ texts.map points, CodePoint.char separator ∉ piece := by
    intro piece hpiece
    obtain ⟨text, htext, rfl⟩ := List.mem_map.1 hpiece
    exact htexts text htext
  rw [pieces, intercalate, hjoint, splitOn_intercalate hnone (by simpa using hsome), List.map_map]
  exact List.map_id texts

/-- The pieces of a text, joined again, are the text. -/
theorem intercalate_pieces {separator : Char} {joint : Text}
    (hjoint : joint.points = [.char separator]) (text : Text) :
    intercalate joint (text.pieces separator) = text := by
  apply eq_of_points_eq
  rw [intercalate, pieces, List.map_map, hjoint]
  exact (congrArg _ (List.map_id _)).trans (intercalate_splitOn _ text.points)

end SourceGauge.Text
