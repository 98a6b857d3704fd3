import SourceGauge.Text.Basic

/-!
# Splitting

Lists are cut at every occurrence of a separator, so that joining the pieces with the
separator gives the list back and no piece holds it. A text is cut into texts.
-/

namespace SourceGauge.Text

variable {α : Type} [DecidableEq α]

/-- The pieces between the occurrences of a separator; there is always at least one. -/
def splitOn (separator : α) : List α → List (List α)
  | [] => [[]]
  | item :: rest =>
    if item = separator then [] :: splitOn separator rest
    else match splitOn separator rest with
      | piece :: pieces => (item :: piece) :: pieces
      | [] => [[item]]

/-- Pieces with a separator between them. -/
def joinWith (separator : α) : List (List α) → List α
  | [] => []
  | [piece] => piece
  | piece :: pieces => piece ++ separator :: joinWith separator pieces

/-- The pieces of a text between the occurrences of a character. -/
def pieces (separator : Char) (text : Text) : List Text :=
  (splitOn (.char separator) text.points).map Text.mk

/-- Splitting gives at least one piece. -/
theorem splitOn_ne_nil (separator : α) (items : List α) : splitOn separator items ≠ [] := by
  cases items with
  | nil => simp [splitOn]
  | cons item rest =>
    unfold splitOn
    split
    · simp
    · split <;> simp

/-- Joining the pieces of a list gives it back. -/
theorem joinWith_splitOn (separator : α) (items : List α) :
    joinWith separator (splitOn separator items) = items := by
  induction items with
  | nil => rfl
  | cons item rest ih =>
    unfold splitOn
    cases hpieces : splitOn separator rest with
    | nil => exact absurd hpieces (splitOn_ne_nil separator rest)
    | cons piece pieces =>
      rw [hpieces] at ih
      split
      · rename_i hitem
        simp [joinWith, ih, hitem]
      · dsimp only
        cases pieces with
        | nil => simpa [joinWith] using ih
        | cons next others => simpa [joinWith] using ih

/-- No piece holds the separator. -/
theorem not_mem_of_mem_splitOn {separator : α} {items piece : List α}
    (h : piece ∈ splitOn separator items) : separator ∉ piece := by
  induction items generalizing piece with
  | nil =>
    simp only [splitOn, List.mem_singleton] at h
    simp [h]
  | cons item rest ih =>
    unfold splitOn at h
    split at h
    · rcases List.mem_cons.1 h with h | h
      · simp [h]
      · exact ih h
    · rename_i hitem
      cases hpieces : splitOn separator rest with
      | nil => exact absurd hpieces (splitOn_ne_nil separator rest)
      | cons first others =>
        rw [hpieces] at h ih
        rcases List.mem_cons.1 h with h | h
        · subst h
          simp [Ne.symm hitem, @ih first (by simp)]
        · exact ih (List.mem_cons_of_mem _ h)

end SourceGauge.Text
