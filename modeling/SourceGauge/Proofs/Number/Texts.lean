import SourceGauge.Proofs.Number.Shortest

/-!
# Texts tell numbers apart

The text of a whole number is its sign and its digits. The text of a finite real has a point or the
mark of an exponent as well, so it is the text of no whole number. Two whole numbers with one text
have the same sign and digits, and two reals with one text are both what is read from it.

Zero has two reals, and a text for each of them.
-/

namespace SourceGauge

open Numeral

namespace Numeral

/-- A text has a point or the mark of an exponent. -/
def IsMarked (cs : List Char) : Prop := '.' ∈ cs ∨ 'e' ∈ cs

theorem IsMarked.append {cs : List Char} (h : IsMarked cs) (before : List Char) :
    IsMarked (before ++ cs) :=
  h.imp (List.mem_append_right before) (List.mem_append_right before)

/-- The text of a whole number is not marked. -/
theorem not_isMarked_toString_int (n : Int) : ¬IsMarked (toString n).toList := by
  have hplain : ∀ c ∈ (toString n).toList, c = '-' ∨ c.isDigit = true := by
    intro c hc
    rw [toList_toString_int] at hc
    rcases List.mem_append.1 hc with hsign | hdigit
    · rw [Binary64.signChars] at hsign
      split at hsign
      · exact .inl (List.mem_singleton.1 hsign)
      · contradiction
    · exact .inr (isDigit_of_mem_digitChars hdigit)
  rintro (hpoint | hmark)
  · exact absurd (hplain '.' hpoint) (by decide)
  · exact absurd (hplain 'e' hmark) (by decide)

theorem isMarked_placePoint (digits : List Char) (point : Int) :
    IsMarked (placePoint digits point) := by
  rw [placePoint]
  split
  · exact .inl (List.mem_cons_of_mem _ List.mem_cons_self)
  · split
    · exact .inl (List.mem_append_right _ List.mem_cons_self)
    · exact .inl (List.mem_append_right _ List.mem_cons_self)

theorem isMarked_scientific (width : Nat) (digits : List Char) (exponent : Int) :
    IsMarked (scientific width digits exponent) :=
  .inr (List.mem_append_right _ List.mem_cons_self)

end Numeral

/-- Whole numbers with one text are equal. -/
theorem toString_int_injective {m n : Int} (h : toString m = toString n) : m = n := by
  have hsigned : ∀ n : Int,
      takeSign (toString n).toList = (decide (n < 0), digitChars n.natAbs) := by
    intro n
    obtain ⟨d, rest, hcons⟩ := List.exists_cons_of_ne_nil (digitChars_ne_nil n.natAbs)
    have hdigit : d.isDigit = true := isDigit_of_mem_digitChars (n := n.natAbs) (by simp [hcons])
    rw [toList_toString_int, hcons, takeSign_signChars _ hdigit]
  have hparts := hsigned m
  rw [h, hsigned n, Prod.mk.injEq, decide_eq_decide] at hparts
  obtain ⟨hsign, hdigits⟩ := hparts
  have hsize : n.natAbs = m.natAbs := by
    rw [← ofDigits_digitChars n.natAbs, hdigits, ofDigits_digitChars]
  omega

/-- The text of a decimal is marked. -/
theorem Decimal.isMarked_chars (layout : RealLayout) (d : Decimal) : IsMarked (d.chars layout) := by
  rw [chars]
  split
  · exact isMarked_placePoint _ _
  · exact isMarked_scientific _ _ _

namespace Binary64

/-- The text of a finite real is marked. -/
theorem isMarked_chars {x : Binary64} (h : x.isFinite = true) : IsMarked x.chars := by
  cases x with
  | nan => contradiction
  | infinite negative => contradiction
  | finite negative units hunits =>
    rw [chars]
    apply IsMarked.append
    split
    · exact .inl (by decide)
    · exact Decimal.isMarked_chars realLayout _

/-- No whole number is written as a finite real is. -/
theorem ofList_chars_ne_toString {x : Binary64} (h : x.isFinite = true) (n : Int) :
    String.ofList x.chars ≠ toString n := by
  intro htext
  apply not_isMarked_toString_int n
  rw [← htext, String.toList_ofList]
  exact isMarked_chars h

/-- Finite reals with one text are equal. -/
theorem chars_injective {x y : Binary64} (hx : x.isFinite = true) (hy : y.isFinite = true)
    (h : x.chars = y.chars) : x = y := by
  have hread := readReal_chars hx
  rw [h, readReal_chars hy] at hread
  exact (Option.some.inj hread).symm

end Binary64

end SourceGauge
