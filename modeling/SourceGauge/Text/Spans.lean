/-!
# Spans of code points

Character properties are stored as increasing lists of spans. A search stops at the first
span that starts beyond the code point, so a list that is out of order loses members but
never gains any.
-/

namespace SourceGauge.Text

/-- Whether a code point lies in one of the spans `(first, last)`. -/
def inSpans (code : Nat) : List (Nat × Nat) → Bool
  | [] => false
  | (first, last) :: rest =>
    if code < first then false else code ≤ last || inSpans code rest

/-- Whether a code point is a member of one of the spans `(first, last, step)`. -/
def inSteppedSpans (code : Nat) : List (Nat × Nat × Nat) → Bool
  | [] => false
  | (first, last, step) :: rest =>
    if code < first then false
    else (code ≤ last && (code - first) % step == 0) || inSteppedSpans code rest

/-- A member of some span is found only inside a listed span. -/
theorem exists_span_of_inSpans {code : Nat} {spans : List (Nat × Nat)}
    (h : inSpans code spans = true) : ∃ span ∈ spans, span.1 ≤ code ∧ code ≤ span.2 := by
  induction spans with
  | nil => simp [inSpans] at h
  | cons span rest ih =>
    obtain ⟨first, last⟩ := span
    unfold inSpans at h
    split at h
    · contradiction
    · rename_i hfirst
      rw [Bool.or_eq_true, decide_eq_true_eq] at h
      rcases h with h | h
      · exact ⟨(first, last), by simp, by omega, h⟩
      · obtain ⟨found, hmem, hfound⟩ := ih h
        exact ⟨found, List.mem_cons_of_mem _ hmem, hfound⟩

end SourceGauge.Text
