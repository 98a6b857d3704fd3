import SourceGauge.Histogram.Merge
import SourceGauge.Proofs.Histogram.Counting
import SourceGauge.Proofs.Histogram.SameBounds

/-!
# Merging tallies

Merging the histograms of two tallies is the histogram of both, as long as fewer than `2 ^ 63`
things were counted altogether: the arrays are signed words then, and no sum wraps around.

What is lost with larger counts is not said here.
-/

namespace SourceGauge

/-- A bound is numerically equal to itself. -/
theorem Number.eqv_self_of_isBound {n : Number} (h : isBound n = true) : n.eqv n = true := by
  obtain ⟨extent, hextent⟩ := Bounds.extent?_of_isBound h
  simp [eqv, hextent]

/-- Bounds are the same as themselves. -/
theorem Bounds.same_self (bounds : Bounds) : bounds.same bounds = true := by
  have hsame : ∀ numbers : List Number, (∀ n ∈ numbers, isBound n = true) →
      sameNumbers numbers numbers = true := by
    intro numbers
    induction numbers with
    | nil => exact fun _ => rfl
    | cons n rest ih =>
      intro hbound
      rw [sameNumbers, Number.eqv_self_of_isBound (hbound n List.mem_cons_self), Bool.true_and]
      exact ih fun other hother => hbound other (List.mem_cons_of_mem n hother)
  exact hsame bounds.values bounds.bound

/-- Counts that fit signed words are packed into signed words. -/
theorem CountArray.ofCounts_of_lt {counts : List Nat}
    (h : ∀ count ∈ counts, count < signedWordLimit) :
    ofCounts counts = .signed (counts.map Int64.ofNat) := by
  have hall : (counts.all (· < signedWordLimit)) = true := by simpa using h
  rw [ofCounts, if_pos hall]

/-- Signed words of counts are added to the words of the sums. -/
theorem CountArray.add_signed (counts others : List Nat) :
    (signed (counts.map Int64.ofNat)).add (signed (others.map Int64.ofNat)) =
      .ok ((List.zipWith (· + ·) counts others).map fun count => (Int64.ofNat count).toInt) := by
  simp only [add, List.zipWith_map, List.map_zipWith, Int64.ofNat_add]

namespace Histogram

/-- The sums of two lists of counts of one length come to what the lists come to. -/
theorem foldr_zipWith_add {counts others : List Nat} (h : counts.length = others.length) :
    (List.zipWith (· + ·) counts others).foldr (· + ·) 0 =
      counts.foldr (· + ·) 0 + others.foldr (· + ·) 0 := by
  simp only [← List.sum_eq_foldr]
  exact (List.sum_add_sum_eq_sum_zipWith_of_length_eq counts others h).symm

/-- Histograms over the same bounds have the same number of buckets. -/
theorem length_counts_of_same {a b : Histogram} (h : b.bounds.same a.bounds = true) :
    b.counts.length = a.counts.length :=
  b.size_eq.trans ((Bounds.size_eq_of_same h).trans a.size_eq.symm)

variable (measure : Measure) (bounds : Bounds)

/-- The histograms of two tallies merge into the histogram of both. -/
theorem merge_tallied {adds others : List (Number × Nat)}
    (h : timesCounted (adds ++ others) < signedWordLimit) :
    (tallied measure bounds adds).merge (tallied measure bounds others) =
      .ok (tallied measure bounds (adds ++ others)) := by
  have hsum := timesCounted_append adds others
  have hfirst : timesCounted adds < signedWordLimit := by omega
  have hsecond : timesCounted others < signedWordLimit := by omega
  have hsame : (tallied measure bounds others).bounds.same (tallied measure bounds adds).bounds =
      true := bounds.same_self
  have hwords : (CountArray.ofCounts (tallied measure bounds adds).counts).add
      (CountArray.ofCounts (tallied measure bounds others).counts) =
        .ok ((bounds.tally (adds ++ others)).map fun count => (Int64.ofNat count).toInt) := by
    unfold tallied
    rw [CountArray.ofCounts_of_lt (bounds.lt_of_mem_tally hfirst),
      CountArray.ofCounts_of_lt (bounds.lt_of_mem_tally hsecond), CountArray.add_signed,
      bounds.tally_append]
  rw [merge, if_pos hsame, hwords]
  exact ofInts_words (bounds.length_tally _) (bounds.lt_of_mem_tally h) .memory

end Histogram

end SourceGauge
