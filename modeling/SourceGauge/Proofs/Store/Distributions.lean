import Mathlib.Algebra.Ring.Nat
import SourceGauge.Proofs.Histogram.Merging
import SourceGauge.RecordStore

/-!
# Distributions over records

Merging the histograms of records one after the other succeeds exactly if all of them have the same
bounds: each one is compared with what has been merged before, whose bounds are those of the first.
The result has for each bucket what the histograms have there altogether, so their order does not
matter. Fewer than `2 ^ 63` things must have been counted altogether; the words of the arrays take
all sums then.
-/

namespace SourceGauge

namespace Histogram

/-- How many things a bucket holds. -/
def inBucket (histogram : Histogram) (bucket : Nat) : Nat := histogram.counts.getD bucket 0

/-- No bucket holds more than all of them. -/
theorem count_le_total {histogram : Histogram} {count : Nat} (h : count ∈ histogram.counts) :
    count ≤ histogram.total := by
  have hle : ∀ counts : List Nat, count ∈ counts → count ≤ counts.foldr (· + ·) 0 := by
    intro counts
    induction counts with
    | nil => exact fun hmem => absurd hmem List.not_mem_nil
    | cons first rest ih =>
      intro hmem
      rw [List.foldr_cons]
      rcases List.mem_cons.1 hmem with rfl | hmem
      · exact Nat.le_add_right _ _
      · exact Nat.le_trans (ih hmem) (Nat.le_add_left _ _)
  exact hle histogram.counts h

/-- Histograms over the same bounds that count few enough things are merged bucket by bucket. -/
theorem merge_of_lt {a b : Histogram} (hsame : b.bounds.same a.bounds = true)
    (h : a.total + b.total < signedWordLimit) :
    ∃ merged, a.merge b = .ok merged ∧ merged.bounds = a.bounds ∧
      merged.counts = List.zipWith (· + ·) a.counts b.counts := by
  have hlength := length_counts_of_same hsame
  have hsize : (List.zipWith (· + ·) a.counts b.counts).length = a.bounds.size := by
    rw [List.length_zipWith, hlength, Nat.min_self, a.size_eq]
  have hfirst : ∀ count ∈ a.counts, count < signedWordLimit := fun count hcount =>
    Nat.lt_of_le_of_lt (Nat.le_trans (count_le_total hcount) (Nat.le_add_right _ _)) h
  have hsecond : ∀ count ∈ b.counts, count < signedWordLimit := fun count hcount =>
    Nat.lt_of_le_of_lt (Nat.le_trans (count_le_total hcount) (Nat.le_add_left _ _)) h
  have hsums : ∀ count ∈ List.zipWith (· + ·) a.counts b.counts, count < signedWordLimit := by
    intro count hcount
    obtain ⟨bucket, hbucket, rfl⟩ := List.getElem_of_mem hcount
    rw [List.getElem_zipWith]
    exact Nat.lt_of_le_of_lt (Nat.add_le_add (count_le_total (List.getElem_mem _))
      (count_le_total (List.getElem_mem _))) h
  refine ⟨⟨a.measure, a.bounds, List.zipWith (· + ·) a.counts b.counts, a.mode, hsize⟩, ?_, rfl,
    rfl⟩
  rw [merge, if_pos hsame, CountArray.ofCounts_of_lt hfirst, CountArray.ofCounts_of_lt hsecond,
    CountArray.add_signed]
  exact ofInts_words hsize hsums a.mode

/-- What merging adds, bucket by bucket and altogether. -/
theorem merge_adds {a b : Histogram} (hsame : b.bounds.same a.bounds = true)
    (h : a.total + b.total < signedWordLimit) :
    ∃ merged, a.merge b = .ok merged ∧ merged.bounds = a.bounds ∧
      merged.total = a.total + b.total ∧
      ∀ bucket, merged.inBucket bucket = a.inBucket bucket + b.inBucket bucket := by
  have hlength := length_counts_of_same hsame
  obtain ⟨merged, hmerged, hbounds, hcounts⟩ := merge_of_lt hsame h
  refine ⟨merged, hmerged, hbounds, ?_, fun bucket => ?_⟩
  · rw [total, hcounts, foldr_zipWith_add hlength.symm]
    rfl
  · rw [inBucket, inBucket, inBucket, hcounts, List.getD_eq_getElem?_getD,
      List.getD_eq_getElem?_getD, List.getD_eq_getElem?_getD, List.getElem?_zipWith]
    by_cases hbucket : bucket < a.counts.length
    · rw [List.getElem?_eq_getElem hbucket, List.getElem?_eq_getElem (hlength ▸ hbucket)]
      rfl
    · rw [List.getElem?_eq_none (Nat.not_lt.1 hbucket),
        List.getElem?_eq_none (hlength ▸ Nat.not_lt.1 hbucket)]
      rfl

/-- Histograms over different bounds are not merged. -/
theorem merge_of_different {a b : Histogram} (h : b.bounds.same a.bounds = false) :
    ∃ listed fault, a.merge b = .error (.bounds listed fault) :=
  ⟨_, _, if_neg (by simp [h])⟩

end Histogram

namespace RecordStore

variable {measure : Measure} {held : FileRecord → Histogram}

/-- Records over the bounds of what was merged before are merged onto it. -/
theorem mergeFrom_of_same {records : List FileRecord} {sum : Histogram}
    (hheld : ∀ record ∈ records, record.histogram measure = .ok (held record))
    (hsame : ∀ record ∈ records, (held record).bounds.same sum.bounds = true)
    (h : sum.total + (records.map fun record => (held record).total).sum < signedWordLimit) :
    ∃ merged, mergeFrom measure (some sum) records = .ok (some merged) ∧
      merged.bounds = sum.bounds ∧ ∀ bucket, merged.inBucket bucket =
        sum.inBucket bucket + (records.map fun record => (held record).inBucket bucket).sum := by
  induction records generalizing sum with
  | nil => exact ⟨sum, rfl, rfl, fun _ => rfl⟩
  | cons record rest ih =>
    rw [List.map_cons, List.sum_cons, ← Nat.add_assoc] at h
    obtain ⟨next, hnext, hbounds, htotal, hbuckets⟩ :=
      Histogram.merge_adds (hsame record List.mem_cons_self)
        (Nat.lt_of_le_of_lt (Nat.le_add_right _ _) h)
    rw [← htotal] at h
    have hrest : ∀ other ∈ rest, (held other).bounds.same next.bounds = true :=
      fun other hother => hbounds ▸ hsame other (List.mem_cons_of_mem record hother)
    obtain ⟨merged, hmerged, hmergedBounds, hmergedBuckets⟩ :=
      ih (fun other hother => hheld other (List.mem_cons_of_mem record hother)) hrest h
    refine ⟨merged, ?_, hmergedBounds.trans hbounds, fun bucket => ?_⟩
    · rw [mergeFrom]
      simp only [hheld record List.mem_cons_self, hnext, bind, ok_bind]
      exact hmerged
    · rw [hmergedBuckets, hbuckets, List.map_cons, List.sum_cons, Nat.add_assoc]

/-- A record over other bounds than those of what was merged before is refused. -/
theorem mergeFrom_of_different {records : List FileRecord} {sum : Histogram}
    (hheld : ∀ record ∈ records, record.histogram measure = .ok (held record))
    (hdifferent : ∃ record ∈ records, (held record).bounds.same sum.bounds = false)
    (h : sum.total + (records.map fun record => (held record).total).sum < signedWordLimit) :
    ∃ listed fault, mergeFrom measure (some sum) records = .error (.bounds listed fault) := by
  induction records generalizing sum with
  | nil => simp at hdifferent
  | cons record rest ih =>
    rw [List.map_cons, List.sum_cons, ← Nat.add_assoc] at h
    have hrecord := hheld record List.mem_cons_self
    cases hsame : (held record).bounds.same sum.bounds with
    | false =>
      obtain ⟨listed, fault, hrefused⟩ := Histogram.merge_of_different hsame
      refine ⟨listed, fault, ?_⟩
      rw [mergeFrom]
      simp only [hrecord, hrefused, bind, ok_bind, error_bind]
    | true =>
      obtain ⟨next, hnext, hbounds, htotal, _⟩ :=
        Histogram.merge_adds hsame (Nat.lt_of_le_of_lt (Nat.le_add_right _ _) h)
      rw [← htotal] at h
      obtain ⟨other, hother, hotherBounds⟩ := hdifferent
      have hrest : ∃ other ∈ rest, (held other).bounds.same next.bounds = false := by
        rcases List.mem_cons.1 hother with rfl | hother
        · rw [hsame] at hotherBounds
          contradiction
        · exact ⟨other, hother, hbounds ▸ hotherBounds⟩
      obtain ⟨listed, fault, hrefused⟩ :=
        ih (fun more hmore => hheld more (List.mem_cons_of_mem record hmore)) hrest h
      refine ⟨listed, fault, ?_⟩
      rw [mergeFrom]
      simp only [hrecord, hnext, bind, ok_bind]
      exact hrefused

/-- What merging histograms comes to: a refusal exactly if two of them have different bounds,
nothing exactly if there are none, and otherwise what they have altogether in each bucket. -/
structure MergesTo (rollUp : Except Failure (Option Histogram)) (histograms : List Histogram) :
    Prop where
  refused_iff : (∃ listed fault, rollUp = .error (.bounds listed fault)) ↔
    ∃ a ∈ histograms, ∃ b ∈ histograms, a.bounds.same b.bounds = false
  none_iff : rollUp = .ok none ↔ histograms = []
  sums : histograms ≠ [] →
    (∀ a ∈ histograms, ∀ b ∈ histograms, a.bounds.same b.bounds = true) →
    ∃ merged, rollUp = .ok (some merged) ∧
      (∀ histogram ∈ histograms, merged.bounds.same histogram.bounds = true) ∧
      ∀ bucket < merged.bounds.size, merged.counts[bucket]? =
        some (histograms.map fun histogram => histogram.inBucket bucket).sum

/-- Records that count few enough things altogether are merged. -/
theorem mergesTo_of_lt {records : List FileRecord}
    (hheld : ∀ record ∈ records, record.histogram measure = .ok (held record))
    (h : (records.map fun record => (held record).total).sum < signedWordLimit) :
    MergesTo (mergeFrom measure none records) (records.map held) := by
  cases records with
  | nil => exact ⟨by simp [mergeFrom], by simp [mergeFrom], fun hsome => absurd rfl hsome⟩
  | cons first rest =>
    rw [List.map_cons, List.sum_cons] at h
    have hrest : ∀ record ∈ rest, record.histogram measure = .ok (held record) :=
      fun record hrecord => hheld record (List.mem_cons_of_mem first hrecord)
    have hfirst : mergeFrom measure none (first :: rest) =
        mergeFrom measure (some (held first)) rest := by
      rw [mergeFrom]
      simp only [hheld first List.mem_cons_self, bind, ok_bind, pure, Except.pure]
    rw [hfirst]
    by_cases hsame : ∀ record ∈ rest, (held record).bounds.same (held first).bounds = true
    · obtain ⟨merged, hmerged, hbounds, hbuckets⟩ := mergeFrom_of_same hrest hsame h
      -- All histograms lie in the places of the first one.
      have hplaces : ∀ histogram ∈ (first :: rest).map held,
          histogram.bounds.places = (held first).bounds.places := by
        intro histogram hhistogram
        obtain ⟨record, hrecord, rfl⟩ := List.mem_map.1 hhistogram
        rcases List.mem_cons.1 hrecord with rfl | hrecord
        · rfl
        · exact Bounds.same_iff.1 (hsame record hrecord)
      rw [hmerged]
      refine ⟨⟨by simp, ?_⟩, by simp, fun _ _ => ⟨merged, rfl, ?_, ?_⟩⟩
      · rintro ⟨a, ha, b, hb, hdifferent⟩
        have hequal : a.bounds.same b.bounds = true :=
          Bounds.same_iff.2 ((hplaces a ha).trans (hplaces b hb).symm)
        rw [hequal] at hdifferent
        contradiction
      · intro histogram hhistogram
        rw [hbounds]
        exact Bounds.same_iff.2 (hplaces histogram hhistogram).symm
      · intro bucket hbucket
        have hsize : bucket < merged.counts.length := merged.size_eq ▸ hbucket
        have hsum := hbuckets bucket
        rw [Histogram.inBucket, List.getD_eq_getElem?_getD, List.getElem?_eq_getElem hsize,
          Option.getD_some] at hsum
        rw [List.getElem?_eq_getElem hsize, hsum, List.map_map, List.map_cons, List.sum_cons]
        rfl
    · have hdifferent : ∃ record ∈ rest, (held record).bounds.same (held first).bounds = false := by
        simpa using hsame
      obtain ⟨listed, fault, hrefused⟩ := mergeFrom_of_different hrest hdifferent h
      obtain ⟨record, hrecord, hbounds⟩ := hdifferent
      have hmem : held record ∈ (first :: rest).map held :=
        List.mem_map_of_mem (List.mem_cons_of_mem first hrecord)
      have hhead : held first ∈ (first :: rest).map held := List.mem_map_of_mem List.mem_cons_self
      rw [hrefused]
      refine ⟨⟨fun _ => ⟨_, hmem, _, hhead, hbounds⟩, fun _ => ⟨listed, fault, rfl⟩⟩, by simp,
        fun _ hall => ?_⟩
      rw [hall _ hmem _ hhead] at hbounds
      contradiction

/-- The order of histograms does not matter for what they merge to. -/
theorem MergesTo.counts_eq_of_perm {rollUp other : Except Failure (Option Histogram)}
    {histograms others : List Histogram} (h : MergesTo rollUp histograms)
    (hother : MergesTo other others) (hperm : others.Perm histograms) :
    other.toOption.map (·.map Histogram.counts) = rollUp.toOption.map (·.map Histogram.counts) := by
  by_cases hnone : histograms = []
  · have hothers : others = [] := by
      rw [hnone] at hperm
      exact hperm.eq_nil
    rw [h.none_iff.2 hnone, hother.none_iff.2 hothers]
  by_cases hdifferent : ∃ a ∈ histograms, ∃ b ∈ histograms, a.bounds.same b.bounds = false
  · have hothers : ∃ a ∈ others, ∃ b ∈ others, a.bounds.same b.bounds = false := by
      simpa only [hperm.mem_iff] using hdifferent
    obtain ⟨_, _, hrefused⟩ := h.refused_iff.2 hdifferent
    obtain ⟨_, _, hotherRefused⟩ := hother.refused_iff.2 hothers
    rw [hrefused, hotherRefused]
    rfl
  · have hsame : ∀ a ∈ histograms, ∀ b ∈ histograms, a.bounds.same b.bounds = true := by
      simpa using hdifferent
    have hotherSame : ∀ a ∈ others, ∀ b ∈ others, a.bounds.same b.bounds = true := by
      simpa only [hperm.mem_iff] using hsame
    have hothers : others ≠ [] := fun hnil => hnone (hnil ▸ hperm).symm.eq_nil
    obtain ⟨merged, hmerged, hbounds, hbuckets⟩ := h.sums hnone hsame
    obtain ⟨otherMerged, hotherMerged, hotherBounds, hotherBuckets⟩ := hother.sums hothers hotherSame
    obtain ⟨histogram, hhistogram⟩ := List.exists_mem_of_ne_nil _ hnone
    have hlength : otherMerged.counts.length = merged.counts.length :=
      Histogram.length_counts_of_same (Bounds.same_iff.2
        ((Bounds.same_iff.1 (hotherBounds histogram (hperm.mem_iff.2 hhistogram))).trans
          (Bounds.same_iff.1 (hbounds histogram hhistogram)).symm))
    have hcounts : otherMerged.counts = merged.counts := by
      refine List.ext_getElem? fun bucket => ?_
      by_cases hbucket : bucket < merged.counts.length
      · rw [hbuckets bucket (merged.size_eq ▸ hbucket),
          hotherBuckets bucket (otherMerged.size_eq ▸ hlength ▸ hbucket)]
        exact congrArg some (hperm.map _).sum_nat
      · rw [List.getElem?_eq_none (Nat.not_lt.1 hbucket),
          List.getElem?_eq_none (hlength ▸ Nat.not_lt.1 hbucket)]
    rw [hmerged, hotherMerged]
    exact congrArg (fun counts => some (some counts)) hcounts

end RecordStore

end SourceGauge
