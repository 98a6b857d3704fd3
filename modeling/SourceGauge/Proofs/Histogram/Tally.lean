import Mathlib.Algebra.BigOperators.Group.List.Basic
import Mathlib.Algebra.Ring.Nat
import SourceGauge.Histogram.Builder

/-!
# Tallies

How often values of a list fall into each bucket, every value coming with the number of times it
is counted. A tally does not depend on the order of the list, the tally of two lists is the sum
of their tallies, and since every value falls into one of the buckets, all counts together make
up the number of times anything is counted.

Counts are natural numbers of any size here; what words hold of them is not.
-/

namespace SourceGauge

/-- How many times anything is counted. -/
def timesCounted : List (Number × Nat) → Nat
  | [] => 0
  | add :: rest => add.2 + timesCounted rest

@[simp] theorem timesCounted_append (adds others : List (Number × Nat)) :
    timesCounted (adds ++ others) = timesCounted adds + timesCounted others := by
  induction adds with
  | nil => simp [timesCounted]
  | cons add rest ih => simp [timesCounted, ih, Nat.add_assoc]

/-- The order does not matter. -/
theorem timesCounted_perm {adds others : List (Number × Nat)} (h : adds.Perm others) :
    timesCounted adds = timesCounted others := by
  induction h with
  | nil => rfl
  | cons add _ ih => simp only [timesCounted, ih]
  | swap first second rest => simp only [timesCounted]; omega
  | trans _ _ ihFirst ihSecond => exact ihFirst.trans ihSecond

/-- What is counted of a list is what is counted of its first member and of the others. -/
theorem timesCounted_filter_cons (keep : Number × Nat → Bool) (add : Number × Nat)
    (rest : List (Number × Nat)) :
    timesCounted ((add :: rest).filter keep) =
      (if keep add then add.2 else 0) + timesCounted (rest.filter keep) := by
  rw [List.filter_cons]
  cases keep add <;> simp [timesCounted]

/-- Where everything is counted at least once, what is kept is counted zero times if and only if
nothing is kept. -/
theorem timesCounted_filter_eq_zero_iff {keep : Number × Nat → Bool} {adds : List (Number × Nat)}
    (h : ∀ add ∈ adds, 0 < add.2) :
    timesCounted (adds.filter keep) = 0 ↔ ∀ add ∈ adds, keep add = false := by
  induction adds with
  | nil => exact ⟨fun _ => List.forall_mem_nil _, fun _ => rfl⟩
  | cons add rest ih =>
    obtain ⟨hadd, hrest⟩ := List.forall_mem_cons.1 h
    rw [timesCounted_filter_cons, List.forall_mem_cons, ← ih hrest]
    cases keep add with
    | false => simp
    | true =>
      simp only [if_true, Bool.true_eq_false, false_and, iff_false]
      omega

/-- Values that are counted once each. -/
def onceEach (values : List Number) : List (Number × Nat) := values.map fun value => (value, 1)

@[simp] theorem timesCounted_onceEach (values : List Number) :
    timesCounted (onceEach values) = values.length := by
  induction values with
  | nil => rfl
  | cons value rest ih =>
    rw [List.length_cons, ← ih, Nat.add_comm]
    rfl

@[simp] theorem onceEach_append (values others : List Number) :
    onceEach (values ++ others) = onceEach values ++ onceEach others := List.map_append

theorem onceEach_perm {values others : List Number} (h : values.Perm others) :
    (onceEach values).Perm (onceEach others) := h.map _

namespace Builder

/-- There are no more limits than bounds. -/
theorem rank_le_size (bounds : Bounds) (value : Number) : rank bounds value ≤ bounds.size :=
  Nat.le_trans List.countP_le_length (List.length_filterMap_le _ _)

/-- Every value falls into one of the buckets. -/
theorem bucketOf_lt_size (bounds : Bounds) (value : Number) :
    (bucketOf bounds value).1 < bounds.size := by
  have hrank := rank_le_size bounds value
  have hpos := bounds.size_pos
  rw [bucketOf]
  cases hvalue : rank bounds value with
  | zero => exact hpos
  | succ n =>
    rw [hvalue] at hrank
    exact hrank

end Builder

namespace Bounds

/-- How often something is counted into a bucket. -/
def load (bounds : Bounds) : List (Number × Nat) → Nat → Nat
  | [], _ => 0
  | add :: rest, bucket =>
    (if (Builder.bucketOf bounds add.1).1 = bucket then add.2 else 0) + bounds.load rest bucket

/-- How often something is counted into each bucket. -/
def tally (bounds : Bounds) (adds : List (Number × Nat)) : List Nat :=
  (List.range bounds.size).map (bounds.load adds)

variable (bounds : Bounds)

@[simp] theorem load_nil (bucket : Nat) : bounds.load [] bucket = 0 := rfl

theorem load_append (adds others : List (Number × Nat)) (bucket : Nat) :
    bounds.load (adds ++ others) bucket = bounds.load adds bucket + bounds.load others bucket := by
  induction adds with
  | nil => simp
  | cons add rest ih => simp [load, ih, Nat.add_assoc]

/-- The order in which values are counted does not matter. -/
theorem load_perm {adds others : List (Number × Nat)} (h : adds.Perm others) (bucket : Nat) :
    bounds.load adds bucket = bounds.load others bucket := by
  induction h with
  | nil => rfl
  | cons add _ ih => simp only [load, ih]
  | swap first second rest => simp only [load]; omega
  | trans _ _ ihFirst ihSecond => exact ihFirst.trans ihSecond

/-- No bucket is loaded more often than anything is counted. -/
theorem load_le (adds : List (Number × Nat)) (bucket : Nat) :
    bounds.load adds bucket ≤ timesCounted adds := by
  induction adds with
  | nil => exact Nat.le_refl 0
  | cons add rest ih =>
    simp only [load, timesCounted]
    split <;> omega

@[simp] theorem length_tally (adds : List (Number × Nat)) :
    (bounds.tally adds).length = bounds.size := by simp [tally]

@[simp] theorem getElem_tally (adds : List (Number × Nat)) (bucket : Nat)
    (h : bucket < (bounds.tally adds).length) :
    (bounds.tally adds)[bucket] = bounds.load adds bucket := by simp [tally]

theorem tally_nil : bounds.tally [] = List.replicate bounds.size 0 := by
  refine List.ext_getElem (by simp) fun bucket _ _ => ?_
  simp

theorem tally_perm {adds others : List (Number × Nat)} (h : adds.Perm others) :
    bounds.tally adds = bounds.tally others := by
  unfold tally
  rw [funext (bounds.load_perm h)]

/-- The tally of two lists together is the sum of theirs, bucket by bucket. -/
theorem tally_append (adds others : List (Number × Nat)) :
    bounds.tally (adds ++ others) =
      List.zipWith (· + ·) (bounds.tally adds) (bounds.tally others) := by
  refine List.ext_getElem (by simp) fun bucket _ _ => ?_
  simp [load_append]

/-- Counting one more value changes the count of its bucket. -/
theorem tally_concat (adds : List (Number × Nat)) (add : Number × Nat) :
    bounds.tally (adds ++ [add]) =
      (bounds.tally adds).modify (Builder.bucketOf bounds add.1).1 (· + add.2) := by
  refine List.ext_getElem (by simp) fun bucket _ _ => ?_
  rw [getElem_tally, List.getElem_modify, getElem_tally, load_append]
  simp only [load, Nat.add_zero]
  split <;> rfl

/-- Only one of the buckets takes a value. -/
theorem foldr_map_bucket {items : List Nat} (h : items.Nodup) (bucket count : Nat) :
    (items.map fun i => if bucket = i then count else 0).foldr (· + ·) 0 =
      if bucket ∈ items then count else 0 := by
  induction items with
  | nil => rfl
  | cons i rest ih =>
    rw [List.nodup_cons] at h
    rw [List.map_cons, List.foldr_cons, ih h.2]
    by_cases hfirst : bucket = i
    · subst hfirst
      simp [h.1]
    · simp [hfirst]

/-- All counts of a tally fit what the number of times anything is counted fits. -/
theorem lt_of_mem_tally {adds : List (Number × Nat)} {limit : Nat} (h : timesCounted adds < limit) :
    ∀ count ∈ bounds.tally adds, count < limit := by
  intro count hcount
  obtain ⟨bucket, _, rfl⟩ := List.mem_map.1 hcount
  exact Nat.lt_of_le_of_lt (bounds.load_le adds bucket) h

/-- All counts of a tally together make up the number of times anything is counted. -/
theorem foldr_tally (adds : List (Number × Nat)) :
    (bounds.tally adds).foldr (· + ·) 0 = timesCounted adds := by
  induction adds with
  | nil =>
    rw [tally_nil, timesCounted]
    induction bounds.size with
    | zero => rfl
    | succ size ih => rw [List.replicate_succ, List.foldr_cons, ih]
  | cons add rest ih =>
    have hbucket : (Builder.bucketOf bounds add.1).1 ∈ List.range bounds.size :=
      List.mem_range.2 (Builder.bucketOf_lt_size bounds add.1)
    have hmore : ((List.range bounds.size).map fun bucket =>
        if (Builder.bucketOf bounds add.1).1 = bucket then add.2 else 0).sum = add.2 := by
      rw [List.sum_eq_foldr, foldr_map_bucket List.nodup_range, if_pos hbucket]
    rw [tally, ← List.sum_eq_foldr] at ih ⊢
    simp only [load]
    rw [List.sum_map_add, hmore, ih, timesCounted]

end Bounds

namespace Histogram

/-- The histogram of a tally. -/
def tallied (measure : Measure) (bounds : Bounds) (adds : List (Number × Nat)) : Histogram :=
  ⟨measure, bounds, bounds.tally adds, .memory, bounds.length_tally adds⟩

/-- A histogram does not depend on the order in which values were counted. -/
theorem tallied_perm (measure : Measure) (bounds : Bounds) {adds others : List (Number × Nat)}
    (h : adds.Perm others) : tallied measure bounds adds = tallied measure bounds others := by
  simp only [tallied, bounds.tally_perm h]

/-- The total of a histogram is the number of times anything was counted. -/
@[simp] theorem total_tallied (measure : Measure) (bounds : Bounds)
    (adds : List (Number × Nat)) : (tallied measure bounds adds).total = timesCounted adds :=
  bounds.foldr_tally adds

end Histogram

end SourceGauge
