import SourceGauge.Histogram.Bounds

/-!
# Histograms

A finished histogram: how many values fell into each bucket. There are as many counts as
bounds, and counts are natural numbers of any size. The mode says where the sink may put a
histogram; those built here are only rolled up.
-/

namespace SourceGauge

/-- How many values fell into each bucket, and the measure they are saved under. -/
structure Histogram where
  measure : Measure
  bounds : Bounds
  counts : List Nat
  mode : PersistenceMode
  size_eq : counts.length = bounds.size

namespace Histogram

/-- A whole number other than a truth value. -/
def wholeNumber? : Value → Option Int
  | .number (.int n) => some n
  | _ => none

/-- The count that a value is. -/
def toCount (value : Value) : Except Failure Int :=
  match wholeNumber? value with
  | some n => .ok n
  | none => .error (.ofCount value (.countNotInteger value))

/-- A histogram of whole numbers, if there is one for each bucket and none is negative. -/
def ofInts (measure : Measure) (bounds : Bounds) (counts : List Int)
    (mode : PersistenceMode) : Except Failure Histogram :=
  if h : counts.length = bounds.size then
    if counts.any (· < 0) then .error (.value .negativeCounts)
    else .ok ⟨measure, bounds, counts.map Int.toNat, mode, by simpa using h⟩
  else .error (.value (.countsMismatch counts.length bounds.size))

/-- A histogram of values given for its bounds and counts. -/
def ofValues (measure : Measure) (bounds counts : Value) (mode : PersistenceMode) :
    Except Failure Histogram := do
  let bounds ← Bounds.ofValue bounds
  let items ← counts.elements
  let counts ← mapOk toCount items
  ofInts measure bounds counts mode

/-- The histogram in which every bucket is empty. -/
def empty (measure : Measure) (bounds : Bounds) : Histogram :=
  ⟨measure, bounds, List.replicate bounds.size 0, .memory, by simp⟩

/-- How many values were counted. -/
def total (histogram : Histogram) : Nat := histogram.counts.foldr (· + ·) 0

/-- The buckets: each lower bound with its count. -/
def buckets (histogram : Histogram) : List (Number × Nat) :=
  histogram.bounds.values.zip histogram.counts

/-- The count of the bucket with a given lower bound. -/
def countAt? (histogram : Histogram) (bound : Value) : Option Nat :=
  match bound.number? with
  | some n => (histogram.buckets.find? fun bucket => bucket.1.eqv n).map Prod.snd
  | none => none

/-- The count of the bucket with a given lower bound, which must be one. -/
def countAt (histogram : Histogram) (bound : Value) : Except Failure Nat :=
  match histogram.countAt? bound with
  | some count => .ok count
  | none => .error (.missingKey bound.full)

/-- Whether two histograms are equal, bounds being compared as numbers. -/
def same (a b : Histogram) : Bool :=
  a.measure == b.measure && a.bounds.same b.bounds && a.counts == b.counts && a.mode == b.mode

/-- Counts that pass are those given. -/
theorem ofInts_eq_ok {measure : Measure} {bounds : Bounds} {counts : List Int}
    {mode : PersistenceMode} {histogram : Histogram}
    (h : ofInts measure bounds counts mode = .ok histogram) :
    histogram.measure = measure ∧ histogram.bounds = bounds ∧ histogram.mode = mode ∧
      counts = histogram.counts.map Int.ofNat := by
  unfold ofInts at h
  split at h
  · split at h
    · contradiction
    · rename_i hnonneg
      injection h with h
      subst h
      refine ⟨rfl, rfl, rfl, ?_⟩
      rw [List.map_map]
      refine (List.map_id counts).symm.trans (List.map_congr_left fun c hc => ?_)
      have hc0 : ¬ c < 0 := fun hneg =>
        hnonneg (List.any_eq_true.2 ⟨c, hc, by simpa using hneg⟩)
      exact (Int.toNat_of_nonneg (Int.not_lt.1 hc0)).symm
  · contradiction

/-- Natural numbers, one for each bucket, pass as counts. -/
theorem ofInts_natCast (measure : Measure) {bounds : Bounds} {counts : List Nat}
    (hsize : counts.length = bounds.size) (mode : PersistenceMode) :
    ofInts measure bounds (counts.map Int.ofNat) mode =
      .ok ⟨measure, bounds, counts, mode, hsize⟩ := by
  have hnonneg : ((counts.map Int.ofNat).any (· < 0)) = false := by
    rw [List.any_eq_false]
    intro n hn
    obtain ⟨count, _, rfl⟩ := List.mem_map.1 hn
    simp
  have hback : (counts.map Int.ofNat).map Int.toNat = counts := by
    rw [List.map_map]
    exact List.map_id'' (fun _ => rfl) counts
  rw [ofInts]
  simp only [List.length_map, hsize, dif_pos, hnonneg, Bool.false_eq_true, if_false, hback]

/-- The empty histogram counts nothing. -/
theorem total_empty (measure : Measure) (bounds : Bounds) : (empty measure bounds).total = 0 := by
  show (List.replicate bounds.size 0).foldr (· + ·) 0 = 0
  induction bounds.size with
  | zero => rfl
  | succ n ih => simpa [List.replicate_succ] using ih

end Histogram

end SourceGauge
