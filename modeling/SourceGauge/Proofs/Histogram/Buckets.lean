import SourceGauge.Proofs.Histogram.Tally
import SourceGauge.Proofs.Number.Exact

/-!
# What a bucket takes

The search for the bucket of a value counts the bounds that are at most the value. Since bounds
increase, those come first, and the search finds the bucket whose bound is at most the value while
the next one is not; if there is none the value lies below the lowest bound. From this every count
of a tally is the number of times a value that the bucket takes was counted, the first bucket
taking the values below all bounds as well.

The search rounds both sides. All this is about bounds and values that are exactly representable;
for others the search can find a neighbouring bucket.
-/

namespace SourceGauge

/-- Where a property holds of every member in front of one that it holds of, it holds of as many
leading members as it holds of members. -/
theorem any_getElem?_iff_lt_countP {α : Type} {holds : α → Bool} {items : List α}
    (h : items.Pairwise fun a b => holds b = true → holds a = true) (i : Nat) :
    items[i]?.any holds = true ↔ i < items.countP holds := by
  induction items generalizing i with
  | nil => simp
  | cons a rest ih =>
    obtain ⟨hfirst, hrest⟩ := List.pairwise_cons.1 h
    cases ha : holds a with
    | true =>
      rw [List.countP_cons_of_pos ha]
      cases i with
      | zero => simp [ha]
      | succ i => rw [List.getElem?_cons_succ, ih hrest, Nat.add_lt_add_iff_right]
    | false =>
      have hnone : rest.countP holds = 0 := by
        rw [List.countP_eq_zero]
        intro b hb hholds
        exact absurd (hfirst b hb hholds) (by simp [ha])
      rw [List.countP_cons_of_neg (by simp [ha]), hnone]
      cases i with
      | zero => simp [ha]
      | succ i => rw [List.getElem?_cons_succ, ih hrest, hnone]; omega

namespace Number

/-- A finite number lies somewhere. -/
theorem extent?_of_isFinite? {n : Number} (h : n.isFinite? = some true) :
    ∃ extent, n.extent? = some extent := by
  cases n with
  | flag value => exact ⟨_, rfl⟩
  | int value => exact ⟨_, rfl⟩
  | real x =>
    cases x with
    | nan => simp [isFinite?, toBinary64?, Binary64.isFinite] at h
    | infinite negative => exact ⟨_, rfl⟩
    | finite negative units hunits => exact ⟨_, rfl⟩

/-- Of two numbers that lie somewhere, one is less than the other unless the other is at most
it. -/
theorem lt_eq_not_le {a b : Number} {x y : Extent} (ha : a.extent? = some x)
    (hb : b.extent? = some y) : a.lt b = !b.le a := by
  rw [lt, le, ha, hb]

/-- What is less than a number is at most it. -/
theorem le_of_lt {a b : Number} (h : a.lt b = true) : a.le b = true := by
  rw [lt] at h
  rw [le]
  cases ha : a.extent? with
  | none => simp [ha] at h
  | some x =>
    cases hb : b.extent? with
    | none => simp [ha, hb] at h
    | some y =>
      simp only [ha, hb, Bool.not_eq_true'] at h ⊢
      exact (Extent.le_total x y).resolve_right (by simp [h])

end Number

namespace Builder

/-- An exact number is looked up where it lies. -/
theorem extent?_searched {n : Number} (h : n.IsExact) : (searched n).extent? = n.extent? := by
  cases n with
  | flag value => rfl
  | int value =>
    rw [searched]
    split
    · exact Number.extent?_ofInt (Number.representable_of_isExact h)
    · rfl
  | real x => rfl

end Builder

namespace Bounds

/-- Whether a bucket takes a value: its bound is at most the value, and the next bound, if there is
one, is greater. -/
def takes (bounds : Bounds) (bucket : Nat) (value : Number) : Bool :=
  bounds.values[bucket]?.any (·.le value) && bounds.values[bucket + 1]?.all value.lt

/-- Whether a value lies below all bounds. -/
def clamps (bounds : Bounds) (value : Number) : Bool := value.lt bounds.lowest

variable {bounds : Bounds} {value : Number}

/-- Among exact numbers the search counts the bounds that are at most the value. -/
theorem rank_of_isExact (hbounds : ∀ bound ∈ bounds.values, bound.IsExact)
    (hvalue : value.IsExact) :
    Builder.rank bounds value = bounds.values.countP (·.le value) := by
  rw [Builder.rank, limits, List.countP_filterMap]
  refine List.countP_congr fun bound hbound => ?_
  obtain ⟨x, hx, _⟩ :=
    Option.map_eq_some_iff.1 (isFinite?_of_isBound (bounds.bound bound hbound))
  have hle : (Number.real x).le (Builder.searched value) = bound.le value :=
    Number.le_congr (Number.extent?_of_toBinary64? (hbounds bound hbound) hx)
      (Builder.extent?_searched hvalue)
  rw [hx, Option.map_some, Option.getD_some, hle]

/-- The bounds that are at most a value come first. -/
theorem any_le_iff (bounds : Bounds) (value : Number) (i : Nat) :
    bounds.values[i]?.any (·.le value) = true ↔ i < bounds.values.countP (·.le value) :=
  any_getElem?_iff_lt_countP
    (bounds.increasing.imp fun hab hb => Number.le_trans (Number.le_of_lt hab) hb) i

/-- A bound is greater than a value if it is not at most it. -/
theorem all_lt_eq (bounds : Bounds) (hfinite : value.isFinite? = some true) (i : Nat) :
    bounds.values[i]?.all value.lt = !bounds.values[i]?.any (·.le value) := by
  obtain ⟨y, hy⟩ := Number.extent?_of_isFinite? hfinite
  cases hbound : bounds.values[i]? with
  | none => rfl
  | some bound =>
    obtain ⟨x, hx⟩ := extent?_of_isBound (bounds.bound bound (List.mem_of_getElem? hbound))
    rw [Option.all_some, Option.any_some, Number.lt_eq_not_le hy hx]

/-- A bucket takes a value if its bound is at most the value and no later one is. -/
theorem takes_iff_countP (hfinite : value.isFinite? = some true) (bucket : Nat) :
    bounds.takes bucket value = true ↔ bounds.values.countP (·.le value) = bucket + 1 := by
  have hnext : (!bounds.values[bucket + 1]?.any (·.le value)) = true ↔
      ¬ bucket + 1 < bounds.values.countP (·.le value) := by
    rw [Bool.not_eq_true', ← Bool.not_eq_true, any_le_iff]
  rw [takes, bounds.all_lt_eq hfinite, Bool.and_eq_true, any_le_iff, hnext]
  omega

/-- A bucket takes a value if the search counts its bound and no later one. -/
theorem takes_iff (hbounds : ∀ bound ∈ bounds.values, bound.IsExact) (hvalue : value.IsExact)
    (hfinite : value.isFinite? = some true) (bucket : Nat) :
    bounds.takes bucket value = true ↔ Builder.rank bounds value = bucket + 1 := by
  rw [takes_iff_countP hfinite, rank_of_isExact hbounds hvalue]

/-- A value lies below all bounds if none is at most it. -/
theorem clamps_iff_countP (hfinite : value.isFinite? = some true) :
    bounds.clamps value = true ↔ bounds.values.countP (·.le value) = 0 := by
  have hlowest : bounds.values[0]? = some bounds.lowest := by
    rw [← List.head?_eq_getElem?, lowest, List.head?_eq_some_head]
  have hall := bounds.all_lt_eq hfinite 0
  rw [hlowest, Option.all_some, ← hlowest] at hall
  rw [clamps, hall, Bool.not_eq_true', ← Bool.not_eq_true, any_le_iff]
  omega

/-- A value lies below all bounds if the search counts none. -/
theorem clamps_iff (hbounds : ∀ bound ∈ bounds.values, bound.IsExact) (hvalue : value.IsExact)
    (hfinite : value.isFinite? = some true) :
    bounds.clamps value = true ↔ Builder.rank bounds value = 0 := by
  rw [clamps_iff_countP hfinite, rank_of_isExact hbounds hvalue]

/-- A value is clamped if it lies below all bounds. -/
theorem clamps_eq (hbounds : ∀ bound ∈ bounds.values, bound.IsExact) (hvalue : value.IsExact)
    (hfinite : value.isFinite? = some true) :
    bounds.clamps value = (Builder.bucketOf bounds value).2 := by
  rw [Bool.eq_iff_iff, clamps_iff hbounds hvalue hfinite, Builder.bucketOf]
  cases Builder.rank bounds value <;> simp

end Bounds

/-- How often a bucket is counted into: as often as it takes a value, and the first one also as
often as a value lies below all bounds. -/
theorem Bounds.load_eq {bounds : Bounds} {adds : List (Number × Nat)}
    (hbounds : ∀ bound ∈ bounds.values, bound.IsExact)
    (hadds : ∀ add ∈ adds, add.1.IsExact ∧ add.1.isFinite? = some true) (bucket : Nat) :
    bounds.load adds bucket = timesCounted (adds.filter fun add => bounds.takes bucket add.1) +
      if bucket = 0 then timesCounted (adds.filter fun add => bounds.clamps add.1) else 0 := by
  induction adds with
  | nil => simp [timesCounted]
  | cons add rest ih =>
    obtain ⟨hexact, hfinite⟩ := hadds add List.mem_cons_self
    have htakes := takes_iff hbounds hexact hfinite bucket
    have hclamps := clamps_iff hbounds hexact hfinite
    rw [load, ih fun other hother => hadds other (List.mem_cons_of_mem add hother),
      timesCounted_filter_cons, timesCounted_filter_cons, Builder.bucketOf]
    -- Either the search counts no bound, or all up to that of one bucket.
    cases hrank : Builder.rank bounds add.1 with
    | zero =>
      have hbucket : bounds.takes bucket add.1 = false := by
        rw [← Bool.not_eq_true, htakes, hrank]
        omega
      simp only [hbucket, hclamps.2 hrank, Bool.false_eq_true, if_false, if_true]
      split <;> split <;> omega
    | succ n =>
      have hnone : bounds.clamps add.1 = false := by
        rw [← Bool.not_eq_true, hclamps, hrank]
        omega
      have hbucket : (bounds.takes bucket add.1 = true) = (n = bucket) := by
        rw [htakes, hrank, Nat.add_right_cancel_iff]
      simp only [hbucket, hnone, Bool.false_eq_true, if_false, Nat.zero_add]
      omega

end SourceGauge
