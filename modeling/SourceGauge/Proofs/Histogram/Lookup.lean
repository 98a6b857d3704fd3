import SourceGauge.Proofs.Histogram.Feeding
import SourceGauge.Proofs.Number.Order

/-!
# Declared buckets and found ones

Bounds declare for every value the bucket with the greatest bound that is at most it, or the first
one, clamped, if the value lies below the lowest bound. The search looks at rounded bounds, and at a
value that is rounded as well unless it is too wide for a word. A bound can so come to lie on the
other side of the value. The declared bucket is found if and only if that happens to no bound: never
among exact numbers, but for a value that fits a word as soon as a greater bound is rounded to the
same real, and for a wide value as soon as a bound is rounded across it.

Since rounding keeps the order, the bounds that are found to be at most a value are the first ones
in any case.
-/

namespace SourceGauge

/-- Where each of two properties holds of every member in front of one that it holds of, they hold
of as many members only if they hold of the same ones. -/
theorem countP_eq_countP_iff {α : Type} {holds other : α → Bool} {items : List α}
    (hholds : items.Pairwise fun a b => holds b = true → holds a = true)
    (hother : items.Pairwise fun a b => other b = true → other a = true) :
    items.countP holds = items.countP other ↔ ∀ item ∈ items, holds item = other item := by
  constructor
  · intro h item hitem
    obtain ⟨i, hi⟩ := List.mem_iff_getElem?.1 hitem
    have hfirst := any_getElem?_iff_lt_countP hholds i
    have hsecond := any_getElem?_iff_lt_countP hother i
    rw [hi, Option.any_some] at hfirst hsecond
    rw [Bool.eq_iff_iff, hfirst, hsecond, h]
  · intro h
    exact List.countP_congr fun item hitem => by rw [h item hitem]

/-- A bound has a finite real and lies at some units. -/
theorem Bounds.exists_units {bound : Number} (h : isBound bound = true) :
    ∃ (x : Binary64) (units : Int), bound.toBinary64? = some x ∧ x.isFinite = true ∧
      bound.extent? = some (.at units) :=
  Number.exists_units (isFinite?_of_isBound h)

namespace Builder

/-! ## What the search sees -/

/-- A whole number that fits no word. The search takes it as it is. -/
def IsWide (value : Number) : Prop :=
  ∃ n : Int, value = .int n ∧ (n < -(signedWordLimit : Int) ∨ (unsignedWordLimit : Int) ≤ n)

/-- Whether the search finds a bound to be at most a value. -/
def reaches (value bound : Number) : Bool :=
  bound.toBinary64?.any fun limit => (Number.real limit).le (searched value)

/-- The search gets wrong whether a bound is at most a value. -/
def Misjudges (value bound : Number) : Prop := reaches value bound ≠ bound.le value

instance (value bound : Number) : Decidable (Misjudges value bound) :=
  inferInstanceAs (Decidable (_ ≠ _))

variable {bounds : Bounds} {value bound : Number}

/-- The rank of a value is the number of bounds that it is found to reach. -/
theorem rank_eq_countP (bounds : Bounds) (value : Number) :
    rank bounds value = bounds.values.countP (reaches value) := by
  rw [rank, Bounds.limits, List.countP_filterMap]
  refine List.countP_congr fun bound _ => ?_
  rw [reaches]
  cases bound.toBinary64? <;> simp

/-- A wide value is looked up where it lies. -/
theorem searched_of_isWide (h : IsWide value) : searched value = value := by
  obtain ⟨n, rfl, hwide⟩ := h
  have hword : ¬(-(signedWordLimit : Int) ≤ n ∧ n < (unsignedWordLimit : Int)) := by omega
  simp only [searched, Bool.and_eq_true, decide_eq_true_eq, if_neg hword]

/-- A value that is not wide is looked up where it is rounded to. -/
theorem extent?_searched_of_not_isWide (h : ¬IsWide value) (hfinite : value.isFinite? = some true)
    {units : Int} (hunits : value.extent? = some (.at units)) :
    (searched value).extent? = some (.at (roundedUnits units)) := by
  obtain ⟨x, _, hx, hxfinite, _⟩ := Number.exists_units hfinite
  have hrounded := Number.extent?_real_of_toBinary64? hx hxfinite hunits
  cases value with
  | flag value =>
    obtain rfl := Option.some.inj hx
    have hexact : (Number.int (Number.ofFlag value)).IsExact := by cases value <;> decide +kernel
    rw [Number.extent?_ofInt (Number.representable_of_isExact hexact)] at hrounded
    exact hrounded
  | int n =>
    have hword : -(signedWordLimit : Int) ≤ n ∧ n < (unsignedWordLimit : Int) := by
      refine ⟨Int.not_lt.1 fun hlow => h ⟨n, rfl, .inl hlow⟩,
        Int.not_le.1 fun hhigh => h ⟨n, rfl, .inr hhigh⟩⟩
    simp only [Number.toBinary64?, Option.ite_none_right_eq_some, Option.some.injEq] at hx
    simp only [searched, Bool.and_eq_true, decide_eq_true_eq, if_pos hword]
    rw [hx.2]
    exact hrounded
  | real y =>
    obtain rfl := Option.some.inj hx
    exact hrounded

/-- A finite value is looked up at some units. -/
theorem exists_extent?_searched (hfinite : value.isFinite? = some true) :
    ∃ units, (searched value).extent? = some (.at units) := by
  obtain ⟨_, units, _, _, hunits⟩ := Number.exists_units hfinite
  by_cases hwide : IsWide value
  · exact ⟨units, by rw [searched_of_isWide hwide, hunits]⟩
  · exact ⟨_, extent?_searched_of_not_isWide hwide hfinite hunits⟩

/-- A bound is found to be at most a value by where it is rounded to. -/
theorem reaches_eq_decide (hbound : isBound bound = true) {units place : Int}
    (hunits : bound.extent? = some (.at units))
    (hplace : (searched value).extent? = some (.at place)) :
    reaches value bound = decide (roundedUnits units ≤ place) := by
  obtain ⟨x, _, hx, hfinite, _⟩ := Bounds.exists_units hbound
  have hlimit := Number.extent?_real_of_toBinary64? hx hfinite hunits
  rw [reaches, hx, Option.any_some, Number.le_eq_decide hlimit hplace]

/-- What is found to reach a bound is found to reach the bounds before it. -/
theorem pairwise_reaches (bounds : Bounds) (hfinite : value.isFinite? = some true) :
    bounds.values.Pairwise fun a b => reaches value b = true → reaches value a = true := by
  obtain ⟨place, hplace⟩ := exists_extent?_searched hfinite
  refine bounds.increasing.imp_of_mem fun {a b} ha hb hab hreached => ?_
  have hboundA := bounds.bound a ha
  have hboundB := bounds.bound b hb
  obtain ⟨_, units, _, _, hunits⟩ := Bounds.exists_units hboundA
  obtain ⟨_, more, _, _, hmore⟩ := Bounds.exists_units hboundB
  have hless : units < more := by simpa [Number.lt_eq_decide hunits hmore] using hab
  rw [reaches_eq_decide hboundB hmore hplace, decide_eq_true_eq] at hreached
  rw [reaches_eq_decide hboundA hunits hplace, decide_eq_true_eq]
  exact Int.le_trans (roundedUnits_mono (Int.le_of_lt hless)) hreached

/-- A value that is not wide is misjudged by the greater bounds with the same real. -/
theorem misjudges_iff_of_not_isWide (h : ¬IsWide value) (hfinite : value.isFinite? = some true)
    (hbound : isBound bound = true) :
    Misjudges value bound ↔ value.lt bound = true ∧ bound.RoundAlike value := by
  obtain ⟨x, units, hx, hxfinite, hunits⟩ := Bounds.exists_units hbound
  obtain ⟨y, place, hy, hyfinite, hplace⟩ := Number.exists_units hfinite
  have hlimit := Number.extent?_real_of_toBinary64? hx hxfinite hunits
  have hlooked := Number.extent?_real_of_toBinary64? hy hyfinite hplace
  have halike : bound.RoundAlike value ↔ roundedUnits units = roundedUnits place := by
    simp only [Number.RoundAlike, hx, hy, Option.some.injEq, exists_eq_left', exists_and_left,
      Number.eqv, hlimit, hlooked, decide_eq_true_eq, Extent.at.injEq]
  rw [halike, Misjudges, reaches_eq_decide hbound hunits
      (extent?_searched_of_not_isWide h hfinite hplace),
    Number.le_eq_decide hunits hplace, Number.lt_eq_decide hplace hunits, decide_eq_true_eq,
    Ne, decide_eq_decide]
  -- Where the bound is at most the value, so are their reals.
  rcases Int.lt_or_le place units with hless | hle
  · have hmono := roundedUnits_mono (Int.le_of_lt hless)
    omega
  · have hmono := roundedUnits_mono hle
    omega

/-- A wide value is misjudged by the bounds that are rounded across it. -/
theorem misjudges_iff_of_isWide (h : IsWide value) (hfinite : value.isFinite? = some true)
    (hbound : isBound bound = true) :
    Misjudges value bound ↔ ∃ limit, bound.toBinary64? = some limit ∧
      (bound.le value = true ∧ value.lt (.real limit) = true ∨
        value.lt bound = true ∧ (Number.real limit).le value = true) := by
  obtain ⟨x, units, hx, hxfinite, hunits⟩ := Bounds.exists_units hbound
  obtain ⟨_, place, _, _, hplace⟩ := Number.exists_units hfinite
  have hlimit := Number.extent?_real_of_toBinary64? hx hxfinite hunits
  have hlooked : (searched value).extent? = some (.at place) := by
    rw [searched_of_isWide h, hplace]
  simp only [hx, Option.some.injEq, exists_eq_left', Misjudges, Ne, decide_eq_decide,
    reaches_eq_decide hbound hunits hlooked, Number.le_eq_decide hunits hplace,
    Number.lt_eq_decide hplace hunits, Number.le_eq_decide hlimit hplace,
    Number.lt_eq_decide hplace hlimit, decide_eq_true_eq]
  omega

/-- Exact numbers are not misjudged. -/
theorem not_misjudges_of_isExact (hvalue : value.IsExact) (hexact : bound.IsExact)
    (hbound : isBound bound = true) : ¬Misjudges value bound := by
  obtain ⟨x, _, hx, _, _⟩ := Bounds.exists_units hbound
  rw [Misjudges, Ne, not_not, reaches, hx, Option.any_some]
  exact Number.le_congr (Number.extent?_of_toBinary64? hexact hx) (extent?_searched hvalue)

end Builder

/-! ## Declared buckets -/

namespace Bounds

/-- Where bounds declare a value to be counted: in the bucket with the greatest bound that is at
most it, or in the first one, clamped, if it lies below the lowest bound. -/
inductive Declares (bounds : Bounds) (value : Number) : Nat → Bool → Prop
  | reached {bucket : Nat} (h : bounds.values[bucket]?.any (·.le value) = true)
    (hlast : ∀ later > bucket, bounds.values[later]?.any (·.le value) = false) :
    Declares bounds value bucket false
  | below (h : value.lt bounds.lowest = true) : Declares bounds value 0 true

variable {bounds : Bounds} {value : Number} {bucket : Nat}

/-- The bucket with the greatest bound that is at most a value is the last of those whose bounds
are. -/
theorem declares_reached_iff :
    bounds.Declares value bucket false ↔ bounds.values.countP (·.le value) = bucket + 1 := by
  constructor
  · rintro (⟨h, hlast⟩ | _)
    have hcounted := (bounds.any_le_iff value bucket).1 h
    have hnext := hlast (bucket + 1) (Nat.lt_succ_self bucket)
    rw [← Bool.not_eq_true, any_le_iff] at hnext
    omega
  · intro h
    refine .reached ((bounds.any_le_iff value bucket).2 (by omega)) fun later hlater => ?_
    rw [← Bool.not_eq_true, any_le_iff]
    omega

/-- A value is declared to be clamped if no bound is at most it. -/
theorem declares_clamped_iff (hfinite : value.isFinite? = some true) :
    bounds.Declares value bucket true ↔
      bucket = 0 ∧ bounds.values.countP (·.le value) = 0 := by
  rw [← clamps_iff_countP hfinite]
  constructor
  · rintro (_ | h)
    exact ⟨rfl, h⟩
  · rintro ⟨rfl, h⟩
    exact .below h

/-- A declared bucket is one of the buckets. -/
theorem Declares.lt_size {clamped : Bool} (h : bounds.Declares value bucket clamped) :
    bucket < bounds.size := by
  cases h with
  | reached h _ =>
    have hcounted := (bounds.any_le_iff value bucket).1 h
    exact Nat.lt_of_lt_of_le hcounted List.countP_le_length
  | below h => exact bounds.size_pos

end Bounds

namespace Builder

variable {builder : Builder} {bounds : Bounds} {value : Number} {times : Nat}

/-- What is found is what is declared if and only if no bound is misjudged. -/
theorem declares_bucketOf_iff (hfinite : value.isFinite? = some true) :
    bounds.Declares value (bucketOf bounds value).1 (bucketOf bounds value).2 ↔
      ∀ bound ∈ bounds.values, ¬Misjudges value bound := by
  have hordered : bounds.values.Pairwise fun a b => b.le value = true → a.le value = true :=
    bounds.increasing.imp fun hab hb => Number.le_trans (Number.le_of_lt hab) hb
  have hranks := countP_eq_countP_iff (pairwise_reaches bounds hfinite) hordered
  simp only [Misjudges, Ne, not_not, ← hranks, ← rank_eq_countP, bucketOf]
  cases rank bounds value with
  | zero =>
    rw [Bounds.declares_clamped_iff hfinite]
    exact ⟨fun h => h.2.symm, fun h => ⟨rfl, h.symm⟩⟩
  | succ n =>
    rw [Bounds.declares_reached_iff]
    exact eq_comm

/-- A builder after so many values were counted into a bucket, clamped or not. -/
def countedInto (builder : Builder) (bucket : Nat) (clamped : Bool) (times : Nat) : Builder :=
  { builder with
    clamped := builder.clamped + if clamped then times else 0
    counts := builder.counts.modify bucket (· + Int64.ofNat times) }

/-- It shows where values were counted, unless there are none or more than a word holds. -/
theorem countedInto_inj {bucket other : Nat} {clamped under : Bool}
    (hbucket : bucket < builder.counts.length) (hpos : 0 < times) (hfit : times < signedWordLimit)
    (h : builder.countedInto bucket clamped times = builder.countedInto other under times) :
    bucket = other ∧ clamped = under := by
  constructor
  · have hword : Int64.ofNat times ≠ 0 := fun hzero => by
      have hint := congrArg Int64.toInt hzero
      rw [Int64.toInt_ofNat_of_lt hfit, Int64.toInt_zero] at hint
      omega
    have hcounts : builder.counts.modify bucket (· + Int64.ofNat times) =
        builder.counts.modify other (· + Int64.ofNat times) := congrArg Builder.counts h
    have hcell := congrArg (·[bucket]?) hcounts
    simp only [List.getElem?_modify, List.getElem?_eq_getElem hbucket] at hcell
    by_contra hne
    simp [Ne.symm hne, hword] at hcell
  · have hclamped : (if clamped then times else 0) = if under then times else 0 :=
      Nat.add_left_cancel (congrArg Builder.clamped h)
    cases clamped <;> cases under <;> simp_all

/-- Counting a value so often does what the bounds declare. -/
def CountsAsDeclared (builder : Builder) (value : Number) (times : Nat) : Prop :=
  ∃ bucket clamped, builder.bounds.Declares value bucket clamped ∧
    (builder.add (.number value) (.number (.int times))).1 =
      builder.countedInto bucket clamped times

/-- An open builder counts a finite number into the bucket that is found. -/
theorem add_eq_countedInto (hopen : builder.built = none) (hfinite : value.isFinite? = some true)
    (hfit : times < signedWordLimit) :
    (builder.add (.number value) (.number (.int times))).1 =
        builder.countedInto (bucketOf builder.bounds value).1
          (bucketOf builder.bounds value).2 times ∧
      (builder.add (.number value) (.number (.int times))).2.outcome = .ok () := by
  have hasked : asked? (.number value) (.number (.int times)) = some (value, times) := by
    simp [asked?_natCast, finite?, Value.number?, hfinite]
  obtain ⟨hnext, hrun⟩ := add_of_asked hopen hasked
  rw [taken, if_pos hfit] at hnext
  exact ⟨hnext, hrun.2 hfit⟩

/-- An open builder does what the bounds declare exactly if that is what is found. -/
theorem countsAsDeclared_iff_declares (hopen : builder.built = none)
    (hsize : builder.counts.length = builder.bounds.size) (hfinite : value.isFinite? = some true)
    (hpos : 0 < times) (hfit : times < signedWordLimit) :
    builder.CountsAsDeclared value times ↔
      builder.bounds.Declares value (bucketOf builder.bounds value).1
        (bucketOf builder.bounds value).2 := by
  have hadd := (add_eq_countedInto hopen hfinite hfit).1
  constructor
  · rintro ⟨bucket, clamped, hdeclares, hcounted⟩
    have hbucket : bucket < builder.counts.length := hsize ▸ hdeclares.lt_size
    obtain ⟨rfl, rfl⟩ := countedInto_inj hbucket hpos hfit (hcounted.symm.trans hadd)
    exact hdeclares
  · exact fun hdeclares => ⟨_, _, hdeclares, hadd⟩

/-- A builder that is fed has as many counts as bounds. -/
theorem length_counts_callAll (measure : Measure) (bounds : Bounds) (calls : List Call) :
    ((new measure bounds).callAll calls).counts.length =
      ((new measure bounds).callAll calls).bounds.size := by
  have hholds := (took_callAll measure bounds calls).holds
  rw [Holds] at hholds
  rw [hholds, List.length_map, Bounds.length_tally]

/-- Whatever a fresh builder was fed before, a finite number is counted as often as it says into the
bucket that the search finds. That is what the bounds declare if and only if no bound is misjudged:
for a value that fits a word no greater bound has the same real, and for a wider one no bound is
rounded across it. Among exact numbers that is always so. -/
theorem countsAsDeclared_iff (measure : Measure) (bounds : Bounds) (calls : List Call)
    {value : Number} {times : Nat} (hfinite : value.isFinite? = some true) (hpos : 0 < times)
    (hfit : times < signedWordLimit) :
    (((new measure bounds).callAll calls).add (.number value) (.number (.int times))).2.outcome =
      .ok () ∧
    (((new measure bounds).callAll calls).CountsAsDeclared value times ↔
      ∀ bound ∈ bounds.values, ¬Misjudges value bound) ∧
    (∀ bound ∈ bounds.values, Misjudges value bound ↔
      ¬IsWide value ∧ value.lt bound = true ∧ bound.RoundAlike value ∨
      IsWide value ∧ ∃ limit, bound.toBinary64? = some limit ∧
        (bound.le value = true ∧ value.lt (.real limit) = true ∨
          value.lt bound = true ∧ (Number.real limit).le value = true)) ∧
    (value.IsExact → ∀ bound ∈ bounds.values, bound.IsExact → ¬Misjudges value bound) := by
  have htook := took_callAll measure bounds calls
  refine ⟨(add_eq_countedInto htook.built_eq hfinite hfit).2, ?_, fun bound hbound => ?_,
    fun hvalue bound hbound hexact =>
      not_misjudges_of_isExact hvalue hexact (bounds.bound bound hbound)⟩
  · rw [countsAsDeclared_iff_declares htook.built_eq (length_counts_callAll measure bounds calls)
      hfinite hpos hfit, declares_bucketOf_iff hfinite, htook.bounds_eq]
  · have hisBound := bounds.bound bound hbound
    by_cases hwide : IsWide value
    · rw [misjudges_iff_of_isWide hwide hfinite hisBound]
      simp only [hwide, not_true_eq_false, false_and, false_or, true_and]
    · rw [misjudges_iff_of_not_isWide hwide hfinite hisBound]
      simp only [hwide, not_false_eq_true, false_and, or_false, true_and]

/-- Bounds of which the second one is rounded down to `2 ^ 53`. -/
def loweredBounds : Bounds where
  values := [.int 0, .int 9007199254740993]
  nonempty := List.cons_ne_nil _ _
  bound := by decide +kernel
  increasing := by decide +kernel

/-- After a value was misjudged, a value above the lowered bound is still counted as declared. -/
theorem countsAsDeclared_loweredBounds :
    (Number.int 9007199254740994).isFinite? = some true ∧ 0 < 3 ∧ 3 < signedWordLimit ∧
      ((new .fileComplexityDistribution loweredBounds).callAll
        [.add (.number (.int 9007199254740992)) once]).CountsAsDeclared
          (.int 9007199254740994) 3 := by
  have hfinite : (Number.int 9007199254740994).isFinite? = some true := by decide +kernel
  have hfit : 3 < signedWordLimit := by decide
  refine ⟨hfinite, by decide, hfit, ?_⟩
  exact (countsAsDeclared_iff _ _ _ hfinite (by decide) hfit).2.1.2 (by decide +kernel)

/-- A bound that is rounded up to `2 ^ 64 + 2 ^ 12`. -/
def raisedBounds : Bounds where
  values := [.int 18446744073709555711]
  nonempty := List.cons_ne_nil _ _
  bound := by decide +kernel
  increasing := by decide +kernel

/-- A fresh builder does not count a misjudged value as declared. -/
theorem not_countsAsDeclared_new (measure : Measure) (hfinite : value.isFinite? = some true)
    (h : ∃ bound ∈ bounds.values, Misjudges value bound) :
    ¬(new measure bounds).CountsAsDeclared value 1 := by
  obtain ⟨bound, hbound, hmisjudged⟩ := h
  have hsize : (new measure bounds).counts.length = bounds.size := List.length_replicate
  intro hcounts
  have hdeclares := (countsAsDeclared_iff_declares rfl hsize hfinite (by decide) (by decide)).1
    hcounts
  exact (declares_bucketOf_iff hfinite).1 hdeclares bound hbound hmisjudged

/-- The value `2 ^ 53` is counted in the bucket of a bound that is greater by one, and a value that
equals the only bound is reported to lie below it. -/
theorem not_countsAsDeclared_of_rounding :
    (¬(new .fileComplexityDistribution loweredBounds).CountsAsDeclared
        (.int 9007199254740992) 1 ∧
      ((new .fileComplexityDistribution loweredBounds).add
        (.number (.int 9007199254740992)) once).1.counts = [0, 1]) ∧
    ¬(new .fileComplexityDistribution raisedBounds).CountsAsDeclared
        (.int 18446744073709555711) 1 ∧
      ((new .fileComplexityDistribution raisedBounds).add
        (.number (.int 18446744073709555711)) once).1.clamped = 1 := by
  refine ⟨⟨?_, by decide +kernel⟩, ?_, by decide +kernel⟩
  · exact not_countsAsDeclared_new _ (by decide +kernel) (by decide +kernel)
  · exact not_countsAsDeclared_new _ (by decide +kernel) (by decide +kernel)

end Builder

end SourceGauge
