import SourceGauge.Proofs.Histogram.Buckets
import SourceGauge.Proofs.Histogram.Counting

/-!
# Feeding a builder

What a fresh builder comes to over any sequence of calls, some of which may be refused: it depends
on nothing but what of the calls passes the checks, in any order. A value passes as a finite
number and its count as a whole number that is not negative; a collection passes up to the first
value that does not.

What passes is counted unless its count is too large for a signed word. The call is refused then,
but only after a value below all bounds was reported and the number of clamped values was raised.
So the histogram that is finished has what was counted, and nothing else, but the number of clamped
values goes by all that passes. It is the number of those that were counted if and only if nothing
below the bounds was refused for its count.
-/

namespace SourceGauge

namespace Builder

/-- A call that has a builder count: one value so many times, or everything in a collection
once. -/
inductive Call
  | add (value count : Value)
  | addAll (values : Value)

/-- Make a call. -/
def call (builder : Builder) : Call → Builder × Run Unit
  | .add value count => builder.add value count
  | .addAll values => builder.addAll values

/-- Make calls one after the other, whatever comes of each of them. -/
def callAll (builder : Builder) (calls : List Call) : Builder :=
  calls.foldl (fun builder call => (builder.call call).1) builder

namespace Call

/-- What a call asks of a builder. -/
def asked : Call → List (Number × Nat)
  | .add value count => (asked? value count).toList
  | .addAll values =>
    match values.elements with
    | .ok items => askedList items
    | .error _ => []

/-- Nothing about a call is refused. -/
def Passes : Call → Prop
  | .add value count => ∃ add, asked? value count = some add ∧ add.2 < signedWordLimit
  | .addAll values =>
    ∃ items, values.elements = .ok items ∧ (askedList items).length = items.length

end Call

/-- What calls ask of a builder, one after the other. -/
def askedAll (calls : List Call) : List (Number × Nat) := calls.flatMap Call.asked

/-- What is counted of calls: all that they ask with counts that fit a signed word. -/
def accepted (calls : List Call) : List (Number × Nat) :=
  (askedAll calls).filter fun add => add.2 < signedWordLimit

/-- What is refused of calls for its count alone: all that they ask with counts that fit no signed
word. -/
def tooWide (calls : List Call) : List (Number × Nat) :=
  (askedAll calls).filter fun add => signedWordLimit ≤ add.2

/-- What calls ask is counted or refused for its count. -/
theorem accepted_append_tooWide_perm (calls : List Call) :
    (accepted calls ++ tooWide calls).Perm (askedAll calls) := by
  have hwide : ∀ add ∈ askedAll calls,
      decide (signedWordLimit ≤ add.2) = !decide (add.2 < signedWordLimit) := by
    intro add _
    rw [Bool.eq_iff_iff]
    simp
  rw [tooWide, List.filter_congr hwide]
  exact List.filter_append_perm _ (askedAll calls)

variable {builder : Builder}

/-- An open builder takes what a call asks for. -/
theorem call_eq_taken (hopen : builder.built = none) (call : Call) :
    (builder.call call).1 = call.asked.foldl taken builder ∧
      ((builder.call call).2.outcome = .ok () ↔ call.Passes) := by
  cases call with
  | add value count =>
    rw [Builder.call, Call.asked, Call.Passes]
    cases hasked : asked? value count with
    | none =>
      obtain ⟨failure, hadd⟩ := add_of_not_asked hopen hasked
      simp [hadd]
    | some add =>
      obtain ⟨hnext, hrun⟩ := add_of_asked hopen hasked
      simp [hnext, hrun]
  | addAll values =>
    rw [Builder.call, addAll, Call.asked, Call.Passes]
    cases helements : values.elements with
    | error failure => simp
    | ok items =>
      obtain ⟨hnext, hrun⟩ := addList_eq_taken hopen items
      simp [hnext, hrun]

/-- An open builder takes what calls ask for, in their order. -/
theorem callAll_eq_taken (hopen : builder.built = none) (calls : List Call) :
    builder.callAll calls = (askedAll calls).foldl taken builder := by
  induction calls generalizing builder with
  | nil => rfl
  | cons call rest ih =>
    have hnext := (call_eq_taken hopen call).1
    have hopenNext : (builder.call call).1.built = none := by
      rw [hnext, foldl_taken_built, hopen]
    calc builder.callAll (call :: rest)
        = (builder.call call).1.callAll rest := rfl
      _ = (askedAll rest).foldl taken (builder.call call).1 := ih hopenNext
      _ = (askedAll rest).foldl taken (call.asked.foldl taken builder) := by rw [hnext]
      _ = (call.asked ++ askedAll rest).foldl taken builder := List.foldl_append.symm

/-- A builder has taken a list: it is open, its words are those of the tally of what fits a signed
word, and it has clamped all that lies below the bounds. -/
structure Took (measure : Measure) (bounds : Bounds) (asked : List (Number × Nat))
    (builder : Builder) : Prop where
  measure_eq : builder.measure = measure
  bounds_eq : builder.bounds = bounds
  built_eq : builder.built = none
  holds : builder.Holds (asked.filter fun add => add.2 < signedWordLimit)
  clamped_eq : builder.clamped =
    timesCounted (asked.filter fun add => (bucketOf bounds add.1).2)

section Took

variable {measure : Measure} {bounds : Bounds} {asked : List (Number × Nat)}

/-- A new builder has taken nothing. -/
theorem took_new (measure : Measure) (bounds : Bounds) :
    Took measure bounds [] (new measure bounds) where
  measure_eq := rfl
  bounds_eq := rfl
  built_eq := rfl
  holds := holds_new measure bounds
  clamped_eq := rfl

/-- One more is taken. -/
theorem Took.taken (h : Took measure bounds asked builder) (add : Number × Nat) :
    Took measure bounds (asked ++ [add]) (builder.taken add) := by
  have hclamped : builder.clamped + (if (bucketOf builder.bounds add.1).2 then add.2 else 0) =
      timesCounted ((asked ++ [add]).filter fun add => (bucketOf bounds add.1).2) := by
    rw [List.filter_append, timesCounted_append, timesCounted_filter_cons, h.clamped_eq,
      h.bounds_eq]
    rfl
  -- What is clamped is counted in both cases, the words change only if the count fits.
  by_cases hfit : add.2 < signedWordLimit
  · have hkept : ([add].filter fun add => add.2 < signedWordLimit) = [add] := by simp [hfit]
    have hholds := h.holds.counted add
    rw [Builder.taken, if_pos hfit]
    refine ⟨h.measure_eq, h.bounds_eq, h.built_eq, ?_, hclamped⟩
    rw [List.filter_append, hkept]
    exact hholds
  · have hdropped : ([add].filter fun add => add.2 < signedWordLimit) = [] := by simp [hfit]
    rw [Builder.taken, if_neg hfit]
    refine ⟨h.measure_eq, h.bounds_eq, h.built_eq, ?_, hclamped⟩
    rw [List.filter_append, hdropped, List.append_nil]
    exact h.holds

/-- All of a list is taken. -/
theorem Took.foldl_taken (h : Took measure bounds asked builder) (more : List (Number × Nat)) :
    Took measure bounds (asked ++ more) (more.foldl Builder.taken builder) := by
  induction more generalizing builder asked with
  | nil =>
    rw [List.append_nil]
    exact h
  | cons add rest ih =>
    rw [List.append_cons]
    exact ih (h.taken add)

/-- A fresh builder has taken what calls ask for. -/
theorem took_callAll (measure : Measure) (bounds : Bounds) (calls : List Call) :
    Took measure bounds (askedAll calls) ((new measure bounds).callAll calls) := by
  rw [callAll_eq_taken rfl]
  exact (took_new measure bounds).foldl_taken (askedAll calls)

/-- Calls that count fewer than `2 ^ 63` things make up the histogram of their tally. -/
theorem build_callAll (measure : Measure) (bounds : Bounds) {calls : List Call}
    (h : timesCounted (accepted calls) < signedWordLimit) :
    ((new measure bounds).callAll calls).build.2 =
      .ok (Histogram.tallied measure bounds (accepted calls)) := by
  have htook := took_callAll measure bounds calls
  rw [build_of_holds htook.built_eq htook.holds, htook.measure_eq, htook.bounds_eq]
  exact Histogram.ofInts_words (bounds.length_tally _) (bounds.lt_of_mem_tally h) .memory

end Took

/-- Counting a value so many times is counting it once as often, whatever the value. -/
theorem add_natCast_eq_callAll (hopen : builder.built = none) (value : Value) {times : Nat}
    (h : times < signedWordLimit) :
    (builder.add value (.number (.int times))).1 =
      builder.callAll (List.replicate times (.add value once)) := by
  have hcalls : askedAll (List.replicate times (.add value once)) =
      (List.replicate times (asked? value once).toList).flatten := List.flatMap_replicate
  rw [callAll_eq_taken hopen, hcalls, asked?_once]
  have hasked := asked?_natCast value times
  cases hvalue : finite? value with
  | none =>
    rw [hvalue] at hasked
    obtain ⟨failure, hadd⟩ := add_of_not_asked hopen hasked
    simp [hadd]
  | some number =>
    rw [hvalue] at hasked
    rw [(add_of_asked hopen hasked).1, taken, if_pos h, Option.map_some, Option.toList_some,
      List.flatten_replicate_singleton, foldl_taken_replicate]

/-- Calls ask to count finite numbers. -/
theorem isFinite?_of_mem_askedAll {calls : List Call} {add : Number × Nat}
    (h : add ∈ askedAll calls) : add.1.isFinite? = some true := by
  obtain ⟨call, _, hcall⟩ := List.mem_flatMap.1 h
  cases call with
  | add value count => exact isFinite?_of_asked? (Option.mem_toList.1 hcall)
  | addAll values =>
    rw [Call.asked] at hcall
    cases helements : values.elements with
    | error failure => simp [helements] at hcall
    | ok items =>
      simp only [helements] at hcall
      exact isFinite?_of_mem_askedList hcall

/-- Calls that ask for the same, in any order, come to the same. -/
theorem callAll_perm (measure : Measure) (bounds : Bounds) {calls others : List Call}
    (h : (askedAll others).Perm (askedAll calls))
    (hcounts : timesCounted (accepted calls) < signedWordLimit) :
    ((new measure bounds).callAll others).build.2 = ((new measure bounds).callAll calls).build.2 ∧
      ((new measure bounds).callAll others).clamped =
        ((new measure bounds).callAll calls).clamped := by
  have haccepted : (accepted others).Perm (accepted calls) := h.filter _
  have hothers : timesCounted (accepted others) < signedWordLimit := by
    rw [timesCounted_perm haccepted]
    exact hcounts
  constructor
  · rw [build_callAll measure bounds hothers, build_callAll measure bounds hcounts,
      Histogram.tallied_perm measure bounds haccepted]
  · rw [(took_callAll measure bounds others).clamped_eq,
      (took_callAll measure bounds calls).clamped_eq, timesCounted_perm (h.filter _)]

end Builder

/-- A histogram has what was counted: each bucket what it takes, the first one also what lies below
all bounds, and the total is that of everything. -/
structure Histogram.IsCountOf (histogram : Histogram) (measure : Measure) (bounds : Bounds)
    (adds : List (Number × Nat)) : Prop where
  measure_eq : histogram.measure = measure
  bounds_eq : histogram.bounds = bounds
  mode_eq : histogram.mode = .memory
  counts_eq : ∀ bucket < bounds.size, histogram.counts[bucket]? = some
    (timesCounted (adds.filter fun add => bounds.takes bucket add.1) +
      if bucket = 0 then timesCounted (adds.filter fun add => bounds.clamps add.1) else 0)
  total_eq : histogram.total = timesCounted adds

/-- The tally of exact numbers over exact bounds is the histogram that has what was counted. -/
theorem Histogram.isCountOf_tallied (measure : Measure) {bounds : Bounds}
    {adds : List (Number × Nat)} (hbounds : ∀ bound ∈ bounds.values, bound.IsExact)
    (hadds : ∀ add ∈ adds, add.1.IsExact ∧ add.1.isFinite? = some true) :
    (tallied measure bounds adds).IsCountOf measure bounds adds where
  measure_eq := rfl
  bounds_eq := rfl
  mode_eq := rfl
  counts_eq := by
    intro bucket hbucket
    have hlength : bucket < (bounds.tally adds).length := by rwa [bounds.length_tally]
    rw [← Bounds.load_eq hbounds hadds bucket, ← bounds.getElem_tally adds bucket hlength]
    exact List.getElem?_eq_getElem hlength
  total_eq := total_tallied measure bounds adds

namespace Builder

/-- What is promised of a fresh builder that has had calls: it finishes the histogram of what was
counted, and the number of clamped values is that of those that were counted. -/
structure KeepsCount (measure : Measure) (bounds : Bounds) (calls : List Call) : Prop where
  built : ∃ histogram, ((new measure bounds).callAll calls).build.2 = .ok histogram ∧
    histogram.IsCountOf measure bounds (accepted calls)
  clamped : ((new measure bounds).callAll calls).clamped =
    timesCounted ((accepted calls).filter fun add => bounds.clamps add.1)

section Exact

variable {bounds : Bounds} {calls : List Call}
  (hbounds : ∀ bound ∈ bounds.values, bound.IsExact)
  (hvalues : ∀ add ∈ askedAll calls, add.1.IsExact)

include hbounds hvalues

/-- Calls that count fewer than `2 ^ 63` things make up the histogram that has what was counted. -/
theorem exists_isCountOf (measure : Measure)
    (hcounts : timesCounted (accepted calls) < signedWordLimit) :
    ∃ histogram, ((new measure bounds).callAll calls).build.2 = .ok histogram ∧
      histogram.IsCountOf measure bounds (accepted calls) := by
  have hexact : ∀ add ∈ accepted calls, add.1.IsExact ∧ add.1.isFinite? = some true := by
    intro add hadd
    have hasked := (List.mem_filter.1 hadd).1
    exact ⟨hvalues add hasked, isFinite?_of_mem_askedAll hasked⟩
  exact ⟨_, build_callAll measure bounds hcounts,
    Histogram.isCountOf_tallied measure hbounds hexact⟩

/-- The clamped values are those that were counted and those that were refused for their count. -/
theorem clamped_callAll (measure : Measure) : ((new measure bounds).callAll calls).clamped =
    timesCounted ((accepted calls).filter fun add => bounds.clamps add.1) +
      timesCounted ((tooWide calls).filter fun add => bounds.clamps add.1) := by
  have hclamps : ∀ add ∈ askedAll calls, (bucketOf bounds add.1).2 = bounds.clamps add.1 :=
    fun add hadd =>
      (Bounds.clamps_eq hbounds (hvalues add hadd) (isFinite?_of_mem_askedAll hadd)).symm
  have hparts := (accepted_append_tooWide_perm calls).filter fun add => bounds.clamps add.1
  rw [(took_callAll measure bounds calls).clamped_eq, List.filter_congr hclamps,
    ← timesCounted_perm hparts, List.filter_append, timesCounted_append]

/-- The clamped values are those that were counted if and only if none was refused for its count. -/
theorem clamped_callAll_eq_iff (measure : Measure) : ((new measure bounds).callAll calls).clamped =
      timesCounted ((accepted calls).filter fun add => bounds.clamps add.1) ↔
    ∀ add ∈ tooWide calls, bounds.clamps add.1 = false := by
  have hpos : ∀ add ∈ tooWide calls, 0 < add.2 := by
    intro add hadd
    have hwide : signedWordLimit ≤ add.2 := by simpa using (List.mem_filter.1 hadd).2
    have hlimit : 0 < signedWordLimit := by decide
    omega
  rw [clamped_callAll hbounds hvalues, Nat.add_eq_left]
  exact timesCounted_filter_eq_zero_iff hpos

end Exact

/-- Over exact bounds and values, a fresh builder that counts fewer than `2 ^ 63` things finishes
the histogram that has what was counted. It keeps all that is promised if and only if no value below
the bounds was refused for its count, for the clamped values are those that were counted and those
that were refused so. The order of the calls does not matter, to count a value so many times is to
count it once as often, and a call succeeds exactly if it passes. -/
theorem keepsCount_iff (measure : Measure) {bounds : Bounds} {calls : List Call}
    (hbounds : ∀ bound ∈ bounds.values, bound.IsExact)
    (hvalues : ∀ add ∈ askedAll calls, add.1.IsExact)
    (hcounts : timesCounted (accepted calls) < signedWordLimit) :
    (KeepsCount measure bounds calls ↔ ∀ add ∈ tooWide calls, bounds.clamps add.1 = false) ∧
    (∃ histogram, ((new measure bounds).callAll calls).build.2 = .ok histogram ∧
      histogram.IsCountOf measure bounds (accepted calls)) ∧
    ((new measure bounds).callAll calls).clamped =
      timesCounted ((accepted calls).filter fun add => bounds.clamps add.1) +
        timesCounted ((tooWide calls).filter fun add => bounds.clamps add.1) ∧
    (∀ others, (askedAll others).Perm (askedAll calls) →
      ((new measure bounds).callAll others).build.2 =
          ((new measure bounds).callAll calls).build.2 ∧
        ((new measure bounds).callAll others).clamped =
          ((new measure bounds).callAll calls).clamped) ∧
    (∀ value (times : Nat), times < signedWordLimit →
      (((new measure bounds).callAll calls).add value (.number (.int times))).1 =
        ((new measure bounds).callAll calls).callAll
          (List.replicate times (.add value once))) ∧
    ∀ before call, before ++ [call] <+: calls →
      ((((new measure bounds).callAll before).call call).2.outcome = .ok () ↔ call.Passes) := by
  have hbuilt := exists_isCountOf hbounds hvalues measure hcounts
  have hclamped := clamped_callAll_eq_iff hbounds hvalues measure
  refine ⟨⟨fun h => hclamped.1 h.clamped, fun h => ⟨hbuilt, hclamped.2 h⟩⟩, hbuilt,
    clamped_callAll hbounds hvalues measure, ?_, ?_, ?_⟩
  · intro others h
    exact callAll_perm measure bounds h hcounts
  · intro value times h
    exact add_natCast_eq_callAll (took_callAll measure bounds calls).built_eq value h
  · intro before call _
    exact (call_eq_taken (took_callAll measure bounds before).built_eq call).2

/-- Bounds of three buckets. -/
def sampleBounds : Bounds where
  values := [.int 0, .int 5, .int 10]
  nonempty := List.cons_ne_nil _ _
  bound := by decide +kernel
  increasing := by decide +kernel

/-- Calls that count a value below the bounds twice, a value of the second bucket once before a
text is refused, a bound four times, and one value with a count that is refused. -/
def sampleCalls : List Call :=
  [.add (.number (.int (-3))) (.number (.int 2)),
    .addAll (.list [.number (.int 7), .text "eight", .number (.int 9)]),
    .add (.number (.real (.ofInt 5))) (.number (.int 4)),
    .add (.number (.int 12)) (.number (.flag true))]

/-- A value below the bounds of the samples, with the least count that fits no signed word. -/
def strayCall : Call := .add (.number (.int (-3))) (.number (.int signedWordLimit))

/-- The promise is kept for the calls of the sample, and no longer with the stray call after them:
twice a value is counted in the first bucket, as before, but `2 ^ 63` more are clamped. -/
theorem keepsCount_sampleCalls :
    (∀ bound ∈ sampleBounds.values, bound.IsExact) ∧
      (∀ add ∈ askedAll (sampleCalls ++ [strayCall]), add.1.IsExact) ∧
      timesCounted (accepted (sampleCalls ++ [strayCall])) < signedWordLimit ∧
      KeepsCount .fileComplexityDistribution sampleBounds sampleCalls ∧
      ¬KeepsCount .fileComplexityDistribution sampleBounds (sampleCalls ++ [strayCall]) ∧
      ((new .fileComplexityDistribution sampleBounds).callAll
        (sampleCalls ++ [strayCall])).clamped = 2 + signedWordLimit ∧
      ∃ histogram,
        ((new .fileComplexityDistribution sampleBounds).callAll
          (sampleCalls ++ [strayCall])).build.2 = .ok histogram ∧
        histogram.counts[0]? = some 2 ∧ histogram.total = 7 := by
  have hbounds : ∀ bound ∈ sampleBounds.values, bound.IsExact := by decide +kernel
  have hvalues : ∀ add ∈ askedAll (sampleCalls ++ [strayCall]), add.1.IsExact := by
    decide +kernel
  have hcounts : timesCounted (accepted (sampleCalls ++ [strayCall])) < signedWordLimit := by
    decide +kernel
  have hfewer : ∀ add ∈ askedAll sampleCalls, add.1.IsExact := by decide +kernel
  obtain ⟨hkeeps, _⟩ := keepsCount_iff .fileComplexityDistribution hbounds hfewer
    (by decide +kernel)
  obtain ⟨hbreaks, ⟨histogram, hbuild, hcount⟩, hclamped, _⟩ :=
    keepsCount_iff .fileComplexityDistribution hbounds hvalues hcounts
  refine ⟨hbounds, hvalues, hcounts, hkeeps.2 (by decide +kernel), ?_,
    hclamped.trans (by decide +kernel), histogram, hbuild,
    (hcount.counts_eq 0 (by decide)).trans (by decide +kernel),
    hcount.total_eq.trans (by decide +kernel)⟩
  rw [hbreaks]
  decide +kernel

/-- A value below all bounds that is counted twice is clamped twice, but `2 ^ 63` times more once
the stray call was refused. -/
theorem not_keepsCount_strayCall :
    (∀ bound ∈ sampleBounds.values, bound.IsExact) ∧
      (∀ add ∈ askedAll (sampleCalls.take 1 ++ [strayCall]), add.1.IsExact) ∧
      accepted (sampleCalls.take 1 ++ [strayCall]) = [(.int (-3), 2)] ∧
      ((new .functionComplexityDistribution sampleBounds).callAll
        (sampleCalls.take 1 ++ [strayCall])).clamped = 2 + signedWordLimit ∧
      ¬KeepsCount .functionComplexityDistribution sampleBounds
        (sampleCalls.take 1 ++ [strayCall]) := by
  have hbounds : ∀ bound ∈ sampleBounds.values, bound.IsExact := by decide +kernel
  have hvalues : ∀ add ∈ askedAll (sampleCalls.take 1 ++ [strayCall]), add.1.IsExact := by
    decide +kernel
  have hclamped := clamped_callAll hbounds hvalues .functionComplexityDistribution
  refine ⟨hbounds, hvalues, by decide +kernel, hclamped.trans (by decide +kernel), fun h => ?_⟩
  exact absurd (hclamped.symm.trans h.clamped) (by decide +kernel)

end Builder

end SourceGauge
