import SourceGauge.Proofs.Histogram.Feeding

/-!
# Builders that wrap around

The counts of a builder are signed words. Whatever was counted, what a fresh builder finishes is
known from how often each bucket was counted into: that number is taken modulo `2 ^ 64`, and the
histogram is refused if `2 ^ 63` or more remain for some bucket. So it is exact if and only if every
bucket was counted into fewer than `2 ^ 63` times, though an addition checks no more than its own
count.
-/

namespace SourceGauge

/-! ## Words -/

/-- The word of a natural number is what remains of it modulo `2 ^ 64`, and negative from `2 ^ 63`
on. -/
theorem toInt_word (n : Nat) :
    (Int64.ofNat n).toInt =
      if n % unsignedWordLimit < signedWordLimit then ((n % unsignedWordLimit : Nat) : Int)
      else ((n % unsignedWordLimit : Nat) : Int) - unsignedWordLimit := by
  have hsize : Int64.size = unsignedWordLimit := rfl
  have hhalf : ((unsignedWordLimit : Int) + 1) / 2 = signedWordLimit := by decide
  rw [Int64.toInt_ofNat', hsize, Int.bmod_def, hhalf, ← Int.natCast_emod]
  simp only [Int.ofNat_lt]

namespace Histogram

variable {measure : Measure} {bounds : Bounds} {counts : List Nat} {mode : PersistenceMode}

/-- Words are refused as counts if `2 ^ 63` or more remain for one of them. -/
theorem ofInts_words_of_wide (hsize : counts.length = bounds.size) {count : Nat}
    (hcount : count ∈ counts) (hwide : signedWordLimit ≤ count % unsignedWordLimit) :
    ofInts measure bounds (counts.map fun count => (Int64.ofNat count).toInt) mode =
      .error (.value .negativeCounts) := by
  have hneg : (Int64.ofNat count).toInt < 0 := by
    have hlt : count % unsignedWordLimit < unsignedWordLimit := Nat.mod_lt _ (by decide)
    rw [toInt_word, if_neg (Nat.not_lt.2 hwide)]
    omega
  have hany : ((counts.map fun count => (Int64.ofNat count).toInt).any (· < 0)) = true :=
    List.any_eq_true.2 ⟨_, List.mem_map_of_mem hcount, decide_eq_true hneg⟩
  rw [ofInts, dif_pos (by rw [List.length_map, hsize]), if_pos hany]

/-- Otherwise words pass as what remains. -/
theorem ofInts_words_of_narrow (hsize : counts.length = bounds.size)
    (hnarrow : ∀ count ∈ counts, count % unsignedWordLimit < signedWordLimit) :
    ofInts measure bounds (counts.map fun count => (Int64.ofNat count).toInt) mode =
      .ok ⟨measure, bounds, counts.map (· % unsignedWordLimit), mode,
        by rw [List.length_map, hsize]⟩ := by
  have hwords : (counts.map fun count => (Int64.ofNat count).toInt) =
      (counts.map (· % unsignedWordLimit)).map Int.ofNat := by
    rw [List.map_map]
    refine List.map_congr_left fun count hcount => ?_
    rw [toInt_word, if_pos (hnarrow count hcount)]
    rfl
  rw [hwords, ofInts_natCast measure (by rw [List.length_map, hsize])]

end Histogram

namespace Builder

/-- What building comes to once a fresh builder has had calls. -/
def builtAfter (measure : Measure) (bounds : Bounds) (calls : List Call) :
    Except Failure Histogram :=
  ((new measure bounds).callAll calls).build.2

variable {measure : Measure} {bounds : Bounds} {calls : List Call}

/-- What is built is made of the words of what was counted. -/
theorem builtAfter_eq : builtAfter measure bounds calls = Histogram.ofInts measure bounds
    ((bounds.tally (accepted calls)).map fun count => (Int64.ofNat count).toInt) .memory := by
  have htook := took_callAll measure bounds calls
  rw [builtAfter, build_of_holds htook.built_eq htook.holds, htook.measure_eq, htook.bounds_eq]
  rfl

/-- What a bucket was counted into. -/
theorem mem_tally_iff {adds : List (Number × Nat)} {count : Nat} :
    count ∈ bounds.tally adds ↔ ∃ bucket < bounds.size, bounds.load adds bucket = count := by
  rw [Bounds.tally, List.mem_map]
  simp only [List.mem_range]

/-- Building fails if `2 ^ 63` or more remain for some bucket. -/
theorem builtAfter_of_wide {bucket : Nat} (hbucket : bucket < bounds.size)
    (hwide : signedWordLimit ≤ bounds.load (accepted calls) bucket % unsignedWordLimit) :
    builtAfter measure bounds calls = .error (.value .negativeCounts) := by
  rw [builtAfter_eq]
  exact Histogram.ofInts_words_of_wide (bounds.length_tally _)
    (mem_tally_iff.2 ⟨bucket, hbucket, rfl⟩) hwide

/-- Otherwise building succeeds with what remains. -/
theorem builtAfter_of_narrow (measure : Measure) (hnarrow : ∀ bucket < bounds.size,
      bounds.load (accepted calls) bucket % unsignedWordLimit < signedWordLimit) :
    ∃ histogram, builtAfter measure bounds calls = .ok histogram ∧
      histogram.measure = measure ∧ histogram.bounds = bounds ∧
      histogram.counts = (bounds.tally (accepted calls)).map (· % unsignedWordLimit) := by
  rw [builtAfter_eq, Histogram.ofInts_words_of_narrow (bounds.length_tally _)]
  · exact ⟨_, rfl, rfl, rfl, rfl⟩
  · intro count hcount
    obtain ⟨bucket, hbucket, rfl⟩ := mem_tally_iff.1 hcount
    exact hnarrow bucket hbucket

/-- Calls after others are counted on top of them. -/
theorem accepted_append (calls more : List Call) :
    accepted (calls ++ more) = accepted calls ++ accepted more := by
  rw [accepted, askedAll, List.flatMap_append, List.filter_append]
  rfl

/-- Only a number passes as a value. -/
theorem eq_number_of_finite? {value : Value} {number : Number} (h : finite? value = some number) :
    value = .number number := by
  cases value with
  | number n =>
    simp only [finite?, Value.number?, Option.ite_none_right_eq_some, Option.some.injEq] at h
    rw [h.2]
  | _ => contradiction

/-- Only a whole number that is not negative passes as a count. -/
theorem eq_number_of_times? {count : Value} {times : Nat} (h : times? count = some times) :
    count = .number (.int times) := by
  rw [times?] at h
  cases count with
  | number n =>
    cases n with
    | int n =>
      simp only [Histogram.wholeNumber?, Option.ite_none_left_eq_some, Option.some.injEq] at h
      rw [← h.2, Int.toNat_of_nonneg (Int.not_lt.1 h.1)]
    | _ => contradiction
  | _ => contradiction

/-- An addition after calls either succeeds, and then the number that it adds is counted as often as
it says, or it fails, and then nothing is. -/
theorem accepted_add (value count : Value) :
    (∃ (number : Number) (times : Nat), value = .number number ∧ count = .number (.int times) ∧
      (((new measure bounds).callAll calls).add value count).2.outcome = .ok () ∧
      accepted (calls ++ [.add value count]) = accepted calls ++ [(number, times)]) ∨
    ∃ failure,
      (((new measure bounds).callAll calls).add value count).2.outcome = .error failure ∧
      accepted (calls ++ [.add value count]) = accepted calls := by
  have hopen := (took_callAll measure bounds calls).built_eq
  have hpasses := (call_eq_taken hopen (.add value count)).2
  have hmore : accepted [.add value count] =
      (asked? value count).toList.filter fun add => add.2 < signedWordLimit := by
    rw [accepted, askedAll, List.flatMap_singleton, Call.asked]
  rw [accepted_append, hmore]
  cases houtcome : (((new measure bounds).callAll calls).add value count).2.outcome with
  | ok _ =>
    obtain ⟨⟨number, times⟩, hasked, hfit⟩ := hpasses.1 houtcome
    obtain ⟨_, hnumber, hadd⟩ := Option.bind_eq_some_iff.1 hasked
    obtain ⟨_, htimes, hpair⟩ := Option.map_eq_some_iff.1 hadd
    cases hpair
    refine .inl ⟨number, times, eq_number_of_finite? hnumber, eq_number_of_times? htimes, rfl, ?_⟩
    rw [hasked, Option.toList_some, List.filter_cons_of_pos (by simpa using hfit),
      List.filter_nil]
  | error failure =>
    refine .inr ⟨failure, rfl, ?_⟩
    have hnot : ¬∃ add, asked? value count = some add ∧ add.2 < signedWordLimit := fun hexists => by
      have hok := hpasses.2 hexists
      rw [call, houtcome] at hok
      contradiction
    cases hasked : asked? value count with
    | none => simp
    | some add =>
      have hwide : ¬add.2 < signedWordLimit := fun hfit => hnot ⟨add, hasked, hfit⟩
      simp [hwide]

/-- What is built is exact: every bucket has what was counted into it, and altogether there is what
was counted at all. -/
def BuildsExactly (measure : Measure) (bounds : Bounds) (calls : List Call) : Prop :=
  ∃ histogram, builtAfter measure bounds calls = .ok histogram ∧
    histogram.counts = bounds.tally (accepted calls) ∧
    histogram.total = timesCounted (accepted calls)

/-- Nothing is lost of a tally exactly if every bucket was counted into fewer than `2 ^ 63` times,
given that less than that remains for each. -/
theorem map_mod_tally_eq_iff {adds : List (Number × Nat)} (hnarrow : ∀ bucket < bounds.size,
      bounds.load adds bucket % unsignedWordLimit < signedWordLimit) :
    (bounds.tally adds).map (· % unsignedWordLimit) = bounds.tally adds ↔
      ∀ bucket < bounds.size, bounds.load adds bucket < signedWordLimit := by
  have hlimits : signedWordLimit < unsignedWordLimit := by decide
  constructor
  · intro h bucket hbucket
    have hkept : ∀ count ∈ bounds.tally adds, count % unsignedWordLimit = count :=
      List.map_inj_left.1 (h.trans (List.map_id' _).symm)
    rw [← hkept _ (mem_tally_iff.2 ⟨bucket, hbucket, rfl⟩)]
    exact hnarrow bucket hbucket
  · intro hfit
    refine (List.map_congr_left fun count hcount => ?_).trans (List.map_id' _)
    obtain ⟨bucket, hbucket, rfl⟩ := mem_tally_iff.1 hcount
    exact Nat.mod_eq_of_lt (Nat.lt_trans (hfit bucket hbucket) hlimits)

/-- What is built is exact if and only if every bucket was counted into fewer than `2 ^ 63` times.
Otherwise the histogram is refused if `2 ^ 63` or more remain for some bucket modulo `2 ^ 64`, and
has what remains if not. What was counted is what additions succeeded with, though: one more either
succeeds and is counted in full, or it fails and is not counted. -/
theorem buildsExactly_iff (measure : Measure) (bounds : Bounds) (calls : List Call) :
    (BuildsExactly measure bounds calls ↔
      ∀ bucket < bounds.size, bounds.load (accepted calls) bucket < signedWordLimit) ∧
    (builtAfter measure bounds calls = .error (.value .negativeCounts) ↔
      ∃ bucket < bounds.size,
        signedWordLimit ≤ bounds.load (accepted calls) bucket % unsignedWordLimit) ∧
    (∀ failure, builtAfter measure bounds calls = .error failure →
      failure = .value .negativeCounts) ∧
    (∀ histogram, builtAfter measure bounds calls = .ok histogram →
      histogram.measure = measure ∧ histogram.bounds = bounds ∧
        histogram.counts = (bounds.tally (accepted calls)).map (· % unsignedWordLimit)) ∧
    ∀ value count,
      (∃ (number : Number) (times : Nat), value = .number number ∧ count = .number (.int times) ∧
        (((new measure bounds).callAll calls).add value count).2.outcome = .ok () ∧
        accepted (calls ++ [.add value count]) = accepted calls ++ [(number, times)]) ∨
      ∃ failure,
        (((new measure bounds).callAll calls).add value count).2.outcome = .error failure ∧
        accepted (calls ++ [.add value count]) = accepted calls := by
  by_cases hwide : ∃ bucket < bounds.size,
      signedWordLimit ≤ bounds.load (accepted calls) bucket % unsignedWordLimit
  · obtain ⟨bucket, hbucket, hload⟩ := hwide
    have hbuilt : builtAfter measure bounds calls = .error (.value .negativeCounts) :=
      builtAfter_of_wide hbucket hload
    have hbeyond : ¬bounds.load (accepted calls) bucket < signedWordLimit :=
      Nat.not_lt.2 (Nat.le_trans hload (Nat.mod_le _ _))
    refine ⟨⟨?_, fun hfit => absurd (hfit bucket hbucket) hbeyond⟩,
      ⟨fun _ => ⟨bucket, hbucket, hload⟩, fun _ => hbuilt⟩, fun failure h => ?_, fun _ h => ?_,
      accepted_add⟩
    · rintro ⟨histogram, h, _⟩
      rw [hbuilt] at h
      contradiction
    · exact (Except.error.inj (hbuilt.symm.trans h)).symm
    · rw [hbuilt] at h
      contradiction
  · have hnarrow : ∀ bucket < bounds.size,
        bounds.load (accepted calls) bucket % unsignedWordLimit < signedWordLimit :=
      fun bucket hbucket => Nat.not_le.1 fun hload => hwide ⟨bucket, hbucket, hload⟩
    obtain ⟨histogram, hbuilt, hmeasure, hbounds, hcounts⟩ :=
      builtAfter_of_narrow measure hnarrow
    refine ⟨?_, ⟨fun h => ?_, fun h => absurd h hwide⟩, fun failure h => ?_, fun found h => ?_,
      accepted_add⟩
    · rw [← map_mod_tally_eq_iff hnarrow, ← hcounts]
      constructor
      · rintro ⟨found, hfound, hexact, _⟩
        obtain rfl := Except.ok.inj (hbuilt.symm.trans hfound)
        exact hexact
      · intro hexact
        exact ⟨histogram, hbuilt, hexact, by rw [Histogram.total, hexact, bounds.foldr_tally]⟩
    · rw [hbuilt] at h
      contradiction
    · rw [hbuilt] at h
      contradiction
    · obtain rfl := Except.ok.inj (hbuilt.symm.trans h)
      exact ⟨hmeasure, hbounds, hcounts⟩

/-- Two additions to one bucket that fill a signed word to its end and go one beyond it. -/
def overfullCalls : List Call :=
  [.add (.number (.int 7)) (.number (.int (signedWordLimit - 1 : Nat))),
    .add (.number (.int 7)) once]

/-- Both additions of the sample succeed after any calls. But building fails after the two of them,
and after they were made twice it succeeds with a histogram in which nothing is left. -/
theorem builtAfter_overfullCalls :
    (∀ before, ∀ call ∈ overfullCalls,
      (((new .fileComplexityDistribution sampleBounds).callAll before).call call).2.outcome =
        .ok ()) ∧
    accepted overfullCalls = [(.int 7, signedWordLimit - 1), (.int 7, 1)] ∧
    builtAfter .fileComplexityDistribution sampleBounds overfullCalls =
      .error (.value .negativeCounts) ∧
    ¬BuildsExactly .fileComplexityDistribution sampleBounds overfullCalls ∧
    ∃ histogram,
      builtAfter .fileComplexityDistribution sampleBounds (overfullCalls ++ overfullCalls) =
        .ok histogram ∧ histogram.counts = [0, 0, 0] := by
  have hpasses : ∀ call ∈ overfullCalls, call.Passes := by
    simp only [overfullCalls, List.forall_mem_cons]
    exact ⟨⟨(.int 7, signedWordLimit - 1), by decide +kernel, by decide +kernel⟩,
      ⟨(.int 7, 1), by decide +kernel, by decide +kernel⟩, fun _ h => absurd h List.not_mem_nil⟩
  have hwide : signedWordLimit ≤
      sampleBounds.load (accepted overfullCalls) 1 % unsignedWordLimit := by decide +kernel
  have hnarrow : ∀ bucket < sampleBounds.size,
      sampleBounds.load (accepted (overfullCalls ++ overfullCalls)) bucket % unsignedWordLimit <
        signedWordLimit := by decide +kernel
  have hbuilt : builtAfter .fileComplexityDistribution sampleBounds overfullCalls =
      .error (.value .negativeCounts) := builtAfter_of_wide (by decide) hwide
  refine ⟨fun before call hcall => ?_, by decide +kernel, hbuilt, ?_, ?_⟩
  · exact (call_eq_taken (took_callAll _ _ before).built_eq call).2.2 (hpasses call hcall)
  · rintro ⟨histogram, h, _⟩
    rw [hbuilt] at h
    contradiction
  · obtain ⟨histogram, h, _, _, hcounts⟩ :=
      builtAfter_of_narrow .fileComplexityDistribution hnarrow
    exact ⟨histogram, h, hcounts.trans (by decide +kernel)⟩

end Builder

end SourceGauge
