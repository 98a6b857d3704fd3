import SourceGauge.Proofs.Histogram.Additions

/-!
# What a builder counts

What a whole run of additions leaves behind: the tally of the values, held by signed words. The
histogram that is finished from it is the tally itself as long as fewer than `2 ^ 63` things were
counted; beyond that the words wrap around, but still do not depend on the order of the additions.
-/

namespace SourceGauge

namespace Builder

/-- An open builder counts a finite number. -/
theorem add_once {builder : Builder} {value : Number} (hopen : builder.built = none)
    (hfinite : value.isFinite? = some true) :
    (builder.add (.number value) once).1 = builder.counted (value, 1) ∧
      (builder.add (.number value) once).2.outcome = .ok () := by
  have hone : 1 < signedWordLimit := by decide
  have hasked : asked? (.number value) once = some (value, 1) := by
    simp [asked?_once, finite?, Value.number?, hfinite]
  obtain ⟨hnext, hrun⟩ := add_of_asked hopen hasked
  rw [taken, if_pos hone] at hnext
  exact ⟨hnext, hrun.2 hone⟩

/-- An open builder counts every number of a list, if all are finite. -/
theorem addList_numbers {builder : Builder} {values : List Number} (hopen : builder.built = none)
    (hfinite : ∀ value ∈ values, value.isFinite? = some true) :
    (builder.addList (values.map .number)).1 = (onceEach values).foldl counted builder ∧
      (builder.addList (values.map .number)).2.outcome = .ok () := by
  induction values generalizing builder with
  | nil => exact ⟨rfl, rfl⟩
  | cons value rest ih =>
    obtain ⟨hnext, hrun⟩ := add_once hopen (hfinite value List.mem_cons_self)
    have hopenNext : (builder.counted (value, 1)).built = none := hopen
    obtain ⟨hlast, hothers⟩ := ih hopenNext fun other hother =>
      hfinite other (List.mem_cons_of_mem value hother)
    rw [List.map_cons, addList]
    simp only [hrun, hnext, hothers, hlast, and_true]
    rfl

/-- A builder holds a tally if its words are those of the counts. -/
def Holds (builder : Builder) (adds : List (Number × Nat)) : Prop :=
  builder.counts = (builder.bounds.tally adds).map Int64.ofNat

/-- A new builder holds the tally of nothing. -/
theorem holds_new (measure : Measure) (bounds : Bounds) : (new measure bounds).Holds [] := by
  have hzero : (Int64.ofNat 0) = 0 := rfl
  simp [Holds, new, Bounds.tally_nil, hzero]

/-- Changing a word is changing the count that it is the word of. -/
theorem map_ofNat_modify (counts : List Nat) (bucket count : Nat) :
    (counts.map Int64.ofNat).modify bucket (· + Int64.ofNat count) =
      (counts.modify bucket (· + count)).map Int64.ofNat := by
  refine List.ext_getElem (by simp) fun i _ _ => ?_
  simp only [List.getElem_modify, List.getElem_map]
  split
  · rw [Int64.ofNat_add]
  · rfl

/-- Counting a value adds it to the tally that is held. -/
theorem Holds.counted {builder : Builder} {adds : List (Number × Nat)} (h : builder.Holds adds)
    (add : Number × Nat) : (builder.counted add).Holds (adds ++ [add]) := by
  rw [Holds] at h ⊢
  rw [counted_bounds, Bounds.tally_concat, ← map_ofNat_modify, ← h]
  rfl

/-- Counting values one after the other adds all of them to the tally that is held, and leaves the
builder as open as it was. -/
theorem Holds.foldl_counted {builder : Builder} {before : List (Number × Nat)}
    (h : builder.Holds before) (adds : List (Number × Nat)) :
    (adds.foldl Builder.counted builder).Holds (before ++ adds) ∧
      (adds.foldl Builder.counted builder).measure = builder.measure ∧
      (adds.foldl Builder.counted builder).bounds = builder.bounds ∧
      (adds.foldl Builder.counted builder).built = builder.built := by
  induction adds generalizing builder before with
  | nil =>
    rw [List.append_nil]
    exact ⟨h, rfl, rfl, rfl⟩
  | cons add rest ih =>
    rw [List.append_cons]
    exact ih (h.counted add)

/-- What an open builder finishes: the histogram of its words. -/
theorem build_of_holds {builder : Builder} {adds : List (Number × Nat)}
    (hopen : builder.built = none) (h : builder.Holds adds) :
    builder.build.2 = Histogram.ofInts builder.measure builder.bounds
      ((builder.bounds.tally adds).map fun count => (Int64.ofNat count).toInt) .memory := by
  rw [Holds] at h
  rw [build]
  rw [hopen, h, List.map_map]
  cases hbuilt : Histogram.ofInts builder.measure builder.bounds
      ((builder.bounds.tally adds).map (Int64.toInt ∘ Int64.ofNat)) .memory with
  | error failure => exact hbuilt.symm
  | ok histogram => exact hbuilt.symm

end Builder

/-- Words of natural numbers that fit a signed word make up a histogram. -/
theorem Histogram.ofInts_words {measure : Measure} {bounds : Bounds} {counts : List Nat}
    (hsize : counts.length = bounds.size) (hfit : ∀ count ∈ counts, count < signedWordLimit)
    (mode : PersistenceMode) :
    ofInts measure bounds (counts.map fun count => (Int64.ofNat count).toInt) mode =
      .ok ⟨measure, bounds, counts, mode, hsize⟩ := by
  have hwords : (counts.map fun count => (Int64.ofNat count).toInt) = counts.map Int.ofNat :=
    List.map_congr_left fun count hcount => Int64.toInt_ofNat_of_lt (hfit count hcount)
  rw [hwords, ofInts_natCast measure hsize]

namespace Builder

/-- The histogram that a fresh builder finishes after it has counted values once each. -/
def histogramOf (measure : Measure) (bounds : Bounds) (values : List Number) :
    Except Failure Histogram :=
  let added := (new measure bounds).addList (values.map .number)
  added.2.outcome.bind fun _ => added.1.build.2

/-- A fresh builder that is fed finite numbers finishes the histogram of their words. -/
theorem histogramOf_eq (measure : Measure) (bounds : Bounds) {values : List Number}
    (hfinite : ∀ value ∈ values, value.isFinite? = some true) :
    histogramOf measure bounds values = Histogram.ofInts measure bounds
      ((bounds.tally (onceEach values)).map fun count => (Int64.ofNat count).toInt) .memory := by
  have hopen : (new measure bounds).built = none := rfl
  obtain ⟨hlast, hrun⟩ := addList_numbers hopen hfinite
  obtain ⟨hholds, hmeasure, hbounds, hbuilt⟩ :=
    (holds_new measure bounds).foldl_counted (onceEach values)
  have hbuild := build_of_holds hbuilt hholds
  rw [histogramOf]
  simp only [hrun, hlast, ok_bind]
  rw [hbuild, hmeasure, hbounds]
  rfl

/-- The order in which a builder is fed does not matter. -/
theorem histogramOf_perm (measure : Measure) (bounds : Bounds) {values others : List Number}
    (h : values.Perm others) (hfinite : ∀ value ∈ values, value.isFinite? = some true) :
    histogramOf measure bounds values = histogramOf measure bounds others := by
  have hothers : ∀ value ∈ others, value.isFinite? = some true := fun value hvalue =>
    hfinite value (h.mem_iff.2 hvalue)
  rw [histogramOf_eq measure bounds hfinite, histogramOf_eq measure bounds hothers,
    bounds.tally_perm (onceEach_perm h)]

/-- Fewer than `2 ^ 63` finite numbers are counted exactly. -/
theorem histogramOf_of_lt (measure : Measure) (bounds : Bounds) {values : List Number}
    (hfinite : ∀ value ∈ values, value.isFinite? = some true)
    (hsize : values.length < signedWordLimit) :
    histogramOf measure bounds values =
      .ok (Histogram.tallied measure bounds (onceEach values)) := by
  rw [← timesCounted_onceEach values] at hsize
  rw [histogramOf_eq measure bounds hfinite]
  exact Histogram.ofInts_words (bounds.length_tally _) (bounds.lt_of_mem_tally hsize) .memory

end Builder

end SourceGauge
