import Mathlib.Algebra.Ring.Int.Defs
import SourceGauge.Histogram.Text
import SourceGauge.Proofs.Histogram.SameBounds
import SourceGauge.Proofs.Number.Shortest
import SourceGauge.Proofs.Text.Splitting

/-!
# Texts of histograms read back

A histogram with exact bounds is read back from its text: each bound is read as a real in the same
place, each count as itself, and the pieces of the text are the buckets, since neither a bound nor a
count holds a semicolon or an equals sign. A histogram that was read has nothing but reals for its
bounds and counts that can be written, so its text is a normal form of the texts it is read from.

Kinds are not kept: a whole number comes back as a real, and a negative zero as a positive one.
-/

namespace SourceGauge

open Numeral

/-- A value that equals a whole number lies where it lies. -/
theorem Binary64.extent?_of_integer? {x : Binary64} {n : Int} (h : x.integer? = some n) :
    (Number.real x).extent? = (Number.int n).extent? := by
  cases x with
  | nan => simp [integer?] at h
  | infinite negative => simp [integer?] at h
  | finite negative units hunits =>
    simp only [integer?, Option.ite_none_right_eq_some, Option.some.injEq] at h
    obtain ⟨hwhole, hn⟩ := h
    have hunitsOf : ((units / unitsPerOne : Nat) : Int) * unitsPerOne = units := by
      exact_mod_cast Nat.div_mul_cancel (Nat.dvd_of_mod_eq_zero hwhole)
    subst hn
    cases negative with
    | true =>
      show some (Extent.at (-(units : Int))) =
        some (.at (-((units / unitsPerOne : Nat) : Int) * unitsPerOne))
      rw [Int.neg_mul, hunitsOf]
    | false =>
      show some (Extent.at units) = some (.at (((units / unitsPerOne : Nat) : Int) * unitsPerOne))
      rw [hunitsOf]

namespace Bounds

/-- The real that the text of a bound is read as. -/
def reread (bound : Number) : Binary64 := (readReal (boundText bound).toList).getD .nan

/-- A bound is written as the whole number that lies where it lies, if there is one, and as the real
that it is if there is none. -/
theorem boundText_cases {bound : Number} (h : isBound bound = true) :
    (∃ n : Int, boundText bound = toString n ∧ bound.extent? = (Number.int n).extent?) ∨
      ∃ x : Binary64, bound = .real x ∧ x.isFinite = true ∧
        boundText bound = String.ofList x.chars := by
  cases bound with
  | flag value => contradiction
  | int n => exact .inl ⟨n, rfl, rfl⟩
  | real x =>
    rw [boundText]
    cases hinteger : x.integer? with
    | some n => exact .inl ⟨n, rfl, Binary64.extent?_of_integer? hinteger⟩
    | none => exact .inr ⟨x, rfl, Option.some.inj (beq_iff_eq.1 h), rfl⟩

/-- The text of a bound holds nothing but characters of written numbers. -/
theorem isWritten_boundText {bound : Number} (h : isBound bound = true) :
    ∀ c ∈ (boundText bound).toList, isWritten c = true := by
  rcases boundText_cases h with ⟨n, htext, _⟩ | ⟨x, _, hfinite, htext⟩
  · rw [htext]
    exact isWritten_toString_int n
  · rw [htext, String.toList_ofList]
    exact Binary64.isWritten_chars hfinite

/-- The text of an exact bound is read. -/
theorem readReal_boundText {bound : Number} (h : isBound bound = true) (hexact : bound.IsExact) :
    readReal (boundText bound).toList = some (reread bound) ∧
      (Number.real (reread bound)).extent? = bound.extent? := by
  have hread : ∃ x, readReal (boundText bound).toList = some x ∧
      (Number.real x).extent? = bound.extent? := by
    rcases boundText_cases h with ⟨n, htext, hplace⟩ | ⟨x, rfl, hfinite, htext⟩
    · obtain ⟨x, hx⟩ := hexact
      have hunits := Number.representable_of_isExact (n := n) ⟨x, hx.trans hplace⟩
      rw [htext, hplace]
      exact ⟨.ofInt n, readReal_int hunits, Number.extent?_ofInt hunits⟩
    · rw [htext, String.toList_ofList]
      exact ⟨x, Binary64.readReal_chars hfinite, rfl⟩
  obtain ⟨x, hx, hplace⟩ := hread
  have hreread : reread bound = x := by rw [reread, hx, Option.getD_some]
  exact ⟨hreread ▸ hx, hreread ▸ hplace⟩

/-- A real that lies where a bound lies is a bound. -/
theorem isBound_of_extent? {x : Binary64} {bound : Number} (h : isBound bound = true)
    (hplace : (Number.real x).extent? = bound.extent?) : isBound (.real x) = true := by
  have hunits : ∃ units, bound.extent? = some (.at units) := by
    cases bound with
    | flag value => contradiction
    | int n => exact ⟨_, rfl⟩
    | real y =>
      cases y with
      | nan => contradiction
      | infinite negative => contradiction
      | finite negative units hunits => exact ⟨_, rfl⟩
  obtain ⟨units, hunits⟩ := hunits
  rw [hunits] at hplace
  cases x with
  | nan => simp [Number.extent?] at hplace
  | infinite negative => cases negative <;> simp [Number.extent?] at hplace
  | finite negative units hunits => rfl

/-- The reals that bounds are read as lie where the bounds lie. -/
theorem map_extent?_reread (bounds : Bounds) (h : ∀ bound ∈ bounds.values, bound.IsExact) :
    (bounds.values.map fun bound => Number.real (reread bound)).map Number.extent? =
      bounds.places := by
  rw [List.map_map]
  exact List.map_congr_left fun bound hbound =>
    (readReal_boundText (bounds.bound bound hbound) (h bound hbound)).2

/-- Bounds with each one replaced by the real it is read as. -/
def rereadAll (bounds : Bounds) (h : ∀ bound ∈ bounds.values, bound.IsExact) : Bounds where
  values := bounds.values.map fun bound => .real (reread bound)
  nonempty := by simpa using bounds.nonempty
  bound := by
    intro n hn
    obtain ⟨bound, hbound, rfl⟩ := List.mem_map.1 hn
    exact isBound_of_extent? (bounds.bound bound hbound)
      (readReal_boundText (bounds.bound bound hbound) (h bound hbound)).2
  increasing := pairwise_of_places (bounds.map_extent?_reread h) bounds.increasing

/-- Bounds that are read back are the same. -/
theorem same_rereadAll (bounds : Bounds) (h : ∀ bound ∈ bounds.values, bound.IsExact) :
    (bounds.rereadAll h).same bounds = true :=
  same_iff.2 (bounds.map_extent?_reread h)

end Bounds

/-- Characters are shown as they are. -/
theorem Text.shownChars_mk_map (cs : List Char) : (Text.mk (cs.map .char)).shownChars = cs := by
  rw [shownChars, List.map_map]
  exact List.map_id cs

namespace Histogram

/-- The code points of a bucket: the bound, an equals sign, the count. -/
theorem points_bucketText (bound : Number) (count : Nat) :
    (Text.ofString (bucketText (bound, count))).points =
      (Bounds.boundText bound).toList.map .char ++
        .char '=' :: (digitChars count).map CodePoint.char := by
  show (bucketText (bound, count)).toList.map CodePoint.char = _
  have hequals : "=".toList = ['='] := rfl
  rw [bucketText, String.toList_append, String.toList_append, hequals, List.map_append,
    List.map_append, List.append_assoc]
  show _ ++ CodePoint.char '=' :: (Nat.repr count).toList.map CodePoint.char = _
  rw [Nat.toList_repr]
  rfl

/-- A bucket with an exact bound is read back. -/
theorem readBucket_bucketText {bound : Number} (h : isBound bound = true)
    (hexact : bound.IsExact) {count : Nat} (hcount : (Number.int count).isWritable = true) :
    readBucket (Text.ofString (bucketText (bound, count))) =
      .ok (.number (.real (Bounds.reread bound)), count) := by
  have hbound : ∀ point ∈ (Bounds.boundText bound).toList.map CodePoint.char,
      (point != .char '=') = true := by
    intro point hpoint
    obtain ⟨c, hc, rfl⟩ := List.mem_map.1 hpoint
    have hne := (range_of_isWritten (Bounds.isWritten_boundText h c hc)).2.2.2.2
    simpa using hne
  have hbefore : (Text.ofString (bucketText (bound, count))).points.takeWhile
      (· != .char '=') = (Bounds.boundText bound).toList.map .char := by
    rw [points_bucketText, List.takeWhile_append_of_pos hbound]
    simp
  have hafter : (Text.ofString (bucketText (bound, count))).points.dropWhile
      (· != .char '=') = .char '=' :: (digitChars count).map .char := by
    rw [points_bucketText, List.dropWhile_append_of_pos hbound]
    simp
  have hreal : readBound ⟨(Bounds.boundText bound).toList.map .char⟩ =
      .ok (.number (.real (Bounds.reread bound))) := by
    rw [readBound, Text.shownChars_mk_map, (Bounds.readReal_boundText h hexact).1]
  have hwhole : BadValue.readWhole ⟨(digitChars count).map .char⟩ = .ok (count : Int) := by
    have hfew : (digitChars count).length ≤ maxDigits := of_decide_eq_true hcount
    rw [BadValue.readWhole, Text.shownChars_mk_map, readInt_digitChars hfew]
    rfl
  rw [readBucket, hafter]
  dsimp only
  rw [hbefore, hreal, hwhole]
  rfl

/-- The text of a bucket holds no semicolon. -/
theorem not_mem_bucketText {bound : Number} (h : isBound bound = true) (count : Nat) :
    ';' ∉ (bucketText (bound, count)).toList := by
  have hwritten : ∀ c, isWritten c = true → c ≠ ';' := fun c hc =>
    (range_of_isWritten hc).2.2.2.1
  have hequals : "=".toList = ['='] := rfl
  rw [bucketText, String.toList_append, String.toList_append, hequals]
  intro hmem
  rcases List.mem_append.1 hmem with hmem | hmem
  · rcases List.mem_append.1 hmem with hmem | hmem
    · exact hwritten ';' (Bounds.isWritten_boundText h ';' hmem) rfl
    · simp at hmem
  · exact hwritten ';' (isWritten_toString_int count ';' hmem) rfl

/-- A histogram with each bound replaced by the real it is read as, to be rolled up. -/
def reread (histogram : Histogram) (h : ∀ bound ∈ histogram.bounds.values, bound.IsExact) :
    Histogram :=
  ⟨histogram.measure, histogram.bounds.rereadAll h, histogram.counts, .memory,
    histogram.size_eq.trans (by simp [Bounds.size, Bounds.rereadAll])⟩

/-- The bound and the count of a bucket are those of its histogram. -/
theorem mem_of_mem_buckets {histogram : Histogram} {bucket : Number × Nat}
    (h : bucket ∈ histogram.buckets) :
    bucket.1 ∈ histogram.bounds.values ∧ bucket.2 ∈ histogram.counts :=
  List.of_mem_zip h

/-- The pieces of the text of a histogram are its buckets. -/
theorem pieces_bucketTexts (histogram : Histogram) :
    Text.pieces ';' (String.intercalate ";" (histogram.buckets.map bucketText)) =
      histogram.buckets.map fun bucket => Text.ofString (bucketText bucket) := by
  have hsome : histogram.buckets ≠ [] := by
    have hsize := histogram.bounds.size_pos
    rw [← histogram.size_eq] at hsize
    have hvalues : histogram.bounds.values.length = histogram.counts.length :=
      histogram.size_eq.symm
    refine List.ne_nil_of_length_pos ?_
    rw [buckets, List.length_zip]
    omega
  have hnone : ∀ string ∈ histogram.buckets.map bucketText, ';' ∉ string.toList := by
    intro string hstring
    obtain ⟨bucket, hbucket, rfl⟩ := List.mem_map.1 hstring
    exact not_mem_bucketText (histogram.bounds.bound _ (mem_of_mem_buckets hbucket).1) _
  rw [Text.pieces_intercalate rfl hnone (by simpa using hsome), List.map_map]
  rfl

/-- The buckets of a histogram with exact bounds and counts that can be written are the pieces of
its text, and each one is read back. -/
theorem mapOk_readBucket_pieces {histogram : Histogram}
    (hexact : ∀ bound ∈ histogram.bounds.values, bound.IsExact)
    (hcounts : ∀ count ∈ histogram.counts, (Number.int count).isWritable = true) :
    mapOk readBucket
        (Text.pieces ';' (String.intercalate ";" (histogram.buckets.map bucketText))) =
      .ok (histogram.buckets.map fun bucket =>
        (Value.number (.real (Bounds.reread bucket.1)), (bucket.2 : Int))) := by
  rw [pieces_bucketTexts, mapOk_map, mapOk_eq_ok_iff, List.map_map]
  refine List.map_congr_left fun bucket hbucket => ?_
  obtain ⟨hbound, hcount⟩ := mem_of_mem_buckets hbucket
  exact readBucket_bucketText (histogram.bounds.bound _ hbound) (hexact _ hbound)
    (hcounts _ hcount)

/-- A histogram with exact bounds and counts that can be written is written and read back. -/
theorem ofText_toText {histogram : Histogram}
    (hexact : ∀ bound ∈ histogram.bounds.values, bound.IsExact)
    (hcounts : ∀ count ∈ histogram.counts, (Number.int count).isWritable = true) :
    ∃ text, histogram.toText = .ok text ∧
      ofText histogram.measure text = .ok (histogram.reread hexact) := by
  have hwritten : histogram.toText =
      .ok (String.intercalate ";" (histogram.buckets.map bucketText)) := by
    rw [toText, if_pos (List.all_eq_true.2 hcounts)]
  have hsizes : histogram.bounds.values.length = histogram.counts.length := histogram.size_eq.symm
  have hbounds : (histogram.buckets.map fun bucket =>
      Value.number (.real (Bounds.reread bucket.1))) =
        (histogram.bounds.rereadAll hexact).values.map .number := by
    calc (histogram.buckets.map fun bucket => Value.number (.real (Bounds.reread bucket.1)))
        = (histogram.buckets.map Prod.fst).map fun bound =>
            Value.number (.real (Bounds.reread bound)) := by rw [List.map_map]; rfl
      _ = (histogram.bounds.rereadAll hexact).values.map .number := by
          rw [buckets, List.map_fst_zip (Nat.le_of_eq hsizes), Bounds.rereadAll, List.map_map]; rfl
  have hback : (histogram.buckets.map fun bucket => (bucket.2 : Int)) =
      histogram.counts.map Int.ofNat := by
    calc (histogram.buckets.map fun bucket => (bucket.2 : Int))
        = (histogram.buckets.map Prod.snd).map Int.ofNat := by rw [List.map_map]; rfl
      _ = histogram.counts.map Int.ofNat := by
          rw [buckets, List.map_snd_zip (Nat.le_of_eq hsizes.symm)]
  refine ⟨_, hwritten, ?_⟩
  rw [ofText, mapOk_readBucket_pieces hexact hcounts]
  show (Bounds.ofList _).bind _ = _
  rw [List.map_map, List.map_map]
  show (Bounds.ofList (histogram.buckets.map fun bucket =>
    Value.number (.real (Bounds.reread bucket.1)))).bind (fun bounds => ofInts histogram.measure
      bounds (histogram.buckets.map fun bucket => (bucket.2 : Int)) .memory) = _
  rw [hbounds, Bounds.ofList_values, hback]
  exact ofInts_natCast histogram.measure _ .memory

/-- A bucket that is read has a real for its bound and a count that can be written. -/
theorem of_readBucket {entry : Text} {value : Value} {n : Int}
    (h : readBucket entry = .ok (value, n)) :
    (∃ x, value = .number (.real x)) ∧ (Number.int n).isWritable = true := by
  unfold readBucket at h
  split at h
  · contradiction
  · obtain ⟨bound, hbound, h⟩ := bind_eq_ok_iff.1 h
    obtain ⟨count, hcount, h⟩ := bind_eq_ok_iff.1 h
    obtain ⟨rfl, rfl⟩ := Prod.mk.inj (Except.ok.inj h)
    constructor
    · unfold readBound at hbound
      split at hbound
      · exact ⟨_, (Except.ok.inj hbound).symm⟩
      · contradiction
    · rw [BadValue.readWhole, mapError_eq_ok_iff, mapError_eq_ok_iff] at hcount
      exact isWritable_of_readInt hcount

/-- A histogram that is read is kept in memory under the measure it is read for; its bounds are
exact and its counts can be written. -/
theorem of_ofText {measure : Measure} {text : Text} {read : Histogram}
    (h : ofText measure text = .ok read) :
    read.measure = measure ∧ read.mode = .memory ∧ (∀ bound ∈ read.bounds.values, bound.IsExact) ∧
      ∀ count ∈ read.counts, (Number.int count).isWritable = true := by
  obtain ⟨buckets, hbuckets, h⟩ := bind_eq_ok_iff.1 h
  obtain ⟨bounds, hbounds, h⟩ := bind_eq_ok_iff.1 h
  obtain ⟨hmeasure, rfl, hmode, hcounts⟩ := ofInts_eq_ok h
  have hbucket : ∀ bucket ∈ buckets, (∃ x, bucket.1 = .number (.real x)) ∧
      (Number.int bucket.2).isWritable = true := by
    intro bucket hmem
    obtain ⟨entry, _, hentry⟩ := exists_of_mem_mapOk hbuckets hmem
    exact of_readBucket hentry
  refine ⟨hmeasure, hmode, fun bound hbound => ?_, fun count hcount => ?_⟩
  · obtain ⟨value, hvalue, haccepted⟩ :=
      exists_of_mem_mapOk (Bounds.mapOk_of_ofList hbounds) hbound
    obtain ⟨bucket, hmem, rfl⟩ := List.mem_map.1 hvalue
    obtain ⟨x, hx⟩ := (hbucket bucket hmem).1
    rw [hx] at haccepted
    have hbound := Value.number.inj (Bounds.eq_number_of_toBound haccepted)
    exact hbound ▸ Number.isExact_real x
  · have hmem : (count : Int) ∈ buckets.map Prod.snd :=
      hcounts ▸ List.mem_map_of_mem (f := Int.ofNat) hcount
    obtain ⟨bucket, hbucketMem, hcountEq⟩ := List.mem_map.1 hmem
    exact hcountEq ▸ (hbucket bucket hbucketMem).2

/-- A histogram with exact bounds and counts of at most 4300 digits is written and read back as a
histogram of the same measure with the same bounds and counts. Whatever text is read, the histogram
that it is read as is written, and reading that text gives an equal histogram. -/
theorem text_round_trip :
    (∀ histogram : Histogram, (∀ bound ∈ histogram.bounds.values, bound.IsExact) →
      (∀ count ∈ histogram.counts, Binary64.decimalSize count ≤ maxDigits) →
      ∃ text read, histogram.toText = .ok text ∧ ofText histogram.measure text = .ok read ∧
        read.measure = histogram.measure ∧ read.bounds.same histogram.bounds = true ∧
        read.counts = histogram.counts) ∧
    ∀ measure text read, ofText measure text = .ok read →
      ∃ written again, read.toText = .ok written ∧ ofText measure written = .ok again ∧
        again.same read = true := by
  constructor
  · intro histogram hexact hcounts
    obtain ⟨text, hwritten, hread⟩ :=
      ofText_toText hexact fun count hcount => decide_eq_true (hcounts count hcount)
    exact ⟨text, histogram.reread hexact, hwritten, hread, rfl,
      histogram.bounds.same_rereadAll hexact, rfl⟩
  · intro measure text read h
    obtain ⟨rfl, hmode, hexact, hcounts⟩ := of_ofText h
    obtain ⟨written, hwritten, hread⟩ := ofText_toText hexact hcounts
    refine ⟨written, read.reread hexact, hwritten, hread, ?_⟩
    have hbounds : (read.reread hexact).bounds.same read.bounds = true :=
      read.bounds.same_rereadAll hexact
    rw [same, hbounds, hmode]
    simp [reread]

/-- A histogram with bounds of both kinds, one of them beyond the reach of significands of 53 bits,
and a count beyond the words of 64 bits. -/
def sampleHistogram : Histogram where
  measure := .fileComplexityDistribution
  bounds := {
    values := [.int (-3), .real (.ofRatio false unitsPerOne 2), .int (10 ^ 22)]
    nonempty := List.cons_ne_nil _ _
    bound := by decide +kernel
    increasing := by decide +kernel }
  counts := [7, 0, 2 ^ 64]
  mode := .memory
  size_eq := rfl

/-- The sample is read back from its text. -/
theorem text_round_trip_sample :
    (∀ bound ∈ sampleHistogram.bounds.values, bound.IsExact) ∧
      (∀ count ∈ sampleHistogram.counts, Binary64.decimalSize count ≤ maxDigits) ∧
      ∃ text read written again,
        sampleHistogram.toText = .ok text ∧
        ofText .fileComplexityDistribution text = .ok read ∧ read.counts = [7, 0, 2 ^ 64] ∧
        read.toText = .ok written ∧
        ofText .fileComplexityDistribution written = .ok again ∧ again.same read = true := by
  have hexact : ∀ bound ∈ sampleHistogram.bounds.values, bound.IsExact := by decide +kernel
  have hcounts : ∀ count ∈ sampleHistogram.counts, Binary64.decimalSize count ≤ maxDigits := by
    decide +kernel
  obtain ⟨text, read, htext, hread, _, _, hsame⟩ :=
    text_round_trip.1 sampleHistogram hexact hcounts
  obtain ⟨written, again, hwritten, hagain, hequal⟩ := text_round_trip.2 _ _ _ hread
  exact ⟨hexact, hcounts, text, read, written, again, htext, hread, hsame, hwritten, hagain, hequal⟩

end Histogram

end SourceGauge
