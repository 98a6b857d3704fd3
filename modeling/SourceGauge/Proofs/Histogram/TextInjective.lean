import SourceGauge.FileRecord
import SourceGauge.Proofs.Histogram.RoundTrip
import SourceGauge.Proofs.Number.Texts

/-!
# Texts tell histograms apart

A histogram that has a text is known by it: whatever the bounds are, exactly representable or not,
two histograms with one text have as many buckets, bounds in the same places, and the same counts.
The text is divided at its semicolons, a bucket at its equals sign, and what stands between them is
the text of one place and of one count. So the records of files show different histograms
differently.

Neither the measure nor the mode of a histogram is part of its text, and a whole number stands for
the real in its place.
-/

namespace SourceGauge

/-- Where items that look alike are alike, lists that look alike item by item are alike. -/
theorem map_eq_map_of_forall {α β γ : Type} {f : α → β} {g : α → γ} {items others : List α}
    (hitem : ∀ a ∈ items, ∀ b ∈ others, f a = f b → g a = g b)
    (h : items.map f = others.map f) : items.map g = others.map g := by
  induction items generalizing others with
  | nil =>
    obtain rfl := List.map_eq_nil_iff.1 h.symm
    rfl
  | cons a rest ih =>
    cases others with
    | nil => contradiction
    | cons b more =>
      obtain ⟨hhead, htail⟩ := List.cons.inj h
      have hrest := ih (fun c hc d hd =>
        hitem c (List.mem_cons_of_mem a hc) d (List.mem_cons_of_mem b hd)) htail
      rw [List.map_cons, List.map_cons, hrest,
        hitem a List.mem_cons_self b List.mem_cons_self hhead]

/-- Texts made of one string each are equal only if the strings are. -/
theorem Text.ofString_injective {s t : String} (h : ofString s = ofString t) : s = t := by
  have hback := toString?_eq_some_iff.2 h
  rw [toString?_eq_some_iff.2 rfl] at hback
  exact Option.some.inj hback

/-- Bounds with one text lie in one place. -/
theorem Bounds.extent?_eq_of_boundText {a b : Number} (ha : isBound a = true)
    (hb : isBound b = true) (h : boundText a = boundText b) : a.extent? = b.extent? := by
  rcases boundText_cases ha with ⟨m, hm, hplace⟩ | ⟨x, rfl, hx, hxtext⟩
  · rcases boundText_cases hb with ⟨n, hn, hother⟩ | ⟨y, rfl, hy, hytext⟩
    · have hsame : m = n := toString_int_injective (by rw [← hm, h, hn])
      rw [hplace, hother, hsame]
    · exact absurd (by rw [← hytext, ← h, hm]) (Binary64.ofList_chars_ne_toString hy m)
  · rcases boundText_cases hb with ⟨n, hn, _⟩ | ⟨y, rfl, hy, hytext⟩
    · exact absurd (by rw [← hxtext, h, hn]) (Binary64.ofList_chars_ne_toString hx n)
    · rw [hxtext, hytext] at h
      rw [Binary64.chars_injective hx hy (String.ofList_injective h)]

namespace Histogram

/-- The same buckets with the same counts, bounds being compared as numbers. -/
def SameBuckets (a b : Histogram) : Prop :=
  a.bounds.size = b.bounds.size ∧ a.bounds.same b.bounds = true ∧ a.counts = b.counts

variable {a b : Histogram} {text : String}

/-- Buckets with one text have their bounds in one place and the same count. -/
theorem bucket_eq_of_bucketText {bucket other : Number × Nat} (hbucket : isBound bucket.1 = true)
    (hother : isBound other.1 = true) (h : bucketText bucket = bucketText other) :
    (bucket.1.extent?, bucket.2) = (other.1.extent?, other.2) := by
  obtain ⟨bound, count⟩ := bucket
  obtain ⟨otherBound, otherCount⟩ := other
  have hequals : ∀ {bound : Number}, isBound bound = true →
      CodePoint.char '=' ∉ (Bounds.boundText bound).toList.map CodePoint.char := by
    intro bound hbound hmem
    obtain ⟨c, hc, heq⟩ := List.mem_map.1 hmem
    have hne := (Numeral.range_of_isWritten (Bounds.isWritten_boundText hbound c hc)).2.2.2.2
    exact hne (CodePoint.char.inj heq)
  have hdigits : ∀ count : Nat,
      CodePoint.char '=' ∉ (digitChars count).map CodePoint.char := by
    intro count hmem
    obtain ⟨c, hc, heq⟩ := List.mem_map.1 hmem
    have hdigit := Numeral.isDigit_of_mem_digitChars hc
    rw [CodePoint.char.inj heq] at hdigit
    exact absurd hdigit (by decide)
  have hinj : Function.Injective (List.map CodePoint.char) :=
    List.map_injective_iff.2 fun _ _ => CodePoint.char.inj
  have hpoints := points_bucketText bound count
  rw [h, points_bucketText] at hpoints
  obtain ⟨hbounds, _, hcounts⟩ :=
    (List.append_cons_inj_of_notMem (hequals hother) (hdigits otherCount)).1 hpoints
  have hbound := String.toList_injective (hinj hbounds)
  have hcount := congrArg Numeral.ofDigits (hinj hcounts)
  rw [Numeral.ofDigits_digitChars, Numeral.ofDigits_digitChars] at hcount
  rw [Bounds.extent?_eq_of_boundText hbucket hother hbound.symm, hcount]

/-- A text is that of the buckets. -/
theorem eq_of_toText (h : a.toText = .ok text) :
    text = String.intercalate ";" (a.buckets.map bucketText) := by
  rw [toText] at h
  split at h
  · exact (Except.ok.inj h).symm
  · contradiction

/-- The places of the bounds, from the buckets. -/
theorem map_place_buckets (histogram : Histogram) :
    (histogram.buckets.map fun bucket => bucket.1.extent?) = histogram.bounds.places := by
  have hsizes : histogram.bounds.values.length ≤ histogram.counts.length :=
    Nat.le_of_eq histogram.size_eq.symm
  calc (histogram.buckets.map fun bucket => bucket.1.extent?)
      = (histogram.buckets.map Prod.fst).map Number.extent? := by rw [List.map_map]; rfl
    _ = histogram.bounds.places := by rw [buckets, List.map_fst_zip hsizes]; rfl

/-- Histograms with one text have the same buckets. -/
theorem sameBuckets_of_toText (ha : a.toText = .ok text) (hb : b.toText = .ok text) :
    SameBuckets a b := by
  have htexts : a.buckets.map bucketText = b.buckets.map bucketText := by
    have hpieces := b.pieces_bucketTexts
    rw [← eq_of_toText hb, eq_of_toText ha, a.pieces_bucketTexts] at hpieces
    exact map_eq_map_of_forall (fun _ _ _ _ => Text.ofString_injective) hpieces
  have hbuckets := map_eq_map_of_forall (g := fun bucket => (bucket.1.extent?, bucket.2))
    (fun bucket hbucket other hother =>
      bucket_eq_of_bucketText (a.bounds.bound _ (mem_of_mem_buckets hbucket).1)
        (b.bounds.bound _ (mem_of_mem_buckets hother).1)) htexts
  have hsame : a.bounds.same b.bounds = true := by
    have hplaces := congrArg (List.map Prod.fst) hbuckets
    rw [List.map_map, List.map_map] at hplaces
    rw [Bounds.same_iff, ← a.map_place_buckets, ← b.map_place_buckets]
    exact hplaces
  have hcounts := congrArg (List.map Prod.snd) hbuckets
  rw [List.map_map, List.map_map] at hcounts
  have hcount : ∀ histogram : Histogram, histogram.buckets.map Prod.snd = histogram.counts :=
    fun histogram => List.map_snd_zip (Nat.le_of_eq histogram.size_eq)
  refine ⟨Bounds.size_eq_of_same hsame, hsame, ?_⟩
  rw [← hcount a, ← hcount b]
  exact hcounts

end Histogram

namespace FileRecord

/-- What the table of a record shows for a measure among its distributions. -/
def shown? (entries : List (Text × Value)) (measure : Measure) : Option Value :=
  match Value.lookup "distributions" entries with
  | some (.table texts) => Value.lookup measure.name texts
  | _ => none

variable {record : FileRecord} {entries : List (Text × Value)} {measure : Measure}
  {histogram : Histogram}

/-- The two texts of a record by name. -/
theorem histogramTexts_eq_ok {texts : List (String × String)}
    (h : record.histogramTexts = .ok texts) :
    ∃ functions file, record.functionComplexity.toText = .ok functions ∧
      record.fileComplexity.toText = .ok file ∧
      texts = [(Measure.functionComplexityDistribution.name, functions),
        (Measure.fileComplexityDistribution.name, file)] := by
  have htexts := mapOk_eq_ok_iff.1 h
  have hsize := length_of_mapOk h
  obtain ⟨first, second, rfl⟩ := List.length_eq_two.1 hsize
  obtain ⟨hfirst, hrest⟩ := List.cons.inj htexts
  obtain ⟨functions, hfunctions, rfl⟩ := map_eq_ok_iff.1 hfirst
  obtain ⟨file, hfile, rfl⟩ := map_eq_ok_iff.1 (List.cons.inj hrest).1
  exact ⟨functions, file, hfunctions, hfile, rfl⟩

/-- A record that has a table shows each of its histograms by its text. -/
theorem shown?_toEntries (h : record.toEntries = .ok entries)
    (hhistogram : record.histogram? measure = some histogram) :
    ∃ text : String, histogram.toText = .ok text ∧
      shown? entries measure = some (.text text) := by
  obtain ⟨texts, htexts, rfl⟩ := map_eq_ok_iff.1 h
  obtain ⟨functions, file, hfunctions, hfile, rfl⟩ := histogramTexts_eq_ok htexts
  have hfirst : ∀ key measures first second, shown? [("key", key), ("measures", measures),
      ("distributions", .table [(Measure.functionComplexityDistribution.name, first),
        (Measure.fileComplexityDistribution.name, second)])] .functionComplexityDistribution =
      some first := fun _ _ _ _ => rfl
  have hsecond : ∀ key measures first second, shown? [("key", key), ("measures", measures),
      ("distributions", .table [(Measure.functionComplexityDistribution.name, first),
        (Measure.fileComplexityDistribution.name, second)])] .fileComplexityDistribution =
      some second := fun _ _ _ _ => rfl
  cases measure with
  | functionComplexityDistribution =>
    obtain rfl := Option.some.inj hhistogram
    exact ⟨functions, hfunctions, hfirst _ _ _ _⟩
  | fileComplexityDistribution =>
    obtain rfl := Option.some.inj hhistogram
    exact ⟨file, hfile, hsecond _ _ _ _⟩
  | _ => contradiction

end FileRecord

namespace Histogram

open FileRecord

/-- Histograms with one text have the same buckets, and so have histograms for which two records
show the same. -/
theorem sameBuckets_of_text :
    (∀ (a b : Histogram) (text : String), a.toText = .ok text → b.toText = .ok text →
      SameBuckets a b) ∧
    ∀ (record other : FileRecord) (entries others : List (Text × Value))
      (measure otherMeasure : Measure) (histogram otherHistogram : Histogram),
      record.toEntries = .ok entries → other.toEntries = .ok others →
      record.histogram? measure = some histogram →
      other.histogram? otherMeasure = some otherHistogram →
      shown? entries measure = shown? others otherMeasure →
      SameBuckets histogram otherHistogram := by
  refine ⟨fun a b text ha hb => sameBuckets_of_toText ha hb, ?_⟩
  intro record other entries others measure otherMeasure histogram otherHistogram hentries hothers
    hhistogram hotherHistogram hshown
  obtain ⟨text, htext, hfirst⟩ := shown?_toEntries hentries hhistogram
  obtain ⟨otherText, hotherText, hsecond⟩ := shown?_toEntries hothers hotherHistogram
  rw [hfirst, hsecond, Option.some.injEq, Value.text.injEq] at hshown
  obtain rfl := Text.ofString_injective hshown
  exact sameBuckets_of_toText htext hotherText

/-- The sample with a real for each of its bounds. -/
def realHistogram : Histogram where
  measure := .functionComplexityDistribution
  bounds := {
    values := [.real (.ofInt (-3)), .real (.ofRatio false unitsPerOne 2),
      .real (.ofInt 10000000000000000000000)]
    nonempty := List.cons_ne_nil _ _
    bound := by decide +kernel
    increasing := by decide +kernel }
  counts := sampleHistogram.counts
  mode := .memory
  size_eq := rfl

/-- Both forms of the sample have one text, and so the same buckets. -/
theorem sameBuckets_realHistogram :
    ∃ text, sampleHistogram.toText = .ok text ∧ realHistogram.toText = .ok text ∧
      SameBuckets sampleHistogram realHistogram := by
  have htexts : sampleHistogram.buckets.map bucketText = realHistogram.buckets.map bucketText := by
    decide +kernel
  have hsample : sampleHistogram.toText =
      .ok (String.intercalate ";" (sampleHistogram.buckets.map bucketText)) :=
    if_pos (by decide +kernel)
  have hreal : realHistogram.toText =
      .ok (String.intercalate ";" (sampleHistogram.buckets.map bucketText)) := by
    rw [htexts]
    exact if_pos (by decide +kernel)
  exact ⟨_, hsample, hreal, sameBuckets_of_text.1 _ _ _ hsample hreal⟩

end Histogram

end SourceGauge
