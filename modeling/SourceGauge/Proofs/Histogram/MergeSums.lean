import SourceGauge.Proofs.Histogram.Merging
import SourceGauge.Proofs.Histogram.Wrapping
import SourceGauge.Proofs.Number.Naturals

/-!
# What merging adds

The counts of a histogram decide together how they are packed, and two packed arrays how their
cells are added: as signed words, as unsigned words, as reals or as whole numbers of any size. So
whether one bucket is added exactly hangs on the counts of all buckets. Merging is exact if and
only if the sums fit the way in which they are made, and it fails in two cases: a sum of signed
words goes beyond them, or a count that is to be added to a real is beyond all reals. Otherwise it
succeeds, with sums that may be wrong.
-/

namespace SourceGauge

/-! ## Kinds of counts -/

/-- What counts are packed into: signed words, unsigned words, reals if some need an unsigned word
and others fit a signed one, or whole numbers of any size. -/
inductive CountKind
  | signed
  | unsigned
  | mixed
  | huge
  deriving DecidableEq

/-- How the cells of two packed arrays are added. -/
inductive Addition
  | signedWords
  | unsignedWords
  | reals
  | wholes
  deriving DecidableEq

namespace CountKind

/-- The kind that counts make up together. -/
def of (counts : List Nat) : CountKind :=
  if counts.all (· < signedWordLimit) then .signed
  else if counts.all (· < unsignedWordLimit) then
    if counts.all (signedWordLimit ≤ ·) then .unsigned else .mixed
  else .huge

/-- How counts of two kinds are added. -/
def addition : CountKind → CountKind → Addition
  | .signed, .signed => .signedWords
  | .unsigned, .unsigned => .unsignedWords
  | .huge, .mixed => .reals
  | .mixed, .huge => .reals
  | .huge, _ => .wholes
  | _, .huge => .wholes
  | _, _ => .reals

variable {kind other : CountKind}

theorem addition_eq_signedWords_iff :
    kind.addition other = .signedWords ↔ kind = .signed ∧ other = .signed := by
  cases kind <;> cases other <;> decide

theorem addition_eq_unsignedWords_iff :
    kind.addition other = .unsignedWords ↔ kind = .unsigned ∧ other = .unsigned := by
  cases kind <;> cases other <;> decide

end CountKind

/-- How the counts of two histograms are added. -/
def additionOf (counts others : List Nat) : Addition :=
  (CountKind.of counts).addition (.of others)

/-- The sums of counts, bucket by bucket. -/
def bucketSums (counts others : List Nat) : List Nat := List.zipWith (· + ·) counts others

/-- No number is beyond all reals. -/
def AllReal (counts : List Nat) : Prop :=
  ∀ count ∈ counts, ((Number.int count).toBinary64?).isSome = true

instance (counts : List Nat) : Decidable (AllReal counts) := by
  unfold AllReal
  infer_instance

namespace CountArray

variable {counts others : List Nat}

/-- Counts as they are packed, with what is known of them by their kind. -/
inductive Packed (counts : List Nat) : CountKind → CountArray → Prop
  | signed (h : ∀ count ∈ counts, count < signedWordLimit) :
    Packed counts .signed (.signed (counts.map Int64.ofNat))
  | unsigned (h : ∀ count ∈ counts, signedWordLimit ≤ count ∧ count < unsignedWordLimit) :
    Packed counts .unsigned (.unsigned (counts.map UInt64.ofNat))
  | mixed (h : ∀ count ∈ counts, count < unsignedWordLimit) :
    Packed counts .mixed (.real (counts.map realOf))
  | huge : Packed counts .huge (.exact counts)

/-- Counts are packed as their kind says. -/
theorem packed (counts : List Nat) : Packed counts (.of counts) (ofCounts counts) := by
  rw [CountKind.of, ofCounts]
  split
  · rename_i h
    exact .signed (by simpa using h)
  · split
    · rename_i h
      have hfit : ∀ count ∈ counts, count < unsignedWordLimit := by simpa using h
      split
      · rename_i hwide
        have hall : ∀ count ∈ counts, signedWordLimit ≤ count := by simpa using hwide
        exact .unsigned fun count hcount => ⟨hall count hcount, hfit count hcount⟩
      · exact .mixed hfit
    · exact .huge

/-- What two arrays add up to, given how they are added. -/
def sumsBy (counts others : List Nat) : Addition → Except Failure (List Int)
  | .signedWords => .ok ((bucketSums counts others).map fun sum => (Int64.ofNat sum).toInt)
  | .unsignedWords => .ok ((bucketSums counts others).map fun sum =>
      ((sum % unsignedWordLimit : Nat) : Int))
  | .reals =>
    if AllReal (counts ++ others) then .ok (addReals (counts.map realOf) (others.map realOf))
    else .error (.overflow .real)
  | .wholes => .ok ((bucketSums counts others).map Int.ofNat)

/-- Unsigned words of counts are added to what remains of the sums. -/
theorem add_unsigned (counts others : List Nat) :
    (unsigned (counts.map UInt64.ofNat)).add (unsigned (others.map UInt64.ofNat)) =
      sumsBy counts others .unsignedWords := by
  have hlimit : 2 ^ 64 = unsignedWordLimit := rfl
  simp only [add, sumsBy, bucketSums, List.zipWith_map, List.map_zipWith, ← UInt64.ofNat_add,
    UInt64.toNat_ofNat', hlimit]

/-- Whole numbers are added as they are. -/
theorem zipWith_wholes (counts others : List Nat) :
    List.zipWith (· + ·) (counts.map Int.ofNat) (others.map Int.ofNat) =
      (bucketSums counts others).map Int.ofNat := by
  rw [bucketSums, List.zipWith_map, List.map_zipWith]
  rfl

section Packed

variable {kind other : CountKind} {array found : CountArray}

theorem Packed.lt_of_signed (h : Packed counts .signed array) :
    ∀ count ∈ counts, count < signedWordLimit := by
  cases h with
  | signed h => exact h

theorem Packed.le_of_unsigned (h : Packed counts .unsigned array) :
    ∀ count ∈ counts, signedWordLimit ≤ count := by
  cases h with
  | unsigned h => exact fun count hcount => (h count hcount).1

/-- Counts of any kind but the last fit unsigned words. -/
theorem Packed.lt_of_ne (h : Packed counts kind array) (hkind : kind ≠ .huge) :
    ∀ count ∈ counts, count < unsignedWordLimit := by
  have hlimits : signedWordLimit < unsignedWordLimit := by decide
  cases h with
  | signed h => exact fun count hcount => Nat.lt_trans (h count hcount) hlimits
  | unsigned h => exact fun count hcount => (h count hcount).2
  | mixed h => exact h
  | huge => exact absurd rfl hkind

/-- The cells of packed counts are as reals what the counts are. -/
theorem Packed.reals_eq (h : Packed counts kind array) : array.reals = counts.map realOf := by
  cases h with
  | signed h =>
    rw [reals, List.map_map]
    refine List.map_congr_left fun count hcount => ?_
    rw [Function.comp_apply, Int64.toInt_ofNat_of_lt (h count hcount), realOf]
  | unsigned h =>
    rw [reals, List.map_map]
    refine List.map_congr_left fun count hcount => ?_
    rw [Function.comp_apply, UInt64.toNat_ofNat_of_lt' (h count hcount).2]
  | mixed h => rfl
  | huge => rfl

/-- The cells of packed counts are the counts, unless they are reals. -/
theorem Packed.wholes_eq (h : Packed counts kind array) (hkind : kind ≠ .mixed) :
    array.wholes = counts.map Int.ofNat := by
  cases h with
  | signed h =>
    rw [wholes, List.map_map]
    exact List.map_congr_left fun count hcount => Int64.toInt_ofNat_of_lt (h count hcount)
  | unsigned h =>
    rw [wholes, List.map_map]
    refine List.map_congr_left fun count hcount => ?_
    exact congrArg Int.ofNat (UInt64.toNat_ofNat_of_lt' (h count hcount).2)
  | mixed h => exact absurd rfl hkind
  | huge => rfl

end Packed

/-- Counts are made reals one by one, unless one of them is beyond all reals. -/
theorem mapOk_boundedReal (counts : List Nat) :
    mapOk boundedReal counts =
      if AllReal counts then .ok (counts.map realOf) else .error (.overflow .real) := by
  induction counts with
  | nil => rfl
  | cons count rest ih =>
    have hsplit : AllReal (count :: rest) ↔
        ((Number.int count).toBinary64?).isSome = true ∧ AllReal rest := List.forall_mem_cons
    rw [mapOk, boundedReal, ih]
    cases hreal : (Number.int count).toBinary64? with
    | none =>
      have hno : ¬AllReal (count :: rest) := fun h => by
        have hsome := (hsplit.1 h).1
        rw [hreal] at hsome
        contradiction
      rw [if_neg hno]
      rfl
    | some x =>
      have hx : x = realOf count := by
        simp only [Number.toBinary64?, Option.ite_none_right_eq_some, Option.some.injEq] at hreal
        exact hreal.2.symm
      by_cases hrest : AllReal rest
      · rw [if_pos hrest, if_pos (hsplit.2 ⟨by rw [hreal]; rfl, hrest⟩), hx]
        rfl
      · rw [if_neg hrest, if_neg fun h => hrest (hsplit.1 h).2]
        rfl

/-- Counts that fit unsigned words are not beyond all reals. -/
theorem allReal_of_lt (h : ∀ count ∈ counts, count < unsignedWordLimit) : AllReal counts := by
  intro count hcount
  rw [Number.toBinary64?_of_lt (h count hcount)]
  rfl

theorem allReal_append_iff : AllReal (counts ++ others) ↔ AllReal counts ∧ AllReal others :=
  List.forall_mem_append

/-- Counts of any size are added to reals if none of them is beyond all reals. -/
theorem add_exact_real (h : ∀ count ∈ others, count < unsignedWordLimit) :
    (exact counts).add (real (others.map realOf)) = sumsBy counts others .reals := by
  have hreals : (exact counts).add (real (others.map realOf)) =
      (mapOk boundedReal counts).bind fun cells => .ok (addReals cells (others.map realOf)) := rfl
  have hall : AllReal (counts ++ others) ↔ AllReal counts :=
    allReal_append_iff.trans ⟨And.left, fun hcounts => ⟨hcounts, allReal_of_lt h⟩⟩
  rw [hreals, mapOk_boundedReal, sumsBy]
  simp only [hall]
  split <;> rfl

theorem add_real_exact (h : ∀ count ∈ counts, count < unsignedWordLimit) :
    (real (counts.map realOf)).add (exact others) = sumsBy counts others .reals := by
  have hreals : (real (counts.map realOf)).add (exact others) =
      (mapOk boundedReal others).bind fun cells => .ok (addReals (counts.map realOf) cells) := rfl
  have hall : AllReal (counts ++ others) ↔ AllReal others :=
    allReal_append_iff.trans ⟨And.right, fun hothers => ⟨allReal_of_lt h, hothers⟩⟩
  rw [hreals, mapOk_boundedReal, sumsBy]
  simp only [hall]
  split <;> rfl

/-- Packed counts are added as their kinds say. -/
theorem add_ofCounts (counts others : List Nat) :
    (ofCounts counts).add (ofCounts others) = sumsBy counts others (additionOf counts others) := by
  have hcounts := packed counts
  have hothers := packed others
  rw [additionOf]
  generalize CountKind.of counts = kind, ofCounts counts = array at hcounts
  generalize CountKind.of others = other, ofCounts others = found at hothers
  have hreals : kind ≠ .huge → other ≠ .huge →
      .ok (addReals array.reals found.reals) = sumsBy counts others .reals := by
    intro hkind hother
    rw [hcounts.reals_eq, hothers.reals_eq]
    exact (if_pos (allReal_append_iff.2 ⟨allReal_of_lt (hcounts.lt_of_ne hkind),
      allReal_of_lt (hothers.lt_of_ne hother)⟩)).symm
  have hwholes : kind ≠ .mixed → other ≠ .mixed →
      .ok (List.zipWith (· + ·) array.wholes found.wholes) = sumsBy counts others .wholes := by
    intro hkind hother
    rw [hcounts.wholes_eq hkind, hothers.wholes_eq hother, zipWith_wholes]
    rfl
  cases hcounts with
  | signed _ =>
    cases hothers with
    | signed _ => exact add_signed counts others
    | huge => exact hwholes nofun nofun
    | _ => exact hreals nofun nofun
  | unsigned _ =>
    cases hothers with
    | unsigned _ => exact add_unsigned counts others
    | huge => exact hwholes nofun nofun
    | _ => exact hreals nofun nofun
  | mixed hfit =>
    cases hothers with
    | huge => exact add_real_exact hfit
    | _ => exact hreals nofun nofun
  | huge =>
    cases hothers with
    | mixed hfit => exact add_exact_real hfit
    | _ => exact hwholes nofun nofun

/-- The whole numbers that sums of counts hold as reals are not negative. -/
theorem addReals_nonneg (counts others : List Nat) :
    ∀ n ∈ addReals (counts.map realOf) (others.map realOf), 0 ≤ n := by
  intro n hn
  rw [addReals, List.zipWith_map, ← List.map_uncurry_zip_eq_zipWith] at hn
  obtain ⟨⟨count, other⟩, _, rfl⟩ := List.mem_map.1 hn
  have hsignless : ((realOf count).add (realOf other)).IsSignless :=
    (Binary64.isSignless_ofInt count).add (Binary64.isSignless_ofInt other)
  rw [Function.uncurry_apply_pair, wholeOf]
  cases hwhole : ((realOf count).add (realOf other)).integer? with
  | none => exact Int.le_refl 0
  | some n => exact hsignless.integer_nonneg hwhole

end CountArray

/-! ## Sums -/

section Sums

open CountArray

variable {counts others : List Nat}

/-- A sum is one of two counts. -/
theorem exists_of_mem_bucketSums {sum : Nat} (h : sum ∈ bucketSums counts others) :
    ∃ count ∈ counts, ∃ other ∈ others, sum = count + other := by
  rw [bucketSums, ← List.map_uncurry_zip_eq_zipWith] at h
  obtain ⟨⟨count, other⟩, hpair, rfl⟩ := List.mem_map.1 h
  exact ⟨count, (List.of_mem_zip hpair).1, other, (List.of_mem_zip hpair).2, rfl⟩

/-- Counts that are added as signed words have sums that fit unsigned ones. -/
theorem lt_of_signedWords (h : additionOf counts others = .signedWords) :
    ∀ sum ∈ bucketSums counts others, sum < unsignedWordLimit := by
  have hlimits : signedWordLimit + signedWordLimit = unsignedWordLimit := by decide
  obtain ⟨hkind, hother⟩ := CountKind.addition_eq_signedWords_iff.1 h
  intro sum hsum
  obtain ⟨count, hcount, more, hmore, rfl⟩ := exists_of_mem_bucketSums hsum
  have hfirst : count < signedWordLimit := (hkind ▸ packed counts).lt_of_signed count hcount
  have hsecond : more < signedWordLimit := (hother ▸ packed others).lt_of_signed more hmore
  omega

/-- Counts that are added as unsigned words have no sum that fits them. -/
theorem le_of_unsignedWords (h : additionOf counts others = .unsignedWords) :
    ∀ sum ∈ bucketSums counts others, unsignedWordLimit ≤ sum := by
  have hlimits : signedWordLimit + signedWordLimit = unsignedWordLimit := by decide
  obtain ⟨hkind, hother⟩ := CountKind.addition_eq_unsignedWords_iff.1 h
  intro sum hsum
  obtain ⟨count, hcount, more, hmore, rfl⟩ := exists_of_mem_bucketSums hsum
  have hfirst : signedWordLimit ≤ count := (hkind ▸ packed counts).le_of_unsigned count hcount
  have hsecond : signedWordLimit ≤ more := (hother ▸ packed others).le_of_unsigned more hmore
  omega

/-- A word is that of a natural number exactly if it fits a signed word. -/
theorem toInt_word_eq_iff {n : Nat} : (Int64.ofNat n).toInt = n ↔ n < signedWordLimit := by
  have hlt : n % unsignedWordLimit < unsignedWordLimit := Nat.mod_lt _ (by decide)
  have hle : n % unsignedWordLimit ≤ n := Nat.mod_le _ _
  constructor
  · intro h
    rw [toInt_word] at h
    split at h <;> omega
  · exact Int64.toInt_ofNat_of_lt

/-- Sums fit the way in which they are made: signed words take them all, reals are exact for each of
them, or they are whole numbers of any size. Unsigned words never take them, since each of the
counts alone needs one. -/
def SumsFit (counts others : List Nat) : Prop :=
  match additionOf counts others with
  | .signedWords => ∀ sum ∈ bucketSums counts others, sum < signedWordLimit
  | .unsignedWords => False
  | .reals => AllReal (counts ++ others) ∧ ∀ pair ∈ counts.zip others,
      wholeOf ((realOf pair.1).add (realOf pair.2)) = (pair.1 + pair.2 : Nat)
  | .wholes => True

/-- Why merging fails: a sum of signed words goes beyond them, or a count that is to be added as a
real is beyond all reals. -/
inductive MergeFault (counts others : List Nat) : Failure → Prop
  | wraps {sum : Nat} (h : additionOf counts others = .signedWords)
    (hsum : sum ∈ bucketSums counts others) (hwide : signedWordLimit ≤ sum) :
    MergeFault counts others (.value .negativeCounts)
  | unbounded (h : additionOf counts others = .reals) (hreal : ¬AllReal (counts ++ others)) :
    MergeFault counts others (.overflow .real)

/-- Two lists are combined alike in two ways exactly if each of their pairs is. -/
theorem zipWith_eq_zipWith_iff {α β γ : Type} {f g : α → β → γ} {items : List α} {more : List β} :
    List.zipWith f items more = List.zipWith g items more ↔
      ∀ pair ∈ items.zip more, f pair.1 pair.2 = g pair.1 pair.2 := by
  rw [← List.map_uncurry_zip_eq_zipWith, ← List.map_uncurry_zip_eq_zipWith, List.map_inj_left]
  rfl

/-- Reals add up to the sums if they are exact for each of them. -/
theorem addReals_eq_iff :
    addReals (counts.map realOf) (others.map realOf) = (bucketSums counts others).map Int.ofNat ↔
      ∀ pair ∈ counts.zip others,
        wholeOf ((realOf pair.1).add (realOf pair.2)) = (pair.1 + pair.2 : Nat) := by
  rw [addReals, List.zipWith_map, bucketSums, List.map_zipWith]
  exact zipWith_eq_zipWith_iff

/-- What two arrays add up to are the sums exactly if these fit. -/
theorem sumsBy_eq_ok_iff (hpos : 0 < (bucketSums counts others).length) :
    sumsBy counts others (additionOf counts others) =
      .ok ((bucketSums counts others).map Int.ofNat) ↔ SumsFit counts others := by
  rw [SumsFit]
  cases haddition : additionOf counts others with
  | signedWords =>
    simp only [sumsBy, Except.ok.injEq, List.map_inj_left]
    exact forall_congr' fun sum => imp_congr_right fun _ => toInt_word_eq_iff
  | unsignedWords =>
    simp only [sumsBy, Except.ok.injEq, List.map_inj_left, iff_false]
    intro h
    obtain ⟨sum, hsum⟩ := List.exists_mem_of_length_pos hpos
    have hmod : sum % unsignedWordLimit = sum := Int.ofNat.inj (h sum hsum)
    have hlt : sum % unsignedWordLimit < unsignedWordLimit := Nat.mod_lt _ (by decide)
    exact absurd (le_of_unsignedWords haddition sum hsum) (by omega)
  | reals =>
    by_cases hreal : AllReal (counts ++ others)
    · rw [sumsBy, if_pos hreal, Except.ok.injEq, addReals_eq_iff]
      exact ⟨fun h => ⟨hreal, h⟩, And.right⟩
    · rw [sumsBy, if_neg hreal]
      exact ⟨nofun, fun h => absurd h.1 hreal⟩
  | wholes => simp only [sumsBy]

/-- What two arrays add up to is missing exactly if a count that is to be added as a real is beyond
all reals. -/
theorem sumsBy_eq_error_iff {failure : Failure} :
    sumsBy counts others (additionOf counts others) = .error failure ↔
      additionOf counts others = .reals ∧ ¬AllReal (counts ++ others) ∧
        failure = .overflow .real := by
  cases haddition : additionOf counts others with
  | reals =>
    rw [sumsBy]
    split
    · rename_i hreal
      exact ⟨nofun, fun h => absurd hreal h.2.1⟩
    · rename_i hreal
      rw [Except.error.injEq]
      exact ⟨fun h => ⟨rfl, hreal, h.symm⟩, fun h => h.2.2.symm⟩
  | _ => exact ⟨nofun, nofun⟩

/-- What two arrays add up to is not negative, unless they are added as signed words. -/
theorem nonneg_of_sumsBy {addition : Addition} {sums : List Int}
    (h : sumsBy counts others addition = .ok sums) (haddition : addition ≠ .signedWords) :
    ∀ n ∈ sums, 0 ≤ n := by
  intro n hn
  cases addition with
  | signedWords => exact absurd rfl haddition
  | unsignedWords =>
    rw [sumsBy, Except.ok.injEq] at h
    rw [← h] at hn
    obtain ⟨sum, _, rfl⟩ := List.mem_map.1 hn
    exact Int.natCast_nonneg _
  | reals =>
    rw [sumsBy] at h
    split at h
    · rw [← Except.ok.inj h] at hn
      exact addReals_nonneg counts others n hn
    · contradiction
  | wholes =>
    rw [sumsBy, Except.ok.injEq] at h
    rw [← h] at hn
    obtain ⟨sum, _, rfl⟩ := List.mem_map.1 hn
    exact Int.natCast_nonneg _

/-- Some of what two arrays add up to is negative exactly if a sum of signed words goes beyond
them. -/
theorem exists_neg_iff {sums : List Int}
    (h : sumsBy counts others (additionOf counts others) = .ok sums) :
    (∃ n ∈ sums, n < 0) ↔ additionOf counts others = .signedWords ∧
      ∃ sum ∈ bucketSums counts others, signedWordLimit ≤ sum := by
  by_cases hwords : additionOf counts others = .signedWords
  · rw [hwords, sumsBy, Except.ok.injEq] at h
    have hword : ∀ sum ∈ bucketSums counts others,
        ((Int64.ofNat sum).toInt < 0 ↔ signedWordLimit ≤ sum) := by
      intro sum hsum
      rw [toInt_word, Nat.mod_eq_of_lt (lt_of_signedWords hwords sum hsum)]
      have hlt := lt_of_signedWords hwords sum hsum
      split <;> omega
    rw [← h]
    constructor
    · rintro ⟨_, hn, hneg⟩
      obtain ⟨sum, hsum, rfl⟩ := List.mem_map.1 hn
      exact ⟨hwords, sum, hsum, (hword sum hsum).1 hneg⟩
    · rintro ⟨_, sum, hsum, hwide⟩
      exact ⟨_, List.mem_map_of_mem hsum, (hword sum hsum).2 hwide⟩
  · constructor
    · rintro ⟨n, hn, hneg⟩
      exact absurd (nonneg_of_sumsBy h hwords n hn) (Int.not_le.2 hneg)
    · exact fun hbeyond => absurd hbeyond.1 hwords

/-- What two arrays add up to has one number for each bucket. -/
theorem length_of_sumsBy {addition : Addition} {sums : List Int}
    (h : sumsBy counts others addition = .ok sums) :
    sums.length = (bucketSums counts others).length := by
  cases addition with
  | reals =>
    rw [sumsBy] at h
    split at h
    · rw [← Except.ok.inj h, addReals, bucketSums]
      simp
    · contradiction
  | _ =>
    rw [sumsBy, Except.ok.injEq] at h
    rw [← h, List.length_map]

end Sums

namespace Histogram

/-- Whole numbers, one for each bucket, are refused exactly if some are negative. -/
theorem ofInts_eq_error_iff {measure : Measure} {bounds : Bounds} {counts : List Int}
    {mode : PersistenceMode} {failure : Failure} (hsize : counts.length = bounds.size) :
    ofInts measure bounds counts mode = .error failure ↔
      (∃ n ∈ counts, n < 0) ∧ failure = .value .negativeCounts := by
  rw [ofInts, dif_pos hsize]
  split
  · rename_i hneg
    have hexists : ∃ n ∈ counts, n < 0 := by simpa using hneg
    rw [Except.error.injEq]
    exact ⟨fun h => ⟨hexists, h.symm⟩, fun h => h.2.symm⟩
  · rename_i hnonneg
    constructor
    · intro h
      cases h
    · intro h
      refine absurd ?_ hnonneg
      simpa using h.1

/-- Merging succeeds with the sum of the counts in each bucket, and altogether. -/
def MergesExactly (a b : Histogram) : Prop :=
  ∃ merged, a.merge b = .ok merged ∧ merged.counts = bucketSums a.counts b.counts ∧
    merged.total = a.total + b.total

section Merge

variable {a b : Histogram}

/-- Histograms over the same bounds have one sum for each bucket. -/
theorem length_bucketSums (hsame : b.bounds.same a.bounds = true) :
    (bucketSums a.counts b.counts).length = a.bounds.size := by
  rw [bucketSums, List.length_zipWith, length_counts_of_same hsame, Nat.min_self, a.size_eq]

/-- Merging makes a histogram of what the counts add up to. -/
theorem merge_eq_bind (hsame : b.bounds.same a.bounds = true) :
    a.merge b = (CountArray.sumsBy a.counts b.counts (additionOf a.counts b.counts)).bind
      fun sums => ofInts a.measure a.bounds sums a.mode := by
  rw [merge, if_pos hsame, CountArray.add_ofCounts]
  rfl

/-- Merging succeeds with what the counts add up to, if that is natural. -/
theorem merge_of_sums (hsame : b.bounds.same a.bounds = true) {counts : List Nat}
    (hsums : CountArray.sumsBy a.counts b.counts (additionOf a.counts b.counts) =
      .ok (counts.map Int.ofNat)) (hsize : counts.length = a.bounds.size) :
    a.merge b = .ok ⟨a.measure, a.bounds, counts, a.mode, hsize⟩ := by
  rw [merge_eq_bind hsame, hsums, ok_bind, ofInts_natCast a.measure hsize]

/-- Merging is exact if what the counts add up to are their sums. -/
theorem mergesExactly_iff (hsame : b.bounds.same a.bounds = true) :
    MergesExactly a b ↔ CountArray.sumsBy a.counts b.counts (additionOf a.counts b.counts) =
      .ok ((bucketSums a.counts b.counts).map Int.ofNat) := by
  rw [MergesExactly, merge_eq_bind hsame]
  constructor
  · rintro ⟨merged, hmerged, hcounts, _⟩
    obtain ⟨sums, hsums, hbuilt⟩ := bind_eq_ok_iff.1 hmerged
    rw [hsums, (ofInts_eq_ok hbuilt).2.2.2, hcounts]
  · intro hsums
    rw [← merge_eq_bind hsame, merge_of_sums hsame hsums (length_bucketSums hsame)]
    exact ⟨_, rfl, rfl, foldr_zipWith_add (length_counts_of_same hsame).symm⟩

/-- Merging over the same bounds is exact if and only if the sums fit the way in which they are
made, and it fails exactly for the faults of that. -/
theorem mergesExactly_iff_sumsFit (hsame : b.bounds.same a.bounds = true) :
    (MergesExactly a b ↔ SumsFit a.counts b.counts) ∧
      ∀ failure, a.merge b = .error failure ↔ MergeFault a.counts b.counts failure := by
  have hpos : 0 < (bucketSums a.counts b.counts).length :=
    length_bucketSums hsame ▸ a.bounds.size_pos
  refine ⟨(mergesExactly_iff hsame).trans (sumsBy_eq_ok_iff hpos), fun failure => ?_⟩
  rw [merge_eq_bind hsame, bind_eq_error_iff, sumsBy_eq_error_iff]
  constructor
  · rintro (⟨haddition, hreal, rfl⟩ | ⟨sums, hsums, hbuilt⟩)
    · exact .unbounded haddition hreal
    · have hsize := (length_of_sumsBy hsums).trans (length_bucketSums hsame)
      obtain ⟨hneg, rfl⟩ := (ofInts_eq_error_iff hsize).1 hbuilt
      obtain ⟨haddition, sum, hsum, hwide⟩ := (exists_neg_iff hsums).1 hneg
      exact .wraps haddition hsum hwide
  · intro h
    cases h with
    | unbounded haddition hreal => exact .inl ⟨haddition, hreal, rfl⟩
    | wraps haddition hsum hwide =>
      have hsums : CountArray.sumsBy a.counts b.counts (additionOf a.counts b.counts) =
          .ok ((bucketSums a.counts b.counts).map fun sum => (Int64.ofNat sum).toInt) := by
        rw [haddition, CountArray.sumsBy]
      have hsize := (length_of_sumsBy hsums).trans (length_bucketSums hsame)
      exact .inr ⟨_, hsums, (ofInts_eq_error_iff hsize).2
        ⟨(exists_neg_iff hsums).2 ⟨haddition, _, hsum, hwide⟩, rfl⟩⟩

end Merge

/-- Histograms of three buckets. -/
def sampleOf (first second third : Nat) : Histogram :=
  ⟨.fileComplexityDistribution, Builder.sampleBounds, [first, second, third], .memory, rfl⟩

/-- Samples have the same bounds. -/
theorem same_sampleOf (first second third other more last : Nat) :
    (sampleOf other more last).bounds.same (sampleOf first second third).bounds = true :=
  Bounds.same_self _

/-- Counts of which one needs an unsigned word and others do not are merged exactly if reals take
all sums. -/
theorem mergesExactly_sampleOf :
    (sampleOf signedWordLimit 5 0).bounds.same (sampleOf signedWordLimit 2 1).bounds = true ∧
      MergesExactly (sampleOf signedWordLimit 2 1) (sampleOf signedWordLimit 5 0) := by
  have hfit : SumsFit (sampleOf signedWordLimit 2 1).counts
      (sampleOf signedWordLimit 5 0).counts := by
    have haddition : additionOf (sampleOf signedWordLimit 2 1).counts
        (sampleOf signedWordLimit 5 0).counts = .reals := by decide +kernel
    rw [SumsFit, haddition]
    exact ⟨by decide +kernel, by decide +kernel⟩
  have hsame := same_sampleOf signedWordLimit 2 1 signedWordLimit 5 0
  exact ⟨hsame, (mergesExactly_iff_sumsFit hsame).1.2 hfit⟩

/-- A histogram of counts that all need an unsigned word. -/
def wideSample : Histogram := sampleOf signedWordLimit signedWordLimit signedWordLimit

/-- One more than a signed word takes is refused. Counts that all need an unsigned word are merged
to nothing, and one is lost of a sum that is rounded. -/
theorem merge_sampleOf_not_exact :
    (sampleOf (signedWordLimit - 1) 0 0).merge (sampleOf 1 0 0) = .error (.value .negativeCounts) ∧
      ¬MergesExactly (sampleOf (signedWordLimit - 1) 0 0) (sampleOf 1 0 0) ∧
      wideSample.merge wideSample = .ok (sampleOf 0 0 0) ∧
      (sampleOf signedWordLimit 0 0).merge (sampleOf 1 0 0) =
        .ok (sampleOf signedWordLimit 0 0) := by
  have hrefused : (sampleOf (signedWordLimit - 1) 0 0).merge (sampleOf 1 0 0) =
      .error (.value .negativeCounts) := by
    have haddition : additionOf (sampleOf (signedWordLimit - 1) 0 0).counts
        (sampleOf 1 0 0).counts = .signedWords := by decide +kernel
    rw [merge_eq_bind (same_sampleOf _ _ _ _ _ _), haddition]
    exact (ofInts_eq_error_iff rfl).2 ⟨by decide +kernel, rfl⟩
  have hwrapped : CountArray.sumsBy wideSample.counts wideSample.counts
      (additionOf wideSample.counts wideSample.counts) = .ok ([0, 0, 0].map Int.ofNat) := by
    have haddition : additionOf wideSample.counts wideSample.counts = .unsignedWords := by
      decide +kernel
    rw [haddition, CountArray.sumsBy]
    exact congrArg Except.ok (by decide +kernel)
  have hrounded : CountArray.sumsBy (sampleOf signedWordLimit 0 0).counts (sampleOf 1 0 0).counts
      (additionOf (sampleOf signedWordLimit 0 0).counts (sampleOf 1 0 0).counts) =
      .ok ([signedWordLimit, 0, 0].map Int.ofNat) := by
    have haddition : additionOf (sampleOf signedWordLimit 0 0).counts (sampleOf 1 0 0).counts =
        .reals := by decide +kernel
    rw [haddition, CountArray.sumsBy, if_pos (by decide +kernel)]
    exact congrArg Except.ok (by decide +kernel)
  refine ⟨hrefused, ?_, merge_of_sums (same_sampleOf _ _ _ _ _ _) hwrapped rfl,
    merge_of_sums (same_sampleOf _ _ _ _ _ _) hrounded rfl⟩
  rintro ⟨merged, hmerged, _⟩
  rw [hrefused] at hmerged
  contradiction

end Histogram

end SourceGauge
