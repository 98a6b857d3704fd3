import SourceGauge.Proofs.Histogram.Lookup
import SourceGauge.Proofs.Histogram.Rejection
import SourceGauge.Proofs.Histogram.Wrapping

/-!
# The search keeps the order of values

A value that fits a word is looked up where it is rounded to, and a whole number that fits none
where it lies. Rounding keeps the order, but the two ways of looking up meet at the ends of the
words, where one value is rounded and the next one is not. Both ends are held exactly, so nothing is
rounded across them: between a value that is rounded and one that is not there is always a place
that rounding leaves alone.

So of two values the lesser one is never found in a later bucket, whatever their kinds and sizes and
however the bounds are rounded. Values that differ may well be found in one bucket, and bounds that
differ may be rounded to the same real, so that no value is found in the bucket between them.
-/

namespace SourceGauge

namespace Builder

variable {bounds : Bounds} {value other : Number} {units more : Int}

/-! ## Places that rounding leaves alone -/

/-- A value that is not wide is a whole number that fits a word, or it is not moved by rounding. -/
theorem fits_or_unmoved (h : ¬IsWide value) (hunits : value.extent? = some (.at units)) :
    (∃ n : Int, value = .int n ∧ -(signedWordLimit : Int) ≤ n ∧ n < (unsignedWordLimit : Int)) ∨
      roundedUnits units = units := by
  cases value with
  | flag value =>
    have hexact : (Number.int (Number.ofFlag value)).IsExact := by cases value <;> decide +kernel
    obtain rfl := Extent.at.inj (Option.some.inj hunits)
    exact .inr (roundedUnits_of_isExact hexact)
  | int n =>
    exact .inl ⟨n, rfl, Int.not_lt.1 fun hlow => h ⟨n, rfl, .inl hlow⟩,
      Int.not_le.1 fun hhigh => h ⟨n, rfl, .inr hhigh⟩⟩
  | real x =>
    cases x with
    | nan => contradiction
    | infinite negative => cases negative <;> simp [Number.extent?] at hunits
    | finite negative size hsize =>
      obtain rfl := Extent.at.inj (Option.some.inj hunits)
      exact .inr (roundedUnits_signed hsize negative)

/-- Between two values of which just one is wide there is a place that rounding leaves alone. -/
theorem exists_unmoved_between (hunits : value.extent? = some (.at units))
    (hmore : other.extent? = some (.at more)) (hle : units ≤ more)
    (hone : IsWide value ↔ ¬IsWide other) :
    ∃ place, roundedUnits place = place ∧ units ≤ place ∧ place ≤ more := by
  by_cases hwide : IsWide value
  · rcases fits_or_unmoved (hone.1 hwide) hmore with ⟨n, rfl, hlow, hhigh⟩ | hunmoved
    · -- The wide value is the lesser one, so it lies below the words.
      obtain ⟨m, rfl, hm⟩ := hwide
      obtain rfl := Extent.at.inj (Option.some.inj hunits)
      obtain rfl := Extent.at.inj (Option.some.inj hmore)
      have hmn : m ≤ n := units_le_units_iff.1 hle
      refine ⟨-(signedWordLimit : Int) * unitsPerOne, roundedUnits_of_isExact (by decide +kernel),
        units_le_units_iff.2 ?_, units_le_units_iff.2 hlow⟩
      omega
    · exact ⟨more, hunmoved, hle, Int.le_refl more⟩
  · have hother : IsWide other := Classical.not_not.1 fun h => hwide (hone.2 h)
    rcases fits_or_unmoved hwide hunits with ⟨n, rfl, hlow, hhigh⟩ | hunmoved
    · obtain ⟨m, rfl, hm⟩ := hother
      obtain rfl := Extent.at.inj (Option.some.inj hunits)
      obtain rfl := Extent.at.inj (Option.some.inj hmore)
      have hnm : n ≤ m := units_le_units_iff.1 hle
      refine ⟨(unsignedWordLimit : Int) * unitsPerOne, roundedUnits_of_isExact (by decide +kernel),
        units_le_units_iff.2 (Int.le_of_lt hhigh), units_le_units_iff.2 ?_⟩
      omega
    · exact ⟨units, hunmoved, Int.le_refl units, hle⟩

/-! ## Values in order -/

/-- Of two finite values the lesser one is looked up at no greater place. -/
theorem searched_mono (hvalue : value.isFinite? = some true) (hother : other.isFinite? = some true)
    (hle : value.le other = true) : (searched value).le (searched other) = true := by
  obtain ⟨_, units, _, _, hunits⟩ := Number.exists_units hvalue
  obtain ⟨_, more, _, _, hmore⟩ := Number.exists_units hother
  rw [Number.le_eq_decide hunits hmore, decide_eq_true_eq] at hle
  by_cases hwide : IsWide value <;> by_cases hwider : IsWide other
  · rw [searched_of_isWide hwide, searched_of_isWide hwider, Number.le_eq_decide hunits hmore,
      decide_eq_true_eq]
    exact hle
  · obtain ⟨place, hplace, hlow, hhigh⟩ := exists_unmoved_between hunits hmore hle
      (iff_of_true hwide hwider)
    rw [searched_of_isWide hwide, Number.le_eq_decide hunits
      (extent?_searched_of_not_isWide hwider hother hmore), decide_eq_true_eq]
    calc units ≤ place := hlow
      _ = roundedUnits place := hplace.symm
      _ ≤ roundedUnits more := roundedUnits_mono hhigh
  · obtain ⟨place, hplace, hlow, hhigh⟩ := exists_unmoved_between hunits hmore hle
      (iff_of_false hwide (not_not_intro hwider))
    rw [searched_of_isWide hwider, Number.le_eq_decide
      (extent?_searched_of_not_isWide hwide hvalue hunits) hmore, decide_eq_true_eq]
    calc roundedUnits units ≤ roundedUnits place := roundedUnits_mono hlow
      _ = place := hplace
      _ ≤ more := hhigh
  · rw [Number.le_eq_decide (extent?_searched_of_not_isWide hwide hvalue hunits)
      (extent?_searched_of_not_isWide hwider hother hmore), decide_eq_true_eq]
    exact roundedUnits_mono hle

/-- Of two finite values the lesser one reaches no more bounds. -/
theorem rank_mono (bounds : Bounds) (hvalue : value.isFinite? = some true)
    (hother : other.isFinite? = some true) (hle : value.le other = true) :
    rank bounds value ≤ rank bounds other :=
  List.countP_mono_left fun _ _ hreached =>
    Number.le_trans hreached (searched_mono hvalue hother hle)

/-- Of two finite values the lesser one is found in no later bucket, and it is clamped if the other
one is. -/
theorem bucketOf_mono (bounds : Bounds) (hvalue : value.isFinite? = some true)
    (hother : other.isFinite? = some true) (hle : value.le other = true) :
    (bucketOf bounds value).1 ≤ (bucketOf bounds other).1 ∧
      ((bucketOf bounds other).2 = true → (bucketOf bounds value).2 = true) := by
  have hrank := rank_mono bounds hvalue hother hle
  rw [bucketOf, bucketOf]
  cases hlow : rank bounds value with
  | zero => exact ⟨Nat.zero_le _, fun _ => rfl⟩
  | succ n =>
    cases hhigh : rank bounds other with
    | zero => omega
    | succ m => exact ⟨by dsimp only; omega, fun h => absurd h Bool.false_ne_true⟩

/-- An addition that is accepted counts a finite number, as often as a natural number says, into the
bucket that is found for it. -/
theorem countedInto_of_add_ok {builder : Builder} {count : Value}
    (h : (builder.add (.number value) count).2.outcome = .ok ()) :
    value.isFinite? = some true ∧ ∃ times : Nat, count = .number (.int times) ∧
      (builder.add (.number value) count).1 =
        builder.countedInto (bucketOf builder.bounds value).1 (bucketOf builder.bounds value).2
          times := by
  have haccepts : builder.accepts (.number value, count) = true := by rw [accepts, h]; rfl
  obtain ⟨hopen, ⟨number, times⟩, hasked, hfit⟩ := accepts_iff.1 haccepts
  obtain ⟨_, hnumber, hadd⟩ := Option.bind_eq_some_iff.1 hasked
  obtain ⟨_, htimes, hpair⟩ := Option.map_eq_some_iff.1 hadd
  cases hpair
  obtain rfl := Value.number.inj (eq_number_of_finite? hnumber)
  obtain rfl := eq_number_of_times? htimes
  have hfinite : value.isFinite? = some true := isFinite?_of_asked? hasked
  exact ⟨hfinite, times, rfl, (add_eq_countedInto hopen hfinite hfit).1⟩

/-- An addition counts a value into the bucket that is found for it, clamped or not, as often as its
count says. -/
def CountsInto (builder : Builder) (value : Number) (count : Value) (bucket : Nat)
    (clamped : Bool) : Prop :=
  bucketOf builder.bounds value = (bucket, clamped) ∧
    ∃ times : Nat, count = .number (.int times) ∧
      (builder.add (.number value) count).1 = builder.countedInto bucket clamped times

/-- Builders over the same bounds, whatever they have counted before, keep the order of the values
that they accept. Each of two values is counted into the bucket that is found for it; the bucket of
the lesser value is no later one, and the lesser value is clamped if the greater one is. That is so
for whole numbers of any size and for reals, in any combination. -/
theorem add_keeps_order {builder later : Builder} (hbounds : later.bounds = builder.bounds)
    {count more : Value} (hle : value.le other = true)
    (hvalue : (builder.add (.number value) count).2.outcome = .ok ())
    (hother : (later.add (.number other) more).2.outcome = .ok ()) :
    ∃ bucket clamped next under, builder.CountsInto value count bucket clamped ∧
      later.CountsInto other more next under ∧ bucket ≤ next ∧ next < builder.bounds.size ∧
      (under = true → clamped = true) := by
  obtain ⟨hfinite, times, hcount, hadd⟩ := countedInto_of_add_ok hvalue
  obtain ⟨hfinite', often, hmore, hadd'⟩ := countedInto_of_add_ok hother
  obtain ⟨hbucket, hclamped⟩ := bucketOf_mono builder.bounds hfinite hfinite' hle
  have hsize := bucketOf_lt_size builder.bounds other
  rw [hbounds] at hadd'
  exact ⟨_, _, _, _, ⟨rfl, times, hcount, hadd⟩, ⟨by rw [hbounds], often, hmore, hadd'⟩, hbucket,
    hsize, hclamped⟩

/-- Bounds at both ends of the words. -/
def wordBounds : Bounds where
  values := [.int (-9223372036854775808), .int 0, .int 18446744073709551616]
  nonempty := List.cons_ne_nil _ _
  bound := by decide +kernel
  increasing := by decide +kernel

/-- The greatest whole number that fits a word is rounded up to the last bound, and so it is counted
into the bucket of the next whole number, which is not rounded. -/
theorem add_keeps_order_wordBounds :
    let builder := new .fileComplexityDistribution wordBounds
    (Number.int 18446744073709551615).le (.int 18446744073709551616) = true ∧
      (builder.add (.number (.int 18446744073709551615)) once).2.outcome = .ok () ∧
      (builder.add (.number (.int 18446744073709551616)) (.number (.int 3))).2.outcome = .ok () ∧
      ∃ bucket clamped next under,
        builder.CountsInto (.int 18446744073709551615) once bucket clamped ∧
        builder.CountsInto (.int 18446744073709551616) (.number (.int 3)) next under ∧
        bucket ≤ next ∧ bucket = 2 ∧ next < 3 ∧ (under = true → clamped = true) := by
  intro builder
  have hle : (Number.int 18446744073709551615).le (.int 18446744073709551616) = true := by
    decide +kernel
  have hvalue : (builder.add (.number (.int 18446744073709551615)) once).2.outcome = .ok () :=
    (add_eq_countedInto rfl (by decide +kernel) (by decide : 1 < signedWordLimit)).2
  have hother : (builder.add (.number (.int 18446744073709551616))
      (.number (.int 3))).2.outcome = .ok () :=
    (add_eq_countedInto rfl (by decide +kernel) (by decide : 3 < signedWordLimit)).2
  obtain ⟨bucket, clamped, next, under, hcounts, hlater, hbucket, hsize, hclamped⟩ :=
    add_keeps_order rfl hle hvalue hother
  have hfound : bucketOf wordBounds (.int 18446744073709551615) = (2, false) := by decide +kernel
  have htwo : bucket = 2 := congrArg Prod.fst (hcounts.1.symm.trans hfound)
  exact ⟨hle, hvalue, hother, bucket, clamped, next, under, hcounts, hlater, hbucket, htwo, hsize,
    hclamped⟩

end Builder

end SourceGauge
