import SourceGauge.Proofs.Histogram.Lookup
import SourceGauge.Proofs.Histogram.SameBounds
import SourceGauge.Proofs.Number.Rounding

/-!
# Accepted bounds and the search over them

Numbers are accepted as bounds if there is one at least, none is infinite or NaN, and each is less
than all that come after it. Only neighbours are compared, which is enough since the order is exact
over all kinds of numbers. Numbers that are not accepted are refused for the first of these that
they lack, and bounds are accepted again as they are.

The search halves the places between the rounded bounds, so it depends on their order. Rounding
keeps the order of accepted bounds, though neighbours may be rounded to the same real: the search
finds the end of those that are at most the value, and the place before it is one of the buckets,
the first one if there is none before it.

Truth values, and whole numbers too large for any real, are not looked at.
-/

namespace SourceGauge

/-! ## Halving -/

/-- Halve the places from `low` up to `high`: go on above the middle place if it is passed, else
below it. -/
def halve (passed : Nat → Bool) (low high : Nat) : Nat :=
  if low < high then
    if passed (low + (high - low) / 2) then halve passed (low + (high - low) / 2 + 1) high
    else halve passed low (low + (high - low) / 2)
  else low
termination_by high - low

/-- Where the places that are passed are the first ones, halving finds how many they are. -/
theorem halve_eq {passed : Nat → Bool} {found low high : Nat}
    (h : ∀ place, passed place = true ↔ place < found) (hlow : low ≤ found) (hhigh : found ≤ high) :
    halve passed low high = found := by
  fun_induction halve passed low high with
  | case1 low high hopen hpassed ih =>
    have hfound := (h _).1 hpassed
    exact ih (by omega) hhigh
  | case2 low high hopen hpassed ih =>
    have hfound := mt (h _).2 hpassed
    exact ih hlow (by omega)
  | case3 low high hclosed => omega

/-- Among members of which the first ones have a property, halving finds how many have it. -/
theorem halve_eq_countP {α : Type} {holds : α → Bool} {items : List α}
    (h : items.Pairwise fun a b => holds b = true → holds a = true) :
    halve (fun place => items[place]?.any holds) 0 items.length = items.countP holds :=
  halve_eq (any_getElem?_iff_lt_countP h) (Nat.zero_le _) List.countP_le_length

/-! ## Numbers in the range of reals -/

namespace Number

/-- A number that is no truth value, and no whole number too large for any real. -/
def IsInRange : Number → Prop
  | .flag _ => False
  | .int n => (Binary64.ofInt n).isFinite = true
  | .real _ => True

instance (n : Number) : Decidable n.IsInRange :=
  match n with
  | .flag _ => .isFalse id
  | .int n => inferInstanceAs (Decidable ((Binary64.ofInt n).isFinite = true))
  | .real _ => .isTrue trivial

/-- A whole number that has a real has at most 310 digits. -/
theorem decimalSize_le_of_isFinite {n : Int} (h : (Binary64.ofInt n).isFinite = true) :
    Binary64.decimalSize n.natAbs ≤ 310 := by
  have hbelow : nearestUnits (n.natAbs * unitsPerOne) 1 < overflowUnits := by
    rw [Binary64.ofInt, Binary64.ofRatio, Binary64.ofUnits] at h
    split at h
    · rename_i hunits
      exact hunits.1
    · contradiction
  have hlimit : 2 * overflowUnits ≤ 10 ^ 310 * unitsPerOne := by
    unfold overflowUnits unitsPerOne
    decide +kernel
  have hunits : n.natAbs * unitsPerOne < 2 * overflowUnits := by
    rcases Nat.eq_zero_or_pos (n.natAbs * unitsPerOne) with hzero | hpos
    · have := overflowUnits_pos
      omega
    · have hpower := two_pow_le_nearestUnits (Nat.ne_of_gt hpos)
      have hnext : n.natAbs * unitsPerOne < 2 ^ ((n.natAbs * unitsPerOne).log2 + 1) :=
        Nat.lt_log2_self
      rw [Nat.pow_succ] at hnext
      omega
  have hsize : 0 < 310 := by decide
  generalize 310 = size at hlimit hsize ⊢
  exact Binary64.decimalSize_le hsize
    (Nat.lt_of_mul_lt_mul_right (Nat.lt_of_lt_of_le hunits hlimit))

/-- A number in range can be written. -/
theorem IsInRange.isWritable {n : Number} (h : n.IsInRange) : n.isWritable = true := by
  cases n with
  | flag value => exact h.elim
  | int n =>
    rw [Number.isWritable, decide_eq_true_eq]
    exact Nat.le_trans (decimalSize_le_of_isFinite h) (by decide)
  | real x => rfl

/-- A number in range is a bound unless it is a real that is infinite or NaN. -/
theorem IsInRange.isBound_iff {n : Number} (h : n.IsInRange) :
    isBound n = true ↔ ∀ x, n = .real x → x.isFinite = true := by
  cases n with
  | flag value => exact h.elim
  | int n =>
    have hfinite : (Number.int n).isFinite? = some true := by
      rw [isFinite?, toBinary64?]
      simp only [IsInRange] at h
      simp [h]
    simp [isBound, hfinite]
  | real x => simp [isBound, isFinite?, toBinary64?]

/-- Of two bounds the lesser one has no greater real. -/
theorem real_le_real_of_lt {a b : Number} {x y : Binary64} (ha : isBound a = true)
    (hb : isBound b = true) (hx : a.toBinary64? = some x) (hy : b.toBinary64? = some y)
    (h : a.lt b = true) : (real x).le (real y) = true := by
  obtain ⟨_, units, hx', hxfinite, hunits⟩ := Bounds.exists_units ha
  obtain ⟨_, more, hy', hyfinite, hmore⟩ := Bounds.exists_units hb
  obtain rfl := Option.some.inj (hx.symm.trans hx')
  obtain rfl := Option.some.inj (hy.symm.trans hy')
  rw [lt_eq_decide hunits hmore, decide_eq_true_eq] at h
  rw [le_eq_decide (extent?_real_of_toBinary64? hx hxfinite hunits)
    (extent?_real_of_toBinary64? hy hyfinite hmore), decide_eq_true_eq]
  exact roundedUnits_mono (Int.le_of_lt h)

end Number

namespace Bounds

/-! ## What is accepted -/

/-- Numbers that can be bounds: there is one at least, no real is infinite or NaN, and each number
is less than all that come after it. -/
structure AreBounds (numbers : List Number) : Prop where
  nonempty : numbers ≠ []
  finite : ∀ x, .real x ∈ numbers → x.isFinite = true
  increasing : numbers.Pairwise fun a b => a.lt b = true

/-- The first fault of numbers that cannot be bounds. -/
inductive FirstFault (numbers : List Number) : BoundsFault → Prop
  | empty (h : numbers = []) : FirstFault numbers .empty
  | notFinite {before after : List Number} {x : Binary64}
    (h : numbers = before ++ .real x :: after)
    (hbefore : ∀ y, .real y ∈ before → y.isFinite = true) (hx : x.isFinite = false) :
    FirstFault numbers (.notFinite (.number (.real x)))
  | notIncreasing {before after : List Number} {lower upper : Number}
    (h : numbers = before ++ lower :: upper :: after)
    (hfinite : ∀ y, .real y ∈ numbers → y.isFinite = true)
    (hbefore : (before ++ [lower]).Pairwise fun a b => a.lt b = true)
    (hfall : upper.le lower = true) : FirstFault numbers (.notIncreasing lower upper)

/-- A real is a bound exactly if it is finite. -/
theorem isBound_real_iff {x : Binary64} : isBound (.real x) = true ↔ x.isFinite = true := by
  simp [isBound, Number.isFinite?, Number.toBinary64?]

/-- The first neighbours that do not increase come after numbers that do. -/
theorem exists_of_firstFall? {numbers : List Number} {lower upper : Number}
    (h : firstFall? numbers = some (lower, upper)) : ∃ before after,
      numbers = before ++ lower :: upper :: after ∧ firstFall? (before ++ [lower]) = none ∧
        upper.le lower = true := by
  induction numbers with
  | nil => contradiction
  | cons a rest ih =>
    cases rest with
    | nil => contradiction
    | cons b others =>
      rw [firstFall?] at h
      split at h
      · rename_i hfall
        obtain ⟨rfl, rfl⟩ := Prod.mk.inj (Option.some.inj h)
        exact ⟨[], others, rfl, rfl, hfall⟩
      · rename_i hrise
        obtain ⟨before, after, hrest, hnone, hfall⟩ := ih h
        refine ⟨a :: before, after, by rw [hrest, List.cons_append], ?_, hfall⟩
        -- The number after `a` is `b`, whether it is the lower one or comes before it.
        cases before with
        | nil =>
          obtain ⟨rfl, _⟩ := List.cons.inj hrest
          rw [List.cons_append, List.nil_append, firstFall?, if_neg hrise]
          rfl
        | cons first more =>
          obtain ⟨rfl, _⟩ := List.cons.inj hrest
          rw [List.cons_append, List.cons_append, firstFall?, if_neg hrise]
          exact hnone

/-- A list of numbers that can be written can be shown. -/
theorem ofBounds_numbers {numbers : List Number} (h : ∀ n ∈ numbers, n.isWritable = true)
    (fault : BoundsFault) :
    Failure.ofBounds (numbers.map .number) fault = .bounds (numbers.map .number) fault := by
  have hshown : Failure.unshowable? (.list (numbers.map .number)) = none := by
    apply Failure.unshowable?_list
    intro item hitem
    obtain ⟨n, hn, rfl⟩ := List.mem_map.1 hitem
    exact ⟨rfl, h n hn⟩
  rw [Failure.ofBounds, hshown, Option.getD_none]

section Acceptance

variable {numbers : List Number} (hrange : ∀ n ∈ numbers, n.IsInRange)

include hrange

/-- A number in range that is refused is a real that is infinite or NaN. -/
theorem eq_notFinite_of_toBound {n : Number} {failure : Failure} (hn : n ∈ numbers)
    (h : toBound (numbers.map .number) (.number n) = .error failure) :
    ∃ x, n = .real x ∧ x.isFinite = false ∧
      failure = .bounds (numbers.map .number) (.notFinite (.number n)) := by
  have hshown := ofBounds_numbers (fun m hm => (hrange m hm).isWritable) (.notFinite (.number n))
  have hbound : isBound n ≠ true := fun hbound => by
    rw [toBound_number _ hbound] at h
    contradiction
  rw [Ne, (hrange n hn).isBound_iff] at hbound
  cases n with
  | flag value => exact (hrange _ hn).elim
  | int value => exact absurd (fun x hx => by cases hx) hbound
  | real x =>
    cases hx : x.isFinite with
    | true => exact absurd (fun y hy => Number.real.inj hy ▸ hx) hbound
    | false =>
      rw [toBound] at h
      · have hfinite : (Number.real x).isFinite? = some false := by
          rw [Number.isFinite?, Number.toBinary64?, Option.map_some, hx]
        rw [hfinite] at h
        exact ⟨x, rfl, hx, (Except.error.inj h).symm.trans hshown⟩
      · intro value hvalue
        cases hvalue

/-- Numbers that can be bounds are accepted as they are. -/
theorem exists_ofNumbers_of_areBounds (h : AreBounds numbers) :
    ∃ bounds, ofValue (.ofNumbers numbers) = .ok bounds ∧ bounds.values = numbers := by
  have hbound : ∀ n ∈ numbers, isBound n = true := by
    intro n hn
    rw [(hrange n hn).isBound_iff]
    rintro x rfl
    exact h.finite x hn
  have haccepted := ofList_values ⟨numbers, h.nonempty, hbound, h.increasing⟩
  exact ⟨_, haccepted, rfl⟩

omit hrange in
/-- What is accepted are the numbers that were given, and they can be bounds. -/
theorem areBounds_of_ofNumbers {bounds : Bounds} (h : ofValue (.ofNumbers numbers) = .ok bounds) :
    bounds.values = numbers ∧ AreBounds numbers := by
  have hvalues : numbers.map Value.number = bounds.values.map Value.number :=
    eq_map_of_mapOk (mapOk_of_ofList h) fun _ _ => eq_number_of_toBound
  obtain rfl := List.map_injective_iff.2 (fun _ _ => Value.number.inj) hvalues
  exact ⟨rfl, bounds.nonempty, fun x hx => isBound_real_iff.1 (bounds.bound _ hx),
    bounds.increasing⟩

/-- The numbers before the one that is refused are bounds, so that its fault is the first one. -/
theorem exists_firstFault_of_toBound {failure : Failure}
    (h : mapOk (toBound (numbers.map .number)) (numbers.map .number) = .error failure) :
    ∃ fault, FirstFault numbers fault ∧ failure = .bounds (numbers.map .number) fault := by
  rw [mapOk_map] at h
  obtain ⟨before, n, after, hnumbers, hbefore, hn⟩ := mapOk_eq_error_iff.1 h
  have hmem : n ∈ numbers := hnumbers ▸ List.mem_append_right before List.mem_cons_self
  obtain ⟨x, rfl, hx, rfl⟩ := eq_notFinite_of_toBound hrange hmem hn
  refine ⟨_, .notFinite hnumbers (fun y hy => ?_) hx, rfl⟩
  obtain ⟨result, hresult⟩ := hbefore _ hy
  obtain rfl := Value.number.inj (eq_number_of_toBound hresult)
  exact isBound_real_iff.1 (isBound_of_toBound hresult)

omit hrange in
/-- The first neighbours that do not increase are the first fault of numbers that are bounds. -/
theorem firstFault_of_firstFall? {lower upper : Number} (hbound : ∀ n ∈ numbers, isBound n = true)
    (h : firstFall? numbers = some (lower, upper)) :
    FirstFault numbers (.notIncreasing lower upper) := by
  obtain ⟨before, after, hnumbers, hnone, hfall⟩ := exists_of_firstFall? h
  have hsub : (before ++ [lower]).Sublist numbers := by
    rw [hnumbers, List.append_sublist_append_left, List.singleton_sublist]
    exact List.mem_cons_self
  have hbefore := pairwise_of_firstFall? (fun n hn => hbound n (hsub.subset hn)) hnone
  exact .notIncreasing hnumbers (fun y hy => isBound_real_iff.1 (hbound _ hy)) hbefore hfall

/-- Numbers that cannot be bounds are refused for their first fault. -/
theorem exists_firstFault (h : ¬AreBounds numbers) : ∃ fault, FirstFault numbers fault ∧
    ofValue (.ofNumbers numbers) = .error (.bounds (numbers.map .number) fault) := by
  have hlist : ofValue (.ofNumbers numbers) = ofList (numbers.map .number) := rfl
  rw [hlist]
  cases hrefused : ofList (numbers.map .number) with
  | ok bounds => exact absurd (areBounds_of_ofNumbers hrefused).2 h
  | error failure =>
    unfold ofList at hrefused
    split at hrefused
    · rename_i hnil
      obtain rfl := List.map_eq_nil_iff.1 hnil
      exact ⟨.empty, .empty rfl, congrArg _ (Except.error.inj hrefused).symm⟩
    · dsimp only at hrefused
      split at hrefused
      · rename_i cause hcause
        obtain rfl := Except.error.inj hrefused
        obtain ⟨fault, hfault, rfl⟩ := exists_firstFault_of_toBound hrange hcause
        exact ⟨fault, hfault, rfl⟩
      · rename_i values hvalues
        have hsame := eq_map_of_mapOk hvalues fun _ _ => eq_number_of_toBound
        obtain rfl := List.map_injective_iff.2 (fun _ _ => Value.number.inj) hsame
        split at hrefused
        · rename_i lower upper hfall
          have hbound : ∀ n ∈ numbers, isBound n = true := by
            intro n hn
            obtain ⟨_, _, hok⟩ := exists_of_mem_mapOk hvalues hn
            exact isBound_of_toBound hok
          rw [ofBounds_numbers fun n hn => (hrange n hn).isWritable] at hrefused
          exact ⟨_, firstFault_of_firstFall? hbound hfall,
            congrArg _ (Except.error.inj hrefused).symm⟩
        · rename_i hsome
          rw [dif_neg (by rintro rfl; contradiction)] at hrefused
          contradiction

end Acceptance

/-! ## What is searched -/

/-- Each bound has its real among the limits, in its place. -/
theorem map_some_limits (bounds : Bounds) :
    bounds.limits.map some = bounds.values.map Number.toBinary64? := by
  have hall : ∀ numbers : List Number, (∀ n ∈ numbers, isBound n = true) →
      (numbers.filterMap Number.toBinary64?).map some = numbers.map Number.toBinary64? := by
    intro numbers
    induction numbers with
    | nil => exact fun _ => rfl
    | cons n rest ih =>
      intro hbound
      obtain ⟨x, _, hx, _⟩ := exists_units (hbound n List.mem_cons_self)
      rw [List.filterMap_cons_some hx, List.map_cons, List.map_cons, hx,
        ih fun m hm => hbound m (List.mem_cons_of_mem n hm)]
  exact hall bounds.values bounds.bound

/-- The limits of bounds are finite. -/
theorem isFinite_of_mem_limits {bounds : Bounds} {limit : Binary64} (h : limit ∈ bounds.limits) :
    limit.isFinite = true := by
  obtain ⟨bound, hbound, hlimit⟩ := List.mem_filterMap.1 h
  obtain ⟨x, _, hx, hfinite, _⟩ := exists_units (bounds.bound bound hbound)
  exact Option.some.inj (hlimit.symm.trans hx) ▸ hfinite

/-- The limits of bounds do not decrease. -/
theorem pairwise_limits (bounds : Bounds) :
    bounds.limits.Pairwise fun x y => (Number.real x).le (.real y) = true := by
  rw [limits, List.pairwise_filterMap]
  apply bounds.increasing.imp_of_mem
  intro a b ha hb hab x hx y hy
  exact Number.real_le_real_of_lt (bounds.bound a ha) (bounds.bound b hb) hx hy hab

end Bounds

namespace Builder

/-- Whether the search passes a limit to the right: the limit is at most the value. -/
def passes (value : Number) (limit : Binary64) : Bool := (Number.real limit).le (searched value)

/-- The place right of all limits that are at most a value, found by halving. -/
def searchRight (bounds : Bounds) (value : Number) : Nat :=
  halve (fun place => bounds.limits[place]?.any (passes value)) 0 bounds.limits.length

theorem pairwise_passes (bounds : Bounds) (value : Number) :
    bounds.limits.Pairwise fun x y => passes value y = true → passes value x = true :=
  bounds.pairwise_limits.imp fun hle hpassed => Number.le_trans hle hpassed

/-- Halving finds how many limits are at most a value. -/
theorem searchRight_eq_rank (bounds : Bounds) (value : Number) :
    searchRight bounds value = rank bounds value :=
  halve_eq_countP (pairwise_passes bounds value)

/-- The bucket of a value is the place before the one that is found, and the first one if nothing is
before it. -/
theorem bucketOf_eq_searchRight (bounds : Bounds) (value : Number) :
    ((bucketOf bounds value).1 : Int) = max ((searchRight bounds value : Int) - 1) 0 ∧
      ((bucketOf bounds value).2 = true ↔ (searchRight bounds value : Int) - 1 < 0) := by
  rw [searchRight_eq_rank, bucketOf]
  cases rank bounds value with
  | zero => decide
  | succ n =>
    simp only [Bool.false_eq_true, false_iff]
    omega

end Builder

namespace Bounds

open Builder

/-- Numbers in the range of reals are accepted as they are if they can be bounds, each being less
than all that come after it, and are otherwise refused for their first fault. Bounds that were
accepted are accepted again as they are. Their reals, one for each bound, are finite and do not
decrease, so that for any value the search to the right finds the place that parts the limits that
are at most the value from the others. The place before it, and the first one if there is none, is
the bucket that the value is counted in, and is one of the buckets. -/
theorem searchable_of_accepted {numbers : List Number} (hrange : ∀ n ∈ numbers, n.IsInRange) :
    (AreBounds numbers →
      ∃ bounds, ofValue (.ofNumbers numbers) = .ok bounds ∧ bounds.values = numbers) ∧
    (¬AreBounds numbers → ∃ fault, FirstFault numbers fault ∧
      ofValue (.ofNumbers numbers) = .error (.bounds (numbers.map .number) fault)) ∧
    ∀ bounds, ofValue (.ofNumbers numbers) = .ok bounds →
      ofValue (.ofNumbers bounds.values) = .ok bounds ∧
      bounds.limits.map some = numbers.map Number.toBinary64? ∧
      (∀ limit ∈ bounds.limits, limit.isFinite = true) ∧
      (bounds.limits.Pairwise fun x y => (Number.real x).le (.real y) = true) ∧
      ∀ value,
        (∀ place, bounds.limits[place]?.any (passes value) = true ↔
          place < searchRight bounds value) ∧
        ((bucketOf bounds value).1 : Int) = max ((searchRight bounds value : Int) - 1) 0 ∧
        ((bucketOf bounds value).2 = true ↔ (searchRight bounds value : Int) - 1 < 0) ∧
        max ((searchRight bounds value : Int) - 1) 0 < bounds.size := by
  refine ⟨exists_ofNumbers_of_areBounds hrange, exists_firstFault hrange, ?_⟩
  intro bounds haccepted
  obtain ⟨rfl, _⟩ := areBounds_of_ofNumbers haccepted
  refine ⟨haccepted, bounds.map_some_limits, fun _ => isFinite_of_mem_limits,
    bounds.pairwise_limits, fun value => ?_⟩
  obtain ⟨hbucket, hclamped⟩ := bucketOf_eq_searchRight bounds value
  refine ⟨fun place => ?_, hbucket, hclamped, ?_⟩
  · rw [searchRight_eq_rank]
    exact any_getElem?_iff_lt_countP (pairwise_passes bounds value) place
  · rw [← hbucket]
    exact Int.ofNat_lt.2 (bucketOf_lt_size bounds value)

/-- Numbers of which the first two are rounded to the same real. -/
def collapsedNumbers : List Number :=
  [.int 9007199254740992, .int 9007199254740993, .real (.ofInt 9007199254740994)]

/-- Numbers that are rounded together are accepted, and what lies at their real is counted in the
bucket of the later one. -/
theorem searchable_collapsedNumbers : (∀ n ∈ collapsedNumbers, n.IsInRange) ∧
    ∃ bounds, ofValue (.ofNumbers collapsedNumbers) = .ok bounds ∧
      bounds.values = collapsedNumbers ∧
      (bounds.limits.Pairwise fun x y => (Number.real x).le (.real y) = true) ∧
      bounds.limits[0]? = bounds.limits[1]? ∧
      ((bucketOf bounds (.int 9007199254740992)).1 : Int) =
        max ((searchRight bounds (.int 9007199254740992) : Int) - 1) 0 ∧
      (bucketOf bounds (.int 9007199254740992)).1 = 1 := by
  have hrange : ∀ n ∈ collapsedNumbers, n.IsInRange := by decide +kernel
  have hbounds : AreBounds collapsedNumbers := by
    refine ⟨List.cons_ne_nil _ _, ?_, by decide +kernel⟩
    intro x hx
    simp only [collapsedNumbers, List.mem_cons, reduceCtorEq, false_or, Number.real.injEq,
      List.not_mem_nil, or_false] at hx
    rw [hx]
    decide +kernel
  obtain ⟨haccepts, _, hsearch⟩ := searchable_of_accepted hrange
  obtain ⟨bounds, haccepted, hvalues⟩ := haccepts hbounds
  obtain ⟨_, _, _, hlimits, hvalue⟩ := hsearch bounds haccepted
  refine ⟨hrange, bounds, haccepted, hvalues, hlimits, ?_, (hvalue _).2.1, ?_⟩
  · rw [limits, hvalues]
    decide +kernel
  · rw [bucketOf, rank, limits, hvalues]
    decide +kernel

end Bounds

end SourceGauge
