import SourceGauge.Proofs.Histogram.Tally

/-!
# What an addition does

A value and a count pass the checks of an open builder as a finite number and a whole number that
is not negative; anything else is refused and leaves the builder as it was. What passes does one
thing to the builder: it raises the count of one bucket, and the number of clamped values if the
value lies below all bounds. If the count is too large for a signed word only the latter happens,
and the addition is refused after all.

A list is counted once each up to the first value that does not pass.
-/

namespace SourceGauge

namespace Builder

/-- A builder after a value was counted. -/
def counted (builder : Builder) (add : Number × Nat) : Builder :=
  { builder with
    clamped := builder.clamped + if (bucketOf builder.bounds add.1).2 then add.2 else 0
    counts := builder.counts.modify (bucketOf builder.bounds add.1).1 (· + Int64.ofNat add.2) }

@[simp] theorem counted_measure (builder : Builder) (add : Number × Nat) :
    (builder.counted add).measure = builder.measure := rfl

@[simp] theorem counted_bounds (builder : Builder) (add : Number × Nat) :
    (builder.counted add).bounds = builder.bounds := rfl

@[simp] theorem counted_built (builder : Builder) (add : Number × Nat) :
    (builder.counted add).built = builder.built := rfl

/-- The finite number that a value is, if it is one. -/
def finite? (value : Value) : Option Number :=
  match value.number? with
  | some number => if number.isFinite? = some true then some number else none
  | none => none

/-- The whole number that a count is, if it is one that is not negative. -/
def times? (count : Value) : Option Nat :=
  match Histogram.wholeNumber? count with
  | some times => if times < 0 then none else some times.toNat
  | none => none

/-- What a value and a count ask of a builder if they pass the checks: to count a finite number so
many times. -/
def asked? (value count : Value) : Option (Number × Nat) :=
  (finite? value).bind fun number => (times? count).map fun times => (number, times)

/-- What is asked by values that are counted once each, up to the first that does not pass. -/
def askedList : List Value → List (Number × Nat)
  | [] => []
  | value :: rest =>
    match asked? value once with
    | some add => add :: askedList rest
    | none => []

/-- A builder after it was asked to count something. -/
def taken (builder : Builder) (add : Number × Nat) : Builder :=
  if add.2 < signedWordLimit then builder.counted add
  else
    { builder with
      clamped := builder.clamped + if (bucketOf builder.bounds add.1).2 then add.2 else 0 }

@[simp] theorem taken_built (builder : Builder) (add : Number × Nat) :
    (builder.taken add).built = builder.built := by
  rw [taken]
  split <;> rfl

@[simp] theorem taken_measure (builder : Builder) (add : Number × Nat) :
    (builder.taken add).measure = builder.measure := by
  rw [taken]
  split <;> rfl

variable {builder : Builder}

/-- What passes as a count. -/
theorem countOf_eq_ok_iff {count : Value} {times : Nat} :
    countOf count = .ok times ↔ times? count = some times := by
  rw [countOf, times?]
  cases Histogram.wholeNumber? count with
  | none => simp
  | some n => by_cases hneg : n < 0 <;> simp [hneg]

/-- What passes as a value. -/
theorem finiteOf_eq_ok_iff {measure : Measure} {value : Value} {number : Number} :
    finiteOf measure value = .ok number ↔ finite? value = some number := by
  rw [finiteOf, finite?]
  cases value.number? with
  | none => simp
  | some n =>
    cases hfinite : n.isFinite? with
    | none => simp [hfinite]
    | some finite => cases finite <;> simp [hfinite]

/-- What passes the checks of an open builder. -/
theorem check_eq_ok_iff (hopen : builder.built = none) {value count : Value}
    {add : Number × Nat} : builder.check value count = .ok add ↔ asked? value count = some add := by
  obtain ⟨number, times⟩ := add
  have hcheck : builder.check value count = .ok (number, times) ↔
      countOf count = .ok times ∧ finiteOf builder.measure value = .ok number := by
    rw [check, hopen]
    cases countOf count with
    | error failure => simp [bind, Except.bind]
    | ok found =>
      cases finiteOf builder.measure value with
      | error failure => simp [bind, Except.bind]
      | ok other => simp [bind, Except.bind, pure, Except.pure, and_comm]
  rw [hcheck, countOf_eq_ok_iff, finiteOf_eq_ok_iff, asked?]
  simp only [Option.bind_eq_some_iff, Option.map_eq_some_iff, Prod.mk.injEq]
  constructor
  · rintro ⟨htimes, hnumber⟩
    exact ⟨number, hnumber, times, htimes, rfl, rfl⟩
  · rintro ⟨_, hnumber, _, htimes, rfl, rfl⟩
    exact ⟨htimes, hnumber⟩

/-- What is asked is to count a finite number. -/
theorem isFinite?_of_asked? {value count : Value} {add : Number × Nat}
    (h : asked? value count = some add) : add.1.isFinite? = some true := by
  obtain ⟨number, hnumber, hadd⟩ := Option.bind_eq_some_iff.1 h
  obtain ⟨times, _, rfl⟩ := Option.map_eq_some_iff.1 hadd
  rw [finite?] at hnumber
  cases hvalue : value.number? with
  | none => simp [hvalue] at hnumber
  | some other =>
    simp only [hvalue, Option.ite_none_right_eq_some, Option.some.injEq] at hnumber
    exact hnumber.2 ▸ hnumber.1

/-- A natural number is a count. -/
theorem asked?_natCast (value : Value) (times : Nat) :
    asked? value (.number (.int times)) = (finite? value).map (·, times) := by
  have htimes : times? (.number (.int times)) = some times := by
    simp [times?, Histogram.wholeNumber?]
  rw [asked?, htimes]
  cases finite? value <;> rfl

/-- A value that is counted once is asked to be counted once. -/
theorem asked?_once (value : Value) : asked? value once = (finite? value).map (·, 1) :=
  asked?_natCast value 1

/-- A count that fits a signed word is recorded. -/
theorem record_of_lt (builder : Builder) (value : Number) {count : Nat}
    (h : count < signedWordLimit) :
    (builder.record value count).1 = builder.counted (value, count) ∧
      (builder.record value count).2.outcome = .ok () := by
  rw [record]
  cases hbucket : bucketOf builder.bounds value with
  | mk bucket clamped =>
    cases clamped with
    | false => simp [increase, h, counted, hbucket]
    | true =>
      simp only [increase, if_pos h, counted, hbucket, if_true, clampReport, Run.outcome_andThen,
        Run.outcome_report, ok_bind, Run.outcome_done]
      exact ⟨trivial, trivial⟩

/-- Recording is all or nothing of a count, and raises the number of clamped values in any case. -/
theorem record_eq_taken (builder : Builder) (add : Number × Nat) :
    (builder.record add.1 add.2).1 = builder.taken add ∧
      ((builder.record add.1 add.2).2.outcome = .ok () ↔ add.2 < signedWordLimit) := by
  by_cases hfit : add.2 < signedWordLimit
  · obtain ⟨hnext, hrun⟩ := builder.record_of_lt add.1 hfit
    rw [taken, if_pos hfit]
    exact ⟨hnext, by simp only [hrun, hfit]⟩
  · rw [record, taken, if_neg hfit]
    cases hbucket : bucketOf builder.bounds add.1 with
    | mk bucket clamped =>
      cases clamped <;> simp [increase, hfit, clampReport, Run.outcome_andThen, Except.bind]

/-- An open builder takes what it is asked for. -/
theorem add_of_asked (hopen : builder.built = none) {value count : Value} {add : Number × Nat}
    (h : asked? value count = some add) :
    (builder.add value count).1 = builder.taken add ∧
      ((builder.add value count).2.outcome = .ok () ↔ add.2 < signedWordLimit) := by
  rw [Builder.add, (check_eq_ok_iff hopen).2 h]
  exact builder.record_eq_taken add

/-- What does not pass the checks leaves an open builder as it was. -/
theorem add_of_not_asked (hopen : builder.built = none) {value count : Value}
    (h : asked? value count = none) :
    ∃ failure, builder.add value count = (builder, .fail failure) := by
  rw [Builder.add]
  cases hcheck : builder.check value count with
  | error failure => exact ⟨failure, rfl⟩
  | ok add =>
    rw [check_eq_ok_iff hopen, h] at hcheck
    contradiction

/-- An open builder takes what a list asks for. -/
theorem addList_eq_taken (hopen : builder.built = none) (items : List Value) :
    (builder.addList items).1 = (askedList items).foldl taken builder ∧
      ((builder.addList items).2.outcome = .ok () ↔
        (askedList items).length = items.length) := by
  induction items generalizing builder with
  | nil => exact ⟨rfl, by simp [addList, askedList]⟩
  | cons value rest ih =>
    rw [addList, askedList]
    cases hasked : asked? value once with
    | none =>
      obtain ⟨failure, hadd⟩ := add_of_not_asked hopen hasked
      simp [hadd]
    | some add =>
      obtain ⟨hnext, hrun⟩ := add_of_asked hopen hasked
      have htimes : add.2 < signedWordLimit := by
        rw [asked?_once] at hasked
        obtain ⟨number, _, rfl⟩ := Option.map_eq_some_iff.1 hasked
        have hone : 1 < signedWordLimit := by decide
        exact hone
      obtain ⟨hlast, hothers⟩ := ih ((taken_built builder add).trans hopen)
      simp only [hrun.2 htimes, hnext, hlast, hothers, List.foldl_cons, List.length_cons,
        Nat.add_right_cancel_iff, and_self]

/-- Lists ask to count finite numbers. -/
theorem isFinite?_of_mem_askedList {items : List Value} {add : Number × Nat}
    (h : add ∈ askedList items) : add.1.isFinite? = some true := by
  induction items with
  | nil => simp [askedList] at h
  | cons value rest ih =>
    rw [askedList] at h
    cases hasked : asked? value once with
    | none => simp [hasked] at h
    | some first =>
      simp only [hasked, List.mem_cons] at h
      rcases h with rfl | hrest
      · exact isFinite?_of_asked? hasked
      · exact ih hrest

theorem foldl_taken_built (builder : Builder) (asked : List (Number × Nat)) :
    (asked.foldl taken builder).built = builder.built := by
  induction asked generalizing builder with
  | nil => rfl
  | cons add rest ih => rw [List.foldl_cons, ih, taken_built]

theorem foldl_taken_measure (builder : Builder) (asked : List (Number × Nat)) :
    (asked.foldl taken builder).measure = builder.measure := by
  induction asked generalizing builder with
  | nil => rfl
  | cons add rest ih => rw [List.foldl_cons, ih, taken_measure]

/-- Counting nothing changes nothing. -/
theorem counted_zero (builder : Builder) (number : Number) :
    builder.counted (number, 0) = builder := by
  have hnone : (fun word : Int64 => word + Int64.ofNat 0) = id := by
    funext word
    exact Int64.add_zero word
  simp only [counted, ite_self, Nat.add_zero, hnone, List.modify_id]

/-- Counting a value twice is counting it as often as both times together. -/
theorem counted_counted (builder : Builder) (number : Number) (times more : Nat) :
    (builder.counted (number, times)).counted (number, more) =
      builder.counted (number, times + more) := by
  have hwords : ((fun word => word + Int64.ofNat more) ∘ fun word => word + Int64.ofNat times) =
      fun word => word + Int64.ofNat (times + more) := by
    funext word
    rw [Function.comp_apply, Int64.ofNat_add, Int64.add_assoc]
  simp only [counted, List.modify_modify_eq, hwords]
  split <;> simp [Nat.add_assoc]

/-- Taking a value over and over is counting it as often. -/
theorem foldl_taken_replicate (builder : Builder) (number : Number) (times : Nat) :
    (List.replicate times (number, 1)).foldl taken builder = builder.counted (number, times) := by
  have hone : (1 : Nat) < signedWordLimit := by decide
  induction times with
  | zero => exact (builder.counted_zero number).symm
  | succ times ih =>
    rw [List.replicate_succ', List.foldl_append, ih, List.foldl_cons, List.foldl_nil, taken,
      if_pos hone, counted_counted]

end Builder

end SourceGauge
