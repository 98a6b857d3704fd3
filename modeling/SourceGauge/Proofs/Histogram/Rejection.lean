import Mathlib.Algebra.Ring.Nat
import SourceGauge.Proofs.Histogram.Feeding

/-!
# Refused additions

A builder refuses every addition once it has finished. Before, it refuses a count that is not a
whole number or is negative, a value that is not a finite number, and a count that fits no signed
word. What is refused for one of the other reasons is refused before anything was changed. The
width of a count is only seen when it is added to its bucket, and by then a value below all bounds
was already counted as clamped: the values stray. So a refused addition leaves the builder as it was
if and only if no values stray, and never changes more than the number of clamped values.

Over a whole run, the refused additions may be left out, but for the number of clamped values, which
is raised by all that strays.
-/

namespace SourceGauge

namespace Builder

/-- Why a value is not a finite number. -/
inductive RefusesValue (measure : Measure) (value : Value) : Failure → Prop
  | notReal (h : value.number? = none) :
      RefusesValue measure value (.misfit (.notReal value.typeName))
  | notFinite {number : Number} (h : value.number? = some number)
      (hinfinite : number.isFinite? = some false) :
      RefusesValue measure value (.value (.notFinite number measure))
  | tooLarge {number : Number} (h : value.number? = some number)
      (hlarge : number.isFinite? = none) : RefusesValue measure value (.overflow .real)

/-- Why a builder refuses an addition. -/
inductive Refuses (builder : Builder) (value count : Value) : Failure → Prop
  | finished (h : builder.built ≠ none) :
      Refuses builder value count (.finalized builder.measure)
  | badCount (hopen : builder.built = none) (h : times? count = none) :
      Refuses builder value count (.ofCount count (.badCount count))
  | badValue {times : Nat} {failure : Failure} (hopen : builder.built = none)
      (hcount : times? count = some times) (h : RefusesValue builder.measure value failure) :
      Refuses builder value count failure
  | tooMany {number : Number} {times : Nat} (hopen : builder.built = none)
      (hasked : asked? value count = some (number, times)) (h : signedWordLimit ≤ times) :
      Refuses builder value count (.overflow .word)

/-- An open builder is asked to count a value below all bounds more often than a signed word
holds. -/
def Strays (builder : Builder) (value count : Value) : Prop :=
  builder.built = none ∧ ∃ number times, asked? value count = some (number, times) ∧
    signedWordLimit ≤ times ∧ (bucketOf builder.bounds number).2 = true

/-- How many values an addition counts as clamped though they are in no bucket. -/
def stray (builder : Builder) (value count : Value) : Nat :=
  match builder.built, asked? value count with
  | none, some (number, times) =>
    if signedWordLimit ≤ times ∧ (bucketOf builder.bounds number).2 = true then times else 0
  | _, _ => 0

/-- A builder with so many more clamped values. -/
def raised (builder : Builder) (more : Nat) : Builder :=
  { builder with clamped := builder.clamped + more }

theorem raised_raised (builder : Builder) (more others : Nat) :
    (builder.raised more).raised others = builder.raised (more + others) := by
  rw [raised, raised, raised, Nat.add_assoc]

theorem raised_eq_self_iff {builder : Builder} {more : Nat} :
    builder.raised more = builder ↔ more = 0 := by
  constructor
  · intro h
    have hclamped : builder.clamped + more = builder.clamped := congrArg Builder.clamped h
    omega
  · rintro rfl
    rfl

variable {builder : Builder} {value count : Value} {failure : Failure}

/-! ## One addition -/

/-- What does not pass as a count. -/
theorem countOf_eq_error_iff : countOf count = .error failure ↔
    times? count = none ∧ failure = .ofCount count (.badCount count) := by
  rw [countOf, times?]
  cases Histogram.wholeNumber? count with
  | none => simp [eq_comm]
  | some n => by_cases hneg : n < 0 <;> simp [hneg, eq_comm]

/-- What does not pass as a value. -/
theorem finiteOf_eq_error_iff {measure : Measure} :
    finiteOf measure value = .error failure ↔ RefusesValue measure value failure := by
  constructor
  · intro h
    rw [finiteOf] at h
    split at h
    · rename_i hnumber
      cases h
      exact .notReal hnumber
    · rename_i number hnumber
      split at h
      · contradiction
      · rename_i hinfinite
        cases h
        exact .notFinite hnumber hinfinite
      · rename_i hlarge
        cases h
        exact .tooLarge hnumber hlarge
  · rintro (hnumber | ⟨hnumber, hinfinite⟩ | ⟨hnumber, hlarge⟩)
    · rw [finiteOf, hnumber]
    · simp only [finiteOf, hnumber, hinfinite]
    · simp only [finiteOf, hnumber, hlarge]

/-- What an open builder refuses before it changes anything. -/
theorem check_eq_error_iff (hopen : builder.built = none) :
    builder.check value count = .error failure ↔
      times? count = none ∧ failure = .ofCount count (.badCount count) ∨
        ∃ times, times? count = some times ∧ RefusesValue builder.measure value failure := by
  have hcheck : builder.check value count = (countOf count).bind fun times =>
      (finiteOf builder.measure value).bind fun number => .ok (number, times) := by
    rw [check, hopen]
    rfl
  rw [hcheck, bind_eq_error_iff, countOf_eq_error_iff]
  simp only [bind_eq_error_iff, reduceCtorEq, and_false, exists_false, or_false,
    countOf_eq_ok_iff, finiteOf_eq_error_iff]

/-- A count that fits no signed word cannot be recorded. -/
theorem record_eq_error_iff {number : Number} {times : Nat} :
    (builder.record number times).2.outcome = .error failure ↔
      signedWordLimit ≤ times ∧ failure = .overflow .word := by
  by_cases hfit : times < signedWordLimit
  · rw [(builder.record_of_lt number hfit).2]
    exact ⟨nofun, fun h => absurd hfit (Nat.not_lt.2 h.1)⟩
  · rw [record]
    cases hbucket : bucketOf builder.bounds number with
    | mk bucket clamped =>
      cases clamped <;>
        simp [increase, hfit, Nat.not_lt.1 hfit, clampReport, Run.outcome_andThen, eq_comm]

/-- An addition fails if and only if it is refused. -/
theorem add_eq_error_iff : (builder.add value count).2.outcome = .error failure ↔
    builder.Refuses value count failure := by
  cases hbuilt : builder.built with
  | some histogram =>
    rw [add_of_built hbuilt, Run.outcome_fail]
    constructor
    · intro h
      cases h
      exact .finished (by simp [hbuilt])
    · rintro (_ | ⟨hopen, _⟩ | ⟨hopen, _, _⟩ | ⟨hopen, _, _⟩)
      · rfl
      all_goals exact absurd (hbuilt.symm.trans hopen) (Option.some_ne_none histogram)
  | none =>
    rw [Builder.add]
    constructor
    · intro h
      cases hcheck : builder.check value count with
      | error cause =>
        rw [hcheck] at h
        cases h
        rcases (check_eq_error_iff hbuilt).1 hcheck with ⟨hcount, rfl⟩ | ⟨times, hcount, hvalue⟩
        · exact .badCount hbuilt hcount
        · exact .badValue hbuilt hcount hvalue
      | ok add =>
        rw [hcheck] at h
        obtain ⟨hwide, rfl⟩ := record_eq_error_iff.1 h
        exact .tooMany hbuilt ((check_eq_ok_iff hbuilt).1 hcheck) hwide
    · rintro (hfinished | ⟨_, hcount⟩ | ⟨_, hcount, hvalue⟩ | ⟨_, hasked, hwide⟩)
      · exact absurd hbuilt hfinished
      · rw [(check_eq_error_iff hbuilt).2 (.inl ⟨hcount, rfl⟩)]
        rfl
      · rw [(check_eq_error_iff hbuilt).2 (.inr ⟨_, hcount, hvalue⟩)]
        rfl
      · rw [(check_eq_ok_iff hbuilt).2 hasked]
        exact record_eq_error_iff.2 ⟨hwide, rfl⟩

/-- Values stray exactly if there are some of them. -/
theorem stray_ne_zero_iff : builder.stray value count ≠ 0 ↔ builder.Strays value count := by
  rw [stray, Strays]
  cases builder.built with
  | some histogram => simp
  | none =>
    cases asked? value count with
    | none => simp
    | some add =>
      obtain ⟨number, times⟩ := add
      have hpos : 0 < signedWordLimit := by decide
      by_cases hstrays : signedWordLimit ≤ times ∧ (bucketOf builder.bounds number).2 = true
      · simp only [if_pos hstrays]
        exact ⟨fun _ => ⟨trivial, number, times, rfl, hstrays⟩, fun _ => by omega⟩
      · simp only [if_neg hstrays]
        refine ⟨fun h => absurd rfl h, ?_⟩
        rintro ⟨_, _, _, hasked, h⟩
        cases hasked
        exact absurd h hstrays

/-- A count that fits no signed word raises at most the number of clamped values. -/
theorem taken_of_le {add : Number × Nat} (h : signedWordLimit ≤ add.2) : builder.taken add =
    builder.raised (if (bucketOf builder.bounds add.1).2 then add.2 else 0) := by
  rw [taken, if_neg (Nat.not_lt.2 h)]
  rfl

/-- An addition that is refused raises the number of clamped values by what strays. -/
theorem add_of_refuses (h : builder.Refuses value count failure) :
    (builder.add value count).1 = builder.raised (builder.stray value count) := by
  cases hbuilt : builder.built with
  | some histogram =>
    rw [add_of_built hbuilt, stray, hbuilt]
    rfl
  | none =>
    cases hasked : asked? value count with
    | none =>
      obtain ⟨cause, hadd⟩ := add_of_not_asked hbuilt hasked
      rw [hadd, stray, hbuilt, hasked]
      rfl
    | some add =>
      obtain ⟨hnext, hrun⟩ := add_of_asked hbuilt hasked
      have hwide : signedWordLimit ≤ add.2 := by
        rw [← Nat.not_lt, ← hrun, add_eq_error_iff.2 h]
        exact nofun
      simp only [hnext, taken_of_le hwide, stray, hbuilt, hasked, hwide, true_and]

/-- For every reason to refuse an addition it fails with the failure that belongs to it, and for no
other. The builder is then as it was if and only if no values stray; in any case its counts and
whether it has finished are what they were, and the number of clamped values is raised by the values
that stray. -/
theorem refused_unchanged_iff (builder : Builder) (value count : Value) :
    (∀ failure, (builder.add value count).2.outcome = .error failure ↔
      builder.Refuses value count failure) ∧
    ∀ failure, builder.Refuses value count failure →
      (builder.add value count).1 = builder.raised (builder.stray value count) ∧
      ((builder.add value count).1 = builder ↔ ¬builder.Strays value count) := by
  refine ⟨fun failure => add_eq_error_iff, fun failure h => ⟨add_of_refuses h, ?_⟩⟩
  rw [add_of_refuses h, raised_eq_self_iff, ← stray_ne_zero_iff, Decidable.not_not]

/-- The value `-3` is to be counted `2 ^ 63` times and is not, but as often it is counted as
clamped. -/
theorem clamped_of_refused_sample :
    let builder := new .functionComplexityDistribution sampleBounds
    let next := builder.add (.number (.int (-3))) (.number (.int 9223372036854775808))
    next.2.outcome = .error (.overflow .word) ∧ next.1 ≠ builder ∧ builder.clamped = 0 ∧
      next.1.clamped = 9223372036854775808 ∧ next.1.counts = [0, 0, 0] := by
  have hasked : asked? (.number (.int (-3))) (.number (.int 9223372036854775808)) =
      some (.int (-3), 9223372036854775808) := by decide +kernel
  have hrefused : (new .functionComplexityDistribution sampleBounds).Refuses (.number (.int (-3)))
      (.number (.int 9223372036854775808)) (.overflow .word) := .tooMany rfl hasked (by decide)
  have hstray : (new .functionComplexityDistribution sampleBounds).stray (.number (.int (-3)))
      (.number (.int 9223372036854775808)) = 9223372036854775808 := by decide +kernel
  have hnext := add_of_refuses hrefused
  rw [hstray] at hnext
  refine ⟨add_eq_error_iff.2 hrefused, ?_, rfl, ?_, ?_⟩
  · rw [hnext, Ne, raised_eq_self_iff]
    decide
  · rw [hnext]
    rfl
  · rw [hnext]
    rfl

/-! ## A run of additions -/

/-- A builder after an addition, whatever comes of it. -/
def addNext (builder : Builder) (add : Value × Value) : Builder := (builder.add add.1 add.2).1

/-- Whether an addition is accepted. -/
def accepts (builder : Builder) (add : Value × Value) : Bool :=
  (builder.add add.1 add.2).2.outcome.isOk

/-- An addition is accepted or refused. -/
theorem accepts_eq_false_iff {add : Value × Value} : builder.accepts add = false ↔
    ∃ failure, builder.Refuses add.1 add.2 failure := by
  simp only [accepts, ← add_eq_error_iff]
  cases (builder.add add.1 add.2).2.outcome with
  | ok _ => exact ⟨nofun, nofun⟩
  | error failure => exact ⟨fun _ => ⟨failure, rfl⟩, fun _ => rfl⟩

/-- What is accepted is what an open builder is asked for with a count that fits a signed word. -/
theorem accepts_iff {add : Value × Value} : builder.accepts add = true ↔
    builder.built = none ∧
      ∃ asked, asked? add.1 add.2 = some asked ∧ asked.2 < signedWordLimit := by
  cases hbuilt : builder.built with
  | some histogram =>
    rw [accepts, add_of_built hbuilt]
    exact ⟨nofun, nofun⟩
  | none =>
    cases hasked : asked? add.1 add.2 with
    | none =>
      obtain ⟨failure, hadd⟩ := add_of_not_asked hbuilt hasked
      rw [accepts, hadd]
      exact ⟨nofun, nofun⟩
    | some asked =>
      have hrun := (add_of_asked hbuilt hasked).2
      constructor
      · intro h
        cases houtcome : (builder.add add.1 add.2).2.outcome with
        | ok _ => exact ⟨rfl, asked, rfl, hrun.1 houtcome⟩
        | error failure =>
          rw [accepts, houtcome] at h
          contradiction
      · rintro ⟨_, _, ⟨⟩, hfit⟩
        rw [accepts, hrun.2 hfit]
        rfl

/-- What is accepted is counted, and nothing of it strays. -/
theorem addNext_of_accepts {add : Value × Value} (h : builder.accepts add = true) :
    ∃ asked, builder.addNext add = builder.counted asked ∧ builder.stray add.1 add.2 = 0 := by
  obtain ⟨hopen, asked, hasked, hfit⟩ := accepts_iff.1 h
  refine ⟨asked, ?_, ?_⟩
  · rw [addNext, (add_of_asked hopen hasked).1, taken, if_pos hfit]
  · simp only [stray, hopen, hasked, Nat.not_le.2 hfit, false_and, if_false]

/-- What is refused raises the number of clamped values by what strays. -/
theorem addNext_of_not_accepts {add : Value × Value} (h : builder.accepts add = false) :
    builder.addNext add = builder.raised (builder.stray add.1 add.2) := by
  obtain ⟨failure, hrefuses⟩ := accepts_eq_false_iff.1 h
  exact add_of_refuses hrefuses

/-- Whether additions are accepted, and what of them strays, does not depend on what was counted. -/
structure SameFrame (builder other : Builder) : Prop where
  bounds_eq : other.bounds = builder.bounds
  built_eq : other.built = builder.built

namespace SameFrame

variable {other : Builder}

theorem accepts_eq (h : SameFrame builder other) : other.accepts = builder.accepts := by
  funext add
  rw [Bool.eq_iff_iff, accepts_iff, accepts_iff, h.built_eq]

theorem stray_eq (h : SameFrame builder other) : other.stray = builder.stray := by
  funext value count
  rw [stray, stray, h.built_eq, h.bounds_eq]

end SameFrame

/-- An addition leaves the bounds and whether the builder has finished. -/
theorem sameFrame_addNext (builder : Builder) (add : Value × Value) :
    SameFrame builder (builder.addNext add) := by
  cases haccepts : builder.accepts add with
  | true =>
    obtain ⟨asked, hnext, _⟩ := addNext_of_accepts haccepts
    exact hnext ▸ ⟨rfl, rfl⟩
  | false => exact addNext_of_not_accepts haccepts ▸ ⟨rfl, rfl⟩

theorem counted_raised (more : Nat) (add : Number × Nat) :
    (builder.raised more).counted add = (builder.counted add).raised more := by
  simp only [raised, counted, Nat.add_right_comm]
  rfl

/-- Additions count the same, however many values were clamped before. -/
theorem addNext_raised (builder : Builder) (more : Nat) (add : Value × Value) :
    (builder.raised more).addNext add = (builder.addNext add).raised more := by
  have hframe : SameFrame builder (builder.raised more) := ⟨rfl, rfl⟩
  cases haccepts : builder.accepts add with
  | true =>
    obtain ⟨hopen, asked, hasked, hfit⟩ := accepts_iff.1 haccepts
    rw [addNext, addNext, (add_of_asked hopen hasked).1,
      (add_of_asked (hframe.built_eq.trans hopen) hasked).1, taken, taken, if_pos hfit,
      if_pos hfit]
    exact counted_raised more asked
  | false =>
    rw [addNext_of_not_accepts haccepts,
      addNext_of_not_accepts ((congrFun hframe.accepts_eq add).trans haccepts), hframe.stray_eq,
      raised_raised, raised_raised, Nat.add_comm]

theorem foldl_addNext_raised (builder : Builder) (more : Nat) (adds : List (Value × Value)) :
    adds.foldl addNext (builder.raised more) = (adds.foldl addNext builder).raised more := by
  induction adds generalizing builder with
  | nil => rfl
  | cons add rest ih => rw [List.foldl_cons, List.foldl_cons, addNext_raised, ih]

/-- Any run of additions comes to what those of them that are accepted come to, with the number of
clamped values raised by all that strays. -/
theorem foldl_addNext_eq_raised (builder : Builder) (adds : List (Value × Value)) :
    adds.foldl addNext builder = ((adds.filter builder.accepts).foldl addNext builder).raised
      (adds.map fun add => builder.stray add.1 add.2).sum := by
  induction adds generalizing builder with
  | nil => rfl
  | cons add rest ih =>
    have hframe := builder.sameFrame_addNext add
    rw [List.foldl_cons, ih, hframe.accepts_eq, hframe.stray_eq, List.map_cons, List.sum_cons]
    cases haccepts : builder.accepts add with
    | true =>
      obtain ⟨_, _, hnone⟩ := addNext_of_accepts haccepts
      rw [List.filter_cons_of_pos haccepts, List.foldl_cons, hnone, Nat.zero_add]
    | false =>
      rw [List.filter_cons_of_neg (by simp [haccepts]), addNext_of_not_accepts haccepts,
        foldl_addNext_raised, raised_raised]

end Builder

end SourceGauge
