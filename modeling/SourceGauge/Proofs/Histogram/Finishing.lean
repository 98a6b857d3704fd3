import SourceGauge.Proofs.Histogram.Rejection
import SourceGauge.Proofs.Histogram.Wrapping

/-!
# Finishing a histogram

A builder is open until it has built a histogram, and finished from then on. Whatever a run asks of
it, in any order and with any arguments, it is finished exactly if one of the requests to build has
returned a histogram. A finished builder stays as it is for good: it returns that histogram whenever
it is asked to build, and refuses to count anything before it looks at what it is to count.

An open builder never refuses for that reason. If building fails, since words have wrapped around,
the builder stays open as it was, and it may be able to build later, after more was counted.
-/

namespace SourceGauge

/-- A failure that refuses to count since a histogram was finished. -/
def Failure.IsFinalized (failure : Failure) : Prop := ∃ measure, failure = .finalized measure

namespace Builder

/-! ## Requests -/

/-- What a builder may be asked for: to count something, or to build the histogram. -/
inductive Request
  | count (call : Call)
  | build

/-- Serve a request. Building returns a histogram, counting nothing. -/
def serve (builder : Builder) : Request → Builder × Except Failure (Option Histogram)
  | .count call =>
    let (next, run) := builder.call call
    (next, run.outcome.map fun _ => none)
  | .build =>
    let (next, outcome) := builder.build
    (next, outcome.map some)

/-- Serve requests one after the other, whatever comes of each of them. -/
def serveAll (builder : Builder) (requests : List Request) : Builder :=
  requests.foldl (fun builder request => (builder.serve request).1) builder

/-- One of the requests of a run is to build, and the histogram is what it returns. -/
def Returns (builder : Builder) (requests : List Request) (histogram : Histogram) : Prop :=
  ∃ before after, requests = before ++ .build :: after ∧
    ((builder.serveAll before).serve .build).2 = .ok (some histogram)

/-- A builder has finished for good: whatever it is asked for, it stays as it is. It builds the same
histogram, refuses to count any value any number of times and whatever there is in a collection, and
has nothing to do for a collection without values. -/
structure IsFinal (builder : Builder) (histogram : Histogram) : Prop where
  serveAll_eq : ∀ requests, builder.serveAll requests = builder
  build_eq : builder.build = (builder, .ok histogram)
  add_eq : ∀ value count, builder.add value count = (builder, .fail (.finalized builder.measure))
  addAll_eq : ∀ values item rest, values.elements = .ok (item :: rest) →
    builder.addAll values = (builder, .fail (.finalized builder.measure))
  addAll_nil : ∀ values, values.elements = .ok [] → builder.addAll values = (builder, .done ())

/-- A builder is open: nothing that it is asked for is refused as finalized, and where building
fails the builder stays as it is. -/
structure IsOpen (builder : Builder) : Prop where
  built_eq : builder.built = none
  not_isFinalized : ∀ request failure, (builder.serve request).2 = .error failure →
    ¬failure.IsFinalized
  eq_of_build_error : ∀ failure, builder.build.2 = .error failure → builder.build.1 = builder

variable {builder : Builder} {histogram : Histogram} {failure : Failure}

/-! ## Finished builders -/

/-- A finished builder counts none of a list that has something in it. -/
theorem addList_of_built (h : builder.built = some histogram) (value : Value) (rest : List Value) :
    builder.addList (value :: rest) = (builder, .fail (.finalized builder.measure)) := by
  rw [addList, add_of_built h]
  rfl

/-- A finished builder is the same after any request. -/
theorem serve_of_built (h : builder.built = some histogram) (request : Request) :
    (builder.serve request).1 = builder := by
  cases request with
  | count call =>
    cases call with
    | add value count => rw [serve, call, add_of_built h]
    | addAll values =>
      rw [serve, call, addAll]
      cases values.elements with
      | error failure => rfl
      | ok items =>
        cases items with
        | nil => rfl
        | cons value rest => simp only [addList_of_built h]
  | build => rw [serve, build_of_built h]

theorem serveAll_of_built (h : builder.built = some histogram) (requests : List Request) :
    builder.serveAll requests = builder := by
  induction requests with
  | nil => rfl
  | cons request rest ih =>
    calc builder.serveAll (request :: rest)
        = (builder.serve request).1.serveAll rest := rfl
      _ = builder.serveAll rest := by rw [serve_of_built h]
      _ = builder := ih

/-- A builder that has built a histogram is finished for good. -/
theorem isFinal_of_built (h : builder.built = some histogram) : builder.IsFinal histogram where
  serveAll_eq := serveAll_of_built h
  build_eq := build_of_built h
  add_eq := add_of_built h
  addAll_eq := by
    intro values item rest helements
    rw [addAll, helements]
    exact addList_of_built h item rest
  addAll_nil := by
    intro values helements
    rw [addAll, helements]
    rfl

/-! ## Open builders -/

/-- Counting leaves whether a builder has finished. -/
theorem call_built (builder : Builder) (call : Call) :
    (builder.call call).1.built = builder.built := by
  cases hbuilt : builder.built with
  | some histogram =>
    have hsame : (builder.call call).1 = builder := serve_of_built hbuilt (.count call)
    rw [hsame, hbuilt]
  | none => rw [(call_eq_taken hbuilt call).1, foldl_taken_built, hbuilt]

/-- A request finishes a builder exactly if it is to build and returns a histogram; one that had
finished before is finished all the same. -/
theorem built_serve_iff (builder : Builder) (request : Request) :
    (builder.serve request).1.built = some histogram ↔ builder.built = some histogram ∨
      request = .build ∧ (builder.serve .build).2 = .ok (some histogram) := by
  cases request with
  | count call =>
    have hbuilt : (builder.serve (.count call)).1.built = builder.built := builder.call_built call
    simp [hbuilt]
  | build =>
    cases hbuilt : builder.built with
    | some found => simp [serve, build, hbuilt, Except.map]
    | none =>
      simp only [serve, build, hbuilt]
      cases Histogram.ofInts builder.measure builder.bounds (builder.counts.map Int64.toInt)
        .memory <;> simp [Except.map, hbuilt]

/-- A histogram that a run returns is returned for its first request or for a later one. -/
theorem returns_cons_iff {request : Request} {rest : List Request} :
    builder.Returns (request :: rest) histogram ↔
      request = .build ∧ (builder.serve .build).2 = .ok (some histogram) ∨
        (builder.serve request).1.Returns rest histogram := by
  constructor
  · rintro ⟨before, after, hrequests, hreturned⟩
    cases before with
    | nil => exact .inl ⟨(List.cons.inj hrequests).1, hreturned⟩
    | cons first others =>
      obtain ⟨rfl, rfl⟩ := List.cons.inj hrequests
      exact .inr ⟨others, after, rfl, hreturned⟩
  · rintro (⟨rfl, hreturned⟩ | ⟨before, after, rfl, hreturned⟩)
    · exact ⟨[], rest, rfl, hreturned⟩
    · exact ⟨request :: before, after, rfl, hreturned⟩

/-- After a run a builder is finished exactly if it was before or one of the requests to build has
returned a histogram. -/
theorem built_serveAll_iff (requests : List Request) :
    (builder.serveAll requests).built = some histogram ↔
      builder.built = some histogram ∨ builder.Returns requests histogram := by
  induction requests generalizing builder with
  | nil => simp [serveAll, Returns]
  | cons request rest ih =>
    have hrest : builder.serveAll (request :: rest) = (builder.serve request).1.serveAll rest := rfl
    rw [hrest, ih, built_serve_iff, returns_cons_iff, or_assoc]

theorem not_isFinalized_ofCount (count : Value) (fault : BadValue) :
    ¬(Failure.ofCount count fault).IsFinalized := by
  rintro ⟨measure, h⟩
  rw [Failure.ofCount] at h
  cases hcause : Failure.unshowable? count with
  | none => simp [hcause] at h
  | some cause => rcases Failure.cause_of_unshowable? hcause with rfl | rfl <;> simp [hcause] at h

/-- An open builder has other reasons to refuse an addition. -/
theorem not_isFinalized_of_refuses (hopen : builder.built = none) {value count : Value}
    (h : builder.Refuses value count failure) : ¬failure.IsFinalized := by
  cases h with
  | finished hfinished => exact absurd hopen hfinished
  | badCount _ _ => exact not_isFinalized_ofCount _ _
  | badValue _ _ h => cases h <;> exact nofun
  | tooMany _ _ _ => exact nofun

theorem not_isFinalized_of_addList (hopen : builder.built = none) {items : List Value}
    (h : (builder.addList items).2.outcome = .error failure) : ¬failure.IsFinalized := by
  induction items generalizing builder with
  | nil => contradiction
  | cons value rest ih =>
    have hnext : (builder.add value once).1.built = none :=
      (builder.call_built (.add value once)).trans hopen
    rw [addList] at h
    cases hadd : (builder.add value once).2.outcome with
    | error cause =>
      simp only [hadd, Except.error.injEq] at h
      exact not_isFinalized_of_refuses hopen (add_eq_error_iff.1 (h ▸ hadd))
    | ok _ =>
      simp only [hadd] at h
      exact ih hnext h

/-- Where building fails the builder stays as it is, and the reason is in the counts. -/
theorem of_build_error (h : builder.build.2 = .error failure) :
    builder.build.1 = builder ∧ ¬failure.IsFinalized := by
  rw [build] at h ⊢
  split at h
  · contradiction
  · rename_i hopen
    split at h
    · contradiction
    · rename_i cause hcause
      obtain rfl := Except.error.inj h
      refine ⟨rfl, ?_⟩
      rintro ⟨measure, rfl⟩
      rw [Histogram.ofInts] at hcause
      split at hcause
      · split at hcause <;> cases hcause
      · cases hcause

/-- Nothing that an open builder is asked for is refused as finalized. -/
theorem isOpen_of_built (hopen : builder.built = none) : builder.IsOpen where
  built_eq := hopen
  eq_of_build_error := fun _ h => (of_build_error h).1
  not_isFinalized := by
    intro request failure h
    cases request with
    | count call =>
      have hcall : (builder.call call).2.outcome = .error failure := map_eq_error_iff.1 h
      cases call with
      | add value count => exact not_isFinalized_of_refuses hopen (add_eq_error_iff.1 hcall)
      | addAll values =>
        rw [Builder.call, addAll] at hcall
        cases helements : values.elements with
        | error cause =>
          obtain ⟨misfit, rfl⟩ := Value.misfit_of_elements helements
          rw [helements] at hcall
          rw [← Except.error.inj hcall]
          rintro ⟨measure, hmeasure⟩
          contradiction
        | ok items =>
          rw [helements] at hcall
          exact not_isFinalized_of_addList hopen hcall
    | build => exact (of_build_error (map_eq_error_iff.1 h)).2

/-! ## Runs -/

/-- Requests leave the measure of a builder. -/
theorem serve_measure (builder : Builder) (request : Request) :
    (builder.serve request).1.measure = builder.measure := by
  cases hbuilt : builder.built with
  | some histogram => rw [serve_of_built hbuilt]
  | none =>
    cases request with
    | count call =>
      have hnext := (call_eq_taken hbuilt call).1
      rw [serve, hnext, foldl_taken_measure]
    | build =>
      rw [serve, build, hbuilt]
      dsimp only
      split <;> rfl

theorem serveAll_measure (builder : Builder) (requests : List Request) :
    (builder.serveAll requests).measure = builder.measure := by
  induction requests generalizing builder with
  | nil => rfl
  | cons request rest ih => exact (ih _).trans (builder.serve_measure request)

/-- Whatever a fresh builder is asked for, it is finished for good as soon as one of the requests to
build has returned a histogram, with that histogram. As long as none has, it is open: nothing is
refused as finalized, and where building fails the builder stays as it is. -/
theorem isFinal_of_returns (measure : Measure) (bounds : Bounds) (requests : List Request) :
    (∀ histogram, (new measure bounds).Returns requests histogram →
      ((new measure bounds).serveAll requests).IsFinal histogram ∧
        ((new measure bounds).serveAll requests).measure = measure) ∧
    ((∀ histogram, ¬(new measure bounds).Returns requests histogram) →
      ((new measure bounds).serveAll requests).IsOpen) := by
  refine ⟨fun histogram h => ⟨?_, serveAll_measure _ requests⟩, fun h => ?_⟩
  · exact isFinal_of_built ((built_serveAll_iff requests).2 (.inr h))
  · refine isOpen_of_built (Option.eq_none_iff_forall_ne_some.2 fun histogram hbuilt => ?_)
    rcases (built_serveAll_iff requests).1 hbuilt with hnew | hreturned
    · contradiction
    · exact h histogram hreturned

/-- Requests to count are calls. -/
theorem serveAll_count (builder : Builder) (calls : List Call) :
    builder.serveAll (calls.map .count) = builder.callAll calls := by
  rw [serveAll, List.foldl_map]
  rfl

theorem serveAll_append (builder : Builder) (requests more : List Request) :
    builder.serveAll (requests ++ more) = (builder.serveAll requests).serveAll more :=
  List.foldl_append

/-- Requests to fill a word beyond its end, to build in vain, and to fill it beyond its end again. -/
def overfullRequests : List Request :=
  overfullCalls.map .count ++ .build :: overfullCalls.map .count

/-- After the requests the builder is open, though building has failed. One more request to build
returns a histogram, in which nothing is left, and finishes the builder for good. -/
theorem isFinal_overfullRequests :
    let builder := new .fileComplexityDistribution sampleBounds
    (∀ histogram, ¬builder.Returns overfullRequests histogram) ∧
      (builder.serveAll overfullRequests).IsOpen ∧
      ∃ histogram, builder.Returns (overfullRequests ++ [.build]) histogram ∧
        (builder.serveAll (overfullRequests ++ [.build])).IsFinal histogram ∧
        histogram.counts = [0, 0, 0] := by
  intro builder
  have hwide : signedWordLimit ≤
      sampleBounds.load (accepted overfullCalls) 1 % unsignedWordLimit := by decide +kernel
  have hnarrow : ∀ bucket < sampleBounds.size,
      sampleBounds.load (accepted (overfullCalls ++ overfullCalls)) bucket % unsignedWordLimit <
        signedWordLimit := by decide +kernel
  have hfailed : (builder.callAll overfullCalls).build.1 = builder.callAll overfullCalls :=
    (of_build_error (builtAfter_of_wide (by decide) hwide)).1
  have hserved : builder.serveAll overfullRequests =
      builder.callAll (overfullCalls ++ overfullCalls) := by
    calc builder.serveAll overfullRequests
        = ((builder.callAll overfullCalls).serve .build).1.serveAll (overfullCalls.map .count) := by
          rw [overfullRequests, serveAll_append, serveAll_count]
          rfl
      _ = (builder.callAll overfullCalls).callAll overfullCalls := by
          rw [serve, hfailed, serveAll_count]
      _ = builder.callAll (overfullCalls ++ overfullCalls) := List.foldl_append.symm
  have hopen : (builder.serveAll overfullRequests).built = none := by
    rw [hserved]
    exact (took_callAll _ _ _).built_eq
  have hnone : ∀ histogram, ¬builder.Returns overfullRequests histogram := fun histogram h =>
    Option.some_ne_none histogram (((built_serveAll_iff _).2 (.inr h)).symm.trans hopen)
  obtain ⟨histogram, hbuilt, _, _, hcounts⟩ :=
    builtAfter_of_narrow .fileComplexityDistribution hnarrow
  have hreturned : builder.Returns (overfullRequests ++ [.build]) histogram := by
    refine ⟨overfullRequests, [], rfl, ?_⟩
    rw [hserved, serve]
    exact congrArg (Except.map some) hbuilt
  refine ⟨hnone, (isFinal_of_returns _ _ _).2 hnone, histogram, hreturned,
    ((isFinal_of_returns _ _ _).1 histogram hreturned).1, hcounts.trans (by decide +kernel)⟩

end Builder

end SourceGauge
