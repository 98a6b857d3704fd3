import SourceGauge.Histogram.Basic
import SourceGauge.Run

/-!
# Building histograms

A builder counts values into the buckets of its bounds. A value below the lowest bound is
reported and counted in the first bucket, so that no value is lost; such values are also
counted on their own as clamped. Counts are signed words and wrap around. Once a histogram has
been built the builder only ever returns it.

Every operation gives the builder back together with its run, since a failed operation may
have changed it before it failed.
-/

namespace SourceGauge

/-- A histogram in the making. -/
structure Builder where
  measure : Measure
  bounds : Bounds
  clamped : Nat
  counts : List Int64
  built : Option Histogram

namespace Builder

/-- The logger of builders. -/
def logger : String := "codemeasure.distribution"

/-- A builder that has counted nothing. -/
def new (measure : Measure) (bounds : Bounds) : Builder :=
  ⟨measure, bounds, 0, List.replicate bounds.size 0, none⟩

/-- A builder for bounds that are given as a value. -/
def ofValue (measure : Measure) (bounds : Value) : Except Failure Builder :=
  (Bounds.ofValue bounds).map (new measure)

/-- The number that is looked up for a value: a whole number that fits a word is rounded to
binary64, a larger one is compared as it is. -/
def searched : Number → Number
  | .int n =>
    if -(signedWordLimit : Int) ≤ n && n < (unsignedWordLimit : Int) then .real (.ofInt n)
    else .int n
  | other => other

/-- How many bounds are at most a value, as the search sees both. -/
def rank (bounds : Bounds) (value : Number) : Nat :=
  bounds.limits.countP fun limit => (Number.real limit).le (searched value)

/-- The bucket a value is counted in, and whether it is clamped. -/
def bucketOf (bounds : Bounds) (value : Number) : Nat × Bool :=
  match rank bounds value with
  | 0 => (0, true)
  | n + 1 => (n, false)

/-- The count that a value is: a whole number, not negative, not a truth value. -/
def countOf (value : Value) : Except Failure Nat :=
  match Histogram.wholeNumber? value with
  | some n => if n < 0 then .error (.ofCount value (.badCount value)) else .ok n.toNat
  | none => .error (.ofCount value (.badCount value))

/-- The finite number that a value is. -/
def finiteOf (measure : Measure) (value : Value) : Except Failure Number :=
  match value.number? with
  | none => .error (.misfit (.notReal value.typeName))
  | some n =>
    match n.isFinite? with
    | some true => .ok n
    | some false => .error (.value (.notFinite n measure))
    | none => .error (.overflow .real)

/-- The report of a clamped value. -/
def clampReport (builder : Builder) (value : Number) : Run Unit :=
  .report .warning logger
    (builder.measure.name ++ ": value " ++ value.text ++ " is below the lowest bound " ++
      Bounds.boundText builder.bounds.lowest ++ ", counted in the first bucket")

/-- Count a value into a bucket, if the count fits a signed word. -/
def increase (builder : Builder) (bucket count : Nat) : Builder × Run Unit :=
  if count < signedWordLimit then
    ({ builder with counts := builder.counts.modify bucket (· + Int64.ofNat count) }, .done ())
  else (builder, .fail (.overflow .word))

/-- Count a number that has passed the checks, so many times. -/
def record (builder : Builder) (value : Number) (count : Nat) : Builder × Run Unit :=
  match bucketOf builder.bounds value with
  | (bucket, false) => builder.increase bucket count
  | (bucket, true) =>
    let (next, run) := { builder with clamped := builder.clamped + count }.increase bucket count
    (next, (builder.clampReport value).andThen fun _ => run)

/-- What is checked before a value is counted: the builder is open, the count is one, and the
value is a finite number. -/
def check (builder : Builder) (value count : Value) : Except Failure (Number × Nat) :=
  if builder.built.isSome then .error (.finalized builder.measure)
  else do
    let count ← countOf count
    let value ← finiteOf builder.measure value
    return (value, count)

/-- Count a value, so many times. -/
def add (builder : Builder) (value count : Value) : Builder × Run Unit :=
  match builder.check value count with
  | .error failure => (builder, .fail failure)
  | .ok (value, count) => builder.record value count

/-- The count of a value that is added once. -/
def once : Value := .number (.int 1)

/-- Count every value of a list once, up to the first that fails. -/
def addList (builder : Builder) : List Value → Builder × Run Unit
  | [] => (builder, .done ())
  | value :: rest =>
    let (next, run) := builder.add value once
    match run.outcome with
    | .error failure => (next, ⟨run.entries, .error failure⟩)
    | .ok _ =>
      let (last, others) := next.addList rest
      (last, ⟨run.entries ++ others.entries, others.outcome⟩)

/-- Count everything in a collection once. -/
def addAll (builder : Builder) (values : Value) : Builder × Run Unit :=
  match values.elements with
  | .error failure => (builder, .fail failure)
  | .ok items => builder.addList items

/-- Finish the histogram; a builder that has finished returns the same one. -/
def build (builder : Builder) : Builder × Except Failure Histogram :=
  match builder.built with
  | some histogram => (builder, .ok histogram)
  | none =>
    match Histogram.ofInts builder.measure builder.bounds (builder.counts.map Int64.toInt)
        .memory with
    | .ok histogram => ({ builder with built := some histogram }, .ok histogram)
    | .error failure => (builder, .error failure)

/-- A finished builder takes nothing. -/
theorem add_of_built {builder : Builder} {histogram : Histogram}
    (h : builder.built = some histogram) (value count : Value) :
    builder.add value count = (builder, .fail (.finalized builder.measure)) := by
  simp [add, check, h]

/-- A finished builder returns its histogram. -/
theorem build_of_built {builder : Builder} {histogram : Histogram}
    (h : builder.built = some histogram) : builder.build = (builder, .ok histogram) := by
  simp [build, h]

end Builder

end SourceGauge
