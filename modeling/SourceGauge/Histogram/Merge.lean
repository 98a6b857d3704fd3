import SourceGauge.Histogram.Basic

/-!
# Merging histograms

Histograms over the same bounds are merged bucket by bucket. The counts of each one are first
packed into the narrowest array that takes them all: signed words, unsigned words, reals if
some counts need an unsigned word and others fit a signed one, or whole numbers of any size.
The two arrays are added in the narrowest kind that takes both. Words wrap around, and reals
round, so sums are exact only while they fit.
-/

namespace SourceGauge

/-- Counts packed into an array of one kind. -/
inductive CountArray
  | signed (cells : List Int64)
  | unsigned (cells : List UInt64)
  | real (cells : List Binary64)
  | exact (cells : List Nat)

namespace CountArray

/-- The real of a natural number. -/
def realOf (n : Nat) : Binary64 := .ofInt n

/-- Pack counts into the narrowest array that takes them all. -/
def ofCounts (counts : List Nat) : CountArray :=
  if counts.all (· < signedWordLimit) then .signed (counts.map Int64.ofNat)
  else if counts.all (· < unsignedWordLimit) then
    if counts.all (signedWordLimit ≤ ·) then .unsigned (counts.map UInt64.ofNat)
    else .real (counts.map realOf)
  else .exact counts

/-- The cells as reals. -/
def reals : CountArray → List Binary64
  | signed cells => cells.map fun c => .ofInt c.toInt
  | unsigned cells => cells.map fun c => realOf c.toNat
  | real cells => cells
  | exact cells => cells.map realOf

/-- The whole number that a cell of reals holds. -/
def wholeOf (x : Binary64) : Int := x.integer?.getD 0

/-- Sums of reals, as whole numbers. -/
def addReals (a b : List Binary64) : List Int :=
  List.zipWith (fun x y => wholeOf (x.add y)) a b

/-- A real, if there is one. -/
def orOverflow : Option Binary64 → Except Failure Binary64
  | some x => .ok x
  | none => .error (.overflow .real)

/-- The real of a whole number that is to be added to a real. -/
def boundedReal (n : Nat) : Except Failure Binary64 := orOverflow (Number.int n).toBinary64?

/-- The cells of an array as whole numbers. -/
def wholes : CountArray → List Int
  | signed cells => cells.map Int64.toInt
  | unsigned cells => cells.map fun c => (c.toNat : Int)
  | real cells => cells.map wholeOf
  | exact cells => cells.map Int.ofNat

/-- The sums of two arrays, cell by cell, as whole numbers. -/
def add : CountArray → CountArray → Except Failure (List Int)
  | signed a, signed b => .ok (List.zipWith (fun x y => (x + y).toInt) a b)
  | unsigned a, unsigned b => .ok (List.zipWith (fun x y => ((x + y).toNat : Int)) a b)
  | exact a, real b => do return addReals (← mapOk boundedReal a) b
  | real a, exact b => do return addReals a (← mapOk boundedReal b)
  | exact a, b => .ok (List.zipWith (· + ·) (a.map Int.ofNat) b.wholes)
  | a, exact b => .ok (List.zipWith (· + ·) a.wholes (b.map Int.ofNat))
  | a, b => .ok (addReals a.reals b.reals)

end CountArray

namespace Histogram

/-- The sum of two histograms over the same bounds, with the measure, the bounds and the mode of
the first. -/
def merge (a b : Histogram) : Except Failure Histogram :=
  if b.bounds.same a.bounds then do
    let sums ← (CountArray.ofCounts a.counts).add (CountArray.ofCounts b.counts)
    ofInts a.measure a.bounds sums a.mode
  else .error (.bounds (b.bounds.values.map .number) (.different a.bounds.values))

/-- The sum of a histogram and a value that is none. -/
def addValue (_ : Histogram) (value : Value) : Except Failure Histogram :=
  .error (.misfit (.notAddable "RangeDistribution" value.typeName))

end Histogram

end SourceGauge
