import SourceGauge.Histogram.Basic
import SourceGauge.Text.Split

/-!
# The text of a histogram

A histogram is written as its buckets, `bound=count`, separated by semicolons. Reading accepts
every numeral for a bound and for a count; bounds are then reals.
-/

namespace SourceGauge.Histogram

/-- One bucket as text. -/
def bucketText (bucket : Number × Nat) : String :=
  Bounds.boundText bucket.1 ++ "=" ++ toString bucket.2

/-- A histogram as text. Every count must have few enough digits to be written. -/
def toText (histogram : Histogram) : Except Failure String :=
  if histogram.counts.all fun count => (Number.int count).isWritable then
    .ok (String.intercalate ";" (histogram.buckets.map bucketText))
  else .error (.value .unprintableInteger)

/-- Read the bound of a bucket. -/
def readBound (text : Text) : Except Failure Value :=
  match Numeral.readReal text.shownChars with
  | some x => .ok (.number (.real x))
  | none => .error (.value (.badReal text))

/-- Read one bucket; the first equals sign separates the bound from the count. -/
def readBucket (entry : Text) : Except Failure (Value × Int) :=
  match entry.points.dropWhile (· != .char '=') with
  | [] => .error (.value (.malformedEntry entry))
  | _ :: count => do
    let bound ← readBound ⟨entry.points.takeWhile (· != .char '=')⟩
    let count ← (BadValue.readWhole ⟨count⟩).mapError Failure.value
    return (bound, count)

/-- Read a histogram from its text. -/
def ofText (measure : Measure) (text : Text) : Except Failure Histogram := do
  let buckets ← mapOk readBucket (text.pieces ';')
  let bounds ← Bounds.ofList (buckets.map Prod.fst)
  ofInts measure bounds (buckets.map Prod.snd) .memory

end SourceGauge.Histogram
