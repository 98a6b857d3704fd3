import SourceGauge.Files.Path
import SourceGauge.Histogram.Text

/-!
# File records

Everything that is saved for one file: its scalar measures, the histogram of the complexity of
its functions, and a histogram of its own complexity, which holds one value and is merged over
the project later. Passes save records under the keys of files, which are texts; a caller may
give a record any value as its key.
-/

namespace SourceGauge

/-- What is saved for one file. -/
structure FileRecord where
  key : Value
  measures : OrderedMap Measure Value
  functionComplexity : Histogram
  fileComplexity : Histogram

namespace FileRecord

/-- The two histograms of a record by measure. -/
def histograms (record : FileRecord) : List (Measure × Histogram) :=
  [(.functionComplexityDistribution, record.functionComplexity),
    (.fileComplexityDistribution, record.fileComplexity)]

/-- The histogram of a measure, if it is a distribution measure. -/
def histogram? (record : FileRecord) : Measure → Option Histogram
  | .functionComplexityDistribution => some record.functionComplexity
  | .fileComplexityDistribution => some record.fileComplexity
  | _ => none

/-- The histogram of a measure, which must be a distribution measure. -/
def histogram (record : FileRecord) (measure : Measure) : Except Failure Histogram :=
  match record.histogram? measure with
  | some histogram => .ok histogram
  | none => .error (.missingKey measure.shown)

/-- What a record holds under a measure: a scalar or a histogram. -/
def get (record : FileRecord) (measure : Measure) : Except Failure (Value ⊕ Histogram) :=
  match record.histogram? measure with
  | some histogram => .ok (.inr histogram)
  | none =>
    match record.measures.get? measure with
    | some value => .ok (.inl value)
    | none => .error (.missingKey measure.shown)

/-- A key as a path below a base directory, or as it is if it does not lie there. -/
def pathBelow (base : Path) (key : Text) : Text :=
  match (Path.ofText key).relativeTo? base with
  | some rest => rest.text
  | none => key

/-- The key of a record below a base directory; without one, the key itself. -/
def resourcePath (record : FileRecord) (base : Value) : Except Failure Value :=
  match base with
  | .null => .ok record.key
  | base => do
    let _ ← record.key.path
    let base ← base.path
    return .text (pathBelow base record.key.plain)

/-- The text of one of the histograms of a record, by name. -/
def histogramText (entry : Measure × Histogram) : Except Failure (String × String) :=
  entry.2.toText.map fun text => (entry.1.name, text)

/-- The texts of the histograms of a record, by name. -/
def histogramTexts (record : FileRecord) : Except Failure (List (String × String)) :=
  mapOk histogramText record.histograms

/-- The scalar measures by name. -/
def namedMeasures (record : FileRecord) : List (Text × Value) :=
  record.measures.entries.map fun entry => (entry.1.name, entry.2)

/-- A record as a table: its key, its measures and its histograms. -/
def toEntries (record : FileRecord) : Except Failure (List (Text × Value)) :=
  record.histogramTexts.map fun texts =>
    [("key", record.key), ("measures", .table record.namedMeasures),
      ("distributions", .table (texts.map fun entry => (entry.1, .text entry.2)))]

/-- The two histograms are found under their measures. -/
theorem histogram?_of_mem_histograms {record : FileRecord} {measure : Measure}
    {histogram : Histogram} (h : (measure, histogram) ∈ record.histograms) :
    record.histogram? measure = some histogram := by
  simp only [histograms, List.mem_cons, Prod.mk.injEq, List.not_mem_nil, or_false] at h
  rcases h with ⟨rfl, rfl⟩ | ⟨rfl, rfl⟩ <;> rfl

end FileRecord

end SourceGauge
