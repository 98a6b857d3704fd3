import SourceGauge.FileRecord
import SourceGauge.Histogram.Merge
import SourceGauge.Run
import SourceGauge.Value.Identity

/-!
# The record store

Finished records by file key. Saving a record under a key that is present replaces the record
there and is reported; the place and the form in which the key first came stay. Over the
records as they stand, the scalar measures are summed and the histograms are merged; replaced
records do not count.
-/

namespace SourceGauge

/-- A record that was saved, and its key as it first came. -/
structure SavedRecord where
  key : Value
  record : FileRecord

/-- The records saved so far, in the order in which their keys first came. -/
structure RecordStore where
  records : OrderedMap KeyIdentity SavedRecord

namespace RecordStore

/-- The logger of the store. -/
def logger : String := "codemeasure.sink"

/-- The store without records. -/
def empty : RecordStore := ⟨.empty⟩

/-- The number of records. -/
def size (store : RecordStore) : Nat := store.records.size

/-- What a value is as a key of the store; a NaN is a key that is not there yet. -/
def identity? (store : RecordStore) (key : Value) : Option KeyIdentity :=
  key.identity? store.size

/-- What was saved under a key. -/
def saved? (store : RecordStore) (key : Value) : Option SavedRecord :=
  (store.identity? key).bind store.records.get?

/-- Put a record into the store, unless its key cannot be one. -/
def put (store : RecordStore) (record : FileRecord) : RecordStore :=
  match store.identity? record.key with
  | none => store
  | some identity =>
    let first := ((store.saved? record.key).map SavedRecord.key).getD record.key
    ⟨store.records.put identity ⟨first, record⟩⟩

/-- Put records into the store one after the other. -/
def putAll (store : RecordStore) (records : List FileRecord) : RecordStore :=
  records.foldl put store

/-- What is reported when a record is saved: whether it replaces another. -/
def saveReport (store : RecordStore) (record : FileRecord) : List LogEntry :=
  if (store.saved? record.key).isSome then
    [⟨.warning, logger, "Replacing measures already saved for " ++ record.key.plain⟩]
  else []

/-- What is reported when records are saved one after the other. -/
def saveReports (store : RecordStore) : List FileRecord → List LogEntry
  | [] => []
  | record :: rest => store.saveReport record ++ (store.put record).saveReports rest

/-- Save a record, whose key must be able to be one. -/
def save (store : RecordStore) (record : FileRecord) : Run RecordStore :=
  (Run.ofOutcome record.key.checkKey).andThen fun _ =>
    ⟨store.saveReport record, .ok (store.put record)⟩

/-- The keys as they first came, in the order of first saving. -/
def keys (store : RecordStore) : List Value := store.records.values.map SavedRecord.key

/-- The records in the order of their keys. -/
def all (store : RecordStore) : List FileRecord := store.records.values.map SavedRecord.record

/-- The record of a key, which must be present. -/
def get (store : RecordStore) (key : Value) : Except Failure FileRecord :=
  match store.saved? key with
  | some saved => .ok saved.record
  | none => do
    key.checkKey
    throw (.missingKey key.full)

/-- Whether a key is present. -/
def contains (store : RecordStore) (key : Value) : Except Failure Bool :=
  key.checkKey.map fun _ => (store.saved? key).isSome

/-- A sum and one more value. -/
def addTo (sum : Binary64) (value : Value) : Except Failure Binary64 :=
  match value.number? with
  | none => .error (.misfit (.notAddable "float" value.typeName))
  | some n =>
    match n.toBinary64? with
    | some x => .ok (sum.add x)
    | none => .error (.overflow .real)

/-- Add the measures of a record to the sums so far, which start at zero. -/
def addMeasures (totals : OrderedMap Measure Binary64) :
    List (Measure × Value) → Except Failure (OrderedMap Measure Binary64)
  | [] => .ok totals
  | (measure, value) :: rest =>
    match addTo ((totals.get? measure).getD (.zero false)) value with
    | .error failure => .error failure
    | .ok sum => addMeasures (totals.put measure sum) rest

/-- The sums of the scalar measures over all records. -/
def totals (store : RecordStore) : Except Failure (OrderedMap Measure Binary64) :=
  addMeasures .empty (store.all.flatMap fun record => record.measures.entries)

/-- Merge the histograms of a measure, record by record. -/
def mergeFrom (measure : Measure) (merged : Option Histogram) :
    List FileRecord → Except Failure (Option Histogram)
  | [] => .ok merged
  | record :: rest => do
    let histogram ← record.histogram measure
    let next ← match merged with
      | none => pure histogram
      | some sum => sum.merge histogram
    mergeFrom measure (some next) rest

/-- The histogram of a measure, merged over all records; there is none without records. -/
def distribution (store : RecordStore) (measure : Measure) : Except Failure (Option Histogram) :=
  mergeFrom measure none store.all

/-- The complexity of the files, merged over all records. -/
def fileComplexity (store : RecordStore) : Except Failure (Option Histogram) :=
  store.distribution .fileComplexityDistribution

/-- The complexity of the functions, merged over all records. -/
def functionComplexity (store : RecordStore) : Except Failure (Option Histogram) :=
  store.distribution .functionComplexityDistribution

/-- A record that was put under a text is found under it. -/
theorem get_put_self (store : RecordStore) {record : FileRecord} {name : Text}
    (h : record.key = .text name) : (store.put record).get (.text name) = .ok record := by
  simp [put, get, saved?, identity?, Value.identity?, h, OrderedMap.get?_put_self]

/-- A record is saved if its key can be one. -/
theorem save_outcome (store : RecordStore) {record : FileRecord}
    (h : record.key.isHashable = true) : (store.save record).outcome = .ok (store.put record) := by
  simp [save, Value.checkKey, h, Run.ofOutcome, Run.andThen]

end RecordStore

end SourceGauge
