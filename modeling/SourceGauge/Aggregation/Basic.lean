import SourceGauge.Aggregation.Pool
import SourceGauge.FileRecord
import SourceGauge.Histogram.Builder
import SourceGauge.Node.Index
import SourceGauge.Settings.Limits

/-!
# Aggregation

Turning an indexed scan into one record per file, in the order of the file keys. The scalar
measures are copied from the file, the complexity of its functions and its own complexity are
counted into histograms. A file or function that lacks a needed metric ends the whole pass.

A pass over many files hands them to a pool of workers, smaller ones go file by file. Some of
what a pass does is not determined: the order in which it goes through a set of nodes, and the
schedule of the pool. Both are given by a conduct, and neither is meant to show in the records.
-/

namespace SourceGauge

/-- How passes are carried out: the bucket limits, the number of workers, and the number of files
from which on workers are used. -/
structure Aggregator where
  limits : Limits
  workers : Number
  parallelThreshold : Value

/-- What a pass is free to choose: the order in which it goes through a set of nodes, and the
schedule of its pool. -/
structure Conduct where
  arrange : List SourceNode → List SourceNode
  perm : ∀ nodes, (arrange nodes).Perm nodes
  schedule : Schedule

namespace Conduct

/-- The conduct that keeps all orders, for a pool of so many tasks. -/
def plain (tasks : Nat) : Conduct := ⟨id, fun nodes => .refl nodes, .inOrder tasks⟩

end Conduct

namespace Aggregator

/-- The logger of aggregation. -/
def logger : String := "codemeasure.aggregator"

/-- A number of workers, at least one. -/
def atLeastOneWorker (n : Number) : Number := if (Number.int 1).lt n then n else .int 1

/-- An aggregator with the given limits and numbers. -/
def ofNumbers (limits : Limits) (workers parallelThreshold : Number) : Aggregator :=
  ⟨limits, atLeastOneWorker workers, .number parallelThreshold⟩

/-- An aggregator with the given limits and values. The number of workers must be a number; the
threshold is looked at when a pass needs it. -/
def new (limits : Limits) (workers parallelThreshold : Value) : Except Failure Aggregator :=
  match workers.number? with
  | some n => .ok ⟨limits, atLeastOneWorker n, parallelThreshold⟩
  | none => .error (.misfit (.notOrdered ">" workers.typeName "int"))

/-- Whether a pass over so many files uses workers. With one worker the threshold is not even
looked at. -/
def isParallel (aggregator : Aggregator) (files : Nat) : Except Failure Bool :=
  if aggregator.workers.eqv (.int 1) then .ok false
  else match aggregator.parallelThreshold.number? with
    | some n => .ok !(Number.int files).lt n
    | none => .error (.misfit (.notOrdered "<" "int" aggregator.parallelThreshold.typeName))

/-- One scalar measure of a file. -/
def measureOf (node : SourceNode) (entry : Metric × Measure) : Except Failure (Measure × Value) :=
  (node.get entry.1).map fun n => (entry.2, .number n)

/-- The scalar measures of a file; all of them are needed. -/
def scalarMeasures (node : SourceNode) : Except Failure (OrderedMap Measure Value) :=
  (mapOk (measureOf node) fileMeasures).map .ofList

/-- Count the complexity of nodes, which all of them need. -/
def countComplexity (builder : Builder) : List SourceNode → Run Builder
  | [] => .done builder
  | node :: rest =>
    (Run.ofOutcome (node.get .complexity)).andThen fun complexity =>
      let (next, run) := builder.add (.number complexity) Builder.once
      run.andThen fun _ => countComplexity next rest

/-- The histogram of the complexity of nodes. -/
def complexityHistogram (measure : Measure) (bounds : Bounds) (nodes : List SourceNode) :
    Run Histogram :=
  (countComplexity (.new measure bounds) nodes).andThen fun builder => .ofOutcome builder.build.2

/-- The record of a file. -/
def measureFile (conduct : Conduct) (limits : Limits) (index : NodeIndex) (node : SourceNode) :
    Run FileRecord :=
  (Run.ofOutcome (scalarMeasures node)).andThen fun measures =>
    (complexityHistogram .functionComplexityDistribution limits.functions
      (conduct.arrange (index.functions (some node)))).andThen fun functions =>
      (complexityHistogram .fileComplexityDistribution limits.files [node]).andThen fun files =>
        .done ⟨.text node.key, measures, functions, files⟩

/-- The results of runs that follow one another. -/
def inSequence {α β : Type} (f : α → Run β) : List α → Run (List β)
  | [] => .done []
  | item :: rest =>
    (f item).andThen fun result =>
      (inSequence f rest).andThen fun results => .done (result :: results)

/-- Records in the order of their keys. -/
def sortRecords (records : List FileRecord) : List FileRecord :=
  records.mergeSort fun a b => a.key.plain.le b.key.plain

/-- The records of files that are measured one after the other, in their order. -/
def measureInSequence (conduct : Conduct) (limits : Limits) (index : NodeIndex)
    (files : List SourceNode) : Run (List FileRecord) :=
  inSequence (measureFile conduct limits index) files

/-- The records of files that are measured by a pool of workers, in the order of their keys. -/
def measurePooled (conduct : Conduct) (limits : Limits) (index : NodeIndex)
    (files : List SourceNode) : Run (List FileRecord) :=
  (conduct.schedule.run (files.map (measureFile conduct limits index))).andThen fun records =>
    .done (sortRecords records)

/-- The files of an index in the order of their keys. -/
def sortedFiles (conduct : Conduct) (index : NodeIndex) : List SourceNode :=
  (conduct.arrange index.files).mergeSort fun a b => a.key.le b.key

/-- The records of all files of an index, made as a conduct says. -/
def aggregateBy (conduct : Conduct) (aggregator : Aggregator) (index : NodeIndex) :
    Run (List FileRecord) :=
  let files := sortedFiles conduct index
  (Run.ofOutcome (aggregator.isParallel files.length)).andThen fun parallel =>
    (if parallel then measurePooled conduct aggregator.limits index files
      else measureInSequence conduct aggregator.limits index files).andThen fun records =>
      (Run.report .debug logger
        ("Aggregated measures for " ++ toString records.length ++ " files")).andThen fun _ =>
        .done records

/-- The records of all files of an index. -/
def aggregate (aggregator : Aggregator) (index : NodeIndex) : Run (List FileRecord) :=
  aggregateBy (.plain index.files.length) aggregator index

/-- Every file of the index is measured once. -/
theorem sortedFiles_perm (conduct : Conduct) (index : NodeIndex) :
    (sortedFiles conduct index).Perm index.files :=
  (List.mergeSort_perm _ _).trans (conduct.perm _)

end Aggregator

end SourceGauge
