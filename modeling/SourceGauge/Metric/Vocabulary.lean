/-!
# Metrics and measures

The two vocabularies of the library: metrics are what a scanner attaches to source nodes,
measures are what is recorded for each file. Nine metrics are copied onto measures of the
same meaning; the two distribution measures have no metric of their own. Every member has a
name, used in dumps and texts, and a symbol, used where a member shows itself.
-/

namespace SourceGauge

/-- The version of the library. -/
def libraryVersion : String := "0.1.0"

/-- What a scanner reports about a source node. -/
inductive Metric
  | files
  | lines
  | linesOfCode
  | statements
  | functions
  | classes
  | complexity
  | commentLines
  | commentBlankLines
  deriving DecidableEq, Repr

namespace Metric

/-- All metrics, in their fixed order. -/
def all : List Metric :=
  [files, lines, linesOfCode, statements, functions, classes, complexity, commentLines,
    commentBlankLines]

/-- The name of a metric in node dumps. -/
def name : Metric → String
  | files => "files"
  | lines => "lines"
  | linesOfCode => "lines_of_code"
  | statements => "statements"
  | functions => "functions"
  | classes => "classes"
  | complexity => "complexity"
  | commentLines => "comment_lines"
  | commentBlankLines => "comment_blank_lines"

/-- The symbol of a metric. -/
def symbol : Metric → String
  | files => "FILES"
  | lines => "LINES"
  | linesOfCode => "LINES_OF_CODE"
  | statements => "STATEMENTS"
  | functions => "FUNCTIONS"
  | classes => "CLASSES"
  | complexity => "COMPLEXITY"
  | commentLines => "COMMENT_LINES"
  | commentBlankLines => "COMMENT_BLANK_LINES"

/-- The metric of a name. -/
def ofName? (name : String) : Option Metric := all.find? fun m => m.name == name

/-- Every metric is listed. -/
theorem mem_all (m : Metric) : m ∈ all := by
  cases m <;> simp [all]

/-- A metric is found by its name. -/
theorem ofName?_name (m : Metric) : ofName? m.name = some m := by
  cases m <;> rfl

end Metric

/-- What is recorded for each file. -/
inductive Measure
  | files
  | lines
  | ncloc
  | statements
  | functions
  | classes
  | complexity
  | commentBlankLines
  | commentLines
  | functionComplexityDistribution
  | fileComplexityDistribution
  deriving DecidableEq, Repr

namespace Measure

/-- All measures, in their fixed order. -/
def all : List Measure :=
  [files, lines, ncloc, statements, functions, classes, complexity, commentBlankLines,
    commentLines, functionComplexityDistribution, fileComplexityDistribution]

/-- The name of a measure. -/
def name : Measure → String
  | files => "files"
  | lines => "lines"
  | ncloc => "ncloc"
  | statements => "statements"
  | functions => "functions"
  | classes => "classes"
  | complexity => "complexity"
  | commentBlankLines => "comment_blank_lines"
  | commentLines => "comment_lines"
  | functionComplexityDistribution => "function_complexity_distribution"
  | fileComplexityDistribution => "file_complexity_distribution"

/-- The symbol of a measure. -/
def symbol : Measure → String
  | files => "FILES"
  | lines => "LINES"
  | ncloc => "NCLOC"
  | statements => "STATEMENTS"
  | functions => "FUNCTIONS"
  | classes => "CLASSES"
  | complexity => "COMPLEXITY"
  | commentBlankLines => "COMMENT_BLANK_LINES"
  | commentLines => "COMMENT_LINES"
  | functionComplexityDistribution => "FUNCTION_COMPLEXITY_DISTRIBUTION"
  | fileComplexityDistribution => "FILE_COMPLEXITY_DISTRIBUTION"

/-- The measure of a name. -/
def ofName? (name : String) : Option Measure := all.find? fun m => m.name == name

/-- How a measure shows itself: its symbol and its name. -/
def shown (m : Measure) : String :=
  "<Measure." ++ m.symbol ++ ": \x27" ++ m.name ++ "\x27>"

/-- A measure is found by its name. -/
theorem ofName?_name (m : Measure) : ofName? m.name = some m := by
  cases m <;> rfl

end Measure

/-- The measures copied from the metrics of a file, in the order in which they are recorded. -/
def fileMeasures : List (Metric × Measure) :=
  [(.files, .files), (.lines, .lines), (.linesOfCode, .ncloc), (.statements, .statements),
    (.functions, .functions), (.classes, .classes), (.complexity, .complexity),
    (.commentBlankLines, .commentBlankLines), (.commentLines, .commentLines)]

/-- Every metric is copied onto some measure. -/
theorem mem_fileMeasures (m : Metric) : m ∈ fileMeasures.map Prod.fst := by
  cases m <;> simp [fileMeasures]

/-- Different metrics are copied onto different measures. -/
theorem nodup_fileMeasures : (fileMeasures.map Prod.snd).Nodup := by decide

/-- Where a recorded measure ends up: in full, in the database, or only in roll-ups. -/
inductive PersistenceMode
  | full
  | database
  | memory
  deriving DecidableEq, Repr

namespace PersistenceMode

/-- All modes, in their fixed order. -/
def all : List PersistenceMode := [full, database, memory]

/-- The name of a mode. -/
def name : PersistenceMode → String
  | full => "full"
  | database => "database"
  | memory => "memory"

/-- The symbol of a mode. -/
def symbol : PersistenceMode → String
  | full => "FULL"
  | database => "DATABASE"
  | memory => "MEMORY"

/-- The mode of a name. -/
def ofName? (name : String) : Option PersistenceMode := all.find? fun m => m.name == name

end PersistenceMode

/-- The kinds of source nodes. -/
inductive NodeKind
  | file
  | function
  | type
  deriving DecidableEq, Repr

namespace NodeKind

/-- All kinds, in their fixed order. -/
def all : List NodeKind := [file, function, type]

/-- The name of a kind in node dumps. -/
def name : NodeKind → String
  | file => "file"
  | function => "function"
  | type => "class"

/-- The symbol of a kind. -/
def symbol : NodeKind → String
  | file => "FILE"
  | function => "FUNCTION"
  | type => "CLASS"

/-- The kind of a name. -/
def ofName? (name : String) : Option NodeKind := all.find? fun k => k.name == name

end NodeKind

end SourceGauge
