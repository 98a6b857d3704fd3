import SourceGauge.Failure.Basic
import SourceGauge.Text.Blank

/-!
# Spellings of metric names

A dump may spell a metric name in capitals, or in camel case: then every capital is rewritten
to an underscore and its small letter, and underscores at the front are dropped. A name in
capitals throughout is only made small, so its leading underscores stay.
-/

namespace SourceGauge.Metric

open Text

/-- A code point of camel case as small letters, with an underscore before those of a capital. -/
def splitPoint : CodePoint → List CodePoint
  | .char c => if isUpper c then ('_' :: lowerChar c).map .char else [.char c]
  | .surrogate place => [.surrogate place]

/-- Camel case rewritten to small letters and underscores. -/
def splitCamel (spelling : Text) : List CodePoint := spelling.points.flatMap splitPoint

/-- The name that a spelling stands for. -/
def normalize (spelling : Text) : Text :=
  if isUpperCase spelling then lowerCase spelling
  else ⟨(splitCamel spelling).dropWhile (· == .char '_')⟩

/-- The metric that a spelling stands for. -/
def ofSpelling? (spelling : Text) : Option Metric := (normalize spelling).toString?.bind ofName?

/-- The name of a metric is a spelling of it. -/
theorem ofSpelling?_name (metric : Metric) : ofSpelling? metric.name = some metric := by
  cases metric <;> rfl

/-- The metric that a value spells. -/
def parse (value : Value) : Except Failure Metric :=
  match value with
  | .text spelling =>
    match ofSpelling? spelling with
    | some metric => .ok metric
    | none => .error (.value (.notAMember (.text (normalize spelling)) "Metric"))
  | other => .error (.noMember other.typeName "isupper")

/-- A metric is parsed from the texts that it is found for. -/
theorem parse_text_eq_ok_iff {spelling : Text} {metric : Metric} :
    parse (.text spelling) = .ok metric ↔ ofSpelling? spelling = some metric := by
  cases h : ofSpelling? spelling with
  | none => simp [parse, h]
  | some found => simp [parse, h]

end SourceGauge.Metric
