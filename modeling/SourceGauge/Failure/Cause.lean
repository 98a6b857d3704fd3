import SourceGauge.Files.Tree
import SourceGauge.Json.Reader
import SourceGauge.Node.Id
import SourceGauge.Text.Utf8
import SourceGauge.Toml.Reader

/-!
# Causes of failure

Every way in which an operation can fail, as data. Most causes belong to a concept of the
library: bucket bounds, node descriptions, the index, settings, paths. The others say that a
value is of a kind that cannot be used (`Misfit`), that a value of the right kind is out of
order (`BadValue`), that a number is too large (`Overflow`), or that something is nested too
deep (`Nesting`). Each cause has one wording.
-/

namespace SourceGauge

/-- A value is of a kind that an operation cannot use. -/
inductive Misfit
  | notIterable (typeName : String)
  | notReal (typeName : String)
  | notOrdered (relation left right : String)
  | notAddable (left right : String)
  | unhashable (typeName : String)
  | notAPath (typeName : String)
  | notText (typeName : String)
  | notAPair (position : Nat)
  | unexpectedField (owner : String) (field : Text)
  | missingArguments (owner : String) (names : List String)
  | tooManyArguments (owner : String) (least most given : Nat)
  | repeatedArgument (owner name : String)
  deriving DecidableEq, Repr

/-- Names in quotes, the last two joined by a word. -/
def listedNames : List String → String
  | [] => ""
  | [a] => "\x27" ++ a ++ "\x27"
  | [a, b] => "\x27" ++ a ++ "\x27 and \x27" ++ b ++ "\x27"
  | names =>
    String.intercalate ", " (names.dropLast.map fun a => "\x27" ++ a ++ "\x27") ++ ", and \x27" ++
      names.getLast?.getD "" ++ "\x27"

/-- The wording of a misfit. -/
def Misfit.message : Misfit → Text
  | .notIterable typeName => "\x27" ++ typeName ++ "\x27 object is not iterable"
  | .notReal typeName => "must be real number, not " ++ typeName
  | .notOrdered relation left right =>
    "\x27" ++ relation ++ "\x27 not supported between instances of \x27" ++ left ++
      "\x27 and \x27" ++ right ++ "\x27"
  | .notAddable left right =>
    "unsupported operand type(s) for +: \x27" ++ left ++ "\x27 and \x27" ++ right ++ "\x27"
  | .unhashable typeName => "unhashable type: \x27" ++ typeName ++ "\x27"
  | .notAPath typeName => "expected str, bytes or os.PathLike object, not " ++ typeName
  | .notText typeName => "__str__ returned non-string (type " ++ typeName ++ ")"
  | .notAPair position =>
    "cannot convert dictionary update sequence element #" ++ toString position ++ " to a sequence"
  | .unexpectedField owner field =>
    owner ++ ".__init__() got an unexpected keyword argument \x27" ++ field ++ "\x27"
  | .missingArguments owner names =>
    owner ++ ".__init__() missing " ++ toString names.length ++ " required positional argument" ++
      (if names.length == 1 then "" else "s") ++ ": " ++ listedNames names
  | .tooManyArguments owner least most given =>
    owner ++ ".__init__() takes " ++
      (if least == most then toString most
        else "from " ++ toString least ++ " to " ++ toString most) ++
      " positional argument" ++ (if most == 1 then "" else "s") ++ " but " ++ toString given ++
      (if given == 1 then " was given" else " were given")
  | .repeatedArgument owner name =>
    owner ++ ".__init__() got multiple values for argument \x27" ++ name ++ "\x27"

/-- A value of the right kind is out of order. -/
inductive BadValue
  | countNotInteger (count : Value)
  | countsMismatch (counts bounds : Nat)
  | negativeCounts
  | badCount (count : Value)
  | notFinite (value : Number) (measure : Measure)
  | malformedEntry (entry : Text)
  | badReal (text : Text)
  | badInteger (text : Text)
  | tooManyDigits (count : Nat)
  | unprintableInteger
  | notAMember (value : Value) (vocabulary : String)
  | pairSize (position size : Nat)
  | unknownVerbosity (verbosity : Value)
  | embeddedNull

/-- How much of a text that is not a whole number is shown. -/
def shownNumeralSize : Nat := 200

/-- The wording of a bad value. -/
def BadValue.message : BadValue → String
  | .countNotInteger count => "count " ++ count.full ++ " is not an integer"
  | .countsMismatch counts bounds =>
    toString counts ++ " counts given for " ++ toString bounds ++ " boundaries"
  | .negativeCounts => "counts must be non-negative"
  | .badCount count => "count must be a non-negative integer, got " ++ count.full
  | .notFinite value measure =>
    "cannot add non-finite value " ++ value.text ++ " to " ++ measure.name
  | .malformedEntry entry => "malformed distribution entry " ++ Text.quote entry
  | .badReal text => "could not convert string to float: " ++ Text.quote text
  | .badInteger text =>
    "invalid literal for int() with base 10: " ++
      String.ofList ((Text.quoteChars text).take shownNumeralSize)
  | .tooManyDigits count =>
    "Exceeds the limit (4300 digits) for integer string conversion: value has " ++ toString count ++
      " digits; use sys.set_int_max_str_digits() to increase the limit"
  | .unprintableInteger =>
    "Exceeds the limit (4300 digits) for integer string conversion; " ++
      "use sys.set_int_max_str_digits() to increase the limit"
  | .notAMember value vocabulary => value.full ++ " is not a valid " ++ vocabulary
  | .pairSize position size =>
    "dictionary update sequence element #" ++ toString position ++ " has length " ++
      toString size ++ "; 2 is required"
  | .unknownVerbosity verbosity => "unknown verbosity " ++ verbosity.full
  | .embeddedNull => "embedded null byte"

/-- The cause that a text is not a whole number. -/
def BadValue.ofNumeralFault (text : Text) : Numeral.Fault → BadValue
  | .malformed => .badInteger text
  | .tooManyDigits count => .tooManyDigits count

/-- Read a whole number from text. -/
def BadValue.readWhole (text : Text) : Except BadValue Int :=
  (Numeral.readInt text.shownChars).mapError (.ofNumeralFault text)

/-- A number is too large. -/
inductive Overflow
  | real
  | word
  deriving DecidableEq, Repr

/-- The wording of an overflow. -/
def Overflow.message : Overflow → String
  | .real => "int too large to convert to float"
  | .word => "Python int too large to convert to C long"

/-- What is nested deeper than it can be gone through: a list or table of a node dump, the
values of a settings file, or a value that is to be shown. -/
inductive Nesting
  | dump (container : Json.Container)
  | settings
  | shown
  deriving DecidableEq, Repr

/-- The wording of what is nested too deep. -/
def Nesting.message : Nesting → String
  | .dump .list =>
    "maximum recursion depth exceeded while decoding a JSON array from a unicode string"
  | .dump .table =>
    "maximum recursion depth exceeded while decoding a JSON object from a unicode string"
  | .settings => "maximum recursion depth exceeded"
  | .shown => "maximum recursion depth exceeded while getting the repr of an object"

/-- Why a list of bucket bounds is refused. -/
inductive BoundsFault
  | empty
  | notFinite (bound : Value)
  | notIncreasing (lower upper : Number)
  | different (own : List Number)

/-- The wording of a fault in bucket bounds. -/
def BoundsFault.message : BoundsFault → String
  | .empty => "at least one boundary is required"
  | .notFinite bound => "boundary " ++ bound.full ++ " is not a finite number"
  | .notIncreasing lower upper =>
    "boundaries must be strictly increasing (" ++ lower.text ++ " >= " ++ upper.text ++ ")"
  | .different own => "cannot merge with bounds " ++ (Value.ofNumbers own).full

/-- Why a node description is refused. -/
inductive NodeFault
  | notAnObject (got : Value)
  | lacksField (name : String)
  | unknownKind (got : Value)
  | metricsNotAnObject (typeName : String)
  | unknownMetric (name : Text)
  | notNumeric (name : Text) (got : Value)
  | notAMetric (key : Value)
  | invalidMetric (metric : Metric) (value : Number)
  | parentNotAnObject (typeName : String)
  | invalidDocument (path : Path) (fault : Json.Fault)
  | noNodeList (path : Path)

/-- The wording of a fault in a node description. -/
def NodeFault.message : NodeFault → Text
  | .notAnObject got => "node reference must be an object, got " ++ got.full
  | .lacksField name => "node reference lacks " ++ Text.quote name
  | .unknownKind got => "unknown node kind " ++ got.full
  | .metricsNotAnObject typeName => "metrics must be an object, got " ++ typeName
  | .unknownMetric name => "unknown metric " ++ Text.quote name
  | .notNumeric name got => "metric " ++ name ++ " has non-numeric value " ++ got.full
  | .notAMetric key => "metric " ++ key.full ++ " is not a Metric"
  | .invalidMetric metric value => "metric " ++ metric.name ++ " has invalid value " ++ value.text
  | .parentNotAnObject typeName => "parent must be an object, got " ++ typeName
  | .invalidDocument path fault => "invalid JSON in " ++ path.text ++ ": " ++ fault.message
  | .noNodeList path => path.text ++ " does not contain a node list"

/-- Why a collection of nodes cannot be indexed. -/
inductive IndexFault
  | duplicate
  | noParent (kind : NodeKind)
  | unknownParent (parent : NodeId)
  | badNesting (kind parentKind : NodeKind)
  deriving DecidableEq, Repr

/-- The wording of a fault in a collection of nodes. -/
def IndexFault.message : IndexFault → Text
  | .duplicate => "duplicate node id"
  | .noParent kind => kind.name ++ " node has no parent"
  | .unknownParent parent => "parent " ++ parent.text ++ " is not in the index"
  | .badNesting kind parentKind =>
    kind.name ++ " node cannot be nested in a " ++ parentKind.name ++ " node"

/-- What a path was expected to lead to. -/
inductive PathFault
  | noProject
  | noSettings
  | noDump
  deriving DecidableEq, Repr

/-- The wording of a fault in a path. -/
def PathFault.message : PathFault → String
  | .noProject => "project base directory does not exist"
  | .noSettings => "config file not found"
  | .noDump => "node dump not found"

/-- The wording of a fault of the file system. -/
def FileFault.message (fault : FileFault) (path : Text) : String :=
  "[Errno " ++ toString fault.code ++ "] " ++ fault.wording ++ ": " ++ Text.quote path

/-- Why a setting is refused. -/
inductive SettingFault
  | belowOne
  | notAVerbosity
  | notAList
  | notAText
  | notALogFile
  | notATable
  | bounds (fault : BoundsFault)
  | misfit (cause : Misfit)
  | value (fault : BadValue)
  | document (fault : Toml.Fault)
  | unreadable (fault : FileFault) (path : Text)

/-- The wording of a fault in a setting. -/
def SettingFault.message : SettingFault → Text
  | .belowOne => "must be at least 1"
  | .notAVerbosity => "expected quiet, normal or verbose"
  | .notAList => "expected a list of strings"
  | .notAText => "expected a string"
  | .notALogFile => "expected a file path string"
  | .notATable => "expected a table"
  | .bounds fault => fault.message
  | .misfit cause => cause.message
  | .value fault => fault.message
  | .document fault => fault.message
  | .unreadable fault path => fault.message path

end SourceGauge
