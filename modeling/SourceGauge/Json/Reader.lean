import SourceGauge.Number.Numeral
import SourceGauge.Text.Position
import SourceGauge.OrderedMap
import SourceGauge.Value.Basic

/-!
# Node dump documents

Reading of JSON. Beside the standard values the words `NaN`, `Infinity` and `-Infinity` are
numbers. A repeated key takes the last value and the first place. Whole numbers may have at
most 4300 digits, and lists and tables may be nested 988 deep. A fault names what was expected
and where; of several faults the first in the text is reported.

Two escapes that form a pair of surrogates give one character; any other escaped surrogate
stays a code point of its own.
-/

namespace SourceGauge.Json

/-- What is wrong with a document. -/
inductive Reason
  | expectingValue
  | expectingName
  | expectingColon
  | expectingComma
  | unterminatedString
  | controlCharacter
  | badEscape
  | badUnicodeEscape
  | extraData
  | byteOrderMark
  deriving DecidableEq, Repr

/-- The wording of a reason. -/
def Reason.wording : Reason → String
  | .expectingValue => "Expecting value"
  | .expectingName => "Expecting property name enclosed in double quotes"
  | .expectingColon => "Expecting \x27:\x27 delimiter"
  | .expectingComma => "Expecting \x27,\x27 delimiter"
  | .unterminatedString => "Unterminated string starting at"
  | .controlCharacter => "Invalid control character at"
  | .badEscape => "Invalid \\escape"
  | .badUnicodeEscape => "Invalid \\uXXXX escape"
  | .extraData => "Extra data"
  | .byteOrderMark => "Unexpected UTF-8 BOM (decode using utf-8-sig)"

/-- What can be nested. -/
inductive Container
  | list
  | table
  deriving DecidableEq, Repr

/-- Why a text is not a document: it is malformed where so many characters are left, a whole
number in it has too many digits, or a list or table in it is nested too deep. -/
inductive Stop
  | malformed (reason : Reason) (left : Nat)
  | tooManyDigits (count : Nat)
  | tooDeep (container : Container)
  deriving DecidableEq, Repr

/-- The fault of a malformed text, at the start of what is left. -/
def malformed {α : Type} (reason : Reason) (rest : List Char) : Except Stop α :=
  .error (.malformed reason rest.length)

/-- Whether a character may stand between tokens. -/
def isSpace (c : Char) : Bool := c == ' ' || c == '\t' || c == '\n' || c == '\r'

/-- Skip the space before a token. -/
def skipSpace (cs : List Char) : List Char := cs.dropWhile isSpace

/-- The character that a one-letter escape stands for. -/
def escaped? : Char → Option Char
  | '"' => some '"'
  | '\\' => some '\\'
  | '/' => some '/'
  | 'b' => some '\x08'
  | 'f' => some '\x0c'
  | 'n' => some '\n'
  | 'r' => some '\r'
  | 't' => some '\t'
  | _ => none

/-- Read the four digits of an escape after its letter; a character must follow them. -/
def readFour (afterLetter : List Char) : Except Stop (Nat × List Char) :=
  let digits := afterLetter.take 4
  let rest := afterLetter.drop 4
  if rest.isEmpty then .error (.malformed .badUnicodeEscape (afterLetter.length + 1))
  else match Text.hexNumber? digits with
    | some n => .ok (n, rest)
    | none => .error (.malformed .badUnicodeEscape (afterLetter.length + 1))

/-- Read the escape after `\u`: one code point, or two that form a pair of surrogates. -/
def readUnicode (afterLetter : List Char) : Except Stop (CodePoint × List Char) := do
  let (first, rest) ← readFour afterLetter
  match rest with
  | '\\' :: 'u' :: second =>
    if 0xD800 ≤ first && first ≤ 0xDBFF && 4 < second.length then do
      let (low, after) ← readFour second
      if 0xDC00 ≤ low && low ≤ 0xDFFF then
        return (.ofNat (0x10000 + (first - 0xD800) * 0x400 + (low - 0xDC00)), after)
      else return (.ofNat first, rest)
    else return (.ofNat first, rest)
  | _ => return (.ofNat first, rest)

/-- Read the code points of a string up to its closing quote. `opening` is what was left at the
opening quote. -/
def readString (opening : Nat) :
    (fuel : Nat) → List Char → Except Stop (List CodePoint × List Char)
  | 0, _ => .error (.malformed .unterminatedString opening)
  | _, [] => .error (.malformed .unterminatedString opening)
  | _, '"' :: rest => .ok ([], rest)
  | fuel + 1, '\\' :: rest =>
    match rest with
    | [] => .error (.malformed .unterminatedString opening)
    | 'u' :: afterLetter => do
      let (point, after) ← readUnicode afterLetter
      let (points, last) ← readString opening fuel after
      return (point :: points, last)
    | letter :: after =>
      match escaped? letter with
      | none => malformed .badEscape ('\\' :: rest)
      | some c => do
        let (points, last) ← readString opening fuel after
        return (.char c :: points, last)
  | fuel + 1, c :: rest =>
    if c.toNat ≤ 0x1f then malformed .controlCharacter (c :: rest)
    else do
      let (points, last) ← readString opening fuel rest
      return (.char c :: points, last)

/-- Read a string after its opening quote. -/
def readText (cs : List Char) : Except Stop (Text × List Char) := do
  let (points, rest) ← readString (cs.length + 1) (cs.length + 1) cs
  return (⟨points⟩, rest)

/-- The digits at the front of a text and what follows them. -/
def takeDigits (cs : List Char) : List Char × List Char :=
  (cs.takeWhile Char.isDigit, cs.dropWhile Char.isDigit)

/-- The fraction of a number, with its point, if a digit follows the point. -/
def takeFraction : List Char → List Char × List Char
  | '.' :: rest =>
    match takeDigits rest with
    | ([], _) => ([], '.' :: rest)
    | (digits, after) => ('.' :: digits, after)
  | rest => ([], rest)

/-- The exponent of a number, with its mark and sign, if a digit follows them. -/
def takeExponent : List Char → List Char × List Char
  | [] => ([], [])
  | mark :: rest =>
    if mark == 'e' || mark == 'E' then
      let (sign, body) := match rest with
        | '-' :: body => (['-'], body)
        | '+' :: body => ([], body)
        | body => ([], body)
      match takeDigits body with
      | ([], _) => ([], mark :: rest)
      | (digits, after) => ('e' :: (sign ++ digits), after)
    else ([], mark :: rest)

/-- Read a number: a whole number without superfluous zeros, then a fraction and an exponent,
each only if it is complete. -/
def readNumber (start : List Char) : Except Stop (Number × List Char) :=
  let (sign, body) := match start with
    | '-' :: rest => (['-'], rest)
    | rest => ([], rest)
  let (whole, afterWhole) := match body with
    | '0' :: rest => (['0'], rest)
    | rest => takeDigits rest
  if whole.isEmpty then malformed .expectingValue start
  else
    let (fraction, afterFraction) := takeFraction afterWhole
    let (exponent, rest) := takeExponent afterFraction
    if fraction.isEmpty && exponent.isEmpty then
      match Numeral.readInt (sign ++ whole) with
      | .ok n => .ok (.int n, rest)
      | .error (.tooManyDigits count) => .error (.tooManyDigits count)
      | .error .malformed => malformed .expectingValue start
    else
      match Numeral.readReal (sign ++ whole ++ fraction ++ exponent) with
      | some x => .ok (.real x, rest)
      | none => malformed .expectingValue start

/-- The words that stand for a value. -/
def words : List (String × Value) :=
  [("null", .null), ("true", .number (.flag true)), ("false", .number (.flag false)),
    ("NaN", .number (.real .nan)), ("Infinity", .number (.real (.infinite false))),
    ("-Infinity", .number (.real (.infinite true)))]

/-- Read a word that stands for a value. -/
def readWord? (cs : List Char) : Option (Value × List Char) :=
  words.findSome? fun (word, value) =>
    (Text.afterWord? word.toList cs).map fun rest => (value, rest)

/-- How deep lists and tables may be nested. -/
def maxDepth : Nat := 988

mutual

/-- Read a value; no space is skipped before it. `room` is how many lists and tables may still
be nested in one another. -/
def readValue : (fuel room : Nat) → List Char → Except Stop (Value × List Char)
  | 0, _, cs => malformed .expectingValue cs
  | fuel + 1, room, cs =>
    match cs with
    | '"' :: rest => do
      let (s, after) ← readText rest
      return (.text s, after)
    | '{' :: rest =>
      match room with
      | 0 => .error (.tooDeep .table)
      | inner + 1 =>
        match skipSpace rest with
        | '}' :: after => .ok (.table [], after)
        | inside => do
          let (entries, after) ← readMembers fuel inner [] inside
          return (.table entries, after)
    | '[' :: rest =>
      match room with
      | 0 => .error (.tooDeep .list)
      | inner + 1 =>
        match skipSpace rest with
        | ']' :: after => .ok (.list [], after)
        | inside => do
          let (items, after) ← readItems fuel inner inside
          return (.list items, after)
    | _ =>
      match readWord? cs with
      | some (value, rest) => .ok (value, rest)
      | none => do
        let (n, rest) ← readNumber cs
        return (.number n, rest)

/-- Read the items of a list and its closing bracket. -/
def readItems : (fuel room : Nat) → List Char → Except Stop (List Value × List Char)
  | 0, _, cs => malformed .expectingValue cs
  | fuel + 1, room, cs => do
    let (item, afterItem) ← readValue fuel room cs
    match skipSpace afterItem with
    | ']' :: rest => return ([item], rest)
    | ',' :: rest => do
      let (items, after) ← readItems fuel room (skipSpace rest)
      return (item :: items, after)
    | rest => malformed .expectingComma rest

/-- Read the members of a table and its closing brace, putting them to those already read. -/
def readMembers : (fuel room : Nat) → List (Text × Value) → List Char →
    Except Stop (List (Text × Value) × List Char)
  | 0, _, _, cs => malformed .expectingName cs
  | fuel + 1, room, entries, cs =>
    match cs with
    | '"' :: afterQuote => do
      let (key, afterKey) ← readText afterQuote
      match skipSpace afterKey with
      | ':' :: afterColon => do
        let (value, afterValue) ← readValue fuel room (skipSpace afterColon)
        let more := putEntry key value entries
        match skipSpace afterValue with
        | '}' :: rest => return (more, rest)
        | ',' :: rest => readMembers fuel room more (skipSpace rest)
        | rest => malformed .expectingComma rest
      | rest => malformed .expectingColon rest
    | rest => malformed .expectingName rest

end

/-- Read a text that holds one value and space around it. -/
def readDocument (room : Nat) (cs : List Char) : Except Stop Value :=
  match cs with
  | '\uFEFF' :: _ => malformed .byteOrderMark cs
  | _ => do
    let (value, rest) ← readValue (2 * cs.length + 2) room (skipSpace cs)
    let tail := skipSpace rest
    if tail.isEmpty then return value else malformed .extraData tail

/-- A malformed document: what is wrong with it, and where. -/
structure Fault where
  reason : Reason
  position : Text.Position
  deriving DecidableEq, Repr

/-- The wording of a fault. -/
def Fault.message (fault : Fault) : String :=
  fault.reason.wording ++ ": line " ++ toString fault.position.line ++ " column " ++
    toString fault.position.column ++ " (char " ++ toString fault.position.offset ++ ")"

/-- Why a text cannot be used as a document. -/
inductive Refusal
  | fault (fault : Fault)
  | tooManyDigits (count : Nat)
  | tooDeep (container : Container)
  deriving DecidableEq, Repr

/-- Read a document in which lists and tables are nested at most so deep. -/
def readWithin (room : Nat) (cs : List Char) : Except Refusal Value :=
  match readDocument room cs with
  | .ok value => .ok value
  | .error (.malformed reason left) => .error (.fault ⟨reason, Text.positionWithLeft cs left⟩)
  | .error (.tooManyDigits count) => .error (.tooManyDigits count)
  | .error (.tooDeep container) => .error (.tooDeep container)

/-- Read a document. -/
def read (cs : List Char) : Except Refusal Value := readWithin maxDepth cs

end SourceGauge.Json
