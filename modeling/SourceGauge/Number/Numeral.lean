import SourceGauge.Text.Blank
import SourceGauge.Text.Digits
import SourceGauge.Number.Binary64

/-!
# Numerals

Reading of whole numbers and reals from text. Blanks around a numeral are skipped, the digits
of any script count, and single underscores may stand between digits. A whole number may have
at most 4300 digits; a real may have any number of them and is rounded once.
-/

namespace SourceGauge.Numeral

open Text

/-- Why a text is not a whole number. -/
inductive Fault
  | malformed
  | tooManyDigits (count : Nat)
  deriving DecidableEq, Repr

/-- The most digits a whole number may be written with. -/
def maxDigits : Nat := 4300

/-- A digit of any script in its first form; other characters stay. -/
def plainDigit (c : Char) : Char :=
  match digitValue? c with
  | some d => Char.ofNat (48 + d)
  | none => c

/-- The number that a list of digits denotes, underscores being skipped. -/
def ofDigits (cs : List Char) : Nat :=
  cs.foldl (fun n c => if c.isDigit then n * 10 + (c.toNat - 48) else n) 0

/-- Take an optional sign; `true` is minus. -/
def takeSign : List Char → Bool × List Char
  | '-' :: rest => (true, rest)
  | '+' :: rest => (false, rest)
  | rest => (false, rest)

/-- Whether every underscore stands between two digits. `before` tells whether the character
before the text is a digit. -/
def underscoresBetween (before : Bool) : List Char → Bool
  | [] => true
  | '_' :: rest =>
    before && (match rest with | c :: _ => c.isDigit | [] => false) &&
      underscoresBetween false rest
  | c :: rest => underscoresBetween c.isDigit rest

/-- Read a whole number written in decimal. -/
def readInt (cs : List Char) : Except Fault Int :=
  let (negative, body) := takeSign ((trimWhere isNumeralBlank cs).map plainDigit)
  let isPart := fun c : Char => c.isDigit || c == '_'
  let run := body.takeWhile isPart
  let count := (run.filter Char.isDigit).length
  if run.isEmpty || !underscoresBetween false run then .error .malformed
  else if maxDigits < count then .error (.tooManyDigits count)
  else if !(body.dropWhile isPart).isEmpty then .error .malformed
  else .ok (if negative then -(ofDigits run : Int) else ofDigits run)

/-- Read the exponent part of a real: nothing, or `e`, an optional sign and digits. -/
def readExponent : List Char → Option Int
  | [] => some 0
  | mark :: rest =>
    let (negative, digits) := takeSign rest
    if (mark == 'e' || mark == 'E') && !digits.isEmpty && digits.all Char.isDigit then
      some (if negative then -(ofDigits digits : Int) else ofDigits digits)
    else none

/-- Read digits with an optional point and exponent; at least one digit must stand before the
exponent. -/
def readDecimal (negative : Bool) (cs : List Char) : Option Binary64 :=
  let whole := cs.takeWhile Char.isDigit
  let afterWhole := cs.dropWhile Char.isDigit
  let (fraction, tail) := match afterWhole with
    | '.' :: rest => (rest.takeWhile Char.isDigit, rest.dropWhile Char.isDigit)
    | rest => ([], rest)
  if whole.isEmpty && fraction.isEmpty then none
  else (readExponent tail).map fun exponent =>
    .ofDecimal negative (ofDigits (whole ++ fraction)) (exponent - fraction.length)

/-- Read an unsigned real: infinity, NaN or a decimal. Letters may have either case. -/
def readUnsigned (negative : Bool) (cs : List Char) : Option Binary64 :=
  let word := String.ofList (cs.map Char.toLower)
  if word == "inf" || word == "infinity" then some (.infinite negative)
  else if word == "nan" then some .nan
  else readDecimal negative cs

/-- Read a real. -/
def readReal (cs : List Char) : Option Binary64 :=
  let body := (trimWhere isNumeralBlank cs).map plainDigit
  if underscoresBetween false body then
    let (negative, rest) := takeSign (body.filter (· != '_'))
    readUnsigned negative rest
  else none

end SourceGauge.Numeral
