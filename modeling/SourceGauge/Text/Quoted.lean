import SourceGauge.Text.Basic
import SourceGauge.Text.Printable

/-!
# Quoted text

The form in which messages show a text inside quotes. Single quotes surround it, unless it
holds a single quote and no double quote. The surrounding quote, the backslash and every
unprintable character are escaped, by their short name or by two, four or eight hexadecimal
digits. So is every surrogate: a quoted text is made of characters alone.
-/

namespace SourceGauge.Text

/-- The hexadecimal digit of a value below sixteen. -/
def hexDigit (d : Nat) : Char :=
  if d < 10 then Char.ofNat (48 + d) else Char.ofNat (87 + d)

/-- The last `width` hexadecimal digits of a number, most significant first. -/
def hexDigits : (width : Nat) → Nat → List Char
  | 0, _ => []
  | width + 1, n => hexDigits width (n / 16) ++ [hexDigit (n % 16)]

/-- A number of digits is written exactly. -/
theorem hexDigits_length (width n : Nat) : (hexDigits width n).length = width := by
  induction width generalizing n with
  | zero => rfl
  | succ width ih => simp [hexDigits, ih]

/-- The numbered escape of a code point: the shortest of the three forms that holds it. -/
def numberedEscape (code : Nat) : List Char :=
  if code < 0x100 then '\\' :: 'x' :: hexDigits 2 code
  else if code < 0x10000 then '\\' :: 'u' :: hexDigits 4 code
  else '\\' :: 'U' :: hexDigits 8 code

/-- One character inside quotes of the given kind. -/
def quoteChar (mark c : Char) : List Char :=
  if c == mark || c == '\\' then ['\\', c]
  else if c == '\n' then ['\\', 'n']
  else if c == '\r' then ['\\', 'r']
  else if c == '\t' then ['\\', 't']
  else if isPrintable c then [c]
  else numberedEscape c.toNat

/-- One code point inside quotes of the given kind. -/
def quotePoint (mark : Char) (point : CodePoint) : List Char :=
  match point with
  | .char c => quoteChar mark c
  | .surrogate _ => numberedEscape point.code

/-- The quotes that surround a text. -/
def quoteMark (text : Text) : Char :=
  if text.points.contains '\x27' && !text.points.contains '"' then '"' else '\x27'

/-- A text in quotes. -/
def quoteChars (text : Text) : List Char :=
  let mark := quoteMark text
  mark :: (text.points.flatMap (quotePoint mark) ++ [mark])

/-- A text in quotes. -/
def quote (text : Text) : String := String.ofList (quoteChars text)

/-- A quote inside the text never makes it end early: the mark itself is escaped. -/
theorem quoteChar_mark (mark : Char) : quoteChar mark mark = ['\\', mark] := by
  simp [quoteChar]

end SourceGauge.Text
