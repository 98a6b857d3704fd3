import SourceGauge.Text.Basic
import SourceGauge.Text.Letters

/-!
# Blanks, trimming and lower case

Blanks are the characters that trimming takes off both ends of a text; numerals allow a
slightly smaller set around them, without the four information separators. Lower case is
given for whole texts, because a capital sigma has a form of its own at the end of a word.
Surrogates are no blanks and have no case.
-/

namespace SourceGauge.Text

/-- Whether trimming removes a character. -/
def isBlank (c : Char) : Bool :=
  inSpans c.toNat [(0x9, 0xd), (0x1c, 0x20), (0x85, 0x85), (0xa0, 0xa0), (0x1680, 0x1680),
    (0x2000, 0x200a), (0x2028, 0x2029), (0x202f, 0x202f), (0x205f, 0x205f), (0x3000, 0x3000)]

/-- Whether a character may surround a numeral. -/
def isNumeralBlank (c : Char) : Bool := isBlank c && !(0x1c ≤ c.toNat && c.toNat ≤ 0x1f)

variable {α : Type}

/-- Remove what satisfies `drop` from both ends. -/
def trimWhere (drop : α → Bool) (items : List α) : List α :=
  ((items.dropWhile drop).reverse.dropWhile drop).reverse

/-- Remove blanks from both ends of a text. -/
def trim (text : Text) : Text :=
  ⟨trimWhere (fun point => point.satisfies isBlank) text.points⟩

/-- Whether the first code point that case rules do not look through is a letter with case. -/
def nextIsCased (points : List CodePoint) : Bool :=
  (points.dropWhile fun point => point.satisfies isCaseIgnorable).head?.any fun point =>
    point.satisfies isCased

/-- Whether a capital sigma between `before` (read backwards) and `after` ends a word. -/
def endsWord (before after : List CodePoint) : Bool := nextIsCased before && !nextIsCased after

/-- Lower case of a code point between `before` (read backwards) and `after`. -/
def lowerPoint (before after : List CodePoint) : CodePoint → List CodePoint
  | .char 'Σ' => [.char (if endsWord before after then 'ς' else 'σ')]
  | .char c => (lowerChar c).map .char
  | .surrogate place => [.surrogate place]

/-- Lower case of what follows `before` (read backwards) in a text. -/
def lowerAfter (before : List CodePoint) : List CodePoint → List CodePoint
  | [] => []
  | point :: rest => lowerPoint before rest point ++ lowerAfter (point :: before) rest

/-- Lower case of a whole text. -/
def lowerCase (text : Text) : Text := ⟨lowerAfter [] text.points⟩

/-- Whether a text has an upper-case letter and no letter of another case. -/
def isUpperCase (text : Text) : Bool :=
  text.points.any (fun point => point.satisfies isUpper) &&
    !text.points.any fun point => point.satisfies fun c => isLower c || isTitle c

end SourceGauge.Text
