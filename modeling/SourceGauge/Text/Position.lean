/-!
# Positions in a text

Readers work on what is left of a text and report a fault by how much was left. The offset of
the fault, its line and its column are found from the whole text afterwards; lines and columns
count from one, and only a line feed ends a line.
-/

namespace SourceGauge.Text

/-- A place in a text. -/
structure Position where
  offset : Nat
  line : Nat
  column : Nat
  deriving DecidableEq, Repr

/-- The place at an offset of a text. -/
def positionAt (whole : List Char) (offset : Nat) : Position :=
  let before := whole.take offset
  { offset
    line := before.count '\n' + 1
    column := (before.reverse.takeWhile (· != '\n')).length + 1 }

/-- The place where so many characters of a text were left. -/
def positionWithLeft (whole : List Char) (left : Nat) : Position :=
  positionAt whole (whole.length - left)

/-- Line ends of two characters, and carriage returns alone, become line feeds. -/
def unifyLineEnds : List Char → List Char
  | '\r' :: '\n' :: rest => '\n' :: unifyLineEnds rest
  | '\r' :: rest => '\n' :: unifyLineEnds rest
  | c :: rest => c :: unifyLineEnds rest
  | [] => []

/-- Line ends of two characters become line feeds; other carriage returns stay. -/
def joinLineEnds : List Char → List Char
  | '\r' :: '\n' :: rest => '\n' :: joinLineEnds rest
  | c :: rest => c :: joinLineEnds rest
  | [] => []

/-- The value of a hexadecimal digit. -/
def hexValue? (c : Char) : Option Nat :=
  if '0' ≤ c && c ≤ '9' then some (c.toNat - 48)
  else if 'a' ≤ c && c ≤ 'f' then some (c.toNat - 87)
  else if 'A' ≤ c && c ≤ 'F' then some (c.toNat - 55)
  else none

/-- The number that hexadecimal digits denote; `none` if one of them is none. -/
def hexNumber? (cs : List Char) : Option Nat :=
  cs.foldl (fun n c => do return (← n) * 16 + (← hexValue? c)) (some 0)

/-- The text that starts with a word, after the word. -/
def afterWord? : (word : List Char) → List Char → Option (List Char)
  | [], rest => some rest
  | _ :: _, [] => none
  | w :: word, c :: rest => if w == c then afterWord? word rest else none

end SourceGauge.Text
