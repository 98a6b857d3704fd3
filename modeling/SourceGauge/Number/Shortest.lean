import SourceGauge.Number.Binary64

/-!
# Texts of binary64 values

A value is written with the fewest decimal digits that read back as it; of two such decimals
the nearer is taken, and of two equally near ones the even. For each number of digits only
the two neighbours of the value on that decimal grid need to be tried. A layout then says
which decimal exponents are written in place and how an exponent looks.
-/

namespace SourceGauge

/-- The decimal `digits * 10 ^ exponent`. -/
structure Decimal where
  digits : Nat
  exponent : Int
  deriving DecidableEq, Repr

/-- The value of a decimal with a sign. -/
def Decimal.toBinary64 (negative : Bool) (d : Decimal) : Binary64 :=
  .ofDecimal negative d.digits d.exponent

/-- Count the factors of ten that bring a number below one unit up to one, at most `fuel`. -/
def scaleToOne : (fuel : Nat) → Nat → Nat
  | 0, _ => 0
  | fuel + 1, units => if unitsPerOne ≤ units then 0 else scaleToOne fuel (units * 10) + 1

/-- The exponent `k` with `10 ^ (k - 1) ≤ value < 10 ^ k` for a positive number of units. -/
def decimalMagnitude (units : Nat) : Int :=
  if unitsPerOne ≤ units then Binary64.decimalSize (units / unitsPerOne)
  else 1 - (scaleToOne 330 units : Int)

/-- The value in steps of `10 ^ exponent`, as a quotient. -/
def stepsOf (units : Nat) (exponent : Int) : Nat × Nat :=
  if 0 ≤ exponent then (units, unitsPerOne * Nat.pow 10 exponent.toNat)
  else (units * Nat.pow 10 (-exponent).toNat, unitsPerOne)

/-- A point of the grid with `size` digits; the point beyond the last one is a power of ten and
is written with the single digit one. -/
def gridDecimal (size : Nat) (exponent : Int) (digits : Nat) : Decimal :=
  if digits = Nat.pow 10 size then ⟨1, exponent + size⟩ else ⟨digits, exponent⟩

/-- The decimal with `size` digits that reads back as the value and lies nearest to it. -/
def readingBack? (negative : Bool) (units size : Nat) : Option Decimal :=
  let exponent := decimalMagnitude units - size
  let steps := stepsOf units exponent
  let low := steps.1 / steps.2
  let nearest := roundDiv steps.1 steps.2
  let other := if nearest = low then low + 1 else low
  [nearest, other].findSome? fun digits =>
    let d := gridDecimal size exponent digits
    if d.toBinary64 negative = .ofUnits negative units then some d else none

/-- The shortest decimal that reads back as a positive number of units. Seventeen digits are
enough for every value; the exact expansion stands in where they would not be. -/
def shortestDecimal (negative : Bool) (units : Nat) : Decimal :=
  ((List.range' 1 17).findSome? (readingBack? negative units)).getD
    ⟨units * Nat.pow 5 1074, -1074⟩

/-- The choices of a number format. -/
structure RealLayout where
  /-- The least decimal exponent written in place. -/
  leastInPlace : Int
  /-- The first decimal exponent too large to be written in place. -/
  firstScientific : Int
  /-- The least number of digits of an exponent. -/
  exponentWidth : Nat

/-- Reals are written in place from `0.0001` to below ten to the sixteenth, and exponents have
a sign and at least two digits. -/
def realLayout : RealLayout := ⟨-4, 16, 2⟩

/-- The decimal digits of a natural number. -/
def digitChars (n : Nat) : List Char := Nat.toDigits 10 n

/-- Digits with the decimal point after `point` of them, `.0` or `0.` being filled in. -/
def placePoint (digits : List Char) (point : Int) : List Char :=
  if point ≤ 0 then '0' :: '.' :: (List.replicate (-point).toNat '0' ++ digits)
  else if digits.length ≤ point.toNat then
    digits ++ List.replicate (point.toNat - digits.length) '0' ++ ['.', '0']
  else digits.take point.toNat ++ '.' :: digits.drop point.toNat

/-- Digits in scientific form: a point after the first digit if more follow. -/
def scientific (width : Nat) (digits : List Char) (exponent : Int) : List Char :=
  let mantissa := match digits with
    | first :: second :: rest => first :: '.' :: second :: rest
    | short => short
  let size := digitChars exponent.natAbs
  mantissa ++ 'e' :: (if exponent < 0 then '-' else '+') ::
    (List.replicate (width - size.length) '0' ++ size)

/-- A positive decimal in a layout. -/
def Decimal.chars (layout : RealLayout) (d : Decimal) : List Char :=
  let digits := digitChars d.digits
  let exponent := d.exponent + digits.length - 1
  if layout.leastInPlace ≤ exponent ∧ exponent < layout.firstScientific then
    placePoint digits (exponent + 1)
  else scientific layout.exponentWidth digits exponent

namespace Binary64

/-- The sign of a negative value. -/
def signChars (negative : Bool) : List Char := if negative then ['-'] else []

/-- The text of a value. -/
def chars : Binary64 → List Char
  | .nan => ['n', 'a', 'n']
  | .infinite negative => signChars negative ++ ['i', 'n', 'f']
  | .finite negative units _ =>
    signChars negative ++
      if units = 0 then ['0', '.', '0']
      else (shortestDecimal negative units).chars realLayout

/-- The text of a value. -/
def text (x : Binary64) : String := String.ofList x.chars

/-- The text of a value rounded to an integer, a tie going to the even neighbour. -/
def wholeText : Binary64 → String
  | .nan => "nan"
  | .infinite negative => if negative then "-inf" else "inf"
  | .finite negative units _ =>
    String.ofList (signChars negative ++ digitChars (roundDiv units unitsPerOne))

end Binary64

/-- What is found with a given number of digits reads back. -/
theorem toBinary64_of_readingBack? {negative : Bool} {units size : Nat} {d : Decimal}
    (h : readingBack? negative units size = some d) :
    d.toBinary64 negative = .ofUnits negative units := by
  unfold readingBack? at h
  obtain ⟨digits, _, hdigits⟩ := List.exists_of_findSome?_eq_some h
  dsimp only at hdigits
  split at hdigits
  · rename_i hread
    injection hdigits with hd
    rw [← hd]
    exact hread
  · contradiction

end SourceGauge
