/-!
# Texts

A text is a sequence of code points. Most code points are characters. The others are
surrogates, the halves of pairs that together stand for one character; the escapes of a
document can give such a half on its own, and then it is kept as it is.

A `String` is a text of characters alone, and is read as one wherever a text is expected;
`toString?` leads back. Texts are ordered by the numbers of their code points.
-/

namespace SourceGauge

/-- A code point: a character, or the surrogate so many places after the first one. -/
inductive CodePoint
  | char (c : Char)
  | surrogate (place : Fin 0x800)
  deriving DecidableEq, Repr

instance : Coe Char CodePoint := ⟨.char⟩

namespace CodePoint

/-- The number of the first surrogate. -/
def firstSurrogate : Nat := 0xD800

/-- The number of a code point. -/
def code : CodePoint → Nat
  | char c => c.toNat
  | surrogate place => firstSurrogate + place.val

/-- The code point of a number. -/
def ofNat (code : Nat) : CodePoint :=
  if h : firstSurrogate ≤ code ∧ code - firstSurrogate < 0x800 then
    surrogate ⟨code - firstSurrogate, h.2⟩
  else char (Char.ofNat code)

/-- Whether a code point is a character with a property; surrogates have none. -/
def satisfies (property : Char → Bool) : CodePoint → Bool
  | char c => property c
  | surrogate _ => false

/-- The character that stands for a code point where only characters can stand. -/
def shown : CodePoint → Char
  | char c => c
  | surrogate _ => '\uFFFD'

/-- The code point of a number has that number. -/
theorem code_ofNat {n : Nat} (h : n < 0x110000) : (ofNat n).code = n := by
  unfold ofNat
  split
  · rename_i hn
    simp only [code, firstSurrogate] at hn ⊢
    omega
  · rename_i hn
    have hvalid : n.isValidChar := by
      simp only [firstSurrogate] at hn
      unfold Nat.isValidChar
      omega
    show (Char.ofNat n).toNat = n
    rw [Char.ofNat, dif_pos hvalid]
    rfl

/-- Different code points have different numbers. -/
theorem eq_of_code_eq {a b : CodePoint} (h : a.code = b.code) : a = b := by
  cases a with
  | char c =>
    have hc : c.toNat < 0xD800 ∨ 0xDFFF < c.toNat ∧ c.toNat < 0x110000 := c.valid
    cases b with
    | char d => rw [Char.ext (UInt32.toNat_inj.1 h)]
    | surrogate place =>
      have := place.isLt
      simp only [code, firstSurrogate] at h
      omega
  | surrogate place =>
    cases b with
    | char d =>
      have hd : d.toNat < 0xD800 ∨ 0xDFFF < d.toNat ∧ d.toNat < 0x110000 := d.valid
      have := place.isLt
      simp only [code, firstSurrogate] at h
      omega
    | surrogate other =>
      simp only [code, firstSurrogate] at h
      rw [Fin.ext (a := place) (b := other) (by omega)]

end CodePoint

/-- A sequence of code points. -/
structure Text where
  points : List CodePoint
  deriving DecidableEq, Repr

namespace Text

/-- The text of some characters. -/
def ofChars (cs : List Char) : Text := ⟨cs.map .char⟩

/-- A string as a text. -/
def ofString (s : String) : Text := ofChars s.toList

instance : Coe String Text := ⟨ofString⟩

instance : Append Text := ⟨fun a b => ⟨a.points ++ b.points⟩⟩

/-- Whether a text has no code points. -/
def isEmpty (text : Text) : Bool := text.points.isEmpty

/-- Whether a text starts with another one. -/
def startsWith (text start : Text) : Bool := start.points.isPrefixOf text.points

/-- Texts with a separator between them. -/
def intercalate (separator : Text) (texts : List Text) : Text :=
  ⟨List.intercalate separator.points (texts.map points)⟩

/-- The characters of a text, with a replacement for each surrogate. -/
def shownChars (text : Text) : List Char := text.points.map CodePoint.shown

/-- Code points as characters, if all of them are. -/
def charsOf? : List CodePoint → Option (List Char)
  | [] => some []
  | .char c :: rest => (charsOf? rest).map (c :: ·)
  | .surrogate _ :: _ => none

/-- A text as a string, if it has no surrogate. -/
def toString? (text : Text) : Option String := (charsOf? text.points).map String.ofList

/-- Whether a list of code points comes before another one in the order of numbers, or is the
same. -/
def pointsLe : List CodePoint → List CodePoint → Bool
  | [], _ => true
  | _ :: _, [] => false
  | a :: as, b :: bs => a.code < b.code || (a == b && pointsLe as bs)

/-- Whether a text comes before another one, or is the same. -/
def le (a b : Text) : Bool := pointsLe a.points b.points

/-- Texts with the same code points are equal. -/
theorem eq_of_points_eq {a b : Text} (h : a.points = b.points) : a = b := by
  cases a
  cases b
  simpa using h

@[simp] theorem points_append (a b : Text) : (a ++ b).points = a.points ++ b.points := rfl

/-- Characters are found in the code points that they make. -/
theorem charsOf?_map_char (cs : List Char) : charsOf? (cs.map .char) = some cs := by
  induction cs with
  | nil => rfl
  | cons c rest ih => simp [charsOf?, ih]

/-- Code points that are characters are made of them. -/
theorem eq_map_char_of_charsOf? {points : List CodePoint} {cs : List Char}
    (h : charsOf? points = some cs) : points = cs.map .char := by
  induction points generalizing cs with
  | nil =>
    simp only [charsOf?, Option.some.injEq] at h
    simp [← h]
  | cons point rest ih =>
    cases point with
    | surrogate place => simp [charsOf?] at h
    | char c =>
      obtain ⟨others, hothers, rfl⟩ := Option.map_eq_some_iff.1 h
      simp [ih hothers]

/-- A text is a string exactly if it comes from it. -/
theorem toString?_eq_some_iff {text : Text} {s : String} :
    text.toString? = some s ↔ text = ofString s := by
  constructor
  · intro h
    obtain ⟨cs, hcs, rfl⟩ := Option.map_eq_some_iff.1 h
    exact eq_of_points_eq (by simpa [ofString, ofChars] using eq_map_char_of_charsOf? hcs)
  · rintro rfl
    simp [toString?, ofString, ofChars, charsOf?_map_char]

/-- Of two lists of code points one comes first. -/
theorem pointsLe_total (as bs : List CodePoint) : (pointsLe as bs || pointsLe bs as) = true := by
  induction as generalizing bs with
  | nil => simp [pointsLe]
  | cons a as ih =>
    cases bs with
    | nil => simp [pointsLe]
    | cons b bs =>
      have hrest := ih bs
      simp only [Bool.or_eq_true] at hrest
      simp only [pointsLe, Bool.or_eq_true, Bool.and_eq_true, decide_eq_true_eq, beq_iff_eq]
      rcases Nat.lt_trichotomy a.code b.code with h | h | h
      · exact .inl (.inl h)
      · have hab := CodePoint.eq_of_code_eq h
        subst hab
        rcases hrest with hle | hle
        · exact .inl (.inr ⟨rfl, hle⟩)
        · exact .inr (.inr ⟨rfl, hle⟩)
      · exact .inr (.inl h)

/-- The order of lists of code points is transitive. -/
theorem pointsLe_trans {as bs cs : List CodePoint} (hab : pointsLe as bs = true)
    (hbc : pointsLe bs cs = true) : pointsLe as cs = true := by
  induction as generalizing bs cs with
  | nil => simp [pointsLe]
  | cons a as ih =>
    cases bs with
    | nil => simp [pointsLe] at hab
    | cons b bs =>
      cases cs with
      | nil => simp [pointsLe] at hbc
      | cons c cs =>
        simp only [pointsLe, Bool.or_eq_true, Bool.and_eq_true, decide_eq_true_eq,
          beq_iff_eq] at hab hbc ⊢
        rcases hab with hab | ⟨rfl, hab⟩
        · rcases hbc with hbc | ⟨rfl, _⟩
          · exact .inl (Nat.lt_trans hab hbc)
          · exact .inl hab
        · rcases hbc with hbc | ⟨rfl, hbc⟩
          · exact .inl hbc
          · exact .inr ⟨rfl, ih hab hbc⟩

/-- Lists of code points that come before each other are the same. -/
theorem pointsLe_antisymm {as bs : List CodePoint} (hab : pointsLe as bs = true)
    (hba : pointsLe bs as = true) : as = bs := by
  induction as generalizing bs with
  | nil =>
    cases bs with
    | nil => rfl
    | cons b bs => simp [pointsLe] at hba
  | cons a as ih =>
    cases bs with
    | nil => simp [pointsLe] at hab
    | cons b bs =>
      simp only [pointsLe, Bool.or_eq_true, Bool.and_eq_true, decide_eq_true_eq,
        beq_iff_eq] at hab hba
      rcases hab with hab | ⟨rfl, hab⟩
      · rcases hba with hba | ⟨rfl, _⟩
        · omega
        · omega
      · rcases hba with hba | ⟨_, hba⟩
        · omega
        · rw [ih hab hba]

/-- Of two texts one comes first. -/
theorem le_total (a b : Text) : (a.le b || b.le a) = true := pointsLe_total _ _

/-- The order of texts is transitive. -/
theorem le_trans {a b c : Text} (hab : a.le b = true) (hbc : b.le c = true) : a.le c = true :=
  pointsLe_trans hab hbc

/-- Texts that come before each other are the same. -/
theorem le_antisymm {a b : Text} (hab : a.le b = true) (hba : b.le a = true) : a = b :=
  eq_of_points_eq (pointsLe_antisymm hab hba)

end Text

end SourceGauge
