import Mathlib.Data.List.Basic
import SourceGauge.Metric.Spelling

/-!
# The grammar of metric names

The spellings of a metric, among texts of ASCII characters, are its name in capitals throughout, and
any number of underscores in front of its name, where the first letter may be a capital and any
underscore may be joined with the letter after it to a capital. A metric is read from these
spellings and from no others.

A text in capitals throughout is only made small, and other texts have every capital split into an
underscore and its small letter. The two ways do not meet: the second letter of a name is never
joined with anything, so that a spelling of the second kind always has a small letter.

Other alphabets are left out: there are characters beyond ASCII whose small letter is an ASCII one.
-/

namespace SourceGauge

/-! ## Texts of ASCII characters -/

/-- All characters are ASCII ones. -/
def IsAscii (cs : List Char) : Prop := ∀ c ∈ cs, c.toNat < 128

instance (cs : List Char) : Decidable (IsAscii cs) := List.decidableBAll _ cs

theorem isAscii_cons {c : Char} {cs : List Char} :
    IsAscii (c :: cs) ↔ c.toNat < 128 ∧ IsAscii cs := List.forall_mem_cons

/-- What is checked for the first 128 characters holds of every ASCII one. -/
@[elab_as_elim]
theorem of_lt_128 {motive : Char → Prop} (c : Char) (hc : c.toNat < 128)
    (h : ∀ n < 128, motive (.ofNat n)) : motive c := by
  have hchar := h c.toNat hc
  rwa [Char.ofNat_toNat] at hchar

namespace Text

/-- The tables of letter case say of ASCII characters what is built in for them. -/
theorem case_eq_of_lt_128 {c : Char} (hc : c.toNat < 128) :
    isUpper c = c.isUpper ∧ (isLower c || isTitle c) = c.isLower ∧ lowerChar c = [c.toLower] :=
  of_lt_128 c hc (by decide +kernel)

/-- Only a capital sigma is made small with a view to what surrounds it. -/
theorem lowerPoint_char {c : Char} (hc : c ≠ 'Σ') (before after : List CodePoint) :
    lowerPoint before after (.char c) = (lowerChar c).map .char := by
  unfold lowerPoint
  split
  · rename_i h
    exact absurd (CodePoint.char.inj h) hc
  · rename_i h
    rw [CodePoint.char.inj h]
  · rename_i h
    cases h

/-- ASCII characters are made small one by one. -/
theorem lowerCase_ofChars {cs : List Char} (hascii : IsAscii cs) :
    lowerCase (ofChars cs) = ofChars (cs.map Char.toLower) := by
  have hafter : ∀ before, lowerAfter before (cs.map .char) = (cs.map Char.toLower).map .char := by
    induction cs with
    | nil => intro before; rfl
    | cons c rest ih =>
      intro before
      obtain ⟨hc, hrest⟩ := isAscii_cons.1 hascii
      have hsigma : c ≠ 'Σ' := by
        rintro rfl
        exact absurd hc (by decide)
      rw [List.map_cons, lowerAfter, lowerPoint_char hsigma, (case_eq_of_lt_128 hc).2.2, ih hrest]
      rfl
  exact eq_of_points_eq (hafter [])

/-- A text of ASCII characters is in capitals if it has a capital and no small letter. -/
theorem isUpperCase_ofChars_iff {cs : List Char} (hascii : IsAscii cs) :
    isUpperCase (ofChars cs) = true ↔
      (∃ c ∈ cs, c.isUpper = true) ∧ ∀ c ∈ cs, c.isLower = false := by
  have hupper : ∀ c ∈ cs, isUpper c = c.isUpper := fun c hc => (case_eq_of_lt_128 (hascii c hc)).1
  have hlower : ∀ c ∈ cs, (isLower c || isTitle c) = c.isLower := fun c hc =>
    (case_eq_of_lt_128 (hascii c hc)).2.1
  simp only [isUpperCase, ofChars, List.any_map, Bool.and_eq_true, Bool.not_eq_true',
    List.any_eq_true, List.any_eq_false, Function.comp_apply, CodePoint.satisfies]
  constructor
  · rintro ⟨⟨c, hc, hcapital⟩, hnone⟩
    exact ⟨⟨c, hc, hupper c hc ▸ hcapital⟩, fun d hd => hlower d hd ▸ by simpa using hnone d hd⟩
  · rintro ⟨⟨c, hc, hcapital⟩, hnone⟩
    exact ⟨⟨c, hc, (hupper c hc).trans hcapital⟩, fun d hd => by simp [hlower d hd, hnone d hd]⟩

/-- Characters make the text of a string if they are its characters. -/
theorem ofChars_eq_ofString_iff {cs : List Char} {s : String} :
    ofChars cs = ofString s ↔ cs = s.toList := by
  constructor
  · intro h
    have hchars := congrArg (fun text => charsOf? text.points) h
    simpa [ofChars, ofString, charsOf?_map_char] using hchars
  · rintro rfl
    rfl

end Text

namespace Metric

open Text

/-- An ASCII character of camel case as small letters, with an underscore before that of a
capital. -/
def splitChar (c : Char) : List Char := if c.isUpper then ['_', c.toLower] else [c]

/-- Capitals and small letters are ASCII characters. -/
theorem lt_128_of_letter {c : Char} (h : c.isUpper = true ∨ c.isLower = true) : c.toNat < 128 := by
  have hlast : c.val ≤ 'z'.val := by
    cases h with
    | inl hupper =>
      have hcapital : c.val ≤ 'Z'.val := (of_decide_eq_true hupper).2
      exact UInt32.le_trans hcapital (by decide)
    | inr hlower => exact of_decide_eq_true (Bool.and_eq_true_iff.1 hlower).2
  exact Nat.lt_of_le_of_lt (UInt32.le_iff_toNat_le.1 hlast) (by decide)

/-- Making an ASCII character a small letter or a capital can be undone, unless it was a small
letter or a capital before. No letter is both. -/
theorem letter_of_lt_128 {c : Char} (hc : c.toNat < 128) :
    (c.isLower = false → c.toLower.toUpper = c) ∧ (c.isUpper = false → c.toUpper.toLower = c) ∧
      (c.isUpper = true → c.isLower = false ∧ c.toLower.isLower = true) ∧
      (c.isLower = true → c.isUpper = false ∧ c.toUpper.isUpper = true) ∧
      c.toUpper.isLower = false :=
  of_lt_128 c hc (by decide +kernel)

/-- A capital is that of a small letter. -/
theorem exists_eq_toUpper {c : Char} (h : c.isUpper = true) :
    ∃ d : Char, d.isLower = true ∧ c = d.toUpper := by
  obtain ⟨hundone, -, hcapital, -⟩ := letter_of_lt_128 (lt_128_of_letter (.inl h))
  obtain ⟨hother, hsmall⟩ := hcapital h
  exact ⟨c.toLower, hsmall, (hundone hother).symm⟩

/-- A small letter is no capital. -/
theorem isUpper_eq_false_of_isLower {c : Char} (h : c.isLower = true) : c.isUpper = false := by
  obtain ⟨-, -, -, hsmall, -⟩ := letter_of_lt_128 (lt_128_of_letter (.inr h))
  exact (hsmall h).1

/-- The capital of a small letter is split into an underscore and the letter. -/
theorem splitChar_toUpper {c : Char} (h : c.isLower = true) : splitChar c.toUpper = ['_', c] := by
  obtain ⟨-, hundone, -, hsmall, -⟩ := letter_of_lt_128 (lt_128_of_letter (.inr h))
  obtain ⟨hother, hcapital⟩ := hsmall h
  rw [splitChar, if_pos hcapital, hundone hother]

/-- What is no capital is not split. -/
theorem splitChar_of_not_isUpper {c : Char} (h : ¬c.isUpper = true) : splitChar c = [c] := by
  rw [splitChar, if_neg h]

/-- Camel case of ASCII characters is rewritten one by one. -/
theorem splitCamel_ofChars {cs : List Char} (hascii : IsAscii cs) :
    splitCamel (ofChars cs) = (cs.flatMap splitChar).map .char := by
  simp only [splitCamel, ofChars, List.flatMap_map, List.map_flatMap]
  refine List.flatMap_congr fun c hc => ?_
  obtain ⟨hupper, -, hlower⟩ := case_eq_of_lt_128 (hascii c hc)
  simp only [splitPoint, splitChar, hupper, hlower]
  split <;> rfl

/-- A metric is found where the rewritten spelling is its name. -/
theorem ofSpelling?_eq_some_iff {spelling : Text} {metric : Metric} :
    ofSpelling? spelling = some metric ↔ normalize spelling = metric.name := by
  rw [ofSpelling?, Option.bind_eq_some_iff]
  constructor
  · rintro ⟨name, hname, hmetric⟩
    have hfound : metric.name = name := by simpa using List.find?_some hmetric
    rw [hfound]
    exact toString?_eq_some_iff.1 hname
  · intro h
    exact ⟨metric.name, toString?_eq_some_iff.2 h, ofName?_name metric⟩

/-! ## Spellings -/

/-- A spelling of a name: underscores may be joined with the letters after them to capitals. -/
inductive Joined : (name spelling : List Char) → Prop
  | nil : Joined [] []
  | kept {c : Char} {name spelling : List Char} (rest : Joined name spelling) :
    Joined (c :: name) (c :: spelling)
  | capital {c : Char} {name spelling : List Char} (hletter : c.isLower = true)
      (rest : Joined name spelling) : Joined ('_' :: c :: name) (c.toUpper :: spelling)

/-- The spellings of a metric: its name in capitals, and underscores before its name with any of
its own underscores joined, where the first letter may be a capital. -/
inductive Spells (metric : Metric) : (spelling : List Char) → Prop
  | capitals : Spells metric (metric.name.toList.map Char.toUpper)
  | camel (underscores : Nat) {first initial : Char} {name spelling : List Char}
      (hname : metric.name.toList = first :: name)
      (hinitial : initial = first ∨ initial = first.toUpper) (hjoined : Joined name spelling) :
    Spells metric (List.replicate underscores '_' ++ initial :: spelling)

/-- The name of a metric starts with two small letters, has no capital, and does not end in an
underscore. -/
theorem exists_name_toList (metric : Metric) :
    ∃ first second rest, metric.name.toList = first :: second :: rest ∧ first.isLower = true ∧
      second.isLower = true ∧ (∀ c ∈ second :: rest, c.isUpper = false) ∧
      (second :: rest).getLast? ≠ some '_' := by
  have hnone {cs : List Char} (h : cs.any Char.isUpper = false) : ∀ c ∈ cs, c.isUpper = false := by
    simpa only [List.any_eq_false, Bool.not_eq_true] using h
  cases metric <;>
    exact ⟨_, _, _, String.toList_ofList, by decide, by decide, hnone (by decide), by decide⟩

/-- The names of metrics are ASCII. -/
theorem isAscii_name (metric : Metric) : IsAscii metric.name.toList := by
  cases metric <;> decide +kernel

/-- Splitting the capitals of a spelling leads back to the name, if the name has none itself. -/
theorem joined_iff {name spelling : List Char} (hname : ∀ c ∈ name, c.isUpper = false) :
    Joined name spelling ↔ spelling.flatMap splitChar = name := by
  constructor
  · intro h
    induction h with
    | nil => rfl
    | kept rest ih =>
      obtain ⟨hc, hrest⟩ := List.forall_mem_cons.1 hname
      rw [List.flatMap_cons, ih hrest, splitChar_of_not_isUpper (by simp [hc])]
      rfl
    | capital hletter rest ih =>
      obtain ⟨-, hrest⟩ := List.forall_mem_cons.1 (List.forall_mem_cons.1 hname).2
      rw [List.flatMap_cons, ih hrest, splitChar_toUpper hletter]
      rfl
  · rintro rfl
    clear hname
    induction spelling with
    | nil => exact .nil
    | cons c rest ih =>
      rw [List.flatMap_cons]
      by_cases hc : c.isUpper = true
      · obtain ⟨d, hd, rfl⟩ := exists_eq_toUpper hc
        rw [splitChar_toUpper hd]
        exact .capital hd ih
      · rw [splitChar_of_not_isUpper hc]
        exact .kept ih

/-- Underscores are taken off up to the first small letter. -/
theorem dropWhile_cons_letter {c : Char} (h : c.isLower = true) (cs : List Char) :
    (c :: cs).dropWhile (· == '_') = c :: cs := by
  refine List.dropWhile_cons_of_neg ?_
  rw [beq_iff_eq]
  rintro rfl
  exact absurd h (by decide)

/-- An underscore in front is taken off. -/
theorem dropWhile_cons_underscore (cs : List Char) :
    ('_' :: cs).dropWhile (· == '_') = cs.dropWhile (· == '_') := rfl

/-- Splitting a spelling in camel case and taking off the underscores in front leads back to the
name, if it starts with a small letter and has no capital. -/
theorem dropWhile_split_iff {first : Char} {name cs : List Char} (hfirst : first.isLower = true)
    (hname : ∀ c ∈ name, c.isUpper = false) :
    (cs.flatMap splitChar).dropWhile (· == '_') = first :: name ↔
      ∃ underscores initial spelling, cs = List.replicate underscores '_' ++ initial :: spelling ∧
        (initial = first ∨ initial = first.toUpper) ∧ Joined name spelling := by
  constructor
  · intro h
    induction cs with
    | nil => cases h
    | cons c rest ih =>
      rw [List.flatMap_cons] at h
      by_cases hc : c.isUpper = true
      · obtain ⟨d, hd, rfl⟩ := exists_eq_toUpper hc
        rw [splitChar_toUpper hd, List.cons_append, dropWhile_cons_underscore, List.cons_append,
          dropWhile_cons_letter hd] at h
        obtain ⟨rfl, hrest⟩ := List.cons.inj h
        exact ⟨0, d.toUpper, rest, rfl, .inr rfl, (joined_iff hname).2 hrest⟩
      · rw [splitChar_of_not_isUpper hc, List.cons_append, List.nil_append,
          List.dropWhile_cons] at h
        split at h
        · rename_i hunderscore
          obtain ⟨underscores, initial, spelling, rfl, hinitial, hjoined⟩ := ih h
          refine ⟨underscores + 1, initial, spelling, ?_, hinitial, hjoined⟩
          rw [eq_of_beq hunderscore, List.replicate_succ, List.cons_append]
        · obtain ⟨rfl, hrest⟩ := List.cons.inj h
          exact ⟨0, c, rest, rfl, .inl rfl, (joined_iff hname).2 hrest⟩
  · rintro ⟨underscores, initial, spelling, rfl, hinitial, hjoined⟩
    have hfront : (List.replicate underscores '_').flatMap splitChar =
        List.replicate underscores '_' := by
      induction underscores with
      | zero => rfl
      | succ n ih =>
        rw [List.replicate_succ, List.flatMap_cons, ih]
        rfl
    rw [List.flatMap_append, hfront, List.dropWhile_append_of_pos (by simp),
      List.flatMap_cons, (joined_iff hname).1 hjoined]
    rcases hinitial with rfl | rfl
    · rw [splitChar_of_not_isUpper (by simp [isUpper_eq_false_of_isLower hfirst]), List.cons_append,
        dropWhile_cons_letter hfirst, List.nil_append]
    · rw [splitChar_toUpper hfirst, List.cons_append, dropWhile_cons_underscore, List.cons_append,
        dropWhile_cons_letter hfirst, List.nil_append]

/-! ## Reading -/

/-- A text in capitals throughout is made small. -/
theorem normalize_of_isUpperCase {cs : List Char} (hascii : IsAscii cs)
    (h : isUpperCase (ofChars cs) = true) :
    normalize (ofChars cs) = ofChars (cs.map Char.toLower) := by
  rw [normalize, if_pos h, lowerCase_ofChars hascii]

/-- Any other text has its capitals split and loses the underscores in front. -/
theorem normalize_of_not_isUpperCase {cs : List Char} (hascii : IsAscii cs)
    (h : ¬isUpperCase (ofChars cs) = true) :
    normalize (ofChars cs) = ofChars ((cs.flatMap splitChar).dropWhile (· == '_')) := by
  rw [normalize, if_neg h, splitCamel_ofChars hascii, List.dropWhile_map]
  have hsame : (· == CodePoint.char '_') ∘ CodePoint.char = (· == '_') := by
    funext c
    exact Bool.eq_iff_iff.2 (by simp)
  rw [hsame]
  rfl

/-- Small letters lead back to the capitals they are made of, where nothing else was small. -/
theorem map_toUpper_map_toLower {cs : List Char} (hascii : IsAscii cs)
    (h : ∀ c ∈ cs, c.isLower = false) : (cs.map Char.toLower).map Char.toUpper = cs := by
  have hundone : ∀ c ∈ cs, (Char.toUpper ∘ Char.toLower) c = id c := fun c hc =>
    (letter_of_lt_128 (hascii c hc)).1 (h c hc)
  rw [List.map_map, List.map_congr_left hundone, List.map_id]

/-- Capitals lead back to the small letters they are made of, where nothing else was large. -/
theorem map_toLower_map_toUpper {cs : List Char} (hascii : IsAscii cs)
    (h : ∀ c ∈ cs, c.isUpper = false) : (cs.map Char.toUpper).map Char.toLower = cs := by
  have hundone : ∀ c ∈ cs, (Char.toLower ∘ Char.toUpper) c = id c := fun c hc =>
    (letter_of_lt_128 (hascii c hc)).2.1 (h c hc)
  rw [List.map_map, List.map_congr_left hundone, List.map_id]

/-- A spelling joined from a name that starts with a small letter starts with it, too. -/
theorem Joined.exists_eq_cons {c : Char} {name spelling : List Char} (hc : c.isLower = true)
    (h : Joined (c :: name) spelling) : ∃ rest, spelling = c :: rest := by
  cases h with
  | kept rest => exact ⟨_, rfl⟩
  | capital hletter rest => exact absurd hc (by decide)

/-- The name of a metric in capitals is a text in capitals throughout. -/
theorem isUpperCase_map_toUpper (metric : Metric)
    (hascii : IsAscii (metric.name.toList.map Char.toUpper)) :
    isUpperCase (ofChars (metric.name.toList.map Char.toUpper)) = true := by
  obtain ⟨first, second, rest, hname, hfirst, -⟩ := exists_name_toList metric
  have hletter := fun c hc => letter_of_lt_128 (isAscii_name metric c hc)
  have hmem : first ∈ metric.name.toList := hname ▸ List.mem_cons_self
  rw [isUpperCase_ofChars_iff hascii]
  constructor
  · obtain ⟨-, -, -, hsmall, -⟩ := hletter first hmem
    exact ⟨first.toUpper, List.mem_map_of_mem hmem, (hsmall hfirst).2⟩
  · intro c hc
    obtain ⟨d, hd, rfl⟩ := List.mem_map.1 hc
    obtain ⟨-, -, -, -, hcapital⟩ := hletter d hd
    exact hcapital

/-- A metric is found for the texts of ASCII characters that spell it. -/
theorem ofSpelling?_ofChars_eq_some_iff {cs : List Char} (hascii : IsAscii cs) {metric : Metric} :
    ofSpelling? (ofChars cs) = some metric ↔ Spells metric cs := by
  obtain ⟨first, second, rest, hname, hfirst, hsecond, hrest, -⟩ := exists_name_toList metric
  rw [ofSpelling?_eq_some_iff]
  constructor
  · intro h
    by_cases hcase : isUpperCase (ofChars cs) = true
    · rw [normalize_of_isUpperCase hascii hcase, ofChars_eq_ofString_iff] at h
      rw [← map_toUpper_map_toLower hascii ((isUpperCase_ofChars_iff hascii).1 hcase).2, h]
      exact .capitals
    · rw [normalize_of_not_isUpperCase hascii hcase, ofChars_eq_ofString_iff, hname,
        dropWhile_split_iff hfirst hrest] at h
      obtain ⟨underscores, initial, spelling, rfl, hinitial, hjoined⟩ := h
      exact .camel underscores hname hinitial hjoined
  · intro h
    cases h with
    | capitals =>
      rw [normalize_of_isUpperCase hascii (isUpperCase_map_toUpper metric hascii),
        ofChars_eq_ofString_iff, map_toLower_map_toUpper (isAscii_name metric)]
      rw [hname, List.forall_mem_cons]
      exact ⟨isUpper_eq_false_of_isLower hfirst, hrest⟩
    | @camel underscores head initial name spelling hother hinitial hjoined =>
      obtain ⟨rfl, rfl⟩ := List.cons.inj (hname.symm.trans hother)
      obtain ⟨tail, rfl⟩ := hjoined.exists_eq_cons hsecond
      -- The second letter stays small, so that the text is not taken for one in capitals.
      have hcase : ¬isUpperCase (ofChars (List.replicate underscores '_' ++
          initial :: second :: tail)) = true := by
        intro hcase
        have hnone := ((isUpperCase_ofChars_iff hascii).1 hcase).2 second (by simp)
        exact absurd hsecond (by simp [hnone])
      rw [normalize_of_not_isUpperCase hascii hcase, ofChars_eq_ofString_iff, hname,
        dropWhile_split_iff hfirst hrest]
      exact ⟨underscores, initial, second :: tail, rfl, hinitial, hjoined⟩

/-- No spelling of a metric ends in an underscore. -/
theorem Spells.getLast?_ne {metric : Metric} {cs : List Char} (h : Spells metric cs) :
    cs.getLast? ≠ some '_' := by
  obtain ⟨first, second, rest, hname, -, hsecond, hrest, hlast⟩ := exists_name_toList metric
  intro hend
  refine hlast ?_
  cases h with
  | capitals =>
    rw [hname, List.map_cons, List.map_cons, List.getLast?_cons_cons, ← List.map_cons] at hend
    obtain ⟨front, hfront⟩ := List.getLast?_eq_some_iff.1 hend
    have hascii := isAscii_name metric
    rw [hname, isAscii_cons] at hascii
    rw [← map_toLower_map_toUpper hascii.2 hrest, hfront]
    simp
  | @camel underscores head initial name spelling hother hinitial hjoined =>
    obtain ⟨rfl, rfl⟩ := List.cons.inj (hname.symm.trans hother)
    obtain ⟨tail, rfl⟩ := hjoined.exists_eq_cons hsecond
    have hspelling : (second :: tail).getLast? = some '_' := by
      simpa [List.getLast?_append, List.getLast?_cons] using hend
    obtain ⟨front, hfront⟩ := List.getLast?_eq_some_iff.1 hspelling
    rw [← (joined_iff hrest).1 hjoined, hfront, List.flatMap_append]
    simp [splitChar]

/-- A text is refused as a metric, with the name that it was rewritten to. -/
def IsRefused (spelling : Text) : Prop :=
  parse (.text spelling) = .error (.value (.notAMember (.text (normalize spelling)) "Metric"))

/-- The texts that no metric is found for are refused. -/
theorem isRefused_iff {spelling : Text} : IsRefused spelling ↔ ofSpelling? spelling = none := by
  cases h : ofSpelling? spelling with
  | none => simp [IsRefused, parse, h]
  | some found => simp [IsRefused, parse, h]

/-- A text of ASCII characters is parsed as a metric if it spells it, and is refused if it spells
none. Trailing underscores are refused, and so are capitals after an underscore in front, small
letters after a capital that follows an underscore, and two underscores in a row. -/
theorem parse_eq_ok_iff_spells {s : String} (hascii : IsAscii s.toList) :
    (∀ metric, parse (.text s) = .ok metric ↔ Spells metric s.toList) ∧
      (IsRefused s ↔ ∀ metric, ¬Spells metric s.toList) ∧
      (s.toList.getLast? = some '_' → IsRefused s) ∧
      ∀ other ∈ ["_LINES", "Lines_Of_Code", "comment__lines"], IsRefused (Text.ofString other) := by
  have hfound : ∀ metric, ofSpelling? s = some metric ↔ Spells metric s.toList := fun metric =>
    ofSpelling?_ofChars_eq_some_iff hascii
  have hrefused : IsRefused s ↔ ∀ metric, ¬Spells metric s.toList := by
    rw [isRefused_iff, Option.eq_none_iff_forall_ne_some]
    exact forall_congr' fun metric => not_congr (hfound metric)
  refine ⟨fun metric => parse_text_eq_ok_iff.trans (hfound metric), hrefused, ?_, ?_⟩
  · intro hend
    exact hrefused.2 fun metric h => h.getLast?_ne hend
  · intro other hother
    rw [isRefused_iff]
    simp only [List.mem_cons, List.not_mem_nil, or_false] at hother
    rcases hother with rfl | rfl | rfl <;> decide +kernel

/-- An underscore and a capital in front, one underscore joined and the other one kept. -/
theorem parse_underscoreLinesOf_code : IsAscii "_LinesOf_code".toList ∧
    parse (.text "_LinesOf_code") = .ok .linesOfCode := by
  have hascii : IsAscii "_LinesOf_code".toList := by decide +kernel
  have hjoined : Joined ['i', 'n', 'e', 's', '_', 'o', 'f', '_', 'c', 'o', 'd', 'e']
      ['i', 'n', 'e', 's', 'O', 'f', '_', 'c', 'o', 'd', 'e'] :=
    .kept (.kept (.kept (.kept (.capital (c := 'o') (by decide) (.kept (.kept (.kept (.kept (.kept
      (.kept .nil))))))))))
  have hspells : Spells .linesOfCode "_LinesOf_code".toList :=
    .camel 1 String.toList_ofList (.inr rfl) hjoined
  exact ⟨hascii, ((parse_eq_ok_iff_spells hascii).1 .linesOfCode).2 hspells⟩

end Metric

end SourceGauge
