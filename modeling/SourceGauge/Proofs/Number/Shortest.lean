import SourceGauge.Proofs.Number.Numerals

/-!
# Texts of numbers read back

The text of a decimal is read as the value of that decimal, in place as well as in scientific form
and in every layout. A value is written as a decimal that reads back as it, so every finite value
is read back from its text, and so is every whole number whose units are representable.

That no shorter decimal would do is not said here: reading back does not depend on it.
-/

namespace SourceGauge

open Numeral

namespace Numeral

/-- A text that starts with a digit is none of the words for infinity and NaN. -/
theorem readUnsigned_of_isDigit (negative : Bool) {d : Char} (h : d.isDigit = true)
    (rest : List Char) : readUnsigned negative (d :: rest) = readDecimal negative (d :: rest) := by
  have hrange : 48 ≤ d.toNat ∧ d.toNat ≤ 57 := Char.isDigit_iff_toNat.1 h
  have hlower : d.toLower = d := by
    refine dif_neg ?_
    rintro ⟨hcapital, _⟩
    have hle : 65 ≤ d.toNat := UInt32.le_iff_toNat_le.1 hcapital
    omega
  have hword : ∀ (first : Char) (others : List Char), 57 < first.toNat →
      (String.ofList ((d :: rest).map Char.toLower) == String.ofList (first :: others)) =
        false := by
    intro first others hfirst
    refine beq_eq_false_iff_ne.2 fun heq => ?_
    have hchars := String.ofList_injective heq
    rw [List.map_cons, List.cons.injEq, hlower] at hchars
    rw [← hchars.1] at hfirst
    omega
  have hinf := hword 'i' ['n', 'f'] (by decide)
  have hinfinity := hword 'i' ['n', 'f', 'i', 'n', 'i', 't', 'y'] (by decide)
  have hnan := hword 'n' ['a', 'n'] (by decide)
  simp only [readUnsigned]
  rw [if_neg, if_neg]
  · exact Bool.not_eq_true _ ▸ hnan
  · rw [Bool.or_eq_true, not_or]
    exact ⟨Bool.not_eq_true _ ▸ hinf, Bool.not_eq_true _ ▸ hinfinity⟩

/-- A text that starts with a digit and holds nothing but characters of written numbers. -/
structure IsUnsigned (cs : List Char) : Prop where
  written : ∀ c ∈ cs, isWritten c = true
  starts : ∃ first rest, cs = first :: rest ∧ first.isDigit = true

/-- Some digits and characters of written numbers after them make such a text. -/
theorem isUnsigned_append (whole rest : List Char) (hwhole : ∀ c ∈ whole, c.isDigit = true)
    (hsome : whole ≠ []) (hrest : ∀ c ∈ rest, isWritten c = true) : IsUnsigned (whole ++ rest) := by
  refine ⟨fun c hc => ?_, ?_⟩
  · rcases List.mem_append.1 hc with hc | hc
    · exact isWritten_of_isDigit (hwhole c hc)
    · exact hrest c hc
  · obtain ⟨first, more, rfl⟩ := List.exists_cons_of_ne_nil hsome
    exact ⟨first, more ++ rest, rfl, hwhole first List.mem_cons_self⟩

/-- A sign in front of such a text is a character of written numbers as well. -/
theorem isWritten_signed (negative : Bool) {cs : List Char} (h : IsUnsigned cs) :
    ∀ c ∈ Binary64.signChars negative ++ cs, isWritten c = true := by
  intro c hc
  rcases List.mem_append.1 hc with hc | hc
  · cases negative with
    | true => rw [List.mem_singleton.1 hc]; rfl
    | false => exact absurd hc List.not_mem_nil
  · exact h.written c hc

/-- A written number is read as its digits with its sign. -/
theorem readReal_signed (negative : Bool) {cs : List Char} (h : IsUnsigned cs) :
    readReal (Binary64.signChars negative ++ cs) = readDecimal negative cs := by
  have hall := isWritten_signed negative h
  obtain ⟨_, d, rest, rfl, hdigit⟩ := h
  have hkept : (Binary64.signChars negative ++ d :: rest).filter (· != '_') =
      Binary64.signChars negative ++ d :: rest :=
    List.filter_eq_self.2 fun c hc => by simpa using (range_of_isWritten (hall c hc)).2.2.1
  simp only [readReal, plain_of_isWritten hall, underscoresBetween_of_isWritten hall, if_true,
    hkept, takeSign_signChars negative hdigit]
  exact readUnsigned_of_isDigit negative hdigit rest

/-- Digits, a point and digits are read as one number with so many places. -/
theorem readDecimal_places (whole fraction : List Char) (negative : Bool)
    (hwhole : ∀ c ∈ whole, c.isDigit = true) (hsome : whole ≠ [])
    (hfraction : ∀ c ∈ fraction, c.isDigit = true) :
    readDecimal negative (whole ++ '.' :: fraction) =
      some (.ofDecimal negative (ofDigits (whole ++ fraction)) (-fraction.length)) := by
  have hread := readDecimal_point [] negative hwhole hsome hfraction (by simp)
  simpa [readExponent] using hread

/-- Digits with a point in front of them, among them or behind them are read back. -/
theorem readDecimal_placePoint (negative : Bool) (n : Nat) (point : Int) :
    readDecimal negative (placePoint (digitChars n) point) =
      some (.ofDecimal negative n (point - (digitChars n).length)) := by
  have hdigits : ∀ c ∈ digitChars n, c.isDigit = true := fun c hc => isDigit_of_mem_digitChars hc
  rw [placePoint]
  split
  · -- The point comes first, perhaps with zeros after it.
    have hfraction : ∀ c ∈ List.replicate (-point).toNat '0' ++ digitChars n,
        c.isDigit = true := by
      intro c hc
      rcases List.mem_append.1 hc with hc | hc
      · exact isDigit_of_mem_zeros hc
      · exact hdigits c hc
    have hvalue : ofDigits (['0'] ++ (List.replicate (-point).toNat '0' ++ digitChars n)) = n :=
      ofDigits_zeros_digitChars ((-point).toNat + 1) n
    have hread := readDecimal_places ['0'] _ negative (by simp) (by simp) hfraction
    rw [hvalue] at hread
    refine hread.trans ?_
    congr 2
    rw [List.length_append, List.length_replicate]
    omega
  · split
    · -- All digits come first, then perhaps zeros.
      rename_i hpoint hlength
      have hwhole : ∀ c ∈ digitChars n ++ List.replicate (point.toNat - (digitChars n).length) '0',
          c.isDigit = true := by
        intro c hc
        rcases List.mem_append.1 hc with hc | hc
        · exact hdigits c hc
        · exact isDigit_of_mem_zeros hc
      have hvalue : ofDigits (digitChars n ++
          List.replicate (point.toNat - (digitChars n).length) '0' ++ ['0']) =
            n * 10 ^ (point.toNat - (digitChars n).length + 1) := by
        rw [List.append_assoc, ← List.replicate_succ', ofDigits_digitChars_zeros]
      have hread := readDecimal_places _ ['0'] negative hwhole
        (by simp [digitChars_ne_nil]) (by simp)
      rw [hvalue, Binary64.ofDecimal_mul_pow] at hread
      refine hread.trans ?_
      congr 2
      rw [List.length_singleton]
      omega
    · -- The point divides the digits.
      rename_i hpoint hlength
      have hread := readDecimal_places ((digitChars n).take point.toNat)
        ((digitChars n).drop point.toNat) negative
        (fun c hc => hdigits c (List.mem_of_mem_take hc))
        (by
          rw [ne_eq, List.take_eq_nil_iff, not_or]
          exact ⟨by omega, digitChars_ne_nil n⟩)
        (fun c hc => hdigits c (List.mem_of_mem_drop hc))
      rw [List.take_append_drop, ofDigits_digitChars] at hread
      refine hread.trans ?_
      congr 2
      rw [List.length_drop]
      omega

/-- Digits in scientific form are read back. -/
theorem readDecimal_scientific (negative : Bool) (width n : Nat) (exponent : Int) :
    readDecimal negative (scientific width (digitChars n) exponent) =
      some (.ofDecimal negative n (exponent - (digitChars n).length + 1)) := by
  have hdigits : ∀ c ∈ digitChars n, c.isDigit = true := fun c hc => isDigit_of_mem_digitChars hc
  have hvalue := ofDigits_digitChars n
  obtain ⟨first, more, hcons⟩ := List.exists_cons_of_ne_nil (digitChars_ne_nil n)
  unfold scientific
  dsimp only
  rw [hcons] at hdigits hvalue ⊢
  have hexponent := readExponent_digits (width - (digitChars exponent.natAbs).length) exponent
  have hmark : ∀ c ∈ ('e' :: (if exponent < 0 then '-' else '+') ::
      (List.replicate (width - (digitChars exponent.natAbs).length) '0' ++
        digitChars exponent.natAbs)).head?, c.isDigit = false ∧ c ≠ '.' := by simp
  generalize 'e' :: (if exponent < 0 then '-' else '+') ::
    (List.replicate (width - (digitChars exponent.natAbs).length) '0' ++
      digitChars exponent.natAbs) = tail at hexponent hmark ⊢
  cases more with
  | nil =>
    -- A single digit has no point after it.
    rw [readDecimal_whole _ negative hdigits (by simp) hmark, hexponent, hvalue, Option.map_some,
      List.length_singleton]
    congr 2
    omega
  | cons second others =>
    have hfirst : ∀ c ∈ [first], c.isDigit = true := fun c hc =>
      hdigits c (by rw [List.mem_singleton.1 hc]; exact List.mem_cons_self)
    have hread := readDecimal_point _ negative hfirst (by simp)
      (fun c hc => hdigits c (List.mem_cons_of_mem first hc)) (fun c hc => (hmark c hc).1)
    rw [hexponent, Option.map_some, List.singleton_append, List.singleton_append, hvalue] at hread
    refine hread.trans ?_
    simp only [List.length_cons]
    congr 2
    omega

theorem isWritten_of_mem_zeros {count : Nat} {c : Char} (h : c ∈ List.replicate count '0') :
    isWritten c = true := isWritten_of_isDigit (isDigit_of_mem_zeros h)

/-- Digits with a point are a written number. -/
theorem isUnsigned_placePoint (n : Nat) (point : Int) :
    IsUnsigned (placePoint (digitChars n) point) := by
  have hdigits : ∀ c ∈ digitChars n, c.isDigit = true := fun c hc => isDigit_of_mem_digitChars hc
  have hwritten : ∀ c ∈ digitChars n, isWritten c = true := fun c hc =>
    isWritten_of_isDigit (hdigits c hc)
  rw [placePoint]
  split
  · refine isUnsigned_append ['0'] _ (by simp) (by simp) ?_
    simp only [List.forall_mem_cons, List.forall_mem_append]
    exact ⟨rfl, fun c hc => isWritten_of_mem_zeros hc, hwritten⟩
  · split
    · rw [List.append_assoc]
      refine isUnsigned_append _ _ hdigits (digitChars_ne_nil n) ?_
      simp only [List.forall_mem_cons, List.forall_mem_append]
      exact ⟨fun c hc => isWritten_of_mem_zeros hc, rfl, rfl, by simp⟩
    · rename_i hpoint _
      refine isUnsigned_append _ _ (fun c hc => hdigits c (List.mem_of_mem_take hc)) ?_ ?_
      · rw [ne_eq, List.take_eq_nil_iff, not_or]
        exact ⟨by omega, digitChars_ne_nil n⟩
      · simp only [List.forall_mem_cons]
        exact ⟨rfl, fun c hc => hwritten c (List.mem_of_mem_drop hc)⟩

/-- Digits in scientific form are a written number. -/
theorem isUnsigned_scientific (width n : Nat) (exponent : Int) :
    IsUnsigned (scientific width (digitChars n) exponent) := by
  have hwritten : ∀ m, ∀ c ∈ digitChars m, isWritten c = true := fun m c hc =>
    isWritten_of_isDigit (isDigit_of_mem_digitChars hc)
  have hexponent : ∀ c ∈ 'e' :: (if exponent < 0 then '-' else '+') ::
      (List.replicate (width - (digitChars exponent.natAbs).length) '0' ++
        digitChars exponent.natAbs), isWritten c = true := by
    simp only [List.forall_mem_cons, List.forall_mem_append]
    refine ⟨rfl, ?_, fun c hc => isWritten_of_mem_zeros hc, hwritten _⟩
    split <;> rfl
  have hdigits := hwritten n
  obtain ⟨first, more, hcons⟩ := List.exists_cons_of_ne_nil (digitChars_ne_nil n)
  have hfirst : first.isDigit = true := isDigit_of_mem_digitChars (n := n) (by simp [hcons])
  have hwhole : ∀ c ∈ [first], c.isDigit = true := by simpa using hfirst
  unfold scientific
  dsimp only
  rw [hcons] at hdigits ⊢
  generalize 'e' :: (if exponent < 0 then '-' else '+') ::
    (List.replicate (width - (digitChars exponent.natAbs).length) '0' ++
      digitChars exponent.natAbs) = tail at hexponent ⊢
  cases more with
  | nil => exact isUnsigned_append _ _ hwhole (by simp) hexponent
  | cons second others =>
    have hrest : ∀ c ∈ '.' :: (second :: others ++ tail), isWritten c = true := by
      rw [List.forall_mem_cons, List.forall_mem_append]
      exact ⟨rfl, (List.forall_mem_cons.1 hdigits).2, hexponent⟩
    exact isUnsigned_append [first] _ hwhole (by simp) hrest

end Numeral

namespace Decimal

/-- The text of a decimal is a written number. -/
theorem isUnsigned_chars (layout : RealLayout) (d : Decimal) : IsUnsigned (d.chars layout) := by
  rw [chars]
  split
  · exact isUnsigned_placePoint _ _
  · exact isUnsigned_scientific _ _ _

/-- The text of a decimal is read as its value, with either sign and in every layout. -/
theorem readReal_chars (negative : Bool) (layout : RealLayout) (d : Decimal) :
    readReal (Binary64.signChars negative ++ d.chars layout) = some (d.toBinary64 negative) := by
  rw [readReal_signed negative (d.isUnsigned_chars layout), chars, toBinary64]
  split
  · rw [readDecimal_placePoint]
    congr 2
    omega
  · rw [readDecimal_scientific]
    congr 2
    omega

end Decimal

/-- The decimal that a value is written with reads back as it. -/
theorem toBinary64_shortestDecimal {units : Nat} (hpos : 0 < units) (h : Representable units)
    (negative : Bool) :
    (shortestDecimal negative units).toBinary64 negative = .finite negative units h := by
  rw [shortestDecimal]
  cases hfound : (List.range' 1 17).findSome? (readingBack? negative units) with
  | none => exact Binary64.ofDecimal_expansion hpos h negative
  | some d =>
    obtain ⟨size, _, hsize⟩ := List.exists_of_findSome?_eq_some hfound
    rw [Option.getD_some, toBinary64_of_readingBack? hsize, Binary64.ofUnits_of_representable h]

namespace Binary64

/-- Zero with a point is a written number. -/
theorem isUnsigned_zero : IsUnsigned ['0', '.', '0'] :=
  isUnsigned_append ['0'] ['.', '0'] (by simp) (by simp) (List.all_eq_true.1 rfl)

/-- The text of a finite value holds nothing but characters of written numbers. -/
theorem isWritten_chars {x : Binary64} (h : x.isFinite = true) :
    ∀ c ∈ x.chars, isWritten c = true := by
  cases x with
  | nan => contradiction
  | infinite negative => contradiction
  | finite negative units hunits =>
    rw [chars]
    split
    · exact isWritten_signed negative isUnsigned_zero
    · exact isWritten_signed negative (Decimal.isUnsigned_chars realLayout _)

/-- A finite value is read back from its text. -/
theorem readReal_chars {x : Binary64} (h : x.isFinite = true) : readReal x.chars = some x := by
  cases x with
  | nan => contradiction
  | infinite negative => contradiction
  | finite negative units hunits =>
    rw [chars]
    split
    · rename_i hzero
      subst hzero
      rw [readReal_signed negative isUnsigned_zero]
      exact readDecimal_places ['0'] ['0'] negative (by simp) (by simp)
        (by simp)
    · rename_i hpos
      rw [Decimal.readReal_chars, toBinary64_shortestDecimal (Nat.pos_of_ne_zero hpos) hunits]

end Binary64

/-! ## Whole numbers as reals -/

/-- A whole number is written as its digits with its sign. -/
theorem toList_toString_int (n : Int) :
    (toString n).toList = Binary64.signChars (decide (n < 0)) ++ digitChars n.natAbs := by
  cases n with
  | ofNat m => exact Nat.toList_repr
  | negSucc m =>
    show ("-" ++ Nat.repr (m + 1)).toList = _
    rw [String.toList_append, Nat.toList_repr, decide_eq_true (Int.negSucc_lt_zero m)]
    rfl

/-- The digits of a number are a written number. -/
theorem isUnsigned_digitChars (n : Nat) : IsUnsigned (digitChars n) := by
  have hdigits : ∀ c ∈ digitChars n, c.isDigit = true := fun c hc => isDigit_of_mem_digitChars hc
  have hunsigned := isUnsigned_append _ [] hdigits (digitChars_ne_nil n) (by simp)
  rwa [List.append_nil] at hunsigned

/-- The text of a whole number holds nothing but characters of written numbers. -/
theorem isWritten_toString_int (n : Int) : ∀ c ∈ (toString n).toList, isWritten c = true := by
  rw [toList_toString_int]
  exact isWritten_signed _ (isUnsigned_digitChars n.natAbs)

/-- A whole number with representable units is read as the real that lies where it lies. -/
theorem readReal_int {n : Int} (h : Representable (n.natAbs * unitsPerOne)) :
    readReal (toString n).toList = some (.ofInt n) := by
  have hread := readDecimal_whole [] (decide (n < 0))
    (fun c hc => isDigit_of_mem_digitChars hc) (digitChars_ne_nil n.natAbs) (by simp)
  rw [List.append_nil] at hread
  rw [toList_toString_int, readReal_signed _ (isUnsigned_digitChars _), hread,
    ofDigits_digitChars, Binary64.ofInt, Binary64.ofRatio_one h]
  exact congrArg some (Binary64.ofDecimal_zero h _)

end SourceGauge
