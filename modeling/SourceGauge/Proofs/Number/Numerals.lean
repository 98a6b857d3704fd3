import SourceGauge.Proofs.Number.Rounding
import SourceGauge.Proofs.Text.Trimming

/-!
# Reading numerals that were written

Numbers are written with few characters: digits, a point, signs, and the mark of an exponent. None
of these is a blank, an underscore or a digit of another script, so reading such a text comes down
to its sign, its digits and its exponent. What was written is then read back digit by digit:
whole numbers of at most 4300 digits, and decimals in place as well as in scientific form.

Nothing is said here about other spellings that reading accepts.
-/

namespace SourceGauge

namespace Numeral

open Text

/-- Whether a character stands in written numbers. -/
def isWritten (c : Char) : Bool :=
  c.isDigit || c == '.' || c == '+' || c == '-' || c == 'e'

/-- Digits stand in written numbers. -/
theorem isWritten_of_isDigit {c : Char} (h : c.isDigit = true) : isWritten c = true := by
  simp [isWritten, h]

/-- Characters of written numbers are printed characters of ASCII, and no other separators. -/
theorem range_of_isWritten {c : Char} (h : isWritten c = true) :
    33 ≤ c.toNat ∧ c.toNat ≤ 101 ∧ c ≠ '_' ∧ c ≠ ';' ∧ c ≠ '=' := by
  simp only [isWritten, Bool.or_eq_true, beq_iff_eq, or_assoc] at h
  rcases h with h | rfl | rfl | rfl | rfl
  · have hrange : 48 ≤ c.toNat ∧ c.toNat ≤ 57 := Char.isDigit_iff_toNat.1 h
    refine ⟨by omega, by omega, ?_, ?_, ?_⟩
    all_goals
      rintro rfl
      exact absurd h (by decide)
  all_goals decide

/-- Characters of written numbers are no blanks. -/
theorem isNumeralBlank_of_isWritten {c : Char} (h : isWritten c = true) :
    isNumeralBlank c = false := by
  obtain ⟨hlow, hhigh, _⟩ := range_of_isWritten h
  have hblank : isBlank c = false := by
    simp only [isBlank, inSpans]
    repeat rw [if_neg (by omega)]
    rw [if_pos (by omega)]
    simp
    omega
  rw [isNumeralBlank, hblank, Bool.false_and]

/-- Characters of written numbers stay as they are when digits are brought to their first form. -/
theorem plainDigit_of_isWritten {c : Char} (h : isWritten c = true) : plainDigit c = c := by
  obtain ⟨hlow, hhigh, _⟩ := range_of_isWritten h
  rw [plainDigit, digitValue?, digitSpans, digitValueIn]
  by_cases hbelow : c.toNat < 0x30
  · rw [if_pos hbelow]
  · rw [if_neg hbelow]
    by_cases hdigit : c.toNat ≤ 0x39
    · rw [if_pos hdigit]
      have hcode : 48 + (c.toNat - 48) % 10 = c.toNat := by omega
      show Char.ofNat (48 + (c.toNat - 48) % 10) = c
      rw [hcode, Char.ofNat_toNat]
    · rw [if_neg hdigit, digitValueIn, if_pos (by omega)]

theorem underscoresBetween_of_isWritten {cs : List Char} (h : ∀ c ∈ cs, isWritten c = true)
    (before : Bool) : underscoresBetween before cs = true := by
  induction cs generalizing before with
  | nil => rfl
  | cons c rest ih =>
    have hc := (range_of_isWritten (h c List.mem_cons_self)).2.2.1
    rw [underscoresBetween]
    · exact ih (fun other hother => h other (List.mem_cons_of_mem c hother)) c.isDigit
    · simpa using hc

/-- Written numbers are read as they stand. -/
theorem plain_of_isWritten {cs : List Char} (h : ∀ c ∈ cs, isWritten c = true) :
    (trimWhere isNumeralBlank cs).map plainDigit = cs := by
  rw [trimWhere_eq_self fun c hc => isNumeralBlank_of_isWritten (h c hc),
    List.map_congr_left fun c hc => plainDigit_of_isWritten (h c hc), List.map_id']

/-- A sign in front of a digit is taken off. -/
theorem takeSign_signChars (negative : Bool) {d : Char} (h : d.isDigit = true) (rest : List Char) :
    takeSign (Binary64.signChars negative ++ d :: rest) = (negative, d :: rest) := by
  cases negative with
  | true => rfl
  | false =>
    show takeSign (d :: rest) = (false, d :: rest)
    have hminus : d ≠ '-' := by
      rintro rfl
      exact absurd h (by decide)
    have hplus : d ≠ '+' := by
      rintro rfl
      exact absurd h (by decide)
    rw [takeSign]
    · simpa using hminus
    · simpa using hplus

/-! ## Digits -/

/-- The number that digits denote. -/
theorem ofDigits_eq_ofDigitChars {cs : List Char} (h : ∀ c ∈ cs, c.isDigit = true) :
    ofDigits cs = Nat.ofDigitChars 10 cs 0 := by
  have hfrom : ∀ start : Nat,
      cs.foldl (fun n c => if c.isDigit then n * 10 + (c.toNat - 48) else n) start =
        Nat.ofDigitChars 10 cs start := by
    induction cs with
    | nil => exact fun _ => rfl
    | cons c rest ih =>
      intro start
      rw [List.foldl_cons, if_pos (h c List.mem_cons_self), Nat.ofDigitChars_cons,
        ih fun other hother => h other (List.mem_cons_of_mem c hother), Nat.mul_comm start]
      rfl
  exact hfrom 0

theorem isDigit_of_mem_digitChars {n : Nat} {c : Char} (h : c ∈ digitChars n) :
    c.isDigit = true :=
  Nat.isDigit_of_mem_toDigits (by decide) (by decide) h

theorem isDigit_of_mem_zeros {count : Nat} {c : Char} (h : c ∈ List.replicate count '0') :
    c.isDigit = true := by
  rw [List.eq_of_mem_replicate h]
  rfl

/-- The digits of a number denote it, with zeros in front of them as well. -/
theorem ofDigits_zeros_digitChars (zeros n : Nat) :
    ofDigits (List.replicate zeros '0' ++ digitChars n) = n := by
  have hdigits : ∀ c ∈ List.replicate zeros '0' ++ digitChars n, c.isDigit = true := by
    intro c hc
    rcases List.mem_append.1 hc with hc | hc
    · exact isDigit_of_mem_zeros hc
    · exact isDigit_of_mem_digitChars hc
  rw [ofDigits_eq_ofDigitChars hdigits, Nat.ofDigitChars_append, Nat.ofDigitChars_replicate_zero,
    Nat.mul_zero, digitChars, Nat.ofDigitChars_ten_toDigits]

/-- The digits of a number denote it. -/
theorem ofDigits_digitChars (n : Nat) : ofDigits (digitChars n) = n := by
  simpa using ofDigits_zeros_digitChars 0 n

/-- Zeros behind the digits of a number multiply it by ten. -/
theorem ofDigits_digitChars_zeros (n zeros : Nat) :
    ofDigits (digitChars n ++ List.replicate zeros '0') = n * 10 ^ zeros := by
  have hdigits : ∀ c ∈ digitChars n ++ List.replicate zeros '0', c.isDigit = true := by
    intro c hc
    rcases List.mem_append.1 hc with hc | hc
    · exact isDigit_of_mem_digitChars hc
    · exact isDigit_of_mem_zeros hc
  rw [ofDigits_eq_ofDigitChars hdigits, Nat.ofDigitChars_append, Nat.ofDigitChars_replicate_zero,
    digitChars, Nat.ofDigitChars_ten_toDigits, Nat.mul_comm]

theorem digitChars_ne_nil (n : Nat) : digitChars n ≠ [] := Nat.toDigits_ne_nil

/-! ## Whole numbers -/

/-- A natural number with few enough digits is read back. -/
theorem readInt_digitChars {n : Nat} (h : (digitChars n).length ≤ maxDigits) :
    readInt (digitChars n) = .ok n := by
  have hdigit : ∀ c ∈ digitChars n, c.isDigit = true := fun c hc => isDigit_of_mem_digitChars hc
  have hwritten : ∀ c ∈ digitChars n, isWritten c = true := fun c hc =>
    isWritten_of_isDigit (hdigit c hc)
  obtain ⟨d, rest, hcons⟩ := List.exists_cons_of_ne_nil (digitChars_ne_nil n)
  have hsign : takeSign (digitChars n) = (false, digitChars n) := by
    rw [hcons]
    exact takeSign_signChars false (hdigit d (by simp [hcons])) rest
  have hrun : ((digitChars n).takeWhile fun c => c.isDigit || c == '_') = digitChars n :=
    List.takeWhile_eq_self_iff.2 fun c hc => by simp [hdigit c hc]
  have hrest : ((digitChars n).dropWhile fun c => c.isDigit || c == '_') = [] :=
    List.dropWhile_eq_nil_iff.2 fun c hc => by simp [hdigit c hc]
  have hcount : (digitChars n).filter Char.isDigit = digitChars n := List.filter_eq_self.2 hdigit
  simp only [readInt, plain_of_isWritten hwritten, hsign, hrun, hrest, hcount, ofDigits_digitChars,
    underscoresBetween_of_isWritten hwritten]
  rw [if_neg (by simpa using digitChars_ne_nil n), if_neg (Nat.not_lt.2 h)]
  rfl

/-- A number is below the power of ten with as many zeros as it was written with digits. -/
theorem ofDigits_lt (cs : List Char) : ofDigits cs < 10 ^ (cs.filter Char.isDigit).length := by
  have hfrom : ∀ start : Nat,
      cs.foldl (fun n c => if c.isDigit then n * 10 + (c.toNat - 48) else n) start + 1 ≤
        (start + 1) * 10 ^ (cs.filter Char.isDigit).length := by
    induction cs with
    | nil => intro start; simp
    | cons c rest ih =>
      intro start
      rw [List.foldl_cons]
      by_cases hc : c.isDigit = true
      · have hrange : 48 ≤ c.toNat ∧ c.toNat ≤ 57 := Char.isDigit_iff_toNat.1 hc
        rw [if_pos hc, List.filter_cons_of_pos hc, List.length_cons, Nat.pow_succ',
          ← Nat.mul_assoc]
        refine Nat.le_trans (ih _) (Nat.mul_le_mul_right _ ?_)
        omega
      · rw [if_neg hc, List.filter_cons_of_neg hc]
        exact ih start
  have hzero := hfrom 0
  rw [Nat.zero_add, Nat.one_mul] at hzero
  exact hzero

/-- A whole number that is read has few enough digits to be written. -/
theorem isWritable_of_readInt {cs : List Char} {n : Int} (h : readInt cs = .ok n) :
    (Number.int n).isWritable = true := by
  have hwritable : ∀ (run : List Char) (negative : Bool),
      ¬ maxDigits < (run.filter Char.isDigit).length →
        (Number.int (if negative then -(ofDigits run : Int) else ofDigits run)).isWritable =
          true := by
    intro run negative hcount
    have habs : (if negative then -(ofDigits run : Int) else ofDigits run).natAbs =
        ofDigits run := by
      cases negative <;> simp
    rw [Number.isWritable, habs, decide_eq_true_eq,
      Nat.length_toDigits_le_iff (by decide) (by decide)]
    exact Nat.lt_of_lt_of_le (ofDigits_lt run)
      (Nat.pow_le_pow_right (by decide) (Nat.not_lt.1 hcount))
  rw [readInt] at h
  dsimp only at h
  split at h
  · contradiction
  · split at h
    · contradiction
    · rename_i hcount
      split at h
      · contradiction
      · injection h with h
        exact h ▸ hwritable _ _ hcount

/-! ## Decimals -/

/-- Digits, a point, digits and what comes after them are read one after the other. -/
theorem readDecimal_point {whole fraction : List Char} (tail : List Char) (negative : Bool)
    (hwhole : ∀ c ∈ whole, c.isDigit = true) (hsome : whole ≠ [])
    (hfraction : ∀ c ∈ fraction, c.isDigit = true)
    (htail : ∀ c ∈ tail.head?, c.isDigit = false) :
    readDecimal negative (whole ++ '.' :: (fraction ++ tail)) =
      (readExponent tail).map fun exponent =>
        .ofDecimal negative (ofDigits (whole ++ fraction)) (exponent - fraction.length) := by
  have hstop : tail.takeWhile Char.isDigit = [] ∧ tail.dropWhile Char.isDigit = tail := by
    cases tail with
    | nil => exact ⟨rfl, rfl⟩
    | cons c rest =>
      have hc := htail c rfl
      simp [hc]
  simp only [readDecimal, List.takeWhile_append_of_pos hwhole, List.dropWhile_append_of_pos hwhole,
    List.takeWhile_cons_of_neg (p := Char.isDigit) (a := '.') (by decide),
    List.dropWhile_cons_of_neg (p := Char.isDigit) (a := '.') (by decide),
    List.takeWhile_append_of_pos hfraction, List.dropWhile_append_of_pos hfraction, hstop,
    List.append_nil]
  rw [if_neg (by simp [hsome])]

/-- Digits and what comes after them are read one after the other, if no point comes next. -/
theorem readDecimal_whole {whole : List Char} (tail : List Char) (negative : Bool)
    (hwhole : ∀ c ∈ whole, c.isDigit = true) (hsome : whole ≠ [])
    (htail : ∀ c ∈ tail.head?, c.isDigit = false ∧ c ≠ '.') :
    readDecimal negative (whole ++ tail) =
      (readExponent tail).map fun exponent => .ofDecimal negative (ofDigits whole) exponent := by
  have hstop : tail.takeWhile Char.isDigit = [] ∧ tail.dropWhile Char.isDigit = tail := by
    cases tail with
    | nil => exact ⟨rfl, rfl⟩
    | cons c rest =>
      have hc := (htail c rfl).1
      simp [hc]
  simp only [readDecimal, List.takeWhile_append_of_pos hwhole, List.dropWhile_append_of_pos hwhole,
    hstop, List.append_nil]
  rw [if_neg (by simp [hsome])]
  split
  · exact absurd rfl (htail '.' rfl).2
  · simp only [List.append_nil, List.length_nil, Int.natCast_zero, Int.sub_zero]

/-- An exponent is read back. -/
theorem readExponent_digits (zeros : Nat) (exponent : Int) :
    readExponent ('e' :: (if exponent < 0 then '-' else '+') ::
      (List.replicate zeros '0' ++ digitChars exponent.natAbs)) = some exponent := by
  have hdigits : ∀ c ∈ List.replicate zeros '0' ++ digitChars exponent.natAbs,
      c.isDigit = true := by
    intro c hc
    rcases List.mem_append.1 hc with hc | hc
    · exact isDigit_of_mem_zeros hc
    · exact isDigit_of_mem_digitChars hc
  have hall : (List.replicate zeros '0' ++ digitChars exponent.natAbs).all Char.isDigit = true :=
    List.all_eq_true.2 hdigits
  have hsome : (List.replicate zeros '0' ++ digitChars exponent.natAbs).isEmpty = false := by
    simp [digitChars_ne_nil]
  by_cases hnegative : exponent < 0
  · rw [if_pos hnegative, readExponent]
    simp only [takeSign, hall, hsome, ofDigits_zeros_digitChars]
    rw [if_pos (by decide), if_pos trivial, Int.ofNat_natAbs_of_nonpos (by omega), Int.neg_neg]
  · rw [if_neg hnegative, readExponent]
    simp only [takeSign, hall, hsome, ofDigits_zeros_digitChars]
    rw [if_pos (by decide), if_neg Bool.false_ne_true, Int.natAbs_of_nonneg (by omega)]

end Numeral

end SourceGauge
