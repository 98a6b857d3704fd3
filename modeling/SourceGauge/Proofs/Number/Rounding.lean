import Mathlib.Algebra.Ring.Nat
import SourceGauge.Proofs.Number.Exact

/-!
# Rounding of decimals

The value nearest to a quotient depends on the quotient alone, not on the numerator and the
denominator that it is given by. So a decimal may be written with more zeros at its end and a
smaller exponent, and a decimal that is a representable number of units is held as it is.

Nothing is said about decimals that have to be rounded, but that they are rounded alike.
-/

namespace SourceGauge

/-- A common factor of numerator and denominator does not change the rounded quotient. -/
theorem roundDiv_mul_left {factor : Nat} (h : 0 < factor) (num den : Nat) :
    roundDiv (factor * num) (factor * den) = roundDiv num den := by
  have hquotient : factor * num / (factor * den) = num / den := Nat.mul_div_mul_left num den h
  have hrest : factor * num % (factor * den) = factor * (num % den) :=
    Nat.mul_mod_mul_left factor num den
  have hbelow : 2 * (factor * (num % den)) < factor * den ↔ 2 * (num % den) < den := by
    rw [Nat.mul_left_comm, Nat.mul_lt_mul_left h]
  have habove : factor * den < 2 * (factor * (num % den)) ↔ den < 2 * (num % den) := by
    rw [Nat.mul_left_comm, Nat.mul_lt_mul_left h]
  simp only [roundDiv, hquotient, hrest, hbelow, habove]

/-- A common factor of numerator and denominator does not change the nearest units. -/
theorem nearestUnits_mul_left {factor : Nat} (h : 0 < factor) (num den : Nat) :
    nearestUnits (factor * num) (factor * den) = nearestUnits num den := by
  have hquotient : factor * num / (factor * den) = num / den := Nat.mul_div_mul_left num den h
  simp only [nearestUnits, hquotient, Nat.mul_assoc, roundDiv_mul_left h]

namespace Binary64

/-- A common factor of numerator and denominator does not change the nearest value. -/
theorem ofRatio_mul_left {factor : Nat} (h : 0 < factor) (negative : Bool) (num den : Nat) :
    ofRatio negative (factor * num) (factor * den) = ofRatio negative num den := by
  rw [ofRatio, nearestUnits_mul_left h, ofRatio]

/-- A quotient that is a representable number of units is held as it is. -/
theorem ofRatio_mul_self {units den : Nat} (h : Representable units) (hden : 0 < den)
    (negative : Bool) : ofRatio negative (units * den) den = .finite negative units h := by
  calc ofRatio negative (units * den) den = ofRatio negative (den * units) (den * 1) := by
        rw [Nat.mul_comm, Nat.mul_one]
    _ = ofRatio negative units 1 := ofRatio_mul_left hden negative units 1
    _ = .finite negative units h := ofRatio_one h negative

/-- A positive number has at most as many digits as an upper bound has zeros. -/
theorem decimalSize_le {n size : Nat} (hsize : 0 < size) (h : n < 10 ^ size) :
    decimalSize n ≤ size :=
  (Nat.length_toDigits_le_iff (by decide) hsize).2 h

/-- A number that is not below a power of ten has more digits than it has zeros. -/
theorem lt_decimalSize {n size : Nat} (h : 10 ^ size ≤ n) : size < decimalSize n := by
  rcases Nat.eq_zero_or_pos size with rfl | hsize
  · exact Nat.length_toDigits_pos
  · refine Nat.lt_of_not_le fun hle => ?_
    have hlt : n < 10 ^ size := (Nat.length_toDigits_le_iff (by decide) hsize).1 hle
    omega

/-- Zeros at the end of a positive number are so many more digits. -/
theorem decimalSize_mul_pow {n : Nat} (h : 0 < n) (zeros : Nat) :
    decimalSize (n * 10 ^ zeros) = decimalSize n + zeros := by
  induction zeros with
  | zero => rw [Nat.pow_zero, Nat.mul_one, Nat.add_zero]
  | succ zeros ih =>
    have hpositive : 0 < n * 10 ^ zeros := Nat.mul_pos h (Nat.pow_pos (by decide))
    have hten : n * 10 ^ (zeros + 1) = 10 * (n * 10 ^ zeros) + 0 := by
      rw [Nat.pow_succ, ← Nat.mul_assoc, Nat.mul_comm, Nat.add_zero]
    have hdigits := Nat.toDigits_append_toDigits (d := 0) (by decide : 1 < 10) hpositive (by decide)
    rw [decimalSize] at ih
    rw [decimalSize, hten, ← hdigits, List.length_append, Nat.toDigits_zero, ih,
      List.length_singleton, Nat.add_assoc]

/-- Equal quotients are rounded alike. -/
theorem ofRatio_congr {num den other below : Nat} (hden : 0 < den) (hbelow : 0 < below)
    (h : num * below = other * den) (negative : Bool) :
    ofRatio negative num den = ofRatio negative other below := by
  calc ofRatio negative num den = ofRatio negative (below * num) (below * den) :=
        (ofRatio_mul_left hbelow negative num den).symm
    _ = ofRatio negative (den * other) (den * below) := by
        rw [Nat.mul_comm below num, h, Nat.mul_comm other den, Nat.mul_comm below den]
    _ = ofRatio negative other below := ofRatio_mul_left hden negative other below

/-- A decimal that is neither zero nor beyond all finite values is rounded as a quotient. -/
theorem ofDecimal_eq_ofRatio {digits : Nat} {exponent : Int} (hdigits : 0 < digits)
    (hlarge : exponent + decimalSize digits ≤ 310) (hsmall : -330 ≤ exponent + decimalSize digits)
    (negative : Bool) :
    ofDecimal negative digits exponent =
      ofRatio negative (digits * 10 ^ exponent.toNat * unitsPerOne) (10 ^ (-exponent).toNat) := by
  rw [ofDecimal, if_neg (Nat.ne_of_gt hdigits), if_neg (Int.not_lt.2 hlarge),
    if_neg (Int.not_lt.2 hsmall)]
  split
  · have hnone : (-exponent).toNat = 0 := by omega
    rw [hnone, Nat.pow_zero]
    rfl
  · have hnone : exponent.toNat = 0 := by omega
    rw [hnone, Nat.pow_zero, Nat.mul_one]
    rfl

/-- Zeros at the end of the digits make up for a smaller exponent. -/
theorem ofDecimal_mul_pow (negative : Bool) (digits zeros : Nat) (exponent : Int) :
    ofDecimal negative (digits * 10 ^ zeros) exponent =
      ofDecimal negative digits (exponent + zeros) := by
  rcases Nat.eq_zero_or_pos digits with rfl | hdigits
  · rw [Nat.zero_mul, ofDecimal, ofDecimal, if_pos rfl, if_pos rfl]
  have hmore : 0 < digits * 10 ^ zeros := Nat.mul_pos hdigits (Nat.pow_pos (by decide))
  have hsize : exponent + (decimalSize (digits * 10 ^ zeros) : Int) =
      exponent + zeros + (decimalSize digits : Int) := by
    rw [decimalSize_mul_pow hdigits]
    omega
  by_cases hlarge : 310 < exponent + zeros + (decimalSize digits : Int)
  · rw [ofDecimal, ofDecimal, hsize, if_neg (Nat.ne_of_gt hmore), if_neg (Nat.ne_of_gt hdigits),
      if_pos hlarge, if_pos hlarge]
  by_cases hsmall : exponent + zeros + (decimalSize digits : Int) < -330
  · rw [ofDecimal, ofDecimal, hsize, if_neg (Nat.ne_of_gt hmore), if_neg (Nat.ne_of_gt hdigits),
      if_neg hlarge, if_neg hlarge, if_pos hsmall, if_pos hsmall]
  rw [ofDecimal_eq_ofRatio hmore (by omega) (by omega),
    ofDecimal_eq_ofRatio hdigits (by omega) (by omega)]
  refine ofRatio_congr (Nat.pow_pos (by decide)) (Nat.pow_pos (by decide)) ?_ negative
  -- Both sides are the digits times the same power of ten.
  have hpowers : zeros + exponent.toNat + (-(exponent + zeros)).toNat =
      (exponent + zeros).toNat + (-exponent).toNat := by omega
  have htens := congrArg (10 ^ ·) hpowers
  simp only [Nat.pow_add] at htens
  calc digits * 10 ^ zeros * 10 ^ exponent.toNat * unitsPerOne * 10 ^ (-(exponent + zeros)).toNat
      = digits * unitsPerOne *
          (10 ^ zeros * 10 ^ exponent.toNat * 10 ^ (-(exponent + zeros)).toNat) := by ac_rfl
    _ = digits * unitsPerOne * (10 ^ (exponent + zeros).toNat * 10 ^ (-exponent).toNat) := by
        rw [htens]
    _ = digits * 10 ^ (exponent + zeros).toNat * unitsPerOne * 10 ^ (-exponent).toNat := by ac_rfl

/-- Representable units are below the overflow limit, so a whole number of them has at most 309
digits. -/
theorem decimalSize_le_of_representable {n : Nat} (h : Representable (n * unitsPerOne)) :
    decimalSize n ≤ 309 := by
  have hlimit : overflowUnits ≤ 10 ^ 309 * unitsPerOne := by
    unfold overflowUnits unitsPerOne
    decide +kernel
  have hsize : 0 < 309 := by decide
  generalize 309 = size at hlimit hsize ⊢
  exact decimalSize_le hsize (Nat.lt_of_mul_lt_mul_right (Nat.lt_of_lt_of_le h.1 hlimit))

/-- A whole number with representable units is held as it is when it is written without a point. -/
theorem ofDecimal_zero {n : Nat} (h : Representable (n * unitsPerOne)) (negative : Bool) :
    ofDecimal negative n 0 = .finite negative (n * unitsPerOne) h := by
  rcases Nat.eq_zero_or_pos n with rfl | hn
  · rw [ofDecimal, if_pos rfl, zero]
    simp only [Nat.zero_mul]
  · have hsize := decimalSize_le_of_representable h
    rw [ofDecimal_eq_ofRatio hn (by omega) (by omega)]
    simpa using ofRatio_one h negative

/-- The exact expansion of representable units is held as it is. -/
theorem ofDecimal_expansion {units : Nat} (hpos : 0 < units) (h : Representable units)
    (negative : Bool) :
    ofDecimal negative (units * Nat.pow 5 1074) (-1074) = .finite negative units h := by
  have hbelow : overflowUnits * Nat.pow 5 1074 ≤ 10 ^ 1383 := by
    unfold overflowUnits
    decide +kernel
  have habove : 10 ^ 750 ≤ Nat.pow 5 1074 := by decide +kernel
  have hfives : 0 < Nat.pow 5 1074 := by decide +kernel
  -- The expansion has as many factors of five as there are factors of two in one.
  obtain ⟨places, hup, hone⟩ : ∃ places, (- -1074 : Int).toNat = places ∧
      Nat.pow 5 1074 * unitsPerOne = 10 ^ places := by
    refine ⟨1074, rfl, ?_⟩
    unfold unitsPerOne
    decide +kernel
  have htens : 0 < 10 ^ places := Nat.pow_pos (by decide)
  have hdown : (-1074 : Int).toNat = 0 := rfl
  generalize Nat.pow 5 1074 = fives at *
  have hlarge : decimalSize (units * fives) ≤ 1383 := by
    have hsize : 0 < 1383 := by decide
    generalize 1383 = size at hbelow hsize ⊢
    exact decimalSize_le hsize
      (Nat.lt_of_lt_of_le (Nat.mul_lt_mul_of_pos_right h.1 hfives) hbelow)
  have hsmall : 750 < decimalSize (units * fives) := by
    generalize 750 = size at habove ⊢
    exact lt_decimalSize (Nat.le_trans habove (Nat.le_mul_of_pos_left _ hpos))
  rw [ofDecimal_eq_ofRatio (Nat.mul_pos hpos hfives) (by omega) (by omega), hdown, hup,
    Nat.pow_zero, Nat.mul_one, Nat.mul_assoc, hone]
  exact ofRatio_mul_self h htens negative

end Binary64

end SourceGauge
