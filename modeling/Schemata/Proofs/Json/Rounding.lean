import Schemata.Json.Decimal

/-!
# Rounding of decimals

The binary64 number nearest to a decimal depends on the value of the decimal alone, not
on its digits and its scale: zeros at the end of the digits change nothing.  A decimal
that is exactly a binary64 number rounds to that number.

Main results:

- Theorem {lit}`toBinary64_shift`: zeros at the end of the digits change nothing.
- Theorem {lit}`toBinary64_exact`: all digits of a binary64 number read back as it.
-/

namespace Schemata

namespace Binary64

/-! ## Ratios -/

/-- A common factor does not change the rounded quotient. -/
theorem roundDiv_mul_right (numerator denominator : Nat) {factor : Nat} (positive : 0 < factor) :
    roundDiv (numerator * factor) (denominator * factor) = roundDiv numerator denominator := by
  have hdiv : numerator * factor / (denominator * factor) = numerator / denominator :=
    Nat.mul_div_mul_right _ _ positive
  have hmod : 2 * (numerator * factor % (denominator * factor)) =
      2 * (numerator % denominator) * factor := by
    rw [Nat.mul_mod_mul_right, Nat.mul_assoc]
  have hlt : 2 * (numerator % denominator) * factor < denominator * factor ↔
      2 * (numerator % denominator) < denominator := Nat.mul_lt_mul_right positive
  have heq : 2 * (numerator % denominator) * factor = denominator * factor ↔
      2 * (numerator % denominator) = denominator := Nat.mul_right_cancel_iff positive
  unfold roundDiv
  simp only [hdiv, hmod, hlt, heq]

/-- A ratio and its multiples have the same nearest number. -/
theorem ofRatio_mul_right (negative : Bool) (numerator denominator : Nat) {factor : Nat}
    (positive : 0 < factor) :
    ofRatio negative (numerator * factor) (denominator * factor) =
      ofRatio negative numerator denominator := by
  have hscaled : numerator * factor * Nat.pow 2 1074 = numerator * Nat.pow 2 1074 * factor := by
    rw [Nat.mul_right_comm]
  have hdiv : numerator * Nat.pow 2 1074 * factor / (denominator * factor) =
      numerator * Nat.pow 2 1074 / denominator := Nat.mul_div_mul_right _ _ positive
  have hround (power : Nat) : roundDiv (numerator * Nat.pow 2 1074 * factor)
      (denominator * factor * power) = roundDiv (numerator * Nat.pow 2 1074)
        (denominator * power) := by
    rw [Nat.mul_right_comm denominator, roundDiv_mul_right _ _ positive]
  unfold ofRatio
  simp only [hscaled, hdiv, hround]

/-- The exponent of a number can be read off its integer multiple. -/
theorem log2_sub_of_canonical {mantissa exponent : Nat} (canonical : IsCanonical mantissa exponent)
    (positive : mantissa ≠ 0) : (mantissa * Nat.pow 2 exponent).log2 - 52 = exponent := by
  rcases canonical with ⟨hlt, hleast, _⟩
  have hpower : 0 < 2 ^ exponent := Nat.two_pow_pos exponent
  have hnonzero : mantissa * 2 ^ exponent ≠ 0 := Nat.mul_ne_zero positive (Nat.ne_of_gt hpower)
  have hupper : (mantissa * 2 ^ exponent).log2 < 53 + exponent := by
    rw [Nat.log2_lt hnonzero, Nat.pow_add]
    exact Nat.mul_lt_mul_of_pos_right hlt hpower
  rw [Nat.pow_eq]
  rcases hleast with rfl | hleast
  · omega
  · have hlower : 52 + exponent ≤ (mantissa * 2 ^ exponent).log2 := by
      rw [Nat.le_log2 hnonzero, Nat.pow_add]
      exact Nat.mul_le_mul_right _ hleast
    omega

/-- A ratio that is exactly a number rounds to that number. -/
theorem ofRatio_exact (negative : Bool) {mantissa exponent numerator denominator : Nat}
    (canonical : IsCanonical mantissa exponent) (nonzero : mantissa ≠ 0)
    (positive : 0 < denominator)
    (h : numerator * Nat.pow 2 1074 = mantissa * Nat.pow 2 exponent * denominator) :
    ofRatio negative numerator denominator = .finite negative mantissa exponent canonical := by
  have hdiv : numerator * Nat.pow 2 1074 / denominator = mantissa * Nat.pow 2 exponent := by
    rw [h, Nat.mul_div_cancel _ positive]
  have hround : roundDiv (numerator * Nat.pow 2 1074) (denominator * Nat.pow 2 exponent) =
      mantissa := by
    have hfactor : 0 < denominator * Nat.pow 2 exponent :=
      Nat.mul_pos positive (Nat.two_pow_pos exponent)
    have hone := roundDiv_mul_right mantissa 1 hfactor
    rw [Nat.one_mul] at hone
    rw [h, Nat.mul_assoc, Nat.mul_comm (Nat.pow 2 exponent), hone]
    simp [roundDiv, Nat.mod_one]
  have hbelow : mantissa ≠ Nat.pow 2 53 := Nat.ne_of_lt canonical.1
  unfold ofRatio
  simp only [hdiv, log2_sub_of_canonical canonical nonzero, hround, if_neg hbelow,
    dif_pos canonical]

/-- The sign of a ratio is that of the number nearest to it. -/
theorem ofRatio_true (numerator denominator : Nat) :
    ofRatio true numerator denominator = (ofRatio false numerator denominator).negate := by
  unfold ofRatio
  simp only
  split
  · split <;> rfl
  · split <;> rfl

end Binary64

namespace Decimal

/-! ## Lengths of digits -/

/-- A power of ten as a factor adds zeros at the end of the digits. -/
theorem toDigits_mul_pow {digits : Nat} (nonzero : digits ≠ 0) (zeros : Nat) :
    Nat.toDigits 10 (digits * Nat.pow 10 zeros) =
      Nat.toDigits 10 digits ++ List.replicate zeros '0' := by
  induction zeros with
  | zero => simp
  | succ zeros ih =>
      have hpower : Nat.pow 10 (zeros + 1) = Nat.pow 10 zeros * 10 := rfl
      have hpositive : 0 < digits * Nat.pow 10 zeros :=
        Nat.mul_pos (Nat.pos_of_ne_zero nonzero) (Nat.pow_pos (by decide))
      have hstep := Nat.toDigits_append_toDigits (b := 10) (d := 0) (by decide) hpositive
        (by decide)
      rw [Nat.add_zero, Nat.toDigits_zero, ih] at hstep
      rw [hpower, ← Nat.mul_assoc, Nat.mul_comm, ← hstep, List.append_assoc,
        List.replicate_succ']

/-- Zeros at the end count in the length. -/
theorem length_mul_pow {digits : Nat} (nonzero : digits ≠ 0) (zeros : Nat) :
    length (digits * Nat.pow 10 zeros) = length digits + zeros := by
  rw [length, toDigits_mul_pow nonzero, List.length_append, List.length_replicate, length]

/-- A length is within a bound when the digits are below that power of ten. -/
theorem length_le_iff {digits bound : Nat} (positive : 0 < bound) :
    length digits ≤ bound ↔ digits < Nat.pow 10 bound :=
  Nat.length_toDigits_le_iff (by decide) positive

theorem length_pos (digits : Nat) : 0 < length digits :=
  Nat.length_toDigits_pos

/-! ## Decimals -/

/-- A zero has the sign that it is read with. -/
theorem toBinary64_zero (negative : Bool) (scale : Int) :
    toBinary64 negative ⟨0, scale⟩ = .zero negative := by
  simp [toBinary64]

/-- The sign of a decimal is that of the number nearest to it. -/
theorem toBinary64_true (x : Decimal) :
    toBinary64 true x = (toBinary64 false x).negate := by
  unfold toBinary64
  simp only
  split
  · rfl
  · split
    · rfl
    · split
      · exact Binary64.ofRatio_true ..
      · exact Binary64.ofRatio_true ..

/-- Zeros at the end of the digits change nothing. -/
theorem toBinary64_shift (negative : Bool) {digits : Nat} (nonzero : digits ≠ 0) (scale : Int)
    (zeros : Nat) :
    toBinary64 negative ⟨digits * Nat.pow 10 zeros, scale - zeros⟩ =
      toBinary64 negative ⟨digits, scale⟩ := by
  have hpositive : ∀ power, 0 < Nat.pow 10 power := fun power => Nat.pow_pos (by decide)
  have hnonzero : digits * Nat.pow 10 zeros ≠ 0 :=
    Nat.mul_ne_zero nonzero (Nat.ne_of_gt (hpositive _))
  have hmagnitude : ((length (digits * Nat.pow 10 zeros) : Nat) : Int) + (scale - zeros) =
      length digits + scale := by
    rw [length_mul_pow nonzero]
    omega
  unfold toBinary64
  simp only [hmagnitude, hnonzero, nonzero, false_or]
  split
  · rfl
  · split
    · rfl
    · by_cases hscale : 0 ≤ scale
      · rw [if_pos hscale]
        by_cases hafter : 0 ≤ scale - zeros
        · -- The point stays behind the digits, and the zeros become part of the power.
          have hpower : scale.toNat = zeros + (scale - zeros).toNat := by omega
          rw [if_pos hafter, hpower]
          simp only [Nat.pow_eq, Nat.pow_add, Nat.mul_assoc]
        · -- The point moves in front of some of the zeros.
          have hpower : zeros = scale.toNat + (-(scale - zeros)).toNat := by omega
          have hfactor := Binary64.ofRatio_mul_right negative (digits * Nat.pow 10 scale.toNat) 1
            (hpositive (-(scale - zeros)).toNat)
          rw [if_neg hafter, ← hfactor, Nat.one_mul, Nat.mul_assoc]
          simp only [Nat.pow_eq, ← Nat.pow_add, ← hpower]
      · have hpower : (-(scale - zeros)).toNat = (-scale).toNat + zeros := by omega
        have hfactor := Binary64.ofRatio_mul_right negative digits (Nat.pow 10 (-scale).toNat)
          (hpositive zeros)
        rw [if_neg hscale, if_neg (by omega), hpower, ← hfactor]
        simp only [Nat.pow_eq, ← Nat.pow_add]

/-! ## All digits of a number -/

/-- The digits of a number and their scale give its value. -/
theorem exact_ratio (mantissa : Nat) {exponent places : Nat} (h : exponent + places = 1074) :
    mantissa * Nat.pow 5 places * Nat.pow 2 1074 =
      mantissa * Nat.pow 2 exponent * Nat.pow 10 places := by
  simp only [Nat.pow_eq]
  have hten : 10 ^ places = 2 ^ places * 5 ^ places := (Nat.mul_pow 2 5 places)
  rw [← h, Nat.pow_add, hten]
  simp only [Nat.mul_assoc, Nat.mul_left_comm, Nat.mul_comm]

/-- A decimal in the range of binary64 is read as a ratio. -/
theorem toBinary64_of_range (negative : Bool) {digits : Nat} {scale : Int}
    (nonzero : digits ≠ 0) (lower : -330 ≤ (length digits : Int) + scale)
    (upper : (length digits : Int) + scale ≤ 310) :
    toBinary64 negative ⟨digits, scale⟩ =
      if 0 ≤ scale then .ofRatio negative (digits * Nat.pow 10 scale.toNat) 1
      else .ofRatio negative digits (Nat.pow 10 (-scale).toNat) := by
  unfold toBinary64
  simp only
  rw [if_neg (by omega), if_neg (by omega)]

/-- The digits of a number without fraction read back as the number. -/
theorem toBinary64_whole {mantissa exponent : Nat}
    (canonical : Binary64.IsCanonical mantissa exponent) (nonzero : mantissa ≠ 0)
    (whole : 1074 ≤ exponent) :
    toBinary64 false ⟨mantissa * Nat.pow 2 (exponent - 1074), 0⟩ =
      .finite false mantissa exponent canonical := by
  have hmantissa : mantissa < 2 ^ 53 := canonical.1
  have hexponent : exponent ≤ 2045 := canonical.2.2
  have hbound : mantissa * Nat.pow 2 (exponent - 1074) < Nat.pow 10 310 := by
    rw [Nat.pow_eq, Nat.pow_eq]
    calc mantissa * 2 ^ (exponent - 1074)
        < 2 ^ 53 * 2 ^ (exponent - 1074) :=
          Nat.mul_lt_mul_of_pos_right hmantissa (Nat.two_pow_pos _)
      _ ≤ 2 ^ 53 * 2 ^ 971 :=
          Nat.mul_le_mul_left _ (Nat.pow_le_pow_right (by decide) (by omega))
      _ ≤ 10 ^ 310 := by decide +kernel
  have hdigits : mantissa * Nat.pow 2 (exponent - 1074) ≠ 0 :=
    Nat.mul_ne_zero nonzero (Nat.ne_of_gt (Nat.two_pow_pos _))
  have hlength := (length_le_iff (by decide)).mpr hbound
  rw [toBinary64_of_range false hdigits (by omega) (by omega), if_pos (by decide)]
  refine Binary64.ofRatio_exact false canonical nonzero Nat.one_pos ?_
  have hpower : exponent - 1074 + 1074 = exponent := by omega
  simp only [Nat.pow_eq]
  rw [Int.toNat_zero, Nat.pow_zero, Nat.mul_one, Nat.mul_one, Nat.mul_assoc, ← Nat.pow_add, hpower]

/-- The digits of a number with a fraction read back as the number. -/
theorem toBinary64_fraction {mantissa exponent places : Nat}
    (canonical : Binary64.IsCanonical mantissa exponent) (nonzero : mantissa ≠ 0)
    (positive : 0 < places) (h : exponent + places = 1074) :
    toBinary64 false ⟨mantissa * Nat.pow 5 places, -(places : Int)⟩ =
      .finite false mantissa exponent canonical := by
  have hmantissa : mantissa < 2 ^ 53 := canonical.1
  have hfive : 0 < Nat.pow 5 places := Nat.pow_pos (by decide)
  have hdigits : mantissa * Nat.pow 5 places ≠ 0 := Nat.mul_ne_zero nonzero (Nat.ne_of_gt hfive)
  have hupper : mantissa * Nat.pow 5 places < Nat.pow 10 (310 + places) := by
    rw [Nat.pow_eq, Nat.pow_eq]
    calc mantissa * 5 ^ places < 2 ^ 53 * 5 ^ places := Nat.mul_lt_mul_of_pos_right hmantissa hfive
      _ ≤ 10 ^ 310 * 10 ^ places :=
          Nat.mul_le_mul (by decide +kernel) (Nat.pow_le_pow_left (by decide) _)
      _ = 10 ^ (310 + places) := (Nat.pow_add ..).symm
  -- The power of two that is left over is below the power of five that is given away.
  have hlower : places - 331 < length (mantissa * Nat.pow 5 places) := by
    by_cases hsmall : places ≤ 331
    · have := length_pos (mantissa * Nat.pow 5 places)
      omega
    · have hsplit : 331 + (places - 331) = places := by omega
      have hpow : Nat.pow 10 (places - 331) ≤ mantissa * Nat.pow 5 places := by
        rw [Nat.pow_eq, Nat.pow_eq]
        calc 10 ^ (places - 331) = 2 ^ (places - 331) * 5 ^ (places - 331) := Nat.mul_pow 2 5 _
          _ ≤ 2 ^ 743 * 5 ^ (places - 331) :=
              Nat.mul_le_mul_right _ (Nat.pow_le_pow_right (by decide) (by omega))
          _ ≤ 5 ^ 331 * 5 ^ (places - 331) := Nat.mul_le_mul_right _ (by decide +kernel)
          _ = 5 ^ places := by rw [← Nat.pow_add, hsplit]
          _ ≤ mantissa * 5 ^ places := Nat.le_mul_of_pos_left _ (Nat.pos_of_ne_zero nonzero)
      refine Nat.lt_of_not_le fun hle => ?_
      exact Nat.not_lt.mpr hpow ((length_le_iff (by omega)).mp hle)
  have hlength := (length_le_iff (by omega)).mpr hupper
  rw [toBinary64_of_range false hdigits (by omega) (by omega), if_neg (by omega)]
  refine Binary64.ofRatio_exact false canonical nonzero (Nat.pow_pos (by decide)) ?_
  rw [Int.neg_neg, Int.toNat_natCast]
  exact exact_ratio mantissa h

/-- All digits of a number read back as the number. -/
theorem toBinary64_exact {mantissa exponent : Nat}
    (canonical : Binary64.IsCanonical mantissa exponent) (nonzero : mantissa ≠ 0) :
    (exact mantissa exponent).toBinary64 false = .finite false mantissa exponent canonical := by
  unfold exact
  split
  · rename_i whole
    exact toBinary64_whole canonical nonzero whole
  · exact toBinary64_fraction canonical nonzero (by omega) (by omega)

end Decimal

end Schemata
