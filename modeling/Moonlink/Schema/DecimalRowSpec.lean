-- SUMMARY: When texts of decimals are converted exactly, for every numeral, precision and scale.
import Moonlink.Schema.DecimalRow

namespace Moonlink.Schema

open Lib Row

/-! ## Arithmetic -/

theorem asI8_of_lt {n : Int} (h : -2 ^ 7 ≤ n) (h' : n < 2 ^ 7) : asI8 n = n := by
  unfold asI8
  rw [Int.bmod_eq_of_le] <;> omega

theorem returnErrIf_eq_ok_iff {c : Prop} [Decidable c] {e : DecimalConversionError} {u : Unit} :
    returnErrIf c e = .ok u ↔ ¬ c := by
  unfold returnErrIf
  split
  · next h => exact iff_of_false nofun fun hnot => hnot h
  · next h => exact iff_of_true rfl h

theorem returnErrIf_bind_ne {c : Prop} [Decidable c] {e : DecimalConversionError}
    {f : Unit → Except DecimalFailure RowValue} (h : ¬ c → f () ≠ .error .arithmetic) :
    (returnErrIf c e >>= f) ≠ .error .arithmetic := by
  unfold returnErrIf
  split
  · exact fun herror => by cases herror
  · next hc => exact h hc

theorem DecimalLib.subI8_of_lt (lib : DecimalLib) {a b : Int} (h : -2 ^ 7 ≤ a - b) (h' : a - b < 2 ^ 7) :
    lib.subI8 a b = .ok (a - b) := if_pos ⟨h, h'⟩

theorem DecimalLib.subI8_of_not (lib : DecimalLib) (hchecks : lib.overflowChecks = true) {a b : Int}
    (h : ¬ (-2 ^ 7 ≤ a - b ∧ a - b < 2 ^ 7)) : lib.subI8 a b = .error .arithmetic := by
  rw [DecimalLib.subI8, if_neg h, hchecks]
  rfl

theorem convertMantissaToRowValue_eq_ok_iff {mantissa : Int} {v : RowValue} :
    convertMantissaToRowValue mantissa = .ok v ↔
      (-2 ^ 127 ≤ mantissa ∧ mantissa < 2 ^ 127) ∧ v = .decimal (BitVec.ofInt 128 mantissa) := by
  unfold convertMantissaToRowValue
  split
  · next h => exact ⟨fun hv => ⟨h, by cases hv; rfl⟩, fun hv => by rw [hv.2]⟩
  · next h => exact iff_of_false nofun fun hv => h hv.1

theorem convertMantissaToRowValue_ne_arithmetic {mantissa : Int} :
    convertMantissaToRowValue mantissa ≠ .error .arithmetic := by
  unfold convertMantissaToRowValue
  split <;> simp

theorem toInt_ofInt_128 {m : Int} (h : -2 ^ 127 ≤ m ∧ m < 2 ^ 127) : (BitVec.ofInt 128 m).toInt = m := by
  rw [BitVec.toInt_ofInt, Int.bmod_eq_of_le] <;> omega

theorem natAbs_lt_pow_numDigits (n : Nat) : n < 10 ^ numDigits n := (numDigits_le_iff (numDigits_pos n)).mp le_rfl

/-! ## Scales up to the precision -/

section Standard

variable {lib : DecimalLib} {d : BigDecimal} {scale : Int8} {precision : UInt8} {v : RowValue}

/-- The digits and the scale are of lengths that fit. -/
def StandardFits (d : BigDecimal) (scale : Int8) (precision : UInt8) : Prop :=
  numDigits d.digits.natAbs ≤ precision.toNat ∧ -2 ^ 7 ≤ d.scale ∧ d.scale ≤ scale.toInt

theorem handleStandard_of_fits (h : StandardFits d scale precision) (hp : precision.toNat < 2 ^ 7)
    (hscale : 0 ≤ scale.toInt) : handleStandard lib d scale precision = (do
      let actualIntegerLen ← lib.subI8 (numDigits d.digits.natAbs) d.scale
      returnErrIf (precision.toNat - scale.toInt < actualIntegerLen)
        (.integerPartOutOfRange d (precision.toNat - scale.toInt) actualIntegerLen)
      let missing ← lib.subI8 scale.toInt d.scale
      if 0 < missing then convertMantissaToRowValue (d.digits * 10 ^ missing.toNat)
      else convertMantissaToRowValue d.digits) := by
  obtain ⟨hdigits, hlow, hhigh⟩ := h
  have hscaleLt : scale.toInt < 2 ^ 7 := Int8.toInt_lt scale
  unfold handleStandard
  simp only [returnErrIf]
  rw [if_neg (by omega), if_neg (by omega), if_neg (by omega), if_neg (by omega), ok_bind, ok_bind, ok_bind, ok_bind,
    asI8_of_lt (by omega) (by omega), asI8_of_lt (by omega) (by omega),
    lib.subI8_of_lt (by omega) (by omega), ok_bind]

theorem standardFits_of_ok (h : handleStandard lib d scale precision = .ok v) : StandardFits d scale precision := by
  unfold handleStandard at h
  obtain ⟨_, -, h⟩ := bind_eq_ok.mp h
  obtain ⟨_, hrange, h⟩ := bind_eq_ok.mp h
  obtain ⟨_, hprecision, h⟩ := bind_eq_ok.mp h
  obtain ⟨_, hscales, -⟩ := bind_eq_ok.mp h
  have hrange := returnErrIf_eq_ok_iff.mp hrange
  have hprecision := returnErrIf_eq_ok_iff.mp hprecision
  have hscales := returnErrIf_eq_ok_iff.mp hscales
  exact ⟨by omega, by omega, by omega⟩

/-- What is accepted and what is returned, where the lengths do not overflow. -/
theorem handleStandard_eq_ok_iff (hp : precision.toNat < 2 ^ 7) (hscale : 0 ≤ scale.toInt)
    (hlength : numDigits d.digits.natAbs - d.scale < 2 ^ 7) :
    handleStandard lib d scale precision = .ok v ↔ StandardFits d scale precision ∧
      numDigits d.digits.natAbs - d.scale ≤ precision.toNat - scale.toInt ∧
      convertMantissaToRowValue (d.digits * 10 ^ (scale.toInt - d.scale).toNat) = .ok v := by
  have hscaleLt : scale.toInt < 2 ^ 7 := Int8.toInt_lt scale
  constructor
  · intro h
    obtain ⟨hdigits, hlow, hhigh⟩ := standardFits_of_ok h
    rw [handleStandard_of_fits ⟨hdigits, hlow, hhigh⟩ hp hscale, lib.subI8_of_lt (by omega) hlength, ok_bind] at h
    obtain ⟨_, hinteger, h⟩ := bind_eq_ok.mp h
    have hinteger := returnErrIf_eq_ok_iff.mp hinteger
    have hpos := numDigits_pos d.digits.natAbs
    rw [lib.subI8_of_lt (by omega) (by omega), ok_bind] at h
    refine ⟨⟨hdigits, hlow, hhigh⟩, by omega, ?_⟩
    split at h
    · exact h
    · have hzero : (scale.toInt - d.scale).toNat = 0 := by omega
      rw [hzero, pow_zero, mul_one]
      exact h
  · rintro ⟨hfits, hinteger, h⟩
    obtain ⟨hdigits, hlow, hhigh⟩ := hfits
    have hpos := numDigits_pos d.digits.natAbs
    rw [handleStandard_of_fits ⟨hdigits, hlow, hhigh⟩ hp hscale, lib.subI8_of_lt (by omega) hlength, ok_bind,
      (returnErrIf_eq_ok_iff (u := ())).mpr (by omega), ok_bind, lib.subI8_of_lt (by omega) (by omega), ok_bind]
    split
    · exact h
    · have hzero : (scale.toInt - d.scale).toNat = 0 := by omega
      rw [hzero, pow_zero, mul_one] at h
      exact h

/-- The lengths overflow if the digits are followed by more zeros than 8 bits count. -/
theorem handleStandard_arithmetic_iff (hchecks : lib.overflowChecks = true) (hp : precision.toNat < 2 ^ 7)
    (hscale : 0 ≤ scale.toInt) : handleStandard lib d scale precision = .error .arithmetic ↔
      StandardFits d scale precision ∧ 2 ^ 7 ≤ numDigits d.digits.natAbs - d.scale := by
  have hscaleLt : scale.toInt < 2 ^ 7 := Int8.toInt_lt scale
  by_cases hfits : StandardFits d scale precision
  · rw [handleStandard_of_fits hfits hp hscale, and_iff_right hfits]
    obtain ⟨hdigits, hlow, hhigh⟩ := hfits
    have hpos := numDigits_pos d.digits.natAbs
    by_cases hlength : numDigits d.digits.natAbs - d.scale < 2 ^ 7
    · refine iff_of_false ?_ (by omega)
      rw [lib.subI8_of_lt (by omega) hlength, ok_bind]
      refine returnErrIf_bind_ne fun hinteger => ?_
      rw [lib.subI8_of_lt (by omega) (by omega), ok_bind]
      split <;> exact convertMantissaToRowValue_ne_arithmetic
    · refine iff_of_true ?_ (by omega)
      rw [lib.subI8_of_not hchecks (by omega)]
      rfl
  · refine iff_of_false ?_ fun h => hfits h.1
    unfold handleStandard StandardFits at *
    refine returnErrIf_bind_ne fun _ => returnErrIf_bind_ne fun hrange => ?_
    refine returnErrIf_bind_ne fun hprecision => returnErrIf_bind_ne fun hscales => ?_
    exact absurd ⟨by omega, by omega, by omega⟩ hfits

end Standard

theorem natAbs_lt_of_convertMantissa {mantissa : Int} {v : RowValue} (h : convertMantissaToRowValue mantissa = .ok v) :
    numDigits mantissa.natAbs < 2 ^ 7 := by
  obtain ⟨⟨hlow, hhigh⟩, -⟩ := convertMantissaToRowValue_eq_ok_iff.mp h
  have hlt : mantissa.natAbs < 10 ^ 39 := by omega
  have hdigits := (numDigits_le_iff (by decide)).mpr hlt
  omega

/-! ## Scales that exceed the precision -/

section Fractional

variable {lib : DecimalLib} {d : BigDecimal} {scale : Int8} {precision : UInt8} {v : RowValue}

theorem handleFractionalOnly_eq (hround : lib.withScaleRound d scale.toInt = d.rescale scale.toInt) :
    handleFractionalOnly lib d scale precision = (do
      let integerPartLength ← lib.subI8 (asI8 (numDigits (d.rescale scale.toInt).digits.natAbs)) scale.toInt
      returnErrIf (0 < integerPartLength) (.integerPartOutOfRange d 0 integerPartLength)
      returnErrIf (precision.toNat < numDigits (d.rescale scale.toInt).digits.natAbs)
        (.precisionOutOfRange d precision (numDigits (d.rescale scale.toInt).digits.natAbs).toUInt8)
      convertMantissaToRowValue (d.rescale scale.toInt).digits) := by
  have hscale : asI8 scale.toInt = scale.toInt := asI8_of_lt (Int8.le_toInt scale) (Int8.toInt_lt scale)
  unfold handleFractionalOnly
  rw [hround]
  dsimp only [BigDecimal.rescale]
  rw [hscale]
  simp only [lt_irrefl, if_false]
  rfl

/-- What is accepted and what is returned. -/
theorem handleFractionalOnly_eq_ok_iff (hround : lib.withScaleRound d scale.toInt = d.rescale scale.toInt)
    (hscale : 0 ≤ scale.toInt) : handleFractionalOnly lib d scale precision = .ok v ↔
      numDigits (d.rescale scale.toInt).digits.natAbs ≤ scale.toInt ∧
      numDigits (d.rescale scale.toInt).digits.natAbs ≤ precision.toNat ∧
      convertMantissaToRowValue (d.rescale scale.toInt).digits = .ok v := by
  have hscaleLt : scale.toInt < 2 ^ 7 := Int8.toInt_lt scale
  have hpos := numDigits_pos (d.rescale scale.toInt).digits.natAbs
  rw [handleFractionalOnly_eq hround]
  constructor
  · intro h
    obtain ⟨integerPartLength, hlength, hrest⟩ := bind_eq_ok.mp h
    obtain ⟨_, hinteger, hlast⟩ := bind_eq_ok.mp hrest
    obtain ⟨_, hprecision, hmantissa⟩ := bind_eq_ok.mp hlast
    have hinteger := returnErrIf_eq_ok_iff.mp hinteger
    have hprecision := returnErrIf_eq_ok_iff.mp hprecision
    -- A number of 128 bits is not so long that its length overflows.
    have hdigits := natAbs_lt_of_convertMantissa hmantissa
    rw [asI8_of_lt (by omega) (by omega), lib.subI8_of_lt (by omega) (by omega)] at hlength
    cases hlength
    exact ⟨by omega, by omega, hmantissa⟩
  · rintro ⟨hinteger, hprecision, h⟩
    have hdigits := natAbs_lt_of_convertMantissa h
    rw [asI8_of_lt (by omega) (by omega), lib.subI8_of_lt (by omega) (by omega), ok_bind,
      (returnErrIf_eq_ok_iff (u := ())).mpr (by omega), ok_bind, (returnErrIf_eq_ok_iff (u := ())).mpr (by omega), ok_bind]
    exact h

/-- The length overflows if its low 8 bits, as a signed number, are too small. -/
theorem handleFractionalOnly_arithmetic_iff (hchecks : lib.overflowChecks = true)
    (hround : lib.withScaleRound d scale.toInt = d.rescale scale.toInt) (hscale : 0 ≤ scale.toInt) :
    handleFractionalOnly lib d scale precision = .error .arithmetic ↔
      2 ^ 7 ≤ numDigits (d.rescale scale.toInt).digits.natAbs % 2 ^ 8 ∧
      ((numDigits (d.rescale scale.toInt).digits.natAbs % 2 ^ 8 : ℕ) : ℤ) < 2 ^ 7 + scale.toInt := by
  rw [handleFractionalOnly_eq hround]
  generalize numDigits (d.rescale scale.toInt).digits.natAbs = length
  have hscaleLt : scale.toInt < 2 ^ 7 := Int8.toInt_lt scale
  have hwrap : asI8 length =
      if length % 2 ^ 8 < 2 ^ 7 then ((length % 2 ^ 8 : ℕ) : ℤ) else ((length % 2 ^ 8 : ℕ) : ℤ) - 2 ^ 8 := by
    unfold asI8
    rw [Int.bmod_def]
    split <;> split <;> omega
  by_cases hfits : -2 ^ 7 ≤ asI8 length - scale.toInt ∧ asI8 length - scale.toInt < 2 ^ 7
  · refine iff_of_false ?_ ?_
    · rw [lib.subI8_of_lt hfits.1 hfits.2, ok_bind]
      exact returnErrIf_bind_ne fun _ => returnErrIf_bind_ne fun _ => convertMantissaToRowValue_ne_arithmetic
    · rw [hwrap] at hfits
      split at hfits <;> omega
  · refine iff_of_true ?_ ?_
    · rw [lib.subI8_of_not hchecks hfits]
      rfl
    · rw [hwrap] at hfits
      split at hfits <;> omega

end Fractional

/-! ## Negative scales -/

section Negative

variable {d : BigDecimal} {scale : Int8} {precision : UInt8} {v : RowValue}

theorem roundedMantissa_eq (hscale : scale.toInt < 0) (mantissa : Int) :
    roundedMantissa mantissa scale =
      roundHalfAway (mantissa / 10 ^ scale.toInt.natAbs) * 10 ^ scale.toInt.natAbs := by
  obtain ⟨k, hk⟩ : ∃ k, scale.toInt.natAbs = k + 1 := ⟨scale.toInt.natAbs - 1, by omega⟩
  have hpower : 10 ^ (k + 1) = 2 * (5 * 10 ^ k) := by ring
  have hhalf : ((10 ^ (k + 1) / 2 : ℕ) : ℤ) = (5 * 10 ^ k : ℕ) := by
    rw [hpower, Nat.mul_div_cancel_left _ (by decide)]
  have hround := @roundHalfAway_div mantissa (5 * 10 ^ k) (by positivity)
  rw [← hpower] at hround
  unfold roundedMantissa
  dsimp only
  rw [hk, hhalf]
  push_cast at hround ⊢
  rw [hround]
  split <;> rfl

theorem handleNegativeScale_eq_ok_iff : handleNegativeScale d scale precision = .ok v ↔
    numDigits (roundedMantissa d.digits scale).natAbs ≤ precision.toNat + scale.toInt.natAbs ∧
    convertMantissaToRowValue (roundedMantissa d.digits scale) = .ok v := by
  unfold handleNegativeScale
  dsimp only
  split
  · next h => exact iff_of_false nofun fun hv => by omega
  · next h => exact (and_iff_right (by omega)).symm

theorem handleNegativeScale_ne_arithmetic : handleNegativeScale d scale precision ≠ .error .arithmetic := by
  unfold handleNegativeScale
  dsimp only
  split
  · exact fun h => by cases h
  · exact convertMantissaToRowValue_ne_arithmetic

end Negative

/-! ## Exactness -/

/-- The scale of a decimal has 64 bits. -/
def IsReadable (d : BigDecimal) : Prop := -2 ^ 63 ≤ d.scale ∧ d.scale < 2 ^ 63

/-- The decimal library reads the digits and the scale of a numeral, and rejects scales that are out of range. -/
structure DecimalLib.Reads (lib : DecimalLib) (n : Numeral) : Prop where
  some : IsReadable n.toBigDecimal → lib.fromStr n.text = some n.toBigDecimal
  none : ¬ IsReadable n.toBigDecimal → lib.fromStr n.text = none

/-- A decimal that is returned is the value of the numeral for the scale, and fits; no length overflows; and the
numerals are accepted that fit without rounding. -/
structure ConvertsExactly (lib : DecimalLib) (n : Numeral) (precision : UInt8) (scale : Int8) : Prop where
  noOverflow : convertDecimalToRowValue { lib with overflowChecks := true } n.text precision scale ≠ .error .arithmetic
  standard : ∀ m, convertDecimalToRowValue lib n.text precision scale = .ok (.decimal m) →
    0 ≤ scale.toInt → scale.toInt ≤ precision.toNat →
      (m.toInt : ℚ) = n.value * 10 ^ scale.toInt ∧ m.toInt.natAbs < 10 ^ precision.toNat
  fractional : ∀ m, convertDecimalToRowValue lib n.text precision scale = .ok (.decimal m) →
    precision.toNat < scale.toInt →
      m.toInt = roundHalfAway (n.value * 10 ^ scale.toInt) ∧ m.toInt.natAbs < 10 ^ precision.toNat
  negative : ∀ m, convertDecimalToRowValue lib n.text precision scale = .ok (.decimal m) → scale.toInt < 0 →
    m.toInt = roundHalfAway (n.value / 10 ^ scale.toInt.natAbs) * 10 ^ scale.toInt.natAbs ∧
      m.toInt.natAbs < 10 ^ (precision.toNat + scale.toInt.natAbs)
  accepts : 0 ≤ scale.toInt → scale.toInt ≤ precision.toNat → n.exponent = none → n.fractionDigits ≤ scale.toInt →
    |n.value| < 10 ^ (precision.toNat - scale.toInt) →
      ∃ m, convertDecimalToRowValue lib n.text precision scale = .ok (.decimal m)

/-- The digits, whose point and exponent are left out, have the rounded value, or are rejected. -/
def NegativeCondition (d : BigDecimal) (precision : UInt8) (scale : Int8) : Prop :=
  d.scale = 0 ∨
  |(d.digits : ℚ) / 10 ^ scale.toInt.natAbs| < 1 / 2 ∧ |d.value / 10 ^ scale.toInt.natAbs| < 1 / 2 ∨
  10 ^ precision.toNat ≤ (roundHalfAway (d.digits / 10 ^ scale.toInt.natAbs)).natAbs ∨
  ¬ (-2 ^ 127 ≤ roundHalfAway (d.digits / 10 ^ scale.toInt.natAbs) * 10 ^ scale.toInt.natAbs ∧
    roundHalfAway (d.digits / 10 ^ scale.toInt.natAbs) * 10 ^ scale.toInt.natAbs < 2 ^ 127)

/-- The number of digits of the rounded value does not overflow. -/
def FractionalCondition (d : BigDecimal) (scale : Int8) : Prop :=
  ¬ (2 ^ 7 ≤ numDigits (d.rescale scale.toInt).digits.natAbs % 2 ^ 8 ∧
    ((numDigits (d.rescale scale.toInt).digits.natAbs % 2 ^ 8 : ℕ) : ℤ) < 2 ^ 7 + scale.toInt)

/-- The digits are not followed by so many zeros that their length overflows, and the numeral is not a zero without
a fraction where the type has no digits before the point. -/
def StandardCondition (n : Numeral) (precision : UInt8) (scale : Int8) : Prop :=
  ¬ (StandardFits n.toBigDecimal scale precision ∧
    2 ^ 7 ≤ numDigits n.toBigDecimal.digits.natAbs - n.toBigDecimal.scale) ∧
  ¬ (n.exponent = none ∧ n.toBigDecimal.digits = 0 ∧ n.fractionDigits = 0 ∧ scale.toInt = precision.toNat)

def ExactCondition (n : Numeral) (precision : UInt8) (scale : Int8) : Prop :=
  IsReadable n.toBigDecimal →
    if scale.toInt < 0 then NegativeCondition n.toBigDecimal precision scale
    else if precision.toNat < scale.toInt then FractionalCondition n.toBigDecimal scale
    else StandardCondition n precision scale

section Exactness

variable {lib : DecimalLib} {n : Numeral} {precision : UInt8} {scale : Int8}

theorem convertDecimal_of_readable (hreads : lib.Reads n) (h : IsReadable n.toBigDecimal) :
    convertDecimalToRowValue lib n.text precision scale =
      if scale.toInt < 0 then handleNegativeScale n.toBigDecimal scale precision
      else if asI8 precision.toNat < scale.toInt then handleFractionalOnly lib n.toBigDecimal scale precision
      else handleStandard lib n.toBigDecimal scale precision := by
  rw [convertDecimalToRowValue, hreads.some h]
  simp only [Int8.lt_iff_toInt_lt]
  rfl

/-- The build that checks reads the same. -/
theorem DecimalLib.Reads.checked (hreads : lib.Reads n) : DecimalLib.Reads { lib with overflowChecks := true } n :=
  ⟨hreads.some, hreads.none⟩

/-- The value that is returned for a scale up to the precision. -/
theorem handleStandard_exact {d : BigDecimal} {m : BitVec 128} (hp : precision.toNat < 2 ^ 7) (hscale : 0 ≤ scale.toInt)
    (hlength : numDigits d.digits.natAbs - d.scale < 2 ^ 7)
    (h : handleStandard lib d scale precision = .ok (.decimal m)) :
    (m.toInt : ℚ) = d.value * 10 ^ scale.toInt ∧ m.toInt.natAbs < 10 ^ precision.toNat := by
  obtain ⟨⟨-, -, hhigh⟩, hinteger, hmantissa⟩ := (handleStandard_eq_ok_iff hp hscale hlength).mp h
  obtain ⟨hrange, hm⟩ := convertMantissaToRowValue_eq_ok_iff.mp hmantissa
  cases hm
  rw [toInt_ofInt_128 hrange, d.value_mul_zpow_of_le hhigh]
  refine ⟨rfl, ?_⟩
  rw [Int.natAbs_mul, Int.natAbs_pow]
  calc d.digits.natAbs * 10 ^ (scale.toInt - d.scale).toNat
      < 10 ^ numDigits d.digits.natAbs * 10 ^ (scale.toInt - d.scale).toNat :=
        Nat.mul_lt_mul_of_pos_right (natAbs_lt_pow_numDigits _) (by positivity)
    _ = 10 ^ (numDigits d.digits.natAbs + (scale.toInt - d.scale).toNat) := (pow_add _ _ _).symm
    _ ≤ 10 ^ precision.toNat := Nat.pow_le_pow_right (by decide) (by omega)

/-- A numeral without an exponent that has no more digits than the type, before and after the point, is accepted
unless it is a zero that has one digit too many before the point. -/
theorem handleStandard_accepts (hp : 1 ≤ precision.toNat ∧ precision.toNat ≤ 38) (hscale : 0 ≤ scale.toInt)
    (hle : scale.toInt ≤ precision.toNat) (hexponent : n.exponent = none) (hfraction : n.fractionDigits ≤ scale.toInt)
    (hvalue : |n.value| < 10 ^ (precision.toNat - scale.toInt)) :
    (∃ m, handleStandard lib n.toBigDecimal scale precision = .ok (.decimal m)) ↔
      ¬ (n.toBigDecimal.digits = 0 ∧ n.fractionDigits = 0 ∧ scale.toInt = precision.toNat) := by
  have hscaleEq : n.toBigDecimal.scale = n.fractionDigits := by
    unfold Numeral.toBigDecimal
    rw [hexponent]
    simp
  obtain ⟨k, hk⟩ : ∃ k : ℕ, (precision.toNat : ℤ) - scale.toInt + n.fractionDigits = k :=
    ⟨_, (Int.toNat_of_nonneg (by omega)).symm⟩
  have hlt : n.toBigDecimal.digits.natAbs < 10 ^ k := by
    have hmul : |n.value| * (10 : ℚ) ^ (n.fractionDigits : ℤ) < 10 ^ (k : ℤ) := by
      rw [← hk, zpow_add₀ (by norm_num)]
      exact mul_lt_mul_of_pos_right hvalue (by positivity)
    have hdigits : |n.value| * (10 : ℚ) ^ (n.fractionDigits : ℤ) = n.toBigDecimal.digits.natAbs := by
      rw [Numeral.value, ← abs_of_pos (show (0 : ℚ) < 10 ^ (n.fractionDigits : ℤ) by positivity), ← abs_mul,
        BigDecimal.value_mul_zpow, hscaleEq, sub_self, zpow_zero, mul_one, Nat.cast_natAbs, Int.cast_abs]
    rw [hdigits, zpow_natCast] at hmul
    exact_mod_cast hmul
  -- The number of digits, which is one for zero.
  have hcount : n.toBigDecimal.digits = 0 ∧ numDigits n.toBigDecimal.digits.natAbs = 1 ∨
      n.toBigDecimal.digits ≠ 0 ∧ numDigits n.toBigDecimal.digits.natAbs ≤ k := by
    by_cases hzero : n.toBigDecimal.digits = 0
    · exact .inl ⟨hzero, by rw [hzero]; rfl⟩
    · refine .inr ⟨hzero, (numDigits_le_iff (Nat.pos_of_ne_zero ?_)).mpr hlt⟩
      rintro rfl
      omega
  have hmantissa : ∃ m, convertMantissaToRowValue
      (n.toBigDecimal.digits * 10 ^ (scale.toInt - n.toBigDecimal.scale).toNat) = .ok (.decimal m) := by
    refine ⟨_, convertMantissaToRowValue_eq_ok_iff.mpr ⟨?_, rfl⟩⟩
    have hbound : (n.toBigDecimal.digits * 10 ^ (scale.toInt - n.toBigDecimal.scale).toNat).natAbs < 10 ^ 38 := by
      rw [Int.natAbs_mul, Int.natAbs_pow]
      calc n.toBigDecimal.digits.natAbs * 10 ^ (scale.toInt - n.toBigDecimal.scale).toNat
          < 10 ^ k * 10 ^ (scale.toInt - n.toBigDecimal.scale).toNat :=
            Nat.mul_lt_mul_of_pos_right hlt (by positivity)
        _ = 10 ^ (k + (scale.toInt - n.toBigDecimal.scale).toNat) := (pow_add _ _ _).symm
        _ ≤ 10 ^ 38 := Nat.pow_le_pow_right (by decide) (by omega)
    omega
  obtain ⟨m, hm⟩ := hmantissa
  constructor
  · rintro ⟨m', h⟩ ⟨hzero, hnone, hsame⟩
    have hinteger := ((handleStandard_eq_ok_iff (by omega) hscale (by omega)).mp h).2.1
    omega
  · intro h
    exact ⟨m, (handleStandard_eq_ok_iff (by omega) hscale (by omega)).mpr ⟨⟨by omega, by omega, by omega⟩, by omega, hm⟩⟩

theorem standard_convertsExactly_iff (hreads : lib.Reads n) (h : IsReadable n.toBigDecimal)
    (hp : 1 ≤ precision.toNat ∧ precision.toNat ≤ 38) (hscale : 0 ≤ scale.toInt) (hle : scale.toInt ≤ precision.toNat) :
    ConvertsExactly lib n precision scale ↔ StandardCondition n precision scale := by
  have hbyte : asI8 precision.toNat = precision.toNat := asI8_of_lt (by omega) (by omega)
  have hconvert : ∀ lib : DecimalLib, lib.Reads n → convertDecimalToRowValue lib n.text precision scale =
      handleStandard lib n.toBigDecimal scale precision := by
    intro lib hreads
    rw [convertDecimal_of_readable hreads h, if_neg (by omega), hbyte, if_neg (by omega)]
  have hoverflow := @handleStandard_arithmetic_iff { lib with overflowChecks := true } n.toBigDecimal scale precision rfl
    (by omega) hscale
  have hchecked := hconvert _ hreads.checked
  have hlib := hconvert lib hreads
  constructor
  · intro hexact
    refine ⟨?_, ?_⟩
    · rw [← hoverflow, ← hchecked]
      exact hexact.noOverflow
    · rintro ⟨hexponent, hzero, hnone, hsame⟩
      have hvalue : n.value = 0 := by
        rw [Numeral.value, BigDecimal.value, hzero, Int.cast_zero, zero_mul]
      have haccepts := hexact.accepts hscale hle hexponent (by omega) (by rw [hvalue, abs_zero]; positivity)
      rw [hlib] at haccepts
      exact (handleStandard_accepts hp hscale hle hexponent (by omega) (by rw [hvalue, abs_zero]; positivity)).mp
        haccepts ⟨hzero, hnone, hsame⟩
  · rintro ⟨hfits, hzero⟩
    refine ⟨?_, ?_, ?_, ?_, ?_⟩
    · rw [hchecked]
      exact fun herror => hfits (hoverflow.mp herror)
    · intro m hm _ _
      rw [hlib] at hm
      refine handleStandard_exact (by omega) hscale ?_ hm
      by_contra hlength
      exact hfits ⟨standardFits_of_ok hm, by omega⟩
    · intro m _ hlt
      omega
    · intro m _ hlt
      omega
    · intro _ _ hexponent hfraction hvalue
      rw [hlib]
      refine (handleStandard_accepts hp hscale hle hexponent hfraction hvalue).mpr ?_
      exact fun hbad => hzero ⟨hexponent, hbad⟩

theorem fractional_convertsExactly_iff (hreads : lib.Reads n) (h : IsReadable n.toBigDecimal)
    (hround : lib.withScaleRound n.toBigDecimal scale.toInt = n.toBigDecimal.rescale scale.toInt)
    (hp : 1 ≤ precision.toNat ∧ precision.toNat ≤ 38) (hlt : precision.toNat < scale.toInt) :
    ConvertsExactly lib n precision scale ↔ FractionalCondition n.toBigDecimal scale := by
  have hbyte : asI8 precision.toNat = precision.toNat := asI8_of_lt (by omega) (by omega)
  have hconvert : ∀ lib : DecimalLib, lib.Reads n → convertDecimalToRowValue lib n.text precision scale =
      handleFractionalOnly lib n.toBigDecimal scale precision := by
    intro lib hreads
    rw [convertDecimal_of_readable hreads h, if_neg (by omega), hbyte, if_pos (by omega)]
  have hoverflow := @handleFractionalOnly_arithmetic_iff { lib with overflowChecks := true } n.toBigDecimal scale
    precision rfl hround (by omega)
  have hchecked := hconvert _ hreads.checked
  have hlib := hconvert lib hreads
  constructor
  · intro hexact
    rw [FractionalCondition, ← hoverflow, ← hchecked]
    exact hexact.noOverflow
  · intro hcondition
    refine ⟨?_, ?_, ?_, ?_, ?_⟩
    · rw [hchecked]
      exact fun herror => hcondition (hoverflow.mp herror)
    · intro m _ _ hle
      omega
    · intro m hm _
      rw [hlib] at hm
      obtain ⟨-, hdigits, hmantissa⟩ := (handleFractionalOnly_eq_ok_iff hround (by omega)).mp hm
      obtain ⟨hrange, heq⟩ := convertMantissaToRowValue_eq_ok_iff.mp hmantissa
      cases heq
      rw [toInt_ofInt_128 hrange]
      exact ⟨rfl, (numDigits_le_iff (by omega)).mp hdigits⟩
    · intro m _ hneg
      omega
    · intro _ hle
      omega

/-- Without the point and the exponent a value is rounded alike if there are none, or if both are rounded to zero. -/
theorem round_digits_eq_iff (d : BigDecimal) (k : ℕ) :
    roundHalfAway (d.digits / 10 ^ k) = roundHalfAway (d.value / 10 ^ k) ↔
      d.scale = 0 ∨ |(d.digits : ℚ) / 10 ^ k| < 1 / 2 ∧ |d.value / 10 ^ k| < 1 / 2 := by
  have hpow : ∀ e : ℤ, 0 < e → (10 : ℚ) ≤ 10 ^ e := by
    intro e he
    calc (10 : ℚ) = 10 ^ (1 : ℤ) := (zpow_one _).symm
      _ ≤ 10 ^ e := zpow_le_zpow_right₀ (by norm_num) (by omega)
  -- Where one of the two is ten or more times the other, both are rounded to zero.
  have hsmall : ∀ {x y r : ℚ}, 10 ≤ r → y = r * x →
      (roundHalfAway y = roundHalfAway x ↔ |y| < 1 / 2 ∧ |x| < 1 / 2) := by
    rintro x y r hr rfl
    rw [roundHalfAway_mul_eq_iff hr]
    refine ⟨fun h => ⟨h, lt_of_le_of_lt ?_ h⟩, fun h => h.1⟩
    rw [abs_mul, abs_of_pos (show (0 : ℚ) < r by linarith)]
    exact le_mul_of_one_le_left (abs_nonneg x) (by linarith)
  obtain hneg | hzero | hpos := lt_trichotomy d.scale 0
  · have hvalue : d.value / 10 ^ k = 10 ^ (-d.scale) * (d.digits / 10 ^ k) := by
      rw [BigDecimal.value]
      ring
    rw [eq_comm, hsmall (hpow _ (by omega)) hvalue, and_comm]
    exact (or_iff_right (by omega)).symm
  · refine iff_of_true ?_ (.inl hzero)
    rw [BigDecimal.value, hzero]
    simp
  · have hdigits : (d.digits : ℚ) / 10 ^ k = 10 ^ d.scale * (d.value / 10 ^ k) := by
      have hne : (10 : ℚ) ^ d.scale ≠ 0 := by positivity
      rw [BigDecimal.value, zpow_neg]
      field_simp
    rw [hsmall (hpow _ hpos) hdigits]
    exact (or_iff_right (by omega)).symm

theorem negative_convertsExactly_iff (hreads : lib.Reads n) (h : IsReadable n.toBigDecimal)
    (hp : 1 ≤ precision.toNat) (hscale : scale.toInt < 0) :
    ConvertsExactly lib n precision scale ↔ NegativeCondition n.toBigDecimal precision scale := by
  have hconvert : ∀ lib : DecimalLib, lib.Reads n → convertDecimalToRowValue lib n.text precision scale =
      handleNegativeScale n.toBigDecimal scale precision := by
    intro lib hreads
    rw [convertDecimal_of_readable hreads h, if_pos hscale]
  have hlib := hconvert lib hreads
  -- What is returned, unless the rounded digits are too many.
  have hok : ∀ v, convertDecimalToRowValue lib n.text precision scale = .ok v ↔
      (roundHalfAway (n.toBigDecimal.digits / 10 ^ scale.toInt.natAbs)).natAbs < 10 ^ precision.toNat ∧
      convertMantissaToRowValue (roundHalfAway (n.toBigDecimal.digits / 10 ^ scale.toInt.natAbs) *
        10 ^ scale.toInt.natAbs) = .ok v := by
    intro v
    rw [hlib, handleNegativeScale_eq_ok_iff, roundedMantissa_eq hscale, numDigits_le_iff (by omega), Int.natAbs_mul,
      Int.natAbs_pow, pow_add]
    exact and_congr_left fun _ => Nat.mul_lt_mul_right (by positivity)
  have hround := round_digits_eq_iff n.toBigDecimal scale.toInt.natAbs
  constructor
  · intro hexact
    by_cases hfits : 10 ^ precision.toNat ≤ (roundHalfAway (n.toBigDecimal.digits / 10 ^ scale.toInt.natAbs)).natAbs
    · exact .inr (.inr (.inl hfits))
    by_cases hrange : -2 ^ 127 ≤ roundHalfAway (n.toBigDecimal.digits / 10 ^ scale.toInt.natAbs) *
        10 ^ scale.toInt.natAbs ∧ roundHalfAway (n.toBigDecimal.digits / 10 ^ scale.toInt.natAbs) *
        10 ^ scale.toInt.natAbs < 2 ^ 127
    · have hreturned := (hok _).mpr ⟨by omega, convertMantissaToRowValue_eq_ok_iff.mpr ⟨hrange, rfl⟩⟩
      have hvalue := (hexact.negative _ hreturned hscale).1
      rw [toInt_ofInt_128 hrange] at hvalue
      have hsame := hround.mp (mul_right_cancel₀ (by positivity) hvalue)
      exact hsame.imp_right .inl
    · exact .inr (.inr (.inr hrange))
  · intro hcondition
    refine ⟨?_, ?_, ?_, ?_, ?_⟩
    · rw [hconvert _ hreads.checked]
      exact handleNegativeScale_ne_arithmetic
    · intro m _ hnonneg
      omega
    · intro m _ hlt
      omega
    · intro m hm _
      obtain ⟨hfits, hmantissa⟩ := (hok _).mp hm
      obtain ⟨hrange, heq⟩ := convertMantissaToRowValue_eq_ok_iff.mp hmantissa
      cases heq
      rw [toInt_ofInt_128 hrange, Int.natAbs_mul, Int.natAbs_pow, pow_add]
      refine ⟨?_, Nat.mul_lt_mul_of_pos_right hfits (by positivity)⟩
      obtain hzero | hsmall | hmany | hout := hcondition
      · rw [hround.mpr (.inl hzero)]
        rfl
      · rw [hround.mpr (.inr hsmall)]
        rfl
      · omega
      · exact absurd hrange hout
    · intro hnonneg
      omega

/-- A text is converted exactly, for a precision and a scale, exactly under the condition. -/
theorem convertDecimal_exact_iff (hp : 1 ≤ precision.toNat ∧ precision.toNat ≤ 38) (hreads : lib.Reads n)
    (hround : lib.withScaleRound n.toBigDecimal scale.toInt = n.toBigDecimal.rescale scale.toInt) :
    ConvertsExactly lib n precision scale ↔ ExactCondition n precision scale := by
  by_cases h : IsReadable n.toBigDecimal
  · rw [ExactCondition, forall_prop_of_true h]
    split
    · next hneg => exact negative_convertsExactly_iff hreads h hp.1 hneg
    · next hneg =>
        split
        · next hlt => exact fractional_convertsExactly_iff hreads h hround hp hlt
        · next hle => exact standard_convertsExactly_iff hreads h hp (by omega) (by omega)
  · refine iff_of_true ?_ fun hread => absurd hread h
    have herror : ∀ lib : DecimalLib, lib.Reads n →
        convertDecimalToRowValue lib n.text precision scale = .error (.error (.invalidValue n.text)) := by
      intro lib hreads
      rw [convertDecimalToRowValue, hreads.none h]
    have hlib := herror lib hreads
    refine ⟨?_, ?_, ?_, ?_, ?_⟩
    · rw [herror _ hreads.checked]
      exact fun heq => by cases heq
    · intro m hm
      rw [hlib] at hm
      cases hm
    · intro m hm
      rw [hlib] at hm
      cases hm
    · intro m hm
      rw [hlib] at hm
      cases hm
    · intro hscale hle hexponent hfraction _
      -- Without an exponent the scale is the number of digits after the point.
      have hscaleEq : n.toBigDecimal.scale = n.fractionDigits := by
        unfold Numeral.toBigDecimal
        rw [hexponent]
        simp
      exact absurd ⟨by omega, by omega⟩ h

/-- A library that reads one numeral. -/
def readsOnly (n : Numeral) : DecimalLib where
  overflowChecks := false
  fromStr text := if text = n.text then some n.toBigDecimal else none
  withScaleRound := BigDecimal.rescale

theorem readsOnly_reads (h : IsReadable n.toBigDecimal) : (readsOnly n).Reads n :=
  ⟨fun _ => if_pos rfl, fun hnot => absurd h hnot⟩

/-- 12.4 -/
def twelvePointFour : Numeral := ⟨none, [1, 2], some [4], none, by decide⟩

theorem convertDecimal_exact_iff_twelvePointFour : ConvertsExactly (readsOnly twelvePointFour) twelvePointFour 5 3 := by
  refine (convertDecimal_exact_iff (by decide) (readsOnly_reads ⟨by decide, by decide⟩) rfl).mpr fun _ => ⟨?_, ?_⟩
  · rintro ⟨-, hlength⟩
    have hdigits : numDigits twelvePointFour.toBigDecimal.digits.natAbs ≤ 3 :=
      (numDigits_le_iff (by decide)).mpr (by decide)
    have hscale : twelvePointFour.toBigDecimal.scale = 1 := rfl
    omega
  · rintro ⟨-, hzero, -⟩
    exact absurd hzero (by decide)

/-- 1.5 -/
def onePointFive : Numeral := ⟨none, [1], some [5], none, by decide⟩

/-- With three digits in units of ten it becomes 20, since the point is left out. -/
theorem point_left_out : ¬ ConvertsExactly (readsOnly onePointFive) onePointFive 3 (-1) := by
  have hread : IsReadable onePointFive.toBigDecimal := ⟨by decide, by decide⟩
  have hrounded : roundedMantissa onePointFive.toBigDecimal.digits (-1) = 20 := by decide
  have hreturned : convertDecimalToRowValue (readsOnly onePointFive) onePointFive.text 3 (-1) = .ok (.decimal 20) := by
    rw [convertDecimal_of_readable (readsOnly_reads hread) hread, if_pos (by decide), handleNegativeScale_eq_ok_iff,
      hrounded]
    exact ⟨(numDigits_le_iff (by decide)).mpr (by decide), rfl⟩
  intro hexact
  have hvalue := (hexact.negative 20 hreturned (by decide)).1
  have hzero : roundHalfAway (onePointFive.value / 10 ^ (Int8.toInt (-1)).natAbs) = 0 := by
    have hfifteen : onePointFive.value = 3 / 2 := by
      have hdigits : onePointFive.toBigDecimal = ⟨15, 1⟩ := rfl
      rw [Numeral.value, hdigits, BigDecimal.value]
      norm_num
    have hten : (Int8.toInt (-1)).natAbs = 1 := rfl
    rw [roundHalfAway_eq_zero_iff, hfifteen, hten]
    norm_num [abs_lt]
  rw [hzero, zero_mul] at hvalue
  exact absurd hvalue (by decide)

end Exactness

end Moonlink.Schema
