-- SUMMARY: Decimal numerals and their values, the number of digits, and rounding with halves away from zero.
import Mathlib.Algebra.Order.Field.Power
import Mathlib.Data.Nat.Log
import Mathlib.Data.Rat.Floor

/-!
# Decimals

A decimal is an integer, its digits, with a scale, the number of digits behind the point. The
scale may be negative, which stands for zeros that are left out. A numeral is a decimal as it
is written.
-/

namespace Lib

/-! ## Digits -/

/-- The number of digits of a number. Zero has one. -/
def numDigits (n : Nat) : Nat := Nat.log 10 n + 1

theorem numDigits_pos (n : Nat) : 0 < numDigits n := Nat.succ_pos _

theorem numDigits_le_iff {n k : Nat} (hk : 0 < k) : numDigits n ≤ k ↔ n < 10 ^ k := by
  unfold numDigits
  rw [Nat.succ_le_iff]
  cases n with
  | zero => simp [hk]
  | succ n => exact (Nat.log_lt_iff_lt_pow (by decide) (Nat.succ_ne_zero n))

/-! ## Rounding -/

/-- The nearest integer. Halves are rounded away from zero. -/
def roundHalfAway (x : ℚ) : ℤ := if 0 ≤ x then ⌊x + 1 / 2⌋ else ⌈x - 1 / 2⌉

theorem roundHalfAway_eq_iff {x : ℚ} (hx : 0 ≤ x) {c : ℤ} :
    roundHalfAway x = c ↔ (c : ℚ) ≤ x + 1 / 2 ∧ x + 1 / 2 < c + 1 := by
  rw [roundHalfAway, if_pos hx, Int.floor_eq_iff]

@[simp] theorem roundHalfAway_neg (x : ℚ) : roundHalfAway (-x) = -roundHalfAway x := by
  have hflip : ∀ y : ℚ, 0 < y → roundHalfAway (-y) = -roundHalfAway y := by
    intro y hy
    rw [roundHalfAway, if_neg (by linarith), roundHalfAway, if_pos hy.le, ← Int.ceil_neg]
    congr 1
    ring
  obtain hlt | rfl | hgt := lt_trichotomy x 0
  · have h := hflip (-x) (by linarith)
    rw [neg_neg] at h
    rw [h, neg_neg]
  · rw [neg_zero]
    have hzero : roundHalfAway 0 = 0 := (roundHalfAway_eq_iff le_rfl).mpr (by norm_num)
    rw [hzero, neg_zero]
  · exact hflip x hgt

theorem roundHalfAway_nonneg {x : ℚ} (hx : 0 ≤ x) : 0 ≤ roundHalfAway x := by
  rw [roundHalfAway, if_pos hx]
  exact Int.floor_nonneg.mpr (by linarith)

theorem roundHalfAway_eq_zero_iff {x : ℚ} : roundHalfAway x = 0 ↔ |x| < 1 / 2 := by
  have hpos : ∀ y : ℚ, 0 ≤ y → (roundHalfAway y = 0 ↔ y < 1 / 2) := by
    intro y hy
    rw [roundHalfAway_eq_iff hy]
    push_cast
    exact ⟨fun h => by linarith, fun h => ⟨by linarith, by linarith⟩⟩
  obtain hx | hx := le_total 0 x
  · rw [hpos x hx, abs_of_nonneg hx]
  · have hneg := hpos (-x) (by linarith)
    rwa [roundHalfAway_neg, neg_eq_zero, ← abs_of_nonpos hx] at hneg

/-- A number and one that is ten or more times as large are only rounded alike if both are rounded to zero. -/
theorem roundHalfAway_mul_eq_iff {x r : ℚ} (hr : 10 ≤ r) :
    roundHalfAway (r * x) = roundHalfAway x ↔ |r * x| < 1 / 2 := by
  have hpos : ∀ y : ℚ, 0 ≤ y → (roundHalfAway (r * y) = roundHalfAway y ↔ r * y < 1 / 2) := by
    intro y hy
    have hten : 10 * y ≤ r * y := mul_le_mul_of_nonneg_right hr hy
    rw [roundHalfAway_eq_iff (by linarith)]
    obtain ⟨hlow, hhigh⟩ := (roundHalfAway_eq_iff hy).mp rfl
    constructor
    · rintro ⟨-, hlt⟩
      -- A value that is not rounded to zero is at least a half, and ten times as large rounded to more.
      have hlt1 : (roundHalfAway y : ℚ) < 1 := by linarith
      have hzero : roundHalfAway y = 0 := by
        have := roundHalfAway_nonneg hy
        have : roundHalfAway y < 1 := by exact_mod_cast hlt1
        omega
      rw [hzero] at hlt
      push_cast at hlt
      linarith
    · intro hlt
      have hzero : roundHalfAway y = 0 := roundHalfAway_eq_zero_iff.mpr (by rw [abs_of_nonneg hy]; linarith)
      rw [hzero]
      push_cast
      exact ⟨by linarith, by linarith⟩
  obtain hx | hx := le_total 0 x
  · rw [hpos x hx, abs_of_nonneg (mul_nonneg (by linarith) hx)]
  · have hneg := hpos (-x) (by linarith)
    rw [mul_neg, roundHalfAway_neg, roundHalfAway_neg, neg_inj] at hneg
    rwa [abs_of_nonpos (mul_nonpos_of_nonneg_of_nonpos (by linarith) hx)]

/-- The rounded quotient, as integers compute it: half of an even divisor is added before the division. -/
theorem roundHalfAway_div {a : ℤ} {h : ℕ} (hh : 0 < h) :
    roundHalfAway (a / (2 * h : ℕ)) = (if 0 ≤ a then a + h else a - h).tdiv (2 * h : ℕ) := by
  have hdiv : (0 : ℤ) < (2 * h : ℕ) := by omega
  have hdivq : (0 : ℚ) < (2 * h : ℕ) := by exact_mod_cast hdiv
  have hpos : ∀ b : ℤ, 0 ≤ b → roundHalfAway (b / (2 * h : ℕ)) = (b + h).tdiv (2 * h : ℕ) := by
    intro b hb
    rw [Int.tdiv_eq_ediv_of_nonneg (by omega)]
    have hq : (0 : ℚ) ≤ (b : ℚ) / (2 * h : ℕ) := div_nonneg (by exact_mod_cast hb) hdivq.le
    have hsum : (b : ℚ) / (2 * h : ℕ) + 1 / 2 = ((b + h : ℤ) : ℚ) / (2 * h : ℕ) := by
      have hne : (h : ℚ) ≠ 0 := by exact_mod_cast hh.ne'
      push_cast
      field_simp
    rw [roundHalfAway, if_pos hq, hsum, Rat.floor_intCast_div_natCast]
  split
  · next ha => exact hpos a ha
  · next ha =>
      have hneg := hpos (-a) (by omega)
      rw [Int.cast_neg, neg_div, roundHalfAway_neg] at hneg
      rw [← neg_inj, hneg, ← Int.neg_tdiv]
      congr 1
      omega

/-! ## Decimals -/

/-- An integer with the number of its digits that are behind the point. -/
structure BigDecimal where
  digits : Int
  scale : Int
  deriving DecidableEq, Repr

namespace BigDecimal

def value (d : BigDecimal) : ℚ := d.digits * (10 : ℚ) ^ (-d.scale)

/-- The decimal of a scale that is nearest. -/
def rescale (d : BigDecimal) (scale : Int) : BigDecimal := ⟨roundHalfAway (d.value * (10 : ℚ) ^ scale), scale⟩

/-- The value in units of the last digit of a scale. -/
theorem value_mul_zpow (d : BigDecimal) (s : Int) : d.value * (10 : ℚ) ^ s = d.digits * (10 : ℚ) ^ (s - d.scale) := by
  rw [value, mul_assoc, ← zpow_add₀ (by norm_num), neg_add_eq_sub]

/-- A scale that is large enough only adds zeros. -/
theorem value_mul_zpow_of_le (d : BigDecimal) {s : Int} (h : d.scale ≤ s) :
    d.value * (10 : ℚ) ^ s = ((d.digits * 10 ^ (s - d.scale).toNat : ℤ) : ℚ) := by
  rw [value_mul_zpow, ← Int.toNat_of_nonneg (sub_nonneg.mpr h)]
  push_cast
  rw [zpow_natCast, Int.toNat_natCast]

end BigDecimal

/-! ## Numerals -/

/-- The number that digits stand for. -/
def digitsValue (digits : List (Fin 10)) : Nat := digits.foldl (fun n d => 10 * n + d) 0

def digitsText (digits : List (Fin 10)) : List Char := digits.map fun d => Nat.digitChar d

/-- A sign that may be left out. The minus sign is `true`. -/
def signText : Option Bool → List Char
  | none => []
  | some false => ['+']
  | some true => ['-']

def signed (sign : Option Bool) (n : Nat) : Int := if sign = some true then -n else n

/-- An exponent, after a small or a capital letter. -/
structure Exponent where
  capital : Bool
  sign : Option Bool
  digits : List (Fin 10)
  digits_ne_nil : digits ≠ []

namespace Exponent

def value (e : Exponent) : Int := signed e.sign (digitsValue e.digits)

def text (e : Exponent) : List Char := (if e.capital then 'E' else 'e') :: signText e.sign ++ digitsText e.digits

end Exponent

/-- A decimal numeral. Digits may be missing before or after the point, not both. -/
structure Numeral where
  sign : Option Bool
  whole : List (Fin 10)
  fraction : Option (List (Fin 10))
  exponent : Option Exponent
  digits_ne_nil : whole ++ fraction.getD [] ≠ []

namespace Numeral

def text (n : Numeral) : String :=
  let fractionText := match n.fraction with
    | none => []
    | some digits => '.' :: digitsText digits
  let exponentText := match n.exponent with
    | none => []
    | some e => e.text
  String.ofList (signText n.sign ++ digitsText n.whole ++ fractionText ++ exponentText)

/-- The number of digits after the point. -/
def fractionDigits (n : Numeral) : Nat := (n.fraction.getD []).length

def toBigDecimal (n : Numeral) : BigDecimal where
  digits := signed n.sign (digitsValue (n.whole ++ n.fraction.getD []))
  scale := n.fractionDigits - (n.exponent.map Exponent.value).getD 0

def value (n : Numeral) : ℚ := n.toBigDecimal.value

end Numeral

end Lib
