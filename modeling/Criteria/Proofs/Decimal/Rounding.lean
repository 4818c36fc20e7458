import Criteria.Decimal.Shortest
import Mathlib.Algebra.Order.Field.Power
import Mathlib.Data.Rat.Cast.Order
import Mathlib.Tactic.FieldSimp
import Mathlib.Tactic.Linarith
import Mathlib.Tactic.NormNum
import Mathlib.Tactic.Positivity
import Mathlib.Tactic.Ring

/-!
Fractions that are binary64 numbers. A fraction with the value of a finite number is rounded to that
number, the shortest digits of a number are a fraction that is rounded to it, and no fraction is
rounded to infinity unless it comes near to the end of the range.
-/

set_option autoImplicit false
set_option relaxedAutoImplicit false

namespace Criteria.Decimal

/-! ### Powers as quotients of natural numbers -/

theorem zpow_eq_div {b : Nat} (hb : b ≠ 0) (e : Int) :
    (b : ℚ) ^ e = (Nat.pow b e.toNat : Nat) / (Nat.pow b (-e).toNat : Nat) := by
  have hb' : (b : ℚ) ≠ 0 := Nat.cast_ne_zero.mpr hb
  rw [Nat.pow_eq, Nat.pow_eq, Nat.cast_pow, Nat.cast_pow, ← zpow_natCast, ← zpow_natCast,
    ← zpow_sub₀ hb']
  congr 1
  omega

theorem two_zpow_eq_div (e : Int) :
    (2 : ℚ) ^ e = (Nat.pow 2 e.toNat : Nat) / (Nat.pow 2 (-e).toNat : Nat) :=
  zpow_eq_div two_ne_zero e

theorem cast_pow_pos {b : Nat} (hb : 0 < b) (k : Nat) : (0 : ℚ) < (Nat.pow b k : Nat) :=
  Nat.cast_pos.mpr (Nat.pow_pos hb)

/-- Clearing the denominators of a quotient and of a power of two. -/
theorem scaled_eq_iff {num den mantissa : Nat} (hden : 0 < den) (e : Int) :
    num * Nat.pow 2 (-e).toNat = mantissa * (den * Nat.pow 2 e.toNat) ↔
      (num : ℚ) / den = mantissa * 2 ^ e := by
  have hden' : (den : ℚ) ≠ 0 := Nat.cast_ne_zero.mpr hden.ne'
  have hdown := (cast_pow_pos two_pos (-e).toNat).ne'
  rw [two_zpow_eq_div, ← mul_div_assoc, div_eq_div_iff hden' hdown, ← @Nat.cast_inj ℚ]
  push_cast
  rw [mul_right_comm, mul_assoc (mantissa : ℚ), mul_comm (den : ℚ), ← mul_assoc]

theorem le_scaled_iff {num den mantissa : Nat} (hden : 0 < den) (e : Int) :
    num * Nat.pow 2 (-e).toNat ≤ mantissa * (den * Nat.pow 2 e.toNat) ↔
      (num : ℚ) / den ≤ mantissa * 2 ^ e := by
  have hden' : (0 : ℚ) < den := Nat.cast_pos.mpr hden
  rw [two_zpow_eq_div, ← mul_div_assoc, div_le_div_iff₀ hden' (cast_pow_pos two_pos _),
    mul_assoc (mantissa : ℚ), mul_comm (Nat.cast (Nat.pow 2 e.toNat) : ℚ)]
  exact_mod_cast Iff.rfl

theorem scaled_le_iff {num den : Nat} (hden : 0 < den) (e : Int) :
    den * Nat.pow 2 e.toNat ≤ num * Nat.pow 2 (-e).toNat ↔ (2 : ℚ) ^ e ≤ num / den := by
  have hden' : (0 : ℚ) < den := Nat.cast_pos.mpr hden
  rw [two_zpow_eq_div, div_le_div_iff₀ (cast_pow_pos two_pos _) hden', mul_comm]
  exact_mod_cast Iff.rfl

/-! ### The binary order -/

theorem log2_bounds {n : Nat} (hn : 0 < n) :
    (2 : ℚ) ^ (n.log2 : Int) ≤ n ∧ (n : ℚ) < 2 ^ ((n.log2 : Int) + 1) := by
  have hle := Nat.log2_self_le hn.ne'
  have hlt := Nat.lt_log2_self (n := n)
  constructor
  · rw [zpow_natCast]
    exact_mod_cast hle
  · exact_mod_cast hlt

/-- The binary order of a quotient is that of the difference of the two logarithms, or one less. -/
theorem div_bounds {num den : Nat} (hnum : 0 < num) (hden : 0 < den) :
    (2 : ℚ) ^ ((num.log2 : Int) - den.log2 - 1) ≤ num / den ∧
      (num : ℚ) / den < 2 ^ ((num.log2 : Int) - den.log2 + 1) := by
  have hden' : (0 : ℚ) < den := Nat.cast_pos.mpr hden
  obtain ⟨hnumLe, hnumLt⟩ := log2_bounds hnum
  obtain ⟨hdenLe, hdenLt⟩ := log2_bounds hden
  constructor
  · rw [le_div_iff₀ hden']
    calc (2 : ℚ) ^ ((num.log2 : Int) - den.log2 - 1) * den
        ≤ 2 ^ ((num.log2 : Int) - den.log2 - 1) * 2 ^ ((den.log2 : Int) + 1) := by gcongr
      _ = 2 ^ (num.log2 : Int) := by
        rw [← zpow_add₀ two_ne_zero]
        congr 1
        omega
      _ ≤ num := hnumLe
  · rw [div_lt_iff₀ hden']
    calc (num : ℚ) < 2 ^ ((num.log2 : Int) + 1) := hnumLt
      _ = 2 ^ ((num.log2 : Int) - den.log2 + 1) * 2 ^ (den.log2 : Int) := by
        rw [← zpow_add₀ two_ne_zero]
        congr 1
        omega
      _ ≤ 2 ^ ((num.log2 : Int) - den.log2 + 1) * den := by gcongr

theorem binaryOrder_spec {num den : Nat} (hnum : 0 < num) (hden : 0 < den) :
    (2 : ℚ) ^ binaryOrder num den ≤ num / den ∧
      (num : ℚ) / den < 2 ^ (binaryOrder num den + 1) := by
  obtain ⟨hbelow, habove⟩ := div_bounds hnum hden
  simp only [binaryOrder]
  by_cases hreach : den * Nat.pow 2 ((num.log2 : Int) - den.log2).toNat ≤
      num * Nat.pow 2 (-((num.log2 : Int) - den.log2)).toNat
  · rw [if_pos hreach]
    exact ⟨(scaled_le_iff hden _).mp hreach, habove⟩
  · rw [if_neg hreach, sub_add_cancel]
    exact ⟨hbelow, lt_of_not_ge fun h ↦ hreach ((scaled_le_iff hden _).mpr h)⟩

/-- A quotient lies in one binary order only. -/
theorem binaryOrder_eq {num den : Nat} {e : Int} (hnum : 0 < num) (hden : 0 < den)
    (hle : (2 : ℚ) ^ e ≤ num / den) (hlt : (num : ℚ) / den < 2 ^ (e + 1)) :
    binaryOrder num den = e := by
  obtain ⟨hle', hlt'⟩ := binaryOrder_spec hnum hden
  have h₁ := (zpow_lt_zpow_iff_right₀ (one_lt_two (α := ℚ))).mp (hle.trans_lt hlt')
  have h₂ := (zpow_lt_zpow_iff_right₀ (one_lt_two (α := ℚ))).mp (hle'.trans_lt hlt)
  omega

theorem roundHalfEven_mul {mantissa den : Nat} (hden : 0 < den) :
    roundHalfEven (mantissa * den) den = mantissa := by
  simp [roundHalfEven, Nat.mul_div_cancel mantissa hden, hden]

theorem roundHalfEven_le {num den bound : Nat} (hden : 0 < den) (h : num ≤ bound * den) :
    roundHalfEven num den ≤ bound := by
  have hfloor : num / den ≤ bound := by
    rw [Nat.div_le_iff_le_mul_add_pred hden, mul_comm]
    omega
  rcases hfloor.lt_or_eq with hlt | heq
  · simp only [roundHalfEven]
    split_ifs <;> omega
  · have hexact : num = bound * den := by
      refine le_antisymm h ?_
      rw [← heq]
      exact Nat.div_mul_le_self num den
    rw [hexact, roundHalfEven_mul hden]

/-! ### The bits of an exact quotient -/

/-- The mantissa and binary exponent of the positive finite number with these bits. The mantissa is
full, or the exponent is the least one. -/
structure IsFields (magnitude mantissa : Nat) (exponent : Int) : Prop where
  pos : 0 < mantissa
  lt : mantissa < 2 ^ 53
  least : -1074 ≤ exponent
  most : exponent ≤ 971
  full : exponent = -1074 ∨ 2 ^ 52 ≤ mantissa
  bits : (exponent + 1074).toNat * 2 ^ 52 + mantissa = magnitude

theorem isFields_mantissaExponent {magnitude : Nat} (hpos : 0 < magnitude)
    (hlt : magnitude < infinityBits) :
    IsFields magnitude (mantissaExponent magnitude).1 (mantissaExponent magnitude).2 := by
  have hinfinity : infinityBits = 2047 * 2 ^ 52 := rfl
  simp only [mantissaExponent, Nat.pow_eq]
  by_cases hfield : magnitude / 2 ^ 52 = 0
  · rw [if_pos hfield]
    constructor <;> dsimp only <;> omega
  · rw [if_neg hfield]
    constructor <;> dsimp only <;> omega

namespace IsFields

variable {magnitude mantissa : Nat} {exponent : Int}

/-- The last bit of the mantissa stands for two to the exponent. -/
theorem scale_eq (h : IsFields magnitude mantissa exponent) {num den : Nat} (hnum : 0 < num)
    (hden : 0 < den) (hvalue : (num : ℚ) / den = mantissa * 2 ^ exponent) :
    max (binaryOrder num den - 52) (-1074) = exponent := by
  have hstep : (0 : ℚ) < 2 ^ exponent := by positivity
  have hbelow : (num : ℚ) / den < 2 ^ (exponent + 53) := by
    rw [hvalue, zpow_add₀ two_ne_zero, mul_comm]
    have hlt : (mantissa : ℚ) < 2 ^ (53 : Int) := by exact_mod_cast h.lt
    gcongr
  rcases h.full with hleast | hfull
  · have horder := (zpow_lt_zpow_iff_right₀ (one_lt_two (α := ℚ))).mp
      ((binaryOrder_spec hnum hden).1.trans_lt hbelow)
    omega
  · have habove : (2 : ℚ) ^ (exponent + 52) ≤ num / den := by
      rw [hvalue, zpow_add₀ two_ne_zero, mul_comm]
      have hle : (2 : ℚ) ^ (52 : Int) ≤ mantissa := by exact_mod_cast hfull
      gcongr
    have horder : binaryOrder num den = exponent + 52 :=
      binaryOrder_eq hnum hden habove (by rwa [add_assoc])
    have hleast := h.least
    omega

theorem nearestBits_eq (h : IsFields magnitude mantissa exponent) (hlt : magnitude < infinityBits)
    {num den : Nat} (hden : 0 < den) (hvalue : (num : ℚ) / den = mantissa * 2 ^ exponent) :
    nearestBits num den = magnitude := by
  have hnum : num ≠ 0 := by
    rintro rfl
    rw [Nat.cast_zero, zero_div] at hvalue
    have hpos : (0 : ℚ) < mantissa * 2 ^ exponent := by
      have hmantissa : (0 : ℚ) < mantissa := Nat.cast_pos.mpr h.pos
      positivity
    exact hpos.ne hvalue
  have hscale := h.scale_eq (Nat.pos_of_ne_zero hnum) hden hvalue
  have hden' : 0 < den * Nat.pow 2 exponent.toNat :=
    Nat.mul_pos hden (Nat.pow_pos (by omega))
  have hbits : (exponent + 1074).toNat * Nat.pow 2 52 + mantissa = magnitude := h.bits
  -- In steps of the last bit the quotient is a whole number, so that nothing is rounded.
  rw [nearestBits, if_neg hnum]
  simp only [hscale, (scaled_eq_iff hden exponent).mpr hvalue, roundHalfEven_mul hden', hbits]
  omega

end IsFields

/-! ### The value of a fraction -/

/-- The number that a fraction stands for. -/
def value (d : Decimal) : ℚ :=
  d.digits * 10 ^ d.exponent

theorem value_eq_div (d : Decimal) :
    d.value = (d.digits * Nat.pow 10 d.exponent.toNat : Nat) /
      (Nat.pow 10 (-d.exponent).toNat : Nat) := by
  have hpow : (10 : ℚ) ^ d.exponent =
      (Nat.pow 10 d.exponent.toNat : Nat) / (Nat.pow 10 (-d.exponent).toNat : Nat) :=
    zpow_eq_div (b := 10) (by omega) d.exponent
  rw [value, hpow, Nat.cast_mul, mul_div_assoc]

theorem strip_eq_self {n : Nat} {exponent : Int} (h : ¬(n ≠ 0 ∧ n % 10 = 0)) :
    strip n exponent = ⟨n, exponent⟩ := by
  rw [strip, dif_neg h]

theorem strip_eq_step {n : Nat} {exponent : Int} (h : n ≠ 0 ∧ n % 10 = 0) :
    strip n exponent = strip (n / 10) (exponent + 1) := by
  rw [strip, dif_pos h]

theorem value_strip (n : Nat) (exponent : Int) :
    (strip n exponent).value = n * 10 ^ exponent := by
  induction n, exponent using strip.induct with
  | case1 n exponent h ih =>
    have hn : (n : ℚ) = (n / 10 : Nat) * 10 := by
      have hdiv : n = n / 10 * 10 := by omega
      exact_mod_cast hdiv
    rw [strip_eq_step h, ih, hn, zpow_add₀ (by norm_num), zpow_one]
    ring
  | case2 n exponent h => rw [strip_eq_self h, value]

theorem normal_strip (n : Nat) (exponent : Int) :
    (strip n exponent).normal = strip n exponent := by
  induction n, exponent using strip.induct with
  | case1 n exponent h ih => rw [strip_eq_step h, ih]
  | case2 n exponent h => rw [strip_eq_self h, normal, strip_eq_self h]

theorem strip_mul_pow {n : Nat} (hn : n ≠ 0) (k : Nat) (exponent : Int) :
    strip (n * 10 ^ k) exponent = strip n (exponent + k) := by
  induction k generalizing exponent with
  | zero => simp
  | succ k ih =>
    have hpow : 0 < n * 10 ^ k := Nat.mul_pos (Nat.pos_of_ne_zero hn) (Nat.pow_pos (by omega))
    have hsucc : n * 10 ^ (k + 1) = n * 10 ^ k * 10 := by rw [pow_succ, mul_assoc]
    have hdiv : n * 10 ^ (k + 1) / 10 = n * 10 ^ k := by omega
    rw [strip_eq_step (by omega), hdiv, ih]
    congr 1
    push_cast
    ring

theorem bits_normal (d : Decimal) : d.normal.bits = d.bits := by
  have h : d.normal.normal = d.normal := normal_strip d.digits d.exponent
  simp only [bits, h]

/-- Zeros at the end of the digits may move into the exponent. -/
theorem bits_mul_pow (n k : Nat) (exponent : Int) :
    bits ⟨n * 10 ^ k, exponent⟩ = bits ⟨n, exponent + k⟩ := by
  by_cases hn : n = 0
  · subst hn
    simp [bits, normal, strip_eq_self]
  · have h : normal ⟨n * 10 ^ k, exponent⟩ = normal ⟨n, exponent + k⟩ :=
      strip_mul_pow hn k exponent
    rw [bits, bits, h]

/-! ### Fractions that are rounded to a given number -/

theorem pow_le_of_digitCount {n : Nat} (hn : n ≠ 0) :
    10 ^ (digitCount n - 1) ≤ n ∧ n < 10 ^ digitCount n := by
  have hpos : 0 < digitCount n := Nat.length_toDigits_pos
  refine ⟨?_, (Nat.length_toDigits_le_iff (by omega) hpos).mp le_rfl⟩
  by_cases hone : digitCount n = 1
  · rw [hone]
    exact Nat.one_le_iff_ne_zero.mpr hn
  · refine Nat.le_of_not_lt fun hlt ↦ ?_
    have hle : digitCount n ≤ digitCount n - 1 :=
      (Nat.length_toDigits_le_iff (by omega) (by omega)).mpr hlt
    omega

/-- A fraction lies between the powers of ten that its order names. -/
theorem value_order {d : Decimal} (hd : d.digits ≠ 0) :
    (10 : ℚ) ^ (d.exponent + digitCount d.digits - 1) ≤ d.value ∧
      d.value < 10 ^ (d.exponent + (digitCount d.digits : Int)) := by
  obtain ⟨hle, hlt⟩ := pow_le_of_digitCount hd
  have hpos : 0 < digitCount d.digits := Nat.length_toDigits_pos
  have hlow : (10 : ℚ) ^ ((digitCount d.digits : Int) - 1) ≤ d.digits := by
    rw [show (digitCount d.digits : Int) - 1 = (digitCount d.digits - 1 : Nat) by omega,
      zpow_natCast]
    exact_mod_cast hle
  have hhigh : (d.digits : ℚ) < 10 ^ (digitCount d.digits : Int) := by
    rw [zpow_natCast]
    exact_mod_cast hlt
  constructor
  · rw [add_sub_assoc, zpow_add₀ (by norm_num), mul_comm, value]
    gcongr
  · rw [zpow_add₀ (by norm_num), mul_comm ((10 : ℚ) ^ d.exponent), value]
    gcongr

/-- No number that binary64 holds is cut off by its order. -/
theorem order_bounds {d : Decimal} (hd : d.digits ≠ 0) (hlow : (2 : ℚ) ^ (-1074 : Int) ≤ d.value)
    (hhigh : d.value < 2 ^ (1024 : Int)) :
    -330 ≤ d.exponent + (digitCount d.digits : Int) ∧
      d.exponent + (digitCount d.digits : Int) < 311 := by
  obtain ⟨hle, hlt⟩ := value_order hd
  have hsmall : (10 : ℚ) ^ (-331 : Int) < 2 ^ (-1074 : Int) := by
    have hpow : 2 ^ 1074 < 10 ^ 331 := by decide +kernel
    rw [zpow_neg, zpow_neg, inv_lt_inv₀ (by positivity) (by positivity)]
    exact_mod_cast hpow
  have hlarge : (2 : ℚ) ^ (1024 : Int) < 10 ^ (310 : Int) := by
    have hpow : 2 ^ 1024 < 10 ^ 310 := by decide +kernel
    exact_mod_cast hpow
  have hone : (1 : ℚ) < 10 := by norm_num
  have h₁ := (zpow_lt_zpow_iff_right₀ hone).mp ((hsmall.trans_le hlow).trans hlt)
  have h₂ := (zpow_lt_zpow_iff_right₀ hone).mp ((hle.trans_lt hhigh).trans hlarge)
  omega

namespace IsFields

variable {magnitude mantissa : Nat} {exponent : Int}

theorem value_bounds (h : IsFields magnitude mantissa exponent) :
    (2 : ℚ) ^ (-1074 : Int) ≤ mantissa * 2 ^ exponent ∧
      (mantissa : ℚ) * 2 ^ exponent < 2 ^ (1024 : Int) := by
  have hone : (1 : ℚ) ≤ mantissa := by exact_mod_cast h.pos
  have hleast : (2 : ℚ) ^ (-1074 : Int) ≤ 2 ^ exponent :=
    zpow_le_zpow_right₀ one_le_two h.least
  have hmost : (2 : ℚ) ^ exponent ≤ 2 ^ (971 : Int) := zpow_le_zpow_right₀ one_le_two h.most
  have hlt : (mantissa : ℚ) < 2 ^ (53 : Int) := by exact_mod_cast h.lt
  have hstep : (0 : ℚ) < 2 ^ exponent := by positivity
  constructor
  · calc (2 : ℚ) ^ (-1074 : Int) ≤ 2 ^ exponent := hleast
      _ = 1 * 2 ^ exponent := (one_mul _).symm
      _ ≤ mantissa * 2 ^ exponent := by gcongr
  · calc (mantissa : ℚ) * 2 ^ exponent < 2 ^ (53 : Int) * 2 ^ exponent := by gcongr
      _ ≤ 2 ^ (53 : Int) * 2 ^ (971 : Int) := by gcongr
      _ = 2 ^ (1024 : Int) := by rw [← zpow_add₀ two_ne_zero]; rfl

/-- A fraction with the value of a finite number is rounded to that number. -/
theorem bits_eq (h : IsFields magnitude mantissa exponent) (hlt : magnitude < infinityBits)
    {d : Decimal} (hvalue : d.value = mantissa * 2 ^ exponent) : d.bits = magnitude := by
  have hnormal : d.normal.value = mantissa * 2 ^ exponent :=
    (value_strip d.digits d.exponent).trans hvalue
  obtain ⟨hlow, hhigh⟩ := h.value_bounds
  have hdigits : d.normal.digits ≠ 0 := by
    intro hzero
    have hpos : (0 : ℚ) < d.normal.value := by
      rw [hnormal]
      exact lt_of_lt_of_le (by positivity) hlow
    rw [value, hzero, Nat.cast_zero, zero_mul] at hpos
    exact hpos.false
  obtain ⟨hleast, hmost⟩ := order_bounds hdigits (hnormal ▸ hlow) (hnormal ▸ hhigh)
  have hden : 0 < Nat.pow 10 (-d.normal.exponent).toNat := Nat.pow_pos (by omega)
  rw [value_eq_div] at hnormal
  rw [Decimal.bits, if_neg (by omega), if_neg (by omega)]
  exact h.nearestBits_eq hlt hden hnormal

end IsFields

/-! ### Fractions that are rounded to a finite number -/

theorem nearestBits_lt_infinityBits {num den : Nat} (hden : 0 < den)
    (h : (num : ℚ) / den < 2 ^ (1023 : Int)) : nearestBits num den < infinityBits := by
  have hinfinity : infinityBits = 2047 * 2 ^ 52 := rfl
  by_cases hnum : num = 0
  · rw [nearestBits, if_pos hnum, hinfinity]
    omega
  · obtain ⟨hle, hlt⟩ := binaryOrder_spec (Nat.pos_of_ne_zero hnum) hden
    have horder := (zpow_lt_zpow_iff_right₀ (one_lt_two (α := ℚ))).mp (hle.trans_lt h)
    rw [nearestBits, if_neg hnum]
    simp only
    obtain ⟨scale, hscale⟩ : ∃ scale, scale = max (binaryOrder num den - 52) (-1074) := ⟨_, rfl⟩
    rw [← hscale]
    have hmantissa : (num : ℚ) / den ≤ (2 ^ 53 : Nat) * 2 ^ scale := by
      calc (num : ℚ) / den ≤ 2 ^ (binaryOrder num den + 1) := hlt.le
        _ ≤ 2 ^ (53 + scale) := zpow_le_zpow_right₀ one_le_two (by omega)
        _ = (2 ^ 53 : Nat) * 2 ^ scale := by
          rw [zpow_add₀ two_ne_zero]
          norm_cast
    have hround := roundHalfEven_le (Nat.mul_pos hden (Nat.pow_pos (by omega)))
      ((le_scaled_iff hden scale).mpr hmantissa)
    simp only [hinfinity, Nat.pow_eq] at hround ⊢
    omega

/-- A fraction below half the range of binary64 is rounded to a finite number. -/
theorem bits_lt_infinityBits {d : Decimal} (h : d.value < 2 ^ (1023 : Int)) :
    d.bits < infinityBits := by
  have hnormal : d.normal.value < 2 ^ (1023 : Int) := by
    rwa [show d.normal.value = d.value from value_strip d.digits d.exponent]
  rw [bits]
  split_ifs with hnone hmost
  · exact Nat.mul_pos (by omega) (Nat.pow_pos (by omega))
  · -- A fraction that large has at least 309 digits before the point.
    have hdigits : d.normal.digits ≠ 0 := fun hzero ↦ hnone (.inl hzero)
    have hlarge : (2 : ℚ) ^ (1023 : Int) < 10 ^ (310 : Int) := by
      have hpow : 2 ^ 1023 < 10 ^ 310 := by decide +kernel
      exact_mod_cast hpow
    have horder := (zpow_lt_zpow_iff_right₀ (show (1 : ℚ) < 10 by norm_num)).mp
      (((value_order hdigits).1.trans_lt hnormal).trans hlarge)
    omega
  · rw [value_eq_div] at hnormal
    exact nearestBits_lt_infinityBits (Nat.pow_pos (by omega)) hnormal

/-! ### The shortest digits -/

theorem value_exact (mantissa : Nat) (exponent : Int) :
    (exact mantissa exponent).value = mantissa * 2 ^ exponent := by
  have hten : (10 : ℚ) ^ min exponent 0 = ((Nat.pow 10 (-exponent).toNat : Nat) : ℚ)⁻¹ := by
    rw [show min exponent 0 = -((-exponent).toNat : Int) by omega, zpow_neg, zpow_natCast,
      Nat.pow_eq, Nat.cast_pow]
    rfl
  have hsplit : Nat.pow 10 (-exponent).toNat =
      Nat.pow 5 (-exponent).toNat * Nat.pow 2 (-exponent).toNat := by
    simp only [Nat.pow_eq, ← Nat.mul_pow]
  have hfive := (cast_pow_pos (show 0 < 5 by omega) (-exponent).toNat).ne'
  rw [value, exact]
  dsimp only
  rw [hten, two_zpow_eq_div, hsplit]
  push_cast
  field_simp

theorem nearerHit_bits {tie : Tie} {magnitude floor rest step : Nat} {grid : Int} {d : Decimal}
    (h : nearerHit tie magnitude floor rest step grid = some d) : d.bits = magnitude := by
  simp only [nearerHit] at h
  split at h
  · rename_i hbelow habove
    have hboth (upper : Bool) :
        (if upper then (⟨floor + 1, grid⟩ : Decimal) else ⟨floor, grid⟩).bits = magnitude := by
      cases upper with
      | true => exact beq_iff_eq.mp habove
      | false => exact beq_iff_eq.mp hbelow
    rw [← Option.some.inj h]
    exact hboth _
  · rename_i hbelow _
    rw [← Option.some.inj h]
    exact beq_iff_eq.mp hbelow
  · rename_i _ habove
    rw [← Option.some.inj h]
    exact beq_iff_eq.mp habove
  · exact absurd h (by simp)

theorem firstHit_bits {tie : Tie} {magnitude num den : Nat} {order : Int} {fuel : Nat}
    {d : Decimal} (h : firstHit tie magnitude num den order fuel = some d) :
    d.bits = magnitude := by
  induction fuel with
  | zero => exact absurd h (by simp [firstHit])
  | succ fuel ih =>
    rw [firstHit] at h
    split at h
    · rename_i hit hhit
      rw [← Option.some.inj h]
      exact nearerHit_bits hhit
    · exact ih h

/-- The shortest digits of a number are rounded to it. -/
theorem bits_shortest (tie : Tie) {magnitude : Nat} (hpos : 0 < magnitude)
    (hlt : magnitude < infinityBits) : (shortest tie magnitude).bits = magnitude := by
  have hfields := isFields_mantissaExponent hpos hlt
  simp only [shortest]
  rw [bits_normal]
  -- A hit was tried before it was taken; without one the number itself is written out.
  rcases hhit : firstHit tie magnitude _ _ _ 17 with _ | d
  · exact hfields.bits_eq hlt (value_exact _ _)
  · exact firstHit_bits hhit

end Criteria.Decimal
