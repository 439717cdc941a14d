import Mathlib.Data.Int.Log
import Mathlib.Data.Rat.Floor
import Mathlib.Tactic.Linarith
import Mathlib.Tactic.Ring
import Mathlib.Tactic.NormNum

/-!
# Rounding to a binary floating-point format

A `BinaryFormat` has a number of significand bits and a least exponent of the last place; its
exponents are unbounded above, so that the model has no infinities. `BinaryFormat.round` rounds a
rational to the nearest number of the format, ties to even. A number is `Representable` when it is
an integer of that many bits at an exponent of the format, and `round_eq_self` is the rule for exact
arithmetic: rounding a representable number leaves it.
-/

set_option autoImplicit false
set_option relaxedAutoImplicit false

namespace Apes.Library

/-- A binary format: the bits of the significand and the least exponent of its last place. -/
structure BinaryFormat where
  precision : ℕ
  minExponent : ℤ

/-- Single precision. -/
def binary32 : BinaryFormat := ⟨24, -149⟩

/-- Double precision. -/
def binary64 : BinaryFormat := ⟨53, -1074⟩

/-- The nearest integer, ties to even. -/
def roundTiesEven (x : ℚ) : ℤ :=
  if x - ⌊x⌋ < 1 / 2 then ⌊x⌋
  else if 1 / 2 < x - ⌊x⌋ then ⌊x⌋ + 1
  else if ⌊x⌋ % 2 = 0 then ⌊x⌋
  else ⌊x⌋ + 1

theorem roundTiesEven_intCast (n : ℤ) : roundTiesEven n = n := by
  unfold roundTiesEven
  rw [Int.floor_intCast, sub_self, if_pos (by norm_num)]

namespace BinaryFormat

variable (format : BinaryFormat)

/-- The exponent of the last place of a number in the format. -/
def exponent (x : ℚ) : ℤ := max format.minExponent (Int.log 2 |x| + 1 - format.precision)

/-- The number of the format nearest to a rational. -/
def round (x : ℚ) : ℚ :=
  roundTiesEven (x / 2 ^ format.exponent x) * 2 ^ format.exponent x

/-- The numbers of the format. -/
def Representable (x : ℚ) : Prop :=
  ∃ significand e : ℤ, |significand| < 2 ^ format.precision ∧ format.minExponent ≤ e ∧
    x = significand * 2 ^ e

variable {format}

/-- The last place of a representable number is not above the exponent of any representation. -/
theorem exponent_le {significand e : ℤ} (hsignificand : |significand| < 2 ^ format.precision)
    (hexponent : format.minExponent ≤ e) (hnonzero : significand ≠ 0) :
    format.exponent (significand * 2 ^ e) ≤ e := by
  have hpositive : (0 : ℚ) < |(significand : ℚ) * 2 ^ e| :=
    abs_pos.mpr (mul_ne_zero (Int.cast_ne_zero.mpr hnonzero) (zpow_ne_zero _ two_ne_zero))
  have hbound : |(significand : ℚ) * 2 ^ e| < ((2 : ℕ) : ℚ) ^ ((format.precision : ℤ) + e) := by
    have hcast : |(significand : ℚ)| < 2 ^ format.precision := by exact_mod_cast hsignificand
    rw [abs_mul, abs_of_pos (zpow_pos (two_pos : (0 : ℚ) < 2) e), Nat.cast_ofNat,
      zpow_add₀ two_ne_zero, zpow_natCast]
    exact mul_lt_mul_of_pos_right hcast (zpow_pos two_pos e)
  have hlog := (Int.lt_zpow_iff_log_lt one_lt_two hpositive).mp hbound
  exact max_le hexponent (by omega)

/-- **Exact arithmetic.** Rounding leaves a representable number. -/
theorem round_eq_self {x : ℚ} (hx : format.Representable x) : format.round x = x := by
  obtain ⟨significand, e, hsignificand, hexponent, rfl⟩ := hx
  rcases eq_or_ne significand 0 with rfl | hnonzero
  · unfold round
    rw [Int.cast_zero, zero_mul, zero_div, ← Int.cast_zero, roundTiesEven_intCast, Int.cast_zero,
      zero_mul]
  · have hle := exponent_le hsignificand hexponent hnonzero
    unfold round
    obtain ⟨shift, hshift⟩ := Int.eq_ofNat_of_zero_le (sub_nonneg.mpr hle)
    set last := format.exponent (significand * 2 ^ e)
    have hlast : (2 : ℚ) ^ last ≠ 0 := zpow_ne_zero _ two_ne_zero
    have hscaled : (significand : ℚ) * 2 ^ e / 2 ^ last = ((significand * 2 ^ shift : ℤ) : ℚ) := by
      rw [show e = (shift : ℤ) + last by omega, zpow_add₀ two_ne_zero, zpow_natCast,
        ← mul_assoc, mul_div_assoc, div_self hlast, mul_one]
      push_cast
      rfl
    rw [hscaled, roundTiesEven_intCast, ← hscaled, div_mul_cancel₀ _ hlast]

/-- Rounding leaves a natural number of few bits at any scale of the format. -/
theorem round_natCast_mul (format : BinaryFormat) {n : ℕ} (hn : n < 2 ^ format.precision) (e : ℤ)
    (hexponent : format.minExponent ≤ e) : format.round (n * 2 ^ e) = n * 2 ^ e := by
  refine round_eq_self ⟨n, e, ?_, hexponent, ?_⟩
  · rw [Nat.abs_cast]
    exact_mod_cast hn
  · rw [Int.cast_natCast]

/-- Rounding leaves a natural number of few bits. -/
theorem round_natCast (format : BinaryFormat) {n : ℕ} (hn : n < 2 ^ format.precision)
    (hexponent : format.minExponent ≤ 0) : format.round n = n := by
  have hround := round_natCast_mul format hn 0 hexponent
  rwa [zpow_zero, mul_one] at hround

end BinaryFormat

end Apes.Library
