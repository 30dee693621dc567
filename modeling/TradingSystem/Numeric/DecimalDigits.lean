import TradingSystem.Numeric.ShortestDecimal

/-!
# Rounding to significant digits

A decimal context keeps a number of significant digits: every operation is the exact one, rounded
half to even on the grid of the last digit kept. The grid depends on the decade of the argument, so
a value of the next decade can be the result; a power of ten is on the grids of the decades on both
of its sides, which is what makes the rounding monotone.

* `roundDigits` — round to a number of digits.
* `roundDigits_mono` — a larger argument has a result that is no smaller.
* `roundDigits_of_onGrid` — a value with few enough digits is not rounded.
-/

namespace TradingSystem
namespace Numeric

/-- Exponent of the last of the digits kept at `x`. -/
def lastDigit (digits : ℕ) (x : ℚ) : ℤ := Int.log 10 |x| + 1 - digits

/-- Round to a number of significant digits, half to even. -/
def roundDigits (digits : ℕ) (x : ℚ) : ℚ := roundTo ((10 : ℚ) ^ lastDigit digits x) x

variable {digits : ℕ} {x y : ℚ}

@[simp] theorem roundDigits_zero : roundDigits digits 0 = 0 := roundTo_zero _

theorem roundDigits_neg : roundDigits digits (-x) = -roundDigits digits x := by
  unfold roundDigits lastDigit
  rw [abs_neg, roundTo_neg]

theorem roundDigits_nonneg (h : 0 ≤ x) : 0 ≤ roundDigits digits x :=
  roundTo_nonneg (ten_zpow_pos _) h

/-- The decade of a value, from below. -/
theorem zpow_log_le (h : 0 < x) : (10 : ℚ) ^ Int.log 10 |x| ≤ x := by
  have hle := Int.zpow_log_le_self (b := 10) (by norm_num) (abs_pos.2 h.ne')
  rw [abs_of_pos h] at hle ⊢
  exact_mod_cast hle

/-- The decade of a value, from above. -/
theorem lt_zpow_log_succ (h : 0 < x) : x < (10 : ℚ) ^ (Int.log 10 |x| + 1) := by
  have hlt := Int.lt_zpow_succ_log_self (b := 10) (by norm_num) |x|
  rw [abs_of_pos h] at hlt ⊢
  exact_mod_cast hlt

theorem roundDigits_mono_pos (hdigits : 0 < digits) (hx : 0 < x) (h : x ≤ y) :
    roundDigits digits x ≤ roundDigits digits y := by
  have hy : 0 < y := hx.trans_le h
  have hlog : Int.log 10 |x| ≤ Int.log 10 |y| := by
    rw [abs_of_pos hx, abs_of_pos hy]
    exact Int.log_mono_right hx h
  rcases hlog.eq_or_lt with heq | hlt
  · unfold roundDigits lastDigit
    rw [heq]
    exact roundTo_mono (ten_zpow_pos _) h
  · -- the power of ten between the decades is on both grids
    calc roundDigits digits x
        ≤ 10 ^ (Int.log 10 |x| + 1) :=
          roundTo_le_of_le (ten_zpow_pos _) (onGrid_ten_zpow (by unfold lastDigit; omega))
            (lt_zpow_log_succ hx).le
      _ ≤ 10 ^ Int.log 10 |y| := zpow_le_zpow_right₀ (by norm_num) (by omega)
      _ ≤ roundDigits digits y :=
          le_roundTo_of_le (ten_zpow_pos _) (onGrid_ten_zpow (by unfold lastDigit; omega))
            (zpow_log_le hy)

/-- **Rounding to digits is monotone.** -/
theorem roundDigits_mono (hdigits : 0 < digits) (h : x ≤ y) :
    roundDigits digits x ≤ roundDigits digits y := by
  rcases lt_trichotomy 0 x with hx | rfl | hx
  · exact roundDigits_mono_pos hdigits hx h
  · rw [roundDigits_zero]
    exact roundDigits_nonneg h
  · rcases lt_or_ge y 0 with hy | hy
    · have hneg := roundDigits_mono_pos (x := -y) (y := -x) hdigits (by linarith) (by linarith)
      rw [roundDigits_neg, roundDigits_neg] at hneg
      linarith
    · have hnonneg : 0 ≤ roundDigits digits (-x) := roundDigits_nonneg (by linarith)
      rw [roundDigits_neg] at hnonneg
      have hnonneg' : 0 ≤ roundDigits digits y := roundDigits_nonneg hy
      linarith

/-- **Few digits are not rounded**: a multiple of a power of ten below the power that has all the
digits above it. -/
theorem roundDigits_of_onGrid {e : ℤ} (h : OnGrid ((10 : ℚ) ^ e) x)
    (hlt : |x| < 10 ^ (e + digits)) :
    roundDigits digits x = x := by
  by_cases hzero : x = 0
  · rw [hzero, roundDigits_zero]
  have hlog : Int.log 10 |x| < e + digits := by
    rw [← Int.lt_zpow_iff_log_lt (by norm_num) (abs_pos.2 hzero)]
    exact_mod_cast hlt
  apply roundTo_of_onGrid (ten_zpow_pos _)
  exact OnGrid.trans (onGrid_ten_zpow (by unfold lastDigit; omega)) h

end Numeric
end TradingSystem
