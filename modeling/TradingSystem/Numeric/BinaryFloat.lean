import TradingSystem.Numeric.HalfEven
import Mathlib.Data.Rat.Floor

/-!
# Binary floating-point rounding

Floating-point rounding on the rationals. A format is a precision and a least
exponent; there is no largest exponent, so overflow is outside this library.
Rounding is `roundTo` on the unit in the last place, which depends on the
binade of the argument.

* `BinaryFormat.ulp` — the unit in the last place at an argument.
* `BinaryFormat.round` — round to nearest, ties to even.

Rounding is idempotent (`round_round`), odd and monotone (`round_mono`), so the
rationals that round to one float form a convex set (`round_eq_of_between`);
`round_eq_of_abs_sub_lt` gives the radius around a float that always reads back
as it.
-/

namespace TradingSystem
namespace Numeric

/-- A binary floating-point format without an upper exponent bound. The number
of decimal digits is enough for every float to have a decimal of that many
digits that rounds back to it. -/
structure BinaryFormat where
  precision : ℕ
  minExponent : ℤ
  decimalDigits : ℕ
  one_le_precision : 1 ≤ precision
  digits_suffice : (2 : ℚ) ^ precision < 10 ^ decimalDigits

namespace BinaryFormat

variable (fmt : BinaryFormat)

/-! ### The unit in the last place -/

/-- Exponent of the unit in the last place at `x`. -/
def ulpExponent (x : ℚ) : ℤ :=
  max (Int.log 2 |x| + 1 - fmt.precision) fmt.minExponent

/-- The unit in the last place at `x`. -/
def ulp (x : ℚ) : ℚ := 2 ^ fmt.ulpExponent x

theorem ulp_pos (x : ℚ) : 0 < fmt.ulp x := zpow_pos (by norm_num) _

theorem minExponent_le_ulpExponent (x : ℚ) : fmt.minExponent ≤ fmt.ulpExponent x :=
  le_max_right _ _

@[simp] theorem ulpExponent_neg (x : ℚ) : fmt.ulpExponent (-x) = fmt.ulpExponent x := by
  simp [ulpExponent]

/-- Below `2^(precision + e)` the unit in the last place is at most `2^e`. -/
theorem ulpExponent_le {x : ℚ} {e : ℤ} (hx : x ≠ 0) (he : fmt.minExponent ≤ e)
    (h : |x| < 2 ^ (fmt.precision + e)) : fmt.ulpExponent x ≤ e := by
  have hlog : Int.log 2 |x| < fmt.precision + e :=
    (Int.lt_zpow_iff_log_lt (by norm_num) (abs_pos.2 hx)).1 (by exact_mod_cast h)
  exact max_le (by omega) he

theorem abs_lt_zpow_ulpExponent (x : ℚ) : |x| < 2 ^ (fmt.precision + fmt.ulpExponent x) := by
  have hlt : |x| < ((2 : ℕ) : ℚ) ^ (Int.log 2 |x| + 1) :=
    Int.lt_zpow_succ_log_self (by norm_num) _
  refine lt_of_lt_of_le (by exact_mod_cast hlt) (zpow_le_zpow_right₀ (by norm_num) ?_)
  have := le_max_left (Int.log 2 |x| + 1 - fmt.precision) fmt.minExponent
  unfold ulpExponent
  omega

/-- Away from the least exponent, `x` lies in the upper half of its binade. -/
theorem zpow_le_abs {x : ℚ} (hx : x ≠ 0) (h : fmt.minExponent < fmt.ulpExponent x) :
    2 ^ (fmt.precision + fmt.ulpExponent x - 1) ≤ |x| := by
  have hlog : fmt.ulpExponent x = Int.log 2 |x| + 1 - fmt.precision := by
    unfold ulpExponent at h ⊢
    omega
  have hle : ((2 : ℕ) : ℚ) ^ Int.log 2 |x| ≤ |x| :=
    Int.zpow_log_le_self (by norm_num) (abs_pos.2 hx)
  rw [hlog]
  refine le_trans (zpow_le_zpow_right₀ (by norm_num) ?_) (by exact_mod_cast hle)
  omega

theorem ulpExponent_mono {x y : ℚ} (hx : 0 < x) (h : x ≤ y) :
    fmt.ulpExponent x ≤ fmt.ulpExponent y := by
  have hlog : Int.log 2 x ≤ Int.log 2 y := Int.log_mono_right hx h
  unfold ulpExponent
  rw [abs_of_pos hx, abs_of_pos (hx.trans_le h)]
  exact max_le_max (by omega) le_rfl

theorem onGrid_two_zpow {e f : ℤ} (h : e ≤ f) : OnGrid ((2 : ℚ) ^ e) (2 ^ f) := by
  obtain ⟨n, rfl⟩ := Int.le.dest h
  refine ⟨2 ^ n, ?_⟩
  rw [zpow_add₀ (by norm_num), zpow_natCast]
  push_cast
  ring

/-! ### Rounding -/

/-- Round to the nearest float, ties to even. -/
def round (x : ℚ) : ℚ := roundTo (fmt.ulp x) x

@[simp] theorem round_zero : fmt.round 0 = 0 := roundTo_zero _

theorem round_neg (x : ℚ) : fmt.round (-x) = -fmt.round x := by
  unfold round ulp
  rw [ulpExponent_neg, roundTo_neg]

theorem round_nonneg {x : ℚ} (h : 0 ≤ x) : 0 ≤ fmt.round x := roundTo_nonneg (fmt.ulp_pos x) h

/-- An integer multiple of an admissible power of two with at most `precision`
bits is a float. -/
theorem round_int_mul {n : ℤ} {e : ℤ} (he : fmt.minExponent ≤ e)
    (hn : |(n : ℚ)| ≤ 2 ^ fmt.precision) : fmt.round (n * 2 ^ e) = n * 2 ^ e := by
  rcases eq_or_ne n 0 with rfl | h0
  · simp
  have hpos : (0 : ℚ) < 2 ^ e := zpow_pos (by norm_num) _
  have hne : (n : ℚ) * 2 ^ e ≠ 0 := mul_ne_zero (by exact_mod_cast h0) hpos.ne'
  refine roundTo_of_onGrid (fmt.ulp_pos _) ?_
  have habs : |(n : ℚ) * 2 ^ e| = |(n : ℚ)| * 2 ^ e := by rw [abs_mul, abs_of_pos hpos]
  rcases hn.lt_or_eq with hlt | heq
  · refine (onGrid_two_zpow (fmt.ulpExponent_le hne he ?_)).trans ⟨n, rfl⟩
    rw [habs, zpow_add₀ (by norm_num), zpow_natCast]
    exact mul_lt_mul_of_pos_right hlt hpos
  · -- the carry: a full significand is the first point of the next binade
    have hexp : fmt.ulpExponent (n * 2 ^ e) ≤ e + 1 := by
      refine fmt.ulpExponent_le hne (by omega) ?_
      rw [habs, heq, ← zpow_natCast, ← zpow_add₀ (by norm_num)]
      exact zpow_lt_zpow_right₀ (by norm_num) (by omega)
    have hgrid : OnGrid ((2 : ℚ) ^ (e + 1)) (2 ^ (fmt.precision + e)) :=
      onGrid_two_zpow (by have := fmt.one_le_precision; omega)
    have hval : (2 : ℚ) ^ (fmt.precision + e) = |(n : ℚ)| * 2 ^ e := by
      rw [heq, zpow_add₀ (by norm_num), zpow_natCast]
    rw [hval] at hgrid
    have hfull : OnGrid ((2 : ℚ) ^ (e + 1)) (n * 2 ^ e) := by
      rcases abs_choice (n : ℚ) with h | h
      · rwa [h] at hgrid
      · rw [h] at hgrid
        have := hgrid.neg
        rwa [neg_mul, neg_neg] at this
    exact (onGrid_two_zpow hexp).trans hfull

/-- A rounded value has at most `precision` bits. -/
theorem round_eq_int_mul (x : ℚ) :
    ∃ n : ℤ, |(n : ℚ)| ≤ 2 ^ fmt.precision ∧ fmt.round x = n * 2 ^ fmt.ulpExponent x := by
  refine ⟨roundHalfEven (x / fmt.ulp x), ?_, rfl⟩
  have hbound : |x / fmt.ulp x| ≤ ((2 ^ fmt.precision : ℤ) : ℚ) := by
    rw [abs_div, abs_of_pos (fmt.ulp_pos x), div_le_iff₀ (fmt.ulp_pos x)]
    have h := (fmt.abs_lt_zpow_ulpExponent x).le
    rw [zpow_add₀ (by norm_num), zpow_natCast] at h
    push_cast
    exact h
  have hup := roundHalfEven_mono (abs_le.1 hbound).2
  have hlo := roundHalfEven_mono (abs_le.1 hbound).1
  rw [roundHalfEven_intCast] at hup
  rw [← Int.cast_neg, roundHalfEven_intCast] at hlo
  have habs : |roundHalfEven (x / fmt.ulp x)| ≤ 2 ^ fmt.precision := abs_le.2 ⟨hlo, hup⟩
  exact_mod_cast habs

theorem round_round (x : ℚ) : fmt.round (fmt.round x) = fmt.round x := by
  obtain ⟨n, hn, heq⟩ := fmt.round_eq_int_mul x
  rw [heq]
  exact fmt.round_int_mul (fmt.minExponent_le_ulpExponent x) hn

private theorem round_mono_pos {x y : ℚ} (hx : 0 < x) (h : x ≤ y) :
    fmt.round x ≤ fmt.round y := by
  rcases (fmt.ulpExponent_mono hx h).lt_or_eq with hlt | heq
  · -- a power of two separates the binades and is a grid point of both
    have hyx : 0 < y := hx.trans_le h
    have hbelow : x ≤ 2 ^ (fmt.precision + fmt.ulpExponent x) :=
      (le_abs_self x).trans (fmt.abs_lt_zpow_ulpExponent x).le
    have habove : 2 ^ (fmt.precision + fmt.ulpExponent x) ≤ y := by
      have hmin := (fmt.minExponent_le_ulpExponent x).trans_lt hlt
      have hy := fmt.zpow_le_abs hyx.ne' hmin
      rw [abs_of_pos hyx] at hy
      exact le_trans (zpow_le_zpow_right₀ (by norm_num) (by omega)) hy
    have hp := fmt.one_le_precision
    calc fmt.round x
        ≤ 2 ^ (fmt.precision + fmt.ulpExponent x) :=
          roundTo_le_of_le (fmt.ulp_pos x) (onGrid_two_zpow (by omega)) hbelow
      _ ≤ 2 ^ (fmt.precision + fmt.ulpExponent y - 1) :=
          zpow_le_zpow_right₀ (by norm_num) (by omega)
      _ ≤ fmt.round y := by
          refine le_roundTo_of_le (fmt.ulp_pos y) (onGrid_two_zpow (by omega)) ?_
          have hy := fmt.zpow_le_abs hyx.ne' ((fmt.minExponent_le_ulpExponent x).trans_lt hlt)
          rwa [abs_of_pos hyx] at hy
  · unfold round ulp
    rw [heq]
    exact roundTo_mono (zpow_pos (by norm_num) _) h

theorem round_mono {x y : ℚ} (h : x ≤ y) : fmt.round x ≤ fmt.round y := by
  rcases lt_trichotomy 0 x with hx | rfl | hx
  · exact fmt.round_mono_pos hx h
  · simpa using fmt.round_nonneg h
  · rcases lt_or_ge y 0 with hy | hy
    · have := fmt.round_mono_pos (x := -y) (y := -x) (by linarith) (by linarith)
      rw [round_neg, round_neg] at this
      linarith
    · have hneg : 0 ≤ fmt.round (-x) := fmt.round_nonneg (by linarith)
      rw [round_neg] at hneg
      linarith [fmt.round_nonneg hy]

/-- The rationals that round to `x` form a convex set. -/
theorem round_eq_of_between {a b c x : ℚ} (hac : a ≤ c) (hcb : c ≤ b)
    (ha : fmt.round a = x) (hb : fmt.round b = x) : fmt.round c = x :=
  le_antisymm (hb ▸ fmt.round_mono hcb) (ha ▸ fmt.round_mono hac)

private theorem round_eq_of_abs_sub_lt_pos {x d : ℚ} (hx : 0 < x) (hfix : fmt.round x = x)
    (h : |d - x| * 2 ^ (fmt.precision + 1) < x) : fmt.round d = x := by
  have hpow : (2 : ℚ) ^ (fmt.precision + 1) = 2 * 2 ^ fmt.precision := by ring
  have hp0 : (0 : ℚ) < 2 ^ fmt.precision := by positivity
  have hp1 : (1 : ℚ) ≤ 2 ^ fmt.precision := one_le_pow₀ (by norm_num)
  have hd : 0 < d := by
    have h1 := neg_abs_le (d - x)
    have h2 : |d - x| * 1 ≤ |d - x| * 2 ^ (fmt.precision + 1) :=
      mul_le_mul_of_nonneg_left (one_le_pow₀ (by norm_num)) (abs_nonneg _)
    linarith
  have hu := fmt.ulp_pos x
  have hgrid : OnGrid (fmt.ulp x) x := (onGrid_iff_roundTo_eq hu).2 hfix
  have hxlt : x < 2 ^ fmt.precision * fmt.ulp x := by
    have hlt := fmt.abs_lt_zpow_ulpExponent x
    rwa [abs_of_pos hx, zpow_add₀ (by norm_num), zpow_natCast] at hlt
  have hhalf : |d - x| < fmt.ulp x / 2 := by
    by_contra hge
    have := mul_le_mul_of_nonneg_right (not_lt.1 hge)
      (by positivity : (0 : ℚ) ≤ 2 * 2 ^ fmt.precision)
    rw [hpow] at h
    linarith
  rcases lt_trichotomy (fmt.ulpExponent d) (fmt.ulpExponent x) with hlt | heq | hgt
  · -- `d` is in the binade below, so `x` is the power of two between them
    have hmin := (fmt.minExponent_le_ulpExponent d).trans_lt hlt
    have hxb := fmt.zpow_le_abs hx.ne' hmin
    rw [abs_of_pos hx] at hxb
    have hdx : d < 2 ^ (fmt.precision + fmt.ulpExponent x - 1) := by
      have hdb := fmt.abs_lt_zpow_ulpExponent d
      rw [abs_of_pos hd] at hdb
      exact hdb.trans_le (zpow_le_zpow_right₀ (by norm_num) (by omega))
    have hxeq : x = 2 ^ (fmt.precision + fmt.ulpExponent x - 1) := by
      have hp := fmt.one_le_precision
      refine le_antisymm (hgrid.le_of_lt_add hu (onGrid_two_zpow (by omega)) ?_) hxb
      have := (abs_lt.1 hhalf).1
      linarith
    -- the grid below is twice as fine, and the radius is stated for it
    have hde : fmt.ulpExponent d = fmt.ulpExponent x - 1 := by
      have hge : 2 ^ (fmt.precision + fmt.ulpExponent x - 2) ≤ d := by
        have hsplit : x = 2 * 2 ^ (fmt.precision + fmt.ulpExponent x - 2) := by
          rw [← zpow_one_add₀ (by norm_num)]
          nth_rewrite 1 [hxeq]
          congr 1
          omega
        have h1 := (abs_lt.1 hhalf).1
        have h2 : fmt.ulp x ≤ x := hgrid.le_of_pos hu hx
        linarith
      have hlog : fmt.precision + fmt.ulpExponent x - 2 ≤ Int.log 2 |d| := by
        rw [← Int.zpow_le_iff_le_log (by norm_num) (abs_pos.2 hd.ne'), abs_of_pos hd]
        exact_mod_cast hge
      have := le_max_left (Int.log 2 |d| + 1 - fmt.precision) fmt.minExponent
      change Int.log 2 |d| + 1 - fmt.precision ≤ fmt.ulpExponent d at this
      omega
    have hulp : fmt.ulp x = 2 * fmt.ulp d := by
      unfold ulp
      rw [hde, ← zpow_one_add₀ (by norm_num)]
      congr 1
      omega
    refine roundTo_eq_of_abs_lt (fmt.ulp_pos d) ((onGrid_two_zpow hlt.le).trans hgrid) ?_
    have hxulp : x = 2 ^ fmt.precision * fmt.ulp d := by
      unfold ulp
      rw [hde, ← zpow_natCast, ← zpow_add₀ (by norm_num)]
      nth_rewrite 1 [hxeq]
      congr 1
      omega
    by_contra hge
    have := mul_le_mul_of_nonneg_right (not_lt.1 hge)
      (by positivity : (0 : ℚ) ≤ 2 * 2 ^ fmt.precision)
    rw [hpow] at h
    linarith
  · unfold round ulp
    rw [heq]
    exact roundTo_eq_of_abs_lt hu hgrid hhalf
  · -- crossing upwards would need more than half a unit
    exfalso
    have hdb := fmt.zpow_le_abs hd.ne' ((fmt.minExponent_le_ulpExponent x).trans_lt hgt)
    rw [abs_of_pos hd] at hdb
    have hcarry : 2 ^ fmt.precision * fmt.ulp x ≤ d := by
      refine le_trans ?_ hdb
      unfold ulp
      rw [← zpow_natCast, ← zpow_add₀ (by norm_num)]
      exact zpow_le_zpow_right₀ (by norm_num) (by omega)
    have hxle : x + fmt.ulp x ≤ 2 ^ fmt.precision * fmt.ulp x := by
      by_contra hgt'
      have hfull : OnGrid (fmt.ulp x) (2 ^ fmt.precision * fmt.ulp x) :=
        ⟨2 ^ fmt.precision, by push_cast; ring⟩
      exact absurd (hfull.le_of_lt_add hu hgrid (not_le.1 hgt')) (not_le.2 hxlt)
    linarith [(abs_lt.1 hhalf).2]

/-- **Reading radius.** A rational within relative distance
`2^(-(precision + 1))` of a float rounds to it. -/
theorem round_eq_of_abs_sub_lt {x d : ℚ} (hfix : fmt.round x = x)
    (h : |d - x| * 2 ^ (fmt.precision + 1) < |x|) : fmt.round d = x := by
  rcases lt_trichotomy 0 x with hx | rfl | hx
  · rw [abs_of_pos hx] at h
    exact fmt.round_eq_of_abs_sub_lt_pos hx hfix h
  · rw [abs_zero] at h
    exact absurd h (not_lt.2 (by positivity))
  · have hneg : fmt.round (-d) = -x := by
      refine fmt.round_eq_of_abs_sub_lt_pos (by linarith) (by rw [round_neg, hfix]) ?_
      rw [abs_of_neg hx] at h
      rwa [← abs_neg, neg_sub, sub_neg_eq_add, add_comm, ← sub_eq_add_neg]
    rw [round_neg] at hneg
    linarith

end BinaryFormat
end Numeric
end TradingSystem
