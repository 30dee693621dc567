import TradingSystem.Types.Candle

/-!
# The clock as a float

`datetime.timestamp` is the seconds since the epoch as a double, and `int` drops its fraction.
On whole seconds nothing is lost.

* `timestamp`, `truncated` — the two functions; `epochMilliseconds` — the instants of the evidence.
* `WholeSecond` — an instant of the clock on a whole second.
* `truncated_timestamp`, `epochMilliseconds_of_second` — there the functions are exact.
* `epochMilliseconds_mono`, `epochMilliseconds_of_recent` — a later instant is not stored earlier,
  and from November 2004 to January 2038 no millisecond is lost.
-/

namespace TradingSystem

open Numeric

/-- `int(x)` of a float. -/
def truncated (x : Binary64) : ℤ := x.val.num.tdiv x.val.den

def timestamp (instant : ℤ) : Binary64 := Binary64.ofRat (instant / 1000000)

/-- `_epoch_milliseconds`: a thousand times the seconds, both as floats, without the fraction. On
a whole millisecond the product may be short of it: 133200.001 seconds are 133200000. -/
def epochMilliseconds (instant : ℤ) : ℤ :=
  truncated (Binary64.ofRat ((timestamp instant).val * 1000))

/-- An instant of the source's clock, which ends with the year 9999, on a whole second. -/
structure WholeSecond (instant seconds : ℤ) : Prop where
  instant_eq : instant = seconds * 1000000
  small : |seconds| ≤ 2 ^ 38

/-- Whole numbers of up to 53 bits are floats. -/
theorem round_intCast {n : ℤ} (h : |n| ≤ 2 ^ 53) : binary64.round (n : ℚ) = n := by
  have hcast : |(n : ℚ)| ≤ 2 ^ binary64.precision := by
    rw [← Int.cast_abs]
    exact_mod_cast h
  simpa using binary64.round_int_mul (n := n) (e := 0) (by decide) hcast

theorem WholeSecond.div_eq {instant seconds : ℤ} (h : WholeSecond instant seconds) :
    (instant : ℚ) / 1000000 = seconds := by
  rw [h.instant_eq]
  push_cast
  exact mul_div_cancel_right₀ _ (by norm_num)

/-- A float that is a whole number is not truncated. -/
theorem truncated_of_val_eq {x : Binary64} {n : ℤ} (h : x.val = n) : truncated x = n := by
  unfold truncated
  rw [h, Rat.num_intCast, Rat.den_intCast, Nat.cast_one, Int.tdiv_one]

/-- **On whole seconds** the clock is exact. -/
theorem truncated_timestamp {instant seconds : ℤ} (h : WholeSecond instant seconds) :
    truncated (timestamp instant) = seconds := by
  have hsmall := abs_le.1 h.small
  refine truncated_of_val_eq ?_
  unfold timestamp
  rw [Binary64.ofRat_val, h.div_eq]
  exact round_intCast (abs_le.2 ⟨by omega, by omega⟩)

/-- **On whole seconds** the milliseconds of the source are exact. -/
theorem epochMilliseconds_of_second {instant seconds : ℤ} (h : WholeSecond instant seconds) :
    epochMilliseconds instant = seconds * 1000 := by
  have hsmall := abs_le.1 h.small
  have hseconds : binary64.round (seconds : ℚ) = seconds :=
    round_intCast (abs_le.2 ⟨by omega, by omega⟩)
  refine truncated_of_val_eq ?_
  unfold timestamp
  rw [Binary64.ofRat_val, Binary64.ofRat_val, h.div_eq, hseconds,
    ← round_intCast (n := seconds * 1000) (abs_le.2 ⟨by omega, by omega⟩)]
  push_cast
  rfl

/-- There the instant can be told from the milliseconds. -/
theorem instant_eq_of_second {instant : ℤ} (h : ∃ seconds, WholeSecond instant seconds) :
    instant = epochMilliseconds instant * 1000 := by
  obtain ⟨seconds, hseconds⟩ := h
  rw [epochMilliseconds_of_second hseconds, mul_assoc]
  exact hseconds.instant_eq

/-! ### Order -/

theorem truncated_nonneg {x : Binary64} (h : 0 ≤ x.val) : truncated x = ⌊x.val⌋ := by
  unfold truncated
  rw [Int.tdiv_eq_ediv_of_nonneg (Rat.num_nonneg.2 h), Rat.floor_def']

theorem truncated_nonpos {x : Binary64} (h : x.val ≤ 0) : truncated x = ⌈x.val⌉ := by
  unfold truncated
  rw [← neg_neg x.val.num, Int.neg_tdiv, Int.tdiv_eq_ediv_of_nonneg, ← Rat.num_neg_eq_neg_num,
    ← Rat.den_neg_eq_den, ← Rat.floor_def', Int.floor_neg, neg_neg]
  exact neg_nonneg.2 (Rat.num_nonpos.2 h)

theorem truncated_mono {x y : Binary64} (h : x ≤ y) : truncated x ≤ truncated y := by
  rw [Binary64.le_def] at h
  rcases le_total 0 x.val with hx | hx
  · rw [truncated_nonneg hx, truncated_nonneg (hx.trans h)]
    exact Int.floor_mono h
  rcases le_total 0 y.val with hy | hy
  · -- zero is between the two
    rw [truncated_nonpos hx, truncated_nonneg hy]
    exact (Int.ceil_le.2 (by exact_mod_cast hx)).trans (Int.floor_nonneg.2 hy)
  · rw [truncated_nonpos hx, truncated_nonpos hy]
    exact Int.ceil_mono h

/-- **A later instant** is not stored as an earlier one. -/
theorem epochMilliseconds_mono {t t' : ℤ} (h : t ≤ t') :
    epochMilliseconds t ≤ epochMilliseconds t' := by
  have hseconds : (timestamp t).val ≤ (timestamp t').val := by
    refine binary64.round_mono ?_
    gcongr
  refine truncated_mono (binary64.round_mono ?_)
  gcongr

/-! ### Recent instants -/

/-- **From November 2004 to January 2038** whole milliseconds are exact. The seconds are off by at
most `2^(-23)`, so their product is within half a unit of the last place of the milliseconds. -/
theorem epochMilliseconds_of_recent {milliseconds : ℤ} (hlow : 2 ^ 40 < milliseconds)
    (hhigh : milliseconds < 2 ^ 31 * 1000) :
    epochMilliseconds (milliseconds * Instant.millisecond) = milliseconds := by
  have hlow' : (2 : ℚ) ^ 40 + 1 ≤ milliseconds := by exact_mod_cast Int.add_one_le_of_lt hlow
  have hhigh' : (milliseconds : ℚ) < 2 ^ 31 * 1000 := by exact_mod_cast hhigh
  obtain ⟨seconds, hseconds⟩ : ∃ seconds : ℚ, seconds = milliseconds / 1000 := ⟨_, rfl⟩
  have hpos : 0 < seconds := by
    rw [hseconds]
    linarith
  -- the error of the seconds
  have herror : |seconds - binary64.round seconds| ≤ 1 / 2 ^ 23 := by
    have hulp : binary64.ulp seconds ≤ 1 / 2 ^ 22 := by
      have hexponent : binary64.ulpExponent seconds ≤ -22 := by
        refine binary64.ulpExponent_le hpos.ne' (by decide) ?_
        rw [abs_of_pos hpos, hseconds]
        norm_num [binary64]
        linarith
      calc binary64.ulp seconds ≤ 2 ^ (-22 : ℤ) := zpow_le_zpow_right₀ (by norm_num) hexponent
        _ = 1 / 2 ^ 22 := by norm_num
    have hhalf := abs_sub_roundTo_le (binary64.ulp_pos seconds) seconds
    refine hhalf.trans ?_
    linarith
  -- the place of the product
  have hinstant : ((milliseconds * Instant.millisecond : ℤ) : ℚ) / 1000000 = seconds := by
    rw [hseconds]
    unfold Instant.millisecond
    push_cast
    ring
  obtain ⟨product, hproduct⟩ : ∃ product : ℚ, product = binary64.round seconds * 1000 := ⟨_, rfl⟩
  have hnear : |product - milliseconds| ≤ 1000 / 2 ^ 23 := by
    rw [hproduct, show (milliseconds : ℚ) = seconds * 1000 by rw [hseconds]; ring, ← sub_mul,
      abs_mul, abs_sub_comm, abs_of_pos (show (0 : ℚ) < 1000 by norm_num)]
    linarith
  have hbounds := abs_le.1 hnear
  have hfloor : -12 ≤ binary64.ulpExponent product := by
    have hpower : binary64.ulpExponent (2 ^ 40) = -12 := by decide +kernel
    rw [← hpower]
    refine binary64.ulpExponent_mono (by norm_num) ?_
    linarith
  have hceil : binary64.ulpExponent product ≤ 0 := by
    refine binary64.ulpExponent_le (by linarith) (by decide) ?_
    rw [abs_of_pos (by linarith)]
    norm_num [binary64]
    linarith
  have hgrid : OnGrid (binary64.ulp product) (milliseconds : ℚ) := by
    have hone := BinaryFormat.onGrid_two_zpow hceil
    rw [zpow_zero] at hone
    exact hone.trans ⟨milliseconds, (mul_one _).symm⟩
  have hulp : (1 : ℚ) / 2 ^ 12 ≤ binary64.ulp product := by
    calc (1 : ℚ) / 2 ^ 12 = 2 ^ (-12 : ℤ) := by norm_num
      _ ≤ binary64.ulp product := zpow_le_zpow_right₀ (by norm_num) hfloor
  refine truncated_of_val_eq ?_
  unfold timestamp
  rw [Binary64.ofRat_val, Binary64.ofRat_val, hinstant, ← hproduct]
  exact roundTo_eq_of_abs_lt (binary64.ulp_pos product) hgrid (by linarith)

end TradingSystem
