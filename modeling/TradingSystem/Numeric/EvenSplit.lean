import Mathlib.Data.Int.GCD
import TradingSystem.Numeric.Binary64

/-!
# Splitting a span evenly

A span of `N` units is cut into `n` parts of equal length. When `n` does not divide `N`, some
cut lies far from every whole number of units (`dvd_of_near`), so that a small error in the
cuts cannot move all of them onto whole numbers.

* `exists_third_of_not_dvd` — the remainders of the multiples of `N` reach the middle third.
* `dvd_of_near` — cuts near whole numbers come from a divisor.
* `abs_sub_round_le_of_lt_one` — the error of a double below one.
* `eq_of_near` — of two multiples of a step less than a step apart.
-/

namespace TradingSystem
namespace Numeric

variable {n N : ℕ}

/-- **A remainder in the middle third.** -/
theorem exists_third_of_not_dvd (hn : 0 < n) (h : ¬n ∣ N) :
    ∃ i < n, n ≤ 3 * (i * N % n) ∧ 3 * (i * N % n) ≤ 2 * n := by
  have hgcd : 0 < Nat.gcd N n := Nat.gcd_pos_of_pos_right N hn
  obtain ⟨N', hN⟩ := Nat.gcd_dvd_left N n
  obtain ⟨q, hq⟩ := Nat.gcd_dvd_right N n
  generalize hg : Nat.gcd N n = g at *
  have hcoprime : Nat.Coprime N' q := by
    have := Nat.coprime_div_gcd_div_gcd (m := N) (n := n) (by rw [hg]; exact hgcd)
    rw [hg] at this
    rwa [hN, hq, Nat.mul_div_cancel_left _ hgcd, Nat.mul_div_cancel_left _ hgcd] at this
  have hq0 : q ≠ 0 := by
    rintro rfl
    omega
  have hq1 : q ≠ 1 := by
    rintro rfl
    apply h
    rw [hq, hN, mul_one]
    exact Nat.dvd_mul_right g N'
  obtain ⟨i, hi, hmod⟩ := Nat.exists_mul_mod_eq_of_coprime (q / 2) hcoprime hq0
  have hhalf : q / 2 % q = q / 2 := Nat.mod_eq_of_lt (by omega)
  -- the multiple has half of the coarser modulus as its remainder
  have hrem : i * N % n = q / 2 * g := by
    calc i * N % n = (N' * i * g) % (q * g) := by rw [hN, hq]; ring_nf
      _ = N' * i % q * g := Nat.mul_mod_mul_right g _ _
      _ = q / 2 * g := by rw [hmod, hhalf]
  refine ⟨i, ?_, ?_, ?_⟩
  · rw [hq]
    nlinarith
  · rw [hrem, hq]
    have : q ≤ 3 * (q / 2) := by omega
    nlinarith
  · rw [hrem, hq]
    have : 3 * (q / 2) ≤ 2 * q := by omega
    nlinarith

/-- A remainder in the middle third keeps the quotient away from every integer. -/
theorem third_le_abs_sub (hn : 0 < n) {a : ℕ} (hlow : n ≤ 3 * (a % n))
    (hhigh : 3 * (a % n) ≤ 2 * n) (k : ℤ) : 1 / 3 ≤ |(a : ℚ) / n - k| := by
  have hnQ : (0 : ℚ) < n := by exact_mod_cast hn
  have hsplit : (a : ℚ) = n * (a / n : ℕ) + (a % n : ℕ) := by
    exact_mod_cast (Nat.div_add_mod a n).symm
  generalize a / n = t at *
  generalize a % n = r at *
  have hvalue : (a : ℚ) / n - k = ((t - k : ℤ) : ℚ) + r / n := by
    rw [hsplit, add_div, mul_div_cancel_left₀ _ hnQ.ne']
    push_cast
    ring
  -- the fraction left by the division is between a third and two thirds
  have hfrac_low : (1 : ℚ) / 3 ≤ r / n := by
    rw [div_le_div_iff₀ (by norm_num) hnQ]
    exact_mod_cast (by omega : 1 * n ≤ r * 3)
  have hfrac_high : (r : ℚ) / n ≤ 2 / 3 := by
    rw [div_le_div_iff₀ hnQ (by norm_num)]
    exact_mod_cast (by omega : r * 3 ≤ 2 * n)
  rw [hvalue]
  by_cases hnonneg : 0 ≤ (t : ℤ) - k
  · have hcast : (0 : ℚ) ≤ ((t - k : ℤ) : ℚ) := by exact_mod_cast hnonneg
    rw [abs_of_nonneg (by linarith)]
    linarith
  · have hcast : ((t - k : ℤ) : ℚ) ≤ -1 := by
      exact_mod_cast (by omega : (t : ℤ) - k ≤ -1)
    rw [abs_of_nonpos (by linarith)]
    linarith

/-- **Cuts near whole numbers come from a divisor.** -/
theorem dvd_of_near (hn : 0 < n) (h : ∀ i < n, ∃ k : ℤ, |((i * N : ℕ) : ℚ) / n - k| < 1 / 3) :
    n ∣ N := by
  by_contra hnot
  obtain ⟨i, hi, hlow, hhigh⟩ := exists_third_of_not_dvd hn hnot
  obtain ⟨k, hk⟩ := h i hi
  exact absurd hk (not_lt.2 (third_le_abs_sub hn hlow hhigh k))

/-- Two multiples of a step that are less than a step apart are equal. -/
theorem eq_of_near {step a b : ℤ} (ha : step ∣ a) (hb : step ∣ b) (h : |a - b| < step) : a = b :=
  sub_eq_zero.1 (Int.eq_zero_of_abs_lt_dvd (dvd_sub ha hb) h)

/-- An even number is the rounding of everything within one half of it. -/
theorem roundHalfEven_eq_iff_of_even {x : ℚ} {m : ℤ} (hm : Even m) :
    roundHalfEven x = m ↔ |x - m| ≤ 1 / 2 := by
  constructor
  · rintro rfl
    exact abs_sub_roundHalfEven_le x
  · intro h
    rw [roundHalfEven_eq_iff]
    obtain hlt | heq := h.lt_or_eq
    · exact Or.inl hlt
    · exact Or.inr ⟨heq, hm⟩

/-- **The error of a double below one.** -/
theorem abs_sub_round_le_of_lt_one {x : ℚ} (h0 : 0 ≤ x) (h1 : x < 1) :
    |x - binary64.round x| ≤ 1 / 2 ^ 54 := by
  obtain rfl | hpos := h0.eq_or_lt
  · rw [BinaryFormat.round_zero, sub_zero, abs_zero]
    positivity
  have hexp : binary64.ulpExponent x ≤ -53 := by
    refine binary64.ulpExponent_le hpos.ne' (by norm_num [binary64]) ?_
    rw [abs_of_pos hpos]
    exact h1.trans_eq (by norm_num [binary64])
  have hulp : binary64.ulp x ≤ 1 / 2 ^ 53 := by
    refine (zpow_le_zpow_right₀ (by norm_num) hexp).trans_eq ?_
    norm_num
  exact (abs_sub_roundTo_le (binary64.ulp_pos x) x).trans (by linarith)

section Cuts

variable {step : ℤ} {span : ℚ}

/-- **Rounded cuts on a grid.** A span of `N` steps is cut at `n` doubles near the fractions
`i / n`, and the cuts are rounded to integers. When the span is short against the precision of
a double, all cuts are multiples of the step exactly when `n` divides `N` and no cut is more
than one half off. -/
theorem dvd_rounded_cuts_iff (hn : 0 < n) (hstep : 100 ≤ step) (heven : Even step)
    (hspan : span = N * step) (hshort : span ≤ 2 ^ 59) :
    (∀ i < n, step ∣ roundHalfEven (span * binary64.round (i / n))) ↔
      n ∣ N ∧ ∀ i < n, |span * binary64.round (i / n) - span * (i / n)| ≤ 1 / 2 := by
  have hnQ : (0 : ℚ) < n := by exact_mod_cast hn
  have hstepQ : (100 : ℚ) ≤ step := by exact_mod_cast hstep
  have hspan0 : 0 ≤ span := by
    rw [hspan]
    positivity
  -- the error that the doubles make
  have herror : ∀ i < n, |span * binary64.round (i / n) - span * (i / n)| ≤ 32 := by
    intro i hi
    have hi1 : (i : ℚ) / n < 1 := by
      rw [div_lt_one hnQ]
      exact_mod_cast hi
    have hround := abs_sub_round_le_of_lt_one (by positivity) hi1
    rw [← mul_sub, abs_mul, abs_of_nonneg hspan0, abs_sub_comm]
    calc span * |(i : ℚ) / n - binary64.round (i / n)| ≤ 2 ^ 59 * (1 / 2 ^ 54) := by gcongr
      _ = 32 := by norm_num
  have hexact : ∀ i, span * (i / n) = step * (((i * N : ℕ) : ℚ) / n) := by
    intro i
    rw [hspan]
    push_cast
    ring
  constructor
  · intro hcuts
    -- every exact cut is within the third of a step of a multiple
    have hnear : ∀ i < n, ∃ k : ℤ, roundHalfEven (span * binary64.round (i / n)) = step * k ∧
        |span * (i / n) - step * k| ≤ 65 / 2 := by
      intro i hi
      obtain ⟨k, hk⟩ := hcuts i hi
      have hhalf := abs_sub_roundHalfEven_le (span * binary64.round (i / n))
      rw [hk] at hhalf
      refine ⟨k, hk, ?_⟩
      have htriangle := abs_sub_le (span * (i / n)) (span * binary64.round (i / n)) (step * k)
      rw [abs_sub_comm (span * (i / n)) (span * binary64.round (i / n))] at htriangle
      push_cast at hhalf
      linarith [herror i hi]
    have hdvd : n ∣ N := by
      refine dvd_of_near hn fun i hi => ?_
      obtain ⟨k, -, hk⟩ := hnear i hi
      refine ⟨k, ?_⟩
      rw [hexact, ← mul_sub, abs_mul, abs_of_pos (by linarith)] at hk
      nlinarith [abs_nonneg (((i * N : ℕ) : ℚ) / n - k)]
    refine ⟨hdvd, fun i hi => ?_⟩
    obtain ⟨m, rfl⟩ := hdvd
    obtain ⟨k, hround, hk⟩ := hnear i hi
    have hwhole : span * (i / n) = ((step * (i * m) : ℤ) : ℚ) := by
      rw [hexact]
      push_cast
      field_simp
    -- the multiple the cut was rounded to is the exact cut
    have hcut : step * k = step * (i * m) := by
      refine eq_of_near (dvd_mul_right _ _) (dvd_mul_right _ _) ?_
      rw [hwhole, abs_sub_comm] at hk
      have hlt : |((step * k : ℤ) : ℚ) - ((step * (i * m) : ℤ) : ℚ)| < step := by
        push_cast at hk ⊢
        linarith
      exact_mod_cast hlt
    have hhalf := abs_sub_roundHalfEven_le (span * binary64.round (i / n))
    rw [hround, hcut, ← hwhole] at hhalf
    exact hhalf
  · rintro ⟨⟨m, rfl⟩, hprecise⟩ i hi
    have hwhole : span * (i / n) = ((step * (i * m) : ℤ) : ℚ) := by
      rw [hexact]
      push_cast
      field_simp
    have hround : roundHalfEven (span * binary64.round (i / n)) = step * (i * m) := by
      rw [roundHalfEven_eq_iff_of_even (heven.mul_right _), ← hwhole]
      exact hprecise i hi
    rw [hround]
    exact dvd_mul_right _ _

end Cuts

/-- An integer of at most 53 bits is a double. -/
theorem round_intCast {n : ℤ} (h : |n| ≤ 2 ^ 53) : binary64.round n = n := by
  have hcast : |(n : ℚ)| ≤ 2 ^ binary64.precision := by exact_mod_cast h
  have hround := binary64.round_int_mul (e := 0) (by norm_num [binary64]) hcast
  rw [zpow_zero, mul_one] at hround
  exact hround

end Numeric
end TradingSystem
