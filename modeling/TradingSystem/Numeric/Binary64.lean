import TradingSystem.Numeric.ShortestDecimal

/-!
# The binary64 format

The double-precision format as an instance of `BinaryFormat`, the type of its
values, and arithmetic on them: each operation is the exact one followed by one
rounding. Infinities and NaN are absent, as is the upper exponent bound; the
values of this development stay far below it.

`Binary64.repr` is the decimal a double prints as. `repr_eq_of_lt_two_pow_26`
is the range in which printing is lossless for decimals of eight places: below
`2^26` two multiples of `10^(-8)` never share a double, so a double that came
from one prints as that one.
-/

namespace TradingSystem
namespace Numeric

/-- Double precision: 53 bits, subnormals down to `2^(-1074)`, and seventeen
significant decimal digits always read back. -/
def binary64 : BinaryFormat where
  precision := 53
  minExponent := -1074
  decimalDigits := 16
  one_le_precision := by norm_num
  digits_suffice := by norm_num

/-- A finite double. -/
structure Binary64 where
  val : ℚ
  rounded : binary64.round val = val
deriving DecidableEq

namespace Binary64

@[ext] theorem ext {x y : Binary64} (h : x.val = y.val) : x = y := by
  cases x
  cases y
  cases h
  rfl

/-- The double nearest to a rational. -/
def ofRat (x : ℚ) : Binary64 := ⟨binary64.round x, binary64.round_round x⟩

@[simp] theorem ofRat_val (x : ℚ) : (ofRat x).val = binary64.round x := rfl

/-- The decimal value of the shortest digit string that reads back as `x`. -/
def repr (x : Binary64) : ℚ := binary64.shortest x.val

def zero : Binary64 := ⟨0, binary64.round_zero⟩

def mul (x y : Binary64) : Binary64 := ofRat (x.val * y.val)

def div (x y : Binary64) : Binary64 := ofRat (x.val / y.val)

def add (x y : Binary64) : Binary64 := ofRat (x.val + y.val)

def sub (x y : Binary64) : Binary64 := ofRat (x.val - y.val)

def abs (x : Binary64) : Binary64 :=
  if x.val < 0 then ⟨-x.val, by rw [BinaryFormat.round_neg, x.rounded]⟩ else x

instance : LE Binary64 := ⟨fun x y => x.val ≤ y.val⟩

instance : LT Binary64 := ⟨fun x y => x.val < y.val⟩

instance (x y : Binary64) : Decidable (x ≤ y) := inferInstanceAs (Decidable (x.val ≤ y.val))

instance (x y : Binary64) : Decidable (x < y) := inferInstanceAs (Decidable (x.val < y.val))

theorem le_def {x y : Binary64} : x ≤ y ↔ x.val ≤ y.val := Iff.rfl

theorem lt_def {x y : Binary64} : x < y ↔ x.val < y.val := Iff.rfl

/-- What is at least one is not rounded to zero. -/
theorem zero_lt_ofRat {x : ℚ} (h : 1 ≤ x) : zero < ofRat x := by
  have hone : binary64.round 1 = 1 := by
    simpa using binary64.round_int_mul (n := 1) (e := 0) (by decide) (by norm_num [binary64])
  have hround : (1 : ℚ) ≤ binary64.round x := by
    rw [← hone]
    exact binary64.round_mono h
  exact one_pos.trans_le hround

/-- Printing and reading back is the identity on doubles. -/
@[simp] theorem ofRat_repr (x : Binary64) : ofRat x.repr = x := ext (round_shortest x.rounded)

theorem repr_nonneg {x : Binary64} (h : 0 ≤ x.val) : 0 ≤ x.repr := by
  by_contra hneg
  have hle := binary64.round_mono (not_le.1 hneg).le
  rw [repr, round_shortest x.rounded, BinaryFormat.round_zero] at hle
  have hzero : x.val = 0 := le_antisymm hle h
  apply hneg
  simp [repr, hzero, BinaryFormat.shortest]

theorem repr_pos {x : Binary64} (h : 0 < x.val) : 0 < x.repr := by
  refine lt_of_le_of_ne (repr_nonneg h.le) fun hzero => h.ne' ?_
  rw [← round_shortest x.rounded]
  change binary64.round x.repr = 0
  rw [← hzero, BinaryFormat.round_zero]

/-- A larger double prints as a larger decimal. -/
theorem repr_mono {x y : Binary64} (h : x ≤ y) : x.repr ≤ y.repr := by
  rcases (le_def.1 h).eq_or_lt with heq | hlt
  · rw [ext heq]
  · by_contra hgt
    have hle := binary64.round_mono (not_le.1 hgt).le
    rw [repr, repr, round_shortest x.rounded, round_shortest y.rounded] at hle
    exact absurd hlt (not_lt.2 hle)

/-- A decimal prints back as itself when its double has no other decimal on the
same grid. -/
theorem repr_ofRat_of_unique {q : ℚ} {k : ℤ} (hq : OnGrid ((10 : ℚ) ^ k) q)
    (huniq : ∀ r, OnGrid ((10 : ℚ) ^ k) r → binary64.round r = binary64.round q → r = q) :
    (ofRat q).repr = q :=
  huniq _ (onGrid_shortest (ofRat q).rounded ⟨hq, rfl⟩) (round_shortest (ofRat q).rounded)

private theorem abs_sub_round_le_of_lt {x : ℚ} (h0 : 0 < x) (h : x < 2 ^ 26) :
    |x - binary64.round x| ≤ 1 / 2 ^ 28 := by
  have hexp : binary64.ulpExponent x ≤ -27 := by
    refine binary64.ulpExponent_le h0.ne' (by norm_num [binary64]) ?_
    rw [abs_of_pos h0]
    exact h.trans_eq (by norm_num [binary64])
  have hulp : binary64.ulp x ≤ 1 / 2 ^ 27 := by
    refine (zpow_le_zpow_right₀ (by norm_num) hexp).trans_eq ?_
    norm_num
  exact (abs_sub_roundTo_le (binary64.ulp_pos x) x).trans (by linarith)

private theorem round_two_pow_26 : binary64.round (2 ^ 26) = 2 ^ 26 := by
  have h := binary64.round_int_mul (n := 1) (e := 26) (by norm_num [binary64])
    (by norm_num [binary64])
  norm_num at h
  norm_num
  exact h

/-- Below `2^26`, eight-place decimals have distinct doubles. -/
theorem round_injOn_lt_two_pow_26 {q r : ℚ} (hq : OnGrid ((10 : ℚ) ^ (-8 : ℤ)) q)
    (hr : OnGrid ((10 : ℚ) ^ (-8 : ℤ)) r) (hq0 : 0 < q) (hq1 : q < 2 ^ 26) (hqr : q ≤ r)
    (h : binary64.round r = binary64.round q) : r = q := by
  have hu : (0 : ℚ) < 10 ^ (-8 : ℤ) := by positivity
  -- the smaller of `r` and `2^26` shares the double of `q`
  have hkey : ∀ s, OnGrid ((10 : ℚ) ^ (-8 : ℤ)) s → q ≤ s → s ≤ 2 ^ 26 →
      binary64.round s = binary64.round q → s = q := by
    intro s hs hqs hs1 heq
    refine le_antisymm (hs.le_of_lt_add hu hq ?_) hqs
    have hqe := (abs_le.1 (abs_sub_round_le_of_lt hq0 hq1)).1
    have hse : s ≤ binary64.round s + 1 / 2 ^ 28 := by
      rcases hs1.lt_or_eq with hlt | rfl
      · linarith [(abs_le.1 (abs_sub_round_le_of_lt (hq0.trans_le hqs) hlt)).2]
      · rw [round_two_pow_26]
        norm_num
    rw [heq] at hse
    norm_num at hqe hse ⊢
    linarith
  rcases le_or_gt r (2 ^ 26) with hle | hgt
  · exact hkey r hr hqr hle h
  · have hmid : binary64.round (2 ^ 26) = binary64.round q :=
      binary64.round_eq_of_between hq1.le hgt.le rfl h
    have hgrid : OnGrid ((10 : ℚ) ^ (-8 : ℤ)) (2 ^ 26) :=
      ⟨2 ^ 26 * 10 ^ 8, by norm_num⟩
    have := hkey _ hgrid hq1.le le_rfl hmid
    linarith

/-- **Lossless range.** A positive eight-place decimal below `2^26` prints back
as itself. -/
theorem repr_eq_of_lt_two_pow_26 {q : ℚ} (hq : OnGrid ((10 : ℚ) ^ (-8 : ℤ)) q) (hq0 : 0 < q)
    (hq1 : q < 2 ^ 26) : (ofRat q).repr = q := by
  refine repr_ofRat_of_unique hq fun r hr h => ?_
  rcases le_total q r with hle | hle
  · exact round_injOn_lt_two_pow_26 hq hr hq0 hq1 hle h
  · have hr0 : 0 < r := by
      by_contra hneg
      have h1 := binary64.round_mono (not_lt.1 hneg)
      rw [h, BinaryFormat.round_zero] at h1
      have h2 := (abs_le.1 (abs_sub_round_le_of_lt hq0 hq1)).2
      have h3 : ((10 : ℚ) ^ (-8 : ℤ)) ≤ q := hq.le_of_pos (by positivity) hq0
      norm_num at h2 h3
      linarith
    exact (round_injOn_lt_two_pow_26 hr hq hr0 (hle.trans_lt hq1) hle h.symm).symm

/-- Away from zero a unit in the last place is a small part of the number. -/
private theorem ulp_le_quarter {x : ℚ} (h : (10 : ℚ) ^ (-8 : ℤ) ≤ x) :
    binary64.ulp x ≤ x / 4 := by
  have hx : 0 < x := lt_of_lt_of_le (by positivity) h
  by_cases hexp : binary64.minExponent < binary64.ulpExponent x
  · have hbinade := binary64.zpow_le_abs hx.ne' hexp
    rw [abs_of_pos hx] at hbinade
    refine le_trans ?_ (div_le_div_of_nonneg_right hbinade (by norm_num))
    rw [le_div_iff₀ (by norm_num)]
    calc binary64.ulp x * 4 = 2 ^ (binary64.ulpExponent x + 2) := by
          rw [zpow_add₀ (by norm_num)]
          norm_num [BinaryFormat.ulp]
      _ ≤ 2 ^ (binary64.precision + binary64.ulpExponent x - 1) := by
          refine zpow_le_zpow_right₀ (by norm_num) ?_
          norm_num [binary64]
          omega
  · -- the least exponent belongs to numbers below the grid
    exfalso
    have heq : binary64.ulpExponent x = binary64.minExponent :=
      le_antisymm (not_lt.1 hexp) (binary64.minExponent_le_ulpExponent x)
    have hlt := binary64.abs_lt_zpow_ulpExponent x
    rw [heq, abs_of_pos hx] at hlt
    have htiny : (2 : ℚ) ^ (binary64.precision + binary64.minExponent) ≤ 2 ^ (-27 : ℤ) :=
      zpow_le_zpow_right₀ (by norm_num) (by norm_num [binary64])
    norm_num at htiny h
    linarith

/-- Printing the double of an eight-place decimal loses less than half of it. -/
theorem le_two_mul_repr {q : ℚ} (hq : OnGrid ((10 : ℚ) ^ (-8 : ℤ)) (ofRat q).repr)
    (hpos : 0 < (ofRat q).repr) : q ≤ 2 * (ofRat q).repr := by
  set d := (ofRat q).repr with hd
  by_contra hlt
  rw [not_le] at hlt
  have hround : binary64.round d = binary64.round q := round_shortest (ofRat q).rounded
  -- twice the printed decimal would have the same double
  have hdouble : binary64.round (2 * d) = binary64.round q :=
    binary64.round_eq_of_between (by linarith) hlt.le hround rfl
  have hgrid : (10 : ℚ) ^ (-8 : ℤ) ≤ d := hq.le_of_pos (by positivity) hpos
  have h1 := abs_le.1 (abs_sub_roundTo_le (binary64.ulp_pos d) d)
  have h2 := abs_le.1 (abs_sub_roundTo_le (binary64.ulp_pos (2 * d)) (2 * d))
  have h3 := ulp_le_quarter hgrid
  have h4 := ulp_le_quarter (x := 2 * d) (by linarith)
  change -_ ≤ d - binary64.round d ∧ d - binary64.round d ≤ _ at h1
  change -_ ≤ 2 * d - binary64.round (2 * d) ∧ 2 * d - binary64.round (2 * d) ≤ _ at h2
  rw [hround] at h1
  rw [hdouble] at h2
  linarith [h1.1, h2.2]

end Binary64
end Numeric
end TradingSystem
