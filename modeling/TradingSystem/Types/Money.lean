import TradingSystem.Numeric.Binary64
import TradingSystem.Numeric.DecimalDigits

/-!
# Money values

Decimals are rationals. The rounding of most of the development is the explicit
half-even quantization to eight places that the source applies field by field.
A value that has been quantized satisfies `IsMoney`, membership in the grid of
`10^(-8)`.

The default context of the source also rounds each operation to 28 digits
(`contextRound`). Amounts that the tables hold are far below the limit at which
that shows; a quotient need not be, and where a result depends on the context the
functions of the source are modelled with it (`Types.DecimalContext`).

`toDecimal` is the one gateway from binary floats: print the float, read the
digits as a decimal, quantize.
-/

namespace TradingSystem

open Numeric

/-- A `Decimal` of the source. -/
abbrev Decimal := ℚ

/-- The quantum of amounts, `Q_AMOUNT`. -/
def qAmount : Decimal := 1 / 100000000

/-- The quantum of prices, `Q_PRICE`. -/
def qPrice : Decimal := 1 / 100000000

/-- The quantum of percentages, `Q_PERCENT`. -/
def qPercent : Decimal := 1 / 100

/-- Round a price to eight decimal places, half to even. -/
def quantizePrice (value : Decimal) : Decimal := roundTo qPrice value

/-- Round an amount to eight decimal places, half to even. -/
def quantizeAmount (value : Decimal) : Decimal := roundTo qAmount value

/-- Round a percentage to two decimal places, half to even. -/
def quantizePercent (value : Decimal) : Decimal := roundTo qPercent value

/-- Rounding to the 28 digits of the default decimal context. -/
def contextRound (value : Decimal) : Decimal := roundDigits 28 value

/-- The first amount that eight places and 28 digits do not hold. -/
def contextLimit : Decimal := 10 ^ 20

/-- A multiple of `10^(-8)`. -/
def IsMoney (value : Decimal) : Prop := OnGrid qAmount value

theorem qAmount_pos : 0 < qAmount := by norm_num [qAmount]

/-- Prices and amounts have the same quantum. -/
@[simp] theorem quantizePrice_eq (value : Decimal) :
    quantizePrice value = quantizeAmount value := rfl

theorem qAmount_eq_zpow : qAmount = (10 : ℚ) ^ (-8 : ℤ) := by
  norm_num [qAmount]

instance (value : Decimal) : Decidable (IsMoney value) :=
  decidable_of_iff (quantizeAmount value = value) (onGrid_iff_roundTo_eq qAmount_pos).symm

/-! ### Quantized values -/

@[simp] theorem isMoney_quantizeAmount (value : Decimal) : IsMoney (quantizeAmount value) :=
  onGrid_roundTo _ _

@[simp] theorem isMoney_zero : IsMoney 0 := OnGrid.zero

theorem isMoney_one : IsMoney 1 := ⟨100000000, by norm_num [qAmount]⟩

theorem IsMoney.add {x y : Decimal} (hx : IsMoney x) (hy : IsMoney y) : IsMoney (x + y) :=
  OnGrid.add hx hy

theorem IsMoney.sub {x y : Decimal} (hx : IsMoney x) (hy : IsMoney y) : IsMoney (x - y) :=
  OnGrid.sub hx hy

theorem IsMoney.neg {x : Decimal} (hx : IsMoney x) : IsMoney (-x) := OnGrid.neg hx

/-- Quantizing a money value changes nothing. -/
theorem IsMoney.quantizeAmount_eq {x : Decimal} (hx : IsMoney x) : quantizeAmount x = x :=
  roundTo_of_onGrid qAmount_pos hx

@[simp] theorem quantizeAmount_zero : quantizeAmount 0 = 0 := roundTo_zero _

@[simp] theorem quantizeAmount_quantizeAmount (x : Decimal) :
    quantizeAmount (quantizeAmount x) = quantizeAmount x :=
  (isMoney_quantizeAmount x).quantizeAmount_eq

theorem quantizeAmount_mono {x y : Decimal} (h : x ≤ y) : quantizeAmount x ≤ quantizeAmount y :=
  roundTo_mono qAmount_pos h

theorem quantizeAmount_nonneg {x : Decimal} (h : 0 ≤ x) : 0 ≤ quantizeAmount x :=
  roundTo_nonneg qAmount_pos h

/-- The quantization error is at most half a unit. -/
theorem abs_sub_quantizeAmount_le (x : Decimal) : |x - quantizeAmount x| ≤ qAmount / 2 :=
  abs_sub_roundTo_le qAmount_pos x

theorem quantizeAmount_pos_iff {x : Decimal} : 0 < quantizeAmount x ↔ qAmount / 2 < x :=
  roundTo_pos_iff qAmount_pos

theorem IsMoney.qAmount_le {x : Decimal} (hx : IsMoney x) (h : 0 < x) : qAmount ≤ x :=
  hx.le_of_pos qAmount_pos h

/-! ### The decimal context -/

theorem contextLimit_pos : 0 < contextLimit := by norm_num [contextLimit]

theorem isMoney_contextLimit : IsMoney contextLimit :=
  ⟨10 ^ 28, by norm_num [contextLimit, qAmount]⟩

theorem contextRound_nonneg {value : Decimal} (h : 0 ≤ value) : 0 ≤ contextRound value :=
  roundDigits_nonneg h

theorem contextRound_mono {x y : Decimal} (h : x ≤ y) : contextRound x ≤ contextRound y :=
  roundDigits_mono (by norm_num) h

@[simp] theorem contextRound_zero : contextRound 0 = 0 := roundDigits_zero

theorem contextRound_nonpos {value : Decimal} (h : value ≤ 0) : contextRound value ≤ 0 :=
  (contextRound_mono h).trans_eq contextRound_zero

/-- Amounts with eight places below the limit are not rounded. -/
theorem contextRound_of_isMoney {value : Decimal} (h : IsMoney value)
    (hlt : |value| < contextLimit) : contextRound value = value := by
  refine roundDigits_of_onGrid (e := -8) (qAmount_eq_zpow ▸ h) (hlt.trans_eq ?_)
  norm_num [contextLimit]

/-- The limit itself has one significant digit. -/
theorem contextRound_contextLimit : contextRound contextLimit = contextLimit := by
  refine roundDigits_of_onGrid (e := 20) ⟨1, by norm_num [contextLimit]⟩ ?_
  norm_num [contextLimit]

theorem contextRound_one : contextRound 1 = 1 :=
  contextRound_of_isMoney isMoney_one (by norm_num [contextLimit])

/-! ### The float gateway -/

/-- `Decimal(str(value))` followed by the shared quantizer (prices and amounts
have the same one). -/
def toDecimal (value : Binary64) : Decimal := quantizeAmount value.repr

/-- `float(value)` of a `Decimal`: correctly rounded. -/
def toFloat (value : Decimal) : Binary64 := Binary64.ofRat value

theorem toFloat_mono {x y : Decimal} (h : x ≤ y) : toFloat x ≤ toFloat y :=
  Binary64.le_def.2 (binary64.round_mono h)

theorem toFloat_nonneg {x : Decimal} (h : 0 ≤ x) : Binary64.zero ≤ toFloat x :=
  Binary64.le_def.2 (binary64.round_nonneg h)

/-- A positive money value has a positive float. -/
theorem toFloat_pos {quantity : Decimal} (h : IsMoney quantity) (hpos : 0 < quantity) :
    0 < (toFloat quantity).val := by
  have hunit : binary64.round qAmount ≤ (toFloat quantity).val :=
    binary64.round_mono (h.qAmount_le hpos)
  refine lt_of_lt_of_le ?_ hunit
  decide +kernel

@[simp] theorem isMoney_toDecimal (value : Binary64) : IsMoney (toDecimal value) :=
  isMoney_quantizeAmount _

theorem toDecimal_mono {x y : Binary64} (h : x ≤ y) : toDecimal x ≤ toDecimal y :=
  quantizeAmount_mono (Binary64.repr_mono h)

end TradingSystem
