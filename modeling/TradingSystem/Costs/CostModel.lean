import TradingSystem.Types.DecimalContext
import TradingSystem.Types.Order

/-!
# Fees, slippage and the backtest cost model

The fee and slippage formulas and the run-specific values they are applied to.
A `BacktestCostModel` carries the checks of its constructor, so every cost rate
is nonnegative and the gap multiplier at least one; `create` builds one from a
partial set of overrides.
-/

namespace TradingSystem

open Logic

/-- `fee.calc`: the fee of a notional at a rate. -/
def feeCalc (notional rate : Decimal) : Except Fault Decimal := do
  require (0 ≤ notional) (.valueError "notional must be non-negative")
  require (0 ≤ rate) (.valueError "fee rate must be non-negative")
  return quantizeAmount (notional * rate)

/-- `fee.calc` in a decimal context. -/
def feeCalcIn (context : DecimalContext) (notional rate : Decimal) : Except Fault Decimal := do
  require (0 ≤ notional) (.valueError "notional must be non-negative")
  require (0 ≤ rate) (.valueError "fee rate must be non-negative")
  context.quantize (context.round (notional * rate))

/-! ### Slippage parameters -/

/-- The values consumed by the shared slippage formula. -/
structure SlippageParams where
  spreadRate : Decimal
  impactCoefficient : Decimal
  liquidity : Option Decimal
  fixedRate : Option Decimal
  gapMultiplier : Decimal

/-- The effective adverse rate for an order of the given quantity. -/
def effectiveRate (params : SlippageParams) (quantity : Decimal) (gapFilled : Bool) : Decimal :=
  let rate :=
    match params.fixedRate with
    | some fixedRate => fixedRate
    | none =>
      let impact :=
        match params.liquidity with
        | some liquidity => params.impactCoefficient * quantity / liquidity
        | none => 0
      params.spreadRate / 2 + impact
  if gapFilled then rate * params.gapMultiplier else rate

/-! ### The injected values -/

/-- Overrides of the default cost values, one for every key the source knows. -/
structure CostOverrides where
  futuresMakerFeeRate : Option Decimal := none
  futuresTakerFeeRate : Option Decimal := none
  spotTakerFeeRate : Option Decimal := none
  maintenanceMarginRate : Option Decimal := none
  fundingFallbackRate : Option Decimal := none
  futuresEntrySlippageRate : Option Decimal := none
  spotEntrySlippageRate : Option Decimal := none
  exitSlippageRate : Option Decimal := none
  spreadRate : Option Decimal := none
  impactCoefficient : Option Decimal := none
  gapMultiplier : Option Decimal := none
  positionSizePct : Option Decimal := none
  liquidity : Option Decimal := none

/-- The complete value set of one run. -/
structure CostValues where
  futuresMakerFeeRate : Decimal
  futuresTakerFeeRate : Decimal
  spotTakerFeeRate : Decimal
  maintenanceMarginRate : Decimal
  fundingFallbackRate : Decimal
  futuresEntrySlippageRate : Decimal
  spotEntrySlippageRate : Decimal
  exitSlippageRate : Decimal
  spreadRate : Decimal
  impactCoefficient : Decimal
  gapMultiplier : Decimal
  positionSizePct : Decimal
  liquidity : Option Decimal

/-- The overrides on top of `_DEFAULTS`. -/
def CostOverrides.values (overrides : CostOverrides) : CostValues where
  futuresMakerFeeRate := overrides.futuresMakerFeeRate.getD (2 / 10000)
  futuresTakerFeeRate := overrides.futuresTakerFeeRate.getD (5 / 10000)
  spotTakerFeeRate := overrides.spotTakerFeeRate.getD (5 / 10000)
  maintenanceMarginRate := overrides.maintenanceMarginRate.getD (4 / 1000)
  fundingFallbackRate := overrides.fundingFallbackRate.getD (1 / 10000)
  futuresEntrySlippageRate := overrides.futuresEntrySlippageRate.getD (5 / 10000)
  spotEntrySlippageRate := overrides.spotEntrySlippageRate.getD (1 / 1000)
  exitSlippageRate := overrides.exitSlippageRate.getD (1 / 10000)
  spreadRate := overrides.spreadRate.getD 0
  impactCoefficient := overrides.impactCoefficient.getD 0
  gapMultiplier := overrides.gapMultiplier.getD 2
  positionSizePct := overrides.positionSizePct.getD (20 / 100)
  liquidity := overrides.liquidity

/-- What `_validate` establishes. -/
structure CostValues.Valid (values : CostValues) : Prop where
  futuresMakerFeeRate_nonneg : 0 ≤ values.futuresMakerFeeRate
  futuresTakerFeeRate_nonneg : 0 ≤ values.futuresTakerFeeRate
  spotTakerFeeRate_nonneg : 0 ≤ values.spotTakerFeeRate
  maintenanceMarginRate_nonneg : 0 ≤ values.maintenanceMarginRate
  fundingFallbackRate_nonneg : 0 ≤ values.fundingFallbackRate
  futuresEntrySlippageRate_nonneg : 0 ≤ values.futuresEntrySlippageRate
  spotEntrySlippageRate_nonneg : 0 ≤ values.spotEntrySlippageRate
  exitSlippageRate_nonneg : 0 ≤ values.exitSlippageRate
  spreadRate_nonneg : 0 ≤ values.spreadRate
  impactCoefficient_nonneg : 0 ≤ values.impactCoefficient
  one_le_gapMultiplier : 1 ≤ values.gapMultiplier
  positionSizePct_pos : 0 < values.positionSizePct
  positionSizePct_le_one : values.positionSizePct ≤ 1
  liquidity_pos : ∀ value ∈ values.liquidity, 0 < value

/-- The check of one ordinary parameter. -/
def nonNegative (name : String) (value : Decimal) : Except Fault Unit :=
  require (0 ≤ value) (.valueError (name ++ " must be non-negative"))

/-- `_validate`, in the order of the parameter mapping. -/
def CostValues.validate (values : CostValues) : Except Fault Unit := do
  nonNegative "futures_maker_fee_rate" values.futuresMakerFeeRate
  nonNegative "futures_taker_fee_rate" values.futuresTakerFeeRate
  nonNegative "spot_taker_fee_rate" values.spotTakerFeeRate
  nonNegative "maintenance_margin_rate" values.maintenanceMarginRate
  nonNegative "funding_fallback_rate" values.fundingFallbackRate
  nonNegative "futures_entry_slippage_rate" values.futuresEntrySlippageRate
  nonNegative "spot_entry_slippage_rate" values.spotEntrySlippageRate
  nonNegative "exit_slippage_rate" values.exitSlippageRate
  nonNegative "spread_rate" values.spreadRate
  nonNegative "impact_coefficient" values.impactCoefficient
  require (1 ≤ values.gapMultiplier) (.valueError "gap_multiplier must be at least one")
  nonNegative "position_size_pct" values.positionSizePct
  require (∀ value ∈ values.liquidity, 0 < value) (.valueError "liquidity must be positive")
  require (0 < values.positionSizePct ∧ values.positionSizePct ≤ 1)
    (.valueError "position_size_pct must be in (0, 1]")

theorem CostValues.valid_of_validate {values : CostValues} (h : values.validate = .ok ()) :
    values.Valid := by
  unfold CostValues.validate nonNegative at h
  simp only [Except.bind_eq_ok, require_eq_ok] at h
  obtain ⟨-, h1, -, h2, -, h3, -, h4, -, h5, -, h6, -, h7, -, h8, -, h9, -, h10, -, hgap, -, -,
    -, hliquidity, hsize⟩ := h
  exact ⟨h1, h2, h3, h4, h5, h6, h7, h8, h9, h10, hgap, hsize.1, hsize.2, hliquidity⟩

/-- The cost model of one run. `useStandardSlippage` records whether an override
named one of the spread, impact or liquidity keys. -/
structure BacktestCostModel where
  params : CostValues
  marketType : MarketType
  useStandardSlippage : Bool
  valid : params.Valid

/-- The constructor. -/
def BacktestCostModel.create (overrides : CostOverrides) (marketType : MarketType) :
    Except Fault BacktestCostModel :=
  match h : overrides.values.validate with
  | .error fault => .error fault
  | .ok () => .ok {
      params := overrides.values
      marketType := marketType
      useStandardSlippage :=
        overrides.spreadRate.isSome || overrides.impactCoefficient.isSome ||
          overrides.liquidity.isSome
      valid := CostValues.valid_of_validate h }

namespace BacktestCostModel

/-- The cost model of the default values. -/
def standard (marketType : MarketType) : BacktestCostModel where
  params := ({} : CostOverrides).values
  marketType := marketType
  useStandardSlippage := false
  valid := CostValues.valid_of_validate (by decide +kernel)

variable (costModel : BacktestCostModel)

/-- The taker fee rate. -/
def feeRate : Decimal :=
  match costModel.marketType with
  | .spot => costModel.params.spotTakerFeeRate
  | .futures => costModel.params.futuresTakerFeeRate

/-- `CostModel.fee`: the taker fee rate for a symbol. -/
def fee (symbol : String) : Except Fault Decimal := do
  require (symbol ≠ "") (.valueError "symbol must not be empty")
  return costModel.feeRate

/-- The values supplied to the effective-rate formula for one order. -/
def slippageParams (isExit : Bool) (marketType : MarketType) : SlippageParams where
  spreadRate := costModel.params.spreadRate
  impactCoefficient := costModel.params.impactCoefficient
  liquidity := costModel.params.liquidity
  fixedRate :=
    if costModel.useStandardSlippage then none
    else if isExit then some costModel.params.exitSlippageRate
    else if marketType = .spot then some costModel.params.spotEntrySlippageRate
    else some costModel.params.futuresEntrySlippageRate
  gapMultiplier := costModel.params.gapMultiplier

/-- `CostModel.slippage`: the effective adverse rate of an order. -/
def slippage (order : Order) (gapFilled : Bool) : Decimal :=
  effectiveRate (costModel.slippageParams order.isExit order.marketType) order.quantity gapFilled

/-- The maintenance margin rate of `liq_params`. -/
def maintenanceMarginRate : Decimal := costModel.params.maintenanceMarginRate

/-- The configured fallback funding rate. -/
def fundingRate : Decimal := costModel.params.fundingFallbackRate

theorem feeRate_nonneg : 0 ≤ costModel.feeRate := by
  unfold feeRate
  cases costModel.marketType with
  | spot => exact costModel.valid.spotTakerFeeRate_nonneg
  | futures => exact costModel.valid.futuresTakerFeeRate_nonneg

theorem maintenanceMarginRate_nonneg : 0 ≤ costModel.maintenanceMarginRate :=
  costModel.valid.maintenanceMarginRate_nonneg

/-- **Every rate is adverse.** The effective slippage rate is never negative. -/
theorem slippage_nonneg {order : Order} (h : 0 ≤ order.quantity) (gapFilled : Bool) :
    0 ≤ costModel.slippage order gapFilled := by
  have hv := costModel.valid
  have hbase : 0 ≤ effectiveRate (costModel.slippageParams order.isExit order.marketType)
      order.quantity false := by
    unfold effectiveRate slippageParams
    simp only [Bool.false_eq_true, if_false]
    split_ifs
    · -- spread and impact
      simp only
      have hspread := hv.spreadRate_nonneg
      cases hliq : costModel.params.liquidity with
      | none => simp only; linarith
      | some liquidity =>
        have hpos := hv.liquidity_pos liquidity (by rw [hliq]; rfl)
        have himpact : 0 ≤ costModel.params.impactCoefficient * order.quantity / liquidity :=
          div_nonneg (mul_nonneg hv.impactCoefficient_nonneg h) hpos.le
        simp only
        linarith
    · exact hv.exitSlippageRate_nonneg
    · exact hv.spotEntrySlippageRate_nonneg
    · exact hv.futuresEntrySlippageRate_nonneg
  -- a gap multiplies the rate, by one or more
  unfold slippage
  cases gapFilled with
  | false => exact hbase
  | true =>
    refine mul_nonneg hbase ?_
    have := hv.one_le_gapMultiplier
    change (0 : Decimal) ≤ costModel.params.gapMultiplier
    linarith

end BacktestCostModel

/-- `slippage.apply`: the signed adverse slippage of a notional. -/
def applySlippage (notional : Decimal) (side : OrderSide) (costModel : BacktestCostModel)
    (order : Order) (gapFilled : Bool) : Except Fault Decimal := do
  require (0 ≤ notional) (.valueError "notional must be non-negative")
  let rate := costModel.slippage order gapFilled
  require (0 ≤ rate) (.valueError "slippage rate must be non-negative")
  let magnitude := quantizeAmount (notional * rate)
  return match side with
    | .buy => magnitude
    | .sell => -magnitude

end TradingSystem
