import TradingSystem.Costs.CostModel
import TradingSystem.Costs.Liquidation
import Mathlib.Data.List.MinMax
import Mathlib.Data.List.Sort

/-!
# The order matcher

Deterministic matching of one order against the next bar, and the resolution of
stops, targets and liquidations inside a bar.

An order's fill price depends on its quantity (slippage is a rounded amount per
fill), and its quantity on its price (risk and cash caps), so `matchOrder`
iterates the pair at most 32 times to a fixpoint: `truncateQuantity`. The cash
cap is found by binary search over units of `10^(-8)`: `affordableUnits`.

`matchOrder` and `fillOrder` mutate the order, so they are programs over it; the
remaining functions are pure and may fail.
-/

namespace TradingSystem

open Logic

/-- When an order executes relative to its decision candle. -/
inductive FillTiming
  | immediate | nextBar
deriving DecidableEq, Repr

namespace Matcher

/-- `min(candidates, key=lambda candidate: candidate.open_time)`. The order of the integers
is named, so that the function runs under any imports. -/
def earliest (candles : List Candle) : Option Candle :=
  @List.argmin _ _ Int.instLinearOrder.toPreorder Int.decLt Candle.openTime candles

theorem earliest_eq_some {candles : List Candle} {candle : Candle}
    (h : earliest candles = some candle) :
    candle ∈ candles ∧ ∀ other ∈ candles, candle.openTime ≤ other.openTime :=
  ⟨List.argmin_mem h, fun _ hother =>
    @List.le_of_mem_argmin _ _ Int.instLinearOrder _ _ _ _ hother h⟩

/-- The candle, reference price and time of an execution. The next bar is the
earliest candle of the history that opens at or after the decision's close. -/
def executionCandle (candle : Candle) (history : List Candle) (fillTiming : FillTiming) :
    Except Fault (Candle × Decimal × ℤ) :=
  match fillTiming with
  | .immediate => .ok (candle, toDecimal candle.close, candle.closeTime)
  | .nextBar =>
    let candidates := history.filter fun candidate => candle.closeTime ≤ candidate.openTime
    match earliest candidates with
    | none => .error (.valueError "next_bar matching requires a candle after the decision candle")
    | some nextCandle =>
      .ok (nextCandle, toDecimal nextCandle.open,
        max nextCandle.openTime (candle.closeTime + Instant.millisecond))

/-- The reference price of an order in a candle and whether the bar gapped
through it; `none` if the order does not trigger. -/
def triggerReference (order : Order) (candle : Candle) :
    Except Fault (Option (Decimal × Bool)) :=
  let openPrice := toDecimal candle.open
  let high := toDecimal candle.high
  let low := toDecimal candle.low
  match order.orderType with
  | .market => .ok (some (openPrice, false))
  | .limit =>
    match order.price with
    | none => .error (.valueError "limit order requires price")
    | some price =>
      match order.side with
      | .buy =>
        if low ≤ price then .ok (some (min openPrice price, decide (openPrice < price)))
        else .ok none
      | .sell =>
        if price ≤ high then .ok (some (max openPrice price, decide (price < openPrice)))
        else .ok none
  | .stopMarket =>
    match order.stopPrice with
    | none => .error (.valueError "trigger order requires stop_price")
    | some stopPrice =>
      match order.side with
      | .buy =>
        if stopPrice ≤ high then
          .ok (some (max openPrice stopPrice, decide (stopPrice < openPrice)))
        else .ok none
      | .sell =>
        if low ≤ stopPrice then
          .ok (some (min openPrice stopPrice, decide (openPrice < stopPrice)))
        else .ok none
  | .takeProfitMarket =>
    match order.stopPrice with
    | none => .error (.valueError "trigger order requires stop_price")
    | some stopPrice =>
      match order.side with
      | .buy => if low ≤ stopPrice then .ok (some (min openPrice stopPrice, false)) else .ok none
      | .sell => if stopPrice ≤ high then .ok (some (max openPrice stopPrice, false)) else .ok none
  | .trailingStopMarket =>
    if order.stopPrice = none then .error (.valueError "trigger order requires stop_price")
    else .error (.notImplementedError "trailing-stop matching is reserved")

/-! ### Prices and fills -/

/-- An execution price and the signed slippage amount it contains. -/
structure ExecutionPrice where
  price : Decimal
  signedSlippage : Decimal
deriving DecidableEq

/-- The price an order of the given quantity executes at: the slippage amount is
computed and rounded per fill, then spread over the quantity. -/
def executionPrice (order : Order) (referencePrice quantity : Decimal)
    (costModel : BacktestCostModel) (gapFilled : Bool) : Except Fault ExecutionPrice := do
  let pricedOrder ←
    { order with quantity := quantizeAmount (order.filledQuantity + quantity) }.postInit
  let referenceNotional := quantizeAmount (referencePrice * quantity)
  let signedSlippage ← applySlippage referenceNotional order.side costModel pricedOrder gapFilled
  let actualPrice := quantizePrice (referencePrice + signedSlippage / quantity)
  require (0 < actualPrice) (.valueError "slippage produced a non-positive execution price")
  return { price := actualPrice, signedSlippage := signedSlippage }

/-- `_fill`: execute an order completely and report the fill. -/
def fillOrder (referencePrice quantity : Decimal) (timestamp : ℤ) (costModel : BacktestCostModel)
    (gapFilled qtyTruncated : Bool) (exitReason : Option ExitReason) :
    Program Fault Order Fill := do
  let order ← get
  let actual ← runPure (executionPrice order referencePrice quantity costModel gapFilled)
  let rate ← runPure (costModel.fee order.symbol)
  let fee ← runPure (feeCalc (quantizeAmount (actual.price * quantity)) rate)
  let cumulativeQuantity := quantizeAmount (order.filledQuantity + quantity)
  let previousNotional :=
    match order.averageFilledPrice with
    | none => 0
    | some average => average * order.filledQuantity
  let cumulativeAverage :=
    quantizePrice ((previousNotional + actual.price * quantity) / cumulativeQuantity)
  Order.markAsFilled order.quantity cumulativeAverage
  modify fun order => { order with fee := quantizeAmount (order.fee + fee) }
  runPure (Fill.create order.id order.symbol order.side order.positionSide referencePrice
    actual.price quantity fee |actual.signedSlippage| timestamp order.isExit exitReason gapFilled
    qtyTruncated)

/-! ### Quantity caps -/

/-- Entry margin plus the entry fee and an exit fee of the same size. -/
def entryCashRequirement (order : Order) (fillPrice quantity : Decimal)
    (costModel : BacktestCostModel) (leverage : ℕ) : Except Fault Decimal := do
  let notional := quantizeAmount (fillPrice * quantity)
  let margin := quantizeAmount (notional / leverage)
  let feeRate ← costModel.fee order.symbol
  let entryFee ← feeCalc notional feeRate
  let liquidationExitFee ← feeCalc notional feeRate
  return quantizeAmount (margin + entryFee + liquidationExitFee)

/-- `_entry_cash_requirement` in a decimal context. -/
def entryCashRequirementIn (context : DecimalContext) (order : Order)
    (fillPrice quantity : Decimal) (costModel : BacktestCostModel) (leverage : ℕ) :
    Except Fault Decimal := do
  let notional ← context.quantize (context.round (fillPrice * quantity))
  let margin ← context.quantize (context.round (notional / leverage))
  let feeRate ← costModel.fee order.symbol
  let entryFee ← feeCalcIn context notional feeRate
  let liquidationExitFee ← feeCalcIn context notional feeRate
  context.quantize (context.round (context.round (margin + entryFee) + liquidationExitFee))

/-- One round of the binary search for the largest affordable number of units,
`fuel` rounds at most. -/
def affordableUnits (affordable : ℤ → Except Fault Bool) :
    ℕ → ℤ → ℤ → ℤ → Except Fault ℤ
  | 0, _, _, best => .ok best
  | fuel + 1, low, high, best =>
    if low ≤ high then do
      let middle := (low + high) / 2
      if ← affordable middle then affordableUnits affordable fuel (middle + 1) high middle
      else affordableUnits affordable fuel low (middle - 1) best
    else .ok best

/-- The largest eight-decimal quantity up to `maximum` whose cash requirement
fits. The search interval halves every round, so one round more than the binary
length of its upper end exhausts it. -/
def affordableEntryQuantity (order : Order) (fillPrice maximum availableMargin : Decimal)
    (costModel : BacktestCostModel) (leverage : ℕ) : Except Fault Decimal := do
  let upperUnits := ⌊truncateAmount maximum / qAmount⌋
  let affordable (units : ℤ) : Except Fault Bool :=
    if units = 0 then .ok (decide (0 ≤ availableMargin))
    else do
      let requirement ← entryCashRequirement order fillPrice (qAmount * units) costModel leverage
      return decide (requirement ≤ availableMargin)
  let units ← affordableUnits affordable (upperUnits.toNat.log2 + 2) 0 upperUnits 0
  return qAmount * units

/-- `_affordable_entry_quantity` in a decimal context. -/
def affordableEntryQuantityIn (context : DecimalContext) (order : Order)
    (fillPrice maximum availableMargin : Decimal) (costModel : BacktestCostModel)
    (leverage : ℕ) : Except Fault Decimal := do
  let truncated ← context.truncate maximum
  let upperUnits := ⌊truncated / qAmount⌋
  let affordable (units : ℤ) : Except Fault Bool :=
    if units = 0 then .ok (decide (0 ≤ availableMargin))
    else do
      let requirement ←
        entryCashRequirementIn context order fillPrice (qAmount * units) costModel leverage
      return decide (requirement ≤ availableMargin)
  let units ← affordableUnits affordable (upperUnits.toNat.log2 + 2) 0 upperUnits 0
  return qAmount * units

/-- The search of the matcher is the one without a limit on the digits. -/
theorem affordableEntryQuantity_eq (order : Order) (fillPrice maximum availableMargin : Decimal)
    (costModel : BacktestCostModel) (leverage : ℕ) :
    affordableEntryQuantity order fillPrice maximum availableMargin costModel leverage =
      affordableEntryQuantityIn exactContext order fillPrice maximum availableMargin costModel
        leverage := rfl

/-- The order's reference price: `order.price or fill_price`, where a zero price
counts as absent. -/
def referenceOf (order : Order) (fillPrice : Decimal) : Decimal :=
  match order.price with
  | some price => if price = 0 then fillPrice else price
  | none => fillPrice

/-- The distance of the initial stop and the stop re-anchored to the fill. -/
def reanchoredStop (order : Order) (fillPrice : Decimal) :
    Except Fault (Option (Decimal × Decimal)) :=
  match order.stopPrice with
  | none => .ok none
  | some stopPrice => do
    let stopDistance := |referenceOf order fillPrice - stopPrice|
    require (stopDistance ≠ 0) (.valueError "initial stop distance must be positive")
    match order.positionSide with
    | .long => return some (stopDistance, quantizePrice (fillPrice - stopDistance))
    | .short => return some (stopDistance, quantizePrice (fillPrice + stopDistance))
    | .both => throw (.valueError "entry direction is ambiguous for PositionSide.BOTH")

/-- The cap of the risk budget. -/
def riskCapped (quantity : Decimal) (riskBudget stopDistance : Option Decimal) :
    Except Fault Decimal :=
  match riskBudget with
  | none => .ok quantity
  | some riskBudget => do
    require (0 < riskBudget) (.valueError "risk_budget must be a positive Decimal")
    match stopDistance with
    | none => throw (.valueError "risk truncation requires an initial stop")
    | some stopDistance => return min quantity (quantizeAmount (riskBudget / stopDistance))

/-- The cap of the available cash. -/
def marginCapped (order : Order) (fillPrice quantity : Decimal) (availableMargin : Option Decimal)
    (costModel : BacktestCostModel) (leverage : ℕ) : Except Fault Decimal :=
  match availableMargin with
  | none => .ok quantity
  | some availableMargin => do
    require (0 ≤ availableMargin) (.valueError "available_margin must be a non-negative Decimal")
    let marginQuantity ←
      affordableEntryQuantity order fillPrice quantity availableMargin costModel leverage
    return min quantity marginQuantity

/-- The limits of one match: risk budget, cash and leverage. -/
structure MatchLimits where
  riskBudget : Option Decimal
  availableMargin : Option Decimal
  leverage : ℕ
deriving DecidableEq

/-- Re-anchor the initial risk to the fill price and cap the quantity by risk and
cash. -/
def recomputeQtyAndStop (order : Order) (fillPrice : Decimal) (limits : MatchLimits)
    (costModel : BacktestCostModel) : Except Fault (Decimal × Option Decimal) := do
  require (0 < fillPrice) (.valueError "fill_price must be a positive Decimal")
  require (0 < limits.leverage) (.valueError "leverage must be a positive int")
  let anchored ← reanchoredStop order fillPrice
  let quantity ← riskCapped order.remainingQuantity limits.riskBudget (anchored.map Prod.fst)
  let quantity ←
    marginCapped order fillPrice quantity limits.availableMargin costModel limits.leverage
  return (quantizeAmount quantity, anchored.map Prod.snd)

/-- One pass of the truncation loop: the quantity the caps leave at the price the
current quantity would execute at. -/
def recomputedAt (order : Order) (referencePrice quantity : Decimal) (gapFilled : Bool)
    (limits : MatchLimits) (costModel : BacktestCostModel) :
    Except Fault (Decimal × Option Decimal) := do
  let preview ← executionPrice order referencePrice quantity costModel gapFilled
  let recomputed ← recomputeQtyAndStop order preview.price limits costModel
  return (min quantity recomputed.1, recomputed.2)

/-- The bounded fixpoint loop over quantity and execution price. -/
def truncateQuantity (order : Order) (referencePrice : Decimal) (gapFilled : Bool)
    (limits : MatchLimits) (costModel : BacktestCostModel) :
    ℕ → Decimal → Except Fault (Decimal × Option Decimal)
  | 0, _ => .error (.runtimeError "fee-aware quantity truncation did not converge")
  | rounds + 1, quantity => do
    let recomputed ← recomputedAt order referencePrice quantity gapFilled limits costModel
    if recomputed.1 = quantity then return recomputed
    else truncateQuantity order referencePrice gapFilled limits costModel rounds recomputed.1

/-- The iteration limit of the truncation loop. -/
def truncationRounds : ℕ := 32

/-- The check that a truncated entry still fits the cash it was truncated to. -/
def checkAffordable (order : Order) (referencePrice quantity : Decimal) (gapFilled : Bool)
    (entryMargin : Option Decimal) (costModel : BacktestCostModel) (leverage : ℕ) :
    Except Fault Unit :=
  match entryMargin with
  | none => .ok ()
  | some entryMargin => do
    let final ← executionPrice order referencePrice quantity costModel gapFilled
    let requirement ← entryCashRequirement order final.price quantity costModel leverage
    require (requirement ≤ entryMargin)
      (.runtimeError "truncated entry still exceeds available cash")

/-- Match one order at its execution candle. -/
def matchOrder (candle : Candle) (history : List Candle) (costModel : BacktestCostModel)
    (fillTiming : FillTiming) (limits : MatchLimits) : Program Fault Order Fill := do
  let order ← get
  raiseUnless (order.status.isTerminal = false) (.valueError "terminal orders cannot be matched")
  let execution ← runPure (executionCandle candle history fillTiming)
  let triggered ← runPure (triggerReference order execution.1)
  match triggered with
  | none => throw (.valueError "order did not trigger in the execution candle")
  | some (reference, gapFilled) => do
    let referencePrice := if order.orderType = .market then execution.2.1 else reference
    let remaining := order.remainingQuantity
    let entryMargin := if order.isExit then none else limits.availableMargin
    let truncated ← runPure (truncateQuantity order referencePrice gapFilled
      { limits with availableMargin := entryMargin } costModel truncationRounds remaining)
    let quantity := truncated.1
    raiseUnless (0 < quantity)
      (.valueError "available risk or margin truncates the order to zero")
    modify fun order => { order with
      quantity :=
        if quantity < remaining then quantizeAmount (order.filledQuantity + quantity)
        else order.quantity
      stopPrice := truncated.2.orElse fun _ => order.stopPrice }
    let order ← get
    runPure (checkAffordable order referencePrice quantity gapFilled entryMargin costModel
      limits.leverage)
    fillOrder referencePrice quantity execution.2.2 costModel gapFilled
      (decide (quantity < remaining)) none

/-! ### Protective exits -/

/-- The reference price of a protective exit and whether the bar gapped through
its level. A stop fills at a worse open, a target at a better one, a liquidation
always at its level. -/
def protectionReference (side : PositionSide) (candle : Candle) (level : Decimal)
    (reason : ExitReason) : Decimal × Bool :=
  let openPrice := toDecimal candle.open
  match reason, side with
  | .liquidation, .long => (level, decide (openPrice < level))
  | .liquidation, _ => (level, decide (level < openPrice))
  | .takeProfit, .long => (max level openPrice, decide (level < openPrice))
  | .takeProfit, _ => (min level openPrice, decide (openPrice < level))
  | _, .long => (min level openPrice, decide (openPrice < level))
  | _, _ => (max level openPrice, decide (level < openPrice))

/-- The market order that closes a position completely. -/
def syntheticExitOrder (position : Position) (timestamp : ℤ) (reason : ExitReason) :
    Except Fault Order :=
  { id := .synthetic position.symbol timestamp reason
    orderType := .market
    side := if position.side = .long then .sell else .buy
    symbol := position.symbol
    quantity := position.quantity
    price := none
    filledQuantity := quantizeAmount 0
    averageFilledPrice := none
    status := .new
    fee := quantizeAmount 0
    marketType := position.marketType
    positionSide := position.side
    reduceOnly := true
    closePosition := false
    stopPrice := none : Order }.postInit

/-- The fill of a synthetic exit; its order is discarded. -/
def fillSynthetic (position : Position) (orderTime : ℤ) (reason : ExitReason)
    (referencePrice : Decimal) (timestamp : ℤ) (costModel : BacktestCostModel) (gapFilled : Bool) :
    Except Fault Fill := do
  let order ← syntheticExitOrder position orderTime reason
  match fillOrder referencePrice position.quantity timestamp costModel gapFilled false
      (some reason) order with
  | .ok fill _ => return fill
  | .error fault _ => throw fault

/-- The liquidation level in force: the stored price, or the price from the
leverage when funding has pushed the stored one to zero. -/
def liquidationLevel (position : Position) (costModel : BacktestCostModel) :
    Except Fault Decimal :=
  if position.liquidationPrice ≤ 0 then do
    let level ← liquidationPrice position.entryPrice position.leverage
      costModel.maintenanceMarginRate position.side
    let _ ← { position with liquidationPrice := level }.postInit
    return level
  else .ok position.liquidationPrice

/-- The protection levels active for a position. -/
structure Protection where
  stopPrice : Option Decimal
  takeProfitPrice : Option Decimal
deriving DecidableEq

/-- Whether the bar reaches the stop. -/
def stopHit (side : PositionSide) (candle : Candle) (stopPrice : Decimal) : Bool :=
  if side = .long then decide (toDecimal candle.low ≤ stopPrice)
  else decide (stopPrice ≤ toDecimal candle.high)

/-- Whether the bar reaches the target. -/
def takeHit (side : PositionSide) (candle : Candle) (takeProfitPrice : Decimal) : Bool :=
  if side = .long then decide (takeProfitPrice ≤ toDecimal candle.high)
  else decide (toDecimal candle.low ≤ takeProfitPrice)

/-- Whether the stop lies beyond the liquidation level. -/
def invalidStop (side : PositionSide) (level stopPrice : Decimal) : Bool :=
  if side = .long then decide (stopPrice < level) else decide (level < stopPrice)

/-- The price of the bar that is worst for a position. -/
def adverseExtreme (side : PositionSide) (candle : Candle) : Decimal :=
  if side = .long then toDecimal candle.low else toDecimal candle.high

/-- The exit one bar triggers, by conservative precedence: a stop unless it lies
beyond a liquidation level that is also reached, then liquidation, then the
target. -/
def triggerOf (side : PositionSide) (candle : Candle) (protection : Protection)
    (level : Decimal) (liquidationHit : Bool) : Option (ExitReason × Decimal) :=
  let hitStop := protection.stopPrice.filter (stopHit side candle)
  let hitTake := protection.takeProfitPrice.filter (takeHit side candle)
  match hitStop with
  | some stopPrice =>
    if liquidationHit && invalidStop side level stopPrice then some (.liquidation, level)
    else some (.stopLoss, stopPrice)
  | none =>
    if liquidationHit then some (.liquidation, level)
    else hitTake.map fun takeProfitPrice => (.takeProfit, takeProfitPrice)

/-- The exit of a position inside one bar. -/
def resolveCandle (position : Position) (candle : Candle) (costModel : BacktestCostModel)
    (protection : Protection) : Except Fault (Option Fill) := do
  let level ← liquidationLevel position costModel
  let liquidationHit ←
    liquidationTriggered position.side level (adverseExtreme position.side candle)
  match triggerOf position.side candle protection level liquidationHit with
  | none => return none
  | some (reason, triggerLevel) => do
    let reference := protectionReference position.side candle triggerLevel reason
    let fill ← fillSynthetic position candle.openTime reason reference.1 candle.closeTime
      costModel reference.2
    return some fill

/-- The first exit along bars in increasing order, skipping those that do not
open after the entry. -/
def resolveSorted (position : Position) (costModel : BacktestCostModel) (protection : Protection)
    (entryTime : Option ℤ) : List Candle → Except Fault (Option Fill)
  | [] => .ok none
  | candle :: rest =>
    if ∃ entry ∈ entryTime, candle.openTime ≤ entry then
      resolveSorted position costModel protection entryTime rest
    else do
      match ← resolveCandle position candle costModel protection with
      | some fill => return some fill
      | none => resolveSorted position costModel protection entryTime rest

/-- `resolve_triggers`: resolve stop, target and liquidation over some bars. -/
def resolveTriggers (position : Position) (candles : List Candle) (costModel : BacktestCostModel)
    (protection : Protection) (entryTime : Option ℤ) : Except Fault (Option Fill) := do
  require (position.side ≠ .both)
    (.valueError "trigger direction is ambiguous for PositionSide.BOTH")
  resolveSorted position costModel protection entryTime
    (candles.insertionSort fun left right => left.openTime ≤ right.openTime)

/-- `liquidation_fill`: the forced exit after funding has exhausted the margin. -/
def liquidationFill (position : Position) (referencePrice : Decimal) (timestamp : ℤ)
    (costModel : BacktestCostModel) : Except Fault Fill := do
  require (0 < referencePrice)
    (.valueError "liquidation reference_price must be a positive Decimal")
  fillSynthetic position timestamp .liquidation referencePrice timestamp costModel false

end Matcher
end TradingSystem
