import TradingSystem.Types.DecimalContext
import TradingSystem.Types.Position

/-!
# Positions in a decimal context

The constructor of a position and its mutations with every operation rounded to a decimal context
and every quantized value checked against its digits. A mutation writes its fields one after the
other, so a value that does not fit is raised on with the fields before it written.

* `postInitIn`, `updatePriceIn`, `addQuantityIn`, `reduceQuantityIn` — the class in a context.
* `updatePrice_eq`, `addQuantity_eq`, `reduceQuantity_eq` — the mutations of the books are those
  without a limit.
-/

namespace TradingSystem
namespace Position

open Logic

variable (context : DecimalContext)

/-- `_validate_total_cost`. -/
def validateTotalCostIn (position : Position) : Except Fault Unit :=
  require (|context.round (position.totalCost -
      context.round (position.quantity * position.averagePrice))| ≤ totalCostTolerance)
    (.valueError "total_cost must equal quantity * average_price within 0.01")

/-- `__post_init__`: quantize every decimal, then check. -/
def postInitIn (position : Position) : Except Fault Position := do
  let quantity ← context.quantize position.quantity
  let averagePrice ← context.quantize position.averagePrice
  let totalCost ← context.quantize position.totalCost
  let currentPrice ← context.quantize position.currentPrice
  let unrealizedPnl ← context.quantize position.unrealizedPnl
  let margin ← context.quantize position.margin
  let entryPrice ← context.quantize position.entryPrice
  let markPrice ← context.quantize position.markPrice
  let liquidationPrice ← context.quantize position.liquidationPrice
  let fundingFeeTotal ← context.quantize position.fundingFeeTotal
  let position := { position with
    quantity := quantity
    averagePrice := averagePrice
    totalCost := totalCost
    currentPrice := currentPrice
    unrealizedPnl := unrealizedPnl
    margin := margin
    entryPrice := entryPrice
    markPrice := markPrice
    liquidationPrice := liquidationPrice
    fundingFeeTotal := fundingFeeTotal }
  require (0 ≤ position.quantity) (.valueError "quantity must be non-negative")
  require (0 < position.leverage) (.valueError "leverage must be positive")
  require (0 ≤ position.margin) (.valueError "margin must be non-negative")
  position.validateTotalCostIn context
  return position

/-- `_validate_total_cost` on the position being mutated. -/
def checkTotalCostIn : Program Fault Position PUnit := do
  let position ← get
  runPure (position.validateTotalCostIn context)

/-- The profit of the position at a price: by the entry price for futures, by the cost for
spot. -/
def profitAt (position : Position) (price : Decimal) : Except Fault Decimal :=
  match position.marketType with
  | .futures =>
    let priceDelta := context.round (price - position.entryPrice)
    context.quantize (context.round
      ((if position.side = .short then -priceDelta else priceDelta) * position.quantity))
  | .spot =>
    context.quantize
      (context.round (context.round (position.quantity * price) - position.totalCost))

/-- `update_price`: the prices are written before the profit is computed. -/
def updatePriceIn (price : Decimal) : Program Fault Position PUnit := do
  let normalizedPrice ← runPure (context.quantize price)
  raiseUnless (0 < normalizedPrice) (.valueError "mark price must be positive")
  modify fun position => { position with
    currentPrice := normalizedPrice
    markPrice := normalizedPrice }
  let position ← get
  let profit ← runPure (position.profitAt context normalizedPrice)
  modify fun position => { position with unrealizedPnl := profit }
  checkTotalCostIn context

/-- `add_quantity`: quantity and cost are written before the average is computed. -/
def addQuantityIn (quantity price : Decimal) : Program Fault Position PUnit := do
  let normalizedQuantity ← runPure (context.quantize quantity)
  let normalizedPrice ← runPure (context.quantize price)
  raiseUnless (0 < normalizedQuantity) (.valueError "added quantity must be positive")
  raiseUnless (0 < normalizedPrice) (.valueError "entry price must be positive")
  let position ← get
  let newQuantity ← runPure
    (context.quantize (context.round (position.quantity + normalizedQuantity)))
  let newTotalCost ← runPure (context.quantize
    (context.round (position.totalCost + context.round (normalizedQuantity * normalizedPrice))))
  modify fun position => { position with quantity := newQuantity, totalCost := newTotalCost }
  let averagePrice ← runPure (context.quantize (context.round (newTotalCost / newQuantity)))
  modify fun position => { position with averagePrice := averagePrice, entryPrice := averagePrice }
  checkTotalCostIn context

/-- `reduce_quantity`: returns the proportional released margin. -/
def reduceQuantityIn (quantity : Decimal) : Program Fault Position Decimal := do
  let normalizedQuantity ← runPure (context.quantize quantity)
  let position ← get
  raiseUnless (0 < normalizedQuantity) (.valueError "reduced quantity must be positive")
  raiseUnless (normalizedQuantity ≤ position.quantity)
    (.valueError "cannot reduce more than the position quantity")
  let releasedMargin ← runPure (context.quantize (context.round
    (context.round (position.margin * normalizedQuantity) / position.quantity)))
  let newQuantity ← runPure
    (context.quantize (context.round (position.quantity - normalizedQuantity)))
  modify fun position => { position with quantity := newQuantity }
  let totalCost ← runPure (context.quantize (context.round (newQuantity * position.averagePrice)))
  modify fun position => { position with totalCost := totalCost }
  let margin ← runPure (context.quantize (context.round (position.margin - releasedMargin)))
  modify fun position => clearedWhenFlat { position with margin := margin }
  checkTotalCostIn context
  return releasedMargin

/-! ### The mutations of the books -/

theorem postInit_eq (position : Position) : position.postInit = position.postInitIn exactContext :=
  rfl

theorem profitAt_exactContext (position : Position) (price : Decimal) :
    position.profitAt exactContext price = .ok (match position.marketType with
      | .futures => quantizeAmount (position.priceDelta price * position.quantity)
      | .spot => quantizeAmount (position.quantity * price - position.totalCost)) := by
  unfold profitAt
  cases position.marketType <;> rfl

theorem updatePrice_eq (price : Decimal) :
    updatePrice price = updatePriceIn exactContext price := by
  funext position
  unfold updatePrice updatePriceIn
  simp only [DecimalContext.quantize_exactContext, runPure_ok_bind, profitAt_exactContext]
  by_cases hprice : 0 < quantizePrice price
  · rw [raiseUnless_bind_apply hprice]
    refine Eq.trans ?_ (raiseUnless_bind_apply hprice).symm
    rfl
  · rw [raiseUnless_bind_apply_of_not hprice]
    refine Eq.trans ?_ (raiseUnless_bind_apply_of_not hprice).symm
    rfl

theorem addQuantity_eq (quantity price : Decimal) :
    addQuantity quantity price = addQuantityIn exactContext quantity price := rfl

theorem reduceQuantity_eq (quantity : Decimal) :
    reduceQuantity quantity = reduceQuantityIn exactContext quantity := by
  funext position
  unfold reduceQuantity reduceQuantityIn
  simp only [DecimalContext.quantize_exactContext, runPure_ok_bind, get_bind_apply]
  by_cases hpos : 0 < quantizeAmount quantity
  · rw [raiseUnless_bind_apply hpos, raiseUnless_bind_apply hpos]
    by_cases hle : quantizeAmount quantity ≤ position.quantity
    · rw [raiseUnless_bind_apply hle, raiseUnless_bind_apply hle]
      rfl
    · rw [raiseUnless_bind_apply_of_not hle, raiseUnless_bind_apply_of_not hle]
  · rw [raiseUnless_bind_apply_of_not hpos, raiseUnless_bind_apply_of_not hpos]

end Position
end TradingSystem
