import TradingSystem.Execution.Matcher

/-!
# Normalization and the simulated broker

`normalizeOrder` turns a float request into a decimal order; every decimal goes
through the one float gateway `toDecimal`. The broker numbers requests and hands
them to the matcher. Orders that failed to match stay inspectable in the source;
nothing in a run reads them, so the broker's state here is its order counter.
-/

namespace TradingSystem

open Logic

/-- Normalize a float request into a fresh order. -/
def normalizeOrder (request : OrderRequest) (orderId : OrderId) : Except Fault Order :=
  { id := orderId
    orderType := request.orderType
    side := request.side
    symbol := request.symbol
    quantity := toDecimal request.quantity
    price := request.price.map toDecimal
    filledQuantity := quantizeAmount 0
    averageFilledPrice := none
    status := .new
    fee := quantizeAmount 0
    marketType := request.marketType
    positionSide := request.positionSide
    reduceOnly := request.reduceOnly
    closePosition := request.closePosition
    stopPrice := request.stopPrice.map toDecimal : Order }.postInit

/-- The context of one submission: `configure_execution`. -/
structure ExecutionContext where
  decisionCandle : Candle
  history : List Candle
  limits : Matcher.MatchLimits

/-- Normalize and match one request: the body of `submit` for a known order
number. -/
def submitOrder (costModel : BacktestCostModel) (context : ExecutionContext)
    (request : OrderRequest) (sequence : ℕ) : Except Fault Fill := do
  require (context.decisionCandle ∈ context.history)
    (.valueError "history must contain the decision candle")
  let order ← normalizeOrder request (.broker sequence)
  match Matcher.matchOrder context.decisionCandle context.history costModel .nextBar
      context.limits order with
  | .ok fill _ => return fill
  | .error fault _ => throw fault

end TradingSystem
