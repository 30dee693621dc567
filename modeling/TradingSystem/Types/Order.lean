import TradingSystem.Types.Signal

/-!
# Orders and fills

`OrderRequest` is a float-valued intent, `Order` its decimal form with a
lifecycle, `Fill` an execution fact. `postInit` functions are the constructors'
normalizations and checks. An order is mutated in place, so its methods are
programs over the order; a `Fill` carries the outcome of its checks, since
positions and accounting consume it unchanged.
-/

namespace TradingSystem

open Numeric Logic

/-- A broker order number, or the canonical text of a protective exit (the
source hashes both into the order id). -/
inductive OrderId
  | broker (sequence : ℕ)
  | synthetic (symbol : String) (timestamp : ℤ) (reason : ExitReason)
deriving DecidableEq, Repr

/-- A float-valued order intent before normalization. -/
structure OrderRequest where
  symbol : String
  side : OrderSide
  orderType : OrderType
  quantity : Binary64
  price : Option Binary64
  stopPrice : Option Binary64
  marketType : MarketType
  positionSide : PositionSide
  reduceOnly : Bool
  closePosition : Bool
deriving DecidableEq

/-- The checks of a request's constructor. -/
def OrderRequest.postInit (request : OrderRequest) : Except Fault OrderRequest := do
  require (Binary64.zero < request.quantity) (.valueError "quantity must be positive")
  require (∀ value ∈ request.price, Binary64.zero < value)
    (.valueError "price must be positive")
  require (∀ value ∈ request.stopPrice, Binary64.zero < value)
    (.valueError "stop_price must be positive")
  require (¬(request.reduceOnly ∧ request.closePosition))
    (.valueError "reduce_only and close_position are mutually exclusive")
  return request

/-- An order and its lifecycle facts. -/
structure Order where
  id : OrderId
  orderType : OrderType
  side : OrderSide
  symbol : String
  quantity : Decimal
  price : Option Decimal
  filledQuantity : Decimal
  averageFilledPrice : Option Decimal
  status : OrderStatus
  fee : Decimal
  marketType : MarketType
  positionSide : PositionSide
  reduceOnly : Bool
  closePosition : Bool
  stopPrice : Option Decimal
deriving DecidableEq

namespace Order

/-- Whether the order may only shrink a position. -/
def isExit (order : Order) : Bool := order.reduceOnly || order.closePosition

/-- The agreement of status, filled quantity and average price. -/
def validateFillStatus (order : Order) : Except Fault Unit := do
  require (order.filledQuantity = 0 → order.averageFilledPrice = none)
    (.valueError "average_filled_price must be None when filled_quantity is zero")
  require (order.filledQuantity ≠ 0 → ∃ price ∈ order.averageFilledPrice, 0 < price)
    (.valueError "average_filled_price must be positive when filled_quantity is positive")
  require (order.status = .partiallyFilled →
      0 < order.filledQuantity ∧ order.filledQuantity < order.quantity)
    (.valueError "PARTIALLY_FILLED requires 0 < filled_quantity < quantity")
  require (order.status = .filled → order.filledQuantity = order.quantity)
    (.valueError "FILLED requires filled_quantity to equal quantity")
  require (order.status ≠ .filled → order.filledQuantity ≠ order.quantity)
    (.valueError "only FILLED may have the full quantity filled")
  require (order.status ∈ [OrderStatus.new, .expired, .rejected] → order.filledQuantity = 0)
    (.valueError (order.status.value ++ " orders cannot have filled quantity"))

/-- The constructor: quantize the decimals, then check them. -/
def postInit (order : Order) : Except Fault Order := do
  let order := { order with
    quantity := quantizeAmount order.quantity
    filledQuantity := quantizeAmount order.filledQuantity
    fee := quantizeAmount order.fee
    price := order.price.map quantizePrice
    averageFilledPrice := order.averageFilledPrice.map quantizePrice
    stopPrice := order.stopPrice.map quantizePrice }
  require (0 < order.quantity) (.valueError "quantity must be positive")
  require (0 ≤ order.filledQuantity) (.valueError "filled_quantity must be non-negative")
  require (order.filledQuantity ≤ order.quantity)
    (.valueError "filled_quantity cannot exceed quantity")
  require (0 ≤ order.fee) (.valueError "fee must be non-negative")
  require (¬(order.reduceOnly ∧ order.closePosition))
    (.valueError "reduce_only and close_position are mutually exclusive")
  order.validateFillStatus
  return order

/-- Move along `VALID_TRANSITIONS`. -/
def transitionTo (newStatus : OrderStatus) : Program Fault Order PUnit := do
  let order ← get
  raiseUnless (newStatus ∈ order.status.validTransitions)
    (.valueError ("invalid order status transition: " ++ order.status.value ++ " -> " ++
      newStatus.value))
  set { order with status := newStatus }

/-- `_validate_fill_status` on the order being mutated. -/
def checkFillStatus : Program Fault Order PUnit := do
  let order ← get
  runPure order.validateFillStatus

/-- Record a cumulative full fill. -/
def markAsFilled (filledQuantity averagePrice : Decimal) : Program Fault Order PUnit := do
  let normalizedQuantity := quantizeAmount filledQuantity
  let normalizedPrice := quantizePrice averagePrice
  let order ← get
  raiseUnless (normalizedQuantity = order.quantity)
    (.valueError "filled quantity must equal order quantity")
  raiseUnless (order.filledQuantity ≤ normalizedQuantity)
    (.valueError "filled quantity cannot decrease")
  raiseUnless (0 < normalizedPrice) (.valueError "average fill price must be positive")
  transitionTo .filled
  modify fun order => { order with
    filledQuantity := normalizedQuantity
    averageFilledPrice := some normalizedPrice }
  checkFillStatus

/-- Record a cumulative partial fill. -/
def markAsPartiallyFilled (filledQuantity averagePrice : Decimal) :
    Program Fault Order PUnit := do
  let normalizedQuantity := quantizeAmount filledQuantity
  let normalizedPrice := quantizePrice averagePrice
  let order ← get
  raiseUnless (0 < normalizedQuantity ∧ normalizedQuantity < order.quantity)
    (.valueError "partial fill must be between zero and order quantity")
  raiseUnless (order.filledQuantity ≤ normalizedQuantity)
    (.valueError "filled quantity cannot decrease")
  raiseUnless (0 < normalizedPrice) (.valueError "average fill price must be positive")
  transitionTo .partiallyFilled
  modify fun order => { order with
    filledQuantity := normalizedQuantity
    averageFilledPrice := some normalizedPrice }
  checkFillStatus

/-- Cancel an unfilled or partially filled order. -/
def markAsCancelled : Program Fault Order PUnit := do
  transitionTo .cancelled
  checkFillStatus

/-- The quantity that has not filled. -/
def remainingQuantity (order : Order) : Decimal :=
  quantizeAmount (order.quantity - order.filledQuantity)

end Order

/-! ### Fills -/

/-- A single execution fact. -/
structure Fill where
  orderId : OrderId
  symbol : String
  side : OrderSide
  positionSide : PositionSide
  referencePrice : Decimal
  price : Decimal
  quantity : Decimal
  fee : Decimal
  slippage : Decimal
  timestamp : ℤ
  reduceOnly : Bool
  exitReason : Option ExitReason
  gapFilled : Bool
  qtyTruncated : Bool
  isMoney_referencePrice : IsMoney referencePrice
  isMoney_price : IsMoney price
  isMoney_quantity : IsMoney quantity
  isMoney_fee : IsMoney fee
  isMoney_slippage : IsMoney slippage
  referencePrice_pos : 0 < referencePrice
  price_pos : 0 < price
  quantity_pos : 0 < quantity
  fee_nonneg : 0 ≤ fee
  slippage_nonneg : 0 ≤ slippage
deriving DecidableEq

/-- The constructor of a fill: quantize, then check. The order id is never empty
and the liquidity of a simulated fill is always `taker`. -/
def Fill.create (orderId : OrderId) (symbol : String) (side : OrderSide)
    (positionSide : PositionSide) (referencePrice price quantity fee slippage : Decimal)
    (timestamp : ℤ) (reduceOnly : Bool) (exitReason : Option ExitReason)
    (gapFilled qtyTruncated : Bool) : Except Fault Fill :=
  if hprice : 0 < quantizePrice referencePrice ∧ 0 < quantizePrice price then
    if hquantity : 0 < quantizeAmount quantity then
      if hcost : 0 ≤ quantizeAmount fee ∧ 0 ≤ quantizeAmount slippage then
        .ok {
          orderId := orderId
          symbol := symbol
          side := side
          positionSide := positionSide
          referencePrice := quantizePrice referencePrice
          price := quantizePrice price
          quantity := quantizeAmount quantity
          fee := quantizeAmount fee
          slippage := quantizeAmount slippage
          timestamp := timestamp
          reduceOnly := reduceOnly
          exitReason := exitReason
          gapFilled := gapFilled
          qtyTruncated := qtyTruncated
          isMoney_referencePrice := isMoney_quantizeAmount _
          isMoney_price := isMoney_quantizeAmount _
          isMoney_quantity := isMoney_quantizeAmount _
          isMoney_fee := isMoney_quantizeAmount _
          isMoney_slippage := isMoney_quantizeAmount _
          referencePrice_pos := hprice.1
          price_pos := hprice.2
          quantity_pos := hquantity
          fee_nonneg := hcost.1
          slippage_nonneg := hcost.2 }
      else .error (.valueError "fee and slippage must be non-negative")
    else .error (.valueError "fill quantity must be positive")
  else .error (.valueError "fill prices must be positive")

end TradingSystem
