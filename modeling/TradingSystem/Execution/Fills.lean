import TradingSystem.Execution.Broker

/-!
# What a fill is

The inversion lemmas of the matcher's last stage: `executionPrice` and `fillOrder`
in terms of the reference price, the quantity and the rounded slippage amount of
the fill. `IsExecution` collects what a fill has to do with the order and the
prices it was built from; every later statement about fills uses it.
-/

namespace TradingSystem

open Logic

namespace Order

/-- What the constructor accepts, and the order it builds. -/
theorem postInit_eq_ok {order result : Order} (h : order.postInit = .ok result) :
    result = { order with
        quantity := quantizeAmount order.quantity
        filledQuantity := quantizeAmount order.filledQuantity
        fee := quantizeAmount order.fee
        price := order.price.map quantizePrice
        averageFilledPrice := order.averageFilledPrice.map quantizePrice
        stopPrice := order.stopPrice.map quantizePrice } ∧
      0 < result.quantity ∧ 0 ≤ result.filledQuantity ∧
      result.filledQuantity ≤ result.quantity ∧ 0 ≤ result.fee ∧
      ¬(result.reduceOnly ∧ result.closePosition) ∧ result.validateFillStatus = .ok () := by
  unfold postInit at h
  simp only [Except.bind_eq_ok, require_eq_ok] at h
  obtain ⟨-, h1, -, h2, -, h3, -, h4, -, h5, _, h6, h⟩ := h
  cases h
  exact ⟨rfl, h1, h2, h3, h4, h5, h6⟩

end Order

namespace Matcher

/-! ### Slippage of one execution -/

/-- The order as an execution of `quantity` more is priced. -/
def pricedAt (order : Order) (quantity : Decimal) : Order :=
  { order with quantity := quantizeAmount (order.filledQuantity + quantity) }

/-- The effective slippage rate of an execution. -/
def slippageRate (order : Order) (quantity : Decimal) (costModel : BacktestCostModel)
    (gapFilled : Bool) : Decimal :=
  costModel.slippage (pricedAt order quantity) gapFilled

/-- The slippage amount of an execution: the rate on the rounded reference notional,
rounded again. -/
def slippageAmount (order : Order) (referencePrice quantity : Decimal)
    (costModel : BacktestCostModel) (gapFilled : Bool) : Decimal :=
  quantizeAmount (quantizeAmount (referencePrice * quantity) *
    slippageRate order quantity costModel gapFilled)

/-- An amount with the sign that makes it adverse for an order. -/
def adverse (side : OrderSide) (amount : Decimal) : Decimal :=
  match side with
  | .buy => amount
  | .sell => -amount

@[simp] theorem adverse_buy (amount : Decimal) : adverse .buy amount = amount := rfl

@[simp] theorem adverse_sell (amount : Decimal) : adverse .sell amount = -amount := rfl

@[simp] theorem abs_adverse (side : OrderSide) (amount : Decimal) :
    |adverse side amount| = |amount| := by
  cases side with
  | buy => rfl
  | sell => exact abs_neg _

/-- The price an execution of `quantity` is recorded at. -/
def slippedPrice (order : Order) (referencePrice quantity : Decimal)
    (costModel : BacktestCostModel) (gapFilled : Bool) : Decimal :=
  quantizeAmount (referencePrice +
    adverse order.side (slippageAmount order referencePrice quantity costModel gapFilled) /
      quantity)

variable {order order' : Order} {referencePrice quantity : Decimal} {timestamp : ℤ}
  {costModel : BacktestCostModel} {gapFilled qtyTruncated : Bool}
  {exitReason : Option ExitReason} {fill : Fill}

@[simp] theorem isMoney_slippageAmount :
    IsMoney (slippageAmount order referencePrice quantity costModel gapFilled) :=
  isMoney_quantizeAmount _

/-- `slippage.apply` on a checked order is the signed slippage amount. -/
private theorem applySlippage_eq_ok {priced : Order} {signed : Decimal}
    (hpriced : (pricedAt order quantity).postInit = .ok priced)
    (h : applySlippage (quantizeAmount (referencePrice * quantity)) order.side costModel priced
      gapFilled = .ok signed) :
    0 ≤ quantizeAmount (referencePrice * quantity) ∧
      0 ≤ slippageRate order quantity costModel gapFilled ∧
      signed = adverse order.side
        (slippageAmount order referencePrice quantity costModel gapFilled) := by
  obtain ⟨hresult, -⟩ := Order.postInit_eq_ok hpriced
  -- the rate is the one of the rounded quantity
  have hrate : costModel.slippage priced gapFilled =
      slippageRate order quantity costModel gapFilled := by
    unfold slippageRate BacktestCostModel.slippage
    rw [hresult]
    simp only [pricedAt, quantizeAmount_quantizeAmount]
    rfl
  unfold applySlippage at h
  simp only [Except.bind_eq_ok, require_eq_ok, hrate] at h
  obtain ⟨-, hnotional, -, hrate', h⟩ := h
  refine ⟨hnotional, hrate', ?_⟩
  cases h
  unfold adverse slippageAmount
  cases order.side <;> rfl

/-- An execution price is the slipped price, and it is positive. -/
theorem executionPrice_eq_ok {execution : ExecutionPrice}
    (h : executionPrice order referencePrice quantity costModel gapFilled = .ok execution) :
    execution.price = slippedPrice order referencePrice quantity costModel gapFilled ∧
      execution.signedSlippage = adverse order.side
        (slippageAmount order referencePrice quantity costModel gapFilled) ∧
      0 < execution.price ∧ 0 ≤ slippageRate order quantity costModel gapFilled ∧
      0 ≤ quantizeAmount (referencePrice * quantity) := by
  unfold executionPrice at h
  simp only [Except.bind_eq_ok, require_eq_ok] at h
  obtain ⟨priced, hpriced, signed, hsigned, -, hpos, h⟩ := h
  obtain ⟨hnotional, hrate, rfl⟩ := applySlippage_eq_ok hpriced hsigned
  cases h
  exact ⟨rfl, rfl, hpos, hrate, hnotional⟩

/-! ### Fills -/

/-- What a fill has to do with the order it fills. -/
structure IsExecution (order : Order) (referencePrice quantity : Decimal) (timestamp : ℤ)
    (costModel : BacktestCostModel) (gapFilled : Bool) (exitReason : Option ExitReason)
    (fill : Fill) : Prop where
  orderId_eq : fill.orderId = order.id
  symbol_eq : fill.symbol = order.symbol
  side_eq : fill.side = order.side
  positionSide_eq : fill.positionSide = order.positionSide
  referencePrice_eq : fill.referencePrice = quantizeAmount referencePrice
  quantity_eq : fill.quantity = quantizeAmount quantity
  price_eq : fill.price = slippedPrice order referencePrice quantity costModel gapFilled
  slippage_eq : fill.slippage =
    |slippageAmount order referencePrice quantity costModel gapFilled|
  /-- The fee is charged on the notional at the execution price. -/
  fee_eq : fill.fee = quantizeAmount (quantizeAmount (fill.price * quantity) * costModel.feeRate)
  timestamp_eq : fill.timestamp = timestamp
  reduceOnly_eq : fill.reduceOnly = order.isExit
  exitReason_eq : fill.exitReason = exitReason
  slippageRate_nonneg : 0 ≤ slippageRate order quantity costModel gapFilled
  notional_nonneg : 0 ≤ quantizeAmount (referencePrice * quantity)

/-- The constructor of a fill keeps what it is given, quantized. -/
private theorem create_eq_ok {orderId : OrderId} {symbol : String} {side : OrderSide}
    {positionSide : PositionSide} {referencePrice price quantity fee slippage : Decimal}
    {timestamp : ℤ} {reduceOnly : Bool} {exitReason : Option ExitReason}
    {gapFilled qtyTruncated : Bool}
    (h : Fill.create orderId symbol side positionSide referencePrice price quantity fee slippage
      timestamp reduceOnly exitReason gapFilled qtyTruncated = .ok fill) :
    fill.orderId = orderId ∧ fill.symbol = symbol ∧ fill.side = side ∧
      fill.positionSide = positionSide ∧ fill.referencePrice = quantizeAmount referencePrice ∧
      fill.price = quantizeAmount price ∧ fill.quantity = quantizeAmount quantity ∧
      fill.fee = quantizeAmount fee ∧ fill.slippage = quantizeAmount slippage ∧
      fill.timestamp = timestamp ∧ fill.reduceOnly = reduceOnly ∧
      fill.exitReason = exitReason := by
  unfold Fill.create at h
  split_ifs at h with h1 h2 h3
  cases h
  exact ⟨rfl, rfl, rfl, rfl, rfl, rfl, rfl, rfl, rfl, rfl, rfl, rfl⟩

/-- **Fills are executions.** -/
theorem fillOrder_eq_ok
    (h : fillOrder referencePrice quantity timestamp costModel gapFilled qtyTruncated exitReason
      order = .ok fill order') :
    IsExecution order referencePrice quantity timestamp costModel gapFilled exitReason fill := by
  unfold fillOrder at h
  simp only [bind_eq_ok, runPure_eq_ok] at h
  obtain ⟨_, _, hget, actual, _, ⟨hactual, rfl⟩, rate, _, ⟨hrate, rfl⟩, fee, _, ⟨hfee, rfl⟩,
    _, _, -, _, _, -, hcreate, -⟩ := h
  cases hget
  obtain ⟨hprice, hsigned, -, hrate0, hnotional⟩ := executionPrice_eq_ok hactual
  obtain ⟨h1, h2, h3, h4, h5, h6, h7, h8, h9, h10, h11, h12⟩ := create_eq_ok hcreate
  -- the price is on the grid already
  have hpriceq : fill.price = actual.price := by
    rw [h6, hprice]
    exact quantizeAmount_quantizeAmount _
  have hrate' : rate = costModel.feeRate := by
    unfold BacktestCostModel.fee at hrate
    simp only [Except.bind_eq_ok, require_eq_ok] at hrate
    obtain ⟨-, -, hrate⟩ := hrate
    cases hrate
    rfl
  have hfee' :
      fee = quantizeAmount (quantizeAmount (fill.price * quantity) * costModel.feeRate) := by
    unfold feeCalc at hfee
    simp only [Except.bind_eq_ok, require_eq_ok] at hfee
    obtain ⟨-, -, -, -, hfee⟩ := hfee
    cases hfee
    rw [hrate', hpriceq]
  exact {
    orderId_eq := h1
    symbol_eq := h2
    side_eq := h3
    positionSide_eq := h4
    referencePrice_eq := h5
    quantity_eq := h7
    price_eq := hpriceq.trans hprice
    slippage_eq := by
      rw [h9, hsigned, abs_adverse]
      rcases abs_choice (slippageAmount order referencePrice quantity costModel gapFilled) with
        habs | habs
      · rw [habs]
        exact isMoney_slippageAmount.quantizeAmount_eq
      · rw [habs]
        exact isMoney_slippageAmount.neg.quantizeAmount_eq
    fee_eq := by
      rw [h8, hfee']
      exact quantizeAmount_quantizeAmount _
    timestamp_eq := h10
    reduceOnly_eq := h11
    exitReason_eq := h12
    slippageRate_nonneg := hrate0
    notional_nonneg := hnotional }

/-- The slippage amount of an execution is never negative. -/
theorem IsExecution.slippageAmount_nonneg
    (h : IsExecution order referencePrice quantity timestamp costModel gapFilled exitReason fill) :
    0 ≤ slippageAmount order referencePrice quantity costModel gapFilled :=
  quantizeAmount_nonneg (mul_nonneg h.notional_nonneg h.slippageRate_nonneg)

end Matcher
end TradingSystem
