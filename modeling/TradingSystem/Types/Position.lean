import TradingSystem.Types.Order

/-!
# Positions

A position record and its three mutations in place: marking, increasing and
reducing. A reduction returns the released margin; reaching zero quantity clears
the prices of the record.
-/

namespace TradingSystem

open Logic

/-- A position and its accounting basis. -/
structure Position where
  symbol : String
  quantity : Decimal
  averagePrice : Decimal
  totalCost : Decimal
  currentPrice : Decimal
  unrealizedPnl : Decimal
  side : PositionSide
  marketType : MarketType
  leverage : ℕ
  marginType : MarginType
  margin : Decimal
  entryPrice : Decimal
  markPrice : Decimal
  liquidationPrice : Decimal
  fundingFeeTotal : Decimal
deriving DecidableEq

namespace Position

/-- `_TOTAL_COST_TOLERANCE` of the source. -/
def totalCostTolerance : Decimal := 1 / 100

def validateTotalCost (position : Position) : Except Fault Unit :=
  require (|position.totalCost - position.quantity * position.averagePrice| ≤ totalCostTolerance)
    (.valueError "total_cost must equal quantity * average_price within 0.01")

/-- The constructor: quantize every decimal, then check. -/
def postInit (position : Position) : Except Fault Position := do
  let position := { position with
    quantity := quantizeAmount position.quantity
    averagePrice := quantizePrice position.averagePrice
    totalCost := quantizeAmount position.totalCost
    currentPrice := quantizePrice position.currentPrice
    unrealizedPnl := quantizeAmount position.unrealizedPnl
    margin := quantizeAmount position.margin
    entryPrice := quantizePrice position.entryPrice
    markPrice := quantizePrice position.markPrice
    liquidationPrice := quantizePrice position.liquidationPrice
    fundingFeeTotal := quantizeAmount position.fundingFeeTotal }
  require (0 ≤ position.quantity) (.valueError "quantity must be non-negative")
  require (0 < position.leverage) (.valueError "leverage must be positive")
  require (0 ≤ position.margin) (.valueError "margin must be non-negative")
  position.validateTotalCost
  return position

/-- The profit of the position at a price, before quantization. -/
def priceDelta (position : Position) (price : Decimal) : Decimal :=
  if position.side = .short then -(price - position.entryPrice) else price - position.entryPrice

/-- `_validate_total_cost` on the position being mutated. -/
def checkTotalCost : Program Fault Position PUnit := do
  let position ← get
  runPure position.validateTotalCost

/-- Mark the position and recompute its unrealized profit. -/
def updatePrice (price : Decimal) : Program Fault Position PUnit := do
  let normalizedPrice := quantizePrice price
  raiseUnless (0 < normalizedPrice) (.valueError "mark price must be positive")
  modify fun position => { position with
    currentPrice := normalizedPrice
    markPrice := normalizedPrice
    unrealizedPnl :=
      match position.marketType with
      | .futures => quantizeAmount (position.priceDelta normalizedPrice * position.quantity)
      | .spot => quantizeAmount (position.quantity * normalizedPrice - position.totalCost) }
  checkTotalCost

/-- Increase the position at a weighted average price. -/
def addQuantity (quantity price : Decimal) : Program Fault Position PUnit := do
  let normalizedQuantity := quantizeAmount quantity
  let normalizedPrice := quantizePrice price
  raiseUnless (0 < normalizedQuantity) (.valueError "added quantity must be positive")
  raiseUnless (0 < normalizedPrice) (.valueError "entry price must be positive")
  modify fun position =>
    let newQuantity := quantizeAmount (position.quantity + normalizedQuantity)
    let newTotalCost := quantizeAmount (position.totalCost + normalizedQuantity * normalizedPrice)
    let averagePrice := quantizePrice (newTotalCost / newQuantity)
    { position with
      quantity := newQuantity
      totalCost := newTotalCost
      averagePrice := averagePrice
      entryPrice := averagePrice }
  checkTotalCost

/-- The record of a flat position: its prices are cleared. -/
def clearedWhenFlat (position : Position) : Position :=
  if position.quantity = 0 then
    { position with
      averagePrice := quantizePrice 0
      entryPrice := quantizePrice 0
      currentPrice := quantizePrice 0
      markPrice := quantizePrice 0
      unrealizedPnl := quantizeAmount 0
      liquidationPrice := quantizePrice 0 }
  else position

/-- The margin a reduction by `quantity` releases. -/
def releasedBy (position : Position) (quantity : Decimal) : Decimal :=
  quantizeAmount (position.margin * quantity / position.quantity)

/-- The record after a reduction by `quantity`. -/
def reducedBy (position : Position) (quantity : Decimal) : Position :=
  let newQuantity := quantizeAmount (position.quantity - quantity)
  clearedWhenFlat { position with
    quantity := newQuantity
    totalCost := quantizeAmount (newQuantity * position.averagePrice)
    margin := quantizeAmount (position.margin - position.releasedBy quantity) }

/-- Reduce the position; returns the proportional released margin. -/
def reduceQuantity (quantity : Decimal) : Program Fault Position Decimal := do
  let normalizedQuantity := quantizeAmount quantity
  let position ← get
  raiseUnless (0 < normalizedQuantity) (.valueError "reduced quantity must be positive")
  raiseUnless (normalizedQuantity ≤ position.quantity)
    (.valueError "cannot reduce more than the position quantity")
  set (position.reducedBy normalizedQuantity)
  checkTotalCost
  return position.releasedBy normalizedQuantity

/-! ### What the mutations do -/

variable {position position' : Position}

theorem checkTotalCost_eq_ok {u : PUnit} :
    checkTotalCost position = .ok u position' ↔
      position = position' ∧ position.validateTotalCost = .ok () := by
  unfold checkTotalCost
  simp only [bind_eq_ok, get_apply, runPure_eq_ok, EStateM.Result.ok.injEq]
  constructor
  · rintro ⟨_, _, ⟨rfl, rfl⟩, h, rfl⟩
    exact ⟨rfl, h⟩
  · rintro ⟨rfl, h⟩
    exact ⟨_, _, ⟨rfl, rfl⟩, h, rfl⟩

/-- A mark changes the prices and the unrealized profit only. -/
theorem updatePrice_eq_ok {price : Decimal} (h : updatePrice price position = .ok ⟨⟩ position') :
    0 < quantizeAmount price ∧ position' = { position with
      currentPrice := quantizeAmount price
      markPrice := quantizeAmount price
      unrealizedPnl :=
        match position.marketType with
        | .futures =>
          quantizeAmount (position.priceDelta (quantizeAmount price) * position.quantity)
        | .spot =>
          quantizeAmount (position.quantity * quantizeAmount price - position.totalCost) } := by
  unfold updatePrice at h
  simp only [bind_eq_ok, raiseUnless_eq_ok, modify_apply, checkTotalCost_eq_ok,
    EStateM.Result.ok.injEq] at h
  obtain ⟨_, _, ⟨hpos, rfl⟩, _, _, ⟨-, rfl⟩, rfl, -⟩ := h
  exact ⟨hpos, rfl⟩

/-- A reduction stays within the position and leaves the reduced record. -/
theorem reduceQuantity_eq_ok {quantity released : Decimal} :
    reduceQuantity quantity position = .ok released position' ↔
      0 < quantizeAmount quantity ∧ quantizeAmount quantity ≤ position.quantity ∧
        (position.reducedBy (quantizeAmount quantity)).validateTotalCost = .ok () ∧
        released = position.releasedBy (quantizeAmount quantity) ∧
        position' = position.reducedBy (quantizeAmount quantity) := by
  unfold reduceQuantity
  simp only [bind_eq_ok, get_apply, set_apply, raiseUnless_eq_ok, checkTotalCost_eq_ok, pure_apply,
    EStateM.Result.ok.injEq]
  constructor
  · rintro ⟨_, _, ⟨rfl, rfl⟩, _, _, ⟨hpos, rfl⟩, _, _, ⟨hle, rfl⟩, _, _, ⟨-, rfl⟩, _, _,
      ⟨rfl, hcost⟩, rfl, rfl⟩
    exact ⟨hpos, hle, hcost, rfl, rfl⟩
  · rintro ⟨hpos, hle, hcost, rfl, rfl⟩
    exact ⟨_, _, ⟨rfl, rfl⟩, ⟨⟩, _, ⟨hpos, rfl⟩, ⟨⟩, _, ⟨hle, rfl⟩, ⟨⟩, _, ⟨trivial, rfl⟩, ⟨⟩, _,
      ⟨rfl, hcost⟩, rfl, rfl⟩

theorem clearedWhenFlat_quantity : (clearedWhenFlat position).quantity = position.quantity := by
  unfold clearedWhenFlat
  split <;> rfl

theorem clearedWhenFlat_of_ne (h : position.quantity ≠ 0) : clearedWhenFlat position = position :=
  if_neg h

@[simp] theorem reducedBy_symbol (quantity : Decimal) :
    (position.reducedBy quantity).symbol = position.symbol := by
  simp only [reducedBy, clearedWhenFlat]
  split <;> rfl

@[simp] theorem reducedBy_side (quantity : Decimal) :
    (position.reducedBy quantity).side = position.side := by
  simp only [reducedBy, clearedWhenFlat]
  split <;> rfl

@[simp] theorem reducedBy_quantity (quantity : Decimal) :
    (position.reducedBy quantity).quantity = quantizeAmount (position.quantity - quantity) :=
  clearedWhenFlat_quantity

/-- A flat record has no cost, so its cost agrees with its prices. -/
theorem reducedBy_self_validateTotalCost :
    (position.reducedBy position.quantity).validateTotalCost = .ok () := by
  unfold reducedBy clearedWhenFlat validateTotalCost totalCostTolerance
  simp [require]

/-- The constructor: the quantized record, and what it was checked for. -/
theorem postInit_eq_ok (h : position.postInit = .ok position') :
    position' = { position with
      quantity := quantizeAmount position.quantity
      averagePrice := quantizeAmount position.averagePrice
      totalCost := quantizeAmount position.totalCost
      currentPrice := quantizeAmount position.currentPrice
      unrealizedPnl := quantizeAmount position.unrealizedPnl
      margin := quantizeAmount position.margin
      entryPrice := quantizeAmount position.entryPrice
      markPrice := quantizeAmount position.markPrice
      liquidationPrice := quantizeAmount position.liquidationPrice
      fundingFeeTotal := quantizeAmount position.fundingFeeTotal } ∧
      0 ≤ position'.quantity ∧ 0 < position'.leverage ∧ 0 ≤ position'.margin := by
  unfold postInit at h
  simp only [Except.bind_eq_ok, require_eq_ok] at h
  obtain ⟨-, h1, -, h2, -, h3, _, -, h⟩ := h
  cases h
  exact ⟨rfl, h1, h2, h3⟩

end Position
end TradingSystem
