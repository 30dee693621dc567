import TradingSystem.Engine.Strategy
import TradingSystem.Execution.Matching

/-!
# The order of an entry

What an entry request normalizes to, and what a submitted entry executes: a part of the
requested quantity at the open of the next bar, on the requested side.
-/

namespace TradingSystem

open Numeric Logic

/-- The order an entry request normalizes to. -/
def entryOrder (signal : TradingSignal) (side : PositionSide) (quantity : Binary64)
    (sequence : ℕ) : Order where
  id := .broker sequence
  orderType := .market
  side := if side = .long then .buy else .sell
  symbol := signal.symbol
  quantity := toDecimal quantity
  price := some (toDecimal signal.price)
  filledQuantity := 0
  averageFilledPrice := none
  status := .new
  fee := 0
  marketType := signal.marketType
  positionSide := side
  reduceOnly := false
  closePosition := false
  stopPrice := signal.stopLoss.map toDecimal

variable {signal : TradingSignal} {side : PositionSide} {quantity : Binary64}
  {request : OrderRequest} {sequence : ℕ}

@[simp] theorem entryOrder_isExit : (entryOrder signal side quantity sequence).isExit = false := rfl

@[simp] theorem entryOrder_remainingQuantity :
    (entryOrder signal side quantity sequence).remainingQuantity = toDecimal quantity := by
  change quantizeAmount (toDecimal quantity - 0) = _
  rw [sub_zero]
  exact (isMoney_toDecimal _).quantizeAmount_eq

/-- A positive float quantity is all an entry request needs: the signal's prices are
positive. -/
theorem entryRequest_eq_ok : Engine.entryRequest signal side quantity = .ok request ↔
    Binary64.zero < quantity ∧ request = {
      symbol := signal.symbol
      side := if side = .long then .buy else .sell
      orderType := .market
      quantity := quantity
      price := some signal.price
      stopPrice := signal.stopLoss
      marketType := signal.marketType
      positionSide := side
      reduceOnly := false
      closePosition := false } := by
  unfold Engine.entryRequest OrderRequest.postInit
  simp only [Except.bind_eq_ok, require_eq_ok]
  constructor
  · rintro ⟨-, hquantity, -, -, -, -, -, -, h⟩
    cases h
    exact ⟨hquantity, rfl⟩
  · rintro ⟨hquantity, rfl⟩
    refine ⟨⟨⟩, hquantity, ⟨⟩, ?_, ⟨⟩, signal.stopLoss_pos, ⟨⟩, by simp, rfl⟩
    intro value hvalue
    cases hvalue
    exact signal.price_pos

/-- **Normalization** accepts an entry whose quantity does not round to zero. -/
theorem normalizeOrder_entryRequest {order : Order}
    (hrequest : Engine.entryRequest signal side quantity = .ok request) :
    normalizeOrder request (.broker sequence) = .ok order ↔
      0 < toDecimal quantity ∧ order = entryOrder signal side quantity sequence := by
  obtain ⟨-, rfl⟩ := entryRequest_eq_ok.1 hrequest
  -- a float converted to a decimal is on the grid, so the order keeps it
  have hmoney : quantizeAmount (toDecimal quantity) = toDecimal quantity :=
    (isMoney_toDecimal _).quantizeAmount_eq
  have hprice : quantizeAmount (toDecimal signal.price) = toDecimal signal.price :=
    (isMoney_toDecimal _).quantizeAmount_eq
  have hstop : (signal.stopLoss.map toDecimal).map quantizePrice =
      signal.stopLoss.map toDecimal := by
    cases signal.stopLoss with
    | none => rfl
    | some level => exact congrArg some (isMoney_toDecimal level).quantizeAmount_eq
  constructor
  · intro h
    obtain ⟨rfl, hpos, -⟩ := Order.postInit_eq_ok h
    simp only [hmoney] at hpos
    refine ⟨hpos, ?_⟩
    simp only [entryOrder, hmoney, Option.map_some, Option.map_none, quantizePrice_eq, hprice,
      quantizeAmount_zero, Order.mk.injEq, true_and]
    exact hstop
  · rintro ⟨hpos, rfl⟩
    unfold normalizeOrder Order.postInit Order.validateFillStatus
    simp only [Option.map_some, quantizePrice_eq, hprice, hmoney, hstop, quantizeAmount_zero,
      Option.map_none]
    simp [require, hpos, hpos.le, hpos.ne, entryOrder, Bind.bind, Except.bind, pure, Except.pure]

/-- **A submitted entry** executes what truncation leaves of its quantity. -/
theorem submitOrder_entry {costModel : BacktestCostModel} {context : ExecutionContext}
    {fill : Fill} (hrequest : Engine.entryRequest signal side quantity = .ok request)
    (h : submitOrder costModel context request sequence = .ok fill) :
    ∃ execution truncated, 0 < toDecimal quantity ∧
      Matcher.executionCandle context.decisionCandle context.history .nextBar = .ok execution ∧
      Matcher.truncateQuantity (entryOrder signal side quantity sequence) execution.2.1 false
        context.limits costModel Matcher.truncationRounds (toDecimal quantity) = .ok truncated ∧
      0 < truncated.1 ∧
      Matcher.IsExecution (Matcher.truncatedOrder (entryOrder signal side quantity sequence)
        truncated.1 truncated.2) execution.2.1 truncated.1 execution.2.2 costModel false none
        fill := by
  obtain ⟨order, order', -, horder, hmatch⟩ := submitOrder_eq_ok h
  obtain ⟨hpos, rfl⟩ := (normalizeOrder_entryRequest hrequest).1 horder
  obtain ⟨execution, truncated, hexecution, htruncated, hquantity, hfill⟩ :=
    Matcher.matchOrder_eq_ok rfl hmatch
  rw [entryOrder_remainingQuantity] at htruncated
  exact ⟨execution, truncated, hpos, hexecution, htruncated, hquantity, hfill⟩

end TradingSystem
