import TradingSystem.Engine.Strategy
import TradingSystem.Execution.Matching

/-!
# Full exits pass through a float

An exit request carries the position's decimal quantity as a float, and the
normalizer prints that float to get a decimal back. Both ends are multiples of
`10^(-8)`, so the exit is complete exactly when printing the float nearest to the
quantity yields the quantity again: `exitQuantity_eq_iff`. Below `2^26` it always
does; from there on two quantities can share a float, and the exit of one of them
closes the other.
-/

namespace TradingSystem

open Numeric Logic

/-- The quantity of the order that closes a quantity. -/
def exitQuantity (quantity : Decimal) : Decimal := toDecimal (toFloat quantity)

/-- A quantity survives the float of its exit request. -/
def Lossless (quantity : Decimal) : Prop :=
  IsShortestDecimal binary64 (binary64.round quantity) quantity

section Quantities

variable {quantity : Decimal}

private theorem onGrid_money (h : IsMoney quantity) : OnGrid ((10 : ℚ) ^ (-8 : ℤ)) quantity :=
  qAmount_eq_zpow ▸ h

/-- The printed float of a money value is one: no quantization happens. -/
theorem exitQuantity_eq_repr (h : IsMoney quantity) :
    exitQuantity quantity = (toFloat quantity).repr := by
  have hgrid : IsMoney (toFloat quantity).repr := by
    have := onGrid_shortest (toFloat quantity).rounded ⟨onGrid_money h, rfl⟩
    rwa [← qAmount_eq_zpow] at this
  exact hgrid.quantizeAmount_eq

/-- **The round trip.** The exit quantity is the quantity exactly when the quantity is
the shortest decimal of its own float. -/
theorem exitQuantity_eq_iff (h : IsMoney quantity) (hpos : 0 < quantity) :
    exitQuantity quantity = quantity ↔ Lossless quantity := by
  rw [exitQuantity_eq_repr h]
  exact shortest_eq_iff (toFloat quantity).rounded (toFloat_pos h hpos).ne'

/-- Every quantity below `2^26` is lossless. -/
theorem lossless_of_lt (h : IsMoney quantity) (hpos : 0 < quantity) (hlt : quantity < 2 ^ 26) :
    Lossless quantity := by
  rw [← exitQuantity_eq_iff h hpos, exitQuantity_eq_repr h]
  exact Binary64.repr_eq_of_lt_two_pow_26 (onGrid_money h) hpos hlt

/-- The exit quantity is a positive money value. -/
theorem exitQuantity_pos (h : IsMoney quantity) (hpos : 0 < quantity) :
    0 < exitQuantity quantity := by
  rw [exitQuantity_eq_repr h]
  exact Binary64.repr_pos (toFloat_pos h hpos)

/-- An exit closes at least half of the quantity, whatever its float loses. -/
theorem le_two_mul_exitQuantity (h : IsMoney quantity) (hpos : 0 < quantity) :
    quantity ≤ 2 * exitQuantity quantity := by
  have hgrid := onGrid_money (isMoney_toDecimal (toFloat quantity))
  have hexit := exitQuantity_pos h hpos
  change OnGrid _ (exitQuantity quantity) at hgrid
  rw [exitQuantity_eq_repr h] at hgrid hexit ⊢
  exact Binary64.le_two_mul_repr hgrid hexit

theorem isMoney_exitQuantity : IsMoney (exitQuantity quantity) := isMoney_toDecimal _

end Quantities

/-! ### The exit order -/

/-- The order an exit request of a position normalizes to. -/
def exitOrder (position : Position) (sequence : ℕ) : Order where
  id := .broker sequence
  orderType := .market
  side := if position.side = .long then .sell else .buy
  symbol := position.symbol
  quantity := exitQuantity position.quantity
  price := none
  filledQuantity := 0
  averageFilledPrice := none
  status := .new
  fee := 0
  marketType := position.marketType
  positionSide := position.side
  reduceOnly := true
  closePosition := false
  stopPrice := none

variable {position : Position}

/-- A request for a positive quantity is accepted. -/
theorem exitRequest_isOk (h : IsMoney position.quantity) (hpos : 0 < position.quantity) :
    ∃ request, Engine.exitRequest position = .ok request := by
  have hfloat : Binary64.zero < toFloat position.quantity := toFloat_pos h hpos
  unfold Engine.exitRequest OrderRequest.postInit
  simp [require, hfloat, Bind.bind, Except.bind, pure, Except.pure]

/-- The request that closes a position. -/
theorem exitRequest_eq_ok {request : OrderRequest}
    (h : Engine.exitRequest position = .ok request) : request = {
      symbol := position.symbol
      side := if position.side = .long then .sell else .buy
      orderType := .market
      quantity := toFloat position.quantity
      price := none
      stopPrice := none
      marketType := position.marketType
      positionSide := position.side
      reduceOnly := true
      closePosition := false } := by
  unfold Engine.exitRequest OrderRequest.postInit at h
  simp only [Except.bind_eq_ok, require_eq_ok] at h
  obtain ⟨-, -, -, -, -, -, -, -, h⟩ := h
  cases h
  rfl

/-- The order of an exit request is `exitOrder`. -/
theorem normalizeOrder_exitRequest (h : IsMoney position.quantity)
    (hpos : 0 < position.quantity) {request : OrderRequest}
    (hrequest : Engine.exitRequest position = .ok request) (sequence : ℕ) :
    normalizeOrder request (.broker sequence) = .ok (exitOrder position sequence) := by
  have hquantity := exitQuantity_pos h hpos
  have hmoney : quantizeAmount (toDecimal (toFloat position.quantity)) =
      toDecimal (toFloat position.quantity) := (isMoney_toDecimal _).quantizeAmount_eq
  unfold exitQuantity at hquantity
  rw [exitRequest_eq_ok hrequest]
  unfold normalizeOrder Order.postInit Order.validateFillStatus
  simp [require, hmoney, hquantity, hquantity.le, hquantity.ne, exitOrder, exitQuantity,
    Bind.bind, Except.bind, pure, Except.pure]

section Submission

variable {costModel : BacktestCostModel} {context : ExecutionContext} {request : OrderRequest}
  {sequence : ℕ} {fill : Fill}

/-- **A submitted exit** executes the exit quantity of its position. -/
theorem submitOrder_exit (hmoney : IsMoney position.quantity) (hpos : 0 < position.quantity)
    (hbudget : context.limits.riskBudget = none)
    (hrequest : Engine.exitRequest position = .ok request)
    (h : submitOrder costModel context request sequence = .ok fill) :
    ∃ execution, Matcher.executionCandle context.decisionCandle context.history .nextBar =
        .ok execution ∧
      Matcher.IsExecution (exitOrder position sequence) execution.2.1
        (exitQuantity position.quantity) execution.2.2 costModel false none fill ∧
      Matcher.IsExitFill position fill ∧ fill.quantity = exitQuantity position.quantity := by
  obtain ⟨order, order', -, horder, hmatch⟩ := submitOrder_eq_ok h
  rw [normalizeOrder_exitRequest hmoney hpos hrequest] at horder
  cases horder
  obtain ⟨execution, truncated, hexecution, htruncated, -, hfill⟩ :=
    Matcher.matchOrder_eq_ok rfl hmatch
  have hremaining : (exitOrder position sequence).remainingQuantity =
      exitQuantity position.quantity := by
    unfold Order.remainingQuantity
    change quantizeAmount (exitQuantity position.quantity - 0) = _
    rw [sub_zero]
    exact isMoney_exitQuantity.quantizeAmount_eq
  have hunlimited :
      (Matcher.effectiveLimits (exitOrder position sequence) context.limits).riskBudget = none :=
    hbudget
  have hquantity := Matcher.truncateQuantity_unlimited hunlimited rfl htruncated
  rw [hremaining] at hquantity
  -- nothing was truncated, so the order is the exit order itself but for its absent stop
  have hexecution' : Matcher.IsExecution (exitOrder position sequence) execution.2.1
      (exitQuantity position.quantity) execution.2.2 costModel false none fill := by
    rw [hquantity] at hfill
    obtain ⟨h1, h2, h3, h4, h5, h6, h7, h8, h9, h10, h11, h12, h13, h14⟩ := hfill
    exact ⟨h1, h2, h3, h4, h5, h6, h7, h8, h9, h10, h11, h12, h13, h14⟩
  refine ⟨execution, hexecution, hexecution', ?_, ?_⟩
  · exact {
      symbol_eq := hexecution'.symbol_eq
      positionSide_eq := hexecution'.positionSide_eq
      side_eq := hexecution'.side_eq
      reduceOnly_eq := hexecution'.reduceOnly_eq }
  · rw [hexecution'.quantity_eq]
    exact isMoney_exitQuantity.quantizeAmount_eq

end Submission

/-- **The exit order of a position closes it**: its quantity is the position's, and any
fill of it empties the book at the position's key. -/
def ClosesCompletely (position : Position) : Prop :=
  ∀ sequence, ∃ request order, Engine.exitRequest position = .ok request ∧
    normalizeOrder request (.broker sequence) = .ok order ∧
    order.quantity = position.quantity ∧
    ∀ (fill : Fill) (book : PositionBook),
      book (position.symbol, position.side) = some position → fill.symbol = order.symbol →
      fill.positionSide = order.positionSide → fill.reduceOnly = order.isExit →
      fill.quantity = order.quantity →
      ∃ released, PositionBook.reduce fill book =
        .ok released (book.update (position.symbol, position.side) none)

/-- A full exit fill empties the book at the position's key. -/
theorem reduce_full {fill : Fill} {book : PositionBook}
    (hheld : book (position.symbol, position.side) = some position)
    (hsymbol : fill.symbol = position.symbol) (hside : fill.positionSide = position.side)
    (hreduce : fill.reduceOnly = true) (hquantity : fill.quantity = position.quantity) :
    ∃ released, PositionBook.reduce fill book =
      .ok released (book.update (position.symbol, position.side) none) := by
  have hpos := fill.quantity_pos
  have hmoney : quantizeAmount fill.quantity = position.quantity := by
    rw [fill.isMoney_quantity.quantizeAmount_eq, hquantity]
  have hflat : (position.reducedBy position.quantity).quantity = 0 := by simp
  refine ⟨position.releasedBy position.quantity, PositionBook.reduce_eq_ok.2
    ⟨hreduce, position, position.reducedBy position.quantity, ?_, ?_, ?_⟩⟩
  · rw [hsymbol, hside]
    exact hheld
  · rw [Position.reduceQuantity_eq_ok, hmoney]
    rw [hquantity] at hpos
    exact ⟨hpos, le_rfl, Position.reducedBy_self_validateTotalCost, rfl, rfl⟩
  · rw [if_pos hflat, hsymbol, hside]

/-- A position closes completely exactly when the printed float is its quantity. -/
theorem closesCompletely_iff_exitQuantity (h : IsMoney position.quantity)
    (hpos : 0 < position.quantity) :
    ClosesCompletely position ↔ exitQuantity position.quantity = position.quantity := by
  constructor
  · intro hcloses
    obtain ⟨request, order, hrequest, horder, hquantity, -⟩ := hcloses 0
    rw [normalizeOrder_exitRequest h hpos hrequest] at horder
    cases horder
    exact hquantity
  · intro hquantity sequence
    obtain ⟨request, hrequest⟩ := exitRequest_isOk h hpos
    refine ⟨request, exitOrder position sequence, hrequest,
      normalizeOrder_exitRequest h hpos hrequest sequence, hquantity, ?_⟩
    intro fill book hheld hsymbol hside hreduce hfill
    exact reduce_full hheld hsymbol hside hreduce (hfill.trans hquantity)

/-- **Full exits.** A position of a positive money quantity is closed by its exit order
exactly when the quantity is the shortest decimal of its own float. -/
theorem closesCompletely_iff_lossless (h : IsMoney position.quantity)
    (hpos : 0 < position.quantity) :
    ClosesCompletely position ↔ Lossless position.quantity := by
  rw [closesCompletely_iff_exitQuantity h hpos, exitQuantity_eq_iff h hpos]

/-- A long position at a price of one hundredth of a cent. -/
def pennyPosition (quantity : Decimal) : Position where
  symbol := "SHIBUSDT"
  quantity := quantity
  averagePrice := 1 / 10000
  totalCost := quantizeAmount (quantity / 10000)
  currentPrice := 1 / 10000
  unrealizedPnl := 0
  side := .long
  marketType := .futures
  leverage := 1
  marginType := .isolated
  margin := quantizeAmount (quantity / 10000)
  entryPrice := 1 / 10000
  markPrice := 1 / 10000
  liquidationPrice := 0
  fundingFeeTotal := 0

/-- A thousand units close completely. -/
theorem thousand_closesCompletely : ClosesCompletely (pennyPosition 1000) := by
  have hmoney : IsMoney (pennyPosition 1000).quantity := by decide +kernel
  have hlossless : Lossless 1000 := lossless_of_lt hmoney (by norm_num) (by norm_num)
  exact (closesCompletely_iff_lossless hmoney
    (by norm_num [pennyPosition])).2 hlossless

/-- Just above `2^26` two quantities share a float. The exit of one leaves a unit of
`10^(-8)`; the exit of another asks for a unit more than is held. -/
theorem exit_of_two_pow_26_not_complete :
    ¬ClosesCompletely (pennyPosition (67108864 + 2 / 100000000)) ∧
      exitQuantity (67108864 + 2 / 100000000) = 67108864 + 1 / 100000000 ∧
      exitQuantity (67108864 + 38 / 100000000) = 67108864 + 39 / 100000000 := by
  refine ⟨?_, by decide +kernel, by decide +kernel⟩
  rw [closesCompletely_iff_exitQuantity (by decide +kernel) (by norm_num [pennyPosition])]
  decide +kernel

end TradingSystem
