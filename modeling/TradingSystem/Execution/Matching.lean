import TradingSystem.Execution.Fills

/-!
# What a match is

The inversion lemmas of the matcher above `fillOrder`: where an order executes, what
the truncation loop returns, and what the fills of the three kinds of exits and of an
entry look like. Every order of a run is a market order for the next bar, so that is the
case they treat.
-/

namespace TradingSystem

open Logic

namespace Matcher

variable {order order' : Order} {candle next : Candle} {history : List Candle}
  {costModel : BacktestCostModel} {limits : MatchLimits} {fill : Fill}

/-! ### Where an order executes -/

/-- The next bar is the earliest candle that opens at or after the decision's close. -/
theorem executionCandle_eq_ok {execution : Candle × Decimal × ℤ}
    (h : executionCandle candle history .nextBar = .ok execution) :
    execution.1 ∈ history ∧ candle.closeTime ≤ execution.1.openTime ∧
      (∀ other ∈ history, candle.closeTime ≤ other.openTime →
        execution.1.openTime ≤ other.openTime) ∧
      execution.2.1 = toDecimal execution.1.open ∧
      execution.2.2 = max execution.1.openTime (candle.closeTime + Instant.millisecond) := by
  unfold executionCandle at h
  simp only at h
  cases hmin : earliest (history.filter fun candidate =>
      candle.closeTime ≤ candidate.openTime) with
  | none =>
    rw [hmin] at h
    cases h
  | some found =>
    rw [hmin] at h
    cases h
    -- the earliest bar that opens no earlier than the close
    obtain ⟨hmem, hleast⟩ := earliest_eq_some hmin
    rw [List.mem_filter, decide_eq_true_eq] at hmem
    refine ⟨hmem.1, hmem.2, ?_, rfl, rfl⟩
    intro other hother hopen
    refine hleast other ?_
    rw [List.mem_filter, decide_eq_true_eq]
    exact ⟨hother, hopen⟩

/-- When a candle opens as the decision candle closes, the order executes in a candle
that opens then, one millisecond later. -/
theorem executionCandle_contiguous {execution : Candle × Decimal × ℤ}
    (hnext : next ∈ history) (hopen : next.openTime = candle.closeTime)
    (h : executionCandle candle history .nextBar = .ok execution) :
    execution.1.openTime = candle.closeTime ∧
      execution.2.2 = candle.closeTime + Instant.millisecond := by
  obtain ⟨-, hle, hmin, -, htime⟩ := executionCandle_eq_ok h
  have hopen' : execution.1.openTime = candle.closeTime :=
    le_antisymm (hopen ▸ hmin next hnext hopen.ge) hle
  refine ⟨hopen', ?_⟩
  rw [htime, hopen']
  exact max_eq_right (by simp [Instant.millisecond])

/-! ### The truncation loop -/

/-- What the loop returns is a fixpoint of one pass, no larger than what it started
from. -/
theorem truncateQuantity_eq_ok {referencePrice quantity : Decimal} {gapFilled : Bool}
    {rounds : ℕ} {result : Decimal × Option Decimal}
    (h : truncateQuantity order referencePrice gapFilled limits costModel rounds quantity =
      .ok result) :
    recomputedAt order referencePrice result.1 gapFilled limits costModel = .ok result ∧
      result.1 ≤ quantity := by
  induction rounds generalizing quantity with
  | zero => cases h
  | succ rounds ih =>
    unfold truncateQuantity at h
    rw [Except.bind_eq_ok] at h
    obtain ⟨recomputed, hrecomputed, h⟩ := h
    have hle : recomputed.1 ≤ quantity := by
      unfold recomputedAt at hrecomputed
      simp only [Except.bind_eq_ok] at hrecomputed
      obtain ⟨_, -, _, -, hrecomputed⟩ := hrecomputed
      cases hrecomputed
      exact min_le_left _ _
    -- the loop stops at a fixed point
    split at h
    · next hfix =>
      cases h
      rw [← hfix] at hrecomputed
      exact ⟨hrecomputed, hle⟩
    · obtain ⟨hfix, hle'⟩ := ih h
      exact ⟨hfix, hle'.trans hle⟩

/-- Without limits nothing is truncated. -/
theorem truncateQuantity_unlimited {referencePrice : Decimal} {gapFilled : Bool}
    {rounds : ℕ} {result : Decimal × Option Decimal}
    (hbudget : limits.riskBudget = none) (hmargin : limits.availableMargin = none)
    (h : truncateQuantity order referencePrice gapFilled limits costModel rounds
      order.remainingQuantity = .ok result) :
    result.1 = order.remainingQuantity := by
  cases rounds with
  | zero => cases h
  | succ rounds =>
    unfold truncateQuantity at h
    rw [Except.bind_eq_ok] at h
    obtain ⟨recomputed, hrecomputed, h⟩ := h
    have hfix : recomputed.1 = order.remainingQuantity := by
      unfold recomputedAt recomputeQtyAndStop riskCapped marginCapped at hrecomputed
      rw [hbudget, hmargin] at hrecomputed
      simp only [Except.bind_eq_ok] at hrecomputed
      obtain ⟨_, -, _, ⟨_, -, _, -, anchored, -, _, hrisk, _, hcapped, hpair⟩, hrecomputed⟩ :=
        hrecomputed
      cases hrisk
      cases hcapped
      cases hpair
      cases hrecomputed
      -- the remaining quantity is on the grid
      have hgrid : quantizeAmount order.remainingQuantity = order.remainingQuantity :=
        quantizeAmount_quantizeAmount _
      rw [hgrid]
      exact min_self _
    rw [if_pos hfix] at h
    cases h
    exact hfix

/-! ### Matches -/

/-- An order as it stands once its quantity has been truncated and its stop re-anchored. -/
def truncatedOrder (order : Order) (quantity : Decimal) (stopPrice : Option Decimal) : Order :=
  { order with
    quantity :=
      if quantity < order.remainingQuantity then quantizeAmount (order.filledQuantity + quantity)
      else order.quantity
    stopPrice := stopPrice.orElse fun _ => order.stopPrice }

/-- The limits an order is truncated under: exits are not limited by cash. -/
def effectiveLimits (order : Order) (limits : MatchLimits) : MatchLimits :=
  { limits with availableMargin := if order.isExit then none else limits.availableMargin }

/-- **A match of a market order** executes, at the open of the next bar, the quantity the
truncation loop leaves. -/
theorem matchOrder_eq_ok (hmarket : order.orderType = .market)
    (h : matchOrder candle history costModel .nextBar limits order = .ok fill order') :
    ∃ execution truncated, executionCandle candle history .nextBar = .ok execution ∧
      truncateQuantity order execution.2.1 false (effectiveLimits order limits) costModel
        truncationRounds order.remainingQuantity = .ok truncated ∧
      0 < truncated.1 ∧
      IsExecution (truncatedOrder order truncated.1 truncated.2) execution.2.1 truncated.1
        execution.2.2 costModel false none fill := by
  unfold matchOrder at h
  simp only [get_bind_apply, bind_eq_ok, raiseUnless_eq_ok, runPure_eq_ok] at h
  obtain ⟨_, _, ⟨-, rfl⟩, execution, _, ⟨hexecution, rfl⟩, triggered, _, ⟨htriggered, rfl⟩, h⟩ := h
  have htrigger : triggered = some (toDecimal execution.1.open, false) := by
    unfold triggerReference at htriggered
    rw [hmarket] at htriggered
    cases htriggered
    rfl
  subst htrigger
  simp only [hmarket, if_true, bind_eq_ok, runPure_eq_ok, raiseUnless_eq_ok, modify_bind_apply,
    get_bind_apply] at h
  obtain ⟨truncated, _, ⟨htruncated, rfl⟩, _, _, ⟨hpos, rfl⟩, _, _, ⟨-, rfl⟩, hfill⟩ := h
  exact ⟨execution, truncated, hexecution, htruncated, hpos, fillOrder_eq_ok hfill⟩

/-! ### Exits -/

/-- A fill that reduces a position. -/
structure IsExitFill (position : Position) (fill : Fill) : Prop where
  symbol_eq : fill.symbol = position.symbol
  positionSide_eq : fill.positionSide = position.side
  side_eq : fill.side = if position.side = .long then .sell else .buy
  reduceOnly_eq : fill.reduceOnly = true

variable {position : Position}

/-- **A synthetic exit** closes the whole position. -/
theorem fillSynthetic_eq_ok {orderTime timestamp : ℤ} {reason : ExitReason}
    {referencePrice : Decimal} {gapFilled : Bool} (hquantity : IsMoney position.quantity)
    (h : fillSynthetic position orderTime reason referencePrice timestamp costModel gapFilled =
      .ok fill) :
    ∃ order, syntheticExitOrder position orderTime reason = .ok order ∧
      IsExecution order referencePrice position.quantity timestamp costModel gapFilled
        (some reason) fill ∧
      IsExitFill position fill ∧ fill.quantity = position.quantity := by
  unfold fillSynthetic at h
  rw [Except.bind_eq_ok] at h
  obtain ⟨order, horder, h⟩ := h
  refine ⟨order, horder, ?_⟩
  cases hrun : fillOrder referencePrice position.quantity timestamp costModel gapFilled false
      (some reason) order with
  | error fault order' =>
    rw [hrun] at h
    cases h
  | ok filled order' =>
    rw [hrun] at h
    cases h
    have hexecution := fillOrder_eq_ok hrun
    -- the order was made from the position, so its fill is an exit of it
    unfold syntheticExitOrder at horder
    obtain ⟨rfl, -⟩ := Order.postInit_eq_ok horder
    refine ⟨hexecution, ?_, hexecution.quantity_eq.trans hquantity.quantizeAmount_eq⟩
    exact {
      symbol_eq := hexecution.symbol_eq
      positionSide_eq := hexecution.positionSide_eq
      side_eq := hexecution.side_eq
      reduceOnly_eq := hexecution.reduceOnly_eq }

/-- What a protective exit of a position is: a synthetic exit of one of three reasons, in a
candle after the entry. -/
structure IsTrigger (position : Position) (costModel : BacktestCostModel)
    (protection : Protection) (candle : Candle) (fill : Fill) : Prop where
  /-- The level the bar reached, with the reason, by precedence. -/
  trigger : ∃ level liquidationHit reason triggerLevel,
    liquidationLevel position costModel = .ok level ∧
    liquidationTriggered position.side level (adverseExtreme position.side candle) =
      .ok liquidationHit ∧
    triggerOf position.side candle protection level liquidationHit = some (reason, triggerLevel) ∧
    fillSynthetic position candle.openTime reason
      (protectionReference position.side candle triggerLevel reason).1 candle.closeTime costModel
      (protectionReference position.side candle triggerLevel reason).2 = .ok fill

theorem resolveCandle_eq_ok {protection : Protection}
    (h : resolveCandle position candle costModel protection = .ok (some fill)) :
    IsTrigger position costModel protection candle fill := by
  unfold resolveCandle at h
  simp only [Except.bind_eq_ok] at h
  obtain ⟨level, hlevel, hit, hhit, h⟩ := h
  cases htrigger : triggerOf position.side candle protection level hit with
  | none =>
    rw [htrigger] at h
    cases h
  | some trigger =>
    rw [htrigger] at h
    simp only [Except.bind_eq_ok] at h
    obtain ⟨filled, hfilled, h⟩ := h
    cases h
    exact ⟨level, hit, trigger.1, trigger.2, hlevel, hhit, htrigger, hfilled⟩

/-- **Triggers of one bar.** The bar opens after the entry. -/
theorem resolveTriggers_eq_ok {protection : Protection} {entryTime : Option ℤ}
    (h : resolveTriggers position [candle] costModel protection entryTime = .ok (some fill)) :
    position.side ≠ .both ∧ (∀ entry ∈ entryTime, entry < candle.openTime) ∧
      IsTrigger position costModel protection candle fill := by
  unfold resolveTriggers at h
  simp only [Except.bind_eq_ok, require_eq_ok, List.insertionSort_cons, List.insertionSort_nil,
    List.orderedInsert_nil] at h
  obtain ⟨-, hside, h⟩ := h
  -- one candle is sorted already; it must open after the entry
  unfold resolveSorted at h
  split at h
  · cases h
  next hafter =>
  rw [Except.bind_eq_ok] at h
  obtain ⟨resolved, hresolved, h⟩ := h
  refine ⟨hside, ?_, ?_⟩
  · intro entry hentry
    by_contra hle
    exact hafter ⟨entry, hentry, not_lt.1 hle⟩
  · cases resolved with
    | none => cases h
    | some filled =>
      cases h
      exact resolveCandle_eq_ok hresolved

section Protective

variable {protection : Protection}

/-- A protective exit closes the whole position at the close of its bar. -/
theorem IsTrigger.exit (hquantity : IsMoney position.quantity)
    (h : IsTrigger position costModel protection candle fill) :
    IsExitFill position fill ∧ fill.quantity = position.quantity ∧
      fill.timestamp = candle.closeTime ∧ fill.exitReason.isSome := by
  obtain ⟨_, _, reason, _, -, -, -, hfill⟩ := h.trigger
  obtain ⟨_, -, hexecution, hexit, hfull⟩ := fillSynthetic_eq_ok hquantity hfill
  exact ⟨hexit, hfull, hexecution.timestamp_eq, by rw [hexecution.exitReason_eq]; rfl⟩

/-- A liquidation forced by funding closes the whole position. -/
theorem liquidationFill_eq_ok {referencePrice : Decimal} {timestamp : ℤ}
    (hquantity : IsMoney position.quantity)
    (h : liquidationFill position referencePrice timestamp costModel = .ok fill) :
    ∃ order, syntheticExitOrder position timestamp .liquidation = .ok order ∧
      IsExecution order referencePrice position.quantity timestamp costModel false
        (some .liquidation) fill ∧
      IsExitFill position fill ∧ fill.quantity = position.quantity := by
  unfold liquidationFill at h
  simp only [Except.bind_eq_ok] at h
  obtain ⟨-, -, h⟩ := h
  exact fillSynthetic_eq_ok hquantity h

end Protective

end Matcher

/-! ### Submissions -/

section Submissions

variable {costModel : BacktestCostModel} {context : ExecutionContext} {request : OrderRequest}
  {sequence : ℕ} {fill : Fill}

/-- A submission normalizes the request and matches the order. -/
theorem submitOrder_eq_ok (h : submitOrder costModel context request sequence = .ok fill) :
    ∃ order order', context.decisionCandle ∈ context.history ∧
      normalizeOrder request (.broker sequence) = .ok order ∧
      Matcher.matchOrder context.decisionCandle context.history costModel .nextBar context.limits
        order = .ok fill order' := by
  unfold submitOrder at h
  simp only [Except.bind_eq_ok, require_eq_ok] at h
  obtain ⟨-, hmem, order, horder, h⟩ := h
  cases hrun : Matcher.matchOrder context.decisionCandle context.history costModel .nextBar
      context.limits order with
  | ok filled order' =>
    rw [hrun] at h
    cases h
    exact ⟨order, order', hmem, horder, hrun⟩
  | error fault order' =>
    rw [hrun] at h
    cases h

end Submissions
end TradingSystem
