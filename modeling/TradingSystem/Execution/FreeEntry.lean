import TradingSystem.Execution.Affordability

/-!
# Entries without costs

A fresh market order under a cost model that charges nothing executes completely at its
reference price, up to what the risk budget leaves and when the cash does not cap it. These are
the entries on which the caps are exact, so the necessity of a condition on fills is shown on
them.

* `freeCosts` — the cost model without fees and slippage.
* `exists_fill_of_free` — the match of a fresh order, for the quantity the risk budget leaves.
-/

namespace TradingSystem

open Logic Numeric

namespace Matcher

/-! ### The cost model -/

/-- The overrides that leave nothing but the maintenance margin rate. -/
def freeOverrides (maintenanceMarginRate : Decimal) : CostOverrides where
  futuresMakerFeeRate := some 0
  futuresTakerFeeRate := some 0
  spotTakerFeeRate := some 0
  maintenanceMarginRate := some maintenanceMarginRate
  fundingFallbackRate := some 0
  futuresEntrySlippageRate := some 0
  spotEntrySlippageRate := some 0
  exitSlippageRate := some 0

theorem freeOverrides_valid {mmr : Decimal} (h : 0 ≤ mmr) : (freeOverrides mmr).values.Valid where
  futuresMakerFeeRate_nonneg := le_rfl
  futuresTakerFeeRate_nonneg := le_rfl
  spotTakerFeeRate_nonneg := le_rfl
  maintenanceMarginRate_nonneg := h
  fundingFallbackRate_nonneg := le_rfl
  futuresEntrySlippageRate_nonneg := le_rfl
  spotEntrySlippageRate_nonneg := le_rfl
  exitSlippageRate_nonneg := le_rfl
  spreadRate_nonneg := le_rfl
  impactCoefficient_nonneg := le_rfl
  one_le_gapMultiplier := by norm_num [freeOverrides, CostOverrides.values]
  positionSizePct_pos := by norm_num [freeOverrides, CostOverrides.values]
  positionSizePct_le_one := by norm_num [freeOverrides, CostOverrides.values]
  liquidity_pos := by simp [freeOverrides, CostOverrides.values]

/-- The cost model without fees and slippage. -/
def freeCosts (marketType : MarketType) {mmr : Decimal} (h : 0 ≤ mmr) : BacktestCostModel where
  params := (freeOverrides mmr).values
  marketType := marketType
  useStandardSlippage := false
  valid := freeOverrides_valid h

/-- A cost model that charges nothing for an execution. -/
structure Free (costModel : BacktestCostModel) : Prop where
  slippage_eq : ∀ order gapFilled, costModel.slippage order gapFilled = 0
  feeRate_eq : costModel.feeRate = 0

theorem free_freeCosts (marketType : MarketType) {mmr : Decimal} (h : 0 ≤ mmr) :
    Free (freeCosts marketType h) where
  slippage_eq := by
    intro order gapFilled
    have hrate : effectiveRate ((freeCosts marketType h).slippageParams order.isExit
        order.marketType) order.quantity false = 0 := by
      unfold effectiveRate BacktestCostModel.slippageParams
      simp only [freeCosts, freeOverrides, CostOverrides.values, Bool.false_eq_true, if_false,
        Option.getD_some]
      cases order.isExit with
      | true => rfl
      | false => cases order.marketType <;> rfl
    cases gapFilled with
    | false => exact hrate
    | true =>
      change effectiveRate _ order.quantity false * _ = 0
      rw [hrate, zero_mul]
  feeRate_eq := by
    cases marketType with
    | spot => rfl
    | futures => rfl

/-! ### Fresh orders -/

/-- A market entry order that has not filled at all. -/
structure Fresh (order : Order) : Prop where
  orderType_eq : order.orderType = .market
  filledQuantity_eq : order.filledQuantity = 0
  averageFilledPrice_eq : order.averageFilledPrice = none
  status_eq : order.status = .new
  fee_eq : order.fee = 0
  isExit_eq : order.isExit = false
  symbol_ne : order.symbol ≠ ""
  quantity_money : IsMoney order.quantity
  quantity_pos : 0 < order.quantity

variable {order : Order} {costModel : BacktestCostModel} {limits : MatchLimits}
  {reference quantity : Decimal}

theorem Fresh.remainingQuantity_eq (h : Fresh order) :
    order.remainingQuantity = order.quantity := by
  unfold Order.remainingQuantity
  rw [h.filledQuantity_eq, sub_zero]
  exact h.quantity_money.quantizeAmount_eq

/-- Truncation keeps an order fresh. -/
theorem Fresh.truncatedOrder (h : Fresh order) (hmoney : IsMoney quantity) (hpos : 0 < quantity)
    (hle : quantity ≤ order.quantity) (stopPrice : Option Decimal) :
    Fresh (truncatedOrder order quantity stopPrice) ∧
      (Matcher.truncatedOrder order quantity stopPrice).quantity = quantity := by
  have hquantity : (Matcher.truncatedOrder order quantity stopPrice).quantity = quantity := by
    unfold Matcher.truncatedOrder
    rw [h.remainingQuantity_eq, h.filledQuantity_eq, zero_add, hmoney.quantizeAmount_eq]
    rcases hle.lt_or_eq with hlt | heq
    · rw [if_pos hlt]
    · rw [if_neg (not_lt.2 heq.ge), heq]
  exact ⟨⟨h.orderType_eq, h.filledQuantity_eq, h.averageFilledPrice_eq, h.status_eq, h.fee_eq,
    h.isExit_eq, h.symbol_ne, hquantity.symm ▸ hmoney, hquantity.symm ▸ hpos⟩, hquantity⟩

/-- The order that prices an execution passes its constructor. -/
theorem Fresh.exists_priced (h : Fresh order) (hmoney : IsMoney quantity) (hpos : 0 < quantity) :
    ∃ priced, { order with
      quantity := quantizeAmount (order.filledQuantity + quantity) }.postInit =
        (.ok priced : Except Fault Order) := by
  have hquantity : quantizeAmount (quantizeAmount (0 + quantity)) = quantity := by
    rw [zero_add, quantizeAmount_quantizeAmount]
    exact hmoney.quantizeAmount_eq
  have hexit := h.isExit_eq
  unfold Order.isExit at hexit
  rw [Bool.or_eq_false_iff] at hexit
  refine ⟨{ order with
    quantity := quantizeAmount (quantizeAmount (order.filledQuantity + quantity))
    filledQuantity := quantizeAmount order.filledQuantity
    fee := quantizeAmount order.fee
    price := order.price.map quantizePrice
    averageFilledPrice := order.averageFilledPrice.map quantizePrice
    stopPrice := order.stopPrice.map quantizePrice }, ?_⟩
  -- the checks of the order, one by one: nothing of it is filled yet
  unfold Order.postInit
  simp only [Except.bind_eq_ok, require_eq_ok, h.filledQuantity_eq, h.fee_eq, hquantity,
    quantizeAmount_zero]
  refine ⟨⟨⟩, hpos, ⟨⟩, le_rfl, ⟨⟩, hpos.le, ⟨⟩, le_rfl, ⟨⟩, ?_, ⟨⟩, ?_, rfl⟩
  · rw [hexit.1]
    exact fun hboth => absurd hboth.1 Bool.false_ne_true
  · unfold Order.validateFillStatus
    simp only [Except.bind_eq_ok, require_eq_ok, h.status_eq, h.averageFilledPrice_eq]
    exact ⟨⟨⟩, fun _ => rfl, ⟨⟩, fun hne => absurd rfl hne, ⟨⟩,
      fun hpartial => absurd hpartial (by decide), ⟨⟩, fun hfull => absurd hfull (by decide), ⟨⟩,
      fun _ => hpos.ne, fun _ => trivial⟩

/-- Without slippage the execution price is the reference price. -/
theorem executionPrice_of_free (gapFilled : Bool) (hfree : Free costModel) (h : Fresh order)
    (hmoney : IsMoney reference) (hpos : 0 < reference) (hquantity : IsMoney quantity)
    (hquantity_pos : 0 < quantity) :
    executionPrice order reference quantity costModel gapFilled =
      .ok ⟨reference, adverse order.side 0⟩ := by
  obtain ⟨priced, hpriced⟩ := h.exists_priced hquantity hquantity_pos
  have hnotional : 0 ≤ quantizeAmount (reference * quantity) :=
    quantizeAmount_nonneg (mul_nonneg hpos.le hquantity_pos.le)
  have hslippage : applySlippage (quantizeAmount (reference * quantity)) order.side costModel
      priced gapFilled = .ok (adverse order.side 0) := by
    unfold applySlippage
    simp only [Except.bind_eq_ok, require_eq_ok, hfree.slippage_eq, mul_zero, quantizeAmount_zero]
    refine ⟨⟨⟩, hnotional, ⟨⟩, le_rfl, ?_⟩
    cases order.side <;> rfl
  -- no slippage, so the price is the reference
  have hprice : quantizePrice (reference + adverse order.side 0 / quantity) = reference := by
    have hzero : adverse order.side 0 = 0 := by
      cases order.side with
      | buy => rfl
      | sell => exact neg_zero
    rw [hzero, zero_div, add_zero]
    exact hmoney.quantizeAmount_eq
  unfold executionPrice
  simp only [Except.bind_eq_ok]
  refine ⟨priced, hpriced, _, hslippage, ⟨⟩, ?_, ?_⟩
  · rw [require_eq_ok, hprice]
    exact hpos
  · rw [hprice]
    rfl

/-- What a fill asks of its cash is its margin alone. -/
theorem cashRequirement_of_free {fillPrice quantity : Decimal} {leverage : ℕ} :
    cashRequirement fillPrice quantity 0 leverage =
      quantizeAmount (quantizeAmount (fillPrice * quantity) / leverage) := by
  unfold cashRequirement
  simp only [mul_zero, quantizeAmount_zero, add_zero, quantizeAmount_quantizeAmount]

/-! ### The match -/

/-- An affordable quantity is not capped by the cash. -/
theorem marginCapped_of_affordable {available : Decimal} {quantity fillPrice rate : Decimal}
    {leverage : ℕ} (hprice : 0 < fillPrice)
    (hfee : costModel.fee order.symbol = .ok rate) (hmoney : IsMoney quantity)
    (hpos : 0 < quantity) (havailable : 0 ≤ available)
    (h : Affordable order fillPrice quantity available costModel leverage) :
    marginCapped order fillPrice quantity (some available) costModel leverage = .ok quantity := by
  obtain ⟨units, hunits, hlast⟩ := affordableEntryQuantity_units hprice.le hfee
  have hmem : quantity ∈ AffordableMultiples order fillPrice quantity available costModel
      leverage := ⟨hmoney, hpos, le_rfl, h⟩
  have hall := isGreatest_of_isLast hprice.le hfee hlast ⟨quantity, hmem⟩
  have heq : qAmount * (units : ℚ) = quantity := le_antisymm hall.1.2.2.1 (hall.2 hmem)
  unfold marginCapped
  simp only [Except.bind_eq_ok, require_eq_ok]
  refine ⟨⟨⟩, havailable, _, hunits, ?_⟩
  rw [heq, min_self]
  rfl

/-- One pass leaves what the risk budget leaves. -/
theorem recomputedAt_of_free (gapFilled : Bool) (hfree : Free costModel) (h : Fresh order)
    (hmoney : IsMoney reference) (hpos : 0 < reference) (hleverage : 0 < limits.leverage)
    {anchored : Option (Decimal × Decimal)} {capped : Decimal} (hcapped : IsMoney capped)
    (hanchored : reanchoredStop order reference = .ok anchored)
    (hrisk : riskCapped order.quantity limits.riskBudget (anchored.map Prod.fst) = .ok capped)
    (hmargin : marginCapped order reference capped limits.availableMargin costModel
      limits.leverage = .ok capped) (hquantity : IsMoney quantity) (hquantity_pos : 0 < quantity) :
    recomputedAt order reference quantity gapFilled limits costModel =
      .ok (min quantity capped, anchored.map Prod.snd) := by
  have hrecompute : recomputeQtyAndStop order reference limits costModel =
      .ok (capped, anchored.map Prod.snd) := by
    unfold recomputeQtyAndStop
    simp only [Except.bind_eq_ok, require_eq_ok, h.remainingQuantity_eq]
    refine ⟨⟨⟩, hpos, ⟨⟩, hleverage, anchored, hanchored, _, hrisk, _, hmargin, ?_⟩
    rw [hcapped.quantizeAmount_eq]
    rfl
  unfold recomputedAt
  simp only [Except.bind_eq_ok]
  exact ⟨_, executionPrice_of_free gapFilled hfree h hmoney hpos hquantity hquantity_pos, _,
    hrecompute, rfl⟩

/-- The loop ends with what the risk budget leaves, after two rounds at most. -/
theorem truncateQuantity_of_free (gapFilled : Bool) (hfree : Free costModel)
    (h : Fresh order) (hmoney : IsMoney reference) (hpos : 0 < reference)
    (hleverage : 0 < limits.leverage) {anchored : Option (Decimal × Decimal)} {capped : Decimal}
    (hcapped : IsMoney capped) (hcapped_pos : 0 < capped) (hle : capped ≤ order.quantity)
    (hanchored : reanchoredStop order reference = .ok anchored)
    (hrisk : riskCapped order.quantity limits.riskBudget (anchored.map Prod.fst) = .ok capped)
    (hmargin : marginCapped order reference capped limits.availableMargin costModel
      limits.leverage = .ok capped) :
    truncateQuantity order reference gapFilled limits costModel truncationRounds order.quantity =
      .ok (capped, anchored.map Prod.snd) := by
  have hpass : ∀ quantity, IsMoney quantity → 0 < quantity → capped ≤ quantity →
      recomputedAt order reference quantity gapFilled limits costModel =
        .ok (capped, anchored.map Prod.snd) := by
    intro quantity hquantity hquantity_pos hcap
    rw [recomputedAt_of_free gapFilled hfree h hmoney hpos hleverage hcapped hanchored hrisk
      hmargin hquantity hquantity_pos, min_eq_right hcap]
  change truncateQuantity order reference gapFilled limits costModel (30 + 1 + 1) order.quantity = _
  unfold truncateQuantity
  rw [Except.bind_eq_ok]
  refine ⟨_, hpass _ h.quantity_money h.quantity_pos hle, ?_⟩
  by_cases heq : capped = order.quantity
  · rw [if_pos heq]
    rfl
  · -- the second round starts from what is left
    rw [if_neg heq]
    unfold truncateQuantity
    rw [Except.bind_eq_ok]
    refine ⟨_, hpass _ hcapped hcapped_pos le_rfl, ?_⟩
    rw [if_pos rfl]
    rfl

/-- A fresh order is filled at its reference price. -/
theorem exists_fillOrder_of_free (timestamp : ℤ) (gapFilled qtyTruncated : Bool)
    (exitReason : Option ExitReason) (hfree : Free costModel) (h : Fresh order)
    (hmoney : IsMoney reference) (hpos : 0 < reference) :
    ∃ fill order', fillOrder reference order.quantity timestamp costModel gapFilled qtyTruncated
      exitReason order = .ok fill order' := by
  have hquantity := h.quantity_money.quantizeAmount_eq
  have hrate : costModel.fee order.symbol = .ok 0 := by
    unfold BacktestCostModel.fee
    rw [hfree.feeRate_eq, Except.bind_eq_ok]
    exact ⟨⟨⟩, require_eq_ok.2 h.symbol_ne, rfl⟩
  -- without a rate the fee is zero, and the average of one fill is its price
  have hfee : feeCalc (quantizeAmount (reference * order.quantity)) 0 = .ok 0 := by
    rw [feeCalc_of_nonneg (quantizeAmount_nonneg (mul_nonneg hpos.le h.quantity_pos.le)) le_rfl,
      mul_zero, quantizeAmount_zero]
  have haverage : quantizePrice ((0 + reference * order.quantity) /
      quantizeAmount (order.filledQuantity + order.quantity)) = reference := by
    rw [h.filledQuantity_eq, zero_add, zero_add, hquantity,
      mul_div_assoc, div_self h.quantity_pos.ne', mul_one]
    exact hmoney.quantizeAmount_eq
  -- the order passes every check of its own on the way to filled
  have hmark : ∃ order', Order.markAsFilled order.quantity reference order = .ok ⟨⟩ order' := by
    unfold Order.markAsFilled Order.transitionTo Order.checkFillStatus
    simp only [get_bind_apply, quantizePrice_eq, hquantity, hmoney.quantizeAmount_eq]
    refine ⟨{ order with
      status := .filled
      filledQuantity := order.quantity
      averageFilledPrice := some reference }, ?_⟩
    simp only [bind_eq_ok, raiseUnless_eq_ok, get_bind_apply, set_apply, modify_bind_apply,
      runPure_eq_ok]
    refine ⟨⟨⟩, _, ⟨hquantity, rfl⟩, ⟨⟩, _, ⟨?_, rfl⟩, ⟨⟩, _, raiseUnless_eq_ok.2 ⟨?_, rfl⟩, ⟨⟩, _,
      ⟨⟨⟩, _, ⟨?_, rfl⟩, rfl⟩, ?_⟩
    · rw [h.filledQuantity_eq, hquantity]
      exact h.quantity_pos.le
    · rw [hmoney.quantizeAmount_eq]
      exact hpos
    · rw [h.status_eq]
      decide
    · unfold Order.validateFillStatus
      simp only [Except.bind_eq_ok, require_eq_ok]
      have hne := h.quantity_pos.ne'
      exact ⟨⟨⟨⟩, fun hzero => absurd hzero hne, ⟨⟩, fun _ => ⟨reference, rfl, hpos⟩, ⟨⟩,
        fun hpartial => absurd hpartial (by decide), ⟨⟩, fun _ => trivial, ⟨⟩,
        fun hfilled => absurd rfl hfilled, by simp⟩, trivial⟩
  obtain ⟨filled, hmark⟩ := hmark
  have hzero : |adverse order.side 0| = 0 := by rw [abs_adverse, abs_zero]
  -- so does the fill, whose slippage is zero
  have hcreate : ∃ fill, Fill.create order.id order.symbol order.side order.positionSide reference
      reference order.quantity 0 |adverse order.side 0| timestamp order.isExit exitReason gapFilled
      qtyTruncated = .ok fill := by
    unfold Fill.create
    simp only [quantizePrice_eq, hmoney.quantizeAmount_eq, hquantity, hzero, quantizeAmount_zero]
    rw [dif_pos ⟨hpos, hpos⟩, dif_pos h.quantity_pos, dif_pos ⟨le_rfl, le_rfl⟩]
    exact ⟨_, rfl⟩
  obtain ⟨fill, hcreate⟩ := hcreate
  refine ⟨fill, { filled with fee := quantizeAmount (filled.fee + 0) }, ?_⟩
  unfold fillOrder
  simp only [get_bind_apply, bind_eq_ok, runPure_eq_ok, modify_bind_apply]
  refine ⟨_, _, ⟨executionPrice_of_free gapFilled hfree h hmoney hpos
    h.quantity_money h.quantity_pos, rfl⟩, 0, _, ⟨hrate, rfl⟩, 0, _,
    ⟨hfee, rfl⟩, ⟨⟩, filled, ?_, hcreate, rfl⟩
  rw [h.averageFilledPrice_eq]
  simp only [haverage]
  exact hmark

/-- The risk cap does not enlarge a quantity. -/
theorem riskCapped_le {riskBudget stopDistance : Option Decimal} {capped : Decimal}
    (h : riskCapped quantity riskBudget stopDistance = .ok capped) : capped ≤ quantity := by
  unfold riskCapped at h
  cases riskBudget with
  | none =>
    cases h
    exact le_rfl
  | some riskBudget =>
    simp only [Except.bind_eq_ok] at h
    obtain ⟨-, -, h⟩ := h
    cases stopDistance with
    | none => cases h
    | some stopDistance =>
      cases h
      exact min_le_left _ _

/-- Where an order executes, its reference is on the grid of prices. -/
theorem executionCandle_isMoney {candle : Candle} {history : List Candle} {fillTiming : FillTiming}
    {execution : Candle × Decimal × ℤ}
    (h : executionCandle candle history fillTiming = .ok execution) : IsMoney execution.2.1 := by
  cases fillTiming with
  | immediate =>
    cases h
    exact isMoney_toDecimal _
  | nextBar =>
    rw [(executionCandle_eq_ok h).2.2.2.1]
    exact isMoney_toDecimal _

/-- **A fresh order is filled** at the price it is referred to, for the quantity that the risk
budget leaves, when its margin fits the cash. -/
theorem exists_fill_of_free (candle : Candle) (history : List Candle) (fillTiming : FillTiming)
    (limits : MatchLimits) {execution : Candle × Decimal × ℤ} {cash capped : Decimal}
    {anchored : Option (Decimal × Decimal)} (hfree : Free costModel) (h : Fresh order)
    (hexecution : executionCandle candle history fillTiming = .ok execution)
    (hpos : 0 < execution.2.1) (hleverage : 0 < limits.leverage)
    (hanchored : reanchoredStop order execution.2.1 = .ok anchored)
    (hrisk : riskCapped order.quantity limits.riskBudget (anchored.map Prod.fst) = .ok capped)
    (hcapped : IsMoney capped) (hcapped_pos : 0 < capped)
    (hcash : limits.availableMargin = some cash) (hnonneg : 0 ≤ cash)
    (hfits : quantizeAmount (quantizeAmount (execution.2.1 * capped) / limits.leverage) ≤ cash) :
    ∃ fill order', matchOrder candle history costModel fillTiming limits order = .ok fill order' ∧
      fill.referencePrice = execution.2.1 ∧ fill.price = execution.2.1 ∧
      fill.quantity = capped := by
  have hmoney := executionCandle_isMoney hexecution
  have hle := riskCapped_le hrisk
  have hrate : costModel.fee order.symbol = .ok 0 := by
    unfold BacktestCostModel.fee
    rw [hfree.feeRate_eq, Except.bind_eq_ok]
    exact ⟨⟨⟩, require_eq_ok.2 h.symbol_ne, rfl⟩
  have hnotional : 0 ≤ execution.2.1 * capped := mul_nonneg hpos.le hcapped_pos.le
  have haffordable : ∀ placed : Order, placed.symbol = order.symbol →
      entryCashRequirement placed execution.2.1 capped costModel limits.leverage =
        .ok (cashRequirement execution.2.1 capped 0 limits.leverage) := by
    intro placed hsymbol
    exact entryCashRequirement_of_nonneg (by rw [hsymbol]; exact hrate) hnotional
  have hmargin : marginCapped order execution.2.1 capped limits.availableMargin costModel
      limits.leverage = .ok capped := by
    rw [hcash]
    refine marginCapped_of_affordable hpos hrate hcapped hcapped_pos hnonneg
      ⟨_, haffordable order rfl, ?_⟩
    rw [cashRequirement_of_free]
    exact hfits
  have htruncated := truncateQuantity_of_free false hfree h hmoney hpos hleverage hcapped
    hcapped_pos hle hanchored hrisk hmargin
  -- the order as it stands when it is filled
  obtain ⟨hplaced, hquantity⟩ := h.truncatedOrder hcapped hcapped_pos hle (anchored.map Prod.snd)
  obtain ⟨fill, order', hfill⟩ := exists_fillOrder_of_free execution.2.2 false
    (decide (capped < order.quantity)) none hfree hplaced hmoney hpos
  have hprice := executionPrice_of_free false hfree hplaced hmoney hpos hcapped hcapped_pos
  rw [hquantity] at hfill
  refine ⟨fill, order', ?_, ?_⟩
  · unfold matchOrder
    simp only [get_bind_apply, bind_eq_ok, raiseUnless_eq_ok, runPure_eq_ok]
    refine ⟨⟨⟩, _, ⟨by rw [h.status_eq]; rfl, rfl⟩, execution, _, ⟨hexecution, rfl⟩,
      some (toDecimal execution.1.open, false), _, ⟨?_, rfl⟩, ?_⟩
    · unfold triggerReference
      rw [h.orderType_eq]
    simp only [h.orderType_eq, if_true, h.isExit_eq, Bool.false_eq_true, if_false, bind_eq_ok,
      runPure_eq_ok, raiseUnless_eq_ok, modify_bind_apply, get_bind_apply]
    refine ⟨_, _, ⟨by rw [h.remainingQuantity_eq]; exact htruncated, rfl⟩, ⟨⟩, _,
      ⟨hcapped_pos, rfl⟩, ⟨⟩, _, ⟨?_, rfl⟩, ?_⟩
    · rw [hcash]
      unfold checkAffordable
      simp only [Except.bind_eq_ok, require_eq_ok]
      refine ⟨_, hprice, _, haffordable _ rfl, ?_⟩
      rw [cashRequirement_of_free]
      exact hfits
    · rw [h.remainingQuantity_eq]
      have hsame := hfill
      unfold truncatedOrder at hsame
      rw [h.remainingQuantity_eq] at hsame
      exact hsame
  · have hexecuted := fillOrder_eq_ok hfill
    refine ⟨hexecuted.referencePrice_eq.trans hmoney.quantizeAmount_eq, ?_,
      hexecuted.quantity_eq.trans hcapped.quantizeAmount_eq⟩
    exact hexecuted.price_eq.trans (executionPrice_eq_ok hprice).1.symm

end Matcher
end TradingSystem
