import TradingSystem.Engine.EntryAcceptance
import TradingSystem.Engine.EntryOrder

/-!
# The risk cap at execution

An entry is sized by the distance from the signal's price to the signal's stop, and filled at the
open of the next bar. The matcher re-anchors the stop of the order to the fill, but the stop the
run keeps afterwards, and the one the initial risk of the trade is computed from, is the stop of
the signal.

* `RiskEntry` — what is known of an entry before it executes.
* `RiskCapped` — every fill of the entry risks at most its budget, against the stop that is kept.
* `riskCapped_iff` — that is so exactly when the largest quantity the sizing allows does, at the
  open of the next bar.
* `not_riskCapped_of_gap` — an open that gaps away from the stop.
-/

namespace TradingSystem

open Numeric Logic

/-! ### Entries with a risk budget -/

/-- A risk-based entry before it executes. The stop is on the losing side of the price. -/
structure RiskEntry where
  price : Binary64
  stop : Binary64
  side : PositionSide
  quantity : Binary64
  budget : Decimal
  price_pos : 0 < toDecimal price
  stop_pos : Binary64.zero < stop
  budget_pos : 0 < budget
  budget_money : IsMoney budget
  onLosingSide : (side = .long ∧ toDecimal stop < toDecimal price) ∨
    (side = .short ∧ toDecimal price < toDecimal stop)

namespace RiskEntry

variable (entry : RiskEntry)

/-- The distance the entry was sized by. -/
def distance : Decimal := |toDecimal entry.price - toDecimal entry.stop|

/-- The largest quantity the order and the budget allow. -/
def largest : Decimal :=
  min (toDecimal entry.quantity) (quantizeAmount (entry.budget / entry.distance))

/-- The largest quantity risks at most the budget between a reference price and the stop. -/
def Fits (reference : Decimal) : Prop :=
  entry.largest * |reference - toDecimal entry.stop| ≤ entry.budget

theorem distance_pos : 0 < entry.distance := by
  unfold distance
  rw [abs_pos, sub_ne_zero]
  rcases entry.onLosingSide with ⟨-, hlt⟩ | ⟨-, hlt⟩
  · exact hlt.ne'
  · exact hlt.ne

theorem isMoney_largest : IsMoney entry.largest := by
  unfold largest
  rcases min_choice (toDecimal entry.quantity) (quantizeAmount (entry.budget / entry.distance))
    with h | h
  · rw [h]
    exact isMoney_toDecimal _
  · rw [h]
    exact isMoney_quantizeAmount _

theorem side_ne_both : entry.side ≠ .both := by
  rcases entry.onLosingSide with ⟨hside, -⟩ | ⟨hside, -⟩ <;> rw [hside] <;> decide

theorem float_price_pos : Binary64.zero < entry.price := by
  by_contra hle
  have hzero : toDecimal Binary64.zero = 0 := by decide +kernel
  have hfloat : entry.price ≤ Binary64.zero := Binary64.le_def.2 (not_lt.1 hle)
  have hmono := toDecimal_mono hfloat
  exact absurd entry.price_pos (not_lt.2 (hmono.trans_eq hzero))

end RiskEntry

/-! ### The caps of the matcher -/

namespace Matcher

variable {entry : RiskEntry} {order : Order} {limits : MatchLimits} {costModel : BacktestCostModel}
  {fillPrice : Decimal}

/-- The order carries the price and the stop of the entry. -/
structure Carries (order : Order) (entry : RiskEntry) : Prop where
  price_eq : order.price = some (toDecimal entry.price)
  stopPrice_eq : order.stopPrice = some (toDecimal entry.stop)
  positionSide_eq : order.positionSide = entry.side

/-- The distance is taken between the price and the stop of the order. -/
theorem Carries.exists_reanchored (h : Carries order entry) (fillPrice : Decimal) :
    ∃ stopPrice, reanchoredStop order fillPrice = .ok (some (entry.distance, stopPrice)) := by
  have hreference : referenceOf order fillPrice = toDecimal entry.price := by
    unfold referenceOf
    rw [h.price_eq]
    exact if_neg entry.price_pos.ne'
  unfold reanchoredStop
  rw [h.stopPrice_eq, h.positionSide_eq]
  simp only [hreference]
  have hdistance : |toDecimal entry.price - toDecimal entry.stop| ≠ 0 := entry.distance_pos.ne'
  rcases entry.onLosingSide with ⟨hside, -⟩ | ⟨hside, -⟩
  · refine ⟨quantizePrice (fillPrice - entry.distance), ?_⟩
    simp only [hside, Except.bind_eq_ok, require_eq_ok]
    exact ⟨⟨⟩, hdistance, rfl⟩
  · refine ⟨quantizePrice (fillPrice + entry.distance), ?_⟩
    simp only [hside, Except.bind_eq_ok, require_eq_ok]
    exact ⟨⟨⟩, hdistance, rfl⟩

theorem marginCapped_le {quantity capped : Decimal} {available : Option Decimal} {leverage : ℕ}
    (h : marginCapped order fillPrice quantity available costModel leverage = .ok capped) :
    capped ≤ quantity := by
  unfold marginCapped at h
  cases available with
  | none =>
    cases h
    exact le_rfl
  | some available =>
    simp only [Except.bind_eq_ok] at h
    obtain ⟨-, -, _, -, h⟩ := h
    cases h
    exact min_le_left _ _

/-- **One pass leaves no more than the budget buys.** -/
theorem recomputeQtyAndStop_le (h : Carries order entry)
    (hbudget : limits.riskBudget = some entry.budget) {recomputed : Decimal × Option Decimal}
    (hrun : recomputeQtyAndStop order fillPrice limits costModel = .ok recomputed) :
    recomputed.1 ≤ quantizeAmount (entry.budget / entry.distance) := by
  unfold recomputeQtyAndStop at hrun
  simp only [Except.bind_eq_ok] at hrun
  obtain ⟨-, -, -, -, anchored, hanchored, capped, hcapped, capped', hmargin, hrun⟩ := hrun
  cases hrun
  obtain ⟨stopPrice, hstop⟩ := h.exists_reanchored fillPrice
  rw [hstop] at hanchored
  cases hanchored
  unfold riskCapped at hcapped
  rw [hbudget] at hcapped
  simp only [Option.map_some, Except.bind_eq_ok] at hcapped
  obtain ⟨-, -, hcapped⟩ := hcapped
  cases hcapped
  have hle : capped' ≤ quantizeAmount (entry.budget / entry.distance) :=
    (marginCapped_le hmargin).trans (min_le_right _ _)
  calc quantizeAmount capped'
      ≤ quantizeAmount (quantizeAmount (entry.budget / entry.distance)) := quantizeAmount_mono hle
    _ = quantizeAmount (entry.budget / entry.distance) := quantizeAmount_quantizeAmount _

end Matcher

namespace Engine

variable {input : RunInput} {s s' : EngineState} {signal : TradingSignal} {entry : RiskEntry}
  {fill : Fill} {decisionId candidateId : Option ℕ} {sequence : ℕ}

/-! ### What a filled entry risks -/

/-- The signal of an entry. -/
structure Signals (signal : TradingSignal) (entry : RiskEntry) : Prop where
  price_eq : signal.price = entry.price
  stopLoss_eq : signal.stopLoss = some entry.stop

theorem Signals.carries (h : Signals signal entry) :
    Matcher.Carries (entryOrder signal entry.side entry.quantity sequence) entry where
  price_eq := congrArg (fun price => some (toDecimal price)) h.price_eq
  stopPrice_eq := by
    change signal.stopLoss.map toDecimal = _
    rw [h.stopLoss_eq]
    rfl
  positionSide_eq := rfl

/-- The stop kept after an entry, and the risk recorded for its trade. -/
theorem applyFill_starts (hflat : Flat input s) (hentry : fill.reduceOnly = false)
    (h : applyFill input fill decisionId (some signal) candidateId s = .ok ⟨⟩ s') :
    s'.protection = protectionOf signal ∧
      ∃ active, s'.activeTrade = some active ∧ active.r0 = initialRisk fill signal := by
  obtain ⟨held, executionId, s₁, -, hlogs, hbranch⟩ := applyFill_eq_ok h
  rw [hentry, if_neg Bool.false_ne_true] at hbranch
  obtain ⟨_, _, _, -, -, -, -, -, hcase⟩ := applyEntry_eq_ok hbranch.2
  rcases hcase with ⟨active, hactive, -⟩ | ⟨-, origin, tradeId, horigin, hstarted⟩
  · rw [hlogs.activeTrade_eq, hflat.activeTrade_eq] at hactive
    cases hactive
  · cases horigin
    exact ⟨hstarted.protection_eq, _, hstarted.activeTrade_eq, rfl⟩

/-- **Every fill of an entry risks at most its budget**: whatever the costs, the cash and the
leverage, the filled quantity times the distance between the reference price of the fill and the
stop kept afterwards, and the risk recorded for the trade. -/
def RiskCapped (entry : RiskEntry) (candle : Candle) (history : List Candle) : Prop :=
  ∀ (input : RunInput) (s s' : EngineState) (signal : TradingSignal)
    (limits : Matcher.MatchLimits) (sequence : ℕ) (fill : Fill) (order' : Order)
    (decisionId candidateId : Option ℕ),
    Signals signal entry → signal.symbol = input.config.symbol → Flat input s →
    limits.riskBudget = some entry.budget → limits.availableMargin = some s.cash →
    limits.leverage = leverageOf (some signal) →
    Matcher.matchOrder candle history input.costModel .nextBar limits
      (entryOrder signal entry.side entry.quantity sequence) = .ok fill order' →
    applyFill input fill decisionId (some signal) candidateId s = .ok ⟨⟩ s' →
    ∃ stop active r0, s'.protection.stopPrice = some stop ∧ s'.activeTrade = some active ∧
      active.r0 = some r0 ∧ fill.quantity * |fill.referencePrice - stop| ≤ entry.budget ∧
      r0 ≤ entry.budget

/-- What is filled is at most the largest quantity, at the open of the next bar. -/
theorem filled_le_largest {candle : Candle} {history : List Candle} {limits : Matcher.MatchLimits}
    {costModel : BacktestCostModel} {order' : Order} {execution : Candle × Decimal × ℤ}
    (hsignals : Signals signal entry) (hbudget : limits.riskBudget = some entry.budget)
    (hexecution : Matcher.executionCandle candle history .nextBar = .ok execution)
    (h : Matcher.matchOrder candle history costModel .nextBar limits
      (entryOrder signal entry.side entry.quantity sequence) = .ok fill order') :
    fill.quantity ≤ entry.largest ∧ fill.referencePrice = execution.2.1 ∧
      fill.reduceOnly = false := by
  obtain ⟨execution', truncated, hexecution', htruncated, -, hfill⟩ :=
    Matcher.matchOrder_eq_ok rfl h
  rw [hexecution] at hexecution'
  cases hexecution'
  rw [entryOrder_remainingQuantity] at htruncated
  obtain ⟨hfix, hle⟩ := Matcher.truncateQuantity_eq_ok htruncated
  -- the truncated quantity is a fixed point of the caps, so each of them bounds it
  have hcap : truncated.1 ≤ quantizeAmount (entry.budget / entry.distance) := by
    unfold Matcher.recomputedAt at hfix
    simp only [Except.bind_eq_ok] at hfix
    obtain ⟨_, -, recomputed, hrecomputed, hfix⟩ := hfix
    have hmin : min truncated.1 recomputed.1 = truncated.1 :=
      congrArg Prod.fst (Except.ok.inj hfix)
    exact (min_eq_left_iff.1 hmin).trans
      (Matcher.recomputeQtyAndStop_le hsignals.carries hbudget hrecomputed)
  refine ⟨?_, ?_, hfill.reduceOnly_eq⟩
  · rw [hfill.quantity_eq]
    calc quantizeAmount truncated.1
        ≤ quantizeAmount entry.largest := quantizeAmount_mono (le_min hle hcap)
      _ = entry.largest := entry.isMoney_largest.quantizeAmount_eq
  · rw [hfill.referencePrice_eq]
    exact (Matcher.executionCandle_isMoney hexecution).quantizeAmount_eq

/-- An entry whose largest quantity fits is capped. -/
theorem riskCapped_of_fits {candle : Candle} {history : List Candle}
    {execution : Candle × Decimal × ℤ}
    (hexecution : Matcher.executionCandle candle history .nextBar = .ok execution)
    (h : entry.Fits execution.2.1) : RiskCapped entry candle history := by
  intro input s s' signal limits sequence fill order' decisionId candidateId hsignals _ hflat
    hbudget _ _ hmatch hrun
  obtain ⟨hle, hreference, hentry⟩ := filled_le_largest hsignals hbudget hexecution hmatch
  obtain ⟨hprotection, active, hactive, hrisk⟩ := applyFill_starts hflat hentry hrun
  -- the stop is measured from the reference price the fill was made at
  have hcapped : fill.quantity * |fill.referencePrice - toDecimal entry.stop| ≤ entry.budget := by
    rw [hreference]
    exact (mul_le_mul_of_nonneg_right hle (abs_nonneg _)).trans h
  refine ⟨toDecimal entry.stop, active,
    quantizeAmount (|fill.referencePrice - toDecimal entry.stop| * fill.quantity), ?_, hactive, ?_,
    hcapped, ?_⟩
  · rw [hprotection]
    unfold protectionOf
    rw [hsignals.stopLoss_eq]
    rfl
  · rw [hrisk]
    unfold initialRisk
    rw [hsignals.stopLoss_eq]
    rfl
  · -- the budget is on the grid, so rounding does not pass it
    rw [mul_comm]
    calc quantizeAmount (fill.quantity * |fill.referencePrice - toDecimal entry.stop|)
        ≤ quantizeAmount entry.budget := quantizeAmount_mono hcapped
      _ = entry.budget := entry.budget_money.quantizeAmount_eq

/-! ### An entry that is filled completely -/

/-- The signal of an entry without leverage. -/
def signalOf (entry : RiskEntry) : TradingSignal :=
  hourlySignal .spot ⟨entry.price, entry.float_price_pos⟩ (some ⟨entry.stop, entry.stop_pos⟩) none
    none none noLeverage_pos

theorem signals_signalOf (entry : RiskEntry) : Signals (signalOf entry) entry := ⟨rfl, rfl⟩

/-- Without costs, and with the cash for its notional, the largest quantity is filled and
accepted. -/
theorem exists_largest_fill {candle : Candle} {history : List Candle}
    {execution : Candle × Decimal × ℤ}
    (hexecution : Matcher.executionCandle candle history .nextBar = .ok execution)
    (hreference : 0 < execution.2.1) (hpos : 0 < entry.largest) :
    ∃ fill order' s', Matcher.matchOrder candle history
        (Matcher.freeCosts .spot (le_refl (0 : Decimal))) .nextBar
        ⟨some entry.budget, some (quantizeAmount (execution.2.1 * entry.largest)), 1⟩
        (entryOrder (signalOf entry) entry.side entry.quantity 0) = .ok fill order' ∧
      applyFill (freeRun .spot (le_refl 0)) fill none (some (signalOf entry)) none
        (initialState (freeRun .spot (le_refl 0))
          (quantizeAmount (execution.2.1 * entry.largest))) = .ok ⟨⟩ s' ∧
      fill.quantity = entry.largest := by
  have hquantity : 0 < toDecimal entry.quantity := hpos.trans_le (min_le_left _ _)
  have hcash : 0 ≤ quantizeAmount (execution.2.1 * entry.largest) :=
    quantizeAmount_nonneg (mul_nonneg hreference.le hpos.le)
  have hfresh : Matcher.Fresh (entryOrder (signalOf entry) entry.side entry.quantity 0) :=
    ⟨rfl, rfl, rfl, rfl, rfl, rfl, btcusdt_ne, isMoney_toDecimal _, hquantity⟩
  obtain ⟨stopPrice, hanchored⟩ :=
    (signals_signalOf entry).carries.exists_reanchored execution.2.1
  have hrisk : Matcher.riskCapped (toDecimal entry.quantity) (some entry.budget)
      (some entry.distance) = .ok entry.largest := by
    unfold Matcher.riskCapped
    simp only [Except.bind_eq_ok, require_eq_ok]
    exact ⟨⟨⟩, entry.budget_pos, rfl⟩
  obtain ⟨fill, order', hmatch, -, hprice, hfilled⟩ := Matcher.exists_fill_of_free candle history
    .nextBar ⟨some entry.budget, some (quantizeAmount (execution.2.1 * entry.largest)), 1⟩
    (Matcher.free_freeCosts .spot (le_refl (0 : Decimal))) hfresh hexecution hreference one_pos
    hanchored hrisk entry.isMoney_largest hpos rfl hcash (by
      change quantizeAmount (quantizeAmount (execution.2.1 * entry.largest) / (1 : ℕ)) ≤ _
      rw [Nat.cast_one, div_one, quantizeAmount_quantizeAmount])
  have hentry := Matcher.matchOrder_entry rfl rfl hmatch
  have hfee : fill.fee = 0 := by
    rw [hentry.fee_eq, (Matcher.free_freeCosts .spot (le_refl (0 : Decimal))).feeRate_eq, mul_zero,
      quantizeAmount_zero]
  -- the notional takes all of the cash
  have hprojected : 0 ≤ projectedEntryCash (freeRun .spot (le_refl 0))
      (quantizeAmount (execution.2.1 * entry.largest)) fill
      (leverageOf (some (signalOf entry))) := by
    rw [projectedEntryCash_eq, hfee]
    change 0 ≤ quantizeAmount (_ - quantizeAmount (fill.price * fill.quantity) - 0)
    rw [hprice, hfilled, sub_self, sub_zero, quantizeAmount_zero]
  obtain ⟨s', hrun, -⟩ := exists_applyFill none none
    (show Flat (freeRun .spot (le_refl 0)) (initialState (freeRun .spot (le_refl 0))
      (quantizeAmount (execution.2.1 * entry.largest))) from flat_initialState)
    hentry.reduceOnly_eq hentry.symbol_eq (hentry.positionSide_eq.symm ▸ entry.side_ne_both)
    (leverageOf_pos _) hprojected rfl rfl
  exact ⟨fill, order', s', hmatch, hrun, hfilled⟩

/-- An entry that is capped has a largest quantity that fits, since that quantity may be filled. -/
theorem fits_of_riskCapped {candle : Candle} {history : List Candle}
    {execution : Candle × Decimal × ℤ}
    (hexecution : Matcher.executionCandle candle history .nextBar = .ok execution)
    (hreference : 0 < execution.2.1) (hcapped : RiskCapped entry candle history) :
    entry.Fits execution.2.1 := by
  by_contra hexceeds
  unfold RiskEntry.Fits at hexceeds
  have hpos : 0 < entry.largest := by
    by_contra hle
    have hproduct := mul_nonpos_of_nonpos_of_nonneg (not_lt.1 hle)
      (abs_nonneg (execution.2.1 - toDecimal entry.stop))
    exact hexceeds (hproduct.trans entry.budget_pos.le)
  -- a run that costs nothing fills the largest quantity
  obtain ⟨fill, order', s', hmatch, hrun, hfilled⟩ :=
    exists_largest_fill hexecution hreference hpos
  obtain ⟨stop, active, r0, hstop, -, -, hle, -⟩ := hcapped (freeRun .spot (le_refl 0))
    (initialState (freeRun .spot (le_refl 0)) (quantizeAmount (execution.2.1 * entry.largest))) s'
    (signalOf entry) ⟨some entry.budget, some (quantizeAmount (execution.2.1 * entry.largest)), 1⟩
    0 fill order' none none (signals_signalOf entry) rfl flat_initialState rfl rfl rfl hmatch hrun
  obtain ⟨-, hreference', hentry⟩ := filled_le_largest (signals_signalOf entry) rfl hexecution
    hmatch
  obtain ⟨hprotection, -⟩ := applyFill_starts flat_initialState hentry hrun
  rw [hprotection] at hstop
  cases hstop
  rw [hfilled, hreference'] at hle
  exact hexceeds hle

/-- **The risk cap holds at execution** exactly when the largest quantity that the order and the
budget allow risks at most the budget between the open of the next bar and the signal's stop. -/
theorem riskCapped_iff {candle : Candle} {history : List Candle}
    {execution : Candle × Decimal × ℤ}
    (hexecution : Matcher.executionCandle candle history .nextBar = .ok execution)
    (hreference : 0 < execution.2.1) :
    RiskCapped entry candle history ↔ entry.Fits execution.2.1 :=
  ⟨fits_of_riskCapped hexecution hreference, riskCapped_of_fits hexecution⟩

/-! ### A long with its stop at ninety-eight -/

theorem ninetyEight_pos : Binary64.zero < Binary64.ofRat 98 :=
  Binary64.zero_lt_ofRat (by norm_num)

theorem hundredDollars_pos : Binary64.zero < Binary64.ofRat 100 :=
  Binary64.zero_lt_ofRat (by norm_num)

theorem gappedDollars_pos : Binary64.zero < Binary64.ofRat 110 :=
  Binary64.zero_lt_ofRat (by norm_num)

theorem hundred_decimal_pos : 0 < toDecimal (Binary64.ofRat 100) := by decide +kernel

theorem ninetyEight_below : toDecimal (Binary64.ofRat 98) < toDecimal (Binary64.ofRat 100) := by
  decide +kernel

theorem budget_one_pos : (0 : Decimal) < 1 := one_pos

theorem ninetyEight_onLosingSide :
    (PositionSide.long = .long ∧
      toDecimal (Binary64.ofRat 98) < toDecimal (Binary64.ofRat 100)) ∨
    (PositionSide.long = .short ∧
      toDecimal (Binary64.ofRat 100) < toDecimal (Binary64.ofRat 98)) :=
  Or.inl ⟨rfl, ninetyEight_below⟩

/-- One percent of a hundred, at a distance of two. -/
def twoBelow : RiskEntry where
  price := Binary64.ofRat 100
  stop := Binary64.ofRat 98
  side := .long
  quantity := Binary64.ofRat 1
  budget := 1
  price_pos := hundred_decimal_pos
  stop_pos := ninetyEight_pos
  budget_pos := budget_one_pos
  budget_money := isMoney_one
  onLosingSide := ninetyEight_onLosingSide

/-- The bar of the decision. -/
def decisionBar : Candle := hourlyCandle (0, ⟨Binary64.ofRat 100, hundredDollars_pos⟩)

/-- Half a unit two away from its stop. -/
theorem riskCapped_of_level_open :
    RiskCapped twoBelow decisionBar
      [hourlyCandle (1, ⟨Binary64.ofRat 100, hundredDollars_pos⟩)] := by
  obtain ⟨execution, hexecution, htest⟩ := exists_of_returnsWith
    (show returnsWith (Matcher.executionCandle decisionBar
      [hourlyCandle (1, ⟨Binary64.ofRat 100, hundredDollars_pos⟩)] .nextBar)
      (fun execution => decide (0 < execution.2.1 ∧
        twoBelow.largest * |execution.2.1 - toDecimal twoBelow.stop| ≤ twoBelow.budget)) = true by
      decide +kernel)
  rw [decide_eq_true_eq] at htest
  exact (riskCapped_iff hexecution htest.1).2 htest.2

/-- **The next bar opens at 110**: half a unit is filled twelve away from the stop that is kept,
six times the budget. -/
theorem not_riskCapped_of_gap :
    ¬RiskCapped twoBelow decisionBar
      [hourlyCandle (1, ⟨Binary64.ofRat 110, gappedDollars_pos⟩)] := by
  obtain ⟨execution, hexecution, htest⟩ := exists_of_returnsWith
    (show returnsWith (Matcher.executionCandle decisionBar
      [hourlyCandle (1, ⟨Binary64.ofRat 110, gappedDollars_pos⟩)] .nextBar)
      (fun execution => decide (0 < execution.2.1 ∧
        ¬twoBelow.largest * |execution.2.1 - toDecimal twoBelow.stop| ≤ twoBelow.budget)) = true by
      decide +kernel)
  rw [decide_eq_true_eq] at htest
  exact fun hcapped => htest.2 (fits_of_riskCapped hexecution htest.1 hcapped)

end Engine
end TradingSystem
