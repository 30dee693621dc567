import TradingSystem.Engine.RunCoherence
import TradingSystem.Execution.Accounting

/-!
# Equity across a close

The equity counts an open position by its mark, the cash takes its realized profit when it is
closed. Closing at the mark should therefore cost the fee and nothing else.

* `futures_drift_le` — it does, up to rounding, for futures.
* `spot_drift_le` — and for a spot position that was bought; one that was sold is marked as if
  it had been bought, so that the close moves the equity by twice its profit.
* `equityAtClose` — both, for every position a run can hold.
-/

namespace TradingSystem
namespace Engine

open Numeric Logic

variable {input : RunInput} {position marked : Position} {fill : Fill} {cash : Decimal}

/-! ### Marking and closing -/

/-- The equity after the exit branch has closed a position completely. -/
def equityAfterClose (cash : Decimal) (position : Position) (fill : Fill) : Decimal :=
  recompute (quantizeAmount (exitCash cash position fill)) none

/-- What the close changes of the equity beyond the fee. -/
def drift (cash : Decimal) (marked : Position) (fill : Fill) : Decimal :=
  equityAfterClose cash marked fill - (recompute cash (some marked) - fill.fee)

/-- How often an amount or a price is quantized: the mark price, the unrealized profit, the
value and the equity before the close; the margin, the profit, the cash, the empty value and
the equity after it. -/
def closeRoundings : ℕ := 9

/-- **The equity is continuous at a close**, up to one unit for each rounding. -/
def ContinuousAtClose (cash : Decimal) (marked : Position) (fill : Fill) : Prop :=
  |drift cash marked fill| ≤ closeRoundings * qAmount

/-- A spot position that was sold. -/
def SpotShort (position : Position) : Prop :=
  position.marketType = .spot ∧ position.side = .short

/-- The exit branch leaves the equity that `equityAfterClose` says. -/
theorem equityAfterClose_of_applyExit {s s' : EngineState} {executionId : ℕ}
    (hexit : fill.reduceOnly = true)
    (hrun : applyExit input fill (some position) executionId s = .ok ⟨⟩ s') :
    recompute s'.cash none = equityAfterClose s.cash position fill := by
  obtain ⟨_, active, cash, released, book, remaining, hposition, hactive, rfl, hcash, hreduce,
    hremaining, hcases⟩ := applyExit_eq_ok hexit hrun
  cases hposition
  rcases hcases with ⟨kept, -, rfl⟩ | ⟨-, trade, features, -, -, hlogs⟩
  · rfl
  · rw [hlogs.cash_eq]
    rfl

/-! ### The drift of a close -/

/-- A complete exit releases the whole margin. -/
theorem releasedMargin_full (hmargin : IsMoney position.margin) (hpos : 0 < position.quantity)
    (hfull : fill.quantity = position.quantity) :
    releasedMargin position fill = position.margin := by
  unfold releasedMargin
  rw [hfull, mul_div_cancel_right₀ _ hpos.ne', hmargin.quantizeAmount_eq]

/-- **The drift of a close** is what margin and profit have over the value of the position, up
to the rounding of the two equities. -/
theorem abs_drift_sub_le (hmargin : IsMoney marked.margin) (hpos : 0 < marked.quantity)
    (hfull : fill.quantity = marked.quantity) :
    |drift cash marked fill - (marked.margin + realizedPnl marked fill -
      positionValue (some marked))| ≤ qAmount := by
  have hafter : equityAfterClose cash marked fill =
      quantizeAmount (cash + marked.margin + realizedPnl marked fill - fill.fee) := by
    unfold equityAfterClose exitCash recompute positionValue
    rw [releasedMargin_full hmargin hpos hfull, quantizeAmount_zero, add_zero,
      quantizeAmount_quantizeAmount]
  have hclosed := abs_le.1 (abs_sub_quantizeAmount_le
    (cash + marked.margin + realizedPnl marked fill - fill.fee))
  have hheld := abs_le.1 (abs_sub_quantizeAmount_le (cash + positionValue (some marked)))
  unfold drift recompute
  rw [hafter, abs_le]
  constructor <;> linarith

/-- What a mark leaves of a position, and the profit it shows for futures. -/
structure MarkedAt (position : Position) (price : Decimal) (marked : Position) : Prop where
  marketType_eq : marked.marketType = position.marketType
  side_eq : marked.side = position.side
  quantity_eq : marked.quantity = position.quantity
  entryPrice_eq : marked.entryPrice = position.entryPrice
  margin_eq : marked.margin = position.margin
  currentPrice_eq : marked.currentPrice = price
  futures_profit : position.marketType = .futures →
    marked.unrealizedPnl = quantizeAmount (position.priceDelta price * position.quantity)

/-- A position whose cost agrees with its prices can be marked at any positive price. -/
theorem exists_updatePrice {price : Decimal} (hprice : 0 < quantizeAmount price)
    (hcost : position.validateTotalCost = .ok ()) :
    ∃ marked, Position.updatePrice price position = .ok ⟨⟩ marked := by
  unfold Position.updatePrice
  simp only [bind_eq_ok, raiseUnless_eq_ok, modify_apply, Position.checkTotalCost_eq_ok,
    EStateM.Result.ok.injEq]
  exact ⟨_, ⟨⟩, _, ⟨hprice, rfl⟩, ⟨⟩, _, ⟨trivial, rfl⟩, rfl, hcost⟩

theorem markedAt_of_updatePrice
    (h : Position.updatePrice fill.price position = .ok ⟨⟩ marked) :
    MarkedAt position fill.price marked := by
  have hprice := fill.isMoney_price.quantizeAmount_eq
  obtain ⟨-, rfl⟩ := Position.updatePrice_eq_ok h
  refine ⟨rfl, rfl, rfl, rfl, rfl, hprice, fun hmarket => ?_⟩
  simp only [hmarket, hprice]

/-- **Futures** are marked by the profit a close realizes. -/
theorem futures_drift_le (h : IsOpen input position) (hmarket : position.marketType = .futures)
    (hside : position.side ≠ .both) (hmark : MarkedAt position fill.price marked)
    (hfull : fill.quantity = position.quantity) : |drift cash marked fill| ≤ qAmount := by
  have hmargin : IsMoney marked.margin := hmark.margin_eq ▸ h.margin_money
  -- marked at the price of the fill, the profit is already in the equity
  have hprofit : realizedPnl marked fill = marked.unrealizedPnl := by
    rw [hmark.futures_profit hmarket]
    unfold realizedPnl Position.priceDelta
    rw [hmark.side_eq, hmark.entryPrice_eq, hfull]
    cases hdirection : position.side with
    | long => rfl
    | short => simp
    | both => exact absurd hdirection hside
  have hvalue : positionValue (some marked) = marked.margin + marked.unrealizedPnl := by
    have hmoney : IsMoney marked.unrealizedPnl := by
      rw [hmark.futures_profit hmarket]
      exact isMoney_quantizeAmount _
    unfold positionValue
    simp only [hmark.marketType_eq, hmarket]
    exact (hmargin.add hmoney).quantizeAmount_eq
  have hdrift := @abs_drift_sub_le marked fill cash hmargin (hmark.quantity_eq ▸ h.quantity_pos)
    (hfull.trans hmark.quantity_eq.symm)
  rwa [hprofit, hvalue, sub_self, sub_zero] at hdrift

/-- **A spot position** is marked by its value, and a close realizes its profit; what one of
them has over the other is the profit of a purchase, or twice that of a sale. -/
theorem spot_drift_le (h : IsOpen input position) (hmarket : position.marketType = .spot)
    (hmark : MarkedAt position fill.price marked) (hfull : fill.quantity = position.quantity) :
    |drift cash marked fill - if position.side = .long then 0
      else 2 * ((position.entryPrice - fill.price) * position.quantity)| ≤ 3 * qAmount := by
  have hmargin : IsMoney marked.margin := hmark.margin_eq ▸ h.margin_money
  -- each rounding of the drift is off by half a unit at most
  have hdrift := abs_le.1 (@abs_drift_sub_le marked fill cash hmargin
    (hmark.quantity_eq ▸ h.quantity_pos) (hfull.trans hmark.quantity_eq.symm))
  have hcost := abs_le.1 (h.spot_margin hmarket)
  rw [← hmark.margin_eq] at hcost
  have hvalue := abs_le.1 (abs_sub_quantizeAmount_le (position.quantity * fill.price))
  have hmarked : positionValue (some marked) = quantizeAmount (position.quantity * fill.price) := by
    unfold positionValue
    simp only [hmark.marketType_eq, hmarket, hmark.quantity_eq, hmark.currentPrice_eq]
  rw [hmarked] at hdrift
  have hprofit : realizedPnl marked fill =
      quantizeAmount ((if position.side = .long then fill.price - position.entryPrice
        else position.entryPrice - fill.price) * position.quantity) := by
    unfold realizedPnl
    rw [hmark.side_eq, hmark.entryPrice_eq, hfull]
  rw [hprofit] at hdrift
  -- a long is marked as it is closed; a short gains where its mark loses
  by_cases hlong : position.side = .long
  · simp only [hlong, if_true] at hdrift ⊢
    have hrealized := abs_le.1 (abs_sub_quantizeAmount_le
      ((fill.price - position.entryPrice) * position.quantity))
    rw [abs_le]
    constructor <;> linarith
  · simp only [hlong, if_false] at hdrift ⊢
    have hrealized := abs_le.1 (abs_sub_quantizeAmount_le
      ((position.entryPrice - fill.price) * position.quantity))
    rw [abs_le]
    constructor <;> linarith

/-! ### Every position of a run -/

/-- Where the equity is continuous at the close of an open position. -/
theorem IsOpen.closeContinuity (hopen : IsOpen input position) (hside : position.side ≠ .both)
    (hmark : Position.updatePrice fill.price position = .ok ⟨⟩ marked)
    (hfull : fill.quantity = position.quantity) :
    (¬SpotShort position ∨ |position.entryPrice - fill.price| * position.quantity ≤ 3 * qAmount →
      ContinuousAtClose cash marked fill) ∧
    (ContinuousAtClose cash marked fill → ¬SpotShort position ∨
      |position.entryPrice - fill.price| * position.quantity ≤ 6 * qAmount) := by
  have hmarked := markedAt_of_updatePrice hmark
  have hunit := qAmount_pos
  unfold ContinuousAtClose closeRoundings
  cases hmarket : position.marketType with
  | futures =>
    have hshort : ¬SpotShort position := fun hspot => by
      have hspotted := hmarket.symm.trans hspot.1
      cases hspotted
    have hdrift :=
      @futures_drift_le input position marked fill cash hopen hmarket hside hmarked hfull
    exact ⟨fun _ => by push_cast; linarith, fun _ => Or.inl hshort⟩
  | spot =>
    have hdrift := @spot_drift_le input position marked fill cash hopen hmarket hmarked hfull
    by_cases hlong : position.side = .long
    · have hshort : ¬SpotShort position := fun hspot => by
        have hsold := hlong.symm.trans hspot.2
        cases hsold
      rw [if_pos hlong, sub_zero] at hdrift
      exact ⟨fun _ => by push_cast; linarith, fun _ => Or.inl hshort⟩
    · have hshort : SpotShort position := by
        refine ⟨hmarket, ?_⟩
        cases hdirection : position.side with
        | long => exact absurd hdirection hlong
        | short => rfl
        | both => exact absurd hdirection hside
      rw [if_neg hlong] at hdrift
      -- twice the profit is the drift, up to three units
      have hprofit : |position.entryPrice - fill.price| * position.quantity =
          |(position.entryPrice - fill.price) * position.quantity| := by
        rw [abs_mul, abs_of_pos hopen.quantity_pos]
      rw [hprofit]
      obtain ⟨hlow, hhigh⟩ := abs_le.1 hdrift
      constructor
      · rintro (hnot | hnear)
        · exact absurd hshort hnot
        · obtain ⟨hbelow, habove⟩ := abs_le.1 hnear
          push_cast
          exact abs_le.2 ⟨by linarith, by linarith⟩
      · intro hcontinuous
        push_cast at hcontinuous
        obtain ⟨hbelow, habove⟩ := abs_le.1 hcontinuous
        exact Or.inr (abs_le.2 ⟨by linarith, by linarith⟩)

/-- A position that a run holds is open and of one direction. -/
theorem isOpen_of_reachable {state : RunState} (h : (system input).Reachable state)
    (hheld : positionOf input state.2.book = .ok (some position)) :
    IsOpen input position ∧ position.side ≠ .both := by
  obtain ⟨held, hcoherent, -⟩ := inv_of_reachable h
  rw [hcoherent.files.positionOf_eq] at hheld
  cases hheld
  exact ⟨hcoherent.isOpen position rfl, hcoherent.files.get.2.1⟩

/-! ### A spot short of a hundred units -/

theorem threeDollars_pos : Binary64.zero < Binary64.ofRat 3 :=
  Binary64.zero_lt_ofRat (by norm_num)

theorem ten_thousand_pos : (0 : Decimal) < 10000 := by norm_num

theorem onePercent_valid : (SizingMethod.riskBased onePercent).Valid := by decide +kernel

/-- Three hours at two dollars. -/
def threeHours : List (ℕ × Price) :=
  [(1, ⟨Binary64.ofRat 2, twoDollars_pos⟩), (2, ⟨Binary64.ofRat 2, twoDollars_pos⟩),
    (3, ⟨Binary64.ofRat 2, twoDollars_pos⟩)]

theorem threeHours_ascending : threeHours.Pairwise fun left right => left.1 < right.1 := by
  decide

/-- Sell at the first bar, with a stop one dollar above the price. -/
def sellAtTwo : ℕ → StrategyAnswer
  | 0 => .signal (hourlySignal .spot ⟨Binary64.ofRat 2, twoDollars_pos⟩
      (some ⟨Binary64.ofRat 3, threeDollars_pos⟩) none none (some (Binary64.ofRat 100))
      noLeverage_pos)
  | _ => .nothing

/-- The run on the spot market. -/
def spotRun : RunInput :=
  hourly .spot 10000 (.riskBased onePercent) threeHours sellAtTwo ten_thousand_pos
    onePercent_valid threeHours_ascending

/-- The run holds a hundred units sold on the spot market, for 1.998 dollars each. -/
def holdsSpotShort (state : RunState) : Bool :=
  match positionOf spotRun state.2.book with
  | .ok (some position) =>
    decide (position.marketType = .spot ∧ position.side = .short ∧ position.quantity = 100 ∧
      position.entryPrice = 1998 / 1000 ∧
      |position.totalCost - position.quantity * position.averagePrice| ≤
        Position.totalCostTolerance)
  | _ => false

theorem spotRun_holdsSpotShort :
    (simulated spotRun (fun _ => true) 10).any holdsSpotShort = true := by
  decide +kernel

theorem isMoney_mills (mills : ℕ) : IsMoney ((mills : Decimal) / 1000) :=
  ⟨mills * 100000, by push_cast [qAmount]; ring⟩

theorem mills_pos {mills : ℕ} (h : 0 < mills) : (0 : Decimal) < (mills : Decimal) / 1000 :=
  div_pos (Nat.cast_pos.2 h) (by norm_num)

theorem isMoney_hundred : IsMoney 100 := ⟨10000000000, by norm_num [qAmount]⟩

theorem free_of_charge : (0 : Decimal) ≤ 0 := le_refl 0

theorem hundred_units_pos : (0 : Decimal) < 100 := by norm_num

/-- Buy the hundred units back, at a price in thousandths of a dollar. -/
def coverAt (mills : ℕ) (hmills : 0 < mills) : Fill where
  orderId := .broker 1
  symbol := "BTCUSDT"
  side := .buy
  positionSide := .short
  referencePrice := mills / 1000
  price := mills / 1000
  quantity := 100
  fee := 0
  slippage := 0
  timestamp := 0
  reduceOnly := true
  exitReason := none
  gapFilled := false
  qtyTruncated := false
  isMoney_referencePrice := isMoney_mills mills
  isMoney_price := isMoney_mills mills
  isMoney_quantity := isMoney_hundred
  isMoney_fee := isMoney_zero
  isMoney_slippage := isMoney_zero
  referencePrice_pos := mills_pos hmills
  price_pos := mills_pos hmills
  quantity_pos := hundred_units_pos
  fee_nonneg := free_of_charge
  slippage_nonneg := free_of_charge

/-- The position of the run can be marked at any price. -/
theorem exists_spotShort (fill : Fill) : ∃ state position marked,
    (system spotRun).Reachable state ∧ positionOf spotRun state.2.book = .ok (some position) ∧
      SpotShort position ∧ position.quantity = 100 ∧ position.entryPrice = 1998 / 1000 ∧
      Position.updatePrice fill.price position = .ok ⟨⟩ marked := by
  obtain ⟨state, hstate, hholds⟩ := exists_of_simulated spotRun (fun _ => true) 10 holdsSpotShort
    spotRun_holdsSpotShort
  unfold holdsSpotShort at hholds
  split at hholds
  · next position hposition =>
    obtain ⟨hmarket, hside, hquantity, hprice, hcost⟩ := of_decide_eq_true hholds
    obtain ⟨marked, hmark⟩ := exists_updatePrice
      (fill.isMoney_price.quantizeAmount_eq.symm ▸ fill.price_pos) (require_eq_ok.2 hcost)
    exact ⟨state, position, marked, reachable_of_simulated hstate, hposition,
      ⟨hmarket, hside⟩, hquantity, hprice, hmark⟩
  · cases hholds

/-! ### Every run -/

/-- **Equity across a close.** For every position a run can hold, marked at the price of the
fill that closes it, the equity is continuous unless the position is a spot short; and it is for
a spot short only where the price is the entry price, up to rounding. -/
theorem equityAtClose {state : RunState} (h : (system input).Reachable state)
    (hheld : positionOf input state.2.book = .ok (some position))
    (hmark : Position.updatePrice fill.price position = .ok ⟨⟩ marked)
    (hfull : fill.quantity = position.quantity) :
    (¬SpotShort position ∨ |position.entryPrice - fill.price| * position.quantity ≤ 3 * qAmount →
      ContinuousAtClose cash marked fill) ∧
    (ContinuousAtClose cash marked fill → ¬SpotShort position ∨
      |position.entryPrice - fill.price| * position.quantity ≤ 6 * qAmount) := by
  obtain ⟨hopen, hside⟩ := isOpen_of_reachable h hheld
  exact hopen.closeContinuity hside hmark hfull

/-- Bought back at its entry price, the spot short loses nothing. -/
theorem equityAtClose_of_entry_price : ∃ state position marked,
    (system spotRun).Reachable state ∧ positionOf spotRun state.2.book = .ok (some position) ∧
      Position.updatePrice (1998 / 1000) position = .ok ⟨⟩ marked ∧
      ContinuousAtClose 10000 marked (coverAt 1998 (Nat.succ_pos _)) := by
  obtain ⟨state, position, marked, hreachable, hheld, -, hquantity, hprice, hmark⟩ :=
    exists_spotShort (coverAt 1998 (Nat.succ_pos _))
  refine ⟨state, position, marked, hreachable, hheld, hmark,
    (equityAtClose hreachable hheld hmark hquantity.symm).1 (Or.inr ?_)⟩
  have hsame : position.entryPrice - (coverAt 1998 (Nat.succ_pos _)).price = 0 := by
    rw [hprice]
    exact sub_self _
  rw [hsame, abs_zero, zero_mul]
  exact mul_nonneg (by norm_num) qAmount_pos.le

/-- **A spot short bought back above its price** moves the equity by twice its loss. -/
theorem not_continuous_of_spotShort :
    ¬∀ (input : RunInput) (state : RunState) (position marked : Position) (cash : Decimal)
      (fill : Fill), (system input).Reachable state →
        positionOf input state.2.book = .ok (some position) →
        Position.updatePrice fill.price position = .ok ⟨⟩ marked →
        fill.quantity = position.quantity → ContinuousAtClose cash marked fill := by
  intro hclaim
  obtain ⟨state, position, marked, hreachable, hheld, hshort, hquantity, hprice, hmark⟩ :=
    exists_spotShort (coverAt 3000 (Nat.succ_pos _))
  obtain ⟨hopen, hside⟩ := isOpen_of_reachable hreachable hheld
  have hcontinuous := hclaim spotRun state position marked 10000 _ hreachable hheld hmark
    hquantity.symm
  rcases (hopen.closeContinuity hside hmark hquantity.symm).2 hcontinuous with hnot | hnear
  · exact hnot hshort
  · rw [hprice, hquantity] at hnear
    norm_num [coverAt, qAmount] at hnear

end Engine
end TradingSystem
