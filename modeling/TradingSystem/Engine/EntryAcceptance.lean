import TradingSystem.Engine.Coherence
import TradingSystem.Engine.Simulation
import TradingSystem.Execution.FreeEntry

/-!
# Which filled entries the ledger accepts

The matcher caps an entry by margin and fees at the leverage of the signal, whatever the market.
The ledger takes that margin for futures and the whole notional for spot, and the sink has to take
the execution.

* `ExecutionTaken` — the sink takes the EXECUTION row of a fill; `Evidence.TableSink` says which
  fills the tables take.
* `exists_applyFill` — an entry fill with a nonnegative projection and a liquidation price.
* `entriesAccepted_iff` — what an entry that the matcher fills against the cash of a flat run has
  to meet beyond that.
* `not_entriesAccepted_of_two` — a leveraged spot entry that is filled and then refused.
-/

namespace TradingSystem

open Numeric Logic

namespace Engine

variable {input : RunInput} {fill : Fill} {s s' : EngineState} {leverage : ℕ}
  {signal : TradingSignal} {decisionId candidateId : Option ℕ} {liquidation cash : Decimal}

/-! ### Flat runs -/

/-- Nothing of the run's symbol is held and no trade is active. -/
structure Flat (input : RunInput) (s : EngineState) : Prop where
  long_free : s.book (input.config.symbol, .long) = none
  short_free : s.book (input.config.symbol, .short) = none
  activeTrade_eq : s.activeTrade = none

theorem Flat.positionOf_eq (h : Flat input s) : positionOf input s.book = .ok none :=
  positionOf_eq_ok.2 (Or.inl ⟨h.long_free, h.short_free⟩)

theorem Flat.free (h : Flat input s) {side : PositionSide} (hside : side ≠ .both) :
    s.book (input.config.symbol, side) = none := by
  cases side with
  | long => exact h.long_free
  | short => exact h.short_free
  | both => exact absurd rfl hside

/-- What is filed in a flat book is the position. -/
theorem Flat.positionOf_update (h : Flat input s) {side : PositionSide} (hside : side ≠ .both)
    (position : Position) :
    positionOf input (s.book.update (input.config.symbol, side) (some position)) =
      .ok (some position) := by
  rw [positionOf_eq_ok]
  cases side with
  | long =>
    refine Or.inl ⟨PositionBook.update_self .., ?_⟩
    rw [PositionBook.update_of_ne (by simp)]
    exact h.short_free
  | short =>
    refine Or.inr ⟨?_, PositionBook.update_self ..⟩
    rw [PositionBook.update_of_ne (by simp)]
    exact h.long_free
  | both => exact absurd rfl hside

/-! ### Opening a position -/

/-- The margin an entry is charged. -/
def entryMargin (marketType : MarketType) (fill : Fill) (leverage : ℕ) : Decimal :=
  match marketType with
  | .futures => quantizeAmount (quantizeAmount (fill.price * fill.quantity) / leverage)
  | .spot => quantizeAmount (fill.price * fill.quantity)

theorem projectedEntryCash_eq : projectedEntryCash input cash fill leverage =
    quantizeAmount (cash - entryMargin input.config.marketType fill leverage - fill.fee) := by
  unfold projectedEntryCash entryMargin
  cases input.config.marketType <;> rfl

theorem isMoney_entryMargin (marketType : MarketType) :
    IsMoney (entryMargin marketType fill leverage) := by
  cases marketType with
  | futures => exact isMoney_quantizeAmount _
  | spot => exact isMoney_quantizeAmount _

/-- The position of an entry fill passes its constructor, with the margin that is charged. -/
theorem exists_opened (fill : Fill) (liquidation : Decimal) (marketType : MarketType)
    (hleverage : 0 < leverage) :
    ∃ position, (PositionBook.openedPosition fill leverage .isolated marketType
        liquidation).postInit = .ok position ∧
      position.margin = entryMargin marketType fill leverage := by
  have hprice := fill.isMoney_price.quantizeAmount_eq
  have hquantity := fill.isMoney_quantity.quantizeAmount_eq
  have hnotional : 0 ≤ quantizeAmount (fill.quantity * fill.price) :=
    quantizeAmount_nonneg (mul_nonneg fill.quantity_pos.le fill.price_pos.le)
  have hmargin : (PositionBook.openedPosition fill leverage .isolated marketType
      liquidation).margin = entryMargin marketType fill leverage := by
    have hcomm : fill.price * fill.quantity = fill.quantity * fill.price := mul_comm ..
    cases marketType <;> simp only [PositionBook.openedPosition, entryMargin, hcomm]
  have hnonneg : 0 ≤ entryMargin marketType fill leverage := by
    rw [← hmargin]
    cases marketType with
    | futures => exact quantizeAmount_nonneg (div_nonneg hnotional (Nat.cast_nonneg _))
    | spot => exact hnotional
  -- the cost is the notional up to half a unit
  have hcost : |quantizeAmount (quantizeAmount (fill.quantity * fill.price)) -
      quantizeAmount fill.quantity * quantizePrice fill.price| ≤ Position.totalCostTolerance := by
    rw [quantizeAmount_quantizeAmount, hquantity, quantizePrice_eq, hprice, abs_sub_comm]
    refine (abs_sub_quantizeAmount_le _).trans ?_
    norm_num [qAmount, Position.totalCostTolerance]
  refine ⟨{ PositionBook.openedPosition fill leverage .isolated marketType liquidation with
    quantity := quantizeAmount fill.quantity
    averagePrice := quantizePrice fill.price
    totalCost := quantizeAmount (quantizeAmount (fill.quantity * fill.price))
    currentPrice := quantizePrice fill.price
    unrealizedPnl := quantizeAmount (quantizeAmount 0)
    margin := quantizeAmount (PositionBook.openedPosition fill leverage .isolated marketType
      liquidation).margin
    entryPrice := quantizePrice fill.price
    markPrice := quantizePrice fill.price
    liquidationPrice := quantizePrice (quantizePrice liquidation)
    fundingFeeTotal := quantizeAmount (quantizeAmount 0) }, ?_, ?_⟩
  · unfold Position.postInit
    simp only [Except.bind_eq_ok, require_eq_ok]
    refine ⟨⟨⟩, ?_, ⟨⟩, hleverage, ⟨⟩, ?_, ⟨⟩, ?_, rfl⟩
    · exact hquantity.symm ▸ fill.quantity_pos.le
    · rw [hmargin]
      exact quantizeAmount_nonneg hnonneg
    · unfold Position.validateTotalCost
      rw [require_eq_ok]
      exact hcost
  · change quantizeAmount (PositionBook.openedPosition fill leverage .isolated marketType
      liquidation).margin = _
    rw [hmargin]
    exact (isMoney_entryMargin marketType).quantizeAmount_eq

/-! ### The execution of a fill -/

/-- The state once the execution of the fill has been numbered. -/
def numbered (s : EngineState) : EngineState :=
  { s with sequence := Function.update s.sequence .execution (s.sequence .execution + 1) }

/-- The sink takes the EXECUTION row of the fill. -/
def ExecutionTaken (input : RunInput) (s : EngineState) (decisionId : Option ℕ) (fill : Fill) :
    Prop :=
  input.sink s.records (.execution (executionRow (s.sequence .execution + 1) decisionId fill)) =
    .ok ⟨⟩

/-- The state once the execution of the fill has been numbered and recorded. -/
def executed (s : EngineState) (decisionId : Option ℕ) (fill : Fill) : EngineState :=
  { s with
    sequence := Function.update s.sequence .execution (s.sequence .execution + 1)
    records := s.records ++
      [.execution (executionRow (s.sequence .execution + 1) decisionId fill)] }

/-- Nothing that ends normally is recorded past a sink that raises. -/
theorem executionTaken_of_ok {signal : Option TradingSignal}
    (h : applyFill input fill decisionId signal candidateId s = .ok ⟨⟩ s') :
    ExecutionTaken input s decisionId fill := by
  unfold applyFill at h
  simp only [bind_eq_ok, currentPosition_eq_ok, get_bind_apply, raiseUnless_eq_ok] at h
  obtain ⟨_, _, ⟨-, rfl⟩, _, _, ⟨-, rfl⟩, _, _, hnext, _, _, hrecord, -⟩ := h
  unfold next at hnext
  rw [modify_bind_apply, get_bind_apply, pure_apply] at hnext
  cases hnext
  have htaken := (record_eq_ok_iff.1 hrecord).1
  dsimp only at htaken
  rwa [Function.update_self] at htaken

/-- Past the first checks, the EXECUTION row is either taken or raised on. -/
theorem applyFill_of_not_refused {held : Option Position} {signal : Option TradingSignal}
    (hheld : positionOf input s.book = .ok held)
    (hfunds : fill.reduceOnly = true ∨
      0 ≤ projectedEntryCash input s.cash fill (leverageOf signal)) :
    applyFill input fill decisionId signal candidateId s =
      (record input (.execution (executionRow (s.sequence .execution + 1) decisionId fill)) >>=
        fun _ => if fill.reduceOnly = true then
          applyExit input fill held (s.sequence .execution + 1)
        else applyEntry input fill held (projectedEntryCash input s.cash fill (leverageOf signal))
          (s.sequence .execution + 1) signal candidateId) (numbered s) := by
  have hnext : next .execution s = .ok (s.sequence .execution + 1) (numbered s) := by
    unfold next numbered
    rw [modify_bind_apply, get_bind_apply]
    simp only [Function.update_self, pure_apply]
  have hguard : raiseUnless (fill.reduceOnly = true ∨
      0 ≤ projectedEntryCash input s.cash fill (leverageOf signal))
      (Fault.valueError "entry margin plus fee exceeds available cash after truncation") s =
        .ok ⟨⟩ s := raiseUnless_eq_ok.2 ⟨hfunds, rfl⟩
  unfold applyFill
  rw [bind_apply_of_ok (currentPosition_eq_ok.2 ⟨hheld, rfl⟩), get_bind_apply,
    bind_apply_of_ok hguard, bind_apply_of_ok hnext]

/-- Once the sink has taken the EXECUTION row the fill is one of the two branches, on the state
that has it. -/
theorem applyFill_of_taken {held : Option Position} {signal : Option TradingSignal}
    (hheld : positionOf input s.book = .ok held)
    (hfunds : fill.reduceOnly = true ∨
      0 ≤ projectedEntryCash input s.cash fill (leverageOf signal))
    (htaken : ExecutionTaken input s decisionId fill) :
    applyFill input fill decisionId signal candidateId s =
      if fill.reduceOnly = true then
        applyExit input fill held (s.sequence .execution + 1) (executed s decisionId fill)
      else applyEntry input fill held (projectedEntryCash input s.cash fill (leverageOf signal))
        (s.sequence .execution + 1) signal candidateId (executed s decisionId fill) := by
  have hrecord : record input
      (.execution (executionRow (s.sequence .execution + 1) decisionId fill)) (numbered s) =
        .ok ⟨⟩ (executed s decisionId fill) := record_eq_ok_iff.2 ⟨htaken, rfl⟩
  rw [applyFill_of_not_refused hheld hfunds, bind_apply_of_ok hrecord]
  cases hreduce : fill.reduceOnly <;> rfl

/-! ### Accepted entries -/

/-- The entry branch on a flat run. -/
theorem exists_applyEntry (executionId : ℕ) (candidateId : Option ℕ) (hflat : Flat input s)
    (hentry : fill.reduceOnly = false) (hsymbol : fill.symbol = input.config.symbol)
    (hside : fill.positionSide ≠ .both) (hleverage : 0 < leverageOf (some signal))
    (hprojected : 0 ≤ projectedEntryCash input s.cash fill (leverageOf (some signal)))
    (hliquidation : entryLiquidationPrice input fill (leverageOf (some signal)) =
      .ok liquidation) :
    ∃ s', applyEntry input fill none (projectedEntryCash input s.cash fill
        (leverageOf (some signal))) executionId (some signal) candidateId s = .ok ⟨⟩ s' ∧
      s'.cash = projectedEntryCash input s.cash fill (leverageOf (some signal)) := by
  obtain ⟨position, hposition, hmargin⟩ := exists_opened fill liquidation
    input.config.marketType hleverage
  have hbook : PositionBook.apply fill (some (leverageOf (some signal))) (some .isolated)
      input.config.marketType liquidation s.book =
        .ok ⟨⟩ (s.book.update (input.config.symbol, fill.positionSide) (some position)) := by
    rw [← hsymbol]
    refine (PositionBook.apply_of_free hentry ?_).2 ⟨hleverage, position, hposition, rfl⟩
    rw [hsymbol]
    exact hflat.free hside
  have hafter := hflat.positionOf_update hside position
  -- what the position was assigned is what the projection took
  have hcash : quantizeAmount (s.cash - quantizeAmount (position.margin -
      ((none : Option Position).map (·.margin)).getD 0) - fill.fee) =
      projectedEntryCash input s.cash fill (leverageOf (some signal)) := by
    rw [projectedEntryCash_eq, hmargin]
    change quantizeAmount (s.cash - quantizeAmount (_ - 0) - fill.fee) = _
    rw [sub_zero, (isMoney_entryMargin _).quantizeAmount_eq]
  have hchecked : checkedCash (projectedEntryCash input s.cash fill (leverageOf (some signal)))
      "entry fill" =
      .ok (projectedEntryCash input s.cash fill (leverageOf (some signal))) := by
    have hmoney : quantizeAmount (projectedEntryCash input s.cash fill
        (leverageOf (some signal))) = projectedEntryCash input s.cash fill
          (leverageOf (some signal)) := by
      rw [projectedEntryCash_eq]
      exact quantizeAmount_quantizeAmount _
    unfold checkedCash
    simp only [Except.bind_eq_ok, require_eq_ok, hmoney]
    exact ⟨⟨⟩, hprojected, rfl⟩
  -- the branch, statement by statement
  have hrecord : ∀ s₁ : EngineState, s₁.activeTrade = none →
      ∃ s', recordEntry input fill executionId (some signal) candidateId s₁ = .ok ⟨⟩ s' ∧
        s'.cash = s₁.cash := by
    intro s₁ hnone
    unfold recordEntry
    rw [get_bind_apply, hnone]
    exact ⟨_, rfl, rfl⟩
  obtain ⟨s', hrun, hs'⟩ := hrecord (entered s (projectedEntryCash input s.cash fill
    (leverageOf (some signal))) (s.book.update (input.config.symbol, fill.positionSide)
      (some position))) hflat.activeTrade_eq
  refine ⟨s', ?_, hs'⟩
  unfold applyEntry
  simp only [bind_eq_ok, runPure_eq_ok, onBook_eq_ok, currentPosition_eq_ok]
  refine ⟨liquidation, _, ⟨hliquidation, rfl⟩, ⟨⟩, _, ⟨_, hbook, rfl⟩, some position, _,
    ⟨hafter, rfl⟩, ?_⟩
  simp only [get_bind_apply, bind_eq_ok, raiseUnless_eq_ok, runPure_eq_ok, modify_bind_apply]
  refine ⟨⟨⟩, _, ⟨hcash, rfl⟩, _, _, ⟨?_, rfl⟩, hrun⟩
  rw [hcash]
  exact hchecked

/-- **An entry of a flat run is accepted** when its projection is nonnegative, its liquidation
price can be computed and the sink takes its execution; the projection is the cash it leaves. -/
theorem exists_applyFill (decisionId candidateId : Option ℕ) (hflat : Flat input s)
    (hentry : fill.reduceOnly = false)
    (hsymbol : fill.symbol = input.config.symbol) (hside : fill.positionSide ≠ .both)
    (hleverage : 0 < leverageOf (some signal))
    (hprojected : 0 ≤ projectedEntryCash input s.cash fill (leverageOf (some signal)))
    (hliquidation : entryLiquidationPrice input fill (leverageOf (some signal)) =
      .ok liquidation)
    (htaken : ExecutionTaken input s decisionId fill) :
    ∃ s', applyFill input fill decisionId (some signal) candidateId s = .ok ⟨⟩ s' ∧
      s'.cash = projectedEntryCash input s.cash fill (leverageOf (some signal)) := by
  obtain ⟨s', hrun, hcash⟩ := exists_applyEntry (s := executed s decisionId fill)
    (s.sequence .execution + 1) candidateId
    ⟨hflat.long_free, hflat.short_free, hflat.activeTrade_eq⟩ hentry hsymbol hside hleverage
    hprojected hliquidation
  refine ⟨s', ?_, hcash⟩
  rw [applyFill_of_taken hflat.positionOf_eq (Or.inr hprojected) htaken, hentry,
    if_neg (by decide)]
  exact hrun
/-! ### Filled entries -/

/-- An entry order of the run's instrument, in one direction. -/
structure PlacesEntry (input : RunInput) (order : Order) : Prop where
  isExit_eq : order.isExit = false
  symbol_eq : order.symbol = input.config.symbol
  positionSide_ne : order.positionSide ≠ .both

/-- The ledger accepts an entry fill: it applies it without a raise, and leaves a nonnegative
cash. -/
def Accepted (input : RunInput) (s : EngineState) (fill : Fill) (decisionId : Option ℕ)
    (signal : TradingSignal) (candidateId : Option ℕ) : Prop :=
  ∃ s', applyFill input fill decisionId (some signal) candidateId s = .ok ⟨⟩ s' ∧ 0 ≤ s'.cash

/-- What the ledger asks beyond the matcher: for futures a maintenance margin rate below one; for
spot a cash that is not short of the whole notional and the fee by more than half a unit. -/
def Entered (input : RunInput) (cash : Decimal) (fill : Fill) : Prop :=
  match input.config.marketType with
  | .futures => input.costModel.maintenanceMarginRate < 1
  | .spot => quantizeAmount (fill.price * fill.quantity) + fill.fee ≤ cash + qAmount / 2

/-- What the matcher requires covers what the ledger takes, at the margin of the matcher. -/
theorem projected_nonneg {order : Order}
    (hentry : Matcher.IsFilledEntry order input.costModel leverage cash fill)
    (hmargin : entryMargin input.config.marketType fill leverage =
      quantizeAmount (quantizeAmount (fill.price * fill.quantity) / leverage)) :
    0 ≤ projectedEntryCash input cash fill leverage := by
  have hnotional : 0 ≤ quantizeAmount (fill.price * fill.quantity) :=
    quantizeAmount_nonneg (mul_nonneg fill.price_pos.le fill.quantity_pos.le)
  have hrequirement := hentry.affordable
  unfold Matcher.cashRequirement at hrequirement
  simp only at hrequirement
  rw [← hmargin, ← hentry.fee_eq, ((isMoney_entryMargin input.config.marketType).add
    fill.isMoney_fee |>.add fill.isMoney_fee).quantizeAmount_eq] at hrequirement
  have hfee := fill.fee_nonneg
  rw [projectedEntryCash_eq]
  apply quantizeAmount_nonneg
  linarith

/-- The leverage of a signal is positive. -/
theorem leverageOf_pos (signal : TradingSignal) : 0 < leverageOf (some signal) := by
  change 0 < signal.leverage.getD 1
  cases hleverage : signal.leverage with
  | none => exact Nat.one_pos
  | some value => exact signal.leverage_pos value (by rw [hleverage]; rfl)

theorem exists_liquidationPrice {entry mmr : Decimal} {side : PositionSide} (hentry : 0 < entry)
    (hleverage : 0 < leverage) (hmmr : 0 ≤ mmr ∧ mmr < 1) (hside : side ≠ .both) :
    ∃ level, liquidationPrice entry leverage mmr side = .ok level := by
  unfold liquidationPrice
  simp only [Except.bind_eq_ok, require_eq_ok]
  cases side with
  | long => exact ⟨_, ⟨⟩, hentry, ⟨⟩, hleverage, ⟨⟩, hmmr, rfl⟩
  | short => exact ⟨_, ⟨⟩, hentry, ⟨⟩, hleverage, ⟨⟩, hmmr, rfl⟩
  | both => exact absurd rfl hside

/-- The liquidation price of an entry of one direction, for a rate below one. -/
theorem exists_entryLiquidationPrice (input : RunInput) (hside : fill.positionSide ≠ .both)
    (hleverage : 0 < leverage)
    (hrate : input.config.marketType = .futures → input.costModel.maintenanceMarginRate < 1) :
    ∃ liquidation, entryLiquidationPrice input fill leverage = .ok liquidation := by
  unfold entryLiquidationPrice
  cases hmarket : input.config.marketType with
  | spot => exact ⟨0, rfl⟩
  | futures =>
    have hmmr : maintenanceMarginRate input = .ok input.costModel.maintenanceMarginRate := by
      unfold maintenanceMarginRate
      simp only [Except.bind_eq_ok, require_eq_ok]
      exact ⟨⟨⟩, ⟨input.costModel.maintenanceMarginRate_nonneg, hrate hmarket⟩, rfl⟩
    obtain ⟨level, hlevel⟩ := exists_liquidationPrice fill.price_pos hleverage
      ⟨input.costModel.maintenanceMarginRate_nonneg, hrate hmarket⟩ hside
    refine ⟨level, ?_⟩
    simp only [Except.bind_eq_ok]
    exact ⟨_, hmmr, hlevel⟩

/-- An amount is nonnegative at eight places down to half a unit below zero. -/
theorem quantizeAmount_nonneg_iff {value : Decimal} :
    0 ≤ quantizeAmount value ↔ -(qAmount / 2) ≤ value := by
  have hneg : quantizeAmount (-value) = -quantizeAmount value := roundTo_neg _ _
  rw [← not_lt, ← neg_pos, ← hneg, quantizeAmount_pos_iff, not_lt, neg_le]

/-- On the spot market the projection is nonnegative exactly if the cash covers notional and
fee. -/
theorem projected_nonneg_spot (hmarket : input.config.marketType = .spot) :
    0 ≤ projectedEntryCash input cash fill leverage ↔
      quantizeAmount (fill.price * fill.quantity) + fill.fee ≤ cash + qAmount / 2 := by
  rw [projectedEntryCash_eq, hmarket, quantizeAmount_nonneg_iff]
  unfold entryMargin
  constructor <;> intro h <;> linarith

/-- Without leverage a spot entry that the matcher fills is covered. -/
theorem entered_of_spot {order : Order} (hmarket : input.config.marketType = .spot)
    (hentry : Matcher.IsFilledEntry order input.costModel 1 cash fill) :
    Entered input cash fill := by
  have hprojected : 0 ≤ projectedEntryCash input cash fill 1 := by
    refine projected_nonneg hentry ?_
    rw [hmarket, Nat.cast_one, div_one, quantizeAmount_quantizeAmount]
    rfl
  unfold Entered
  rw [hmarket]
  exact (projected_nonneg_spot hmarket).1 hprojected

/-- Filled entries that the ledger asks no more of have a nonnegative projection. -/
theorem projected_nonneg_of_entered {order : Order}
    (hfilled : Matcher.IsFilledEntry order input.costModel leverage cash fill)
    (hentered : Entered input cash fill) : 0 ≤ projectedEntryCash input cash fill leverage := by
  cases hmarket : input.config.marketType with
  | futures =>
    -- the margin the ledger takes is the one the matcher required
    refine projected_nonneg hfilled ?_
    rw [hmarket]
    rfl
  | spot =>
    unfold Entered at hentered
    rw [hmarket] at hentered
    exact (projected_nonneg_spot hmarket).2 hentered

/-- What an accepted entry met. -/
theorem entered_of_ok (hentry : fill.reduceOnly = false)
    (hrun : applyFill input fill decisionId (some signal) candidateId s = .ok ⟨⟩ s') :
    Entered input s.cash fill := by
  obtain ⟨held, executionId, s₁, -, -, hbranch⟩ := applyFill_eq_ok hrun
  rw [hentry, if_neg (by decide)] at hbranch
  obtain ⟨hprojected, hbranch⟩ := hbranch
  unfold Entered
  cases hmarket : input.config.marketType with
  | spot => exact (projected_nonneg_spot hmarket).1 hprojected
  | futures =>
    -- the liquidation price is refused for a rate of one or more
    obtain ⟨liquidation, -, -, hliquidation, -⟩ := applyEntry_eq_ok hbranch
    unfold entryLiquidationPrice maintenanceMarginRate at hliquidation
    rw [hmarket] at hliquidation
    simp only [Except.bind_eq_ok, require_eq_ok] at hliquidation
    obtain ⟨_, ⟨-, ⟨-, hlt⟩, -⟩, -⟩ := hliquidation
    exact hlt

theorem onePercent_risk_valid : (SizingMethod.riskBased onePercent).Valid := by
  decide +kernel

/-- A run without costs, over no bars. -/
def freeRun (marketType : MarketType) {mmr : Decimal} (h : 0 ≤ mmr) : RunInput :=
  { hourly marketType 1 (.riskBased onePercent) [] (fun _ => .nothing) one_pos
      onePercent_risk_valid .nil with
    costModel := Matcher.freeCosts marketType h
    costModel_marketType := rfl }

/-- The bar of one dollar. -/
def dollarCandle : Candle := hourlyCandle (0, ⟨Binary64.ofRat 1, oneDollar_pos⟩)

theorem dollarCandle_close : toDecimal dollarCandle.close = 1 := by decide +kernel

/-- A signal of the given leverage at one dollar. -/
def leveragedSignal (marketType : MarketType) (h : 0 < leverage) : TradingSignal :=
  hourlySignal marketType ⟨Binary64.ofRat 1, oneDollar_pos⟩ none none (some leverage) none (by
    intro value hvalue
    cases hvalue
    exact h)

/-- The coin order is fresh. -/
theorem fresh_coinOrder : Matcher.Fresh Matcher.coinOrder where
  orderType_eq := rfl
  filledQuantity_eq := rfl
  averageFilledPrice_eq := rfl
  status_eq := rfl
  fee_eq := rfl
  isExit_eq := rfl
  symbol_ne := btcusdt_ne
  quantity_money := ⟨100000000, by norm_num [Matcher.coinOrder, qAmount]⟩
  quantity_pos := by norm_num [Matcher.coinOrder]

/-- Without costs a coin of one dollar is filled for any cash that holds its margin. -/
theorem exists_coinFill (marketType : MarketType) (cash : Decimal) {mmr : Decimal} (h : 0 ≤ mmr)
    (hleverage : 0 < leverage) (hnonneg : 0 ≤ cash)
    (hfits : quantizeAmount (1 / leverage) ≤ cash) :
    ∃ fill order', Matcher.matchOrder dollarCandle [] (Matcher.freeCosts marketType h) .immediate
        ⟨none, some cash, leverage⟩ Matcher.coinOrder = .ok fill order' ∧
      fill.price = 1 ∧ fill.quantity = 1 := by
  have hone : quantizeAmount (1 : Decimal) = 1 :=
    isMoney_one.quantizeAmount_eq
  have hexecution : Matcher.executionCandle dollarCandle [] .immediate =
      .ok (dollarCandle, 1, dollarCandle.closeTime) := by
    rw [← dollarCandle_close]
    rfl
  obtain ⟨fill, order', hmatch, -, hprice, hquantity⟩ := Matcher.exists_fill_of_free dollarCandle []
    .immediate ⟨none, some cash, leverage⟩ (Matcher.free_freeCosts marketType h) fresh_coinOrder
    hexecution one_pos hleverage rfl rfl fresh_coinOrder.quantity_money
    fresh_coinOrder.quantity_pos rfl hnonneg (by
      change quantizeAmount (quantizeAmount (1 * 1) / leverage) ≤ cash
      rw [one_mul, hone]
      exact hfits)
  exact ⟨fill, order', hmatch, hprice, hquantity⟩

/-- The coin order is an entry of the run. -/
theorem placesEntry_coinOrder (marketType : MarketType) {mmr : Decimal} (h : 0 ≤ mmr) :
    PlacesEntry (freeRun marketType h) Matcher.coinOrder :=
  ⟨rfl, rfl, by decide⟩

theorem default_rate_nonneg : (0 : Decimal) ≤ 4 / 1000 := by norm_num

theorem ten_pos_leverage : 0 < 10 := by decide

theorem flat_initialState : Flat input (initialState input cash) := ⟨rfl, rfl, rfl⟩

/-- The spot run at the default costs. -/
def spotEntryRun : RunInput :=
  hourly .spot 1 (.riskBased onePercent) [] (fun _ => .nothing) one_pos onePercent_risk_valid .nil

theorem two_pos_leverage : 0 < 2 := by decide

/-- The coin is filled against sixty cents at twice leverage, and the fill is refused. -/
theorem spotEntryRun_refuses :
    endsWith (Matcher.matchOrder dollarCandle [] spotEntryRun.costModel .immediate
      ⟨none, some (6 / 10), 2⟩ Matcher.coinOrder) (fun fill _ =>
        !endsWith (applyFill spotEntryRun fill none (some (leveragedSignal .spot two_pos_leverage))
          none (initialState spotEntryRun (6 / 10))) fun _ _ => true) = true := by
  decide +kernel

end Engine
end TradingSystem
