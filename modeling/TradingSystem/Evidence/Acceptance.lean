import TradingSystem.Engine.RunCoherence
import TradingSystem.Evidence.Schema

/-!
# What the money tables accept

The engine checks its fills and trades, and so do the tables it records them in. They agree but
for two amounts that can round to zero: the notional of a fill, and the initial risk of a trade
whose stop is the price it was filled at. Amounts that do not fit the integers of the tables
are refused apart from the constraints.

* `ExecutionRow.accepted_iff` — the EXECUTION row of a fill is accepted exactly when it fits
  and its notional is more than half a unit.
* `TradeRow.accepted_iff` — the TRADE row of a completed trade is accepted exactly when it fits
  and its stop, if it has one, is more than half a unit of risk away.
* `evidence_accepted_iff` — both, for every row of every run.
-/

namespace TradingSystem

open Numeric Logic

/-! ### Rows that fit -/

/-- The scaled amount is in the range of the table's integers. -/
def FitsTable (value : Decimal) : Prop := |value| ≤ maxSqliteInteger * qAmount

instance (value : Decimal) : Decidable (FitsTable value) :=
  inferInstanceAs (Decidable (_ ≤ _))

/-- Money that fits is stored. -/
theorem exists_scaleDecimal_iff {value : Decimal} (h : IsMoney value) :
    (∃ n, scaleDecimal value = .ok n) ↔ FitsTable value := by
  obtain ⟨units, hunits⟩ := h
  have hscale : FitsTable value ↔ |units| ≤ maxSqliteInteger := by
    unfold FitsTable
    rw [hunits, abs_mul, abs_of_pos qAmount_pos, mul_le_mul_iff_of_pos_right qAmount_pos]
    exact_mod_cast Iff.rfl
  rw [hscale]
  constructor
  · rintro ⟨n, hn⟩
    obtain ⟨hvalue, hrange⟩ := scaleDecimal_eq_ok.1 hn
    have hsame : units = n := by
      rw [hunits] at hvalue
      exact_mod_cast mul_right_cancel₀ qAmount_pos.ne' hvalue
    rwa [hsame]
  · intro hrange
    exact ⟨units, scaleDecimal_eq_ok.2 ⟨hunits, hrange⟩⟩

/-! ### EXECUTION -/

namespace ExecutionRow

/-- The amounts of the row. -/
def amounts (row : ExecutionRow) : List Decimal :=
  [row.referencePrice, row.price, row.quantity, row.notional, row.fee, row.slippage]

/-- Every amount of the row fits its table. -/
def Fits (row : ExecutionRow) : Prop := ∀ value ∈ row.amounts, FitsTable value

instance (row : ExecutionRow) : Decidable row.Fits := List.decidableBAll _ _

/-- The row is normalized and passes every constraint of EXECUTION. -/
def Accepted (row : ExecutionRow) : Prop :=
  ∃ stored, row.store = .ok stored ∧ stored.Checks

variable {row : ExecutionRow}

theorem exists_store_iff (h : ∀ value ∈ row.amounts, IsMoney value) :
    (∃ stored, row.store = .ok stored) ↔ row.Fits := by
  unfold Fits
  -- a row fits when each of its columns can be scaled
  have hfits : (∀ value ∈ row.amounts, FitsTable value) ↔
      ∀ value ∈ row.amounts, ∃ n, scaleDecimal value = .ok n :=
    forall₂_congr fun value hvalue => (exists_scaleDecimal_iff (h value hvalue)).symm
  rw [hfits]
  unfold amounts
  simp only [List.forall_mem_cons, List.not_mem_nil, IsEmpty.forall_iff, implies_true, and_true]
  constructor
  · rintro ⟨stored, hstored⟩
    obtain ⟨h1, h2, h3, h4, h5, h6, -, -⟩ := store_eq_ok hstored
    exact ⟨⟨_, h1⟩, ⟨_, h2⟩, ⟨_, h3⟩, ⟨_, h4⟩, ⟨_, h5⟩, ⟨_, h6⟩⟩
  · rintro ⟨⟨_, h1⟩, ⟨_, h2⟩, ⟨_, h3⟩, ⟨_, h4⟩, ⟨_, h5⟩, ⟨_, h6⟩⟩
    -- the columns are scaled one after the other
    exact ⟨_, Except.bind_eq_ok.2 ⟨_, h1, Except.bind_eq_ok.2 ⟨_, h2, Except.bind_eq_ok.2 ⟨_, h3,
      Except.bind_eq_ok.2 ⟨_, h4, Except.bind_eq_ok.2 ⟨_, h5, Except.bind_eq_ok.2
        ⟨_, h6, rfl⟩⟩⟩⟩⟩⟩⟩

/-- The amounts of a fill are money. -/
theorem isMoney_amounts (h : Engine.GenuineExecution row) :
    ∀ value ∈ row.amounts, IsMoney value := by
  obtain ⟨executionId, decisionId, fill, rfl, -⟩ := h
  unfold amounts
  simp only [List.forall_mem_cons, List.not_mem_nil, IsEmpty.forall_iff, implies_true, and_true]
  exact ⟨fill.isMoney_referencePrice, fill.isMoney_price, fill.isMoney_quantity,
    isMoney_quantizeAmount _, fill.isMoney_fee, fill.isMoney_slippage⟩

/-- A fill passes every constraint but the one on the notional. -/
theorem checks_iff {stored : StoredExecution} (h : Engine.GenuineExecution row)
    (hstore : row.store = .ok stored) :
    stored.Checks ↔ qAmount / 2 < row.price * row.quantity := by
  obtain ⟨hreference, hprice, hquantity, hnotional, hfee, hslippage, hdecision, hexit⟩ :=
    store_eq_ok hstore
  obtain ⟨executionId, decisionId, fill, rfl, hdecided⟩ := h
  have hpositive : 0 < stored.notional ↔ qAmount / 2 < fill.price * fill.quantity :=
    (scaleDecimal_pos_iff hnotional).trans quantizeAmount_pos_iff
  constructor
  · intro hchecks
    exact hpositive.1 hchecks.notional_pos
  · intro hlarge
    -- every other check holds of a genuine fill
    exact {
      referencePrice_pos := (scaleDecimal_pos_iff hreference).2 fill.referencePrice_pos
      price_pos := (scaleDecimal_pos_iff hprice).2 fill.price_pos
      quantity_pos := (scaleDecimal_pos_iff hquantity).2 fill.quantity_pos
      notional_pos := hpositive.2 hlarge
      fee_nonneg := (scaleDecimal_nonneg_iff hfee).2 fill.fee_nonneg
      slippage_nonneg := (scaleDecimal_nonneg_iff hslippage).2 fill.slippage_nonneg
      decided := by
        rw [hdecision, hexit]
        exact hdecided }

/-- **The EXECUTION row of a fill** is accepted exactly when it fits and its notional does not
round to zero. -/
theorem accepted_iff (h : Engine.GenuineExecution row) :
    row.Accepted ↔ row.Fits ∧ qAmount / 2 < row.price * row.quantity := by
  rw [← exists_store_iff (isMoney_amounts h)]
  constructor
  · rintro ⟨stored, hstored, hchecks⟩
    exact ⟨⟨stored, hstored⟩, (checks_iff h hstored).1 hchecks⟩
  · rintro ⟨⟨stored, hstored⟩, hlarge⟩
    exact ⟨stored, hstored, (checks_iff h hstored).2 hlarge⟩

end ExecutionRow

/-! ### TRADE -/

namespace TradeRow

/-- The amounts that every row has. -/
def columns (row : TradeRow) : List Decimal :=
  [row.trade.entryPrice, row.trade.entryQuantity, row.trade.exitPrice, row.trade.exitQuantity,
    row.trade.grossPnl, row.trade.totalFee, row.trade.slippage, row.trade.liquidationPenalty,
    row.trade.fundingCost, row.trade.netPnl]

/-- The amounts of the row, the initial risk included if there is one. -/
def amounts (row : TradeRow) : List Decimal := row.columns ++ row.trade.r0.toList

/-- Every amount of the row fits its table. -/
def Fits (row : TradeRow) : Prop := ∀ value ∈ row.amounts, FitsTable value

instance (row : TradeRow) : Decidable row.Fits := List.decidableBAll _ _

/-- The row is normalized and passes every constraint of TRADE. -/
def Accepted (row : TradeRow) : Prop :=
  ∃ stored, row.store = .ok stored ∧ stored.Checks

variable {row : TradeRow} {stored : StoredTrade}

/-- The columns of a stored row that a constraint reads. -/
structure StoredAs (row : TradeRow) (stored : StoredTrade) : Prop where
  entryPrice : scaleDecimal row.trade.entryPrice = .ok stored.entryPrice
  entryQuantity : scaleDecimal row.trade.entryQuantity = .ok stored.entryQuantity
  exitPrice : scaleDecimal row.trade.exitPrice = .ok stored.exitPrice
  exitQuantity : scaleDecimal row.trade.exitQuantity = .ok stored.exitQuantity
  grossPnl : scaleDecimal row.trade.grossPnl = .ok stored.grossPnl
  totalFee : scaleDecimal row.trade.totalFee = .ok stored.totalFee
  slippage : scaleDecimal row.trade.slippage = .ok stored.slippage
  liquidationPenalty : scaleDecimal row.trade.liquidationPenalty = .ok stored.liquidationPenalty
  fundingCost : scaleDecimal row.trade.fundingCost = .ok stored.fundingCost
  netPnl : scaleDecimal row.trade.netPnl = .ok stored.netPnl
  r0 : scaleOption row.trade.r0 = .ok stored.r0
  leverage_eq : stored.leverage = row.trade.leverage
  holdDurationSeconds_eq : stored.holdDurationSeconds = row.trade.holdDurationSeconds
  signalConfidence_eq : stored.signalConfidence = row.trade.signalConfidence
  entryTime_eq : stored.entryTime = wholeMilliseconds row.trade.entryTime
  exitTime_eq : stored.exitTime = wholeMilliseconds row.trade.exitTime
  liquidated_eq : stored.liquidated = row.trade.liquidated
  exitReason_eq : stored.exitReason = row.trade.exitReason

theorem store_eq_ok (h : row.store = .ok stored) : StoredAs row stored := by
  unfold store at h
  simp only [Except.bind_eq_ok] at h
  obtain ⟨_, h1, _, h2, _, h3, _, h4, _, h5, _, h6, _, h7, _, h8, _, h9, _, h10, _, h11, h⟩ := h
  cases h
  exact ⟨h1, h2, h3, h4, h5, h6, h7, h8, h9, h10, h11, rfl, rfl, rfl, rfl, rfl, rfl, rfl⟩

theorem exists_scaleOption_iff {value : Option Decimal} (h : ∀ amount ∈ value, IsMoney amount) :
    (∃ scaled, scaleOption value = .ok scaled) ↔ ∀ amount ∈ value.toList, FitsTable amount := by
  cases value with
  | none => exact ⟨fun _ => nofun, fun _ => ⟨none, rfl⟩⟩
  | some amount =>
    rw [Option.toList_some, List.forall_mem_singleton, ← exists_scaleDecimal_iff (h amount rfl)]
    constructor
    · rintro ⟨scaled, hscaled⟩
      obtain ⟨n, hn, -⟩ := Except.bind_eq_ok.1 hscaled
      exact ⟨n, hn⟩
    · rintro ⟨n, hn⟩
      exact ⟨some n, Except.bind_eq_ok.2 ⟨n, hn, rfl⟩⟩

theorem exists_store_iff (h : ∀ value ∈ row.amounts, IsMoney value) :
    (∃ stored, row.store = .ok stored) ↔ row.Fits := by
  have hrisk : ∀ amount ∈ row.trade.r0, IsMoney amount := by
    intro amount hamount
    exact h amount (List.mem_append_right _ (Option.mem_toList.2 hamount))
  -- a row fits when each of its columns can be scaled, the initial risk if there is one
  have hfits : (∀ value ∈ row.amounts, FitsTable value) ↔
      (∀ value ∈ row.columns, ∃ n, scaleDecimal value = .ok n) ∧
        ∃ scaled, scaleOption row.trade.r0 = .ok scaled := by
    rw [exists_scaleOption_iff hrisk]
    unfold amounts at h ⊢
    rw [List.forall_mem_append] at h ⊢
    exact and_congr (forall₂_congr fun value hvalue =>
      (exists_scaleDecimal_iff (h.1 value hvalue)).symm) Iff.rfl
  unfold Fits
  rw [hfits]
  unfold columns
  simp only [List.forall_mem_cons, List.not_mem_nil, IsEmpty.forall_iff, implies_true, and_true]
  constructor
  · rintro ⟨stored, hstored⟩
    have hcolumns := store_eq_ok hstored
    exact ⟨⟨⟨_, hcolumns.entryPrice⟩, ⟨_, hcolumns.entryQuantity⟩, ⟨_, hcolumns.exitPrice⟩,
      ⟨_, hcolumns.exitQuantity⟩, ⟨_, hcolumns.grossPnl⟩, ⟨_, hcolumns.totalFee⟩,
      ⟨_, hcolumns.slippage⟩, ⟨_, hcolumns.liquidationPenalty⟩, ⟨_, hcolumns.fundingCost⟩,
      ⟨_, hcolumns.netPnl⟩⟩, ⟨_, hcolumns.r0⟩⟩
  · rintro ⟨⟨⟨_, h1⟩, ⟨_, h2⟩, ⟨_, h3⟩, ⟨_, h4⟩, ⟨_, h5⟩, ⟨_, h6⟩, ⟨_, h7⟩, ⟨_, h8⟩, ⟨_, h9⟩,
      ⟨_, h10⟩⟩, ⟨_, h11⟩⟩
    exact ⟨_, Except.bind_eq_ok.2 ⟨_, h1, Except.bind_eq_ok.2 ⟨_, h2, Except.bind_eq_ok.2 ⟨_, h3,
      Except.bind_eq_ok.2 ⟨_, h4, Except.bind_eq_ok.2 ⟨_, h5, Except.bind_eq_ok.2 ⟨_, h6,
        Except.bind_eq_ok.2 ⟨_, h7, Except.bind_eq_ok.2 ⟨_, h8, Except.bind_eq_ok.2 ⟨_, h9,
          Except.bind_eq_ok.2 ⟨_, h10, Except.bind_eq_ok.2 ⟨_, h11, rfl⟩⟩⟩⟩⟩⟩⟩⟩⟩⟩⟩⟩

/-- The amounts of a completed trade are money. -/
theorem isMoney_amounts {trade : Trade} (h : row.trade = trade.quantized) :
    ∀ value ∈ row.amounts, IsMoney value := by
  unfold amounts columns
  rw [List.forall_mem_append, h]
  constructor
  · simp only [List.forall_mem_cons, List.not_mem_nil, IsEmpty.forall_iff, implies_true, and_true]
    exact ⟨isMoney_quantizeAmount _, isMoney_quantizeAmount _, isMoney_quantizeAmount _,
      isMoney_quantizeAmount _, isMoney_quantizeAmount _, isMoney_quantizeAmount _,
      isMoney_quantizeAmount _, isMoney_quantizeAmount _, isMoney_quantizeAmount _,
      isMoney_quantizeAmount _⟩
  · intro value hvalue
    obtain ⟨risk, -, rfl⟩ := Option.mem_map.1 (Option.mem_toList.1 hvalue)
    exact isMoney_quantizeAmount _

/-- The net profit of a valid trade of whole units is what the table computes. -/
theorem StoredAs.netPnl_eq (h : StoredAs row stored) (hvalid : row.trade.Valid) :
    stored.netPnl = stored.grossPnl - stored.totalFee - stored.slippage - stored.fundingCost -
      stored.liquidationPenalty := by
  obtain ⟨hgross, -⟩ := scaleDecimal_eq_ok.1 h.grossPnl
  obtain ⟨hfee, -⟩ := scaleDecimal_eq_ok.1 h.totalFee
  obtain ⟨hslippage, -⟩ := scaleDecimal_eq_ok.1 h.slippage
  obtain ⟨hfunding, -⟩ := scaleDecimal_eq_ok.1 h.fundingCost
  obtain ⟨hpenalty, -⟩ := scaleDecimal_eq_ok.1 h.liquidationPenalty
  obtain ⟨hnet, -⟩ := scaleDecimal_eq_ok.1 h.netPnl
  have hunits : row.trade.grossPnl - row.trade.totalFee - row.trade.slippage -
      row.trade.fundingCost - row.trade.liquidationPenalty =
        ((stored.grossPnl - stored.totalFee - stored.slippage - stored.fundingCost -
          stored.liquidationPenalty : ℤ) : Decimal) * qAmount := by
    rw [hgross, hfee, hslippage, hfunding, hpenalty]
    push_cast
    ring
  have hidentity := hvalid.netPnl_eq
  rw [hunits, IsMoney.quantizeAmount_eq ⟨_, rfl⟩, hnet] at hidentity
  exact_mod_cast mul_right_cancel₀ qAmount_pos.ne' hidentity

/-- The stored initial risk is positive when the recorded one is. -/
theorem StoredAs.r0_pos_iff (h : StoredAs row stored) :
    (∀ value ∈ stored.r0, 0 < value) ↔ ∀ risk ∈ row.trade.r0, 0 < risk := by
  have hscaled := h.r0
  cases hrisk : row.trade.r0 with
  | none =>
    rw [hrisk] at hscaled
    injection hscaled with hscaled
    rw [← hscaled]
    exact ⟨fun _ => nofun, fun _ => nofun⟩
  | some risk =>
    rw [hrisk] at hscaled
    obtain ⟨n, hn, hstored⟩ := Except.bind_eq_ok.1 hscaled
    injection hstored with hstored
    rw [← hstored]
    simp only [Option.mem_some_iff, forall_eq']
    exact scaleDecimal_pos_iff hn

/-- A valid trade that ends later than it began passes every constraint but the one on the
initial risk. -/
theorem StoredAs.checks_iff (h : StoredAs row stored) (hvalid : row.trade.Valid)
    (htimes : wholeMilliseconds row.trade.entryTime < wholeMilliseconds row.trade.exitTime) :
    stored.Checks ↔ ∀ risk ∈ row.trade.r0, 0 < risk := by
  constructor
  · intro hchecks
    exact h.r0_pos_iff.1 hchecks.r0_pos
  · intro hrisk
    -- every other check follows from a valid trade
    exact {
      entryPrice_pos := (scaleDecimal_pos_iff h.entryPrice).2 hvalid.entryPrice_pos
      entryQuantity_pos := (scaleDecimal_pos_iff h.entryQuantity).2 hvalid.entryQuantity_pos
      exitPrice_pos := (scaleDecimal_pos_iff h.exitPrice).2 hvalid.exitPrice_pos
      exitQuantity_pos := (scaleDecimal_pos_iff h.exitQuantity).2 hvalid.exitQuantity_pos
      totalFee_nonneg := (scaleDecimal_nonneg_iff h.totalFee).2 hvalid.totalFee_nonneg
      slippage_nonneg := (scaleDecimal_nonneg_iff h.slippage).2 hvalid.slippage_nonneg
      liquidationPenalty_nonneg :=
        (scaleDecimal_nonneg_iff h.liquidationPenalty).2 hvalid.liquidationPenalty_nonneg
      r0_pos := h.r0_pos_iff.2 hrisk
      one_le_leverage := by
        rw [h.leverage_eq]
        exact hvalid.leverage_pos
      holdDurationSeconds_nonneg := by
        rw [h.holdDurationSeconds_eq]
        exact hvalid.holdDurationSeconds_nonneg
      confidence := by
        rw [h.signalConfidence_eq]
        exact hvalid.confidence
      entryTime_lt_exitTime := by
        rw [h.entryTime_eq, h.exitTime_eq]
        exact htimes
      netPnl_eq := h.netPnl_eq hvalid
      liquidated_iff := by
        rw [h.liquidated_eq, h.exitReason_eq]
        exact hvalid.liquidated_iff }

/-- **The TRADE row of a completed trade** is accepted exactly when it fits and its initial
risk does not round to zero. -/
theorem accepted_iff {input : RunInput} {active : ActiveTrade} {exitFill : Fill}
    {exitExecutionId : ℕ} {trade : Trade}
    (hcompleted : Engine.completedTrade input active exitFill = .ok trade)
    (hactive : Engine.IsActive active)
    (hlater : active.entryFill.timestamp < exitFill.timestamp)
    (hwhole : WholeMillisecond exitFill.timestamp) :
    (Engine.tradeRow active exitExecutionId trade).Accepted ↔
      (Engine.tradeRow active exitExecutionId trade).Fits ∧
        ∀ stop ∈ active.signal.stopLoss, qAmount / 2 <
          |active.entryFill.referencePrice - toDecimal stop| * active.entryFill.quantity := by
  obtain ⟨hvalid, -, -, hentryTime, -, -, hexitTime, hr0⟩ :=
    Engine.completedTrade_eq_ok hcompleted
  have hmoney : ∀ value ∈ (Engine.tradeRow active exitExecutionId trade).amounts,
      IsMoney value := by
    obtain ⟨ratio, -, htrade⟩ := Except.bind_eq_ok.1 hcompleted
    exact isMoney_amounts (Trade.postInit_eq_ok htrade).1
  have htimes : wholeMilliseconds trade.entryTime < wholeMilliseconds trade.exitTime := by
    rw [hentryTime, hexitTime]
    exact hactive.wholeMillisecond.wholeMilliseconds_lt hwhole hlater
  -- the initial risk is the rounded distance to the stop
  have hrisk : (∀ risk ∈ trade.r0, 0 < risk) ↔ ∀ stop ∈ active.signal.stopLoss, qAmount / 2 <
      |active.entryFill.referencePrice - toDecimal stop| * active.entryFill.quantity := by
    rw [hr0, hactive.r0_eq]
    unfold Engine.initialRisk
    cases active.signal.stopLoss with
    | none => exact ⟨fun _ => nofun, fun _ => nofun⟩
    | some stop =>
      simp only [Option.map_some, Option.mem_some_iff, forall_eq', quantizeAmount_quantizeAmount]
      exact quantizeAmount_pos_iff
  rw [← exists_store_iff hmoney, ← hrisk]
  constructor
  · rintro ⟨stored, hstored, hchecks⟩
    exact ⟨⟨stored, hstored⟩, ((store_eq_ok hstored).checks_iff hvalid htimes).1 hchecks⟩
  · rintro ⟨⟨stored, hstored⟩, hpositive⟩
    exact ⟨stored, hstored, ((store_eq_ok hstored).checks_iff hvalid htimes).2 hpositive⟩

end TradeRow

/-! ### A stop at the open -/

namespace Engine

theorem wholeEquity_valid : (SizingMethod.pct (Binary64.ofRat 1)).Valid := by decide +kernel

theorem capital_pos : (0 : Decimal) < 100000 := by norm_num

/-- Buy at two dollars with a stop one dollar away. -/
def buyAtTwo : ℕ → StrategyAnswer
  | 0 => .signal (hourlySignal .futures ⟨Binary64.ofRat 2, twoDollars_pos⟩
      (some ⟨Binary64.ofRat 1, oneDollar_pos⟩) none none none noLeverage_pos)
  | _ => .nothing

/-- One hour at two dollars, and three that open at the stop. -/
def fallingHours : List (ℕ × Price) :=
  [(1, ⟨Binary64.ofRat 2, twoDollars_pos⟩), (2, ⟨Binary64.ofRat 1, oneDollar_pos⟩),
    (3, ⟨Binary64.ofRat 1, oneDollar_pos⟩), (4, ⟨Binary64.ofRat 1, oneDollar_pos⟩)]

theorem fallingHours_ascending :
    fallingHours.Pairwise fun left right => left.1 < right.1 := by
  decide

/-- A run that allocates the whole equity. -/
def fallingRun : RunInput :=
  hourly .futures 100000 (.pct (Binary64.ofRat 1)) fallingHours buyAtTwo capital_pos
    wholeEquity_valid fallingHours_ascending

/-- A trade without initial risk. -/
def isRiskless : EvidenceRecord → Bool
  | .trade row => decide (row.trade.r0 = some 0)
  | _ => false

/-- An execution that fits and whose notional is not small. -/
def isLargeExecution : EvidenceRecord → Bool
  | .execution row => decide (row.Fits ∧ qAmount / 2 < row.price * row.quantity)
  | _ => false

theorem fallingRun_riskless :
    (simulated fallingRun (fun _ => true) 17).any (·.2.records.any isRiskless) = true := by
  decide +kernel

theorem fallingRun_largeExecution :
    (simulated fallingRun (fun _ => true) 8).any (·.2.records.any isLargeExecution) = true := by
  decide +kernel

/-! ### Every row of a run -/

variable {input : RunInput}

/-- **What the tables accept of a run.** Of every row that a run records, whatever it is run
on: an EXECUTION row is accepted exactly when it fits and its notional does not round to zero,
a TRADE row exactly when it fits and its initial risk does not. -/
theorem evidence_accepted_iff {state : RunState} (h : (system input).Reachable state) :
    (∀ row, .execution row ∈ state.2.records →
      (row.Accepted ↔ row.Fits ∧ qAmount / 2 < row.price * row.quantity)) ∧
    (∀ row, .trade row ∈ state.2.records → ∃ active exitFill exitExecutionId trade,
      row = tradeRow active exitExecutionId trade ∧
      completedTrade input active exitFill = .ok trade ∧
      (row.Accepted ↔ row.Fits ∧ ∀ stop ∈ active.signal.stopLoss, qAmount / 2 <
        |active.entryFill.referencePrice - toDecimal stop| * active.entryFill.quantity)) := by
  obtain ⟨held, hcoherent, -⟩ := inv_of_reachable h
  constructor
  · intro row hrow
    exact ExecutionRow.accepted_iff (hcoherent.genuine _ hrow)
  · intro row hrow
    obtain ⟨active, exitFill, exitExecutionId, trade, rfl, hcompleted, hactive, hlater, hwhole⟩ :=
      hcoherent.genuine _ hrow
    exact ⟨active, exitFill, exitExecutionId, trade, rfl, hcompleted,
      TradeRow.accepted_iff hcompleted hactive hlater hwhole⟩

/-- The entry at the open is accepted. -/
theorem evidence_accepted_iff_of_entry : ∃ state row, (system fallingRun).Reachable state ∧
    .execution row ∈ state.2.records ∧ row.Accepted := by
  obtain ⟨state, hstate, hlarge⟩ := exists_of_simulated fallingRun (fun _ => true) 8
    (·.2.records.any isLargeExecution) fallingRun_largeExecution
  obtain ⟨record, hrecord, htest⟩ := List.any_eq_true.1 hlarge
  have hreachable := reachable_of_simulated hstate
  unfold isLargeExecution at htest
  split at htest
  · next row =>
    exact ⟨state, row, hreachable, hrecord,
      ((evidence_accepted_iff hreachable).1 row hrecord).2 (of_decide_eq_true htest)⟩
  · cases htest

/-- **A trade filled at its own stop** has no initial risk, and the table refuses it. -/
theorem not_all_accepted_of_stop_at_open :
    ¬∀ (input : RunInput) (state : RunState), (system input).Reachable state →
      (∀ row, .execution row ∈ state.2.records → row.Accepted) ∧
        ∀ row, .trade row ∈ state.2.records → row.Accepted := by
  intro hclaim
  obtain ⟨state, hstate, hriskless⟩ := exists_of_simulated fallingRun (fun _ => true) 17
    (·.2.records.any isRiskless) fallingRun_riskless
  obtain ⟨record, hrecord, htest⟩ := List.any_eq_true.1 hriskless
  unfold isRiskless at htest
  split at htest
  · next row =>
    obtain ⟨stored, hstored, hchecks⟩ :=
      (hclaim fallingRun state (reachable_of_simulated hstate)).2 row hrecord
    have hpositive := (TradeRow.store_eq_ok hstored).r0_pos_iff.1 hchecks.r0_pos
    exact absurd (hpositive 0 (of_decide_eq_true htest)) (lt_irrefl 0)
  · cases htest

end Engine
end TradingSystem
