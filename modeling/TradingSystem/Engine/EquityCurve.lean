import TradingSystem.Engine.RunCoherence
import TradingSystem.Engine.PhaseSteps
import TradingSystem.Engine.Indicators
import TradingSystem.Logic.Journal

/-!
# The equity curve

A bar of the evaluation leaves one PORTFOLIO_PNL row and one point of the equity curve, and so
does the end of the run; nothing else does (`OffGrid`). `Balanced` is what the constraints of the
table ask of a row and the rows before it. The series are defined before the first bar only.

* `balanced_of_reachable` — the rows of every run are balanced.
* `barGrid_of_reachable` — what the audit reads as the bars of a run are those of the evaluation.
-/

namespace TradingSystem

open Numeric Logic

/-- The PORTFOLIO_PNL rows of the evidence. -/
def portfolioRow? : EvidenceRecord → Option PortfolioRow
  | .portfolio row => some row
  | _ => none

def portfolioRows (records : List EvidenceRecord) : List PortfolioRow :=
  records.filterMap portfolioRow?

theorem portfolioRows_append {records rows : List EvidenceRecord} :
    portfolioRows (records ++ rows) = portfolioRows records ++ portfolioRows rows :=
  List.filterMap_append

theorem portfolioRows_eq_nil {rows : List EvidenceRecord}
    (h : ∀ row ∈ rows, portfolioRow? row = none) : portfolioRows rows = [] :=
  List.filterMap_eq_nil_iff.2 h

/-- The INDICATOR_DEFINITION rows of the evidence. -/
def definitionRow? : EvidenceRecord → Option IndicatorDefinitionRow
  | .indicatorDefinition row => some row
  | _ => none

/-- The series keys that are defined, in the order of their rows. -/
def definitionKeys (records : List EvidenceRecord) : List SeriesKey :=
  (records.filterMap definitionRow?).map (·.indicatorKey)

theorem definitionKeys_append {records rows : List EvidenceRecord} :
    definitionKeys (records ++ rows) = definitionKeys records ++ definitionKeys rows := by
  unfold definitionKeys
  rw [List.filterMap_append, List.map_append]

theorem definitionKeys_eq_nil {rows : List EvidenceRecord}
    (h : ∀ row ∈ rows, definitionRow? row = none) : definitionKeys rows = [] := by
  unfold definitionKeys
  rw [List.filterMap_eq_nil_iff.2 h, List.map_nil]

namespace Engine

variable {input : RunInput} {s s' : EngineState} {fill : Fill} {candle : Candle}

/-! ### Off the grid -/

/-- A row that is neither of the equity table nor a definition. -/
def OtherRow (row : EvidenceRecord) : Prop := portfolioRow? row = none ∧ definitionRow? row = none

/-- The costs booked so far. -/
structure CostsNonneg (s : EngineState) : Prop where
  trades : ∀ trade ∈ s.trades, 0 ≤ trade.totalFee ∧ 0 ≤ trade.slippage
  active : ∀ active ∈ s.activeTrade, 0 ≤ active.totalFee ∧ 0 ≤ active.slippage

theorem otherRow_decision {row : DecisionRow} :
    ∀ other ∈ [EvidenceRecord.decision row], OtherRow other := by
  simp [OtherRow, portfolioRow?, definitionRow?]

/-- **Off the grid**: no PORTFOLIO_PNL row and no point of the curve; no definition either. -/
structure OffGrid (s s' : EngineState) : Prop where
  rows_eq : portfolioRows s'.records = portfolioRows s.records
  definitions_eq : definitionKeys s'.records = definitionKeys s.records
  curve_eq : s'.equityCurve = s.equityCurve
  costs : CostsNonneg s → CostsNonneg s'

theorem OffGrid.refl (s : EngineState) : OffGrid s s := ⟨rfl, rfl, rfl, id⟩

theorem OffGrid.trans {s'' : EngineState} (h : OffGrid s s') (h' : OffGrid s' s'') :
    OffGrid s s'' :=
  ⟨h'.rows_eq.trans h.rows_eq, h'.definitions_eq.trans h.definitions_eq,
    h'.curve_eq.trans h.curve_eq, fun hcosts => h'.costs (h.costs hcosts)⟩

/-- The active trade may change, its costs may not. -/
theorem OffGrid.of_same {f : ActiveTrade → ActiveTrade} (hrecords : s'.records = s.records)
    (hcurve : s'.equityCurve = s.equityCurve) (htrades : s'.trades = s.trades)
    (hactive : s'.activeTrade = s.activeTrade.map f)
    (hf : ∀ active, (f active).totalFee = active.totalFee ∧ (f active).slippage = active.slippage) :
    OffGrid s s' := by
  refine ⟨by rw [hrecords], by rw [hrecords], hcurve,
    fun hcosts => ⟨by rw [htrades]; exact hcosts.trades, ?_⟩⟩
  intro active' hactive'
  rw [hactive, Option.mem_map] at hactive'
  obtain ⟨active, hmem, rfl⟩ := hactive'
  rw [(hf active).1, (hf active).2]
  exact hcosts.active active hmem

theorem OffGrid.of_eq (hrecords : s'.records = s.records) (hcurve : s'.equityCurve = s.equityCurve)
    (htrades : s'.trades = s.trades) (hactive : s'.activeTrade = s.activeTrade) : OffGrid s s' :=
  .of_same hrecords hcurve htrades (hactive.trans Option.map_id'.symm) fun _ => ⟨rfl, rfl⟩

theorem OffGrid.of_logs {rows : List EvidenceRecord} (h : Logs rows s s')
    (hrows : ∀ row ∈ rows, OtherRow row) : OffGrid s s' := by
  obtain ⟨sequence, rfl⟩ := h
  refine ⟨?_, ?_, rfl, fun hcosts => ⟨hcosts.trades, hcosts.active⟩⟩
  · rw [portfolioRows_append, portfolioRows_eq_nil fun row hrow => (hrows row hrow).1,
      List.append_nil]
  · rw [definitionKeys_append, definitionKeys_eq_nil fun row hrow => (hrows row hrow).2,
      List.append_nil]

theorem OffGrid.of_counters (h : Logs [] s s') : OffGrid s s' := .of_logs h (by simp)

/-! ### Fills -/

/-- Costs are added up. -/
theorem addCosts_nonneg {active : ActiveTrade}
    (h : 0 ≤ active.totalFee ∧ 0 ≤ active.slippage) :
    0 ≤ (ActiveTrade.addCosts active fill).totalFee ∧
      0 ≤ (ActiveTrade.addCosts active fill).slippage :=
  ⟨quantizeAmount_nonneg (add_nonneg h.1 fill.fee_nonneg),
    quantizeAmount_nonneg (add_nonneg h.2 fill.slippage_nonneg)⟩

/-- The rows of a completed trade. -/
theorem completionRows_offGrid {active : ActiveTrade} {exitExecutionId : ℕ} {trade : Trade}
    {items : List (FeaturePhase × ℤ × Features × Option Decimal)} {features : List EvidenceRecord}
    {tradeId : ℕ} (h : List.Forall₂ (IsFeatureRow tradeId) items features) :
    ∀ row ∈ completionRows active exitExecutionId trade features, OtherRow row := by
  have hfeatures : ∀ row ∈ features, OtherRow row :=
    forall_of_forall₂ h fun _ _ hrow => by
      obtain ⟨feature, rfl, -⟩ := hrow
      exact ⟨rfl, rfl⟩
  intro row hrow
  unfold completionRows at hrow
  simp only [List.mem_cons, List.mem_append, List.mem_map] at hrow
  rcases hrow with rfl | ((⟨_, -, rfl⟩ | ⟨_, -, rfl⟩) | ⟨_, -, rfl⟩) | hrow
  · exact ⟨rfl, rfl⟩
  · exact ⟨rfl, rfl⟩
  · exact ⟨rfl, rfl⟩
  · exact ⟨rfl, rfl⟩
  · exact hfeatures row hrow

theorem applyFill_offGrid {decisionId : Option ℕ} {signal : Option TradingSignal}
    {candidateId : Option ℕ}
    (h : applyFill input fill decisionId signal candidateId s = .ok ⟨⟩ s') : OffGrid s s' := by
  obtain ⟨held, executionId, s₁, -, hexecution, h⟩ := applyFill_eq_ok h
  refine OffGrid.trans (.of_logs hexecution (by simp [OtherRow, portfolioRow?, definitionRow?])) ?_
  cases hreduce : fill.reduceOnly with
  | true =>
    rw [hreduce, if_pos rfl] at h
    obtain ⟨_, active, cash, _, book, _, -, hactive, -, -, -, -,
      ⟨_, -, rfl⟩ | ⟨-, trade, features, htrade, hfeatures, hlogs⟩⟩ := applyExit_eq_ok hreduce h
    · refine ⟨rfl, rfl, rfl, fun hcosts => ⟨hcosts.trades, fun active' hactive' => ?_⟩⟩
      cases hactive'
      exact addCosts_nonneg (hcosts.active active hactive)
    · refine OffGrid.trans ?_ (.of_logs hlogs (completionRows_offGrid hfeatures))
      refine ⟨rfl, rfl, rfl, fun hcosts => ⟨fun other hother => ?_, fun _ hmem => by cases hmem⟩⟩
      rcases List.mem_append.1 hother with hother | hother
      · exact hcosts.trades other hother
      · -- the constructor of a trade checks its costs
        rw [List.mem_singleton.1 hother]
        have hvalid := (completedTrade_eq_ok htrade).1
        exact ⟨hvalid.totalFee_nonneg, hvalid.slippage_nonneg⟩
  | false =>
    rw [hreduce, if_neg Bool.false_ne_true] at h
    obtain ⟨_, book, _, -, -, -, -, -, ⟨active, hactive, rfl⟩ |
      ⟨hactive, origin, tradeId, -, hlogs⟩⟩ := applyEntry_eq_ok h.2
    · refine ⟨rfl, rfl, rfl, fun hcosts => ⟨hcosts.trades, fun active' hactive' => ?_⟩⟩
      cases hactive'
      exact addCosts_nonneg (hcosts.active active hactive)
    · refine OffGrid.trans ?_ (.of_counters hlogs)
      refine ⟨rfl, rfl, rfl, fun hcosts => ⟨hcosts.trades, fun active' hactive' => ?_⟩⟩
      cases hactive'
      exact ⟨fill.fee_nonneg, fill.slippage_nonneg⟩

/-! ### The open of a bar -/

theorem settleAtBoundary_offGrid {boundary : ℤ}
    (h : settleAtBoundary input boundary s = .ok ⟨⟩ s') : OffGrid s s' := by
  rcases settleAtBoundary_eq_ok h with ⟨rfl, -⟩ | ⟨position, active, -, -, -, hactive, -, -, h⟩
  · exact .refl _
  · obtain ⟨price, cost, held, result, charged, row, s₁, -, -, -, -, -, hlogs, h⟩ := settle_eq_ok h
    have hcharged : OffGrid s (settled s position charged active boundary row result) :=
      .of_same (f := fun active => ActiveTrade.addFunding active boundary row result) rfl rfl rfl
        (by rw [hactive]; rfl) fun _ => ⟨rfl, rfl⟩
    have hsettled : OffGrid s s₁ := hcharged.trans (.of_counters hlogs)
    cases hexhausted : result.exhausted with
    | false =>
      rw [hexhausted, if_neg Bool.false_ne_true] at h
      rw [h]
      exact hsettled
    | true =>
      rw [hexhausted, if_pos rfl] at h
      obtain ⟨remaining, -, h⟩ := h
      obtain ⟨decision, s₂, fill, hdecision, -, -, hfill⟩ := liquidateExhausted_eq_ok h
      exact hsettled.trans ((OffGrid.of_logs hdecision otherRow_decision).trans
        (applyFill_offGrid hfill))

theorem executePending_offGrid {pending : PendingOrder}
    (h : executePending input candle pending s = .ok ⟨⟩ s') : OffGrid s s' := by
  obtain ⟨_, _, fill, s₁, -, -, -, hlogs, -, hfill⟩ := executePending_eq_ok h
  exact (OffGrid.of_counters hlogs).trans (applyFill_offGrid hfill)

/-- Tracking the extremes of a trade costs nothing. -/
theorem tracked_costs {position : Position} {features : Features} (active : ActiveTrade) :
    (tracked candle position features active).totalFee = active.totalFee ∧
      (tracked candle position features active).slippage = active.slippage := by
  unfold tracked
  split <;> exact ⟨rfl, rfl⟩

theorem protect_offGrid (h : protect input candle s = .ok ⟨⟩ s') : OffGrid s s' := by
  obtain ⟨held, -, ⟨rfl, -⟩ | ⟨position, fill, row, s₁, -, -, hlogs, hfill⟩⟩ := protect_eq_ok h
  · exact .refl _
  · have htracked : OffGrid s (withTracking input candle position s) :=
      .of_same rfl rfl rfl rfl tracked_costs
    exact htracked.trans ((OffGrid.of_logs hlogs otherRow_decision).trans
      (applyFill_offGrid hfill))

/-! ### The close of a bar, gaps and the end -/

theorem updateIndicators_offGrid (h : updateIndicators input candle s = .ok ⟨⟩ s') :
    OffGrid s s' ∧ s'.cash = s.cash := by
  obtain ⟨board, rows, -, hrows, hlogs⟩ := updateIndicators_eq_ok h
  have hboard : OffGrid s { s with board := board } := .of_eq rfl rfl rfl rfl
  refine ⟨hboard.trans (.of_logs hlogs (forall_of_forall₂ hrows fun _ _ hrow => ?_)),
    hlogs.cash_eq⟩
  obtain ⟨_, _, rfl, -⟩ := hrow
  exact ⟨rfl, rfl⟩

theorem markPosition_offGrid {mark : Decimal} (h : markPosition input candle mark s = .ok ⟨⟩ s') :
    OffGrid s s' ∧ s'.cash = s.cash := by
  obtain ⟨held, -, ⟨-, rfl⟩ | ⟨_, _, _, -, -, -, tracks, htracks, rfl⟩⟩ := markPosition_eq_ok h
  · exact ⟨.refl _, rfl⟩
  · refine ⟨.of_same rfl rfl rfl rfl fun active => ?_, rfl⟩
    obtain ⟨_, _, hactive⟩ := htracks active
    rw [hactive]
    exact ⟨rfl, rfl⟩

/-- Recording the position reads it. -/
theorem positionOf_of_recordPosition {mark : Decimal}
    (h : recordPosition input candle mark s = .ok ⟨⟩ s') :
    ∃ held, positionOf input s.book = .ok held := by
  unfold recordPosition at h
  simp only [bind_eq_ok, currentPosition_eq_ok] at h
  obtain ⟨held, _, ⟨hheld, -⟩, -⟩ := h
  exact ⟨held, hheld⟩

theorem recordPosition_offGrid {mark : Decimal}
    (h : recordPosition input candle mark s = .ok ⟨⟩ s') : OffGrid s s' ∧ s'.cash = s.cash := by
  obtain ⟨held, hheld⟩ := positionOf_of_recordPosition h
  obtain ⟨row, -, ⟨active, -, hactive, hlogs⟩ | ⟨-, hlogs⟩⟩ := recordPosition_eq_ok hheld h
  · have hbuffered : OffGrid s
        { s with activeTrade := some (ActiveTrade.addPosition active row) } :=
      .of_same (f := fun active => ActiveTrade.addPosition active row) rfl rfl rfl
        (by rw [hactive]; rfl) fun _ => ⟨rfl, rfl⟩
    exact ⟨hbuffered.trans (.of_counters hlogs), hlogs.cash_eq⟩
  · exact ⟨.of_logs hlogs (by simp [OtherRow, portfolioRow?, definitionRow?]), hlogs.cash_eq⟩

theorem handleAnswer_offGrid {answer : StrategyAnswer} {held : Option Position}
    (hheld : positionOf input s.book = .ok held)
    (h : handleAnswer input candle answer s = .ok ⟨⟩ s') : OffGrid s s' := by
  obtain ⟨orders, -, rows, hrows, hlogs⟩ := handleAnswer_eq_ok hheld h
  have hqueued : OffGrid s (queued s orders) := .of_eq rfl rfl rfl rfl
  refine hqueued.trans (.of_logs hlogs fun row hrow => ?_)
  have hclerical := hrows row hrow
  cases row <;> first | exact ⟨rfl, rfl⟩ | cases hclerical

theorem closeAtTerminal_offGrid {last : Candle} {position : Position} {reason : ExitReason}
    {decisionId : Option ℕ}
    (h : closeAtTerminal input last position reason decisionId s = .ok ⟨⟩ s') : OffGrid s s' := by
  obtain ⟨_, _, fill, s₁, -, -, hlogs, hfill⟩ := closeAtTerminal_eq_ok h
  exact (OffGrid.of_counters hlogs).trans (applyFill_offGrid hfill)

theorem betweenBars_offGrid {next : Candle} (h : betweenBars input candle next s = .ok ⟨⟩ s') :
    OffGrid s s' := by
  unfold betweenBars at h
  split at h
  · obtain ⟨held, -, -, ⟨-, rfl⟩ | ⟨position, row, s₁, s₂, count, -, hlogs, hclose, rfl⟩⟩ :=
      closeAtDataGap_eq_ok h
    · exact .refl _
    · have hcount : OffGrid s₂ { s₂ with dataGapExitCount := count } := .of_eq rfl rfl rfl rfl
      exact (OffGrid.of_logs hlogs otherRow_decision).trans
        ((closeAtTerminal_offGrid hclose).trans hcount)
  · cases h
    exact .refl _

/-! ### Rows of the grid -/

/-- **A balanced row**: what the table's constraints ask of a row, and a peak that is the highest
equity of the rows up to it. -/
structure Balanced (before : List PortfolioRow) (row : PortfolioRow) : Prop where
  /-- `CHECK (cash_balance + position_value = total_equity)`. -/
  identity : row.cashBalance + row.positionValue = row.totalEquity
  cashBalance_nonneg : 0 ≤ row.cashBalance
  feeCum_nonneg : 0 ≤ row.feeCum
  slippageCum_nonneg : 0 ≤ row.slippageCum
  peak : IsGreatest {equity | equity ∈ (before ++ [row]).map (·.totalEquity)} row.peakEquity
  drawdown_nonpos : row.drawdownPct ≤ Binary64.zero
  openPositions_le : row.openPositions ≤ 1

/-- The greatest element of a list and its maximum. -/
theorem isGreatest_max? {values : List Decimal} {value default : Decimal} (hne : values ≠ [])
    (h : values.max?.getD default = value) : IsGreatest {v | v ∈ values} value := by
  cases hmax : values.max? with
  | none => exact absurd (List.max?_eq_none_iff.1 hmax) hne
  | some greatest =>
    rw [hmax] at h
    obtain rfl : greatest = value := h
    obtain ⟨hmem, hle⟩ := List.max?_eq_some_iff.1 hmax
    exact ⟨hmem, fun other hother => hle other hother⟩

/-- The running peak of a bar is the highest equity up to it. -/
theorem isGreatest_peak {curve : List (ℤ × Decimal)} {equity : Decimal} :
    IsGreatest {value | value ∈ curve.map Prod.snd ++ [equity]}
      (max (curvePeak curve equity) equity) := by
  by_cases hnil : curve.map Prod.snd = []
  · unfold curvePeak
    rw [hnil]
    refine ⟨?_, fun value hvalue => ?_⟩
    · simp
    · simp only [List.nil_append, Set.mem_ofPred_eq, List.mem_singleton] at hvalue
      rw [hvalue]
      exact le_max_right _ _
  · have hgreatest := isGreatest_max? hnil (rfl : (curve.map Prod.snd).max?.getD equity = _)
    refine ⟨?_, fun value hvalue => ?_⟩
    · rcases max_choice (curvePeak curve equity) equity with hpeak | hpeak
      · rw [hpeak]
        exact List.mem_append_left _ hgreatest.1
      · rw [hpeak]
        exact List.mem_append_right _ (List.mem_singleton_self _)
    · rcases List.mem_append.1 hvalue with hvalue | hvalue
      · exact le_max_of_le_left (hgreatest.2 hvalue)
      · rw [List.mem_singleton.1 hvalue]
        exact le_max_right _ _

/-- An equity below the peak has no positive drawdown. -/
theorem drawdown_nonpos {equity peak : Decimal} (h : equity ≤ peak) :
    drawdown equity peak ≤ Binary64.zero := by
  unfold drawdown
  split
  · next hpeak =>
    have hratio : equity / peak - 1 ≤ 0 := by
      have hle : equity / peak ≤ 1 := (div_le_one hpeak).2 h
      linarith
    have hzero : toFloat 0 = Binary64.zero := Binary64.ext (BinaryFormat.round_zero _)
    rw [← hzero]
    exact toFloat_mono hratio
  · exact le_refl (Binary64.zero.val)

/-- The costs summed up to a row. -/
theorem cumulative_nonneg {trades : List Trade} {active : Option ActiveTrade}
    {ofTrade : Trade → Decimal} {ofActive : ActiveTrade → Decimal}
    (htrades : ∀ trade ∈ trades, 0 ≤ ofTrade trade) (hactive : ∀ a ∈ active, 0 ≤ ofActive a) :
    0 ≤ cumulative trades active ofTrade ofActive := by
  unfold cumulative
  refine add_nonneg (List.sum_nonneg fun value hvalue => ?_) ?_
  · obtain ⟨trade, htrade, rfl⟩ := List.mem_map.1 hvalue
    exact htrades trade htrade
  · cases active with
    | none => exact le_rfl
    | some active => exact hactive active rfl

/-- **The row of an instant** is balanced, whoever gives its peak. -/
theorem balanced_portfolioRow {before : List PortfolioRow} {equitySeq : ℕ} {ts : ℤ}
    {held : Option Position} {peak : Decimal} {active : Option ActiveTrade}
    (hcash : IsMoney s.cash) (hnonneg : 0 ≤ s.cash) (hcosts : CostsNonneg s)
    (hactive : active = none ∨ active = s.activeTrade)
    (hpeak : IsGreatest {equity | equity ∈ before.map (·.totalEquity) ++ [recompute s.cash held]}
      peak) :
    Balanced before (portfolioRow s equitySeq ts held (recompute s.cash held) peak active) := by
  have hsum : s.cash + positionValue held = recompute s.cash held := by
    -- both sides are money, so the rounding of their sum changes nothing
    have hvalue : IsMoney (positionValue held) := by
      unfold positionValue
      split
      · exact isMoney_quantizeAmount _
      · split <;> exact isMoney_quantizeAmount _
    exact (hcash.add hvalue).quantizeAmount_eq.symm
  have hcost : ∀ a ∈ active, 0 ≤ a.totalFee ∧ 0 ≤ a.slippage := by
    intro a ha
    rcases hactive with rfl | rfl
    · cases ha
    · exact hcosts.active a ha
  -- the row's own equity is one of those the peak is the greatest of
  have hlast : recompute s.cash held ≤ peak :=
    hpeak.2 (List.mem_append_right _ (List.mem_singleton_self _))
  exact {
    identity := hsum
    cashBalance_nonneg := hnonneg
    feeCum_nonneg := cumulative_nonneg (fun trade htrade => (hcosts.trades trade htrade).1)
      fun a ha => (hcost a ha).1
    slippageCum_nonneg := cumulative_nonneg (fun trade htrade => (hcosts.trades trade htrade).2)
      fun a ha => (hcost a ha).2
    peak := by
      rw [List.map_append]
      exact hpeak
    drawdown_nonpos := drawdown_nonpos hlast
    openPositions_le := by
      show (if held.isSome then 1 else 0) ≤ 1
      split <;> decide }

/-! ### The curve -/

/-- **The curve** has the points of the rows, and the rows are balanced one after the other. -/
structure CurveKept (s : EngineState) : Prop where
  curve_eq : s.equityCurve = (portfolioRows s.records).map fun row => (row.ts, row.totalEquity)
  rows : Stepwise Balanced (portfolioRows s.records)
  costs : CostsNonneg s

theorem CurveKept.offGrid (h : CurveKept s) (hoff : OffGrid s s') : CurveKept s' := by
  refine ⟨?_, ?_, hoff.costs h.costs⟩
  · rw [hoff.curve_eq, hoff.rows_eq]
    exact h.curve_eq
  · rw [hoff.rows_eq]
    exact h.rows

/-- One more row and its point. -/
theorem CurveKept.append {row : PortfolioRow} (h : CurveKept s)
    (hrow : Balanced (portfolioRows s.records) row)
    (hcurve : s'.equityCurve = s.equityCurve ++ [(row.ts, row.totalEquity)])
    (hrecords : s'.records = s.records ++ [.portfolio row]) (hcosts : CostsNonneg s') :
    CurveKept s' := by
  have hrows : portfolioRows s'.records = portfolioRows s.records ++ [row] := by
    rw [hrecords, portfolioRows_append]
    rfl
  refine ⟨?_, ?_, hcosts⟩
  · rw [hcurve, hrows, List.map_append, h.curve_eq]
    rfl
  · rw [hrows]
    exact h.rows.append hrow

/-- The values of the curve are the equities of the rows. -/
theorem CurveKept.values_eq (h : CurveKept s) :
    s.equityCurve.map Prod.snd = (portfolioRows s.records).map (·.totalEquity) := by
  rw [h.curve_eq, List.map_map]
  rfl

/-- The state with one more point of the curve. -/
def withPoint (s : EngineState) (ts : ℤ) (equity : Decimal) : EngineState :=
  { s with equityCurve := s.equityCurve ++ [(ts, equity)] }

/-- A row and its point keep the curve. -/
theorem CurveKept.row {ts : ℤ} {equitySeq : ℕ} {held : Option Position} {peak : Decimal}
    {active : Option ActiveTrade} (h : CurveKept s) (hcash : IsMoney s.cash) (hnonneg : 0 ≤ s.cash)
    (hactive : active = none ∨ active = s.activeTrade)
    (hpeak : IsGreatest {equity | equity ∈ s.equityCurve.map Prod.snd ++ [recompute s.cash held]}
      peak)
    (hlogs : Logs [.portfolio (portfolioRow s equitySeq ts held (recompute s.cash held) peak
      active)] (withPoint s ts (recompute s.cash held)) s') : CurveKept s' := by
  rw [h.values_eq] at hpeak
  obtain ⟨sequence, rfl⟩ := hlogs
  exact h.append (balanced_portfolioRow hcash hnonneg h.costs hactive hpeak) rfl rfl
    ⟨h.costs.trades, h.costs.active⟩

theorem recordPortfolio_run (hrun : recordPortfolio input candle s = .ok ⟨⟩ s') :
    ∃ equitySeq held, positionOf input s.book = .ok held ∧
      Logs [.portfolio (portfolioRow s equitySeq candle.closeTime held
      (recompute s.cash held) (max (curvePeak s.equityCurve (recompute s.cash held))
        (recompute s.cash held)) s.activeTrade)]
      (withPoint s candle.closeTime (recompute s.cash held)) s' := by
  unfold recordPortfolio at hrun
  simp only [bind_eq_ok, currentPosition_eq_ok, get_bind_apply, modify_apply,
    EStateM.Result.ok.injEq] at hrun
  obtain ⟨held, _, ⟨hheld, rfl⟩, equitySeq, s₁, hnext, _, s₂, hrecord, -, rfl⟩ := hrun
  obtain ⟨sequence, rfl⟩ := next_eq_ok hnext
  obtain ⟨sequence', rfl⟩ := record_eq_ok hrecord
  refine ⟨equitySeq, held, hheld, sequence', ?_⟩
  simp only [List.append_nil]
  rfl

theorem recordTerminalEquity_run (hrun : recordTerminalEquity input candle s = .ok ⟨⟩ s') :
    ∃ equitySeq held, Logs [.portfolio (portfolioRow s equitySeq
      (candle.closeTime + Instant.millisecond) held (recompute s.cash held)
      (curvePeak (s.equityCurve ++ [(candle.closeTime + Instant.millisecond,
        recompute s.cash held)]) (recompute s.cash held)) none)]
      (withPoint s (candle.closeTime + Instant.millisecond) (recompute s.cash held)) s' := by
  unfold recordTerminalEquity at hrun
  simp only [bind_eq_ok, currentPosition_eq_ok, get_bind_apply, set_bind_apply] at hrun
  obtain ⟨held, _, ⟨-, rfl⟩, equitySeq, s₁, hnext, hrecord⟩ := hrun
  obtain ⟨sequence, rfl⟩ := next_eq_ok hnext
  obtain ⟨sequence', rfl⟩ := record_eq_ok hrecord
  refine ⟨equitySeq, held, sequence', ?_⟩
  simp only [List.append_nil]
  rfl

/-- A row of the equity table defines no series. -/
theorem definitionKeys_of_row {row : PortfolioRow} {ts : ℤ} {equity : Decimal}
    (h : Logs [.portfolio row] (withPoint s ts equity) s') :
    definitionKeys s'.records = definitionKeys s.records := by
  obtain ⟨sequence, rfl⟩ := h
  show definitionKeys (s.records ++ _) = _
  rw [definitionKeys_append]
  exact List.append_nil _

/-- **A bar's row** keeps the curve. -/
theorem recordPortfolio_curve (h : CurveKept s) (hcash : IsMoney s.cash) (hnonneg : 0 ≤ s.cash)
    (hrun : recordPortfolio input candle s = .ok ⟨⟩ s') :
    CurveKept s' ∧ (∃ held, positionOf input s'.book = .ok held) ∧
      ∃ equity, s'.equityCurve = s.equityCurve ++ [(candle.closeTime, equity)] := by
  obtain ⟨equitySeq, held, hheld, hlogs⟩ := recordPortfolio_run hrun
  refine ⟨h.row hcash hnonneg (Or.inr rfl) isGreatest_peak hlogs, ⟨held, ?_⟩,
    recompute s.cash held, ?_⟩
  · rw [hlogs.book_eq]
    exact hheld
  obtain ⟨sequence, rfl⟩ := hlogs
  rfl

/-- **The last row** takes its peak from the curve with its own point. -/
theorem recordTerminalEquity_curve (h : CurveKept s) (hcash : IsMoney s.cash)
    (hnonneg : 0 ≤ s.cash) (hrun : recordTerminalEquity input candle s = .ok ⟨⟩ s') :
    CurveKept s' ∧ ∃ equity, s'.equityCurve =
      s.equityCurve ++ [(candle.closeTime + Instant.millisecond, equity)] := by
  obtain ⟨equitySeq, held, hlogs⟩ := recordTerminalEquity_run hrun
  have hpeak : IsGreatest
      {equity | equity ∈ s.equityCurve.map Prod.snd ++ [recompute s.cash held]}
      (curvePeak (s.equityCurve ++ [(candle.closeTime + Instant.millisecond,
        recompute s.cash held)]) (recompute s.cash held)) := by
    have hne : s.equityCurve.map Prod.snd ++ [recompute s.cash held] ≠ [] := by simp
    have hgreatest := isGreatest_max? hne
      (rfl : (List.max? _).getD (recompute s.cash held) = _)
    unfold curvePeak
    rw [List.map_append]
    exact hgreatest
  refine ⟨h.row hcash hnonneg (Or.inl rfl) hpeak hlogs, recompute s.cash held, ?_⟩
  obtain ⟨sequence, rfl⟩ := hlogs
  rfl

/-! ### Whole runs -/

variable {state state' : RunState} {phase phase' : Phase} {bar : Bar}

/-- The instants of the grid: the closes of the bars done, and a millisecond behind the last of
them at the end. -/
def gridOf (done : List Candle) : Phase → List ℤ
  | .finished => done.map (·.closeTime) ++
      (done.getLast?.map fun last => last.closeTime + Instant.millisecond).toList
  | _ => done.map (·.closeTime)

/-- **The invariant**: the curve is kept, and its points are those of the grid. The series of the
run are the ones that are defined. -/
structure Gridded (input : RunInput) (state : RunState) : Prop where
  curve : CurveKept state.2
  defined : definitionKeys state.2.records = input.series.specs.map (·.key)
  grid : ∃ done, BarsDone input done state.1 ∧
    state.2.equityCurve.map Prod.fst = gridOf done state.1

/-- Steps between the same bars. -/
theorem Gridded.offGrid (h : Gridded input (phase, s)) (hoff : OffGrid s s')
    (hdone : ∀ done, BarsDone input done phase → BarsDone input done phase' ∧
      gridOf done phase' = gridOf done phase) : Gridded input (phase', s') := by
  obtain ⟨done, hbars, hgrid⟩ := h.grid
  refine ⟨h.curve.offGrid hoff, hoff.definitions_eq.trans h.defined, done, (hdone done hbars).1, ?_⟩
  rw [(hdone done hbars).2]
  show s'.equityCurve.map Prod.fst = _
  rw [hoff.curve_eq]
  exact hgrid

/-- Preparing a run defines its series, in their order. -/
theorem definitionKeys_of_prepare (h : prepare input s = .ok ⟨⟩ s') :
    definitionKeys s'.records = definitionKeys s.records ++ input.series.specs.map (·.key) := by
  unfold prepare recordDefinitions at h
  simp only [bind_eq_ok, zoom_eq_ok] at h
  obtain ⟨_, s₁, hdefinitions, board, -, rfl⟩ := h
  obtain ⟨rows, hrows, sequence, rfl⟩ := forEach_logs
    (R := fun spec row => row = .indicatorDefinition
      { indicatorKey := spec.key, minHistory := spec.minHistory })
    (fun spec _ s s' hrun => ⟨_, rfl, record_eq_ok hrun⟩) hdefinitions
  show definitionKeys (s.records ++ rows) = _
  rw [definitionKeys_append]
  congr 1
  -- one row for each series
  clear hdefinitions
  generalize input.series.specs = specs at hrows
  induction hrows with
  | nil => rfl
  | cons hrow _ ih =>
    subst hrow
    exact congrArg (_ :: ·) ih

theorem gridded_of_isStart (h : IsStart input state) : Gridded input state := by
  obtain ⟨cash, first, rest, -, hevaluation, hphase, hprepare⟩ := h
  obtain ⟨phase, s⟩ := state
  cases hphase
  have hdefined := definitionKeys_of_prepare hprepare
  obtain ⟨board, rows, hrows, ⟨sequence, hstate⟩, -⟩ := prepare_eq_ok hprepare
  -- the definitions are no rows of the equity table
  have hempty : portfolioRows s.records = [] := by
    rw [show s.records = rows from congrArg EngineState.records hstate]
    refine portfolioRows_eq_nil fun row hrow => ?_
    obtain ⟨definition, rfl⟩ := hrows row hrow
    rfl
  have hcurve : s.equityCurve = [] := congrArg EngineState.equityCurve hstate
  have htrades : s.trades = [] := congrArg EngineState.trades hstate
  have hactive : s.activeTrade = none := congrArg EngineState.activeTrade hstate
  refine ⟨⟨?_, ?_, ?_, ?_⟩, hdefined, [], hevaluation, ?_⟩
  · show s.equityCurve = (portfolioRows s.records).map _
    rw [hcurve, hempty]
    rfl
  · show Stepwise Balanced (portfolioRows s.records)
    rw [hempty]
    exact stepwise_nil
  · rw [show s.trades = [] from htrades]
    exact fun _ h => absurd h List.not_mem_nil
  · rw [show s.activeTrade = none from hactive]
    simp
  · show s.equityCurve.map Prod.fst = []
    rw [hcurve]
    rfl

/-- **The close of a bar** puts it on the grid. -/
theorem gridded_beforeClose {answer : StrategyAnswer} (h : Gridded input (.beforeClose bar, s))
    (hcash : IsMoney s.cash) (hnonneg : 0 ≤ s.cash)
    (hrun : stepClose input bar.candle answer s = .ok ⟨⟩ s') :
    Gridded input (.afterClose bar, s') := by
  unfold stepClose markGrid at hrun
  simp only [bind_eq_ok] at hrun
  obtain ⟨_, s₁, hindicators, _, s₄, ⟨_, s₂, hmark, _, s₃, hposition, hportfolio⟩, hanswer⟩ := hrun
  -- before the point is recorded nothing touches the curve or the cash
  obtain ⟨h₁, hcash₁⟩ := updateIndicators_offGrid hindicators
  obtain ⟨h₂, hcash₂⟩ := markPosition_offGrid hmark
  obtain ⟨h₃, hcash₃⟩ := recordPosition_offGrid hposition
  have hoff := h₁.trans (h₂.trans h₃)
  rw [← hcash₁, ← hcash₂, ← hcash₃] at hcash hnonneg
  obtain ⟨hcurve, ⟨held, hheld⟩, equity, hpoint⟩ :=
    recordPortfolio_curve (h.curve.offGrid hoff) hcash hnonneg hportfolio
  have hanswered := handleAnswer_offGrid hheld hanswer
  obtain ⟨done, hbars, hgrid⟩ := h.grid
  have hdefined : definitionKeys s₄.records = definitionKeys s₃.records := by
    obtain ⟨_, _, -, hlogs⟩ := recordPortfolio_run hportfolio
    exact definitionKeys_of_row hlogs
  -- the bar is done with its point
  refine ⟨hcurve.offGrid hanswered, ?_, done ++ [bar.candle], ⟨done, rfl, ?_⟩, ?_⟩
  · show definitionKeys s'.records = _
    rw [hanswered.definitions_eq, hdefined, hoff.definitions_eq]
    exact h.defined
  · rw [List.append_assoc]
    exact hbars
  · show s'.equityCurve.map Prod.fst = (done ++ [bar.candle]).map (·.closeTime)
    rw [hanswered.curve_eq, hpoint, hoff.curve_eq, List.map_append, List.map_append]
    exact congrArg (· ++ [bar.candle.closeTime]) hgrid

/-- **The end of a run** puts a last instant on the grid. -/
theorem gridded_finalize {index : ℕ}
    (h : Gridded input (.afterClose ⟨index, candle, []⟩, s)) (hcash : IsMoney s'.cash)
    (hnonneg : 0 ≤ s'.cash) (hrun : finalize input candle s = .ok ⟨⟩ s') :
    Gridded input (.finished, s') := by
  obtain ⟨held, s₁, -, hterminal, hclose⟩ := finalize_eq_ok hrun
  have hoff : OffGrid s s₁ := by
    rcases hclose with ⟨-, rfl⟩ | ⟨position, -, hclose⟩
    · exact .refl _
    · exact closeAtTerminal_offGrid hclose
  -- the terminal row leaves the cash and the definitions alone
  obtain ⟨hcash₁, hdefined⟩ : s'.cash = s₁.cash ∧
      definitionKeys s'.records = definitionKeys s₁.records := by
    obtain ⟨_, _, hlogs⟩ := recordTerminalEquity_run hterminal
    exact ⟨hlogs.cash_eq, definitionKeys_of_row hlogs⟩
  rw [hcash₁] at hcash hnonneg
  obtain ⟨hcurve, equity, hpoint⟩ :=
    recordTerminalEquity_curve (h.curve.offGrid hoff) hcash hnonneg hterminal
  obtain ⟨done, ⟨before, hdone, hevaluation⟩, hgrid⟩ := h.grid
  refine ⟨hcurve, ?_, done, ?_, ?_⟩
  · show definitionKeys s'.records = _
    rw [hdefined, hoff.definitions_eq]
    exact h.defined
  · rw [List.append_nil] at hevaluation
    exact hevaluation.symm
  · show s'.equityCurve.map Prod.fst = done.map (·.closeTime) ++ _
    have hlast : done.getLast? = some candle := by
      rw [hdone]
      exact List.getLast?_concat
    rw [hpoint, hoff.curve_eq, List.map_append, hlast]
    exact congrArg (· ++ [candle.closeTime + Instant.millisecond]) hgrid

/-- **One step** keeps the grid. -/
theorem gridded_step (hinv : Inv input False state) (hinv' : Inv input False state')
    (h : Gridded input state) (hstep : (system input).step state state') :
    Gridded input state' := by
  obtain ⟨phase, s⟩ := state
  obtain ⟨phase', s'⟩ := state'
  -- the curve grows at the close of a bar and at the end only
  cases phaseStep_of_stepPhase hstep with
  | @beforeOpen bar s s₁ hrun =>
    have htaken : OffGrid s₁ { s₁ with pending := [] } := .of_eq rfl rfl rfl rfl
    exact h.offGrid ((settleAtBoundary_offGrid hrun).trans htaken) fun _ hdone => ⟨hdone, rfl⟩
  | carried => exact h.offGrid (.refl _) fun _ hdone => ⟨hdone, rfl⟩
  | carrying hrun => exact h.offGrid (executePending_offGrid hrun) fun _ hdone => ⟨hdone, rfl⟩
  | settled => exact h.offGrid (.refl _) fun _ hdone => ⟨hdone, rfl⟩
  | settling hrun => exact h.offGrid (settleAtBoundary_offGrid hrun) fun _ hdone => ⟨hdone, rfl⟩
  | protecting hrun => exact h.offGrid (protect_offGrid hrun) fun _ hdone => ⟨hdone, rfl⟩
  | beforeClose hrun =>
    obtain ⟨held, hcoherent, -⟩ := hinv
    exact gridded_beforeClose h hcoherent.cash_money hcoherent.cash_nonneg hrun
  | finalize hrun =>
    obtain ⟨held, hcoherent, -⟩ := hinv'
    exact gridded_finalize h hcoherent.cash_money hcoherent.cash_nonneg hrun
  | betweenBars hrun =>
    refine h.offGrid (betweenBars_offGrid hrun) fun done hdone => ⟨?_, rfl⟩
    obtain ⟨before, -, hevaluation⟩ := hdone
    exact hevaluation

open TransitionSystem

/-- **Every state of every run** has its curve on the grid. -/
theorem gridded_of_reachable (h : (system input).Reachable state) : Gridded input state := by
  have hboth := h.invariant (I := fun state => Inv input False state ∧ Gridded input state)
    (fun _ hstart => ⟨inv_of_isStart hstart, gridded_of_isStart hstart⟩)
    (fun _ _ h hstep => by
      have hinv' := inv_step h.1 (by simp) hstep
      exact ⟨hinv', gridded_step h.1 hinv' h.2 hstep⟩)
  exact hboth.2

/-! ### What the audit and the table read -/

/-- **The rows of the equity table** are balanced in every state of every run: cash and position
value add up to equity, nothing that is cumulated is negative, and the stored peak is the greatest
equity of the rows so far. -/
theorem balanced_of_reachable (h : (system input).Reachable state) :
    Stepwise Balanced (portfolioRows state.2.records) :=
  (gridded_of_reachable h).curve.rows

theorem balanced_of_four_hours : ∃ state : RunState, endedWithTrade state = true ∧
    Stepwise Balanced (portfolioRows state.2.records) := by
  obtain ⟨state, hended, hreachable⟩ := exists_ended
  exact ⟨state, hended, balanced_of_reachable hreachable⟩

/-- `ORDER BY ts, equity_seq`. -/
def rowOrder (row row' : PortfolioRow) : Bool :=
  decide (epochMilliseconds row.ts < epochMilliseconds row'.ts ∨
    epochMilliseconds row.ts = epochMilliseconds row'.ts ∧ row.equitySeq ≤ row'.equitySeq)

/-- `_portfolio_bar_grid`: the stored times of the rows, without the last when it follows the one
before it by a millisecond. -/
def portfolioBarGrid (rows : List PortfolioRow) : List ℤ :=
  let times := (rows.mergeSort rowOrder).map fun row => epochMilliseconds row.ts
  if 2 ≤ times.length ∧ times.getLast? = times.dropLast.getLast?.map (· + 1) then times.dropLast
  else times

/-- The row at the end of a run is stored a millisecond after the last close. -/
def TerminalStored (input : RunInput) : Prop :=
  ∀ last ∈ input.evaluation.getLast?,
    epochMilliseconds (last.closeTime + Instant.millisecond) = epochMilliseconds last.closeTime + 1

/-- The bars done are the first ones of the evaluation. -/
theorem prefix_of_barsDone {done : List Candle} (h : BarsDone input done phase) :
    done <+: input.evaluation := by
  cases phase with
  | afterClose bar =>
    obtain ⟨before, -, hevaluation⟩ := h
    exact ⟨_, hevaluation.symm⟩
  | finished => exact h ▸ List.prefix_rfl
  | beforeOpen bar => exact ⟨_, Eq.symm h⟩
  | carrying bar orders => exact ⟨_, Eq.symm h⟩
  | settling bar boundaries => exact ⟨_, Eq.symm h⟩
  | protecting bar => exact ⟨_, Eq.symm h⟩
  | beforeClose bar => exact ⟨_, Eq.symm h⟩

/-- The closes of the bars done follow each other, on whole milliseconds. -/
theorem closes_increasing {done : List Candle} (h : done <+: input.evaluation) :
    (done.map (·.closeTime)).Pairwise (· < ·) ∧
      ∀ time ∈ done.map (·.closeTime), WholeMillisecond time := by
  have hhistory : ∀ candle ∈ done, candle ∈ input.history := fun candle hcandle =>
    (mem_evaluation.1 (h.subset hcandle)).1
  have hincreasing : Increasing done := evaluation_increasing.sublist h.sublist
  refine ⟨?_, fun time htime => ?_⟩
  · rw [List.pairwise_map]
    refine List.Pairwise.imp_of_mem (fun hmem hmem' hlt => ?_) hincreasing
    rw [history_closeTime (hhistory _ hmem), history_closeTime (hhistory _ hmem')]
    omega
  · obtain ⟨candle, hcandle, rfl⟩ := List.mem_map.1 htime
    exact wholeMillisecond_closeTime (hhistory candle hcandle)

/-- The instants of the grid follow each other, on whole milliseconds. -/
theorem gridOf_increasing {done : List Candle} (h : BarsDone input done phase) :
    (gridOf done phase).Pairwise (· < ·) ∧ ∀ time ∈ gridOf done phase, WholeMillisecond time := by
  have hcloses := closes_increasing (prefix_of_barsDone h)
  cases phase with
  | finished =>
    cases hlast : done.getLast? with
    | none =>
      have hgrid : gridOf done .finished = done.map (·.closeTime) := by
        unfold gridOf
        rw [hlast]
        exact List.append_nil _
      rw [hgrid]
      exact hcloses
    | some last =>
      obtain ⟨before, rfl⟩ := List.getLast?_eq_some_iff.1 hlast
      have hgrid : gridOf (before ++ [last]) .finished = (before ++ [last]).map (·.closeTime) ++
          [last.closeTime + Instant.millisecond] := by
        unfold gridOf
        rw [hlast]
        rfl
      rw [hgrid]
      -- the last instant is later than the last close, and that than the others
      refine ⟨List.pairwise_append.2 ⟨hcloses.1, List.pairwise_singleton _ _, ?_⟩, ?_⟩
      · intro time htime other hother
        rw [List.mem_singleton.1 hother]
        have hle : time ≤ last.closeTime := by
          rw [List.map_append, List.mem_append] at htime
          rcases htime with htime | htime
          · have hpairs := hcloses.1
            rw [List.map_append, List.pairwise_append] at hpairs
            exact (hpairs.2.2 time htime _ (List.mem_singleton_self _)).le
          · exact (List.mem_singleton.1 htime).le
        simp only [Instant.millisecond]
        omega
      · intro time htime
        rcases List.mem_append.1 htime with htime | htime
        · exact hcloses.2 time htime
        · rw [List.mem_singleton.1 htime]
          exact (hcloses.2 last.closeTime (by simp)).add wholeMillisecond_millisecond
  | _ => exact hcloses

/-- Stored times are read in order, whatever the order of the rows of one time is. -/
theorem map_mergeSort_rows {rows : List PortfolioRow} (h : (rows.map (·.ts)).Pairwise (· < ·)) :
    (rows.mergeSort rowOrder).map (fun row => epochMilliseconds row.ts) =
      rows.map fun row => epochMilliseconds row.ts := by
  -- two sorted lists of the same times
  refine List.Perm.eq_of_pairwise' (r := (· ≤ ·)) ?_ ?_ ((List.mergeSort_perm _ _).map _)
  · rw [List.pairwise_map]
    refine (List.pairwise_mergeSort ?_ ?_ _).imp fun {row row'} hle => ?_
    · intro row row' row'' hle hle'
      unfold rowOrder at hle hle' ⊢
      rw [decide_eq_true_eq] at hle hle' ⊢
      omega
    · intro row row'
      unfold rowOrder
      rw [Bool.or_eq_true, decide_eq_true_eq, decide_eq_true_eq]
      omega
    · unfold rowOrder at hle
      rw [decide_eq_true_eq] at hle
      omega
  · rw [List.pairwise_map] at h ⊢
    exact h.imp fun hlt => epochMilliseconds_mono hlt.le

/-- **The times a finished run is read back with**: the closes of the evaluation, and the time of
the last row. -/
theorem storedTimes_of_finished (h : Gridded input state) (hfinished : state.1 = .finished) :
    ((portfolioRows state.2.records).mergeSort rowOrder).map
        (fun row => epochMilliseconds row.ts) =
      (input.evaluation.map fun candle => epochMilliseconds candle.closeTime) ++
        input.evaluation.getLast?.toList.map fun last =>
          epochMilliseconds (last.closeTime + Instant.millisecond) := by
  obtain ⟨hcurve, -, done, hdone, hgrid⟩ := h
  have hincreasing := (gridOf_increasing hdone).1
  obtain ⟨phase, s⟩ := state
  cases hfinished
  obtain rfl : done = input.evaluation := hdone
  -- the rows are the points of the curve, which is the grid
  have hrows : (portfolioRows s.records).map (·.ts) = gridOf input.evaluation .finished := by
    rw [← hgrid]
    show _ = s.equityCurve.map Prod.fst
    rw [hcurve.curve_eq, List.map_map]
    rfl
  -- they are recorded in order, so sorting changes nothing
  rw [← hrows] at hincreasing
  rw [map_mergeSort_rows hincreasing]
  have hstored : (portfolioRows s.records).map (fun row => epochMilliseconds row.ts) =
      (gridOf input.evaluation .finished).map epochMilliseconds := by
    rw [← hrows, List.map_map]
    rfl
  rw [hstored]
  unfold gridOf
  rw [List.map_append, List.map_map]
  cases input.evaluation.getLast? <;> rfl

/-- Where the last row is stored a millisecond after the last close, it is left out. -/
theorem portfolioBarGrid_of_terminalStored (h : Gridded input state)
    (hfinished : state.1 = .finished) (hterminal : TerminalStored input) :
    portfolioBarGrid (portfolioRows state.2.records) =
      input.evaluation.map fun candle => epochMilliseconds candle.closeTime := by
  unfold portfolioBarGrid
  rw [storedTimes_of_finished h hfinished]
  cases hlast : input.evaluation.getLast? with
  | none =>
    rw [List.getLast?_eq_none_iff.1 hlast]
    rfl
  | some last =>
    rw [Option.toList_some, List.map_singleton]
    dsimp only
    rw [List.dropLast_concat, List.getLast?_concat, List.getLast?_map, hlast, if_pos]
    refine ⟨?_, congrArg some (hterminal last hlast)⟩
    have hne : input.evaluation ≠ [] := by
      rintro hnil
      rw [hnil] at hlast
      cases hlast
    have hlength := List.length_pos_iff.2 hne
    rw [List.length_append, List.length_map]
    show 2 ≤ _ + 1
    omega

/-- Elsewhere the last row stays, as a bar that the evaluation does not have. -/
theorem length_portfolioBarGrid (h : Gridded input state) (hfinished : state.1 = .finished)
    (hterminal : ¬TerminalStored input) :
    (portfolioBarGrid (portfolioRows state.2.records)).length = input.evaluation.length + 1 := by
  unfold TerminalStored at hterminal
  push Not at hterminal
  obtain ⟨last, hlast, hlost⟩ := hterminal
  unfold portfolioBarGrid
  rw [storedTimes_of_finished h hfinished, hlast]
  rw [Option.toList_some, List.map_singleton]
  dsimp only
  rw [List.dropLast_concat, List.getLast?_concat, List.getLast?_map, hlast, if_neg]
  · rw [List.length_append, List.length_map]
    rfl
  · rintro ⟨-, hnext⟩
    exact hlost (Option.some.inj hnext)

/-- **When a run has ended**, its bar grid is that of the evaluation exactly where the clock keeps
the millisecond of the last row. -/
theorem portfolioBarGrid_of_finished (h : Gridded input state) (hfinished : state.1 = .finished) :
    portfolioBarGrid (portfolioRows state.2.records) =
        (input.evaluation.map fun candle => epochMilliseconds candle.closeTime) ↔
      TerminalStored input := by
  refine ⟨fun heq => ?_, portfolioBarGrid_of_terminalStored h hfinished⟩
  by_contra hterminal
  have hlength := length_portfolioBarGrid h hfinished hterminal
  rw [heq, List.length_map] at hlength
  omega

/-- A last close between November 2004 and January 2038 is such a place. -/
theorem terminalStored_of_recent (h : ∀ last ∈ input.evaluation.getLast?,
      2 ^ 40 * Instant.millisecond < last.closeTime ∧
        last.closeTime < (2 ^ 31 * 1000 - 1) * Instant.millisecond) : TerminalStored input := by
  intro last hlast
  obtain ⟨hlow, hhigh⟩ := h last hlast
  have hwhole := wholeMillisecond_closeTime (mem_evaluation.1 (List.mem_of_getLast? hlast)).1
  obtain ⟨milliseconds, hclose⟩ := Int.dvd_of_emod_eq_zero hwhole
  rw [mul_comm] at hclose
  have hnext : last.closeTime + Instant.millisecond =
      (milliseconds + 1) * Instant.millisecond := by
    rw [hclose]
    ring
  simp only [Instant.millisecond] at hlow hhigh hclose
  rw [hnext, epochMilliseconds_of_recent (by omega) (by omega)]
  rw [show last.closeTime = milliseconds * Instant.millisecond from hclose,
    epochMilliseconds_of_recent (by omega) (by omega)]

/-- **The grid of a run**: its points are in order of time, and when it has ended the audit reads
the closes of the evaluation as its bars, if and only if the last row is stored a millisecond after
the last close. -/
theorem barGrid_of_reachable (h : (system input).Reachable state) :
    (state.2.equityCurve.map Prod.fst).Pairwise (· < ·) ∧
      (state.1 = .finished → (portfolioBarGrid (portfolioRows state.2.records) =
          (input.evaluation.map fun candle => epochMilliseconds candle.closeTime) ↔
        TerminalStored input)) := by
  have hgridded := gridded_of_reachable h
  refine ⟨?_, portfolioBarGrid_of_finished hgridded⟩
  obtain ⟨-, -, done, hdone, hgrid⟩ := hgridded
  rw [hgrid]
  exact (gridOf_increasing hdone).1

/-- The end of four hours is stored a millisecond after the last close. -/
theorem terminalStored_twoDollarRun :
    TerminalStored (twoDollarRun 100000 (Binary64.ofRat 100) hundredThousand_pos) := by
  intro last hlast
  have hclose : last.closeTime = 5 * Instant.hour := by
    cases hlast
    rfl
  rw [hclose]
  decide +kernel

theorem barGrid_of_four_hours : ∃ state : RunState, endedWithTrade state = true ∧
    portfolioBarGrid (portfolioRows state.2.records) =
      (twoDollarRun 100000 (Binary64.ofRat 100) hundredThousand_pos).evaluation.map
        fun candle => epochMilliseconds candle.closeTime := by
  obtain ⟨state, hended, hreachable⟩ := exists_ended
  exact ⟨state, hended, ((barGrid_of_reachable hreachable).2
    (finished_of_endedWithTrade hended)).2 terminalStored_twoDollarRun⟩

end Engine
end TradingSystem
