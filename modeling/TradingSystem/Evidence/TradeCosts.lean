import TradingSystem.Engine.JournalRun
import TradingSystem.Engine.EquityCurve
import TradingSystem.Evidence.FundingAudit

/-!
# The costs of a trade

Every execution of a run belongs to one trade: an entry opens it, whatever is executed while it
is open adds to it, and the exit that leaves no position completes it. A TRADE row therefore
carries the fees and the slippage of a block of consecutive EXECUTION rows, while the audit looks
at the first and the last of them only.

* `Accounted` — the executions as the blocks of the trades, in every state.
* `tradeCosts_of_reachable` — what the audit of the costs finds, and that of the net profit.
-/

namespace TradingSystem

open Numeric Logic Engine

/-! ### The check -/

/-- The EXECUTION rows of the evidence. -/
def executionRow? : EvidenceRecord → Option ExecutionRow
  | .execution row => some row
  | _ => none

/-- A cost of the execution that a trade is joined with. -/
def joinedCost (executions : List ExecutionRow) (cost : ExecutionRow → Decimal)
    (executionId : ℕ) : Decimal :=
  ((executions.find? fun row => row.executionId = executionId).map cost).getD 0

/-- The trades whose fees or slippage are not those of their two executions. -/
def executionCostFailures (trades : List TradeRow) (executions : List ExecutionRow) : List ℕ :=
  let failed := trades.filter fun row =>
    row.trade.totalFee ≠ joinedCost executions (·.fee) row.entryExecutionId +
        joinedCost executions (·.fee) row.exitExecutionId ∨
      row.trade.slippage ≠ joinedCost executions (·.slippage) row.entryExecutionId +
        joinedCost executions (·.slippage) row.exitExecutionId
  (failed.map (·.tradeId)).insertionSort (· ≤ ·)

/-- The trades whose net profit is not the gross profit less the costs. -/
def netFailures (trades : List TradeRow) : List ℕ :=
  let failed := trades.filter fun row => row.trade.netPnl ≠ row.trade.grossPnl -
    row.trade.totalFee - row.trade.slippage - row.trade.fundingCost - row.trade.liquidationPenalty
  (failed.map (·.tradeId)).insertionSort (· ≤ ·)

theorem insertionSort_map_filter_eq_nil {α : Type} {items : List α} {p : α → Bool} {f : α → ℕ} :
    ((items.filter p).map f).insertionSort (· ≤ ·) = [] ↔ ∀ item ∈ items, p item = false := by
  rw [← List.length_eq_zero_iff, List.length_insertionSort, List.length_eq_zero_iff,
    List.map_eq_nil_iff, List.filter_eq_nil_iff]
  exact forall₂_congr fun item _ => by rw [Bool.not_eq_true]

namespace Engine

variable {input : RunInput} {s s' : EngineState}

/-! ### Blocks of executions -/

/-- The costs of a row are amounts. -/
structure Charged (row : ExecutionRow) : Prop where
  isMoney_fee : IsMoney row.fee
  isMoney_slippage : IsMoney row.slippage
  fee_nonneg : 0 ≤ row.fee
  slippage_nonneg : 0 ≤ row.slippage

/-- What a trade keeps of its executions: the first one, and what they cost together. -/
def ActiveTrade.costs (active : ActiveTrade) : ℕ × Decimal × Decimal :=
  (active.entryExecutionId, active.totalFee, active.slippage)

/-- A block of executions and what is kept of it. -/
structure Costs (costs : ℕ × Decimal × Decimal) (block : List ExecutionRow) : Prop where
  first : block.head?.map (·.executionId) = some costs.1
  fee_eq : (block.map (·.fee)).sum = costs.2.1
  slippage_eq : (block.map (·.slippage)).sum = costs.2.2

/-- The executions of the open trade. -/
def OpenBlock (costs : Option (ℕ × Decimal × Decimal)) (block : List ExecutionRow) : Prop :=
  match costs with
  | none => block = []
  | some costs => Costs costs block

/-- The executions of a completed trade. -/
structure ClosedBlock (row : TradeRow) (block : List ExecutionRow) : Prop where
  costs : Costs (row.entryExecutionId, row.trade.totalFee, row.trade.slippage) block
  last : block.getLast?.map (·.executionId) = some row.exitExecutionId
  two_le : 2 ≤ block.length

/-- **The executions as the blocks of the trades**, those of the open trade at the end. -/
structure Blocks (records : List EvidenceRecord) (blocks : List (List ExecutionRow))
    (rest : List ExecutionRow) : Prop where
  executions_eq : records.filterMap executionRow? = blocks.flatten ++ rest
  trades : List.Forall₂ ClosedBlock (records.filterMap tradeRow?) blocks

/-- The net profit of a trade, exactly. -/
def Net (row : TradeRow) : Prop :=
  row.trade.netPnl = row.trade.grossPnl - row.trade.totalFee - row.trade.slippage -
    row.trade.fundingCost - row.trade.liquidationPenalty

/-- **The invariant.** Every execution belongs to one trade, completed or open. -/
structure Accounted (s : EngineState) : Prop where
  blocks : ∃ blocks rest, Blocks s.records blocks rest ∧
    OpenBlock (s.activeTrade.map ActiveTrade.costs) rest
  charged : ∀ row ∈ s.records.filterMap executionRow?, Charged row
  net : ∀ row ∈ s.records.filterMap tradeRow?, Net row

/-- A row that is neither an execution nor a trade. -/
def Costless (row : EvidenceRecord) : Prop := executionRow? row = none ∧ tradeRow? row = none

theorem Accounted.rows (rows : List EvidenceRecord) (h : Accounted s)
    (hrecords : s'.records = s.records ++ rows) (hrows : ∀ row ∈ rows, Costless row)
    (hcosts : s'.activeTrade.map ActiveTrade.costs = s.activeTrade.map ActiveTrade.costs) :
    Accounted s' := by
  have hexecutions : s'.records.filterMap executionRow? = s.records.filterMap executionRow? := by
    rw [hrecords, List.filterMap_append,
      List.filterMap_eq_nil_iff.2 fun row hrow => (hrows row hrow).1, List.append_nil]
  have htrades : s'.records.filterMap tradeRow? = s.records.filterMap tradeRow? := by
    rw [hrecords, List.filterMap_append,
      List.filterMap_eq_nil_iff.2 fun row hrow => (hrows row hrow).2, List.append_nil]
  obtain ⟨blocks, rest, ⟨hflat, hclosed⟩, hopen⟩ := h.blocks
  refine ⟨⟨blocks, rest, ⟨hexecutions.trans hflat, ?_⟩, ?_⟩, ?_, ?_⟩
  · rw [htrades]
    exact hclosed
  · rw [hcosts]
    exact hopen
  · rw [hexecutions]
    exact h.charged
  · rw [htrades]
    exact h.net

/-! ### Fills -/

theorem charged_executionRow (executionId : ℕ) (decisionId : Option ℕ) (fill : Fill) :
    Charged (executionRow executionId decisionId fill) :=
  ⟨fill.isMoney_fee, fill.isMoney_slippage, fill.fee_nonneg, fill.slippage_nonneg⟩

/-- What amounts add up to is an amount. -/
theorem isMoney_sum {values : List Decimal} (h : ∀ value ∈ values, IsMoney value) :
    IsMoney values.sum := by
  induction values with
  | nil => exact isMoney_zero
  | cons value values ih =>
    rw [List.forall_mem_cons] at h
    rw [List.sum_cons]
    exact h.1.add (ih h.2)

theorem Costs.isMoney {costs : ℕ × Decimal × Decimal} {block : List ExecutionRow}
    (h : Costs costs block) (hcharged : ∀ row ∈ block, Charged row) :
    IsMoney costs.2.1 ∧ IsMoney costs.2.2 := by
  rw [← h.fee_eq, ← h.slippage_eq]
  constructor
  · refine isMoney_sum fun value hvalue => ?_
    obtain ⟨row, hrow, rfl⟩ := List.mem_map.1 hvalue
    exact (hcharged row hrow).isMoney_fee
  · refine isMoney_sum fun value hvalue => ?_
    obtain ⟨row, hrow, rfl⟩ := List.mem_map.1 hvalue
    exact (hcharged row hrow).isMoney_slippage

/-- Costs are added to a trade without a rounding. -/
theorem Costs.addCosts {active : ActiveTrade} {block : List ExecutionRow} {executionId : ℕ}
    {decisionId : Option ℕ} {fill : Fill} (h : Costs (ActiveTrade.costs active) block)
    (hcharged : ∀ row ∈ block, Charged row) :
    Costs (ActiveTrade.costs (ActiveTrade.addCosts active fill))
      (block ++ [executionRow executionId decisionId fill]) := by
  obtain ⟨hfee', hslippage'⟩ := h.isMoney hcharged
  obtain ⟨hfirst, hfee, hslippage⟩ := h
  refine ⟨?_, ?_, ?_⟩
  · cases block with
    | nil => cases hfirst
    | cons row block => exact hfirst
  · rw [List.map_append, List.sum_append, hfee]
    show active.totalFee + (fill.fee + 0) = quantizeAmount (active.totalFee + fill.fee)
    rw [add_zero]
    exact (hfee'.add fill.isMoney_fee).quantizeAmount_eq.symm
  · rw [List.map_append, List.sum_append, hslippage]
    show active.slippage + (fill.slippage + 0) = quantizeAmount (active.slippage + fill.slippage)
    rw [add_zero]
    exact (hslippage'.add fill.isMoney_slippage).quantizeAmount_eq.symm

/-- The rows of a completed trade hold no execution, and one trade. -/
theorem filterMap_completionRows (executionId : ℕ) (trade : Trade) (active : ActiveTrade)
    {items : List (FeaturePhase × ℤ × Features × Option Decimal)} {features : List EvidenceRecord}
    (hfeatures : List.Forall₂ (IsFeatureRow active.tradeId) items features) :
    (completionRows active executionId trade features).filterMap executionRow? = [] ∧
      (completionRows active executionId trade features).filterMap tradeRow? =
        [tradeRow active executionId trade] := by
  -- behind the trade there is no row with a cost
  have hcostless : ∀ row ∈ active.positionRecords.map EvidenceRecord.position ++
      active.fundingRecords.map .funding ++ active.candidateId.toList.map (fun candidateId =>
        .candidate (realizedCandidate active candidateId)) ++ features, Costless row := by
    intro row hrow
    simp only [List.mem_append, List.mem_map] at hrow
    rcases hrow with ((⟨_, -, rfl⟩ | ⟨_, -, rfl⟩) | ⟨_, -, rfl⟩) | hrow
    · exact ⟨rfl, rfl⟩
    · exact ⟨rfl, rfl⟩
    · exact ⟨rfl, rfl⟩
    · refine forall_of_forall₂ hfeatures (fun item row hrow => ?_) row hrow
      obtain ⟨feature, rfl, -⟩ := hrow
      exact ⟨rfl, rfl⟩
  unfold completionRows
  constructor
  · rw [List.filterMap_cons_none rfl, List.filterMap_eq_nil_iff]
    exact fun row hrow => (hcostless row hrow).1
  · show tradeRow active executionId trade :: List.filterMap tradeRow? _ = _
    rw [List.filterMap_eq_nil_iff.2 fun row hrow => (hcostless row hrow).2]

/-- A trade that is completed keeps the costs of its executions, and its net profit is exact. -/
theorem closedBlock_of_completedTrade {active : ActiveTrade} {block : List ExecutionRow}
    {fill : Fill} {trade : Trade} {executionId : ℕ}
    (hblock : Costs (ActiveTrade.costs active) block) (hcharged : ∀ row ∈ block, Charged row)
    (hlast : block.getLast?.map (·.executionId) = some executionId) (htwo : 2 ≤ block.length)
    (h : completedTrade input active fill = .ok trade) :
    ClosedBlock (tradeRow active executionId trade) block ∧
      Net (tradeRow active executionId trade) := by
  obtain ⟨hfee', hslippage'⟩ := hblock.isMoney hcharged
  obtain ⟨hfirst, hfee, hslippage⟩ := hblock
  unfold completedTrade at h
  simp only [Except.bind_eq_ok] at h
  obtain ⟨ratio, -, h⟩ := h
  obtain ⟨rfl, hvalid⟩ := Trade.postInit_eq_ok h
  refine ⟨⟨⟨hfirst, ?_, ?_⟩, hlast, htwo⟩, ?_⟩
  · exact hfee.trans hfee'.quantizeAmount_eq.symm
  · exact hslippage.trans hslippage'.quantizeAmount_eq.symm
  · -- the constructor has checked the identity up to a rounding of amounts
    refine hvalid.netPnl_eq.trans (IsMoney.quantizeAmount_eq ?_)
    exact ((((isMoney_quantizeAmount _).sub (isMoney_quantizeAmount _)).sub
      (isMoney_quantizeAmount _)).sub (isMoney_quantizeAmount _)).sub (isMoney_quantizeAmount _)

/-- **A fill** joins the block of the open trade, or opens one; the exit that leaves nothing
completes it. -/
theorem applyFill_accounted {fill : Fill} {decisionId : Option ℕ} {signal : Option TradingSignal}
    {candidateId : Option ℕ} (hs : Accounted s)
    (h : applyFill input fill decisionId signal candidateId s = .ok ⟨⟩ s') : Accounted s' := by
  obtain ⟨held, executionId, s₁, -, hexecution, h⟩ := applyFill_eq_ok h
  obtain ⟨blocks, rest, ⟨hflat, hclosed⟩, hopen⟩ := hs.blocks
  have hrecords := hexecution.records_eq
  have hexecutions : s₁.records.filterMap executionRow? =
      blocks.flatten ++ (rest ++ [executionRow executionId decisionId fill]) := by
    rw [hrecords, List.filterMap_append, hflat, List.append_assoc]
    rfl
  have htrades : s₁.records.filterMap tradeRow? = s.records.filterMap tradeRow? := by
    rw [hrecords, List.filterMap_append]
    exact List.append_nil _
  have hcharged : ∀ row ∈ s₁.records.filterMap executionRow?, Charged row := by
    rw [hrecords, List.filterMap_append, List.forall_mem_append]
    refine ⟨hs.charged, fun row hrow => ?_⟩
    rw [show row = executionRow executionId decisionId fill from List.mem_singleton.1 hrow]
    exact charged_executionRow _ _ _
  have hnet : ∀ row ∈ s₁.records.filterMap tradeRow?, Net row := by
    rw [htrades]
    exact hs.net
  rw [← htrades] at hclosed
  rw [← hexecution.activeTrade_eq] at hopen
  have hrest : ∀ row ∈ rest, Charged row := by
    intro row hrow
    refine hs.charged row ?_
    rw [hflat]
    exact List.mem_append_right _ hrow
  -- the block of an open trade with the new execution
  have hjoined : ∀ active, s₁.activeTrade = some active →
      Costs (ActiveTrade.costs (ActiveTrade.addCosts active fill))
        (rest ++ [executionRow executionId decisionId fill]) := by
    intro active hactive
    rw [hactive] at hopen
    exact Costs.addCosts hopen hrest
  have hextended : s'.records = s₁.records →
      OpenBlock (s'.activeTrade.map ActiveTrade.costs)
        (rest ++ [executionRow executionId decisionId fill]) → Accounted s' := by
    intro hsame hopen'
    rw [← hsame] at hexecutions hclosed hcharged hnet
    exact ⟨⟨blocks, _, ⟨hexecutions, hclosed⟩, hopen'⟩, hcharged, hnet⟩
  cases hreduce : fill.reduceOnly with
  | true =>
    rw [hreduce, if_pos rfl] at h
    obtain ⟨_, active, cash, _, book, _, -, hactive, -, -, -, -,
      ⟨_, -, rfl⟩ | ⟨-, trade, features, htrade, hfeatures, hlogs⟩⟩ := applyExit_eq_ok hreduce h
    · exact hextended rfl (hjoined active hactive)
    · -- the block is complete, and a new one may begin
      obtain ⟨hnone, hone⟩ := filterMap_completionRows executionId trade
        (ActiveTrade.addCosts active fill) hfeatures
      have hall : ∀ row ∈ rest ++ [executionRow executionId decisionId fill], Charged row := by
        intro row hrow
        refine hcharged row ?_
        rw [hexecutions]
        exact List.mem_append_right _ hrow
      have htwo : 2 ≤ (rest ++ [executionRow executionId decisionId fill]).length := by
        rw [hactive] at hopen
        have hfirst := hopen.first
        cases rest with
        | nil => cases hfirst
        | cons row rest => simp
      have hlast : (rest ++ [executionRow executionId decisionId fill]).getLast?.map
          (·.executionId) = some executionId := by simp [executionRow]
      obtain ⟨hblock, hexact⟩ :=
        closedBlock_of_completedTrade (hjoined active hactive) hall hlast htwo htrade
      have hrecords' := hlogs.records_eq
      change s'.records = s₁.records ++ _ at hrecords'
      refine ⟨⟨blocks ++ [rest ++ [executionRow executionId decisionId fill]], [], ⟨?_, ?_⟩, ?_⟩,
        ?_, ?_⟩
      · rw [hrecords', List.filterMap_append, hnone, List.append_nil, List.append_nil,
          List.flatten_append, List.flatten_singleton]
        exact hexecutions
      · rw [hrecords', List.filterMap_append, hone]
        exact List.rel_append hclosed (.cons hblock .nil)
      · rw [hlogs.activeTrade_eq]
        rfl
      · rw [hrecords', List.filterMap_append, hnone, List.append_nil]
        exact hcharged
      · rw [hrecords', List.filterMap_append, hone, List.forall_mem_append]
        exact ⟨hnet, fun row hrow => List.mem_singleton.1 hrow ▸ hexact⟩
  | false =>
    rw [hreduce, if_neg Bool.false_ne_true] at h
    obtain ⟨_, book, _, -, -, -, -, -, ⟨active, hactive, rfl⟩ |
      ⟨hactive, origin, tradeId, -, hlogs⟩⟩ := applyEntry_eq_ok h.2
    · exact hextended rfl (hjoined active hactive)
    · -- the first execution of a new trade
      rw [hactive] at hopen
      obtain rfl : rest = [] := hopen
      have hsame : s'.records = s₁.records := by
        rw [hlogs.records_eq]
        exact List.append_nil _
      refine hextended hsame ?_
      rw [hlogs.activeTrade_eq]
      exact ⟨rfl, add_zero _, add_zero _⟩

/-! ### Steps -/

/-- From accounted states to accounted states. -/
def Accounts (s s' : EngineState) : Prop := Accounted s → Accounted s'

theorem Accounts.refl (s : EngineState) : Accounts s s := id

theorem Accounts.trans {s'' : EngineState} (h : Accounts s s') (h' : Accounts s' s'') :
    Accounts s s'' := fun hs => h' (h hs)

theorem Accounts.of_logs {rows : List EvidenceRecord} (h : Logs rows s s')
    (hrows : ∀ row ∈ rows, Costless row) : Accounts s s' := fun hs =>
  hs.rows rows h.records_eq hrows (by rw [h.activeTrade_eq])

theorem Accounts.of_counters (h : Logs [] s s') : Accounts s s' := .of_logs h (by simp)

/-- The open trade may change, its costs stay. -/
theorem Accounts.of_costs (hrecords : s'.records = s.records)
    (hcosts : s'.activeTrade.map ActiveTrade.costs = s.activeTrade.map ActiveTrade.costs) :
    Accounts s s' := fun hs =>
  hs.rows [] (by rw [hrecords, List.append_nil]) (by simp) hcosts

theorem applyFill_accounts {fill : Fill} {decisionId : Option ℕ} {signal : Option TradingSignal}
    {candidateId : Option ℕ}
    (h : applyFill input fill decisionId signal candidateId s = .ok ⟨⟩ s') : Accounts s s' :=
  fun hs => applyFill_accounted hs h

variable {candle : Candle}

theorem closeAtTerminal_accounts {last : Candle} {position : Position} {reason : ExitReason}
    {decisionId : Option ℕ} (h : closeAtTerminal input last position reason decisionId s =
      .ok ⟨⟩ s') : Accounts s s' := by
  obtain ⟨_, _, fill, s₁, -, -, hlogs, hfill⟩ := closeAtTerminal_eq_ok h
  exact Accounts.trans (.of_counters hlogs) (applyFill_accounts hfill)

theorem settleAtBoundary_accounts {boundary : ℤ}
    (h : settleAtBoundary input boundary s = .ok ⟨⟩ s') : Accounts s s' := by
  rcases settleAtBoundary_eq_ok h with ⟨rfl, -⟩ | ⟨position, active, -, -, -, hactive, -, -, h⟩
  · exact .refl _
  · obtain ⟨price, cost, held, result, charged, row, s₁, -, -, -, -, -, hlogs, h⟩ := settle_eq_ok h
    have hcharged : Accounts s (settled s position charged active boundary row result) := by
      refine .of_costs rfl ?_
      rw [hactive]
      rfl
    have hsettled : Accounts s s₁ := hcharged.trans (.of_counters hlogs)
    cases hexhausted : result.exhausted with
    | false =>
      rw [hexhausted, if_neg Bool.false_ne_true] at h
      rw [h]
      exact hsettled
    | true =>
      rw [hexhausted, if_pos rfl] at h
      obtain ⟨remaining, -, h⟩ := h
      obtain ⟨decision, s₂, fill, hdecision, -, -, hfill⟩ := liquidateExhausted_eq_ok h
      exact hsettled.trans (Accounts.trans (.of_logs hdecision (by simp [Costless, executionRow?,
        tradeRow?])) (applyFill_accounts hfill))

theorem executePending_accounts {pending : PendingOrder}
    (h : executePending input candle pending s = .ok ⟨⟩ s') : Accounts s s' := by
  obtain ⟨_, _, fill, s₁, -, -, -, hlogs, -, hfill⟩ := executePending_eq_ok h
  exact Accounts.trans (.of_counters hlogs) (applyFill_accounts hfill)

/-- The extremes of a trade cost nothing. -/
theorem withTracking_accounts {position : Position} :
    Accounts s (withTracking input candle position s) := by
  refine .of_costs rfl ?_
  show (s.activeTrade.map _).map ActiveTrade.costs = _
  rw [Option.map_map]
  refine Option.map_congr fun active _ => ?_
  unfold Function.comp tracked
  split <;> rfl

theorem protect_accounts (h : protect input candle s = .ok ⟨⟩ s') : Accounts s s' := by
  obtain ⟨held, hheld, ⟨rfl, -⟩ | ⟨position, fill, row, s₁, hposition, -, hlogs, hfill⟩⟩ :=
    protect_eq_ok h
  · exact .refl _
  · exact withTracking_accounts.trans (Accounts.trans (.of_logs hlogs (by simp [Costless,
      executionRow?, tradeRow?])) (applyFill_accounts hfill))

theorem markPosition_accounts {mark : Decimal}
    (h : markPosition input candle mark s = .ok ⟨⟩ s') : Accounts s s' := by
  unfold markPosition at h
  simp only [bind_eq_ok, currentPosition_eq_ok] at h
  obtain ⟨held, _, ⟨-, rfl⟩, h⟩ := h
  cases held with
  | none =>
    cases h
    exact .refl _
  | some position =>
    simp only [bind_eq_ok, onBook_eq_ok, currentPosition_eq_ok] at h
    obtain ⟨_, _, ⟨book, -, rfl⟩, after, _, ⟨-, rfl⟩, h⟩ := h
    -- a mark changes the book and the excursions, and neither has costs
    have hbook : Accounts s { s with book := book } := .of_costs rfl rfl
    refine hbook.trans ?_
    cases after with
    | none =>
      cases h
      exact .refl _
    | some after =>
      simp only [Option.toList_some, forEach_cons, forEach_nil, bind_eq_ok, pure_apply,
        EStateM.Result.ok.injEq] at h
      obtain ⟨_, _, htrack, -, rfl⟩ := h
      rw [trackExcursions_eq_ok htrack]
      exact withTracking_accounts

theorem recordPosition_accounts {mark : Decimal}
    (h : recordPosition input candle mark s = .ok ⟨⟩ s') : Accounts s s' := by
  obtain ⟨held, hheld⟩ := positionOf_of_recordPosition h
  obtain ⟨row, -, ⟨active, -, hactive, hlogs⟩ | ⟨-, hlogs⟩⟩ := recordPosition_eq_ok hheld h
  · have hbuffered : Accounts s
        { s with activeTrade := some (ActiveTrade.addPosition active row) } := by
      refine .of_costs rfl ?_
      rw [hactive]
      rfl
    exact hbuffered.trans (.of_counters hlogs)
  · exact .of_logs hlogs (by simp [Costless, executionRow?, tradeRow?])

/-- A row of the equity table and its point of the curve. -/
theorem accounts_point {row : PortfolioRow} {ts : ℤ} {equity : Decimal}
    (h : Logs [.portfolio row] (withPoint s ts equity) s') : Accounts s s' := by
  have hpoint : Accounts s (withPoint s ts equity) := .of_costs rfl rfl
  exact hpoint.trans (.of_logs h (by simp [Costless, executionRow?, tradeRow?]))

theorem betweenBars_accounts {next : Candle} (h : betweenBars input candle next s = .ok ⟨⟩ s') :
    Accounts s s' := by
  unfold betweenBars at h
  split at h
  · obtain ⟨held, -, hheld, ⟨-, rfl⟩ | ⟨position, row, s₁, s₂, count, -, hlogs, hclose, rfl⟩⟩ :=
      closeAtDataGap_eq_ok h
    · exact .refl _
    · have hcount : Accounts s₂ { s₂ with dataGapExitCount := count } := .of_costs rfl rfl
      exact Accounts.trans (.of_logs hlogs (by simp [Costless, executionRow?, tradeRow?]))
        ((closeAtTerminal_accounts hclose).trans hcount)
  · cases h
    exact .refl _

theorem finalize_accounts {last : Candle} (h : finalize input last s = .ok ⟨⟩ s') :
    Accounts s s' := by
  obtain ⟨held, s₁, -, hterminal, hclose⟩ := finalize_eq_ok h
  obtain ⟨_, _, hlogs⟩ := recordTerminalEquity_run hterminal
  refine Accounts.trans ?_ (accounts_point hlogs)
  rcases hclose with ⟨-, rfl⟩ | ⟨position, -, hclose⟩
  · exact .refl _
  · exact closeAtTerminal_accounts hclose

theorem updateIndicators_accounts (h : updateIndicators input candle s = .ok ⟨⟩ s') :
    Accounts s s' := by
  obtain ⟨board, rows, -, hrows, hlogs⟩ := updateIndicators_eq_ok h
  have hcostless : ∀ row ∈ rows, Costless row := forall_of_forall₂ hrows fun _ _ hrow => by
    obtain ⟨_, _, rfl, -⟩ := hrow
    exact ⟨rfl, rfl⟩
  have hboard : Accounts s { s with board := board } := .of_costs rfl rfl
  exact hboard.trans (.of_logs hlogs hcostless)

theorem stepClose_accounts {answer : StrategyAnswer}
    (h : stepClose input candle answer s = .ok ⟨⟩ s') : Accounts s s' := by
  unfold stepClose markGrid at h
  simp only [bind_eq_ok] at h
  obtain ⟨_, s₁, hupdate, _, s₄, ⟨_, s₂, hmark, _, s₃, hposition, hportfolio⟩, hanswer⟩ := h
  obtain ⟨_, held, hheld, hlogs⟩ := recordPortfolio_run hportfolio
  have hheld' : positionOf input s₄.book = .ok held := by
    rw [hlogs.book_eq]
    exact hheld
  obtain ⟨orders, -, rows, hrows, hnotes⟩ := handleAnswer_eq_ok hheld' hanswer
  -- the answer queues orders and records clerical rows
  have hcostless : ∀ row ∈ rows, Costless row := by
    intro row hrow
    have hclerical := hrows row hrow
    cases row <;> first | exact ⟨rfl, rfl⟩ | exact hclerical.elim
  have hqueued : Accounts s₄ { s₄ with pending := s₄.pending ++ orders } := .of_costs rfl rfl
  exact (updateIndicators_accounts hupdate).trans ((markPosition_accounts hmark).trans
    ((recordPosition_accounts hposition).trans ((accounts_point hlogs).trans
      (hqueued.trans (.of_logs hnotes hcostless)))))

/-! ### Runs -/

variable {state state' : RunState}

theorem accounted_of_isStart (h : IsStart input state) : Accounted state.2 := by
  obtain ⟨cash, first, rest, -, -, hphase, hprepare⟩ := h
  obtain ⟨phase, s⟩ := state
  cases hphase
  obtain ⟨board, rows, hrows, ⟨sequence, hstate⟩, -⟩ := prepare_eq_ok hprepare
  have hrecords : s.records = rows := congrArg EngineState.records hstate
  have hactive : s.activeTrade = none := congrArg EngineState.activeTrade hstate
  -- nothing is recorded but definitions
  have hcostless : ∀ row ∈ s.records, Costless row := by
    rw [hrecords]
    intro row hrow
    obtain ⟨definition, rfl⟩ := hrows row hrow
    exact ⟨rfl, rfl⟩
  have hexecutions : s.records.filterMap executionRow? = [] :=
    List.filterMap_eq_nil_iff.2 fun row hrow => (hcostless row hrow).1
  have htrades : s.records.filterMap tradeRow? = [] :=
    List.filterMap_eq_nil_iff.2 fun row hrow => (hcostless row hrow).2
  refine ⟨⟨[], [], ⟨hexecutions, ?_⟩, ?_⟩, ?_, ?_⟩
  · show List.Forall₂ ClosedBlock (s.records.filterMap tradeRow?) []
    rw [htrades]
    exact .nil
  · show OpenBlock (s.activeTrade.map _) []
    rw [hactive]
    rfl
  · show ∀ row ∈ s.records.filterMap executionRow?, _
    rw [hexecutions]
    simp
  · show ∀ row ∈ s.records.filterMap tradeRow?, _
    rw [htrades]
    simp

/-- **One step.** -/
theorem accounted_step (h : Accounted state.2) (hstep : (system input).step state state') :
    Accounted state'.2 := by
  obtain ⟨phase, s⟩ := state
  obtain ⟨phase', s'⟩ := state'
  cases phaseStep_of_stepPhase hstep with
  | @beforeOpen bar s s₁ hrun =>
    have htaken : Accounts s₁ { s₁ with pending := [] } := .of_costs rfl rfl
    exact htaken (settleAtBoundary_accounts hrun h)
  | carried => exact h
  | carrying hrun => exact executePending_accounts hrun h
  | settled => exact h
  | settling hrun => exact settleAtBoundary_accounts hrun h
  | protecting hrun => exact protect_accounts hrun h
  | beforeClose hrun => exact stepClose_accounts hrun h
  | finalize hrun => exact finalize_accounts hrun h
  | betweenBars hrun => exact betweenBars_accounts hrun h

open TransitionSystem

/-- **Every state of every run** is accounted. -/
theorem accounted_of_reachable (h : (system input).Reachable state) : Accounted state.2 :=
  h.invariant (I := fun state => Accounted state.2) (fun _ hstart => accounted_of_isStart hstart)
    fun _ _ hinv hstep => accounted_step hinv hstep

/-! ### The audit -/

/-- Executions are recorded once, where no key is used twice. -/
theorem executionIds_nodup {records : List EvidenceRecord}
    (h : (records.flatMap (·.keys)).Nodup) :
    ((records.filterMap executionRow?).map (·.executionId)).Nodup := by
  -- the keys of the executions are among those of all rows
  have hsublist : ((records.filterMap executionRow?).map fun row =>
      EvidenceKey.id .execution row.executionId).Sublist (records.flatMap (·.keys)) := by
    clear h
    induction records with
    | nil => exact .slnil
    | cons record records ih =>
      rw [List.flatMap_cons]
      cases record with
      | execution row => exact ih.cons_cons _
      | _ => exact ih.trans (List.sublist_append_right _ _)
  refine List.Nodup.of_map (EvidenceKey.id .execution) ?_
  rw [List.map_map]
  exact h.sublist hsublist

/-- A trade is joined with the execution that it names. -/
theorem joinedCost_eq {executions : List ExecutionRow} {cost : ExecutionRow → Decimal}
    (hunique : (executions.map (·.executionId)).Nodup) {row : ExecutionRow}
    (hrow : row ∈ executions) : joinedCost executions cost row.executionId = cost row := by
  unfold joinedCost
  induction executions with
  | nil => cases hrow
  | cons other executions ih =>
    rw [List.map_cons, List.nodup_cons] at hunique
    rw [List.find?_cons]
    rcases List.mem_cons.1 hrow with rfl | hrow
    · rw [decide_eq_true rfl]
      rfl
    · have hne : other.executionId ≠ row.executionId := fun heq =>
        hunique.1 (heq ▸ List.mem_map_of_mem hrow)
      rw [decide_eq_false hne]
      exact ih hunique.2 hrow

/-- Nonnegative values between two others add nothing exactly when all are zero. -/
theorem eq_add_iff_of_middle {cost : ExecutionRow → Decimal} {first last : ExecutionRow}
    {middle : List ExecutionRow} {total : Decimal} (hnonneg : ∀ row ∈ middle, 0 ≤ cost row)
    (htotal : ((first :: (middle ++ [last])).map cost).sum = total) :
    total = cost first + cost last ↔ ∀ row ∈ middle, cost row = 0 := by
  have hsum : (middle.map cost).sum = 0 ↔ ∀ row ∈ middle, cost row = 0 := by
    constructor
    · intro hzero row hrow
      refine List.all_zero_of_le_zero_le_of_sum_eq_zero (fun value hvalue => ?_) hzero
        (List.mem_map_of_mem hrow)
      obtain ⟨other, hother, rfl⟩ := List.mem_map.1 hvalue
      exact hnonneg other hother
    · intro hzero
      refine List.sum_eq_zero fun value hvalue => ?_
      obtain ⟨row, hrow, rfl⟩ := List.mem_map.1 hvalue
      exact hzero row hrow
  rw [← hsum, ← htotal, List.map_cons, List.sum_cons, List.map_append, List.sum_append,
    List.map_singleton, List.sum_singleton]
  constructor <;> intro h <;> linarith

theorem forall_mem_iff_of_forall₂ {α β : Type} {R : α → β → Prop} {P : α → Prop} {Q : β → Prop}
    {items : List α} {others : List β} (h : List.Forall₂ R items others)
    (hiff : ∀ item other, other ∈ others → R item other → (P item ↔ Q other)) :
    (∀ item ∈ items, P item) ↔ ∀ other ∈ others, Q other := by
  induction h with
  | nil => simp
  | cons hhead _ ih =>
    rw [List.forall_mem_cons, List.forall_mem_cons,
      hiff _ _ List.mem_cons_self hhead,
      ih fun item other hother => hiff item other (List.mem_cons_of_mem _ hother)]

/-- What the audit finds about one trade. -/
theorem costFailure_iff {executions : List ExecutionRow} {row : TradeRow}
    {block : List ExecutionRow} (hunique : (executions.map (·.executionId)).Nodup)
    (hcharged : ∀ row ∈ block, Charged row) (hmem : ∀ row ∈ block, row ∈ executions)
    (h : ClosedBlock row block) :
    (row.trade.totalFee = joinedCost executions (·.fee) row.entryExecutionId +
        joinedCost executions (·.fee) row.exitExecutionId ∧
      row.trade.slippage = joinedCost executions (·.slippage) row.entryExecutionId +
        joinedCost executions (·.slippage) row.exitExecutionId) ↔
      ∀ execution ∈ block.tail.dropLast, execution.fee = 0 ∧ execution.slippage = 0 := by
  obtain ⟨⟨hfirst, hfee, hslippage⟩, hlast, htwo⟩ := h
  -- the first execution, those between, and the last
  obtain ⟨first, middle, last, rfl⟩ : ∃ first middle last, block = first :: (middle ++ [last]) := by
    cases block with
    | nil => cases hfirst
    | cons first tail =>
      have hne : tail ≠ [] := by
        rintro rfl
        simp at htwo
      exact ⟨first, tail.dropLast, tail.getLast hne, by rw [List.dropLast_append_getLast]⟩
  have hentry : first.executionId = row.entryExecutionId := Option.some.inj hfirst
  have hexit : last.executionId = row.exitExecutionId := by
    rw [← List.cons_append, List.getLast?_append] at hlast
    exact Option.some.inj hlast
  have hmiddle : ∀ execution ∈ middle, Charged execution := fun execution hexecution =>
    hcharged execution (List.mem_cons_of_mem _ (List.mem_append_left _ hexecution))
  have hfirstMem := hmem first List.mem_cons_self
  have hlastMem := hmem last (List.mem_cons_of_mem _ (List.mem_append_right _
    (List.mem_singleton_self _)))
  rw [← hentry, ← hexit, joinedCost_eq hunique hfirstMem, joinedCost_eq hunique hfirstMem,
    joinedCost_eq hunique hlastMem, joinedCost_eq hunique hlastMem,
    eq_add_iff_of_middle (fun execution h => (hmiddle execution h).fee_nonneg) hfee,
    eq_add_iff_of_middle (fun execution h => (hmiddle execution h).slippage_nonneg) hslippage,
    List.tail_cons, List.dropLast_concat]
  exact ⟨fun h execution hexecution => ⟨h.1 execution hexecution, h.2 execution hexecution⟩,
    fun h => ⟨fun execution hexecution => (h execution hexecution).1,
      fun execution hexecution => (h execution hexecution).2⟩⟩

/-- What is recorded of the costs: each trade carries the costs of its block of executions. The
audit compares it with the two ends of the block, so it finds nothing exactly when what lies
between them costs nothing. -/
structure CostsRecorded (s : EngineState) (blocks : List (List ExecutionRow))
    (rest : List ExecutionRow) : Prop where
  executions : Blocks s.records blocks rest
  openBlock : OpenBlock (s.activeTrade.map ActiveTrade.costs) rest
  costOnce : executionCostFailures (s.records.filterMap tradeRow?)
      (s.records.filterMap executionRow?) = [] ↔
    ∀ block ∈ blocks, ∀ row ∈ block.tail.dropLast, row.fee = 0 ∧ row.slippage = 0
  netOfCost : netFailures (s.records.filterMap tradeRow?) = []

/-- **The costs of every run** are those of its executions, trade by trade: the executions fall
into blocks, one for each completed trade and one for an open one, whose sums are the costs of the
trade. The audit compares the first execution and the last, so it finds nothing exactly when those
between them cost nothing. -/
theorem tradeCosts_of_reachable (hkeys : SeriesBoard.KeysDistinct input.series)
    (h : (system input).Reachable state) : ∃ blocks rest, CostsRecorded state.2 blocks rest := by
  obtain ⟨⟨blocks, rest, hblocks, hopen⟩, hcharged, hnet⟩ := accounted_of_reachable h
  have hunique := executionIds_nodup
    (audited_of_reachable hkeys h).inOrder.journal.kept.keysOf_nodup
  have hmem : ∀ block ∈ blocks, ∀ row ∈ block,
      row ∈ state.2.records.filterMap executionRow? := by
    intro block hblock row hrow
    rw [hblocks.executions_eq]
    exact List.mem_append_left _ (List.mem_flatten_of_mem hblock hrow)
  refine ⟨blocks, rest, hblocks, hopen, ?_, ?_⟩
  · unfold executionCostFailures
    rw [insertionSort_map_filter_eq_nil]
    refine forall_mem_iff_of_forall₂ hblocks.trades fun row block hblock hclosed => ?_
    rw [← costFailure_iff hunique (fun row hrow => hcharged row (hmem block hblock row hrow))
      (hmem block hblock) hclosed, decide_eq_false_iff_not, not_or, not_not, not_not]
  · unfold netFailures
    rw [insertionSort_map_filter_eq_nil]
    intro row hrow
    rw [decide_eq_false_iff_not, not_not]
    exact hnet row hrow

theorem tradeCosts_of_four_hours : ∃ state : RunState, endedWithTrade state = true ∧
    ∃ blocks rest, CostsRecorded state.2 blocks rest := by
  obtain ⟨state, hended, hreachable⟩ := exists_ended
  exact ⟨state, hended, tradeCosts_of_reachable keysDistinct_twoDollarRun hreachable⟩

end Engine
end TradingSystem
