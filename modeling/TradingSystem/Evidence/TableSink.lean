import TradingSystem.Engine.EntryAcceptance
import TradingSystem.Engine.TimeOrder
import TradingSystem.Evidence.Acceptance

/-!
# The sink of the money tables

The engine is modelled against any sink, which takes a row or raises. The one of the evidence
database normalizes an EXECUTION or a TRADE row, which raises on an amount beyond the integers of
the table, and inserts it under the constraints of the table; a DECISION row is inserted under the
one on its planned time. The keys of the tables are never what it refuses.

* `tableSink` — that sink.
* `executionTaken_iff` — the fills whose EXECUTION row it takes: those whose amounts fit and whose
  notional does not round to zero.
* `tradeTaken_iff` — the completed trades whose TRADE row it takes.
* `checksPlans_tableSink` — it keeps the constraint on the planned times.
-/

namespace TradingSystem

open Numeric Logic

/-! ### Inserting a row -/

instance (stored : StoredExecution) : Decidable stored.Checks :=
  decidable_of_iff (0 < stored.referencePrice ∧ 0 < stored.price ∧ 0 < stored.quantity ∧
      0 < stored.notional ∧ 0 ≤ stored.fee ∧ 0 ≤ stored.slippage ∧
      (stored.decisionId.isSome ∨ stored.exitReason = some .endOfData))
    ⟨fun ⟨hreference, hprice, hquantity, hnotional, hfee, hslippage, hdecided⟩ =>
      ⟨hreference, hprice, hquantity, hnotional, hfee, hslippage, hdecided⟩,
    fun h => ⟨h.referencePrice_pos, h.price_pos, h.quantity_pos, h.notional_pos, h.fee_nonneg,
      h.slippage_nonneg, h.decided⟩⟩

instance (stored : StoredTrade) : Decidable stored.Checks :=
  decidable_of_iff (0 < stored.entryPrice ∧ 0 < stored.entryQuantity ∧ 0 < stored.exitPrice ∧
      0 < stored.exitQuantity ∧ 0 ≤ stored.totalFee ∧ 0 ≤ stored.slippage ∧
      0 ≤ stored.liquidationPenalty ∧ (∀ value ∈ stored.r0, 0 < value) ∧ 1 ≤ stored.leverage ∧
      0 ≤ stored.holdDurationSeconds ∧ (Binary64.zero ≤ stored.signalConfidence ∧
        stored.signalConfidence ≤ Binary64.ofRat 1) ∧ stored.entryTime < stored.exitTime ∧
      stored.netPnl = stored.grossPnl - stored.totalFee - stored.slippage - stored.fundingCost -
        stored.liquidationPenalty ∧
      (stored.liquidated = true ↔ stored.exitReason = .liquidation))
    ⟨fun ⟨h1, h2, h3, h4, h5, h6, h7, h8, h9, h10, h11, h12, h13, h14⟩ =>
      ⟨h1, h2, h3, h4, h5, h6, h7, h8, h9, h10, h11, h12, h13, h14⟩,
    fun ⟨h1, h2, h3, h4, h5, h6, h7, h8, h9, h10, h11, h12, h13, h14⟩ =>
      ⟨h1, h2, h3, h4, h5, h6, h7, h8, h9, h10, h11, h12, h13, h14⟩⟩

/-- Normalize an EXECUTION row and insert it. -/
def ExecutionRow.insert (row : ExecutionRow) : Except Fault PUnit := do
  let stored ← row.store
  require stored.Checks (.integrityError "CHECK constraint failed: EXECUTION")

/-- Normalize a TRADE row and insert it. -/
def TradeRow.insert (row : TradeRow) : Except Fault PUnit := do
  let stored ← row.store
  require stored.Checks (.integrityError "CHECK constraint failed: TRADE")

/-- Insert a DECISION row; without a planned time the constraint is not evaluated. -/
def DecisionRow.insert (row : DecisionRow) : Except Fault PUnit :=
  require (∀ planned ∈ row.plannedExecutionTs,
      epochMilliseconds row.decisionTs < epochMilliseconds planned)
    (.integrityError "CHECK constraint failed: decision_ts < planned_execution_ts")

theorem ExecutionRow.insert_eq_ok {row : ExecutionRow} : row.insert = .ok ⟨⟩ ↔ row.Accepted := by
  unfold ExecutionRow.insert ExecutionRow.Accepted
  simp only [Except.bind_eq_ok, require_eq_ok]

theorem TradeRow.insert_eq_ok {row : TradeRow} : row.insert = .ok ⟨⟩ ↔ row.Accepted := by
  unfold TradeRow.insert TradeRow.Accepted
  simp only [Except.bind_eq_ok, require_eq_ok]

/-- The sink of the evidence database, as far as the constraints of DECISION, EXECUTION and TRADE
go. -/
def tableSink : EvidenceSink
  | _, .decision row => row.insert
  | _, .execution row => row.insert
  | _, .trade row => row.insert
  | _, _ => .ok ⟨⟩

/-! ### What the engine can rely on -/

namespace Engine

variable {input : RunInput} {s : EngineState}

/-- The tables keep the CHECK of the plans, so under them the executions of a run are in time. -/
theorem checksPlans_tableSink : ChecksPlans tableSink := by
  intro records row htaken
  cases row with
  | decision row =>
    have hinserted : row.insert = .ok ⟨⟩ := htaken
    unfold DecisionRow.insert at hinserted
    have hplanned := require_eq_ok.1 hinserted
    exact hplanned
  | _ => trivial

/-- **The executions the tables take** are those whose amounts fit their integers and whose notional
does not round to zero, of the fills of a decision and of the close at the end of the data. -/
theorem executionTaken_iff {decisionId : Option ℕ} {fill : Fill} (hsink : input.sink = tableSink)
    (hdecided : decisionId.isSome = true ∨ fill.exitReason = some .endOfData) :
    ExecutionTaken input s decisionId fill ↔
      (executionRow (s.sequence .execution + 1) decisionId fill).Fits ∧
        qAmount / 2 < fill.price * fill.quantity := by
  unfold ExecutionTaken
  rw [hsink]
  -- the sink inserts the row, and the row is the one of a fill
  change (executionRow (s.sequence .execution + 1) decisionId fill).insert = .ok ⟨⟩ ↔ _
  rw [ExecutionRow.insert_eq_ok]
  exact ExecutionRow.accepted_iff ⟨_, decisionId, fill, rfl, hdecided⟩

/-- **The trades the tables take** are those whose amounts fit and whose initial risk, if they have
one, does not round to zero. -/
theorem tradeTaken_iff {active : ActiveTrade} {exitFill : Fill} {exitExecutionId : ℕ}
    {trade : Trade} {records : List EvidenceRecord}
    (hcompleted : completedTrade input active exitFill = .ok trade) (hactive : IsActive active)
    (hlater : active.entryFill.timestamp < exitFill.timestamp)
    (hwhole : WholeMillisecond exitFill.timestamp) :
    tableSink records (.trade (tradeRow active exitExecutionId trade)) = .ok ⟨⟩ ↔
      (tradeRow active exitExecutionId trade).Fits ∧
        ∀ stop ∈ active.signal.stopLoss, qAmount / 2 <
          |active.entryFill.referencePrice - toDecimal stop| * active.entryFill.quantity :=
  TradeRow.insert_eq_ok.trans (TradeRow.accepted_iff hcompleted hactive hlater hwhole)

/-- **A fill too small for the tables** is not taken, however it was matched: its notional rounds to
zero, as that of 0.0001 units at 0.00001 does. -/
theorem not_executionTaken_of_small {decisionId : Option ℕ} {fill : Fill}
    (hsink : input.sink = tableSink)
    (hdecided : decisionId.isSome = true ∨ fill.exitReason = some .endOfData)
    (hsmall : fill.price * fill.quantity ≤ qAmount / 2) :
    ¬ExecutionTaken input s decisionId fill := by
  rw [executionTaken_iff hsink hdecided]
  exact fun h => not_lt_of_ge hsmall h.2

end Engine

end TradingSystem
