import TradingSystem.Engine.JournalRun
import TradingSystem.Engine.EquityCurve
import TradingSystem.Evidence.GapContract

/-!
# The order of times

An execution is later than its decision, and by at most one timeframe: a carried order by a
millisecond, a liquidation by a millisecond after its boundary, a trigger by the bar it is found
in. `OnTime` says so of every recorded execution and the decision recorded before it, and that the
decision planned it.

The clock of the evidence can lose a millisecond. The CHECK of the DECISION table then refuses the
decision, whose planned execution would not be stored later, so that no execution follows it.

* `Scheduled` — when a run executes what it has decided.
* `inTime_of_scheduled` — where the plan is stored later, the execution is, and in time.
* `timestampOrder_of_reachable` — the audit of the times passes in every state of every run.
-/

namespace TradingSystem

open Numeric Logic

namespace Engine

variable {input : RunInput} {s s' : EngineState} {fill : Fill} {candle : Candle}

/-! ### Times -/

/-- Stored times of a decision and its execution: later, by at most one timeframe. -/
def InTime (timeframe : Timeframe) (decided executed : ℤ) : Prop :=
  epochMilliseconds decided < epochMilliseconds executed ∧
    epochMilliseconds executed - epochMilliseconds decided ≤
      OhlcvGaps.timeframeMilliseconds timeframe

/-- The instants at which a run decides: the ends of its bars, and the funding boundaries in
between. -/
def Decides (input : RunInput) (t : ℤ) : Prop :=
  ∃ candle ∈ input.history, candle.openTime ≤ t ∧ t ≤ candle.closeTime ∧
    (t = candle.openTime ∨ t = candle.closeTime ∨ isBoundary t = true)

/-- **When a decision is executed**: a millisecond later, or at the close of the bar at whose open
it was made. -/
def Scheduled (input : RunInput) (decided executed : ℤ) : Prop :=
  (Decides input decided ∧ executed = decided + Instant.millisecond) ∨
    ∃ candle ∈ input.history, decided = candle.openTime ∧ executed = candle.closeTime

/-- The bars of a run are on whole seconds of the calendar. -/
structure OnCalendar (input : RunInput) : Prop where
  seconds : ∀ candle ∈ input.history, candle.openTime % Instant.second = 0
  start : ∀ candle ∈ input.history, Resampling.calendarStart ≤ candle.openTime
  finish : ∀ candle ∈ input.history, candle.closeTime < Resampling.calendarEnd

theorem wholeSecond_of_mod {t : ℤ} (h : t % Instant.second = 0)
    (hstart : Resampling.calendarStart ≤ t)
    (hfinish : t < Resampling.calendarEnd + Instant.second) :
    ∃ seconds, WholeSecond t seconds := by
  refine ⟨t / Instant.second, ?_, abs_le.2 ⟨?_, ?_⟩⟩ <;>
    simp only [Resampling.calendarStart, Resampling.calendarEnd, Instant.second] at * <;> omega

theorem duration_mod (timeframe : Timeframe) : timeframe.duration % Instant.second = 0 := by
  rw [OhlcvGaps.duration_eq_milliseconds]
  have hminute := OhlcvGaps.timeframeMilliseconds_emod timeframe
  simp only [Instant.millisecond, Instant.second, OhlcvGaps.minuteMilliseconds] at *
  omega

/-- A run decides on whole seconds. -/
theorem Decides.mod_second (h : OnCalendar input) {t : ℤ} (hdecides : Decides input t) :
    t % Instant.second = 0 := by
  obtain ⟨candle, hmem, -, -, rfl | rfl | hboundary⟩ := hdecides
  · exact h.seconds candle hmem
  · have hopen := h.seconds candle hmem
    have hduration := duration_mod candle.timeframe
    rw [candle.closeTime_eq]
    simp only [Instant.second] at *
    omega
  · rw [isBoundary_iff] at hboundary
    simp only [Instant.hour, Instant.minute, Instant.second] at *
    omega

/-- **In time**: where the execution is stored later, it is so by at most one timeframe. -/
theorem inTime_of_scheduled {decided executed : ℤ} (h : OnCalendar input)
    (hlater : epochMilliseconds decided < epochMilliseconds executed)
    (hscheduled : Scheduled input decided executed) :
    InTime input.config.timeframe decided executed := by
  refine ⟨hlater, ?_⟩
  have hduration := OhlcvGaps.duration_eq_milliseconds input.config.timeframe
  have hminute := input.config.timeframe.minute_le_duration
  rcases hscheduled with ⟨hdecides, rfl⟩ | ⟨candle, hmem, rfl, rfl⟩
  · -- the millisecond is stored before the next second
    have hmod := hdecides.mod_second h
    obtain ⟨candle, hmem, hopen, hclose, -⟩ := hdecides
    have hstart := (h.start candle hmem).trans hopen
    have hfinish := hclose.trans_lt (h.finish candle hmem)
    have hnow := instant_eq_of_second (wholeSecond_of_mod hmod hstart (by
      simp only [Instant.second]
      omega))
    have hnext : (decided + Instant.second) % Instant.second = 0 := by
      rw [Int.add_emod_right]
      exact hmod
    have hthen := instant_eq_of_second (wholeSecond_of_mod hnext (by
      simp only [Instant.second]
      omega) (by omega))
    have hmono : epochMilliseconds (decided + Instant.millisecond) ≤
        epochMilliseconds (decided + Instant.second) :=
      epochMilliseconds_mono (by simp [Instant.millisecond, Instant.second])
    simp only [Instant.minute, Instant.second, Instant.millisecond] at *
    omega
  · -- both ends of a bar are on whole seconds
    have hopens : Decides input candle.openTime :=
      ⟨candle, hmem, le_rfl, candle.openTime_lt_closeTime.le, .inl rfl⟩
    have hcloses : Decides input candle.closeTime :=
      ⟨candle, hmem, candle.openTime_lt_closeTime.le, le_rfl, .inr (.inl rfl)⟩
    have hlt := candle.openTime_lt_closeTime
    have hstart := h.start candle hmem
    have hfinish := h.finish candle hmem
    have hopen := instant_eq_of_second (wholeSecond_of_mod (hopens.mod_second h) hstart (by
      simp only [Instant.second]
      omega))
    have hclose := instant_eq_of_second (wholeSecond_of_mod (hcloses.mod_second h)
      (hstart.trans hlt.le) (by
        simp only [Instant.second]
        omega))
    have hspan := history_closeTime hmem
    simp only [Instant.millisecond] at *
    omega

/-! ### The CHECK of the plans -/

/-- The CHECK of the DECISION table: a planned execution is stored after its decision. -/
def Planned : EvidenceRecord → Prop
  | .decision row => ∀ planned ∈ row.plannedExecutionTs,
      epochMilliseconds row.decisionTs < epochMilliseconds planned
  | _ => True

/-- A sink that keeps it. -/
def ChecksPlans (sink : EvidenceSink) : Prop :=
  ∀ records row, sink records row = .ok ⟨⟩ → Planned row

/-! ### Executions on time -/

/-- A row that is no execution, or whose decision is before it: the sink took the decision, which
planned the execution for a time at which the run executes it. -/
def Timely (input : RunInput) (before : List EvidenceRecord) : EvidenceRecord → Prop
  | .execution row => ∀ n ∈ row.decisionId, ∃ decision, .decision decision ∈ before ∧
      decision.decisionId = n ∧ decision.plannedExecutionTs = some row.executionTs ∧
      (∃ records, input.sink records (.decision decision) = .ok ⟨⟩) ∧
      Scheduled input decision.decisionTs row.executionTs
  | _ => True

/-- **On time**: every execution follows its decision. -/
def OnTime (input : RunInput) (s : EngineState) : Prop :=
  Stepwise (Timely input) s.records

/-- A row that is no execution. -/
def NoExecution : EvidenceRecord → Prop
  | .execution _ => False
  | _ => True

theorem NoExecution.timely {row : EvidenceRecord} (h : NoExecution row)
    (before : List EvidenceRecord) : Timely input before row := by
  cases row <;> trivial

/-- Rows that are no executions are on time. -/
theorem OnTime.rows {rows : List EvidenceRecord} (h : OnTime input s)
    (hrecords : s'.records = s.records ++ rows) (hrows : ∀ row ∈ rows, NoExecution row) :
    OnTime input s' := by
  unfold OnTime
  rw [hrecords]
  exact Stepwise.append_all h fun row hrow => (hrows row hrow).timely

theorem OnTime.same (h : OnTime input s) (hrecords : s'.records = s.records) : OnTime input s' := by
  unfold OnTime
  rw [hrecords]
  exact h

theorem OnTime.logs {rows : List EvidenceRecord} (h : OnTime input s) (hlogs : Logs rows s s')
    (hrows : ∀ row ∈ rows, NoExecution row) : OnTime input s' :=
  h.rows hlogs.records_eq hrows

/-- The rows of a completed trade are no executions. -/
theorem completionRows_noExecution {active : ActiveTrade} {exitExecutionId : ℕ} {trade : Trade}
    {items : List (FeaturePhase × ℤ × Features × Option Decimal)} {features : List EvidenceRecord}
    {tradeId : ℕ} (h : List.Forall₂ (IsFeatureRow tradeId) items features) :
    ∀ row ∈ completionRows active exitExecutionId trade features, NoExecution row := by
  have hfeatures : ∀ row ∈ features, NoExecution row := forall_of_forall₂ h fun _ _ hrow => by
    obtain ⟨feature, rfl, -⟩ := hrow
    trivial
  intro row hrow
  unfold completionRows at hrow
  simp only [List.mem_cons, List.mem_append, List.mem_map] at hrow
  rcases hrow with rfl | ((⟨_, -, rfl⟩ | ⟨_, -, rfl⟩) | ⟨_, -, rfl⟩) | hrow
  · trivial
  · trivial
  · trivial
  · trivial
  · exact hfeatures row hrow

/-- **A fill** is on time if its decision is. -/
theorem applyFill_onTime {decisionId : Option ℕ} {signal : Option TradingSignal}
    {candidateId : Option ℕ} (h : OnTime input s)
    (hdecided : ∀ n ∈ decisionId, ∃ ts, Decided input s n ts fill.timestamp ∧
      Scheduled input ts fill.timestamp)
    (hrun : applyFill input fill decisionId signal candidateId s = .ok ⟨⟩ s') :
    OnTime input s' := by
  obtain ⟨held, executionId, s₁, -, hexecution, hrun⟩ := applyFill_eq_ok hrun
  have h₁ : OnTime input s₁ := by
    unfold OnTime
    rw [hexecution.records_eq]
    refine Stepwise.append h fun n hn => ?_
    obtain ⟨_, ⟨row, hrow, hid, rfl, hplanned, htaken⟩, htime⟩ := hdecided n hn
    exact ⟨row, hrow, hid, hplanned, htaken, htime⟩
  cases hreduce : fill.reduceOnly with
  | true =>
    rw [hreduce, if_pos rfl] at hrun
    obtain ⟨_, _, _, _, _, _, -, -, -, -, -, -, ⟨_, -, rfl⟩ | ⟨-, trade, features, -, hfeatures,
      hlogs⟩⟩ := applyExit_eq_ok hreduce hrun
    · exact h₁.same rfl
    · exact h₁.rows hlogs.records_eq (completionRows_noExecution hfeatures)
  | false =>
    rw [hreduce, if_neg Bool.false_ne_true] at hrun
    obtain ⟨_, _, _, -, -, -, -, -, ⟨_, -, rfl⟩ | ⟨-, _, _, -, hlogs⟩⟩ := applyEntry_eq_ok hrun.2
    · exact h₁.same rfl
    · exact h₁.rows hlogs.records_eq (by simp)

/-- A fill a millisecond after its decision. -/
theorem applyFill_next_onTime {decisionId : ℕ} {signal : Option TradingSignal}
    {candidateId : Option ℕ} {ts : ℤ} (h : OnTime input s)
    (hdecided : Decided input s decisionId ts (ts + Instant.millisecond))
    (hdecides : Decides input ts) (htime : fill.timestamp = ts + Instant.millisecond)
    (hrun : applyFill input fill (some decisionId) signal candidateId s = .ok ⟨⟩ s') :
    OnTime input s' := by
  refine applyFill_onTime h (fun n hn => ?_) hrun
  cases hn
  rw [htime]
  exact ⟨ts, hdecided, .inl ⟨hdecides, rfl⟩⟩

/-! ### The open of a bar -/

/-- A forced exit is decided at the time given. -/
theorem recordForcedExit_onTime {decisionTs planned : ℤ} {position : Position} {decisionId : ℕ}
    (h : OnTime input s)
    (hrun : recordForcedExit input decisionTs position planned s = .ok decisionId s') :
    OnTime input s' ∧ Decided input s' decisionId decisionTs planned := by
  unfold recordForcedExit at hrun
  simp only [bind_eq_ok, pure_apply, EStateM.Result.ok.injEq] at hrun
  obtain ⟨_, s₁, hnext, _, _, hrecord, rfl, rfl⟩ := hrun
  refine ⟨(h.logs (next_eq_ok hnext) (by simp)).logs (record_eq_ok hrecord) ?_,
    decided_record hrecord rfl⟩
  simp [NoExecution]

/-- The fill of a liquidation has the time asked for. -/
theorem liquidationFill_timestamp {position : Position} {price : Decimal} {timestamp : ℤ}
    {costModel : BacktestCostModel}
    (h : Matcher.liquidationFill position price timestamp costModel = .ok fill) :
    fill.timestamp = timestamp := by
  unfold Matcher.liquidationFill Matcher.fillSynthetic at h
  simp only [Except.bind_eq_ok] at h
  obtain ⟨-, -, order, -, h⟩ := h
  split at h
  · next filled order' hrun =>
    cases h
    exact (Matcher.fillOrder_eq_ok hrun).timestamp_eq
  · cases h

theorem liquidateExhausted_onTime {position : Position} {boundary : ℤ} {price : Decimal}
    (h : OnTime input s) (hdecides : Decides input boundary)
    (hrun : liquidateExhausted input position boundary price s = .ok ⟨⟩ s') : OnTime input s' := by
  unfold liquidateExhausted at hrun
  simp only [bind_eq_ok, runPure_eq_ok] at hrun
  obtain ⟨decisionId, s₁, hnext, _, s₂, hrecord, fill, _, ⟨hfill, rfl⟩, hrun⟩ := hrun
  have h₂ : OnTime input s₂ :=
    (h.logs (next_eq_ok hnext) (by simp)).logs (record_eq_ok hrecord) (by simp [NoExecution])
  have hdecided : Decided input s₂ decisionId boundary (boundary + Instant.millisecond) :=
    decided_record hrecord rfl
  exact applyFill_next_onTime h₂ hdecided hdecides (liquidationFill_timestamp hfill) hrun

theorem settleAtBoundary_onTime {boundary : ℤ} (h : OnTime input s)
    (hcandle : candle ∈ input.history) (hopen : candle.openTime ≤ boundary)
    (hclose : boundary ≤ candle.closeTime)
    (hrun : settleAtBoundary input boundary s = .ok ⟨⟩ s') : OnTime input s' := by
  rcases settleAtBoundary_eq_ok hrun with
    ⟨rfl, -⟩ | ⟨position, active, -, hboundary, -, -, -, -, hrun⟩
  · exact h
  · obtain ⟨_, _, _, result, _, _, s₁, -, -, -, -, -, hlogs, hrun⟩ := settle_eq_ok hrun
    have h₁ : OnTime input s₁ := h.rows hlogs.records_eq (by simp)
    cases hexhausted : result.exhausted with
    | false =>
      rw [hexhausted, if_neg Bool.false_ne_true] at hrun
      rw [hrun]
      exact h₁
    | true =>
      rw [hexhausted, if_pos rfl] at hrun
      obtain ⟨remaining, -, hrun⟩ := hrun
      exact liquidateExhausted_onTime h₁
        ⟨candle, hcandle, hopen, hclose, .inr (.inr hboundary)⟩ hrun

/-- **A carried order** is filled a millisecond after the close it was decided at. -/
theorem carried_fill {exact : Prop} {held : Option Position} {prev : Candle}
    {pending : PendingOrder} {orders : List PendingOrder} (hcoherent : Coherent input exact held s)
    (hcarried : IsCarried input prev held (pending :: orders))
    (hrun : executePending input candle pending s = .ok ⟨⟩ s') :
    IsQueued input prev pending ∧ ∃ fill s₁, Logs [] s s₁ ∧
      fill.timestamp = prev.closeTime + Instant.millisecond ∧
      applyFill input (withExitReason fill pending.exitReason) (some pending.decisionId)
        pending.signal pending.candidateId s₁ = .ok ⟨⟩ s' := by
  -- an exit and an entry are filled at the open that their order was queued for
  have hexit : ∀ {position : Position}, held = some position → IsQueued input prev pending →
      IsExitOf position pending → ∃ fill s₁, Logs [] s s₁ ∧
        fill.timestamp = prev.closeTime + Instant.millisecond ∧
        applyFill input (withExitReason fill pending.exitReason) (some pending.decisionId)
          pending.signal pending.candidateId s₁ = .ok ⟨⟩ s' := by
    intro position hheld hqueued hexit
    obtain ⟨fill, s₁, hlogs, -, -, htime, happly⟩ :=
      exit_fill (hcoherent.isOpen position hheld) hqueued hexit hrun
    exact ⟨fill, s₁, hlogs, htime, happly⟩
  have hentry : ∀ {signal : TradingSignal} {side : PositionSide} {quantity : Binary64},
      IsQueued input prev pending → IsEntryOf signal side quantity pending →
      ∃ fill s₁, Logs [] s s₁ ∧ fill.timestamp = prev.closeTime + Instant.millisecond ∧
        applyFill input (withExitReason fill pending.exitReason) (some pending.decisionId)
          pending.signal pending.candidateId s₁ = .ok ⟨⟩ s' := by
    intro signal side quantity hqueued hisEntry
    obtain ⟨fill, s₁, hlogs, -, -, htime, happly⟩ := entry_fill hqueued hisEntry hrun
    exact ⟨fill, s₁, hlogs, htime, happly⟩
  -- a reversal carries its exit first
  rcases hcarried with hqueue | ⟨hqueued, hisEntry, -⟩
  · cases hqueue with
    | exit hqueued hisExit => exact ⟨hqueued, hexit rfl hqueued hisExit⟩
    | entry hqueued hisEntry => exact ⟨hqueued, hentry hqueued hisEntry⟩
    | reverse hqueued hisExit _ _ _ => exact ⟨hqueued, hexit rfl hqueued hisExit⟩
  · exact ⟨hqueued, hentry hqueued hisEntry⟩

theorem executePending_onTime {exact : Prop} {held : Option Position} {prev : Candle}
    {pending : PendingOrder} {orders : List PendingOrder} (h : OnTime input s)
    (hdecided : Decided input s pending.decisionId pending.decisionCandle.closeTime
      (pending.decisionCandle.closeTime + Instant.millisecond))
    (hcoherent : Coherent input exact held s)
    (hcarried : IsCarried input prev held (pending :: orders))
    (hrun : executePending input candle pending s = .ok ⟨⟩ s') : OnTime input s' := by
  obtain ⟨hqueued, fill, s₁, hlogs, htime, happly⟩ := carried_fill hcoherent hcarried hrun
  obtain ⟨next, hnext⟩ := hqueued.contiguous
  rw [hqueued.decisionCandle_eq] at hdecided
  have hdecided₁ : Decided input s₁ pending.decisionId prev.closeTime
      (prev.closeTime + Instant.millisecond) := by
    refine hdecided.mono ?_
    rw [hlogs.records_eq]
    exact List.prefix_append _ _
  have hdecides : Decides input prev.closeTime :=
    ⟨prev, (nextBar_contiguous hnext).1, prev.openTime_lt_closeTime.le, le_rfl, .inr (.inl rfl)⟩
  have htime₁ : (withExitReason fill pending.exitReason).timestamp =
      prev.closeTime + Instant.millisecond := htime
  have h₁ : OnTime input s₁ := h.logs hlogs (by simp)
  exact applyFill_next_onTime h₁ hdecided₁ hdecides htime₁ happly

/-- A trigger is decided at the open of its bar and filled at its close. -/
theorem protect_onTime {exact : Prop} {held : Option Position} (h : OnTime input s)
    (hcoherent : Coherent input exact held s) (hcandle : candle ∈ input.history)
    (hrun : protect input candle s = .ok ⟨⟩ s') : OnTime input s' := by
  unfold protect at hrun
  simp only [bind_eq_ok, currentPosition_eq_ok] at hrun
  obtain ⟨before, _, ⟨hbefore, rfl⟩, hrun⟩ := hrun
  rw [hcoherent.files.positionOf_eq] at hbefore
  cases hbefore
  cases held with
  | none =>
    -- nothing protects a flat run
    cases hrun
    exact h
  | some position =>
    unfold applyTrigger walkTriggers at hrun
    simp only [bind_eq_ok, get_bind_apply, runPure_eq_ok] at hrun
    obtain ⟨trigger, _, ⟨htrigger, rfl⟩, hrun⟩ := hrun
    cases trigger with
    | none =>
      cases hrun
      exact h
    | some fill =>
      simp only [bind_eq_ok] at hrun
      obtain ⟨_, s₁, htrack, decisionId, s₂, hforced, happly⟩ := hrun
      obtain rfl := trackExcursions_eq_ok htrack
      have htracked : OnTime input (withTracking input candle position s) := h.same rfl
      -- the forced exit is decided at the open of the bar and executed at its close
      obtain ⟨h₂, hdecided⟩ := recordForcedExit_onTime htracked hforced
      obtain ⟨-, -, htriggered⟩ := Matcher.resolveTriggers_eq_ok htrigger
      obtain ⟨-, -, htime, -⟩ :=
        htriggered.exit (hcoherent.isOpen position rfl).quantity_money
      refine applyFill_onTime h₂ (fun n hn => ?_) happly
      cases hn
      rw [htime]
      exact ⟨candle.openTime, hdecided, .inr ⟨candle, hcandle, rfl, rfl⟩⟩

/-! ### The close of a bar, gaps and the end -/

theorem stepClose_onTime {answer : StrategyAnswer} (h : OnTime input s)
    (hrun : stepClose input candle answer s = .ok ⟨⟩ s') : OnTime input s' := by
  unfold stepClose markGrid at hrun
  simp only [bind_eq_ok] at hrun
  obtain ⟨_, s₁, hindicators, _, s₄, ⟨_, s₂, hmark, _, s₃, hposition, hportfolio⟩, hanswer⟩ := hrun
  obtain ⟨board, rows, -, hrows, hlogs⟩ := updateIndicators_eq_ok hindicators
  -- of the parts of a close, in their order, none records an execution
  have h₁ : OnTime input s₁ :=
    h.rows hlogs.records_eq (forall_of_forall₂ hrows fun _ _ hrow => by
      obtain ⟨_, _, rfl, -⟩ := hrow
      trivial)
  have h₂ : OnTime input s₂ := by
    obtain ⟨held, -, ⟨-, rfl⟩ | ⟨_, _, _, -, -, -, _, -, rfl⟩⟩ := markPosition_eq_ok hmark
    · exact h₁
    · exact h₁.same rfl
  have h₃ : OnTime input s₃ := by
    obtain ⟨held, hheld⟩ : ∃ held, positionOf input s₂.book = .ok held := by
      unfold recordPosition at hposition
      simp only [bind_eq_ok, currentPosition_eq_ok] at hposition
      obtain ⟨held, _, ⟨hheld, -⟩, -⟩ := hposition
      exact ⟨held, hheld⟩
    obtain ⟨row, -, ⟨_, -, -, hlogs⟩ | ⟨-, hlogs⟩⟩ := recordPosition_eq_ok hheld hposition
    · exact h₂.rows hlogs.records_eq (by simp)
    · exact h₂.logs hlogs (by simp [NoExecution])
  obtain ⟨equitySeq, held, hheld, hlogs⟩ := recordPortfolio_run hportfolio
  have h₄ : OnTime input s₄ := h₃.rows hlogs.records_eq (by simp [NoExecution])
  have hheld₄ : positionOf input s₄.book = .ok held := by
    rw [hlogs.book_eq]
    exact hheld
  -- the answer is recorded, its orders wait
  obtain ⟨orders, -, rows, hclerical, hlogs⟩ := handleAnswer_eq_ok hheld₄ hanswer
  refine h₄.rows hlogs.records_eq fun row hrow => ?_
  have hrow := hclerical row hrow
  cases row <;> trivial

theorem closeAtTerminal_onTime {last : Candle} {position : Position} {reason : ExitReason}
    {decisionId : Option ℕ} (h : OnTime input s) (hopen : IsOpen input position)
    (hlast : last ∈ input.history)
    (hdecided : ∀ n ∈ decisionId,
      Decided input s n last.closeTime (last.closeTime + Instant.millisecond))
    (hrun : closeAtTerminal input last position reason decisionId s = .ok ⟨⟩ s') :
    OnTime input s' := by
  obtain ⟨fill, s₁, hlogs, -, -, htime, happly⟩ := closeAtTerminal_fill hopen hrun
  refine applyFill_onTime (h.logs hlogs (by simp)) (fun n hn => ?_) happly
  have hclose : fill.timestamp = last.closeTime + Instant.millisecond := htime
  have hfilled : (withExitReason fill (some reason)).timestamp =
      last.closeTime + Instant.millisecond := hclose
  refine ⟨last.closeTime, ?_, ?_⟩
  · refine Decided.mono (s := s) ?_ ?_
    · rw [hfilled]
      exact hdecided n hn
    · rw [hlogs.records_eq]
      exact List.prefix_append _ _
  · rw [hfilled]
    exact .inl ⟨⟨last, hlast, last.openTime_lt_closeTime.le, le_rfl, .inr (.inl rfl)⟩, rfl⟩

theorem betweenBars_onTime {exact : Prop} {held : Option Position} {next : Candle}
    (h : OnTime input s) (hcoherent : Coherent input exact held s)
    (hcandle : candle ∈ input.history)
    (hrun : betweenBars input candle next s = .ok ⟨⟩ s') : OnTime input s' := by
  unfold betweenBars at hrun
  split at hrun
  · unfold closeAtDataGap at hrun
    simp only [bind_eq_ok, raiseUnless_eq_ok, currentPosition_eq_ok, get_bind_apply] at hrun
    obtain ⟨_, _, ⟨-, rfl⟩, before, _, ⟨hbefore, rfl⟩, hrun⟩ := hrun
    rw [hcoherent.files.positionOf_eq] at hbefore
    cases hbefore
    cases held with
    | none =>
      cases hrun
      exact h
    | some position =>
      simp only [bind_eq_ok, modify_apply, EStateM.Result.ok.injEq] at hrun
      obtain ⟨decisionId, s₁, hforced, _, s₂, hclose, -, rfl⟩ := hrun
      obtain ⟨h₁, hdecided⟩ := recordForcedExit_onTime h hforced
      have h₂ := closeAtTerminal_onTime h₁ (hcoherent.isOpen position rfl) hcandle
        (fun n hn => by
          cases hn
          exact hdecided) hclose
      exact h₂.same rfl
  · cases hrun
    exact h

theorem finalize_onTime {exact : Prop} {held : Option Position} (h : OnTime input s)
    (hcoherent : Coherent input exact held s) (hcandle : candle ∈ input.history)
    (hrun : finalize input candle s = .ok ⟨⟩ s') : OnTime input s' := by
  obtain ⟨before, s₁, hbefore, hterminal, hclose⟩ := finalize_eq_ok hrun
  rw [hcoherent.files.positionOf_eq] at hbefore
  cases hbefore
  obtain ⟨_, _, hlogs⟩ := recordTerminalEquity_run hterminal
  have h₁ : OnTime input s₁ := by
    rcases hclose with ⟨-, rfl⟩ | ⟨position, rfl, hclose⟩
    · exact h
    · exact closeAtTerminal_onTime h (hcoherent.isOpen position rfl) hcandle
        (by simp) hclose
  exact h₁.rows hlogs.records_eq (by simp [NoExecution])

/-! ### Whole runs -/

open JournalSpec TransitionSystem

variable {state state' : RunState}

/-- The definitions of the series are all a run starts with. -/
theorem onTime_of_isStart (h : IsStart input state) : OnTime input state.2 := by
  obtain ⟨cash, first, rest, -, -, -, hprepare⟩ := h
  obtain ⟨board, rows, hrows, hlogs, -⟩ := prepare_eq_ok hprepare
  have hinitial : OnTime input (initialState input cash) := stepwise_nil
  refine hinitial.rows hlogs.records_eq fun row hrow => ?_
  obtain ⟨definition, rfl⟩ := hrows row hrow
  trivial

/-- The boundaries that are still to be settled lie within their bar. -/
def SettlesWithin : Phase → Prop
  | .settling bar boundaries => ∀ boundary ∈ boundaries,
      bar.candle.openTime ≤ boundary ∧ boundary ≤ bar.candle.closeTime
  | _ => True

theorem settlesWithin_step (h : SettlesWithin state.1) (hstep : (system input).step state state') :
    SettlesWithin state'.1 := by
  obtain ⟨phase, s⟩ := state
  obtain ⟨phase', s'⟩ := state'
  cases phaseStep_of_stepPhase hstep with
  | carried hboundaries =>
    intro boundary hboundary
    obtain ⟨hopen, hclose, -⟩ := (FundingWalk.mem_boundariesBetween hboundaries).1 hboundary
    exact ⟨hopen.le, hclose⟩
  | settling hrun => exact fun boundary hboundary => h boundary (List.mem_cons_of_mem _ hboundary)
  | _ => trivial

/-- **One step** keeps the executions on time. -/
theorem onTime_step (hinv : Inv input False state) (haudited : Audited input state)
    (hwithin : SettlesWithin state.1) (h : OnTime input state.2)
    (hstep : (system input).step state state') : OnTime input state'.2 := by
  obtain ⟨phase, s⟩ := state
  obtain ⟨phase', s'⟩ := state'
  obtain ⟨held, hcoherent, hphase⟩ := hinv
  cases phaseStep_of_stepPhase hstep with
  | @beforeOpen bar s s₁ hrun =>
    exact (settleAtBoundary_onTime h hphase.1.mem_history le_rfl
      bar.candle.openTime_lt_closeTime.le hrun).same rfl
  | carried => exact h
  | @carrying bar pending orders s s' hrun =>
    rcases hphase.2 with hnone | ⟨prev, -, hcarried, -⟩
    · cases hnone
    · have hwaiting : pending ∈ waitingOrders (.carrying bar (pending :: orders), s) :=
        List.mem_append_right _ (List.mem_cons_self ..)
      exact executePending_onTime h (haudited.decided pending hwaiting) hcoherent hcarried hrun
  | settled => exact h
  | @settling bar boundary boundaries s s' hrun =>
    obtain ⟨hopen, hclose⟩ := hwithin boundary List.mem_cons_self
    exact settleAtBoundary_onTime h hphase.1.onEvaluation.mem_history hopen hclose hrun
  | protecting hrun => exact protect_onTime h hcoherent hphase.1.onEvaluation.mem_history hrun
  | beforeClose hrun => exact stepClose_onTime h hrun
  | finalize hrun => exact finalize_onTime h hcoherent hphase.1.mem_history hrun
  | betweenBars hrun => exact betweenBars_onTime h hcoherent hphase.1.mem_history hrun

theorem settlesWithin_of_isStart (h : IsStart input state) : SettlesWithin state.1 := by
  obtain ⟨cash, first, rest, -, -, hphase, -⟩ := h
  rw [hphase]
  trivial

theorem onTime_of_reachable (hkeys : SeriesBoard.KeysDistinct input.series)
    (h : (system input).Reachable state) : OnTime input state.2 := by
  have hall := h.invariant
    (I := fun state => Inv input False state ∧ Audited input state ∧ SettlesWithin state.1 ∧
      OnTime input state.2)
    (fun _ hstart => ⟨inv_of_isStart hstart, audited_of_isStart hkeys hstart,
      settlesWithin_of_isStart hstart, onTime_of_isStart hstart⟩)
    (fun _ _ h hstep => ⟨inv_step h.1 (by simp) hstep, audited_step h.1 h.2.1 hstep,
      settlesWithin_step h.2.2.1 hstep, onTime_step h.1 h.2.1 h.2.2.1 h.2.2.2 hstep⟩)
  exact hall.2.2.2

/-- What the audit of the times asks of the tables: an execution joined with its decision is
later, by at most one timeframe, and only an exit at the end of the data has no decision. -/
structure TimestampOrder (timeframe : Timeframe) (records : List EvidenceRecord) : Prop where
  joined : ∀ execution decision, .execution execution ∈ records → .decision decision ∈ records →
    execution.decisionId = some decision.decisionId →
      InTime timeframe decision.decisionTs execution.executionTs
  decisionless : ∀ execution, .execution execution ∈ records → execution.decisionId = none →
    execution.exitReason = some .endOfData

/-- **The times are in order** in every state of every run whose bars are on whole seconds of the
calendar, and whose sink keeps the CHECK of the DECISION table: where the clock loses the
millisecond between a decision and its execution, the sink has refused the decision. -/
theorem timestampOrder_of_reachable (hkeys : SeriesBoard.KeysDistinct input.series)
    (hcalendar : OnCalendar input) (hsink : ChecksPlans input.sink)
    (h : (system input).Reachable state) :
    TimestampOrder input.config.timeframe state.2.records := by
  constructor
  · intro execution decision hexecution hdecision hid
    obtain ⟨before, after, hrecords⟩ := List.append_of_mem hexecution
    obtain ⟨recorded, hmem, hrecorded, hplanned, ⟨earlier, htaken⟩, hscheduled⟩ :=
      onTime_of_reachable hkeys h before _ after hrecords decision.decisionId hid
    have hmem' : .decision recorded ∈ state.2.records := by
      rw [hrecords]
      exact List.mem_append_left _ hmem
    have hkey : .id .decision decision.decisionId ∈ evidence.keys (.decision decision) :=
      List.mem_singleton_self _
    have hkey' : .id .decision decision.decisionId ∈ evidence.keys (.decision recorded) := by
      rw [← hrecorded]
      exact List.mem_singleton_self _
    -- the decision recorded before the execution is the one joined
    have hnodup := (audited_of_reachable hkeys h).inOrder.journal.kept.keysOf_nodup
    cases eq_of_mem_keys hnodup hdecision hmem' hkey hkey'
    exact inTime_of_scheduled hcalendar (hsink earlier _ htaken _ hplanned) hscheduled
  · intro execution hexecution hnone
    obtain ⟨held, hcoherent, -⟩ := inv_of_reachable h
    obtain ⟨executionId, decisionId, fill, rfl, hdecided | hend⟩ :=
      hcoherent.genuine _ hexecution
    · change decisionId = none at hnone
      rw [hnone] at hdecided
      cases hdecided
    · exact hend

/-! ### Four hours -/

/-- A sink with the CHECK of the DECISION table. -/
def checkingSink : EvidenceSink
  | _, .decision row =>
    require (∀ planned ∈ row.plannedExecutionTs,
        epochMilliseconds row.decisionTs < epochMilliseconds planned)
      (.valueError "CHECK constraint failed: decision_ts < planned_execution_ts")
  | _, _ => .ok ⟨⟩

theorem checksPlans_checkingSink : ChecksPlans checkingSink := by
  intro records row htaken
  cases row with
  | decision row =>
    unfold checkingSink at htaken
    have hchecked := require_eq_ok.1 htaken
    exact hchecked
  | _ => trivial

/-- Four hours whose evidence is checked. -/
def checkedRun : RunInput :=
  { twoDollarRun 100000 (Binary64.ofRat 100) hundredThousand_pos with sink := checkingSink }

theorem onCalendar_checkedRun : OnCalendar checkedRun := by
  have hbars : ∀ candle ∈ checkedRun.history, candle.openTime % Instant.second = 0 ∧
      Resampling.calendarStart ≤ candle.openTime ∧
      candle.closeTime < Resampling.calendarEnd := by decide +kernel
  exact ⟨fun candle hmem => (hbars candle hmem).1, fun candle hmem => (hbars candle hmem).2.1,
    fun candle hmem => (hbars candle hmem).2.2⟩

theorem timestampOrder_of_four_hours : ∃ state : RunState, endedWithTrade state = true ∧
    TimestampOrder checkedRun.config.timeframe state.2.records := by
  obtain ⟨state, hstate, hended⟩ := exists_of_simulated checkedRun (fun _ => true) 26
    endedWithTrade (by decide +kernel)
  have hkeys : SeriesBoard.KeysDistinct checkedRun.series := List.nodup_nil
  exact ⟨state, hended, timestampOrder_of_reachable hkeys onCalendar_checkedRun
    checksPlans_checkingSink (reachable_of_simulated hstate)⟩

end Engine
end TradingSystem
