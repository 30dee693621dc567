import TradingSystem.Engine.Run
import TradingSystem.Logic.Frame

/-!
# Where the operations of a run move the state

A relation that does not look at what trading changes is kept by every operation of the
candle loop, as soon as it is kept by an advanced counter and by a recorded row
(`Unwatched`). One lemma for each operation, in the order of the source; the indicators of
a run and the numbering of its trades are two instances.
-/

namespace TradingSystem

open Numeric Logic

namespace Engine

/-- The INDICATOR_SNAPSHOT rows of the evidence. -/
def snapshotRow? : EvidenceRecord → Option IndicatorSnapshotRow
  | .indicatorSnapshot row => some row
  | _ => none

/-- A preorder on states that does not look at what trading changes: advancing a counter,
recording a row and any change of money move along it, snapshots apart. -/
class Unwatched (R : EngineState → EngineState → Prop) : Prop
    extends Std.Refl R, IsTrans EngineState R where
  next : ∀ s counter, counter ≠ .indicatorSnapshot → R s { s with
    sequence := Function.update s.sequence counter (s.sequence counter + 1) }
  record : ∀ s row, snapshotRow? row = none → R s { s with records := s.records ++ [row] }
  trading : ∀ {s s' : EngineState}, s'.sequence = s.sequence → s'.records = s.records →
    s'.board = s.board → R s s'

variable {input : RunInput} {R : EngineState → EngineState → Prop} [Unwatched R]

/-! ### Evidence and lookups -/

theorem moves_next {counter : Counter} (h : counter ≠ .indicatorSnapshot) :
    Moves R (next counter) := fun s => Unwatched.next s counter h

theorem moves_record {row : EvidenceRecord} (h : snapshotRow? row = none) :
    Moves R (record input row) :=
  moves_get.bind fun _ => (moves_runPure _).bind fun _ =>
    moves_modify fun s => Unwatched.record s row h

theorem moves_trading {g : EngineState → EngineState}
    (h : ∀ s, (g s).sequence = s.sequence ∧ (g s).records = s.records ∧ (g s).board = s.board) :
    Moves R (modify g : EngineProgram PUnit) :=
  moves_modify fun s => Unwatched.trading (h s).1 (h s).2.1 (h s).2.2

theorem moves_onBook {α : Type} (operation : Program Fault PositionBook α) :
    Moves R (onBook operation) := by
  intro s
  unfold onBook zoom
  cases operation s.book <;> exact Unwatched.trading rfl rfl rfl

theorem moves_currentPosition : Moves R (currentPosition input) :=
  moves_get.bind fun _ => moves_runPure _

theorem moves_currentEquity : Moves R (currentEquity input) :=
  moves_currentPosition.bind fun _ => moves_get.bind fun _ => moves_pure _

/-! ### Fills -/

theorem moves_recordEntry {fill : Fill} {executionId : ℕ} {signal : Option TradingSignal}
    {candidateId : Option ℕ} :
    Moves R (recordEntry input fill executionId signal candidateId) := by
  intro s
  unfold recordEntry
  rw [get_bind_apply]
  cases s.activeTrade with
  | some active => exact Unwatched.trading rfl rfl rfl
  | none =>
    cases signal with
    | none => exact Std.Refl.refl s
    | some signal =>
      have hopen : Moves R (openTrade input fill executionId signal candidateId) :=
        (moves_next (by decide)).bind fun _ => moves_trading (by simp)
      exact hopen s

theorem moves_applyEntry {fill : Fill} {position : Option Position} {projected : Decimal}
    {executionId : ℕ} {signal : Option TradingSignal} {candidateId : Option ℕ} :
    Moves R (applyEntry input fill position projected executionId signal candidateId) := by
  refine (moves_runPure _).bind fun _ => (moves_onBook _).bind fun _ =>
    moves_currentPosition.bind fun after => ?_
  split
  · exact moves_throw _
  · exact moves_get.bind fun _ => (moves_raiseUnless _).bind fun _ =>
      (moves_runPure _).bind fun _ => (moves_trading (by simp)).bind fun _ =>
        moves_recordEntry

theorem moves_completeTrade {active : ActiveTrade} {fill : Fill} {executionId : ℕ} :
    Moves R (completeTrade input active fill executionId) :=
  (moves_runPure _).bind fun _ => (moves_trading (by simp)).bind fun _ =>
    (moves_record (by rfl)).bind fun _ =>
      (moves_forEach fun _ => moves_record (by rfl)).bind fun _ =>
      (moves_forEach fun _ => moves_record (by rfl)).bind fun _ =>
        (moves_forEach fun _ => moves_record (by rfl)).bind fun _ => moves_get.bind fun _ =>
          moves_forEach fun _ => (moves_next (by decide)).bind fun _ => moves_record (by rfl)

theorem moves_applyExit {fill : Fill} {position : Option Position} {executionId : ℕ} :
    Moves R (applyExit input fill position executionId) := by
  refine moves_get.bind fun s => ?_
  split
  · refine (moves_runPure _).bind fun _ => (moves_onBook _).bind fun _ =>
      (moves_trading (by simp)).bind fun _ =>
      moves_currentPosition.bind fun remaining => ?_
    split
    · exact moves_pure _
    · exact moves_completeTrade.bind fun _ => moves_trading (by simp)
  · exact moves_throw _

theorem moves_applyFill {fill : Fill} {decisionId : Option ℕ} {signal : Option TradingSignal}
    {candidateId : Option ℕ} :
    Moves R (applyFill input fill decisionId signal candidateId) :=
  moves_currentPosition.bind fun _ => moves_get.bind fun _ => (moves_raiseUnless _).bind fun _ =>
    (moves_next (by decide)).bind fun _ => (moves_record (by rfl)).bind fun _ =>
      moves_ite moves_applyExit moves_applyEntry

/-! ### The open of a bar -/

theorem moves_settle {position : Position} {active : ActiveTrade} {boundary : ℤ} :
    Moves R (settle input position active boundary) := by
  refine (moves_runPure _).bind fun _ => (moves_runPure _).bind fun _ =>
    (moves_runPure _).bind fun _ => (moves_onBook _).bind fun _ =>
      Moves.bind ((moves_next (by decide)).bind fun _ =>
        moves_trading (by simp)) fun _ =>
        moves_ite (moves_currentPosition.bind fun held => ?_) (moves_pure _)
  split
  · exact (moves_next (by decide)).bind fun _ => (moves_record (by rfl)).bind fun _ =>
      (moves_runPure _).bind fun _ => moves_applyFill
  · exact moves_throw _

theorem moves_settleAtBoundary {boundary : ℤ} :
    Moves R (settleAtBoundary input boundary) := by
  refine moves_ite (moves_pure _) (moves_currentPosition.bind fun held =>
    moves_get.bind fun s => ?_)
  split
  · exact moves_ite (moves_pure _) moves_settle
  · exact moves_pure _

theorem moves_takePending : Moves R takePending :=
  fun _ => Unwatched.trading rfl rfl rfl

theorem moves_executePending {candle : Candle} {pending : PendingOrder} :
    Moves R (executePending input candle pending) := by
  have hbudget : ∀ request, Moves R (riskBudget input request) := by
    intro request
    unfold riskBudget
    split
    · exact moves_currentEquity.bind fun _ => moves_pure _
    · exact moves_pure _
  exact (moves_raiseUnless _).bind fun _ =>
    Moves.bind ((hbudget _).bind fun _ => moves_get.bind fun _ =>
      Moves.bind ((moves_next (by decide)).bind fun _ => moves_runPure _) fun _ =>
        moves_pure _) fun _ => (moves_raiseUnless _).bind fun _ => moves_applyFill

theorem moves_recordForcedExit {decisionTs planned : ℤ} {position : Position} :
    Moves R (recordForcedExit input decisionTs position planned) :=
  (moves_next (by decide)).bind fun _ => (moves_record (by rfl)).bind fun _ => moves_pure _

theorem moves_protect {candle : Candle} : Moves R (protect input candle) := by
  refine moves_currentPosition.bind fun held => ?_
  split
  · exact moves_pure _
  · refine Moves.bind (moves_get.bind fun _ => moves_runPure _) fun trigger => ?_
    split
    · exact moves_pure _
    · exact (moves_trading (by simp)).bind fun _ =>
        moves_recordForcedExit.bind fun _ => moves_applyFill

/-! ### The rest of the close, and the end -/

theorem moves_markGrid {candle : Candle} : Moves R (markGrid input candle) := by
  -- marking and recording change neither the board nor the snapshots
  have hmark : ∀ mark, Moves R (markPosition input candle mark) := by
    intro mark
    refine moves_currentPosition.bind fun held => ?_
    split
    · exact moves_pure _
    · exact (moves_onBook _).bind fun _ => moves_currentPosition.bind fun _ =>
        moves_forEach fun _ => moves_trading (by simp)
  have hposition : ∀ mark, Moves R (recordPosition input candle mark) := by
    intro mark
    refine moves_currentPosition.bind fun held => (moves_next (by decide)).bind fun seq => ?_
    intro s
    rw [get_bind_apply]
    cases held with
    | none => exact moves_record (by rfl) s
    | some position =>
      cases s.activeTrade with
      | none => exact moves_record (by rfl) s
      | some active => exact Unwatched.trading rfl rfl rfl
  have hportfolio : Moves R (recordPortfolio input candle) :=
    moves_currentPosition.bind fun _ => (moves_next (by decide)).bind fun _ =>
      moves_get.bind fun _ => (moves_record (by rfl)).bind fun _ =>
      moves_trading (by simp)
  exact (hmark _).bind fun _ => (hposition _).bind fun _ => hportfolio

theorem moves_enqueueExit {position : Position} {decisionId : ℕ} {candle : Candle}
    {reason : ExitReason} {signal : TradingSignal} :
    Moves R (enqueueExit position decisionId candle reason signal) :=
  (moves_runPure _).bind fun _ => moves_trading (by simp)

theorem moves_enqueueEntry {side : PositionSide} {quantity : Binary64}
    {decisionId candidateId : ℕ} {candle : Candle} {signal : TradingSignal} :
    Moves R (enqueueEntry side quantity decisionId candidateId candle signal) :=
  (moves_runPure _).bind fun _ => moves_trading (by simp)

theorem moves_size {signal : TradingSignal} : Moves R (size input signal) := by
  unfold size
  split
  · exact moves_throw _
  · refine (moves_raiseUnless _).bind fun _ => ?_
    split
    · exact moves_pure _
    · exact moves_currentEquity.bind fun _ => (moves_runPure _).bind fun _ => moves_pure _
    · exact moves_get.bind fun _ => (moves_runPure _).bind fun _ => moves_pure _

theorem moves_handleEntry {candle : Candle} {signal : TradingSignal} {signalId decisionId : ℕ}
    {side : PositionSide} {position : Option Position} {bar : NextBar} :
    Moves R (handleEntry input candle signal signalId decisionId side position bar) := by
  refine moves_ite ((moves_record (by rfl)).bind fun _ =>
    (moves_next (by decide)).bind fun _ => moves_record (by rfl))
    (moves_size.bind fun sized => (moves_runPure _).bind fun within =>
      (moves_next (by decide)).bind fun candidateId => ?_)
  split
  · exact (moves_record (by rfl)).bind fun _ => (moves_forEach fun _ => moves_enqueueExit).bind
      fun _ => moves_enqueueEntry
  · exact (moves_record (by rfl)).bind fun _ => moves_record (by rfl)
  · exact (moves_record (by rfl)).bind fun _ => moves_record (by rfl)

theorem moves_handleSignal {candle : Candle} {signal : TradingSignal} :
    Moves R (handleSignal input candle signal) := by
  refine moves_currentPosition.bind fun position => (moves_runPure _).bind fun derived =>
    (moves_next (by decide)).bind fun signalId => (moves_record (by rfl)).bind fun _ =>
      (moves_next (by decide)).bind fun decisionId => (moves_runPure _).bind fun bar => ?_
  split
  · unfold handleExit
    split
    · exact moves_record (by rfl)
    · exact (moves_record (by rfl)).bind fun _ => moves_enqueueExit
    · exact moves_record (by rfl)
  · exact moves_handleEntry

theorem moves_handleAnswer {candle : Candle} {answer : StrategyAnswer} :
    Moves R (handleAnswer input candle answer) := by
  have hplan : ∀ decision side plan,
      Moves R (handlePlan input candle decision side plan) := by
    intro decision side plan
    unfold handlePlan
    split
    · exact (moves_next (by decide)).bind fun _ => moves_record (by rfl)
    · exact moves_currentEquity.bind fun _ => (moves_runPure _).bind fun _ =>
        moves_handleSignal
  -- an answer is nothing, a signal, or a decision with its plan
  cases answer with
  | nothing => exact moves_pure _
  | signal signal => exact (moves_raiseUnless _).bind fun _ => moves_handleSignal
  | decision decision plan =>
    refine (moves_raiseUnless _).bind fun _ => ?_
    split
    · exact (moves_next (by decide)).bind fun _ => moves_record (by rfl)
    · exact moves_handleSignal
    · exact (moves_raiseUnless _).bind fun _ => hplan _ _ _
    · exact (moves_raiseUnless _).bind fun _ => hplan _ _ _

theorem moves_closeAtTerminal {last : Candle} {position : Position} {reason : ExitReason}
    {decisionId : Option ℕ} :
    Moves R (closeAtTerminal input last position reason decisionId) :=
  (moves_runPure _).bind fun _ => moves_get.bind fun _ =>
    Moves.bind ((moves_next (by decide)).bind fun _ => moves_runPure _) fun _ =>
      moves_applyFill

theorem moves_betweenBars {candle following : Candle} :
    Moves R (betweenBars input candle following) := by
  refine moves_ite (moves_get.bind fun _ => (moves_raiseUnless _).bind fun _ =>
    moves_currentPosition.bind fun held => ?_) (moves_pure _)
  split
  · exact moves_pure _
  · exact moves_recordForcedExit.bind fun _ => moves_closeAtTerminal.bind fun _ =>
      moves_trading (by simp)

theorem moves_finalize {last : Candle} : Moves R (finalize input last) := by
  refine moves_currentPosition.bind fun held =>
    (moves_forEach fun _ => moves_closeAtTerminal).bind fun _ =>
      moves_currentPosition.bind fun remaining => moves_get_bind fun s => ?_
  exact moves_set_bind (Unwatched.trading rfl rfl rfl) ((moves_next (by decide)).bind fun _ =>
    moves_get.bind fun _ => moves_record (by rfl))

end Engine
end TradingSystem
