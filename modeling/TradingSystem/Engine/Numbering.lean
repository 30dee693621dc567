import TradingSystem.Engine.Moves
import TradingSystem.Engine.Effects

/-!
# How the trades of a run are numbered

The counter of trades only grows (`Counts`), and a carried order starts a trade under a
number no trade has had before (`Numbers`). Rows of different trades are told apart by it.
-/

namespace TradingSystem

open Numeric Logic

namespace Engine

variable {input : RunInput} {s s' : EngineState}

/-! ### The counter -/

/-- The counter of trades has not gone back. -/
def Counts (s s' : EngineState) : Prop := s.sequence .trade ≤ s'.sequence .trade

theorem counts_next {counter : Counter} : Moves Counts (next counter) := by
  intro s
  change _ ≤ Function.update s.sequence counter (s.sequence counter + 1) .trade
  by_cases hcounter : counter = .trade
  · rw [hcounter, Function.update_self]
    exact Nat.le_succ _
  · rw [Function.update_of_ne (Ne.symm hcounter)]

instance unwatched_counts : Unwatched Counts where
  refl s := le_refl (s.sequence .trade)
  trans _ _ _ h h' := Nat.le_trans h h'
  next s counter _ := counts_next s
  record s _ _ := le_refl (s.sequence .trade)
  trading hsequence _ _ := by
    unfold Counts
    rw [hsequence]

/-- Snapshots have a counter of their own. -/
theorem counts_updateIndicators {candle : Candle} :
    Moves Counts (updateIndicators input candle) := by
  have hboard : ∀ {α : Type} (m : Program Fault SeriesBoard α), Moves Counts
      (zoom EngineState.board (fun board state => { state with board := board }) m) := by
    intro α m s
    unfold zoom
    cases m s.board <;> exact le_refl (s.sequence .trade)
  exact (hboard _).bind fun _ => moves_forEach fun _ => (hboard _).bind fun _ =>
    counts_next.bind fun _ => moves_get.bind fun _ => (moves_runPure _).bind fun _ =>
      moves_modify fun s => le_refl (s.sequence .trade)

/-! ### Fresh numbers -/

/-- The counter has not gone back, and an active trade is the one of before or has a number
the counter had not reached. -/
structure Numbers (s s' : EngineState) : Prop where
  counts : Counts s s'
  active : ∀ active' ∈ s'.activeTrade, (∃ active ∈ s.activeTrade,
    active'.tradeId = active.tradeId) ∨
    (s.sequence .trade < active'.tradeId ∧ active'.tradeId ≤ s'.sequence .trade)

theorem Numbers.of_eq (hcounts : Counts s s') (hactive : s'.activeTrade = s.activeTrade) :
    Numbers s s' := by
  refine ⟨hcounts, fun active' hactive' => Or.inl ⟨active', ?_, rfl⟩⟩
  rw [← hactive]
  exact hactive'

instance numbers_refl : Std.Refl Numbers := ⟨fun s => .of_eq (le_refl (s.sequence .trade)) rfl⟩

instance numbers_trans : IsTrans EngineState Numbers := by
  refine ⟨fun s₁ s₂ s₃ h h' => ⟨Nat.le_trans h.counts h'.counts, fun active₃ h₃ => ?_⟩⟩
  have hfirst := h.counts
  have hsecond := h'.counts
  unfold Counts at hfirst hsecond
  rcases h'.active active₃ h₃ with ⟨active₂, h₂, hid⟩ | ⟨hlt, hle⟩
  · rw [hid]
    exact (h.active active₂ h₂).imp_right fun hnew => ⟨hnew.1, hnew.2.trans hsecond⟩
  · exact Or.inr ⟨hfirst.trans_lt hlt, hle⟩

theorem numbers_next {counter : Counter} (h : counter ≠ .indicatorSnapshot) :
    Moves Numbers (next counter) := fun s => .of_eq (moves_next h s) rfl

theorem numbers_onBook {α : Type} (operation : Program Fault PositionBook α) :
    Moves Numbers (onBook operation) := by
  intro s
  refine .of_eq (moves_onBook operation s) ?_
  unfold onBook zoom
  cases operation s.book <;> rfl

theorem numbers_currentPosition : Moves Numbers (currentPosition input) :=
  moves_get.bind fun _ => moves_runPure _

/-- A first entry takes the next number. -/
theorem numbers_recordEntry {fill : Fill} {executionId : ℕ} {signal : Option TradingSignal}
    {candidateId : Option ℕ} :
    Moves Numbers (recordEntry input fill executionId signal candidateId) := by
  intro s
  unfold recordEntry
  rw [get_bind_apply]
  cases hactive : s.activeTrade with
  | some active =>
    refine ⟨le_refl (s.sequence .trade), fun active' hactive' => Or.inl ⟨active, hactive, ?_⟩⟩
    cases hactive'
    rfl
  | none =>
    cases signal with
    | none => exact .of_eq (le_refl (s.sequence .trade)) rfl
    | some signal =>
      have hupdate : Function.update s.sequence .trade (s.sequence .trade + 1) .trade =
          s.sequence .trade + 1 := Function.update_self ..
      -- the new trade takes the number the counter moves to
      refine ⟨?_, fun active' hactive' => Or.inr ?_⟩
      · change _ ≤ Function.update s.sequence .trade (s.sequence .trade + 1) .trade
        omega
      · cases hactive'
        change _ < Function.update s.sequence .trade (s.sequence .trade + 1) .trade ∧
          Function.update s.sequence .trade (s.sequence .trade + 1) .trade ≤
            Function.update s.sequence .trade (s.sequence .trade + 1) .trade
        omega

theorem numbers_applyEntry {fill : Fill} {position : Option Position} {projected : Decimal}
    {executionId : ℕ} {signal : Option TradingSignal} {candidateId : Option ℕ} :
    Moves Numbers (applyEntry input fill position projected executionId signal candidateId) := by
  refine (moves_runPure _).bind fun _ => (numbers_onBook _).bind fun _ =>
    numbers_currentPosition.bind fun after => ?_
  split
  · exact moves_throw _
  · exact moves_get.bind fun _ => (moves_raiseUnless _).bind fun _ =>
      (moves_runPure _).bind fun _ =>
        (moves_modify fun s => .of_eq (le_refl (s.sequence .trade)) rfl).bind fun _ =>
          numbers_recordEntry

/-- An exit keeps the number of its trade. -/
theorem applyExit_numbers {fill : Fill} {position : Option Position} {executionId : ℕ}
    (hreduce : fill.reduceOnly = true)
    (h : applyExit input fill position executionId s = .ok ⟨⟩ s') : Numbers s s' := by
  refine ⟨moves_applyExit.of_ok h, fun active' hactive' => Or.inl ?_⟩
  obtain ⟨_, active, _, _, _, _, -, hactive, -, -, -, -, ⟨_, -, rfl⟩ | ⟨-, _, _, -, -, hlogs⟩⟩ :=
    applyExit_eq_ok hreduce h
  · cases hactive'
    exact ⟨active, hactive, rfl⟩
  · rw [hlogs.activeTrade_eq] at hactive'
    cases hactive'

theorem applyFill_numbers {fill : Fill} {decisionId : Option ℕ} {signal : Option TradingSignal}
    {candidateId : Option ℕ}
    (h : applyFill input fill decisionId signal candidateId s = .ok ⟨⟩ s') : Numbers s s' := by
  unfold applyFill at h
  simp only [bind_eq_ok, currentPosition_eq_ok, get_bind_apply, raiseUnless_eq_ok] at h
  obtain ⟨held, _, ⟨-, rfl⟩, _, _, ⟨-, rfl⟩, executionId, s₁, hnext, _, s₂, hrecord, h⟩ := h
  have hnumber : Counts s s₁ := (moves_next (by decide)).of_ok hnext
  have hrow : Counts s₁ s₂ := (moves_record (by rfl)).of_ok hrecord
  have hexecution : Numbers s s₂ := .of_eq (Nat.le_trans hnumber hrow)
    ((record_eq_ok hrecord).activeTrade_eq.trans (next_eq_ok hnext).activeTrade_eq)
  -- the execution is recorded before the branch
  refine numbers_trans.trans _ _ _ hexecution ?_
  cases hreduce : fill.reduceOnly with
  | true =>
    rw [hreduce] at h
    exact applyExit_numbers hreduce h
  | false =>
    rw [hreduce] at h
    exact numbers_applyEntry.of_ok h

theorem numbers_matchPending {pending : PendingOrder} :
    Moves Numbers (matchPending input pending) := by
  have hbudget : ∀ request, Moves Numbers (riskBudget input request) := by
    intro request
    unfold riskBudget
    split
    · exact (numbers_currentPosition.bind fun _ => moves_get.bind fun _ => moves_pure _).bind
        fun _ => moves_pure _
    · exact moves_pure _
  exact (hbudget _).bind fun _ => moves_get.bind fun _ =>
    Moves.bind ((numbers_next (by decide)).bind fun _ => moves_runPure _) fun _ => moves_pure _

/-- **A carried order** starts a trade under a fresh number, if it starts one. -/
theorem executePending_numbers {candle : Candle} {pending : PendingOrder}
    (h : executePending input candle pending s = .ok ⟨⟩ s') : Numbers s s' := by
  unfold executePending at h
  simp only [bind_eq_ok, raiseUnless_eq_ok] at h
  obtain ⟨_, _, ⟨-, rfl⟩, fill, s₁, hmatch, _, _, ⟨-, rfl⟩, happly⟩ := h
  exact numbers_trans.trans _ _ _ (numbers_matchPending.of_ok hmatch) (applyFill_numbers happly)

end Engine
end TradingSystem
