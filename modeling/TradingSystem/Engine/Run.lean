import TradingSystem.Engine.Step
import TradingSystem.Logic.Transition

/-!
# Runs as a transition system

A run unfolded into its smallest steps: one settlement, one carried order, one trigger,
one close at a time. A `Phase` is the program counter, with the orders or boundaries the
current loop still has to process, and `stepPhase` performs the next step.

`system` is the transition system of one input; a statement about every reachable state
is a statement about every intermediate state of every run. `reachable_of_run` connects
it with `run`: the final state of a run is reachable, through the states in between.
-/

namespace TradingSystem

open Numeric Logic

/-- The bar a run is at: how many bars came before, its candle, and the candles of the
evaluation after it. -/
structure Bar where
  index : ℕ
  candle : Candle
  rest : List Candle

/-- The program counter of a run. -/
inductive Phase
  /-- Before `step_open`. -/
  | beforeOpen (bar : Bar)
  /-- Inside `step_open`, with these carried orders to execute. -/
  | carrying (bar : Bar) (orders : List PendingOrder)
  /-- Inside `step_open`, with these boundaries of the bar to settle. -/
  | settling (bar : Bar) (boundaries : List ℤ)
  /-- Inside `step_open`, before the triggers. -/
  | protecting (bar : Bar)
  /-- Between `step_open` and `step_close`. -/
  | beforeClose (bar : Bar)
  /-- After `step_close`. -/
  | afterClose (bar : Bar)
  /-- After `finalize`. -/
  | finished

namespace Engine

variable (input : RunInput)

/-- The next step of a run. -/
def stepPhase : Phase → EngineProgram Phase
  | .beforeOpen bar => do
    settleAtBoundary input bar.candle.openTime
    let carried ← takePending
    return .carrying bar carried
  | .carrying bar [] => do
    let boundaries ← runPure
      (FundingWalk.boundariesBetween bar.candle.openTime bar.candle.closeTime)
    return .settling bar boundaries
  | .carrying bar (pending :: orders) => do
    executePending input bar.candle pending
    return .carrying bar orders
  | .settling bar [] => return .protecting bar
  | .settling bar (boundary :: boundaries) => do
    settleAtBoundary input boundary
    return .settling bar boundaries
  | .protecting bar => do
    protect input bar.candle
    return .beforeClose bar
  | .beforeClose bar => do
    stepClose input bar.candle (input.answers bar.index)
    return .afterClose bar
  | .afterClose ⟨_, candle, []⟩ => do
    finalize input candle
    return .finished
  | .afterClose ⟨index, candle, next :: rest⟩ => do
    betweenBars input candle next
    return .beforeOpen ⟨index + 1, next, rest⟩
  | .finished => throw .assertionError

/-- A state of a run: where it is and what it holds. -/
abbrev RunState := Phase × EngineState

/-- What a run starts from: the prepared initial state, before the first bar. -/
def IsStart (state : RunState) : Prop :=
  ∃ cash first rest, checkedCash input.config.initialCapital "run initialization" = .ok cash ∧
    input.evaluation = first :: rest ∧ state.1 = .beforeOpen ⟨0, first, rest⟩ ∧
    prepare input (initialState input cash) = .ok ⟨⟩ state.2

/-- The transition system of one input. -/
def system : TransitionSystem RunState where
  init := IsStart input
  step state state' := stepPhase input state.1 state.2 = .ok state'.1 state'.2

variable {input}

open TransitionSystem

private theorem step_of {phase phase' : Phase} {s s' : EngineState}
    (hreach : (system input).Reachable (phase, s))
    (h : stepPhase input phase s = .ok phase' s') : (system input).Reachable (phase', s') :=
  hreach.step h

/-- The loop over the carried orders, order by order. -/
private theorem reachable_of_carrying {bar : Bar} {orders : List PendingOrder}
    {s s' : EngineState} (hreach : (system input).Reachable (.carrying bar orders, s))
    (h : forEach orders (executePending input bar.candle) s = .ok ⟨⟩ s') :
    (system input).Reachable (.carrying bar [], s') := by
  induction orders generalizing s with
  | nil =>
    cases h
    exact hreach
  | cons pending orders ih =>
    rw [forEach_cons, bind_eq_ok] at h
    obtain ⟨_, s₁, h₁, h₂⟩ := h
    refine ih (step_of hreach ?_) h₂
    rw [stepPhase, bind_eq_ok]
    exact ⟨⟨⟩, s₁, h₁, rfl⟩

/-- The loop over the boundaries of a bar, boundary by boundary. -/
private theorem reachable_of_settling {bar : Bar} {boundaries : List ℤ} {s s' : EngineState}
    (hreach : (system input).Reachable (.settling bar boundaries, s))
    (h : forEach boundaries (settleAtBoundary input) s = .ok ⟨⟩ s') :
    (system input).Reachable (.protecting bar, s') := by
  induction boundaries generalizing s with
  | nil =>
    cases h
    exact step_of hreach rfl
  | cons boundary boundaries ih =>
    rw [forEach_cons, bind_eq_ok] at h
    obtain ⟨_, s₁, h₁, h₂⟩ := h
    refine ih (step_of hreach ?_) h₂
    rw [stepPhase, bind_eq_ok]
    exact ⟨⟨⟩, s₁, h₁, rfl⟩

/-- `step_open` is a chain of steps. -/
theorem reachable_of_stepOpen {bar : Bar} {s s' : EngineState}
    (hreach : (system input).Reachable (.beforeOpen bar, s))
    (h : stepOpen input bar.candle s = .ok ⟨⟩ s') :
    (system input).Reachable (.beforeClose bar, s') := by
  unfold stepOpen at h
  simp only [bind_eq_ok, runPure_eq_ok] at h
  obtain ⟨_, s₁, h₁, carried, s₂, h₂, _, s₃, h₃, boundaries, _, ⟨h₄, rfl⟩, _, s₅, h₅, h₆⟩ := h
  have hcarrying : (system input).Reachable (.carrying bar carried, s₂) := by
    refine step_of hreach ?_
    simp only [stepPhase, bind_eq_ok]
    exact ⟨⟨⟩, s₁, h₁, carried, s₂, h₂, rfl⟩
  have hsettling : (system input).Reachable (.settling bar boundaries, s₃) := by
    refine step_of (reachable_of_carrying hcarrying h₃) ?_
    simp only [stepPhase, bind_eq_ok, runPure_eq_ok]
    exact ⟨boundaries, s₃, ⟨h₄, rfl⟩, rfl⟩
  refine step_of (reachable_of_settling hsettling h₅) ?_
  simp only [stepPhase, bind_eq_ok]
  exact ⟨⟨⟩, s', h₆, rfl⟩

/-- A bar is a chain of steps. -/
theorem reachable_of_bar {bar : Bar} {s s₁ s₂ : EngineState}
    (hreach : (system input).Reachable (.beforeOpen bar, s))
    (hopen : stepOpen input bar.candle s = .ok ⟨⟩ s₁)
    (hclose : stepClose input bar.candle (input.answers bar.index) s₁ = .ok ⟨⟩ s₂) :
    (system input).Reachable (.afterClose bar, s₂) := by
  refine step_of (reachable_of_stepOpen hreach hopen) ?_
  simp only [stepPhase, bind_eq_ok]
  exact ⟨⟨⟩, s₂, hclose, rfl⟩

private theorem reachable_of_runFrom {candles : List Candle} {index : ℕ} {candle : Candle}
    {s s' : EngineState}
    (hreach : (system input).Reachable (.beforeOpen ⟨index, candle, candles⟩, s))
    (h : runFrom input index (candle :: candles) s = .ok ⟨⟩ s') :
    (system input).Reachable (.finished, s') := by
  induction candles generalizing index candle s with
  | nil =>
    unfold runFrom at h
    simp only [bind_eq_ok] at h
    obtain ⟨_, s₁, hopen, _, s₂, hclose, hfinal⟩ := h
    refine step_of (reachable_of_bar hreach hopen hclose) ?_
    simp only [stepPhase, bind_eq_ok]
    exact ⟨⟨⟩, s', hfinal, rfl⟩
  | cons next rest ih =>
    unfold runFrom at h
    simp only [bind_eq_ok] at h
    obtain ⟨_, s₁, hopen, _, s₂, hclose, _, s₃, hbetween, hrest⟩ := h
    refine ih (step_of (reachable_of_bar hreach hopen hclose) ?_) hrest
    simp only [stepPhase, bind_eq_ok]
    exact ⟨⟨⟩, s₃, hbetween, rfl⟩

/-- **Runs reach their final state.** -/
theorem reachable_of_run {s : EngineState} (h : run input = .ok s) :
    (system input).Reachable (.finished, s) := by
  unfold run at h
  simp only [Except.bind_eq_ok, require_eq_ok] at h
  obtain ⟨cash, hcash, -, hne, h⟩ := h
  split at h
  · next hrun =>
    cases h
    rw [bind_eq_ok] at hrun
    obtain ⟨_, s₁, hprepare, hloop⟩ := hrun
    cases hevaluation : input.evaluation with
    | nil => exact absurd hevaluation hne
    | cons first rest =>
      rw [hevaluation] at hloop
      have hstart : (system input).Reachable (.beforeOpen ⟨0, first, rest⟩, s₁) :=
        Reachable.init ⟨cash, first, rest, hcash, hevaluation, rfl, hprepare⟩
      exact reachable_of_runFrom hstart hloop
  · cases h

end Engine
end TradingSystem
