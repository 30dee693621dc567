import TradingSystem.Engine.RunInvariant

/-!
# The steps of a run, by phase

What `stepPhase` can do, said once: a step is one of nine kinds, each with the one part of the
engine that it runs. An invariant of the run is then proved kind by kind.
-/

namespace TradingSystem

open Numeric Logic

namespace Engine

variable {input : RunInput} {phase phase' : Phase} {s s' : EngineState}

/-- **The kinds of a step.** -/
inductive PhaseStep (input : RunInput) : Phase → EngineState → Phase → EngineState → Prop
  /-- The boundary at the open is settled, and the queue becomes the orders of the bar. -/
  | beforeOpen {bar : Bar} {s s₁ : EngineState}
      (hrun : settleAtBoundary input bar.candle.openTime s = .ok ⟨⟩ s₁) :
      PhaseStep input (.beforeOpen bar) s (.carrying bar s₁.pending) { s₁ with pending := [] }
  /-- No order is left to carry. -/
  | carried {bar : Bar} {s : EngineState} {boundaries : List ℤ}
      (hboundaries : FundingWalk.boundariesBetween bar.candle.openTime bar.candle.closeTime =
        .ok boundaries) :
      PhaseStep input (.carrying bar []) s (.settling bar boundaries) s
  | carrying {bar : Bar} {pending : PendingOrder} {orders : List PendingOrder}
      {s s' : EngineState} (hrun : executePending input bar.candle pending s = .ok ⟨⟩ s') :
      PhaseStep input (.carrying bar (pending :: orders)) s (.carrying bar orders) s'
  /-- No boundary is left to settle. -/
  | settled {bar : Bar} {s : EngineState} :
      PhaseStep input (.settling bar []) s (.protecting bar) s
  | settling {bar : Bar} {boundary : ℤ} {boundaries : List ℤ} {s s' : EngineState}
      (hrun : settleAtBoundary input boundary s = .ok ⟨⟩ s') :
      PhaseStep input (.settling bar (boundary :: boundaries)) s (.settling bar boundaries) s'
  | protecting {bar : Bar} {s s' : EngineState}
      (hrun : protect input bar.candle s = .ok ⟨⟩ s') :
      PhaseStep input (.protecting bar) s (.beforeClose bar) s'
  | beforeClose {bar : Bar} {s s' : EngineState}
      (hrun : stepClose input bar.candle (input.answers bar.index) s = .ok ⟨⟩ s') :
      PhaseStep input (.beforeClose bar) s (.afterClose bar) s'
  | finalize {index : ℕ} {candle : Candle} {s s' : EngineState}
      (hrun : finalize input candle s = .ok ⟨⟩ s') :
      PhaseStep input (.afterClose ⟨index, candle, []⟩) s .finished s'
  | betweenBars {index : ℕ} {candle next : Candle} {rest : List Candle} {s s' : EngineState}
      (hrun : betweenBars input candle next s = .ok ⟨⟩ s') :
      PhaseStep input (.afterClose ⟨index, candle, next :: rest⟩) s
        (.beforeOpen ⟨index + 1, next, rest⟩) s'

/-- Every step is of one of the kinds. -/
theorem phaseStep_of_stepPhase (h : stepPhase input phase s = .ok phase' s') :
    PhaseStep input phase s phase' s' := by
  -- one rule for each phase, and two where a list of things to do may be empty
  cases phase with
  | beforeOpen bar =>
    simp only [stepPhase, bind_eq_ok, pure_apply, EStateM.Result.ok.injEq] at h
    obtain ⟨_, s₁, hsettle, carried, s₂, htake, rfl, rfl⟩ := h
    obtain ⟨rfl, rfl⟩ := takePending_eq_ok htake
    exact .beforeOpen hsettle
  | carrying bar orders =>
    cases orders with
    | nil =>
      simp only [stepPhase, bind_eq_ok, runPure_eq_ok, pure_apply, EStateM.Result.ok.injEq] at h
      obtain ⟨boundaries, _, ⟨hboundaries, rfl⟩, rfl, rfl⟩ := h
      exact .carried hboundaries
    | cons pending orders =>
      simp only [stepPhase, bind_eq_ok, pure_apply, EStateM.Result.ok.injEq] at h
      obtain ⟨_, _, hrun, rfl, rfl⟩ := h
      exact .carrying hrun
  | settling bar boundaries =>
    cases boundaries with
    | nil =>
      cases h
      exact .settled
    | cons boundary boundaries =>
      simp only [stepPhase, bind_eq_ok, pure_apply, EStateM.Result.ok.injEq] at h
      obtain ⟨_, _, hrun, rfl, rfl⟩ := h
      exact .settling hrun
  | protecting bar =>
    simp only [stepPhase, bind_eq_ok, pure_apply, EStateM.Result.ok.injEq] at h
    obtain ⟨_, _, hrun, rfl, rfl⟩ := h
    exact .protecting hrun
  | beforeClose bar =>
    simp only [stepPhase, bind_eq_ok, pure_apply, EStateM.Result.ok.injEq] at h
    obtain ⟨_, _, hrun, rfl, rfl⟩ := h
    exact .beforeClose hrun
  | afterClose bar =>
    obtain ⟨index, candle, rest⟩ := bar
    cases rest with
    | nil =>
      simp only [stepPhase, bind_eq_ok, pure_apply, EStateM.Result.ok.injEq] at h
      obtain ⟨_, _, hrun, rfl, rfl⟩ := h
      exact .finalize hrun
    | cons next rest =>
      simp only [stepPhase, bind_eq_ok, pure_apply, EStateM.Result.ok.injEq] at h
      obtain ⟨_, _, hrun, rfl, rfl⟩ := h
      exact .betweenBars hrun
  | finished => cases h

end Engine
end TradingSystem
