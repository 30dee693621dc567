import Mathlib.Logic.Relation
import Mathlib.Tactic.Basic

/-!
# Transition systems

States reached from the initial ones, and the induction rules for them. A *guard*
restricts the states a run may take a step from: `ReachableVia guard` is what runs
reach whose every step starts in a state satisfying the guard, and `Reachable` is the
unrestricted case.

* `ReachableVia.invariant` — what holds initially and is kept by guarded steps holds
  of every state such runs reach.
* `ReachableVia.invariant_of` — the same, relative to an invariant that is known
  already.
-/

namespace TradingSystem
namespace Logic

universe u

/-- Initial states and a step relation. -/
structure TransitionSystem (σ : Type u) where
  init : σ → Prop
  step : σ → σ → Prop

namespace TransitionSystem

variable {σ : Type u} (system : TransitionSystem σ)

/-- The states of runs whose steps start in states satisfying `guard`. -/
inductive ReachableVia (guard : σ → Prop) : σ → Prop
  | init {s : σ} : system.init s → ReachableVia guard s
  | step {s s' : σ} : ReachableVia guard s → guard s → system.step s s' → ReachableVia guard s'

/-- The states of all runs. -/
def Reachable (s : σ) : Prop := system.ReachableVia (fun _ => True) s

variable {system} {guard guard' : σ → Prop} {I J : σ → Prop} {s s' : σ}

theorem Reachable.init (h : system.init s) : system.Reachable s := ReachableVia.init h

theorem Reachable.step (h : system.Reachable s) (hstep : system.step s s') :
    system.Reachable s' :=
  ReachableVia.step h trivial hstep

/-- A weaker guard admits more runs. -/
theorem ReachableVia.mono (h : system.ReachableVia guard s) (hg : ∀ s, guard s → guard' s) :
    system.ReachableVia guard' s := by
  induction h with
  | init hinit => exact .init hinit
  | step _ hguard hstep ih => exact .step ih (hg _ hguard) hstep

theorem ReachableVia.reachable (h : system.ReachableVia guard s) : system.Reachable s :=
  h.mono fun _ _ => trivial

/-- **Induction over guarded runs.** -/
theorem ReachableVia.invariant (hinit : ∀ s, system.init s → I s)
    (hstep : ∀ s s', I s → guard s → system.step s s' → I s')
    (h : system.ReachableVia guard s) : I s := by
  induction h with
  | init h => exact hinit _ h
  | step _ hguard hs ih => exact hstep _ _ ih hguard hs

/-- Induction relative to a known invariant of all runs. -/
theorem ReachableVia.invariant_of (hJ : ∀ s, system.Reachable s → J s)
    (hinit : ∀ s, system.init s → I s)
    (hstep : ∀ s s', J s → I s → guard s → system.step s s' → I s')
    (h : system.ReachableVia guard s) : I s := by
  induction h with
  | init h => exact hinit _ h
  | step h' hguard hs ih => exact hstep _ _ (hJ _ h'.reachable) ih hguard hs

theorem Reachable.invariant (hinit : ∀ s, system.init s → I s)
    (hstep : ∀ s s', I s → system.step s s' → I s') (h : system.Reachable s) : I s :=
  ReachableVia.invariant hinit (fun s s' hI _ hs => hstep s s' hI hs) h

theorem Reachable.invariant_of (hJ : ∀ s, system.Reachable s → J s)
    (hinit : ∀ s, system.init s → I s)
    (hstep : ∀ s s', J s → I s → system.step s s' → I s') (h : system.Reachable s) : I s :=
  ReachableVia.invariant_of hJ hinit (fun s s' hj hI _ hs => hstep s s' hj hI hs) h

end TransitionSystem
end Logic
end TradingSystem
