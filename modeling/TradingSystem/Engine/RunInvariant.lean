import TradingSystem.Engine.Preservation

/-!
# The invariant of runs

`Inv` says, for every phase of a run, that the money state is coherent and what the queue,
the entry time and the settled boundaries are there. `inv_of_reachable` establishes it for
every state of every run.

Exactness (the open position and the active trade have the same quantity) is an invariant
of the runs whose closes through a float lose nothing, `ClosesLossless`; everything else
holds without a condition. Both come from the one step lemma `inv_step`.

Two facts carry the induction. A queue filled at the close of a bar is executed in the
next bar of the evaluation or not at all, since only a contiguous next candle fills it.
And the boundary at the open of that bar has been settled already, as the close of the bar
before, so nothing happens between the queue being filled and its first order.
-/

namespace TradingSystem

open Numeric Logic

namespace Engine

variable {input : RunInput} {exact : Prop} {held : Option Position}

/-- The orders a bar still has to execute: what the bar before queued, or the entry of a
reversal whose exit has been executed. -/
inductive IsCarried (input : RunInput) (prev : Candle) (held : Option Position) :
    List PendingOrder → Prop
  | queue {orders : List PendingOrder} :
      IsQueue input prev held orders → IsCarried input prev held orders
  | entry {pending : PendingOrder} {signal : TradingSignal} {side : PositionSide}
      {quantity : Binary64} :
      IsQueued input prev pending → IsEntryOf signal side quantity pending →
      (∀ position ∈ held, position.side ≠ side) → IsCarried input prev held [pending]

/-- Inside a bar, nothing is queued and the active trade was entered at its open at the
latest. -/
structure InBar (input : RunInput) (bar : Bar) (s : EngineState) : Prop where
  onEvaluation : OnEvaluation input bar
  pending_eq : s.pending = []
  enteredBy : EnteredBy s (bar.candle.openTime + Instant.millisecond)

/-- What holds at each phase. -/
def AtPhase (input : RunInput) (held : Option Position) : Phase → EngineState → Prop
  | .beforeOpen bar, s => OnEvaluation input bar ∧ EnteredBy s bar.candle.openTime ∧
      (s.pending = [] ∨ ∃ prev, prev.closeTime = bar.candle.openTime ∧
        IsQueue input prev held s.pending ∧ SettledAt input s bar.candle.openTime)
  | .carrying bar orders, s => InBar input bar s ∧ (orders = [] ∨ ∃ prev,
      prev.closeTime = bar.candle.openTime ∧ IsCarried input prev held orders ∧
        EnteredBy s bar.candle.openTime)
  | .settling bar boundaries, s => InBar input bar s ∧
      (isBoundary bar.candle.closeTime = true →
        bar.candle.closeTime ∈ boundaries ∨ SettledAt input s bar.candle.closeTime)
  | .protecting bar, s => InBar input bar s ∧ SettledAt input s bar.candle.closeTime
  | .beforeClose bar, s => InBar input bar s ∧ SettledAt input s bar.candle.closeTime
  | .afterClose bar, s => OnEvaluation input bar ∧
      EnteredBy s (bar.candle.openTime + Instant.millisecond) ∧
      SettledAt input s bar.candle.closeTime ∧ IsQueue input bar.candle held s.pending
  | .finished, s => ∀ pending ∈ s.pending, ∃ prev, IsQueued input prev pending

/-- **The invariant.** -/
def Inv (input : RunInput) (exact : Prop) (state : RunState) : Prop :=
  ∃ held, Coherent input exact held state.2 ∧ AtPhase input held state.1 state.2

/-- The phases whose next step closes the position by an order whose quantity passes
through a float. -/
def ExitsThroughFloat : Phase → Prop
  | .carrying _ (pending :: _) => pending.request.reduceOnly = true
  | .afterClose ⟨_, _, []⟩ => True
  | .afterClose ⟨_, candle, next :: _⟩ => next.openTime ≠ candle.closeTime
  | _ => False

/-- Where the position is closed through a float, its quantity survives. -/
def ClosesLossless (input : RunInput) (state : RunState) : Prop :=
  ExitsThroughFloat state.1 → ∀ position,
    positionOf input state.2.book = .ok (some position) → Lossless position.quantity

variable {bar : Bar} {s s' : EngineState}

/-- Whatever a bar queues waits for its contiguous next candle. -/
theorem IsQueue.queued {candle : Candle} {orders : List PendingOrder}
    (h : IsQueue input candle held orders) : ∀ pending ∈ orders, IsQueued input candle pending := by
  intro pending hpending
  cases h with
  | nothing => cases hpending
  | exit hqueued _ =>
    rw [List.mem_singleton] at hpending
    exact hpending ▸ hqueued
  | entry hqueued _ =>
    rw [List.mem_singleton] at hpending
    exact hpending ▸ hqueued
  | reverse hexit _ hentry _ _ =>
    rcases List.mem_cons.1 hpending with rfl | hpending
    · exact hexit
    · rw [List.mem_singleton] at hpending
      exact hpending ▸ hentry

theorem InBar.keeps {held' : Option Position} (h : InBar input bar s)
    (hkeeps : Keeps input exact s held' s') : InBar input bar s' :=
  ⟨h.onEvaluation, hkeeps.pending_eq.trans h.pending_eq, h.enteredBy.continues hkeeps.continues⟩

/-- A bar lasts longer than a millisecond. -/
theorem openTime_add_millisecond_le (candle : Candle) :
    candle.openTime + Instant.millisecond ≤ candle.closeTime := by
  have h := candle.timeframe.minute_le_duration
  rw [candle.closeTime_eq]
  simp only [Instant.minute, Instant.second, Instant.millisecond] at *
  omega

/-! ### The start -/

/-- Preparing a run records the definitions of its series and warms them up. -/
theorem prepare_eq_ok (h : prepare input s = .ok ⟨⟩ s') :
    ∃ board rows, (∀ row ∈ rows, ∃ definition, row = .indicatorDefinition definition) ∧
      Logs rows s { s' with board := s.board } ∧ s'.board = board := by
  unfold prepare recordDefinitions at h
  simp only [bind_eq_ok, zoom_eq_ok] at h
  obtain ⟨_, s₁, hdefinitions, board, -, rfl⟩ := h
  obtain ⟨rows, hrows, hlogs⟩ := forEach_logs
    (R := fun spec row => row = .indicatorDefinition
      { indicatorKey := spec.key, minHistory := spec.minHistory })
    (fun spec _ s s' hrun => ⟨_, rfl, record_eq_ok hrun⟩) hdefinitions
  refine ⟨board, rows, ?_, ?_, rfl⟩
  · exact forall_of_forall₂ hrows fun _ _ hrow => ⟨_, hrow⟩
  · obtain ⟨sequence, rfl⟩ := hlogs
    exact ⟨sequence, rfl⟩

theorem inv_of_isStart {state : RunState} (h : IsStart input state) : Inv input exact state := by
  obtain ⟨cash, first, rest, hcash, hevaluation, hphase, hprepare⟩ := h
  have hcash' : cash = quantizeAmount input.config.initialCapital ∧ 0 ≤ cash := by
    unfold checkedCash at hcash
    simp only [Except.bind_eq_ok, require_eq_ok] at hcash
    obtain ⟨-, hnonneg, hcash⟩ := hcash
    cases hcash
    exact ⟨rfl, hnonneg⟩
  -- nothing is held, so most clauses speak of nobody
  have hinitial : Coherent input exact none (initialState input cash) := {
    files := files_empty
    isOpen := by simp
    cash_money := hcash'.1 ▸ isMoney_quantizeAmount _
    cash_nonneg := hcash'.2
    activeTrade_isSome := rfl
    isActive := by simp [initialState]
    side_eq := by simp
    quantity_eq := by simp
    flat := fun _ => rfl
    genuine := by simp [initialState] }
  -- preparing the run records the definitions of the series only
  obtain ⟨board, rows, hrows, hlogs, -⟩ := prepare_eq_ok hprepare
  have hcoherent := hinitial.logs hlogs fun row hrow => by
    obtain ⟨definition, rfl⟩ := hrows row hrow
    trivial
  have hstate : Coherent input exact none state.2 :=
    hcoherent.of_same rfl rfl rfl SameEntry.refl Option.map_id'.symm fun row hrow => Or.inl hrow
  refine ⟨none, hstate, ?_⟩
  rw [hphase]
  refine ⟨?_, ?_, Or.inl hlogs.pending_eq⟩
  · change first :: rest <:+ input.evaluation
    rw [hevaluation]
  · intro active hactive
    have hnone : state.2.activeTrade = none := hlogs.activeTrade_eq
    rw [hnone] at hactive
    cases hactive

/-! ### The steps -/

/-- Before the first carried order nothing happens but the queue being taken. -/
theorem inv_beforeOpen {phase : Phase} (h : Inv input exact (.beforeOpen bar, s))
    (hrun : stepPhase input (.beforeOpen bar) s = .ok phase s') : Inv input exact (phase, s') := by
  obtain ⟨held, hcoherent, hbar, hentered, hqueue⟩ := h
  simp only [stepPhase, bind_eq_ok, pure_apply, EStateM.Result.ok.injEq] at hrun
  obtain ⟨_, s₁, hsettle, carried, s₂, htake, rfl, rfl⟩ := hrun
  obtain ⟨rfl, rfl⟩ := takePending_eq_ok htake
  have hopen : bar.candle.openTime ≤ bar.candle.openTime + Instant.millisecond := by
    simp [Instant.millisecond]
  have htaken : ∀ {held : Option Position}, Coherent input exact held s₁ →
      Coherent input exact held { s₁ with pending := [] } := fun h =>
    h.of_same rfl rfl rfl SameEntry.refl Option.map_id'.symm fun row hrow => Or.inl hrow
  rcases hqueue with hempty | ⟨prev, hprev, hqueue, hsettled⟩
  · obtain ⟨held', hkeeps, -⟩ := settleAtBoundary_keeps hcoherent hsettle
    have hentered₁ := hentered.continues hkeeps.continues
    exact ⟨held', htaken hkeeps.coherent, ⟨hbar, rfl, hentered₁.mono hopen⟩,
      Or.inl (hkeeps.pending_eq.trans hempty)⟩
  · obtain rfl := settleAtBoundary_settled hsettled hsettle
    exact ⟨held, htaken hcoherent, ⟨hbar, rfl, hentered.mono hopen⟩,
      Or.inr ⟨prev, hprev, .queue hqueue, hentered⟩⟩

/-- Executing one carried order. -/
theorem inv_carrying {pending : PendingOrder} {orders : List PendingOrder}
    (h : Inv input exact (.carrying bar (pending :: orders), s))
    (hguard : exact → ClosesLossless input (.carrying bar (pending :: orders), s))
    (hrun : executePending input bar.candle pending s = .ok ⟨⟩ s') :
    Inv input exact (.carrying bar orders, s') := by
  obtain ⟨held, hcoherent, hbar, hempty | ⟨prev, hprev, hcarried, hentered⟩⟩ := h
  · cases hempty
  rw [← hprev] at hentered
  have hexit : ∀ {position : Position}, held = some position → IsQueued input prev pending →
      IsExitOf position pending →
      Keeps input exact s (remainderOf position (exitQuantity position.quantity)) s' := by
    intro position hheld hqueued hexit
    subst hheld
    refine exit_keeps hcoherent hqueued hexit (fun hx => ?_) hentered hrun
    refine hguard hx ?_ position hcoherent.files.positionOf_eq
    change pending.request.reduceOnly = true
    rw [exitRequest_eq_ok hexit.request_eq]
  have hentry : ∀ {signal : TradingSignal} {side : PositionSide} {quantity : Binary64},
      IsQueued input prev pending → IsEntryOf signal side quantity pending →
      (∀ position ∈ held, position.side ≠ side) → orders = [] →
      Inv input exact (.carrying bar orders, s') := by
    intro signal side quantity hqueued hentry hopposite horders
    obtain ⟨held', hcoherent', hpending, hentered'⟩ :=
      entry_keeps hcoherent hqueued hentry hopposite hentered hrun
    rw [hprev] at hentered'
    exact ⟨held', hcoherent', ⟨hbar.onEvaluation, hpending.trans hbar.pending_eq, hentered'⟩,
      Or.inl horders⟩
  rcases hcarried with hqueue | ⟨hqueued, hisEntry, hopposite⟩
  · cases hqueue with
    | exit hqueued hisExit =>
      have hkeeps := hexit rfl hqueued hisExit
      exact ⟨_, hkeeps.coherent, hbar.keeps hkeeps, Or.inl rfl⟩
    | entry hqueued hisEntry => exact hentry hqueued hisEntry (by simp) rfl
    | reverse hqueued hisExit hentryQueued hisEntry hopposite =>
      -- the exit leg of a reversal; what it leaves has the side that was closed
      have hkeeps := hexit rfl hqueued hisExit
      refine ⟨_, hkeeps.coherent, hbar.keeps hkeeps, Or.inr ⟨prev, hprev,
        .entry hentryQueued hisEntry ?_, ?_⟩⟩
      · intro remainder hremainder
        unfold remainderOf at hremainder
        split at hremainder
        · cases hremainder
        · cases hremainder
          rw [Position.reducedBy_side]
          exact hopposite
      · rw [← hprev]
        exact hentered.continues hkeeps.continues
  · exact hentry hqueued hisEntry hopposite rfl

/-- Settling one boundary of the bar. -/
theorem inv_settling {boundary : ℤ} {boundaries : List ℤ}
    (h : Inv input exact (.settling bar (boundary :: boundaries), s))
    (hrun : settleAtBoundary input boundary s = .ok ⟨⟩ s') :
    Inv input exact (.settling bar boundaries, s') := by
  obtain ⟨held, hcoherent, hbar, hclose⟩ := h
  obtain ⟨held', hkeeps, hsettled⟩ := settleAtBoundary_keeps hcoherent hrun
  refine ⟨held', hkeeps.coherent, hbar.keeps hkeeps, fun hboundary => ?_⟩
  rcases hclose hboundary with hmem | hdone
  · rcases List.mem_cons.1 hmem with heq | hmem
    · exact Or.inr (heq ▸ hsettled)
    · exact Or.inl hmem
  · exact Or.inr (hdone.continues hkeeps.continues)

/-- Leaving the loop over the boundaries: the close of the bar is settled. -/
theorem inv_settled (h : Inv input exact (.settling bar [], s)) :
    Inv input exact (.protecting bar, s) := by
  obtain ⟨held, hcoherent, hbar, hclose⟩ := h
  refine ⟨held, hcoherent, hbar, ?_⟩
  intro hfutures hboundary
  rcases hclose hboundary with hmem | hdone
  · cases hmem
  · exact hdone hfutures hboundary

theorem inv_protecting (h : Inv input exact (.protecting bar, s))
    (hrun : protect input bar.candle s = .ok ⟨⟩ s') :
    Inv input exact (.beforeClose bar, s') := by
  obtain ⟨held, hcoherent, hbar, hsettled⟩ := h
  obtain ⟨held', hkeeps⟩ := protect_keeps hbar.onEvaluation.mem_history hcoherent hrun
  exact ⟨held', hkeeps.coherent, hbar.keeps hkeeps, hsettled.continues hkeeps.continues⟩

theorem inv_beforeClose {answer : StrategyAnswer} (h : Inv input exact (.beforeClose bar, s))
    (hrun : stepClose input bar.candle answer s = .ok ⟨⟩ s') :
    Inv input exact (.afterClose bar, s') := by
  obtain ⟨held, hcoherent, hbar, hsettled⟩ := h
  obtain ⟨held', hcoherent', hcontinues, hqueue⟩ := stepClose_keeps hcoherent hbar.pending_eq hrun
  exact ⟨held', hcoherent', hbar.onEvaluation, hbar.enteredBy.continues hcontinues,
    hsettled.continues hcontinues, hqueue⟩

/-- Crossing to the next bar of the evaluation, over a gap or not. -/
theorem inv_betweenBars {index : ℕ} {candle next : Candle} {rest : List Candle}
    (h : Inv input exact (.afterClose ⟨index, candle, next :: rest⟩, s))
    (hguard : exact → ClosesLossless input (.afterClose ⟨index, candle, next :: rest⟩, s))
    (hrun : betweenBars input candle next s = .ok ⟨⟩ s') :
    Inv input exact (.beforeOpen ⟨index + 1, next, rest⟩, s') := by
  obtain ⟨held, hcoherent, hbar, hentered, hsettled, hqueue⟩ := h
  have hcandle : candle ∈ input.history := hbar.mem_history
  have hnext : next ∈ input.history := hbar.tail.mem_history
  have hlater : candle.openTime + Instant.millisecond ≤ next.openTime :=
    (input.history_milliseconds candle hcandle).add_le (input.history_milliseconds next hnext)
      hbar.openTime_lt
  have hentered' : EnteredBy s next.openTime := hentered.mono hlater
  unfold betweenBars at hrun
  -- over a gap everything is closed; without one the queue is carried on
  by_cases hgap : next.openTime ≠ candle.closeTime
  · rw [if_pos hgap] at hrun
    obtain ⟨before, hpending, hbefore, hcases⟩ := closeAtDataGap_eq_ok hrun
    rw [hcoherent.files.positionOf_eq] at hbefore
    cases hbefore
    rcases hcases with ⟨-, rfl⟩ | ⟨position, row, s₁, s₂, count, rfl, hlogs, hclose, rfl⟩
    · exact ⟨held, hcoherent, hbar.tail, hentered', Or.inl hpending⟩
    · have h₁ := hcoherent.keeps_logs hlogs (by simp [Genuine])
      have hclosed := closeAtTerminal_keeps hcandle h₁.coherent
        (fun hx => hguard hx hgap position hcoherent.files.positionOf_eq)
        ((hentered.continues h₁.continues).mono (openTime_add_millisecond_le candle)) (Or.inl rfl)
        hclose
      have hall := h₁.trans hclosed
      refine ⟨_, hall.coherent.of_same rfl rfl rfl SameEntry.refl Option.map_id'.symm
        fun row hrow => Or.inl hrow, hbar.tail, ?_, Or.inl (hall.pending_eq.trans hpending)⟩
      exact hentered'.continues hall.continues
  · rw [if_neg hgap] at hrun
    cases hrun
    rw [not_ne_iff] at hgap
    refine ⟨held, hcoherent, hbar.tail, hentered', Or.inr ⟨candle, hgap.symm, hqueue, ?_⟩⟩
    change SettledAt input s next.openTime
    rw [hgap]
    exact hsettled

/-- The end of the run. -/
theorem inv_finalize {index : ℕ} {candle : Candle}
    (h : Inv input exact (.afterClose ⟨index, candle, []⟩, s))
    (hguard : exact → ClosesLossless input (.afterClose ⟨index, candle, []⟩, s))
    (hrun : finalize input candle s = .ok ⟨⟩ s') : Inv input exact (.finished, s') := by
  obtain ⟨held, hcoherent, hbar, hentered, -, hqueue⟩ := h
  have hcandle : candle ∈ input.history := hbar.mem_history
  obtain ⟨before, s₁, hbefore, hterminal, hcases⟩ := finalize_eq_ok hrun
  rw [hcoherent.files.positionOf_eq] at hbefore
  cases hbefore
  obtain ⟨held₁, h₁⟩ : ∃ held₁, Keeps input exact s held₁ s₁ := by
    rcases hcases with ⟨-, rfl⟩ | ⟨position, rfl, hclose⟩
    · exact ⟨held, hcoherent.keeps⟩
    · have hclosed := closeAtTerminal_keeps hcandle hcoherent
        (fun hx => hguard hx trivial position hcoherent.files.positionOf_eq)
        (hentered.mono (openTime_add_millisecond_le candle)) (Or.inr rfl) hclose
      exact ⟨_, hclosed⟩
  obtain ⟨_, row, -, -, hlogs⟩ := recordTerminalEquity_eq_ok hterminal
  -- the last point of the curve changes nothing the invariant speaks of
  have hcurve : ∀ curve, Coherent input exact held₁ { s₁ with equityCurve := curve } := fun _ =>
    h₁.coherent.of_same rfl rfl rfl SameEntry.refl Option.map_id'.symm fun row hrow => Or.inl hrow
  refine ⟨held₁, (hcurve _).logs hlogs (by simp [Genuine]), fun pending hpending => ?_⟩
  change pending ∈ s'.pending at hpending
  rw [hlogs.pending_eq] at hpending
  change pending ∈ s₁.pending at hpending
  rw [h₁.pending_eq] at hpending
  exact ⟨candle, hqueue.queued pending hpending⟩

/-- **One step** keeps the invariant; exactness needs the guard. -/
theorem inv_step {state state' : RunState} (h : Inv input exact state)
    (hguard : exact → ClosesLossless input state) (hstep : (system input).step state state') :
    Inv input exact state' := by
  obtain ⟨phase, s⟩ := state
  obtain ⟨phase', s'⟩ := state'
  change stepPhase input phase s = .ok phase' s' at hstep
  -- one lemma for each phase
  cases phase with
  | beforeOpen bar => exact inv_beforeOpen h hstep
  | carrying bar orders =>
    cases orders with
    | nil =>
      simp only [stepPhase, bind_eq_ok, runPure_eq_ok, pure_apply, EStateM.Result.ok.injEq] at hstep
      obtain ⟨boundaries, _, ⟨hboundaries, rfl⟩, rfl, rfl⟩ := hstep
      obtain ⟨held, hcoherent, hbar, -⟩ := h
      refine ⟨held, hcoherent, hbar, fun hclose => Or.inl ?_⟩
      exact (FundingWalk.mem_boundariesBetween hboundaries).2
        ⟨bar.candle.openTime_lt_closeTime, le_rfl, hclose⟩
    | cons pending orders =>
      simp only [stepPhase, bind_eq_ok, pure_apply, EStateM.Result.ok.injEq] at hstep
      obtain ⟨_, _, hrun, rfl, rfl⟩ := hstep
      exact inv_carrying h hguard hrun
  | settling bar boundaries =>
    cases boundaries with
    | nil =>
      cases hstep
      exact inv_settled h
    | cons boundary boundaries =>
      simp only [stepPhase, bind_eq_ok, pure_apply, EStateM.Result.ok.injEq] at hstep
      obtain ⟨_, _, hrun, rfl, rfl⟩ := hstep
      exact inv_settling h hrun
  | protecting bar =>
    simp only [stepPhase, bind_eq_ok, pure_apply, EStateM.Result.ok.injEq] at hstep
    obtain ⟨_, _, hrun, rfl, rfl⟩ := hstep
    exact inv_protecting h hrun
  | beforeClose bar =>
    simp only [stepPhase, bind_eq_ok, pure_apply, EStateM.Result.ok.injEq] at hstep
    obtain ⟨_, _, hrun, rfl, rfl⟩ := hstep
    exact inv_beforeClose h hrun
  | afterClose bar =>
    obtain ⟨index, candle, rest⟩ := bar
    cases rest with
    | nil =>
      simp only [stepPhase, bind_eq_ok, pure_apply, EStateM.Result.ok.injEq] at hstep
      obtain ⟨_, _, hrun, rfl, rfl⟩ := hstep
      exact inv_finalize h hguard hrun
    | cons next rest =>
      simp only [stepPhase, bind_eq_ok, pure_apply, EStateM.Result.ok.injEq] at hstep
      obtain ⟨_, _, hrun, rfl, rfl⟩ := hstep
      exact inv_betweenBars h hguard hrun
  | finished => cases hstep

open TransitionSystem

/-- **Every state of every run** satisfies the invariant. -/
theorem inv_of_reachable {state : RunState} (h : (system input).Reachable state) :
    Inv input False state :=
  h.invariant (fun _ => inv_of_isStart) fun _ _ hinv hstep => inv_step hinv (by simp) hstep

/-- Where no close through a float loses anything, quantities agree too. -/
theorem inv_of_reachableVia {state : RunState}
    (h : (system input).ReachableVia (ClosesLossless input) state) : Inv input True state :=
  h.invariant (fun _ => inv_of_isStart) fun _ _ hinv hguard hstep =>
    inv_step hinv (fun _ => hguard) hstep

end Engine
end TradingSystem
