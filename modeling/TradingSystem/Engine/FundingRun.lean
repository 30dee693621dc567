import TradingSystem.Costs.FundingWalk
import TradingSystem.Engine.FundingSteps
import TradingSystem.Engine.RunInvariant

/-!
# The funding of a run

`AtFunding` says, for every phase of a run, up to which instant its funding has been settled.
The open of a bar settles its first instant, the loop over the boundaries of the bar the others
in their order, and an exit happens at the close of the bar or one millisecond after an end of
a bar.

The last is where a run can lose a boundary: an exit at that millisecond misses the boundary
that lies there, and a position that its close at a data gap has not emptied crosses the
boundaries of the gap unpaid. `MissesNoBoundary` excludes both, and `funded_of_reachableVia`
is the invariant of the runs that keep to it.
-/

namespace TradingSystem

open Numeric Logic

namespace Engine

variable {input : RunInput} {s s' : EngineState} {bar : Bar} {exact : Prop}
  {held : Option Position}

/-- The end of the held position misses no boundary: none lies at the millisecond of a
complete close, and none inside a gap that a remainder crosses. -/
def MissesNoBoundary (input : RunInput) (state : RunState) : Prop :=
  input.config.marketType = .futures →
    ∀ position, positionOf input state.2.book = .ok (some position) →
      match state.1 with
      | .carrying bar (pending :: _) => pending.request.reduceOnly = true →
        Lossless position.quantity →
          isBoundary (bar.candle.openTime + Instant.millisecond) = false
      | .afterClose ⟨_, candle, []⟩ => Lossless position.quantity →
        isBoundary (candle.closeTime + Instant.millisecond) = false
      | .afterClose ⟨_, candle, next :: _⟩ => next.openTime ≠ candle.closeTime →
        (Lossless position.quantity →
          isBoundary (candle.closeTime + Instant.millisecond) = false) ∧
        (¬Lossless position.quantity → candle.closeTime < next.openTime ∧
          ∀ b, isBoundary b = true → candle.closeTime < b → ¬b < next.openTime)
      | _ => True

/-- The funding of a run by an instant, in the numbers of its own counter. -/
def FundedBy (input : RunInput) (t : ℤ) (s : EngineState) : Prop :=
  Funded input t none (s.sequence .trade) s

/-- Up to when the funding is settled at each phase. -/
def AtFunding (input : RunInput) : Phase → EngineState → Prop
  | .beforeOpen bar, s => ∃ t ≤ bar.candle.openTime, FundedBy input t s ∧
      (input.config.marketType = .futures → ∀ b, isBoundary b = true → t < b →
        ¬b < bar.candle.openTime)
  | .carrying bar _, s => FundedBy input bar.candle.openTime s
  | .settling bar boundaries, s => ∃ t ≤ bar.candle.closeTime, FundedBy input t s ∧
      boundaries.Pairwise (· < ·) ∧
      ∀ b, b ∈ boundaries ↔ isBoundary b = true ∧ t < b ∧ b ≤ bar.candle.closeTime
  | .protecting bar, s | .beforeClose bar, s | .afterClose bar, s =>
    FundedBy input bar.candle.closeTime s
  | .finished, s => ∃ t, FundedBy input t s

/-- Funding that an operation keeps in the numbers of before is kept in its own. -/
theorem FundedBy.counts {t : ℤ} (h : Funded input t none (s.sequence .trade) s')
    (hcounts : Counts s s') : FundedBy input t s' := h.mono hcounts

/-- Between a whole millisecond and the next lies a boundary at its end only. -/
theorem boundary_span {t : ℤ} (ht : WholeMillisecond t)
    (h : isBoundary (t + Instant.millisecond) = false) :
    ∀ b, isBoundary b = true → (b ≤ t ↔ b ≤ t + Instant.millisecond) := by
  intro b hb
  have hmillisecond : (0 : ℤ) < Instant.millisecond := by decide
  refine ⟨fun hle => by omega, fun hle => ?_⟩
  by_contra hlater
  have hnext := ht.add_le (wholeMillisecond_of_isBoundary hb) (by omega)
  have heq : b = t + Instant.millisecond := by omega
  rw [heq, h] at hb
  cases hb

/-! ### Exits one millisecond after a bar -/

/-- A complete exit leaves nothing open; so it was lossless. -/
theorem lossless_of_flat {position : Position} (hopen : IsOpen input position)
    (hkeeps : Keeps input exact s (remainderOf position (exitQuantity position.quantity)) s')
    (hflat : s'.activeTrade = none) : Lossless position.quantity := by
  rw [← exitQuantity_eq_iff hopen.quantity_money hopen.quantity_pos]
  by_contra hne
  have hisSome := hkeeps.coherent.activeTrade_isSome
  rw [hflat, remainderOf, if_neg (Ne.symm hne)] at hisSome
  cases hisSome

/-- **An exit fill one millisecond after `t`** completes the trade with the funding of `t`, if
no boundary lies there. -/
theorem exitFill_funded {t : ℤ} {n : ℕ} {position : Position} {fill : Fill}
    {reason : Option ExitReason} {decisionId candidateId : Option ℕ}
    {signal : Option TradingSignal} {s₁ : EngineState} (h : Funded input t none n s)
    (hlogs : Logs [] s s₁) (hexit : Matcher.IsExitFill position fill)
    (htime : fill.timestamp = t + Instant.millisecond) (ht : WholeMillisecond t)
    (hmiss : s'.activeTrade = none → input.config.marketType = .futures →
      isBoundary (t + Instant.millisecond) = false)
    (hrun : applyFill input (withExitReason fill reason) decisionId signal candidateId s₁ =
      .ok ⟨⟩ s') : Funded input t none n s' := by
  have hreduce : (withExitReason fill reason).reduceOnly = true := hexit.reduceOnly_eq
  refine applyFill_exit_funded (h.quiet (.of_logs hlogs (by simp))) hreduce ?_ (by simp) hrun
  intro hflat hfutures b hb
  change b ≤ t ↔ b ≤ fill.timestamp
  rw [htime]
  exact boundary_span ht (hmiss hflat hfutures) b hb

/-- A close at the last price. -/
theorem closeAtTerminal_funded {n : ℕ} {last : Candle} {position : Position}
    {reason : ExitReason} {decisionId : Option ℕ} (hlast : last ∈ input.history)
    (hopen : IsOpen input position)
    (hkeeps : Keeps input exact s (remainderOf position (exitQuantity position.quantity)) s')
    (h : Funded input last.closeTime none n s)
    (hmiss : input.config.marketType = .futures → Lossless position.quantity →
      isBoundary (last.closeTime + Instant.millisecond) = false)
    (hrun : closeAtTerminal input last position reason decisionId s = .ok ⟨⟩ s') :
    Funded input last.closeTime none n s' := by
  obtain ⟨fill, s₁, hlogs, hexit, -, htime, happly⟩ := closeAtTerminal_fill hopen hrun
  exact exitFill_funded h hlogs hexit htime (wholeMillisecond_closeTime hlast)
    (fun hflat hfutures => hmiss hfutures (lossless_of_flat hopen hkeeps hflat)) happly

/-! ### The steps -/

/-- Executing one carried order: a trade ends with the funding of the open, or starts after
it. -/
theorem atFunding_carrying {pending : PendingOrder} {orders : List PendingOrder}
    (hinv : Inv input False (.carrying bar (pending :: orders), s))
    (h : FundedBy input bar.candle.openTime s)
    (hguard : MissesNoBoundary input (.carrying bar (pending :: orders), s))
    (hrun : executePending input bar.candle pending s = .ok ⟨⟩ s') :
    FundedBy input bar.candle.openTime s' := by
  have hcounts : Counts s s' := moves_executePending.of_ok hrun
  obtain ⟨held, hcoherent, hbar, hempty | ⟨prev, hprev, hcarried, hentered⟩⟩ := hinv
  · cases hempty
  have hopenTime := input.history_milliseconds bar.candle hbar.onEvaluation.mem_history
  -- the exit leg and the entry leg, wherever they stand in the queue
  have hexit : ∀ {position : Position}, held = some position → IsQueued input prev pending →
      IsExitOf position pending → FundedBy input bar.candle.openTime s' := by
    intro position hheld hqueued hexit
    subst hheld
    have hopen := hcoherent.isOpen position rfl
    have hkeeps := exit_keeps hcoherent hqueued hexit False.elim (hprev ▸ hentered) hrun
    obtain ⟨fill, s₁, hlogs, hisExit, -, htime, happly⟩ := exit_fill hopen hqueued hexit hrun
    rw [hprev] at htime
    refine .counts (exitFill_funded h hlogs hisExit htime hopenTime (fun hflat hfutures => ?_)
      happly) hcounts
    refine hguard hfutures position hcoherent.files.positionOf_eq ?_
      (lossless_of_flat hopen hkeeps hflat)
    rw [exitRequest_eq_ok hexit.request_eq]
  have hentry : ∀ {signal : TradingSignal} {side : PositionSide} {quantity : Binary64},
      IsQueued input prev pending → IsEntryOf signal side quantity pending →
      FundedBy input bar.candle.openTime s' := by
    intro signal side quantity hqueued hentry
    obtain ⟨fill, s₁, hlogs, -, hisEntry, htime, happly⟩ := entry_fill hqueued hentry hrun
    rw [hprev] at htime
    have hmillisecond : (0 : ℤ) < Instant.millisecond := by decide
    have hreduce : (withExitReason fill pending.exitReason).reduceOnly = false := hisEntry
    refine applyFill_entry_funded (h.quiet (.of_logs hlogs (by simp))) hreduce ?_ hcounts ?_ happly
    · change _ ≤ fill.timestamp
      omega
    · rw [hlogs.activeTrade_eq]
      exact (executePending_numbers hrun).active
  rcases hcarried with hqueue | ⟨hqueued, hisEntry, -⟩
  · cases hqueue with
    | exit hqueued hisExit => exact hexit rfl hqueued hisExit
    | entry hqueued hisEntry => exact hentry hqueued hisEntry
    | reverse hqueued hisExit _ _ _ => exact hexit rfl hqueued hisExit
  · exact hentry hqueued hisEntry

/-- The first boundary that is left is the first one after what is settled. -/
theorem atFunding_settling {boundary : ℤ} {boundaries : List ℤ}
    (hinv : Inv input False (.settling bar (boundary :: boundaries), s))
    (h : AtFunding input (.settling bar (boundary :: boundaries)) s)
    (hrun : settleAtBoundary input boundary s = .ok ⟨⟩ s') :
    AtFunding input (.settling bar boundaries) s' := by
  obtain ⟨held, hcoherent, -⟩ := hinv
  obtain ⟨t, -, hfunded, hordered, hlist⟩ := h
  rw [List.pairwise_cons] at hordered
  obtain ⟨hfirst, hrest⟩ := hordered
  obtain ⟨-, hlater, hle⟩ := (hlist boundary).1 (List.mem_cons_self ..)
  -- a boundary before it would stand before it in the list
  have hsettled := settleAtBoundary_funded hcoherent hfunded hlater.le
    (fun _ b hb htb hlt => ?_) hrun
  · refine ⟨boundary, hle, .counts hsettled (moves_settleAtBoundary.of_ok hrun), hrest, fun b => ?_⟩
    constructor
    · intro hmem
      obtain ⟨hb, -, hclose⟩ := (hlist b).1 (List.mem_cons_of_mem _ hmem)
      exact ⟨hb, hfirst b hmem, hclose⟩
    · rintro ⟨hb, hafter, hclose⟩
      rcases List.mem_cons.1 ((hlist b).2 ⟨hb, by omega, hclose⟩) with rfl | hmem
      · omega
      · exact hmem
  · rcases List.mem_cons.1 ((hlist b).2 ⟨hb, htb, by omega⟩) with rfl | hmem
    · omega
    · have := hfirst b hmem
      omega

/-- Protection ends a trade at the close of the bar, with the funding of the close. -/
theorem atFunding_protecting (hinv : Inv input False (.protecting bar, s))
    (h : FundedBy input bar.candle.closeTime s) (hrun : protect input bar.candle s = .ok ⟨⟩ s') :
    FundedBy input bar.candle.closeTime s' := by
  refine .counts ?_ (moves_protect.of_ok hrun)
  obtain ⟨held, hcoherent, -⟩ := hinv
  obtain ⟨before, hbefore, hcases⟩ := protect_eq_ok hrun
  rw [hcoherent.files.positionOf_eq] at hbefore
  cases hbefore
  rcases hcases with ⟨rfl, -⟩ | ⟨position, fill, row, s₁, rfl, htrigger, hlogs, happly⟩
  · exact h
  have htracked : Quiet s (withTracking input bar.candle position s) := by
    refine .of_active rfl fun active' hactive' => ?_
    change active' ∈ s.activeTrade.map _ at hactive'
    rw [Option.mem_map] at hactive'
    obtain ⟨active, hactive, rfl⟩ := hactive'
    refine ⟨active, hactive, ?_⟩
    unfold tracked
    split <;> exact ⟨rfl, rfl, rfl, rfl, rfl⟩
  -- a trigger is filled at the close, which has been settled
  obtain ⟨-, -, htriggered⟩ := Matcher.resolveTriggers_eq_ok htrigger
  obtain ⟨hexit, -, htime, -⟩ :=
    htriggered.exit (hcoherent.isOpen position rfl).quantity_money
  have hquiet := (Funded.quiet h htracked).quiet (.of_logs hlogs (by simp [Unfunded]))
  refine applyFill_exit_funded hquiet hexit.reduceOnly_eq (fun _ _ b _ => ?_) (by simp) happly
  rw [htime]

/-- Crossing to the next bar: what its open has to settle is the open itself. -/
theorem atFunding_betweenBars {index : ℕ} {candle next : Candle} {rest : List Candle}
    (hinv : Inv input False (.afterClose ⟨index, candle, next :: rest⟩, s))
    (h : FundedBy input candle.closeTime s)
    (hguard : MissesNoBoundary input (.afterClose ⟨index, candle, next :: rest⟩, s))
    (hrun : betweenBars input candle next s = .ok ⟨⟩ s') :
    AtFunding input (.beforeOpen ⟨index + 1, next, rest⟩) s' := by
  have hcounts : Counts s s' := moves_betweenBars.of_ok hrun
  obtain ⟨held, hcoherent, hbar, hentered, -⟩ := hinv
  have hcandle : candle ∈ input.history := hbar.mem_history
  -- a flat run owes nothing at the open of the next bar
  have hflat : ∀ {t : ℤ}, Funded input t none (s.sequence .trade) s' → s'.activeTrade = none →
      AtFunding input (.beforeOpen ⟨index + 1, next, rest⟩) s' := fun hfunded hnone =>
    ⟨next.openTime, le_rfl, .counts (hfunded.of_flat hnone) hcounts,
      fun _ _ _ hlt => not_lt_of_gt hlt⟩
  unfold betweenBars at hrun
  by_cases hgap : next.openTime ≠ candle.closeTime
  · rw [if_pos hgap] at hrun
    obtain ⟨before, -, hbefore, hcases⟩ := closeAtDataGap_eq_ok hrun
    rw [hcoherent.files.positionOf_eq] at hbefore
    cases hbefore
    rcases hcases with ⟨rfl, rfl⟩ | ⟨position, row, s₁, s₂, count, rfl, hlogs, hclose, rfl⟩
    · exact hflat h hcoherent.activeTrade_eq_none
    have hopen := hcoherent.isOpen position rfl
    have h₁ := hcoherent.keeps_logs hlogs (by simp [Genuine])
    have hclosed := closeAtTerminal_keeps hcandle h₁.coherent False.elim
      ((hentered.continues h₁.continues).mono (openTime_add_millisecond_le candle)) (Or.inl rfl)
      hclose
    have hmiss := fun hfutures => hguard hfutures position hcoherent.files.positionOf_eq hgap
    have hfunded := closeAtTerminal_funded hcandle hopen hclosed
      (Funded.quiet h (.of_logs hlogs (by simp [Unfunded]))) (fun hfutures => (hmiss hfutures).1)
      hclose
    have hstate : Quiet s₂ { s₂ with dataGapExitCount := count } := .of_eq rfl rfl
    by_cases hlossless : Lossless position.quantity
    · refine hflat (hfunded.quiet hstate) ?_
      have hquantity := (exitQuantity_eq_iff hopen.quantity_money hopen.quantity_pos).2 hlossless
      rw [remainderOf, if_pos hquantity.symm] at hclosed
      exact hclosed.coherent.activeTrade_eq_none
    -- a remainder crosses the gap with the funding of the close
    by_cases hfutures : input.config.marketType = .futures
    · obtain ⟨hlater, hnone⟩ := (hmiss hfutures).2 hlossless
      exact ⟨candle.closeTime, hlater.le, .counts (hfunded.quiet hstate) hcounts, fun _ => hnone⟩
    · exact ⟨next.openTime, le_rfl, .counts ((hfunded.quiet hstate).of_spot hfutures) hcounts,
        fun hmarket => absurd hmarket hfutures⟩
  · rw [if_neg hgap] at hrun
    cases hrun
    rw [not_ne_iff] at hgap
    refine ⟨next.openTime, le_rfl, ?_, fun _ _ _ hlt => not_lt_of_gt hlt⟩
    rw [hgap]
    exact h

/-- The end of the run. -/
theorem atFunding_finalize {index : ℕ} {candle : Candle}
    (hinv : Inv input False (.afterClose ⟨index, candle, []⟩, s))
    (h : FundedBy input candle.closeTime s)
    (hguard : MissesNoBoundary input (.afterClose ⟨index, candle, []⟩, s))
    (hrun : finalize input candle s = .ok ⟨⟩ s') : AtFunding input .finished s' := by
  have hcounts : Counts s s' := moves_finalize.of_ok hrun
  obtain ⟨held, hcoherent, hbar, hentered, -⟩ := hinv
  have hcandle : candle ∈ input.history := hbar.mem_history
  obtain ⟨before, s₁, hbefore, hterminal, hcases⟩ := finalize_eq_ok hrun
  rw [hcoherent.files.positionOf_eq] at hbefore
  cases hbefore
  have h₁ : Funded input candle.closeTime none (s.sequence .trade) s₁ := by
    rcases hcases with ⟨-, rfl⟩ | ⟨position, rfl, hclose⟩
    · exact h
    · have hclosed := closeAtTerminal_keeps hcandle hcoherent False.elim
        (hentered.mono (openTime_add_millisecond_le candle)) (Or.inr rfl) hclose
      exact closeAtTerminal_funded hcandle (hcoherent.isOpen position rfl) hclosed h
        (fun hfutures => hguard hfutures position hcoherent.files.positionOf_eq) hclose
  -- the terminal equity row and the last point of the curve are no funding
  obtain ⟨_, row, -, -, hlogs⟩ := recordTerminalEquity_eq_ok hterminal
  have hcurve : ∀ curve, Quiet s₁ { s₁ with equityCurve := curve } := fun _ => .of_eq rfl rfl
  exact ⟨candle.closeTime, .counts ((h₁.quiet (hcurve _)).quiet
    (.of_logs hlogs (by simp [Unfunded]))) hcounts⟩

/-! ### Whole runs -/

/-- A run starts without trades. -/
theorem atFunding_of_isStart {state : RunState} (h : IsStart input state) :
    AtFunding input state.1 state.2 := by
  obtain ⟨cash, first, rest, -, -, hphase, hprepare⟩ := h
  obtain ⟨board, rows, hrows, hlogs, -⟩ := prepare_eq_ok hprepare
  have hunfunded : ∀ row ∈ rows, Unfunded row := by
    intro row hrow
    obtain ⟨definition, rfl⟩ := hrows row hrow
    trivial
  have hinitial : Funded input first.openTime none (state.2.sequence .trade)
      (initialState input cash) := by
    refine ⟨?_, ?_, ?_, ?_, ?_⟩ <;> simp [Recorded, initialState]
  have hrecorded := hinitial.quiet (.of_logs hlogs hunfunded)
  have hstate : FundedBy input first.openTime state.2 := Funded.quiet hrecorded (.of_eq rfl rfl)
  rw [hphase]
  exact ⟨first.openTime, le_rfl, hstate, fun _ _ _ hlt => not_lt_of_gt hlt⟩

/-- **One step** keeps the funding settled, where it misses no boundary. -/
theorem atFunding_step {state state' : RunState} (hinv : Inv input False state)
    (h : AtFunding input state.1 state.2) (hguard : MissesNoBoundary input state)
    (hstep : (system input).step state state') : AtFunding input state'.1 state'.2 := by
  obtain ⟨phase, s⟩ := state
  obtain ⟨phase', s'⟩ := state'
  change stepPhase input phase s = .ok phase' s' at hstep
  -- one lemma for each phase that moves money
  cases phase with
  | beforeOpen bar =>
    simp only [stepPhase, bind_eq_ok, pure_apply, EStateM.Result.ok.injEq] at hstep
    obtain ⟨_, s₁, hsettle, carried, s₂, htake, rfl, rfl⟩ := hstep
    obtain ⟨rfl, rfl⟩ := takePending_eq_ok htake
    obtain ⟨held, hcoherent, -⟩ := hinv
    obtain ⟨t, hle, hfunded, hbetween⟩ := h
    have hsettled := settleAtBoundary_funded hcoherent hfunded hle hbetween hsettle
    have hcounted : FundedBy input bar.candle.openTime s₁ :=
      .counts hsettled (moves_settleAtBoundary.of_ok hsettle)
    exact Funded.quiet hcounted (.of_eq rfl rfl)
  | carrying bar orders =>
    cases orders with
    | nil =>
      simp only [stepPhase, bind_eq_ok, runPure_eq_ok, pure_apply, EStateM.Result.ok.injEq] at hstep
      obtain ⟨boundaries, _, ⟨hboundaries, rfl⟩, rfl, rfl⟩ := hstep
      refine ⟨bar.candle.openTime, bar.candle.openTime_lt_closeTime.le, h,
        FundingWalk.boundariesBetween_pairwise hboundaries, fun b => ⟨fun hmem => ?_, ?_⟩⟩
      · obtain ⟨hafter, hclose, hb⟩ := (FundingWalk.mem_boundariesBetween hboundaries).1 hmem
        exact ⟨hb, hafter, hclose⟩
      · rintro ⟨hb, hafter, hclose⟩
        exact (FundingWalk.mem_boundariesBetween hboundaries).2 ⟨hafter, hclose, hb⟩
    | cons pending orders =>
      simp only [stepPhase, bind_eq_ok, pure_apply, EStateM.Result.ok.injEq] at hstep
      obtain ⟨_, _, hrun, rfl, rfl⟩ := hstep
      exact atFunding_carrying hinv h hguard hrun
  | settling bar boundaries =>
    cases boundaries with
    | nil =>
      cases hstep
      obtain ⟨t, hle, hfunded, -, hlist⟩ := h
      refine Funded.later hfunded hle fun active _ _ b hb hafter hclose => ?_
      exact absurd ((hlist b).2 ⟨hb, hafter, hclose⟩) List.not_mem_nil
    | cons boundary boundaries =>
      simp only [stepPhase, bind_eq_ok, pure_apply, EStateM.Result.ok.injEq] at hstep
      obtain ⟨_, _, hrun, rfl, rfl⟩ := hstep
      exact atFunding_settling hinv h hrun
  | protecting bar =>
    simp only [stepPhase, bind_eq_ok, pure_apply, EStateM.Result.ok.injEq] at hstep
    obtain ⟨_, _, hrun, rfl, rfl⟩ := hstep
    exact atFunding_protecting hinv h hrun
  | beforeClose bar =>
    simp only [stepPhase, bind_eq_ok, pure_apply, EStateM.Result.ok.injEq] at hstep
    obtain ⟨_, _, hrun, rfl, rfl⟩ := hstep
    have hcounts : Moves Counts (stepClose input bar.candle (input.answers bar.index)) :=
      counts_updateIndicators.bind fun _ => moves_markGrid.bind fun _ => moves_handleAnswer
    exact FundedBy.counts (Funded.quiet h (stepClose_quiet hrun)) (hcounts.of_ok hrun)
  | afterClose bar =>
    obtain ⟨index, candle, rest⟩ := bar
    cases rest with
    | nil =>
      simp only [stepPhase, bind_eq_ok, pure_apply, EStateM.Result.ok.injEq] at hstep
      obtain ⟨_, _, hrun, rfl, rfl⟩ := hstep
      exact atFunding_finalize hinv h hguard hrun
    | cons next rest =>
      simp only [stepPhase, bind_eq_ok, pure_apply, EStateM.Result.ok.injEq] at hstep
      obtain ⟨_, _, hrun, rfl, rfl⟩ := hstep
      exact atFunding_betweenBars hinv h hguard hrun
  | finished => cases hstep

/-- **The funding of every state** of a run that misses no boundary. -/
theorem funded_of_reachableVia {state : RunState}
    (h : (system input).ReachableVia (MissesNoBoundary input) state) :
    ∃ t, FundedBy input t state.2 := by
  have hphase : AtFunding input state.1 state.2 :=
    h.invariant_of (I := fun state => AtFunding input state.1 state.2)
      (fun _ hreach => inv_of_reachable hreach) (fun _ hstart => atFunding_of_isStart hstart)
      fun _ _ hinv hfunding hguard hstep => atFunding_step hinv hfunding hguard hstep
  obtain ⟨phase, s⟩ := state
  cases phase with
  | beforeOpen bar => exact ⟨_, hphase.choose_spec.2.1⟩
  | settling bar boundaries => exact ⟨_, hphase.choose_spec.2.1⟩
  | finished => exact hphase
  | _ => exact ⟨_, hphase⟩

end Engine
end TradingSystem
