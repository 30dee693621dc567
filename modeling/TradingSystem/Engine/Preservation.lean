import TradingSystem.Engine.Coherence
import TradingSystem.Engine.EntryOrder
import TradingSystem.Engine.Timeline

/-!
# What each step of a run keeps

One lemma for each step of the candle loop: from a coherent state, what is open
afterwards, and that the state is coherent with it. The steps that close the position
through a float (`exit_keeps`, `closeAtTerminal_keeps`) leave what the float missed, both
by `Coherent.floatExit`.
-/

namespace TradingSystem

open Numeric Logic

namespace Engine

variable {input : RunInput} {exact : Prop} {held : Option Position} {position : Position}
  {s s' : EngineState}

/-! ### Times of the active trade -/

/-- The active trade, if there is one, was entered by `t`. -/
def EnteredBy (s : EngineState) (t : ℤ) : Prop :=
  ∀ active ∈ s.activeTrade, active.entryFill.timestamp ≤ t

theorem EnteredBy.continues {t : ℤ} (h : EnteredBy s t) (hcontinues : Continues s s') :
    EnteredBy s' t := by
  intro active' hactive'
  obtain ⟨active, hactive, hfill, -⟩ := hcontinues active' hactive'
  rw [hfill]
  exact h active hactive

theorem EnteredBy.mono {t t' : ℤ} (h : EnteredBy s t) (hle : t ≤ t') : EnteredBy s t' :=
  fun active hactive => (h active hactive).trans hle

theorem EnteredBy.lt {t t' : ℤ} (h : EnteredBy s t) (hlt : t < t') :
    ∀ active ∈ s.activeTrade, active.entryFill.timestamp < t' :=
  fun active hactive => (h active hactive).trans_lt hlt

theorem SettledAt.continues {t : ℤ} (h : SettledAt input s t) (hcontinues : Continues s s') :
    SettledAt input s' t := by
  intro hfutures hboundary active' hactive'
  obtain ⟨active, hactive, hfill, hsub⟩ := hcontinues active' hactive'
  rw [hfill]
  exact (h hfutures hboundary active hactive).imp_right fun hmem => hsub hmem

/-- A flat run has nothing to settle. -/
theorem Coherent.settledAt (h : Coherent input exact none s) (t : ℤ) : SettledAt input s t := by
  intro _ _ active hactive
  rw [h.activeTrade_eq_none] at hactive
  cases hactive

/-! ### Settlements -/

/-- The liquidation of an exhausted position closes it, one millisecond after the boundary. -/
theorem liquidateExhausted_keeps {boundary : ℤ} {price : Decimal}
    (h : Coherent input exact (some position) s) (hboundary : isBoundary boundary = true)
    (hentered : ∀ active ∈ s.activeTrade, active.entryFill.timestamp < boundary)
    (hrun : liquidateExhausted input position boundary price s = .ok ⟨⟩ s') :
    Keeps input exact s none s' := by
  obtain ⟨decision, s₁, fill, hdecision, -, hfill, happly⟩ := liquidateExhausted_eq_ok hrun
  have hopen := h.isOpen position rfl
  obtain ⟨order, -, hexecution, hexit, hfull⟩ :=
    Matcher.liquidationFill_eq_ok hopen.quantity_money hfill
  have h₁ := h.keeps_logs hdecision (by simp [Genuine])
  refine h₁.trans (h₁.coherent.exit_full hexit hfull ?_ ?_ (Or.inl rfl) happly)
  · intro active hactive
    rw [hdecision.activeTrade_eq] at hactive
    rw [hexecution.timestamp_eq]
    have hbefore := hentered active hactive
    have : (0 : ℤ) < Instant.millisecond := by decide
    omega
  · rw [hexecution.timestamp_eq]
    exact (wholeMillisecond_of_isBoundary hboundary).add wholeMillisecond_millisecond

/-- A settlement charges the open position and may close it. -/
theorem settle_keeps {active : ActiveTrade} {boundary : ℤ}
    (h : Coherent input exact (some position) s) (hactive : s.activeTrade = some active)
    (hafter : active.entryFill.timestamp < boundary) (hboundary : isBoundary boundary = true)
    (hrun : settle input position active boundary s = .ok ⟨⟩ s') :
    ∃ held', Keeps input exact s held' s' ∧
      ∀ active' ∈ s'.activeTrade, boundary ∈ active'.settledBoundaries := by
  obtain ⟨price, cost, filed, result, charged, row, s₁, -, -, hfiled, hcharge, -, hlogs,
    hexhausted⟩ := settle_eq_ok hrun
  obtain ⟨-, -, hget⟩ := h.files.get
  rw [hget] at hfiled
  cases hfiled
  -- first the charge, which keeps the position open
  have hcharged : Keeps input exact s (some charged)
      (settled s position charged active boundary row result) := by
    refine ⟨h.settled hactive hcharge, rfl, ?_⟩
    intro active' hactive'
    cases hactive'
    exact ⟨active, by rw [hactive]; rfl, rfl, List.subset_append_left _ _⟩
  have h₁ := hcharged.trans (hcharged.coherent.keeps_logs hlogs (by simp))
  have hsettled : ∀ active' ∈ s₁.activeTrade, boundary ∈ active'.settledBoundaries ∧
      active'.entryFill = active.entryFill := by
    intro active' hactive'
    rw [hlogs.activeTrade_eq] at hactive'
    cases hactive'
    exact ⟨List.mem_append_right _ (List.mem_singleton_self _), rfl⟩
  by_cases hexhaust : result.exhausted = true
  · -- the margin is exhausted: the charged position is liquidated
    rw [if_pos hexhaust] at hexhausted
    obtain ⟨remaining, hremaining, hliquidate⟩ := hexhausted
    rw [h₁.coherent.files.positionOf_eq] at hremaining
    cases hremaining
    have hclosed := liquidateExhausted_keeps h₁.coherent hboundary
      (fun active' hactive' => (hsettled active' hactive').2 ▸ hafter) hliquidate
    refine ⟨none, h₁.trans hclosed, ?_⟩
    rw [hclosed.coherent.activeTrade_eq_none]
    simp
  · rw [if_neg hexhaust] at hexhausted
    subst hexhausted
    exact ⟨some charged, h₁, fun active' hactive' => (hsettled active' hactive').1⟩

/-- **Settling a boundary** leaves it settled. -/
theorem settleAtBoundary_keeps {boundary : ℤ} (h : Coherent input exact held s)
    (hrun : settleAtBoundary input boundary s = .ok ⟨⟩ s') :
    ∃ held', Keeps input exact s held' s' ∧ SettledAt input s' boundary := by
  rcases settleAtBoundary_eq_ok hrun with
    ⟨rfl, hnothing⟩ | ⟨position, active, -, hboundary, hposition, hactive, hafter, -, hsettle⟩
  · refine ⟨held, h.keeps, ?_⟩
    rcases hnothing with hflat | hsettled
    · rw [h.files.positionOf_eq] at hflat
      cases hflat
      exact h.settledAt boundary
    · exact hsettled
  · rw [h.files.positionOf_eq] at hposition
    cases hposition
    obtain ⟨held', hkeeps, hsettled⟩ := settle_keeps h hactive hafter hboundary hsettle
    exact ⟨held', hkeeps, fun _ _ active' hactive' => Or.inr (hsettled active' hactive')⟩

/-- A boundary that is settled already is left alone. -/
theorem settleAtBoundary_settled {boundary : ℤ} (hsettled : SettledAt input s boundary)
    (hrun : settleAtBoundary input boundary s = .ok ⟨⟩ s') : s' = s := by
  rcases settleAtBoundary_eq_ok hrun with
    ⟨rfl, -⟩ | ⟨position, active, hfutures, hboundary, -, hactive, hafter, hopen, -⟩
  · rfl
  · rcases hsettled hfutures hboundary active (by rw [hactive]; rfl) with hlate | hdone
    · omega
    · exact absurd hdone hopen

/-! ### Carried orders -/

/-- The time and place of a carried order's execution. -/
theorem carried_execution {candle : Candle} {pending : PendingOrder}
    {execution : Candle × Decimal × ℤ} (hqueued : IsQueued input candle pending)
    (h : Matcher.executionCandle pending.decisionCandle input.history .nextBar = .ok execution) :
    execution.2.2 = candle.closeTime + Instant.millisecond := by
  obtain ⟨next, hnext⟩ := hqueued.contiguous
  obtain ⟨-, hmem, hopen, -⟩ := nextBar_contiguous hnext
  rw [hqueued.decisionCandle_eq] at h
  exact (Matcher.executionCandle_contiguous hmem hopen h).2

/-- **An exit fill of the float quantity**, one millisecond after the close it was decided
at, leaves what the float missed. -/
theorem Coherent.floatExit {fill : Fill} {closed : ℤ} {reason : Option ExitReason}
    {decisionId candidateId : Option ℕ} {signal : Option TradingSignal}
    (h : Coherent input exact (some position) s) (hexit : Matcher.IsExitFill position fill)
    (hquantity : fill.quantity = exitQuantity position.quantity)
    (hexact : exact → Lossless position.quantity) (hentered : EnteredBy s closed)
    (htime : fill.timestamp = closed + Instant.millisecond) (hwhole : WholeMillisecond closed)
    (hdecided : decisionId.isSome = true ∨ reason = some .endOfData)
    (hrun : applyFill input (withExitReason fill reason) decisionId signal candidateId s =
      .ok ⟨⟩ s') :
    Keeps input exact s (remainderOf position (exitQuantity position.quantity)) s' := by
  have hopen := h.isOpen position rfl
  have hmillisecond : (0 : ℤ) < Instant.millisecond := by decide
  -- the reason of an exit plays no part in what it is the exit of
  have hexit' : Matcher.IsExitFill position (withExitReason fill reason) :=
    ⟨hexit.symbol_eq, hexit.positionSide_eq, hexit.side_eq, hexit.reduceOnly_eq⟩
  -- the fill is that of a float, so the remainder is what the float leaves
  have hclosed := h.exit hexit' ?_ ?_ ?_ ?_ ?_ hrun
  · change Keeps input exact s (remainderOf position fill.quantity) s' at hclosed
    rwa [hquantity] at hclosed
  · change position.quantity ≤ 2 * fill.quantity
    rw [hquantity]
    exact le_two_mul_exitQuantity hopen.quantity_money hopen.quantity_pos
  · intro hx
    change fill.quantity = position.quantity
    rw [hquantity]
    exact (exitQuantity_eq_iff hopen.quantity_money hopen.quantity_pos).2 (hexact hx)
  · change ∀ active ∈ s.activeTrade, active.entryFill.timestamp < fill.timestamp
    rw [htime]
    exact hentered.lt (by omega)
  · change WholeMillisecond fill.timestamp
    rw [htime]
    exact hwhole.add wholeMillisecond_millisecond
  · exact hdecided.imp_right fun hreason => by rw [hreason]; rfl

/-- A carried exit is filled with the quantity of its float, one millisecond after the close it
was decided at. -/
theorem exit_fill {prev candle : Candle} {pending : PendingOrder} (hopen : IsOpen input position)
    (hqueued : IsQueued input prev pending) (hexit : IsExitOf position pending)
    (hrun : executePending input candle pending s = .ok ⟨⟩ s') :
    ∃ fill s₁, Logs [] s s₁ ∧ Matcher.IsExitFill position fill ∧
      fill.quantity = exitQuantity position.quantity ∧
      fill.timestamp = prev.closeTime + Instant.millisecond ∧
      applyFill input (withExitReason fill pending.exitReason) (some pending.decisionId)
        pending.signal pending.candidateId s₁ = .ok ⟨⟩ s' := by
  obtain ⟨limits, sequence, fill, s₁, -, hlimits, hsubmit, hlogs, -, happly⟩ :=
    executePending_eq_ok hrun
  have hreduce : pending.request.reduceOnly = true := by
    rw [exitRequest_eq_ok hexit.request_eq]
  -- an exit is not capped by the risk
  have hbudget : limits.riskBudget = none := by
    rw [hlimits.riskBudget_eq, hreduce]
    cases input.config.sizing <;> rfl
  obtain ⟨execution, hexecution, hisExecution, hisExit, hquantity⟩ :=
    submitOrder_exit hopen.quantity_money hopen.quantity_pos (by exact hbudget)
      hexit.request_eq hsubmit
  exact ⟨fill, s₁, hlogs, hisExit, hquantity,
    hisExecution.timestamp_eq.trans (carried_execution hqueued hexecution), happly⟩

/-- **A carried exit** leaves what its float missed. -/
theorem exit_keeps {prev candle : Candle} {pending : PendingOrder}
    (h : Coherent input exact (some position) s) (hqueued : IsQueued input prev pending)
    (hexit : IsExitOf position pending) (hexact : exact → Lossless position.quantity)
    (hentered : EnteredBy s prev.closeTime)
    (hrun : executePending input candle pending s = .ok ⟨⟩ s') :
    Keeps input exact s (remainderOf position (exitQuantity position.quantity)) s' := by
  obtain ⟨fill, s₁, hlogs, hisExit, hquantity, htime, happly⟩ :=
    exit_fill (h.isOpen position rfl) hqueued hexit hrun
  obtain ⟨next, hnext⟩ := hqueued.contiguous
  have hwhole := wholeMillisecond_closeTime (nextBar_contiguous hnext).1
  have h₁ := h.keeps_logs hlogs (by simp)
  have hentered₁ : EnteredBy s₁ prev.closeTime := hentered.continues h₁.continues
  exact h₁.trans (h₁.coherent.floatExit hisExit hquantity hexact hentered₁ htime hwhole
    (Or.inl rfl) happly)

/-- The side a signal implies is one direction. -/
theorem impliedSide_ne_both {signal : TradingSignal} {side : PositionSide}
    (h : (impliedSide signal).map Prod.snd = some side) : side ≠ .both := by
  unfold impliedSide at h
  split at h <;> cases h <;> split <;> simp

/-- A carried entry is filled to the side of its signal, one millisecond after the close it was
decided at. -/
theorem entry_fill {prev candle : Candle} {pending : PendingOrder} {signal : TradingSignal}
    {side : PositionSide} {quantity : Binary64} (hqueued : IsQueued input prev pending)
    (hentry : IsEntryOf signal side quantity pending)
    (hrun : executePending input candle pending s = .ok ⟨⟩ s') :
    ∃ fill s₁, Logs [] s s₁ ∧ fill.positionSide = side ∧ fill.reduceOnly = false ∧
      fill.timestamp = prev.closeTime + Instant.millisecond ∧
      applyFill input (withExitReason fill pending.exitReason) (some pending.decisionId)
        pending.signal pending.candidateId s₁ = .ok ⟨⟩ s' := by
  obtain ⟨limits, sequence, fill, s₁, -, -, hsubmit, hlogs, -, happly⟩ := executePending_eq_ok hrun
  obtain ⟨execution, truncated, -, hexecution, -, -, hisExecution⟩ :=
    submitOrder_entry hentry.request_eq hsubmit
  exact ⟨fill, s₁, hlogs, hisExecution.positionSide_eq, hisExecution.reduceOnly_eq,
    hisExecution.timestamp_eq.trans (carried_execution hqueued hexecution), happly⟩

/-- **A carried entry** opens a position and starts its trade, one millisecond into the
bar. -/
theorem entry_keeps {prev candle : Candle} {pending : PendingOrder} {signal : TradingSignal}
    {side : PositionSide} {quantity : Binary64} (h : Coherent input exact held s)
    (hqueued : IsQueued input prev pending) (hentry : IsEntryOf signal side quantity pending)
    (hopposite : ∀ p ∈ held, p.side ≠ side) (hentered : EnteredBy s prev.closeTime)
    (hrun : executePending input candle pending s = .ok ⟨⟩ s') :
    ∃ held', Coherent input exact held' s' ∧ s'.pending = s.pending ∧
      EnteredBy s' (prev.closeTime + Instant.millisecond) := by
  obtain ⟨fill, s₁, hlogs, hside, hisEntry, htime, happly⟩ := entry_fill hqueued hentry hrun
  have hmillisecond : (0 : ℤ) < Instant.millisecond := by decide
  obtain ⟨next, hnext⟩ := hqueued.contiguous
  have hwhole := wholeMillisecond_closeTime (nextBar_contiguous hnext).1
  have h₁ := h.keeps_logs hlogs (by simp)
  have hreduce : (withExitReason fill pending.exitReason).reduceOnly = false := hisEntry
  -- the fill is an entry to the side of the signal
  obtain ⟨held', hheld', hpending, hactive⟩ := h₁.coherent.entry hreduce
    (hside.symm ▸ impliedSide_ne_both hentry.side_eq) (hside.symm ▸ hopposite)
    (by
      change WholeMillisecond fill.timestamp
      rw [htime]
      exact hwhole.add wholeMillisecond_millisecond) rfl happly
  refine ⟨held', hheld', hpending.trans hlogs.pending_eq, ?_⟩
  intro active' hactive'
  rcases hactive active' hactive' with hnew | ⟨active, hold, rfl⟩
  · rw [hnew]
    exact htime.le
  · rw [hlogs.activeTrade_eq] at hold
    have := hentered active hold
    change active.entryFill.timestamp ≤ _
    omega

/-! ### Triggers -/

/-- **Protection** leaves the position alone or closes it completely. -/
theorem protect_keeps {candle : Candle} (hcandle : candle ∈ input.history)
    (h : Coherent input exact held s) (hrun : protect input candle s = .ok ⟨⟩ s') :
    ∃ held', Keeps input exact s held' s' := by
  obtain ⟨before, hbefore, hcases⟩ := protect_eq_ok hrun
  rw [h.files.positionOf_eq] at hbefore
  cases hbefore
  rcases hcases with ⟨rfl, -⟩ | ⟨position, fill, row, s₁, rfl, htrigger, hlogs, happly⟩
  · exact ⟨held, h.keeps⟩
  -- following the extremes of the trade changes nothing the invariant speaks of
  have htracked : Keeps input exact s (some position) (withTracking input candle position s) := by
    have hsame : ∀ active, SameEntry active
        (tracked candle position (s.board.features input.series.specs) active) ∧
        (tracked candle position (s.board.features input.series.specs) active).settledBoundaries =
          active.settledBoundaries := by
      intro active
      unfold tracked
      split <;> exact ⟨⟨rfl, rfl, rfl⟩, rfl⟩
    refine ⟨h.of_same rfl rfl rfl (fun active => (hsame active).1) rfl fun row hrow => Or.inl hrow,
      rfl, ?_⟩
    intro active' hactive'
    change active' ∈ s.activeTrade.map _ at hactive'
    rw [Option.mem_map] at hactive'
    obtain ⟨active, hactive, rfl⟩ := hactive'
    exact ⟨active, hactive, (hsame active).1.1, (hsame active).2.symm ▸ List.Subset.refl _⟩
  obtain ⟨-, hafter, htriggered⟩ := Matcher.resolveTriggers_eq_ok htrigger
  obtain ⟨hexit, hfull, htime, -⟩ := htriggered.exit (h.isOpen position rfl).quantity_money
  have h₁ := htracked.trans (htracked.coherent.keeps_logs hlogs (by simp [Genuine]))
  refine ⟨none, h₁.trans (h₁.coherent.exit_full hexit hfull ?_ ?_ (Or.inl rfl) happly)⟩
  · intro active' hactive'
    obtain ⟨active, hactive, hfill, -⟩ := h₁.continues active' hactive'
    rw [hfill, htime]
    have hentry := hafter active.entryFill.timestamp (by
      rw [Option.mem_map]
      exact ⟨active, hactive, rfl⟩)
    have := candle.openTime_lt_closeTime
    omega
  · rw [htime]
    exact wholeMillisecond_closeTime hcandle

/-! ### The close of a bar -/

/-- **The close of a bar** marks the position and queues orders for the next bar. -/
theorem stepClose_keeps {candle : Candle} {answer : StrategyAnswer}
    (h : Coherent input exact held s) (hpending : s.pending = [])
    (hrun : stepClose input candle answer s = .ok ⟨⟩ s') :
    ∃ held', Coherent input exact held' s' ∧ Continues s s' ∧
      IsQueue input candle held' s'.pending := by
  unfold stepClose markGrid at hrun
  simp only [bind_eq_ok] at hrun
  obtain ⟨_, s₁, hindicators, _, s₄, ⟨_, s₂, hmark, _, s₃, hposition, hportfolio⟩, hanswer⟩ := hrun
  -- the series
  obtain ⟨board, rows, -, hsnapshots, hlogs₁⟩ := updateIndicators_eq_ok hindicators
  have hboard : Keeps input exact s held { s with board := board } :=
    ⟨h.of_same rfl rfl rfl SameEntry.refl Option.map_id'.symm fun row hrow => Or.inl hrow, rfl,
      Continues.of_eq rfl⟩
  have hgenuine : ∀ row ∈ rows, Genuine input row := by
    refine forall_of_forall₂ hsnapshots ?_
    rintro _ _ ⟨_, _, rfl, -⟩
    trivial
  have h₁ := hboard.trans (hboard.coherent.keeps_logs hlogs₁ hgenuine)
  -- the mark
  obtain ⟨held₂, h₂⟩ : ∃ held₂, Keeps input exact s₁ held₂ s₂ := by
    obtain ⟨before, hbefore, hcases⟩ := markPosition_eq_ok hmark
    rw [h₁.coherent.files.positionOf_eq] at hbefore
    cases hbefore
    rcases hcases with ⟨-, rfl⟩ | ⟨position, filed, marked, rfl, hfiled, hupdate, tracks, htracks,
      rfl⟩
    · exact ⟨held, h₁.coherent.keeps⟩
    · obtain ⟨-, -, hget⟩ := h₁.coherent.files.get
      rw [hget] at hfiled
      cases hfiled
      refine ⟨some marked, h₁.coherent.marked hupdate fun active => ?_, rfl, ?_⟩
      · obtain ⟨mae, mfe, htrack⟩ := htracks active
        rw [htrack]
        exact ⟨rfl, rfl, rfl⟩
      · intro active' hactive'
        change active' ∈ s₁.activeTrade.map _ at hactive'
        rw [Option.mem_map] at hactive'
        obtain ⟨active, hactive, rfl⟩ := hactive'
        obtain ⟨mae, mfe, htrack⟩ := htracks active
        rw [htrack]
        exact ⟨active, hactive, rfl, List.Subset.refl _⟩
  -- the rows of the bar
  have h₃ : Keeps input exact s₂ held₂ s₃ := by
    obtain ⟨row, -, ⟨active, -, hactive, hlogs⟩ | ⟨-, hlogs⟩⟩ :=
      recordPosition_eq_ok h₂.coherent.files.positionOf_eq hposition
    · have hrow : Keeps input exact s₂ held₂ { s₂ with
          activeTrade := some (ActiveTrade.addPosition active row) } := by
        have hsame : ∀ active, SameEntry active (ActiveTrade.addPosition active row) :=
          fun _ => ⟨rfl, rfl, rfl⟩
        refine ⟨h₂.coherent.of_same rfl rfl rfl hsame ?_ fun row hrow => Or.inl hrow, rfl, ?_⟩
        · rw [hactive]
          rfl
        · intro active' hactive'
          cases hactive'
          exact ⟨active, by rw [hactive]; rfl, rfl, List.Subset.refl _⟩
      exact hrow.trans (hrow.coherent.keeps_logs hlogs (by simp))
    · exact h₂.coherent.keeps_logs hlogs (by simp [Genuine])
  have h₄ : Keeps input exact s₃ held₂ s₄ := by
    obtain ⟨before, row, -, -, -, hlogs⟩ := recordPortfolio_eq_ok hportfolio
    have hcurve : Keeps input exact s₃ held₂ { s₃ with
        equityCurve := s₃.equityCurve ++ [(candle.closeTime, recompute s₃.cash before)] } :=
      ⟨h₃.coherent.of_same rfl rfl rfl SameEntry.refl Option.map_id'.symm fun row hrow =>
        Or.inl hrow, rfl, Continues.of_eq rfl⟩
    exact hcurve.trans (hcurve.coherent.keeps_logs hlogs (by simp [Genuine]))
  have hall := h₁.trans (h₂.trans (h₃.trans h₄))
  -- the answer
  obtain ⟨orders, hqueue, hnotes⟩ := handleAnswer_eq_ok hall.coherent.files.positionOf_eq hanswer
  have hcoherent : Coherent input exact held₂ (queued s₄ orders) :=
    hall.coherent.of_same rfl rfl rfl SameEntry.refl Option.map_id'.symm fun row hrow => Or.inl hrow
  obtain ⟨rows', hrows', hlogs'⟩ := hnotes
  refine ⟨held₂, hcoherent.notes ⟨rows', hrows', hlogs'⟩, ?_, ?_⟩
  · exact hall.continues.trans (Continues.of_eq hlogs'.activeTrade_eq)
  · rw [hlogs'.pending_eq]
    change IsQueue input candle held₂ (s₄.pending ++ orders)
    rw [hall.pending_eq, hpending]
    exact hqueue

/-! ### Gaps and the end of the data -/

/-- A close at the last price is filled with the quantity of its float, one millisecond after
the last close. -/
theorem closeAtTerminal_fill {last : Candle} {reason : ExitReason} {decisionId : Option ℕ}
    (hopen : IsOpen input position)
    (hrun : closeAtTerminal input last position reason decisionId s = .ok ⟨⟩ s') :
    ∃ fill s₁, Logs [] s s₁ ∧ Matcher.IsExitFill position fill ∧
      fill.quantity = exitQuantity position.quantity ∧
      fill.timestamp = last.closeTime + Instant.millisecond ∧
      applyFill input (withExitReason fill (some reason)) decisionId none none s₁ = .ok ⟨⟩ s' := by
  obtain ⟨request, sequence, fill, s₁, hrequest, hsubmit, hlogs, happly⟩ :=
    closeAtTerminal_eq_ok hrun
  obtain ⟨execution, hexecution, hisExecution, hisExit, hquantity⟩ :=
    submitOrder_exit hopen.quantity_money hopen.quantity_pos (by rfl) hrequest hsubmit
  refine ⟨fill, s₁, hlogs, hisExit, hquantity, ?_, happly⟩
  rw [hisExecution.timestamp_eq]
  obtain ⟨hmem, hle, -, -, htime⟩ := Matcher.executionCandle_eq_ok hexecution
  -- the decision candle opened before it closed, so the terminal candle executes
  rcases List.mem_cons.1 hmem with heq | hmem
  · rw [heq] at hle
    have := last.openTime_lt_closeTime
    change last.closeTime ≤ last.openTime at hle
    omega
  · rw [List.mem_singleton] at hmem
    rw [htime, hmem]
    exact max_self _

/-- **A close at the last price** leaves what its float missed. -/
theorem closeAtTerminal_keeps {last : Candle} {reason : ExitReason} {decisionId : Option ℕ}
    (hlast : last ∈ input.history) (h : Coherent input exact (some position) s)
    (hexact : exact → Lossless position.quantity) (hentered : EnteredBy s last.closeTime)
    (hdecided : decisionId.isSome = true ∨ reason = .endOfData)
    (hrun : closeAtTerminal input last position reason decisionId s = .ok ⟨⟩ s') :
    Keeps input exact s (remainderOf position (exitQuantity position.quantity)) s' := by
  obtain ⟨fill, s₁, hlogs, hisExit, hquantity, htime, happly⟩ :=
    closeAtTerminal_fill (h.isOpen position rfl) hrun
  have h₁ := h.keeps_logs hlogs (by simp)
  have hentered₁ : EnteredBy s₁ last.closeTime := hentered.continues h₁.continues
  exact h₁.trans (h₁.coherent.floatExit hisExit hquantity hexact hentered₁ htime
    (wholeMillisecond_closeTime hlast) (hdecided.imp_right fun hreason => by rw [hreason])
    happly)

end Engine
end TradingSystem
