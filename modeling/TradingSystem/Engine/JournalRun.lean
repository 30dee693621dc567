import TradingSystem.Engine.JournalAnswer
import TradingSystem.Engine.RunCoherence
import TradingSystem.Engine.PhaseSteps
import TradingSystem.Series.History

/-!
# The journal over whole runs

What the completion check of a run asks of the evidence tables holds in every state of every
run (`audited_of_reachable`).

* `tablesConsistent_of_reachable` — rows are known by one key each and refer to earlier rows.
* `answered_of_reachable` — every signal is answered, and a decision that acts is executed or has
  an order that waits; after the last bar it is executed.
-/

namespace TradingSystem

open Numeric Logic

namespace Engine

open JournalSpec TransitionSystem

variable {input : RunInput} {state state' : RunState} {s s' : EngineState} {bar : Bar}

/-- **The invariant.** Waiting orders have their candidates reserved, their decisions made and
their executions in hand; the series are defined. After the last bar nothing waits, unless the
history goes on behind the evaluation. -/
structure Audited (input : RunInput) (state : RunState) : Prop where
  inOrder : InOrder (orderKeys (waitingOrders state))
    ((waitingOrders state).map PendingOrder.task) state.2
  decided : ∀ pending ∈ waitingOrders state,
    Decided input state.2 pending.decisionId pending.decisionCandle.closeTime
      (pending.decisionCandle.closeTime + Instant.millisecond)
  defined : ∀ spec ∈ input.series.specs, Known state.2 (.definition spec.key)
  settled : state.1 = .finished → (∀ candle ∈ input.history,
    candle.closeTime ≤ input.config.stop) → state.2.pending = []

/-! ### The start -/

/-- The definitions of the series are the first rows. -/
theorem audited_of_isStart (hkeys : SeriesBoard.KeysDistinct input.series)
    (h : IsStart input state) : Audited input state := by
  obtain ⟨cash, first, rest, -, -, hphase, hprepare⟩ := h
  obtain ⟨phase, s⟩ := state
  cases hphase
  obtain ⟨_, _, -, hlogs, -⟩ := prepare_eq_ok hprepare
  -- preparing a run touches neither the queue nor the active trade
  have hactive : s.activeTrade = none := hlogs.activeTrade_eq
  unfold prepare recordDefinitions at hprepare
  simp only [bind_eq_ok, zoom_eq_ok] at hprepare
  obtain ⟨_, s₁, hdefinitions, board, -, rfl⟩ := hprepare
  have hrows : ∀ specs : List ResolvedSeriesSpec,
      evidence.keysOf (specs.map fun spec => .indicatorDefinition
        { indicatorKey := spec.key, minHistory := spec.minHistory }) =
          specs.map fun spec => .definition spec.key := by
    intro specs
    induction specs with
    | nil => rfl
    | cons spec rest ih => exact congrArg (_ :: ·) ih
  have hnodup : (input.series.specs.map fun spec => EvidenceKey.definition spec.key).Nodup := by
    have hdistinct := hkeys.map (f := EvidenceKey.definition) fun _ _ h => by
      cases h
      rfl
    rwa [List.map_map] at hdistinct
  have hstart : Journal
      (↑(evidence.keysOf (input.series.specs.map fun spec => .indicatorDefinition
        { indicatorKey := spec.key, minHistory := spec.minHistory })) + 0) []
      (initialState input cash) := by
    rw [hrows, Multiset.add_zero]
    refine ⟨kept_nil (Multiset.coe_nodup.2 hnodup) [], fun key hkey => ?_⟩
    change key ∈ (0 : Multiset EvidenceKey) + _ at hkey
    rw [Multiset.zero_add, Multiset.mem_coe, List.mem_map] at hkey
    obtain ⟨spec, -, rfl⟩ := hkey
    exact Nat.zero_le _
  obtain ⟨hjournal, hextends, hknown⟩ := forEach_journal hstart
    (fun _ _ key hkey => absurd hkey List.not_mem_nil) (fun _ => rfl) hdefinitions
  refine ⟨⟨?_, fun active hmem => ?_⟩, fun pending hpending => ?_, fun spec hspec => ?_,
    fun hfinished => by cases hfinished⟩
  · have hwaiting : orderKeys (waitingOrders (.beforeOpen ⟨0, first, rest⟩,
        { s₁ with board := board })) = 0 := by
      show orderKeys s₁.pending = 0
      rw [hextends.pending_eq]
      rfl
    rw [hwaiting]
    show Journal (activeKeys s₁.activeTrade + 0) _ _
    rw [show s₁.activeTrade = none from hactive]
    exact (hjournal.mono (le_refl _) (List.nil_subset _)).same rfl rfl
  · change active ∈ s₁.activeTrade at hmem
    rw [show s₁.activeTrade = none from hactive] at hmem
    cases hmem
  · change pending ∈ s₁.pending at hpending
    rw [hextends.pending_eq] at hpending
    cases hpending
  · exact hknown spec hspec _ (List.mem_singleton_self _)

/-! ### The steps -/

variable {phase phase' : Phase}

/-- Rows are added and the same orders wait. -/
theorem Audited.extends (h : Audited input (phase, s))
    (hextends : Extends s s') (hwaiting : waitingOrders (phase', s') = waitingOrders (phase, s))
    (horder : InOrder (orderKeys (waitingOrders (phase, s)))
      ((waitingOrders (phase, s)).map PendingOrder.task) s') (hphase : phase' ≠ .finished) :
    Audited input (phase', s') := by
  refine ⟨?_, fun pending hpending => ?_, fun spec hspec => (h.defined spec hspec).extends hextends,
    fun hfinished => absurd hfinished hphase⟩
  · rw [hwaiting]
    exact horder
  · rw [hwaiting] at hpending
    exact (h.decided pending hpending).extends hextends

theorem audited_beforeOpen {s₁ : EngineState} (h : Audited input (.beforeOpen bar, s))
    (hrun : settleAtBoundary input bar.candle.openTime s = .ok ⟨⟩ s₁) :
    Audited input (.carrying bar s₁.pending, { s₁ with pending := [] }) := by
  obtain ⟨h₁, e₁⟩ := settleAtBoundary_journal h.inOrder (fun _ => owner_of_mem_orderKeys) hrun
  -- the queue becomes the orders of the bar
  have hwaiting : waitingOrders (.carrying bar s₁.pending, { s₁ with pending := [] }) =
      waitingOrders (.beforeOpen bar, s) := by
    show [] ++ s₁.pending = s.pending
    rw [e₁.pending_eq]
    rfl
  refine ⟨?_, fun pending hpending => ?_,
    fun spec hspec => (h.defined spec hspec).mono e₁.records, fun hfinished => by cases hfinished⟩
  · rw [hwaiting]
    exact h₁.requeue []
  · rw [hwaiting] at hpending
    exact (h.decided pending hpending).mono e₁.records

/-- A carried order no longer waits. -/
theorem audited_carrying {pending : PendingOrder} {orders : List PendingOrder}
    (h : Audited input (.carrying bar (pending :: orders), s)) (hpending : s.pending = [])
    (hrun : executePending input bar.candle pending s = .ok ⟨⟩ s') :
    Audited input (.carrying bar orders, s') := by
  have hwaiting : waitingOrders (.carrying bar (pending :: orders), s) = pending :: orders := by
    show s.pending ++ _ = _
    rw [hpending]
    rfl
  have horder := h.inOrder
  have hdecided := h.decided
  rw [hwaiting] at horder hdecided
  obtain ⟨h₁, e₁⟩ := executePending_journal horder
    (hdecided pending (List.mem_cons_self ..)).known hrun
  have hwaiting' : waitingOrders (.carrying bar orders, s') = orders := by
    show s'.pending ++ _ = _
    rw [e₁.pending_eq, hpending]
    rfl
  refine ⟨?_, fun other hother => ?_, fun spec hspec => (h.defined spec hspec).extends e₁,
    fun hfinished => by cases hfinished⟩
  · rw [hwaiting']
    exact h₁
  · rw [hwaiting'] at hother
    exact (hdecided other (List.mem_cons_of_mem _ hother)).extends e₁

/-- What the close of a bar queues waits. -/
theorem audited_beforeClose {answer : StrategyAnswer} (h : Audited input (.beforeClose bar, s))
    (hpending : s.pending = []) (hrun : stepClose input bar.candle answer s = .ok ⟨⟩ s') :
    Audited input (.afterClose bar, s') := by
  unfold stepClose at hrun
  simp only [bind_eq_ok] at hrun
  obtain ⟨_, s₁, hindicators, _, s₂, hgrid, hanswer⟩ := hrun
  have hwaiting : waitingOrders (.beforeClose bar, s) = [] := hpending
  have horder := h.inOrder
  rw [hwaiting] at horder
  obtain ⟨h₁, e₁⟩ := updateIndicators_journal horder h.defined hindicators
  obtain ⟨h₂, e₂⟩ := markGrid_journal h₁ hgrid
  obtain ⟨orders, hasked⟩ := handleAnswer_journal h₂ hanswer
  have hasked' := hasked.after (e₁.trans e₂)
  have hwaiting' : waitingOrders (.afterClose bar, s') = orders := by
    show s'.pending = orders
    rw [hasked'.pending_eq, hpending]
    rfl
  refine ⟨?_, fun pending hmem => ?_, fun spec hspec =>
    (h.defined spec hspec).mono hasked'.records, fun hfinished => by cases hfinished⟩
  · rw [hwaiting']
    have horder' := hasked'.inOrder
    change InOrder (orderKeys orders + 0) (orders.map PendingOrder.task ++ []) s' at horder'
    rwa [Multiset.add_zero, List.append_nil] at horder'
  · rw [hwaiting'] at hmem
    exact hasked'.decided pending hmem

/-- The last bar of the evaluation queues for a bar after its end, if there is one. -/
theorem pending_eq_nil_of_last {index : ℕ} {candle : Candle} {held : Option Position}
    (hbar : OnEvaluation input ⟨index, candle, []⟩) (hqueue : IsQueue input candle held s.pending)
    (hstop : ∀ candle ∈ input.history, candle.closeTime ≤ input.config.stop) : s.pending = [] := by
  by_contra hne
  obtain ⟨pending, hpending⟩ := List.exists_mem_of_ne_nil _ hne
  obtain ⟨follower, hfollower⟩ := (hqueue.queued pending hpending).contiguous
  obtain ⟨-, hmem, hopen, -⟩ := nextBar_contiguous hfollower
  have hlt := candle.openTime_lt_closeTime
  -- the follower is a candle of the evaluation after its last one
  have hstart : input.config.start ≤ candle.openTime := (mem_evaluation.1 hbar.mem).2.1
  have hfollowerMem : follower ∈ input.evaluation :=
    mem_evaluation.2 ⟨hmem, by omega, hstop follower hmem⟩
  obtain ⟨before, hbefore⟩ := hbar
  have hincreasing : Increasing input.evaluation := evaluation_increasing
  rw [← hbefore] at hfollowerMem hincreasing
  unfold Increasing at hincreasing
  rw [List.pairwise_append] at hincreasing
  rcases List.mem_append.1 hfollowerMem with hearlier | hlast
  · have := hincreasing.2.2 follower hearlier candle (List.mem_singleton_self _)
    omega
  · have hsame : follower = candle := List.mem_singleton.1 hlast
    rw [hsame] at hopen
    omega

/-- What still waits after the last bar belongs behind the evaluation. -/
theorem audited_finalize {index : ℕ} {candle : Candle} {held : Option Position}
    (h : Audited input (.afterClose ⟨index, candle, []⟩, s))
    (hbar : OnEvaluation input ⟨index, candle, []⟩) (hqueue : IsQueue input candle held s.pending)
    (hrun : finalize input candle s = .ok ⟨⟩ s') : Audited input (.finished, s') := by
  obtain ⟨h₁, e₁⟩ := finalize_journal h.inOrder hrun
  have hwaiting : waitingOrders (.finished, s') =
      waitingOrders (.afterClose ⟨index, candle, []⟩, s) := e₁.pending_eq
  refine ⟨?_, fun pending hpending => ?_, fun spec hspec => (h.defined spec hspec).extends e₁,
    fun _ hstop => e₁.pending_eq.trans (pending_eq_nil_of_last hbar hqueue hstop)⟩
  · rw [hwaiting]
    exact h₁
  · rw [hwaiting] at hpending
    exact (h.decided pending hpending).extends e₁

/-- **One step** keeps the evidence in order. -/
theorem audited_step (hinv : Inv input False state) (h : Audited input state)
    (hstep : (system input).step state state') : Audited input state' := by
  obtain ⟨phase, s⟩ := state
  obtain ⟨phase', s'⟩ := state'
  obtain ⟨held, hcoherent, hphase⟩ := hinv
  cases phaseStep_of_stepPhase hstep with
  | beforeOpen hrun => exact audited_beforeOpen h hrun
  | carried =>
    refine h.extends (.refl _) ?_ h.inOrder (by simp)
    exact (List.append_nil _).symm
  | carrying hrun => exact audited_carrying h hphase.1.pending_eq hrun
  | settled => exact h.extends (.refl _) rfl h.inOrder (by simp)
  | settling hrun =>
    obtain ⟨h₁, e₁⟩ := settleAtBoundary_journal h.inOrder (fun _ => owner_of_mem_orderKeys) hrun
    exact h.extends e₁ e₁.pending_eq h₁ (by simp)
  | protecting hrun =>
    obtain ⟨h₁, e₁⟩ := protect_journal h.inOrder hrun
    exact h.extends e₁ e₁.pending_eq h₁ (by simp)
  | beforeClose hrun => exact audited_beforeClose h hphase.1.pending_eq hrun
  | finalize hrun => exact audited_finalize h hphase.1 hphase.2.2.2 hrun
  | betweenBars hrun =>
    unfold betweenBars at hrun
    split at hrun
    · obtain ⟨h₁, e₁⟩ := closeAtDataGap_journal h.inOrder hrun
      exact h.extends e₁ e₁.pending_eq h₁ (by simp)
    · cases hrun
      exact h.extends (.refl _) rfl h.inOrder (by simp)

/-- **Every state of every run** has its evidence in order. -/
theorem audited_of_reachable (hkeys : SeriesBoard.KeysDistinct input.series)
    (h : (system input).Reachable state) : Audited input state := by
  have hboth := h.invariant (I := fun state => Inv input False state ∧ Audited input state)
    (fun _ hstart => ⟨inv_of_isStart hstart, audited_of_isStart hkeys hstart⟩)
    (fun _ _ hinv hstep => ⟨inv_step hinv.1 (by simp) hstep, audited_step hinv.1 hinv.2 hstep⟩)
  exact hboth.2

/-! ### What the audit reads -/

/-- **Tables in order**: no key is used twice, and every reference of a row is a key of a row
recorded before it. -/
structure TablesConsistent (records : List EvidenceRecord) : Prop where
  unique : (records.flatMap EvidenceRecord.keys).Nodup
  foreign : ∀ before row after, records = before ++ row :: after →
    ∀ key ∈ row.refs, ∃ other ∈ before, key ∈ other.keys

/-- **The tables are in order** in every state of every run: no key is used by two rows, and a row
refers only to keys of rows recorded before it. That the keys of the series are distinct is what
resolving them ensures. -/
theorem tablesConsistent_of_reachable (hkeys : SeriesBoard.KeysDistinct input.series)
    (h : (system input).Reachable state) : TablesConsistent state.2.records := by
  have hkept := (audited_of_reachable hkeys h).inOrder.journal.kept
  refine ⟨hkept.keysOf_nodup, fun before row after hrows key hkey => ?_⟩
  exact mem_keysOf.1 (hkept.referenced before row after hrows hkey)

/-- A run over hourly bars has no series. -/
theorem keysDistinct_twoDollarRun {initialCapital : Decimal} {requested : Binary64}
    {hcapital : 0 < initialCapital} :
    SeriesBoard.KeysDistinct (twoDollarRun initialCapital requested hcapital).series :=
  List.nodup_nil

theorem tablesConsistent_of_four_hours : ∃ state : RunState, endedWithTrade state = true ∧
    TablesConsistent state.2.records := by
  obtain ⟨state, hended, hreachable⟩ := exists_ended
  exact ⟨state, hended, tablesConsistent_of_reachable keysDistinct_twoDollarRun hreachable⟩

/-- A signal row is answered by a decision row. -/
def SignalsAnswered (records : List EvidenceRecord) : Prop :=
  ∀ signal, .signal signal ∈ records →
    ∃ decision, .decision decision ∈ records ∧ decision.signalId = some signal.signalId

/-- A decision has been executed. -/
def Executed (records : List EvidenceRecord) (decisionId : ℕ) : Prop :=
  ∃ execution, .execution execution ∈ records ∧ execution.decisionId = some decisionId

/-- **Nothing is lost on the way** from a signal to its execution: every signal is answered, a
decision that acts is executed or has an order that waits, and after the last bar it is executed,
where the history ends with the evaluation. -/
structure Answered (input : RunInput) (state : RunState) : Prop where
  signals : SignalsAnswered state.2.records
  acting : ∀ decision, .decision decision ∈ state.2.records → decision.action ≠ .skip →
    Executed state.2.records decision.decisionId ∨
      ∃ pending ∈ waitingOrders state, pending.decisionId = decision.decisionId
  finished : state.1 = .finished → (∀ candle ∈ input.history,
    candle.closeTime ≤ input.config.stop) → ∀ decision, .decision decision ∈ state.2.records →
      decision.action ≠ .skip → Executed state.2.records decision.decisionId

/-- **Nothing gets lost between a signal and its execution.** In every state of every run each
recorded signal has a decision that answers it, and each decision that does not skip has an
execution or an order that waits. Once a run has ended whose history ends with its evaluation, no
order waits any more. -/
theorem answered_of_reachable (hkeys : SeriesBoard.KeysDistinct input.series)
    (h : (system input).Reachable state) : Answered input state := by
  have haudited := audited_of_reachable hkeys h
  have hkept := haudited.inOrder.journal.kept
  have hacting : ∀ decision, .decision decision ∈ state.2.records → decision.action ≠ .skip →
      Executed state.2.records decision.decisionId ∨
        ∃ pending ∈ waitingOrders state, pending.decisionId = decision.decisionId := by
    intro decision hmem haction
    by_contra hnone
    rw [not_or] at hnone
    -- an execution that nobody has made is in hand
    have hraised : .execute decision.decisionId ∈ EvidenceRecord.raises (.decision decision) := by
      show _ ∈ if decision.action = .skip then [] else _
      rw [if_neg haction]
      exact List.mem_singleton_self _
    have hunsettled : ∀ row ∈ state.2.records,
        EvidenceTask.execute decision.decisionId ∉ evidence.settles row := by
      intro row hrow hsettles
      cases row with
      | execution execution =>
        obtain ⟨n, hn, heq⟩ := List.mem_map.1 hsettles
        cases heq
        exact hnone.1 ⟨execution, hrow, Option.mem_toList.1 hn⟩
      | decision other =>
        obtain ⟨n, -, heq⟩ := List.mem_map.1 hsettles
        cases heq
      | _ => cases hsettles
    have htask := hkept.outstanding _ ⟨⟨_, hmem, hraised⟩, hunsettled⟩
    obtain ⟨pending, hpending, heq⟩ := List.mem_map.1 htask
    exact hnone.2 ⟨pending, hpending, EvidenceTask.execute.inj heq⟩
  refine ⟨fun signal hmem => ?_, hacting, fun hfinished hstop decision hmem haction => ?_⟩
  · by_contra hnone
    have hunsettled : ∀ row ∈ state.2.records,
        EvidenceTask.answer signal.signalId ∉ evidence.settles row := by
      intro row hrow hsettles
      cases row with
      | decision decision =>
        obtain ⟨n, hn, heq⟩ := List.mem_map.1 hsettles
        cases heq
        exact hnone ⟨decision, hrow, Option.mem_toList.1 hn⟩
      | execution execution =>
        obtain ⟨n, -, heq⟩ := List.mem_map.1 hsettles
        cases heq
      | _ => cases hsettles
    have htask := hkept.outstanding _
      ⟨⟨_, hmem, List.mem_singleton_self _⟩, hunsettled⟩
    obtain ⟨pending, -, heq⟩ := List.mem_map.1 htask
    cases heq
  · rcases hacting decision hmem haction with hexecuted | ⟨pending, hpending, -⟩
    · exact hexecuted
    · obtain ⟨phase, s⟩ := state
      cases hfinished
      change pending ∈ s.pending at hpending
      rw [haudited.settled rfl hstop] at hpending
      cases hpending

theorem answered_of_four_hours : ∃ state : RunState, endedWithTrade state = true ∧
    Answered (twoDollarRun 100000 (Binary64.ofRat 100) hundredThousand_pos) state := by
  obtain ⟨state, hended, hreachable⟩ := exists_ended
  exact ⟨state, hended, answered_of_reachable keysDistinct_twoDollarRun hreachable⟩

end Engine
end TradingSystem
