import TradingSystem.Engine.JournalOpen
import TradingSystem.Engine.CloseEffects

/-!
# The journal along the close of a bar

A close records a snapshot of every series, marks the bar and asks the strategy. Its answer is
at most one signal, answered by one decision; a decision that acts leaves its orders in the
queue, which is what `Asked` says.
-/

namespace TradingSystem

open Numeric Logic

namespace Engine

open JournalSpec

variable {input : RunInput} {s s' : EngineState} {reserved : Multiset EvidenceKey}
  {tasks tasks' : List EvidenceTask} {candle : Candle}

/-! ### Series and grid -/

/-- The snapshots of the series refer to their definitions. -/
theorem recordSnapshots_journal {specs : List ResolvedSeriesSpec} (h : InOrder reserved tasks s)
    (hknown : ∀ spec ∈ specs, Known s (.definition spec.key))
    (hrun : forEach specs (recordSnapshot input) s = .ok ⟨⟩ s') :
    InOrder reserved tasks s' ∧ Extends s s' := by
  induction specs generalizing s with
  | nil =>
    cases hrun
    exact ⟨h, .refl _⟩
  | cons spec rest ih =>
    rw [forEach_cons, bind_eq_ok] at hrun
    obtain ⟨_, s₂, hsnapshot, hrest⟩ := hrun
    unfold recordSnapshot at hsnapshot
    simp only [bind_eq_ok, zoom_eq_ok] at hsnapshot
    obtain ⟨published, _, ⟨board, hpublished, rfl⟩, snapshotSeq, s₁, hnext, hrecord⟩ := hsnapshot
    obtain ⟨rfl, -, -⟩ := published_eq_ok hpublished
    obtain ⟨h₁, e₁⟩ := h.next hnext
    obtain ⟨h₂, e₂, -⟩ := h₁.record_plain hrecord (fun key hkey => by
      rw [List.mem_singleton.1 hkey]
      exact (hknown spec (List.mem_cons_self ..)).extends e₁) rfl
    have e := e₁.trans e₂
    obtain ⟨h₃, e₃⟩ := ih h₂
      (fun other hother => (hknown other (List.mem_cons_of_mem _ hother)).extends e) hrest
    exact ⟨h₃, e.trans e₃⟩

theorem updateIndicators_journal (h : InOrder reserved tasks s)
    (hknown : ∀ spec ∈ input.series.specs, Known s (.definition spec.key))
    (hrun : updateIndicators input candle s = .ok ⟨⟩ s') :
    InOrder reserved tasks s' ∧ Extends s s' := by
  unfold updateIndicators at hrun
  simp only [bind_eq_ok, zoom_eq_ok] at hrun
  obtain ⟨_, _, ⟨board, -, rfl⟩, hrun⟩ := hrun
  have hboard : InOrder reserved tasks { s with board := board } ∧
      Extends s { s with board := board } := h.keep rfl rfl rfl rfl
  obtain ⟨h₁, e₁⟩ := hboard
  obtain ⟨h₂, e₂⟩ := recordSnapshots_journal h₁
    (fun spec hspec => (hknown spec hspec).extends e₁) hrun
  exact ⟨h₂, e₁.trans e₂⟩

theorem markPosition_journal {mark : Decimal} (h : InOrder reserved tasks s)
    (hrun : markPosition input candle mark s = .ok ⟨⟩ s') :
    InOrder reserved tasks s' ∧ Extends s s' := by
  obtain ⟨held, -, ⟨-, rfl⟩ | ⟨_, _, marked, -, -, -, tracks, htracks, rfl⟩⟩ :=
    markPosition_eq_ok hrun
  · exact ⟨h, .refl _⟩
  · refine h.same rfl rfl rfl rfl fun active => ?_
    obtain ⟨mae, mfe, hactive⟩ := htracks active
    rw [hactive]
    exact ⟨rfl, rfl, rfl, rfl, rfl, rfl⟩

/-- One more position row among the rows of a trade. -/
theorem tradeKeys_addPosition {active : ActiveTrade} {row : PositionRow} :
    tradeKeys (ActiveTrade.addPosition active row) =
      {.id .position row.positionSeq} + tradeKeys active := by
  have hrows : evidence.keysOf ((active.positionRecords ++ [row]).map .position) =
      evidence.keysOf (active.positionRecords.map .position) ++
        [.id .position row.positionSeq] := by
    rw [List.map_append, keysOf_append]
    rfl
  show {.id .trade active.tradeId} + phaseKeys active.tradeId +
    ↑(evidence.keysOf ((active.positionRecords ++ [row]).map .position)) +
    ↑(evidence.keysOf (active.fundingRecords.map .funding)) +
    candidateKeys active.candidateId = _
  rw [hrows, ← Multiset.coe_add, Multiset.coe_singleton]
  unfold tradeKeys
  abel

/-- The POSITION row waits with the active trade, or refers to no trade. -/
theorem recordPosition_journal {mark : Decimal} (h : InOrder reserved tasks s)
    (hrun : recordPosition input candle mark s = .ok ⟨⟩ s') :
    InOrder reserved tasks s' ∧ Extends s s' := by
  unfold recordPosition at hrun
  simp only [bind_eq_ok, currentPosition_eq_ok, get_bind_apply] at hrun
  obtain ⟨held, _, ⟨-, rfl⟩, positionSeq, s₁, hnext, hrun⟩ := hrun
  obtain ⟨h₁, e₁⟩ := h.next hnext
  -- without a trade the row goes out at once
  have hloose : (positionRow positionSeq candle mark held s₁.activeTrade).tradeId = none →
      record input (.position (positionRow positionSeq candle mark held s₁.activeTrade)) s₁ =
        .ok ⟨⟩ s' → InOrder reserved tasks s' ∧ Extends s s' := by
    intro hnone hrecord
    obtain ⟨h₂, e₂, -⟩ := InOrder.record_plain h₁ hrecord (fun key hkey => by
      change key ∈ (positionRow positionSeq candle mark held s₁.activeTrade).tradeId.toList.map _
        at hkey
      rw [hnone] at hkey
      cases hkey) rfl
    exact ⟨h₂, e₁.trans e₂⟩
  cases held with
  | none => exact hloose rfl hrun
  | some position =>
  cases hactive : s₁.activeTrade with
  | none =>
    rw [hactive] at hrun hloose
    exact hloose rfl hrun
  | some active =>
    rw [hactive] at hrun
    simp only [set_apply, EStateM.Result.ok.injEq] at hrun
    obtain ⟨-, rfl⟩ := hrun
    have hkeys : activeKeys s₁.activeTrade + ({EvidenceKey.id .position positionSeq} + reserved) =
        tradeKeys (ActiveTrade.addPosition active
          (positionRow positionSeq candle mark (some position) (some active))) + reserved := by
      rw [hactive, tradeKeys_addPosition]
      show tradeKeys active + (_ + _) = {EvidenceKey.id .position positionSeq} + _ + _
      abel
    have hjournal := h₁.journal
    rw [hkeys] at hjournal
    refine ⟨⟨hjournal.same rfl rfl, fun active' hactive' => ?_⟩, e₁.trans (.of_eq rfl rfl)⟩
    cases hactive'
    have hrooted := h₁.rooted active hactive
    refine ⟨hrooted.entry, fun row hrow => ?_, hrooted.funding, hrooted.settled⟩
    rcases List.mem_append.1 hrow with hrow | hrow
    · exact hrooted.position row hrow
    · rw [List.mem_singleton.1 hrow]
      rfl

/-- A PORTFOLIO_PNL row refers to nothing. -/
theorem recordPortfolio_journal (h : InOrder reserved tasks s)
    (hrun : recordPortfolio input candle s = .ok ⟨⟩ s') :
    InOrder reserved tasks s' ∧ Extends s s' := by
  unfold recordPortfolio at hrun
  simp only [bind_eq_ok, currentPosition_eq_ok, get_bind_apply, modify_apply,
    EStateM.Result.ok.injEq] at hrun
  obtain ⟨held, _, ⟨-, rfl⟩, equitySeq, s₁, hnext, _, s₂, hrecord, -, rfl⟩ := hrun
  obtain ⟨h₁, e₁⟩ := h.next hnext
  obtain ⟨h₂, e₂, -⟩ := InOrder.record_plain h₁ hrecord (fun key hkey => nomatch hkey) rfl
  have hcurve : InOrder reserved tasks { s₂ with equityCurve := s₂.equityCurve ++
        [(candle.closeTime, recompute s₁.cash held)] } ∧
      Extends s₂ { s₂ with equityCurve := s₂.equityCurve ++
        [(candle.closeTime, recompute s₁.cash held)] } := h₂.keep rfl rfl rfl rfl
  exact ⟨hcurve.1, e₁.trans (e₂.trans hcurve.2)⟩

theorem markGrid_journal (h : InOrder reserved tasks s)
    (hrun : markGrid input candle s = .ok ⟨⟩ s') :
    InOrder reserved tasks s' ∧ Extends s s' := by
  unfold markGrid at hrun
  simp only [bind_eq_ok] at hrun
  obtain ⟨_, s₁, hmark, _, s₂, hposition, hportfolio⟩ := hrun
  obtain ⟨h₁, e₁⟩ := markPosition_journal h hmark
  obtain ⟨h₂, e₂⟩ := recordPosition_journal h₁ hposition
  obtain ⟨h₃, e₃⟩ := recordPortfolio_journal h₂ hportfolio
  exact ⟨h₃, e₁.trans (e₂.trans e₃)⟩

/-! ### The end of the data -/

/-- A close at the last price may have no decision. -/
theorem closeAtTerminal_journal {last : Candle} {position : Position} {reason : ExitReason}
    {decisionId : Option ℕ} (h : InOrder reserved tasks s)
    (hdecision : ∀ n ∈ decisionId, Known s (.id .decision n))
    (htasks : ∀ task ∈ tasks, task ∈ tasks' ∨ task ∈ decisionId.toList.map EvidenceTask.execute)
    (hrun : closeAtTerminal input last position reason decisionId s = .ok ⟨⟩ s') :
    InOrder reserved tasks' s' ∧ Extends s s' := by
  unfold closeAtTerminal at hrun
  simp only [bind_eq_ok, runPure_eq_ok, get_bind_apply] at hrun
  obtain ⟨request, _, ⟨-, rfl⟩, fill, s₁, hsubmit, happly⟩ := hrun
  obtain ⟨h₁, e₁⟩ := submit_journal h hsubmit
  obtain ⟨h₂, e₂⟩ := applyFill_exit_journal h₁
    (fun n hn => (hdecision n hn).extends e₁) htasks happly
  exact ⟨h₂, e₁.trans e₂⟩

theorem closeAtDataGap_journal (h : InOrder reserved tasks s)
    (hrun : closeAtDataGap input candle s = .ok ⟨⟩ s') :
    InOrder reserved tasks s' ∧ Extends s s' := by
  unfold closeAtDataGap at hrun
  simp only [bind_eq_ok, raiseUnless_eq_ok, currentPosition_eq_ok, get_bind_apply] at hrun
  obtain ⟨_, _, ⟨-, rfl⟩, held, _, ⟨-, rfl⟩, hrun⟩ := hrun
  cases held with
  | none =>
    cases hrun
    exact ⟨h, .refl _⟩
  | some position =>
    simp only [bind_eq_ok, modify_apply, EStateM.Result.ok.injEq] at hrun
    obtain ⟨decisionId, s₁, hforced, _, s₂, hclose, -, rfl⟩ := hrun
    -- the exit is decided by force, and executed at once
    obtain ⟨h₁, e₁, hknown⟩ := recordForcedExit_journal h hforced
    have hdecision : ∀ n ∈ some decisionId, Known s₁ (.id .decision n) := by
      intro n hn
      cases hn
      exact hknown
    have htasks : ∀ task ∈ EvidenceTask.execute decisionId :: tasks,
        task ∈ tasks ∨ task ∈ [EvidenceTask.execute decisionId] := by
      intro task htask
      rcases List.mem_cons.1 htask with rfl | htask
      · exact Or.inr (List.mem_singleton_self _)
      · exact Or.inl htask
    obtain ⟨h₂, e₂⟩ := closeAtTerminal_journal h₁ hdecision htasks hclose
    -- counting it touches no row
    have hcount : InOrder reserved tasks
          { s₂ with dataGapExitCount := s₂.dataGapExitCount + 1 } ∧
        Extends s₂ { s₂ with dataGapExitCount := s₂.dataGapExitCount + 1 } :=
      h₂.keep rfl rfl rfl rfl
    exact ⟨hcount.1, e₁.trans (e₂.trans hcount.2)⟩

theorem recordTerminalEquity_journal {last : Candle} (h : InOrder reserved tasks s)
    (hrun : recordTerminalEquity input last s = .ok ⟨⟩ s') :
    InOrder reserved tasks s' ∧ Extends s s' := by
  unfold recordTerminalEquity at hrun
  simp only [bind_eq_ok, currentPosition_eq_ok, get_bind_apply, set_bind_apply] at hrun
  obtain ⟨held, _, ⟨-, rfl⟩, equitySeq, s₁, hnext, hrecord⟩ := hrun
  have hcurve : InOrder reserved tasks { s with equityCurve := s.equityCurve ++
        [(last.closeTime + Instant.millisecond, recompute s.cash held)] } ∧
      Extends s { s with equityCurve := s.equityCurve ++
        [(last.closeTime + Instant.millisecond, recompute s.cash held)] } := h.keep rfl rfl rfl rfl
  obtain ⟨h₁, e₁⟩ := hcurve.1.next hnext
  obtain ⟨h₂, e₂, -⟩ := InOrder.record_plain h₁ hrecord (fun key hkey => nomatch hkey) rfl
  exact ⟨h₂, hcurve.2.trans (e₁.trans e₂)⟩

/-- The last exit has no decision, and settles nothing. -/
theorem finalize_journal {last : Candle} (h : InOrder reserved tasks s)
    (hrun : finalize input last s = .ok ⟨⟩ s') : InOrder reserved tasks s' ∧ Extends s s' := by
  obtain ⟨held, s₁, -, hterminal, ⟨-, rfl⟩ | ⟨position, -, hclose⟩⟩ := finalize_eq_ok hrun
  · exact recordTerminalEquity_journal h hterminal
  · have hdecision : ∀ n ∈ (none : Option ℕ), Known s (.id .decision n) := by simp
    obtain ⟨h₁, e₁⟩ := closeAtTerminal_journal h hdecision (fun task htask => Or.inl htask) hclose
    obtain ⟨h₂, e₂⟩ := recordTerminalEquity_journal h₁ hterminal
    exact ⟨h₂, e₁.trans e₂⟩

end Engine
end TradingSystem
