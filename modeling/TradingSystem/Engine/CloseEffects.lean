import TradingSystem.Engine.StepEffects
import TradingSystem.Engine.QueueEffects

/-!
# What the close of a bar, a gap and the end of the data do

The inversion lemmas of the series update, the grid of a bar, the exit at a data gap
and the end of the run.
-/

namespace TradingSystem

open Numeric Logic

namespace Engine

variable {input : RunInput} {s s' : EngineState}

/-! ### Series -/

/-- A recorded snapshot is the published value of a series. -/
def IsSnapshot (board : SeriesBoard) (spec : ResolvedSeriesSpec) (record : EvidenceRecord) : Prop :=
  ∃ row source, record = .indicatorSnapshot row ∧ row.indicatorKey = spec.key ∧
    board.values spec.key = some row.value ∧ board.sources spec.key = some source ∧
    row.candleOpenTime = source.openTime ∧ row.candleCloseTime = source.closeTime

theorem published_eq_ok {spec : ResolvedSeriesSpec} {board board' : SeriesBoard}
    {published : SeriesValue × Candle}
    (h : SeriesBoard.published spec board = .ok published board') :
    board' = board ∧ board.values spec.key = some published.1 ∧
      board.sources spec.key = some published.2 := by
  unfold SeriesBoard.published at h
  rw [get_bind_apply] at h
  cases hvalue : board.values spec.key with
  | none =>
    rw [hvalue] at h
    cases h
  | some value =>
  cases hsource : board.sources spec.key with
  | none =>
    rw [hvalue, hsource] at h
    cases h
  | some source =>
    rw [hvalue, hsource] at h
    cases h
    exact ⟨rfl, rfl, rfl⟩

/-- Putting a state's own board back changes nothing. -/
private theorem recordSnapshot_eq_ok {spec : ResolvedSeriesSpec}
    (h : recordSnapshot input spec s = .ok ⟨⟩ s') :
    ∃ row, IsSnapshot s.board spec row ∧ Logs [row] s s' := by
  unfold recordSnapshot at h
  simp only [bind_eq_ok, zoom_eq_ok] at h
  obtain ⟨published, _, ⟨board, hpublished, rfl⟩, seq, s₁, hnext, hrecord⟩ := h
  obtain ⟨rfl, hvalue, hsource⟩ := published_eq_ok hpublished
  exact ⟨_, ⟨_, published.2, rfl, rfl, hvalue, hsource, rfl, rfl⟩,
    (next_eq_ok hnext).trans (record_eq_ok hrecord)⟩

/-- **Updating the series** advances the board and records one snapshot per series. -/
theorem updateIndicators_eq_ok {candle : Candle}
    (h : updateIndicators input candle s = .ok ⟨⟩ s') :
    ∃ board rows, SeriesBoard.advance input.series candle s.board = .ok ⟨⟩ board ∧
      List.Forall₂ (IsSnapshot board) input.series.specs rows ∧
      Logs rows { s with board := board } s' := by
  unfold updateIndicators at h
  simp only [bind_eq_ok, zoom_eq_ok] at h
  obtain ⟨_, _, ⟨board, hadvance, rfl⟩, h⟩ := h
  -- one row for each series, and the board stays as advanced
  have hloop : ∀ {specs : List ResolvedSeriesSpec} {s₀ : EngineState}, s₀.board = board →
      forEach specs (recordSnapshot input) s₀ = .ok ⟨⟩ s' →
        ∃ rows, List.Forall₂ (IsSnapshot board) specs rows ∧ Logs rows s₀ s' := by
    intro specs
    induction specs with
    | nil =>
      intro s₀ _ hrun
      cases hrun
      exact ⟨[], .nil, Logs.refl _⟩
    | cons spec rest ih =>
      intro s₀ hboard hrun
      rw [forEach_cons, bind_eq_ok] at hrun
      obtain ⟨_, s₁, h₁, h₂⟩ := hrun
      obtain ⟨row, hrow, hlog⟩ := recordSnapshot_eq_ok h₁
      obtain ⟨rows, hrows, hlogs⟩ := ih (hlog.board_eq.trans hboard) h₂
      rw [hboard] at hrow
      exact ⟨row :: rows, .cons hrow hrows, hlog.trans hlogs⟩
  obtain ⟨rows, hrows, hlogs⟩ := hloop rfl h
  exact ⟨board, rows, hadvance, hrows, hlogs⟩

/-! ### The grid of a bar -/

/-- Marking a bar prices the held position, if there is one, and tracks the extremes. -/
theorem markPosition_eq_ok {candle : Candle} {mark : Decimal}
    (h : markPosition input candle mark s = .ok ⟨⟩ s') :
    ∃ held, positionOf input s.book = .ok held ∧
      ((held = none ∧ s' = s) ∨
        ∃ position filed marked, held = some position ∧
          s.book (position.symbol, position.side) = some filed ∧
          Position.updatePrice mark filed = .ok ⟨⟩ marked ∧
          ∃ tracks : ActiveTrade → ActiveTrade,
            (∀ active, ∃ mae mfe, tracks active = { active with mae := mae, mfe := mfe }) ∧
            s' = { s with
              book := s.book.update (position.symbol, position.side) (some marked)
              activeTrade := s.activeTrade.map tracks }) := by
  -- only the extremes of the trade can change
  have htracked : ∀ (position : Position) (features : Features) (active : ActiveTrade),
      ∃ mae mfe, tracked candle position features active =
        { active with mae := mae, mfe := mfe } := by
    intro position features active
    unfold tracked
    split
    · exact ⟨active.mae, active.mfe, rfl⟩
    · exact ⟨_, _, rfl⟩
  unfold markPosition at h
  simp only [bind_eq_ok, currentPosition_eq_ok] at h
  obtain ⟨held, _, ⟨hheld, rfl⟩, h⟩ := h
  refine ⟨held, hheld, ?_⟩
  cases held with
  | none =>
    cases h
    exact Or.inl ⟨rfl, rfl⟩
  | some position =>
    right
    simp only [bind_eq_ok, onBook_eq_ok, currentPosition_eq_ok] at h
    obtain ⟨_, _, ⟨book, hbook, rfl⟩, after, _, ⟨hafter, rfl⟩, h⟩ := h
    obtain ⟨filed, marked, hfiled, hmark, rfl⟩ := PositionBook.onPosition_eq_ok.1 hbook
    refine ⟨position, filed, marked, rfl, hfiled, hmark, ?_⟩
    cases after with
    | none =>
      cases h
      refine ⟨id, fun active => ⟨active.mae, active.mfe, rfl⟩, ?_⟩
      rw [Option.map_id, id]
    | some after =>
      simp only [Option.toList_some, forEach_cons, forEach_nil, bind_eq_ok, pure_apply,
        EStateM.Result.ok.injEq] at h
      obtain ⟨_, _, htrack, -, rfl⟩ := h
      exact ⟨_, htracked _ _, trackExcursions_eq_ok htrack⟩

/-- The POSITION row goes to the active trade while there is one. -/
theorem recordPosition_eq_ok {candle : Candle} {mark : Decimal} {held : Option Position}
    (hheld : positionOf input s.book = .ok held)
    (h : recordPosition input candle mark s = .ok ⟨⟩ s') :
    ∃ row : PositionRow, row.ts = candle.closeTime ∧
      ((∃ active, held.isSome = true ∧ s.activeTrade = some active ∧
          Logs [] { s with activeTrade := some (ActiveTrade.addPosition active row) } s') ∨
        ((held = none ∨ s.activeTrade = none) ∧ Logs [.position row] s s')) := by
  unfold recordPosition at h
  simp only [bind_eq_ok, currentPosition_eq_ok, get_bind_apply] at h
  obtain ⟨held', _, ⟨hheld', rfl⟩, positionSeq, s₁, hnext, h⟩ := h
  rw [hheld] at hheld'
  cases hheld'
  have hlogs := next_eq_ok hnext
  refine ⟨positionRow positionSeq candle mark held s₁.activeTrade, rfl, ?_⟩
  -- numbering the row leaves the trade alone
  rw [← hlogs.activeTrade_eq]
  cases held with
  | none => exact Or.inr ⟨Or.inl rfl, hlogs.trans (record_eq_ok h)⟩
  | some position =>
  cases hactive : s₁.activeTrade with
  | none =>
    rw [hactive] at h
    exact Or.inr ⟨Or.inr rfl, hlogs.trans (record_eq_ok h)⟩
  | some active =>
    rw [hactive] at h
    simp only [set_apply, EStateM.Result.ok.injEq] at h
    obtain ⟨-, rfl⟩ := h
    obtain ⟨sequence, rfl⟩ := hlogs
    exact Or.inl ⟨active, rfl, rfl, sequence, rfl⟩

/-- The PORTFOLIO_PNL row of a bar carries the equity of the state. -/
theorem recordPortfolio_eq_ok {candle : Candle}
    (h : recordPortfolio input candle s = .ok ⟨⟩ s') :
    ∃ held row, positionOf input s.book = .ok held ∧ row.ts = candle.closeTime ∧
      row.totalEquity = recompute s.cash held ∧
      Logs [.portfolio row] { s with
        equityCurve := s.equityCurve ++ [(candle.closeTime, recompute s.cash held)] } s' := by
  unfold recordPortfolio at h
  simp only [bind_eq_ok, currentPosition_eq_ok, get_bind_apply, modify_apply,
    EStateM.Result.ok.injEq] at h
  obtain ⟨held, _, ⟨hheld, rfl⟩, equitySeq, s₁, hnext, _, s₂, hrecord, -, rfl⟩ := h
  have hcash := (next_eq_ok hnext).cash_eq
  obtain ⟨sequence, rfl⟩ := (next_eq_ok hnext).trans (record_eq_ok hrecord)
  refine ⟨held, portfolioRow s₁ equitySeq candle.closeTime held (recompute s₁.cash held)
    (max (curvePeak s₁.equityCurve (recompute s₁.cash held)) (recompute s₁.cash held))
    s₁.activeTrade, hheld, rfl, ?_, sequence, ?_⟩
  · rw [← hcash]
    rfl
  · rw [hcash]
    rfl

/-! ### The end of the data -/

/-- **A close at the last price** submits the exit of a position and applies its fill. -/
theorem closeAtTerminal_eq_ok {last : Candle} {position : Position} {reason : ExitReason}
    {decisionId : Option ℕ}
    (h : closeAtTerminal input last position reason decisionId s = .ok ⟨⟩ s') :
    ∃ request sequence fill s₁, exitRequest position = .ok request ∧
      submitOrder input.costModel ⟨last, [last, terminalCandle last],
        ⟨none, some s.cash, position.leverage⟩⟩ request sequence = .ok fill ∧
      Logs [] s s₁ ∧
      applyFill input (withExitReason fill (some reason)) decisionId none none s₁ = .ok ⟨⟩ s' := by
  unfold closeAtTerminal at h
  simp only [bind_eq_ok, runPure_eq_ok, get_bind_apply] at h
  obtain ⟨request, _, ⟨hrequest, rfl⟩, fill, s₁, hsubmit, happly⟩ := h
  obtain ⟨sequence, hfill, hlogs⟩ := submit_eq_ok hsubmit
  exact ⟨request, sequence, fill, s₁, hrequest, hfill, hlogs, happly⟩

/-- **A data gap** may be crossed with an empty queue only; an open position is closed. -/
theorem closeAtDataGap_eq_ok {candle : Candle}
    (h : closeAtDataGap input candle s = .ok ⟨⟩ s') :
    ∃ held, s.pending = [] ∧ positionOf input s.book = .ok held ∧
      ((held = none ∧ s' = s) ∨
        ∃ position row s₁ s₂ count, held = some position ∧ Logs [.decision row] s s₁ ∧
          closeAtTerminal input candle position .dataGap (some row.decisionId) s₁ = .ok ⟨⟩ s₂ ∧
          s' = { s₂ with dataGapExitCount := count }) := by
  unfold closeAtDataGap at h
  simp only [bind_eq_ok, raiseUnless_eq_ok, currentPosition_eq_ok, get_bind_apply] at h
  obtain ⟨_, _, ⟨hpending, rfl⟩, held, _, ⟨hheld, rfl⟩, h⟩ := h
  refine ⟨held, hpending, hheld, ?_⟩
  cases held with
  | none =>
    cases h
    exact Or.inl ⟨rfl, rfl⟩
  | some position =>
    right
    simp only [bind_eq_ok, modify_apply, EStateM.Result.ok.injEq] at h
    obtain ⟨decisionId, s₁, hforced, _, s₂, hclose, -, rfl⟩ := h
    obtain ⟨row, hlogs, rfl⟩ := recordForcedExit_eq_ok hforced
    exact ⟨position, row, s₁, s₂, _, rfl, hlogs, hclose, rfl⟩

/-- The terminal equity row. -/
theorem recordTerminalEquity_eq_ok {last : Candle}
    (h : recordTerminalEquity input last s = .ok ⟨⟩ s') :
    ∃ held row, positionOf input s.book = .ok held ∧
      row.ts = last.closeTime + Instant.millisecond ∧
      Logs [.portfolio row] { s with
        equityCurve := s.equityCurve ++
          [(last.closeTime + Instant.millisecond, recompute s.cash held)] } s' := by
  unfold recordTerminalEquity at h
  simp only [bind_eq_ok, currentPosition_eq_ok, get_bind_apply, set_bind_apply] at h
  obtain ⟨held, _, ⟨hheld, rfl⟩, equitySeq, s₁, hnext, hrecord⟩ := h
  exact ⟨held, _, hheld, rfl, (next_eq_ok hnext).trans (record_eq_ok hrecord)⟩

/-- **The end of a run** closes an open position and records the terminal equity. -/
theorem finalize_eq_ok {last : Candle} (h : finalize input last s = .ok ⟨⟩ s') :
    ∃ held s₁, positionOf input s.book = .ok held ∧
      recordTerminalEquity input last s₁ = .ok ⟨⟩ s' ∧
      ((held = none ∧ s₁ = s) ∨
        ∃ position, held = some position ∧
          closeAtTerminal input last position .endOfData none s = .ok ⟨⟩ s₁) := by
  unfold finalize at h
  simp only [bind_eq_ok, currentPosition_eq_ok] at h
  obtain ⟨held, _, ⟨hheld, rfl⟩, _, s₁, hclose, hterminal⟩ := h
  refine ⟨held, s₁, hheld, hterminal, ?_⟩
  cases held with
  | none =>
    cases hclose
    exact Or.inl ⟨rfl, rfl⟩
  | some position =>
    simp only [Option.toList_some, forEach_cons, forEach_nil, bind_eq_ok, pure_apply,
      EStateM.Result.ok.injEq] at hclose
    obtain ⟨_, _, hclose, -, rfl⟩ := hclose
    exact Or.inr ⟨position, rfl, hclose⟩

end Engine
end TradingSystem
