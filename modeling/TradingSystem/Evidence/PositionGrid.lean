import TradingSystem.Engine.EquityCurve

/-!
# The position rows of a run

The close of a bar leaves a POSITION row and a PORTFOLIO_PNL row. While a trade is open its
position rows wait with it, and they are recorded when it is completed. Nothing is lost or
changes places on the way: what is recorded and what waits are together one row for each bar.

* `positions` — the recorded rows and the waiting ones, in their order.
* `Shelves` — what leaves them alone; the close of a bar is the only step that does not.
* `positionRows_of_reachable` — the rows of every run, beside those of the equity table.
-/

namespace TradingSystem

open Numeric Logic

/-- The POSITION rows of the evidence. -/
def positionRow? : EvidenceRecord → Option PositionRow
  | .position row => some row
  | _ => none

def positionRows (records : List EvidenceRecord) : List PositionRow :=
  records.filterMap positionRow?

theorem positionRows_append {records rows : List EvidenceRecord} :
    positionRows (records ++ rows) = positionRows records ++ positionRows rows :=
  List.filterMap_append

theorem positionRows_eq_nil {rows : List EvidenceRecord}
    (h : ∀ row ∈ rows, positionRow? row = none) : positionRows rows = [] :=
  List.filterMap_eq_nil_iff.2 h

theorem positionRows_map_position (rows : List PositionRow) :
    positionRows (rows.map .position) = rows := by
  induction rows with
  | nil => rfl
  | cons row rows ih => exact congrArg (row :: ·) ih

namespace Engine

variable {input : RunInput} {s s' : EngineState} {candle : Candle}

/-- The position rows that wait for their trade. -/
def waiting (s : EngineState) : List PositionRow :=
  (s.activeTrade.map (·.positionRecords)).getD []

/-- **The position rows so far**, recorded or waiting. -/
def positions (s : EngineState) : List PositionRow := positionRows s.records ++ waiting s

/-- **No position row is added, lost or moved.** -/
def Shelves (s s' : EngineState) : Prop := positions s' = positions s

theorem Shelves.refl (s : EngineState) : Shelves s s := rfl

theorem Shelves.trans {s'' : EngineState} (h : Shelves s s') (h' : Shelves s' s'') :
    Shelves s s'' := Eq.trans h' h

theorem Shelves.of_logs {rows : List EvidenceRecord} (h : Logs rows s s')
    (hrows : ∀ row ∈ rows, positionRow? row = none) : Shelves s s' := by
  unfold Shelves positions waiting
  rw [h.records_eq, h.activeTrade_eq, positionRows_append, positionRows_eq_nil hrows,
    List.append_nil]

theorem Shelves.of_counters (h : Logs [] s s') : Shelves s s' := .of_logs h (by simp)

/-- The open trade may change, its position rows stay. -/
theorem Shelves.of_waiting (hrecords : s'.records = s.records) (hwaiting : waiting s' = waiting s) :
    Shelves s s' := by
  unfold Shelves positions
  rw [hrecords, hwaiting]

theorem positionRow?_decision {row : DecisionRow} :
    ∀ other ∈ [EvidenceRecord.decision row], positionRow? other = none := by
  simp [positionRow?]

/-! ### Fills -/

/-- The rows of a completed trade hold its position rows. -/
theorem positionRows_completionRows (executionId : ℕ) (trade : Trade) (active : ActiveTrade)
    {items : List (FeaturePhase × ℤ × Features × Option Decimal)} {features : List EvidenceRecord}
    (hfeatures : List.Forall₂ (IsFeatureRow active.tradeId) items features) :
    positionRows (completionRows active executionId trade features) = active.positionRecords := by
  have hfunding : positionRows (active.fundingRecords.map .funding) = [] := by
    refine positionRows_eq_nil fun row hrow => ?_
    obtain ⟨_, -, rfl⟩ := List.mem_map.1 hrow
    rfl
  have hcandidate : positionRows (active.candidateId.toList.map fun candidateId =>
      .candidate (realizedCandidate active candidateId)) = [] := by
    refine positionRows_eq_nil fun row hrow => ?_
    obtain ⟨_, -, rfl⟩ := List.mem_map.1 hrow
    rfl
  have hfeature : positionRows features = [] := by
    refine positionRows_eq_nil (forall_of_forall₂ hfeatures fun item row hrow => ?_)
    obtain ⟨feature, rfl, -⟩ := hrow
    rfl
  unfold completionRows
  show positionRows (_ ++ _ ++ _ ++ _) = _
  rw [positionRows_append, positionRows_append, positionRows_append, hfunding, hcandidate,
    hfeature, List.append_nil, List.append_nil, List.append_nil]
  exact positionRows_map_position _

/-- **A fill** moves no position row: those of a trade that it completes are recorded in the
places where they waited. -/
theorem applyFill_shelves {fill : Fill} {decisionId : Option ℕ} {signal : Option TradingSignal}
    {candidateId : Option ℕ}
    (h : applyFill input fill decisionId signal candidateId s = .ok ⟨⟩ s') : Shelves s s' := by
  obtain ⟨held, executionId, s₁, -, hexecution, h⟩ := applyFill_eq_ok h
  have hlogged : Shelves s s₁ := .of_logs hexecution (by simp [positionRow?])
  refine hlogged.trans ?_
  cases hreduce : fill.reduceOnly with
  | true =>
    rw [hreduce, if_pos rfl] at h
    obtain ⟨_, active, cash, _, book, _, -, hactive, -, -, -, -,
      ⟨_, -, rfl⟩ | ⟨-, trade, features, htrade, hfeatures, hlogs⟩⟩ := applyExit_eq_ok hreduce h
    · -- a part of the position stays, and the rows of the trade go on waiting
      refine .of_waiting rfl ?_
      unfold waiting
      rw [hactive]
      rfl
    · -- they are recorded, behind those of the trades before
      unfold Shelves positions waiting
      rw [hlogs.records_eq, hlogs.activeTrade_eq, hactive, positionRows_append,
        positionRows_completionRows executionId trade (ActiveTrade.addCosts active fill) hfeatures]
      exact List.append_nil _
  | false =>
    rw [hreduce, if_neg Bool.false_ne_true] at h
    obtain ⟨_, book, _, -, -, -, -, -, ⟨active, hactive, rfl⟩ |
      ⟨hactive, origin, tradeId, -, hlogs⟩⟩ := applyEntry_eq_ok h.2
    · refine .of_waiting rfl ?_
      unfold waiting
      rw [hactive]
      rfl
    · -- a new trade has no position rows yet
      refine .of_waiting (hlogs.records_eq.trans (List.append_nil _)) ?_
      unfold waiting
      rw [hlogs.activeTrade_eq, hactive]
      rfl

/-! ### Steps -/

theorem closeAtTerminal_shelves {last : Candle} {position : Position} {reason : ExitReason}
    {decisionId : Option ℕ}
    (h : closeAtTerminal input last position reason decisionId s = .ok ⟨⟩ s') : Shelves s s' := by
  obtain ⟨_, _, fill, s₁, -, -, hlogs, hfill⟩ := closeAtTerminal_eq_ok h
  exact Shelves.trans (.of_counters hlogs) (applyFill_shelves hfill)

theorem settleAtBoundary_shelves {boundary : ℤ}
    (h : settleAtBoundary input boundary s = .ok ⟨⟩ s') : Shelves s s' := by
  rcases settleAtBoundary_eq_ok h with ⟨rfl, -⟩ | ⟨position, active, -, -, -, hactive, -, -, h⟩
  · exact .refl _
  · obtain ⟨price, cost, held, result, charged, row, s₁, -, -, -, -, -, hlogs, h⟩ := settle_eq_ok h
    have hcharged : Shelves s (settled s position charged active boundary row result) := by
      refine .of_waiting rfl ?_
      unfold waiting
      rw [hactive]
      rfl
    have hsettled : Shelves s s₁ := hcharged.trans (.of_counters hlogs)
    cases hexhausted : result.exhausted with
    | false =>
      rw [hexhausted, if_neg Bool.false_ne_true] at h
      rw [h]
      exact hsettled
    | true =>
      rw [hexhausted, if_pos rfl] at h
      obtain ⟨remaining, -, h⟩ := h
      obtain ⟨decision, s₂, fill, hdecision, -, -, hfill⟩ := liquidateExhausted_eq_ok h
      -- a margin that is used up closes the position
      exact hsettled.trans
        (Shelves.trans (.of_logs hdecision positionRow?_decision) (applyFill_shelves hfill))

theorem executePending_shelves {pending : PendingOrder}
    (h : executePending input candle pending s = .ok ⟨⟩ s') : Shelves s s' := by
  obtain ⟨_, _, fill, s₁, -, -, -, hlogs, -, hfill⟩ := executePending_eq_ok h
  exact Shelves.trans (.of_counters hlogs) (applyFill_shelves hfill)

/-- Tracking its extremes leaves the rows of a trade alone. -/
theorem withTracking_shelves {position : Position} :
    Shelves s (withTracking input candle position s) := by
  refine .of_waiting rfl ?_
  unfold waiting
  show ((s.activeTrade.map _).map _).getD [] = _
  rw [Option.map_map]
  congr 1
  refine Option.map_congr fun active _ => ?_
  unfold Function.comp tracked
  split <;> rfl

theorem protect_shelves (h : protect input candle s = .ok ⟨⟩ s') : Shelves s s' := by
  obtain ⟨held, hheld, ⟨rfl, -⟩ | ⟨position, fill, row, s₁, hposition, -, hlogs, hfill⟩⟩ :=
    protect_eq_ok h
  · exact .refl _
  · exact withTracking_shelves.trans
      (Shelves.trans (.of_logs hlogs positionRow?_decision) (applyFill_shelves hfill))

theorem betweenBars_shelves {next : Candle} (h : betweenBars input candle next s = .ok ⟨⟩ s') :
    Shelves s s' := by
  unfold betweenBars at h
  split at h
  · obtain ⟨held, -, hheld, ⟨-, rfl⟩ | ⟨position, row, s₁, s₂, count, -, hlogs, hclose, rfl⟩⟩ :=
      closeAtDataGap_eq_ok h
    · exact .refl _
    · have hcount : Shelves s₂ { s₂ with dataGapExitCount := count } := .of_waiting rfl rfl
      exact Shelves.trans (.of_logs hlogs positionRow?_decision)
        ((closeAtTerminal_shelves hclose).trans hcount)
  · cases h
    exact .refl _

/-- A row of the equity table and its point of the curve. -/
theorem shelves_point {row : PortfolioRow} {ts : ℤ} {equity : Decimal}
    (h : Logs [.portfolio row] (withPoint s ts equity) s') : Shelves s s' := by
  have hpoint : Shelves s (withPoint s ts equity) := .of_waiting rfl rfl
  exact hpoint.trans (.of_logs h (by simp [positionRow?]))

/-! ### The close of a bar -/

/-- **The rows of one bar** agree: they tell the same position at the same instant. -/
structure SameBar (position : PositionRow) (row : PortfolioRow) : Prop where
  ts_eq : row.ts = position.ts
  positionValue_eq : row.positionValue = positionValue position.held
  unrealizedPnl_eq : row.unrealizedPnl = (position.held.map (·.unrealizedPnl)).getD 0
  openPositions_eq : row.openPositions = if position.held.isSome then 1 else 0
  /-- A position belongs to a trade. -/
  tradeId_isSome : position.tradeId.isSome = position.held.isSome

theorem sameBar_rows {positionSeq equitySeq : ℕ} {mark peak : Decimal} {held : Option Position}
    {active active' : Option ActiveTrade} (hactive : active.isSome = held.isSome) :
    SameBar (positionRow positionSeq candle mark held active)
      (portfolioRow s equitySeq candle.closeTime held (recompute s.cash held) peak active') := by
  refine ⟨rfl, rfl, rfl, rfl, ?_⟩
  show (if held.isSome then active.map (·.tradeId) else none).isSome = held.isSome
  split
  · rw [Option.isSome_map, hactive]
  · next hflat => exact (Bool.eq_false_iff.2 hflat).symm

/-- Marking the position leaves a coherent state. -/
theorem markPosition_coherent {exact : Prop} {held : Option Position} {mark : Decimal}
    (h : Coherent input exact held s) (hrun : markPosition input candle mark s = .ok ⟨⟩ s') :
    ∃ held', Coherent input exact held' s' := by
  obtain ⟨before, hbefore, hcases⟩ := markPosition_eq_ok hrun
  rw [h.files.positionOf_eq] at hbefore
  cases hbefore
  rcases hcases with ⟨-, rfl⟩ | ⟨position, filed, marked, rfl, hfiled, hupdate, tracks, htracks,
    rfl⟩
  · exact ⟨held, h⟩
  · obtain ⟨-, -, hget⟩ := h.files.get
    rw [hget] at hfiled
    cases hfiled
    refine ⟨some marked, h.marked hupdate fun active => ?_⟩
    obtain ⟨mae, mfe, htrack⟩ := htracks active
    rw [htrack]
    exact ⟨rfl, rfl, rfl⟩

/-- **The position row of a bar** comes last: with the open trade, or in the evidence when there
is none. -/
theorem recordPosition_positions {mark : Decimal} {held : Option Position}
    (hheld : positionOf input s.book = .ok held) (hactive : s.activeTrade.isSome = held.isSome)
    (h : recordPosition input candle mark s = .ok ⟨⟩ s') :
    ∃ positionSeq, positions s' =
      positions s ++ [positionRow positionSeq candle mark held s.activeTrade] := by
  unfold recordPosition at h
  simp only [bind_eq_ok, currentPosition_eq_ok, get_bind_apply] at h
  obtain ⟨held', _, ⟨hheld', rfl⟩, positionSeq, s₁, hnext, h⟩ := h
  rw [hheld] at hheld'
  cases hheld'
  have hlogs := next_eq_ok hnext
  refine ⟨positionSeq, ?_⟩
  unfold positions waiting
  rw [← hlogs.activeTrade_eq] at hactive ⊢
  have hrecords : s₁.records = s.records := hlogs.records_eq.trans (List.append_nil _)
  rw [← hrecords]
  cases held with
  | none =>
    -- without a trade nothing waits, so the recorded row is the last
    have hnone : s₁.activeTrade = none := Option.isSome_eq_false_iff.1 hactive |>
      Option.isNone_iff_eq_none.1
    have hrow := record_eq_ok h
    rw [hrow.records_eq, hrow.activeTrade_eq, hnone, positionRows_append]
    exact (List.append_nil _).trans (congrArg (· ++ _) (List.append_nil _).symm)
  | some position =>
    -- the row waits behind the others of the trade
    obtain ⟨active, hsome⟩ := Option.isSome_iff_exists.1 hactive
    rw [hsome] at h ⊢
    simp only [set_apply, EStateM.Result.ok.injEq] at h
    obtain ⟨-, rfl⟩ := h
    exact (List.append_assoc _ _ _).symm

/-- **The close of a bar** adds one row to each table, and these agree. -/
theorem stepClose_positions {exact : Prop} {held : Option Position} {answer : StrategyAnswer}
    (hcoherent : Coherent input exact held s) (h : stepClose input candle answer s = .ok ⟨⟩ s') :
    ∃ position row, positions s' = positions s ++ [position] ∧
      portfolioRows s'.records = portfolioRows s.records ++ [row] ∧ SameBar position row := by
  unfold stepClose markGrid at h
  simp only [bind_eq_ok] at h
  obtain ⟨_, s₁, hindicators, _, s₄, ⟨_, s₂, hmark, _, s₃, hposition, hportfolio⟩, hanswer⟩ := h
  obtain ⟨h₁, -⟩ := updateIndicators_offGrid hindicators
  obtain ⟨h₂, -⟩ := markPosition_offGrid hmark
  obtain ⟨h₃, -⟩ := recordPosition_offGrid hposition
  -- the series
  obtain ⟨hcoherent₁, hshelves₁⟩ : Coherent input exact held s₁ ∧ Shelves s s₁ := by
    obtain ⟨board, rows, -, hsnapshots, hlogs⟩ := updateIndicators_eq_ok hindicators
    have hsnapshot : ∀ row ∈ rows, Genuine input row ∧ positionRow? row = none := by
      refine forall_of_forall₂ hsnapshots ?_
      rintro _ _ ⟨_, _, rfl, -⟩
      exact ⟨trivial, rfl⟩
    have hboard : Coherent input exact held { s with board := board } :=
      hcoherent.of_same rfl rfl rfl SameEntry.refl Option.map_id'.symm fun row hrow => .inl hrow
    have hshelved : Shelves s { s with board := board } := .of_waiting rfl rfl
    exact ⟨(hboard.keeps_logs hlogs fun row hrow => (hsnapshot row hrow).1).coherent,
      hshelved.trans (.of_logs hlogs fun row hrow => (hsnapshot row hrow).2)⟩
  -- the mark
  obtain ⟨held₂, hcoherent₂⟩ := markPosition_coherent hcoherent₁ hmark
  have hshelves₂ : Shelves s₁ s₂ := by
    obtain ⟨_, -, ⟨-, rfl⟩ | ⟨_, _, _, -, -, -, tracks, htracks, rfl⟩⟩ := markPosition_eq_ok hmark
    · exact .refl _
    · refine .of_waiting rfl ?_
      unfold waiting
      show ((s₁.activeTrade.map tracks).map _).getD [] = _
      rw [Option.map_map]
      congr 1
      refine Option.map_congr fun active _ => ?_
      obtain ⟨_, _, htrack⟩ := htracks active
      unfold Function.comp
      rw [htrack]
  -- the two rows
  obtain ⟨positionSeq, hrow⟩ := recordPosition_positions hcoherent₂.files.positionOf_eq
    hcoherent₂.activeTrade_isSome hposition
  obtain ⟨equitySeq, held₃, hheld₃, hlogs⟩ := recordPortfolio_run hportfolio
  obtain rfl : held₂ = held₃ := by
    have hbook : s₃.book = s₂.book := by
      obtain ⟨_, -, ⟨_, -, -, hlogs⟩ | ⟨-, hlogs⟩⟩ :=
        recordPosition_eq_ok hcoherent₂.files.positionOf_eq hposition <;> exact hlogs.book_eq
    rw [hbook, hcoherent₂.files.positionOf_eq] at hheld₃
    exact Except.ok.inj hheld₃
  rw [hshelves₂, hshelves₁] at hrow
  have hrows := congrArg portfolioRows hlogs.records_eq
  have hbefore : portfolioRows (withPoint s₃ candle.closeTime (recompute s₃.cash held₂)).records =
      portfolioRows s.records := h₃.rows_eq.trans (h₂.rows_eq.trans h₁.rows_eq)
  rw [portfolioRows_append, hbefore] at hrows
  -- the answer of the strategy
  have hheld₄ : positionOf input s₄.book = .ok held₂ := by
    rw [hlogs.book_eq]
    exact hheld₃
  have hanswered := handleAnswer_offGrid hheld₄ hanswer
  have hshelves₄ : Shelves s₄ s' := by
    obtain ⟨orders, -, rows, hclerical, hnotes⟩ := handleAnswer_eq_ok hheld₄ hanswer
    have hqueued : Shelves s₄ (queued s₄ orders) := .of_waiting rfl rfl
    refine hqueued.trans (.of_logs hnotes fun row hrow => ?_)
    have hkind := hclerical row hrow
    cases row <;> first | rfl | cases hkind
  have hpositions : positions s' = positions s₃ := (shelves_point hlogs).trans hshelves₄
  exact ⟨_, _, hpositions.trans hrow, hanswered.rows_eq.trans hrows,
    sameBar_rows hcoherent₂.activeTrade_isSome⟩

/-! ### Whole runs -/

variable {state state' : RunState} {phase phase' : Phase}

/-- The rows of the bars: without the last row of the equity table when a run has finished. -/
def barRows : Phase → List PortfolioRow → List PortfolioRow
  | .finished, rows => rows.dropLast
  | _, rows => rows

/-- **The invariant**: position rows and bars side by side. -/
def SideBySide (state : RunState) : Prop :=
  List.Forall₂ SameBar (positions state.2) (barRows state.1 (portfolioRows state.2.records))

theorem SideBySide.shelves (h : SideBySide (phase, s))
    (hphase : ∀ rows, barRows phase' rows = barRows phase rows) (hshelves : Shelves s s')
    (hoff : OffGrid s s') : SideBySide (phase', s') := by
  show List.Forall₂ SameBar (positions s') (barRows phase' (portfolioRows s'.records))
  rw [hphase, hshelves, hoff.rows_eq]
  exact h

theorem sideBySide_of_isStart (h : IsStart input state) : SideBySide state := by
  obtain ⟨cash, first, rest, -, -, hphase, hprepare⟩ := h
  obtain ⟨phase, s⟩ := state
  cases hphase
  obtain ⟨board, rows, hrows, ⟨sequence, hstate⟩, -⟩ := prepare_eq_ok hprepare
  have hrecords : s.records = rows := congrArg EngineState.records hstate
  have hactive : s.activeTrade = none := congrArg EngineState.activeTrade hstate
  have hpositions : positions s = [] := by
    unfold positions waiting
    rw [hrecords, hactive, positionRows_eq_nil]
    · rfl
    · intro row hrow
      obtain ⟨definition, rfl⟩ := hrows row hrow
      rfl
  have hportfolio : portfolioRows s.records = [] := by
    rw [hrecords]
    refine portfolioRows_eq_nil fun row hrow => ?_
    obtain ⟨definition, rfl⟩ := hrows row hrow
    rfl
  show List.Forall₂ SameBar (positions s) (portfolioRows s.records)
  rw [hpositions, hportfolio]
  exact .nil

/-- The end of a run adds its last row to the equity table, and no position row. -/
theorem finalize_positions (h : finalize input candle s = .ok ⟨⟩ s') :
    Shelves s s' ∧ ∃ row, portfolioRows s'.records = portfolioRows s.records ++ [row] := by
  obtain ⟨held, s₁, -, hterminal, hclose⟩ := finalize_eq_ok h
  obtain ⟨_, _, hlogs⟩ := recordTerminalEquity_run hterminal
  obtain ⟨hshelves, hoff⟩ : Shelves s s₁ ∧ OffGrid s s₁ := by
    rcases hclose with ⟨-, rfl⟩ | ⟨position, -, hclose⟩
    · exact ⟨.refl _, .refl _⟩
    · exact ⟨closeAtTerminal_shelves hclose, closeAtTerminal_offGrid hclose⟩
  have hrows := congrArg portfolioRows hlogs.records_eq
  rw [portfolioRows_append] at hrows
  refine ⟨hshelves.trans (shelves_point hlogs), ?_⟩
  rw [← hoff.rows_eq]
  exact ⟨_, hrows⟩

/-- **One step** keeps them side by side. -/
theorem sideBySide_step (hinv : Inv input False state) (h : SideBySide state)
    (hstep : (system input).step state state') : SideBySide state' := by
  obtain ⟨phase, s⟩ := state
  obtain ⟨phase', s'⟩ := state'
  -- only the close of a bar adds a point, and it adds one to both
  cases phaseStep_of_stepPhase hstep with
  | @beforeOpen bar s s₁ hrun =>
    have hshelved : Shelves s₁ { s₁ with pending := [] } := .of_waiting rfl rfl
    have htaken : OffGrid s₁ { s₁ with pending := [] } := .of_eq rfl rfl rfl rfl
    exact h.shelves (fun _ => rfl) ((settleAtBoundary_shelves hrun).trans hshelved)
      ((settleAtBoundary_offGrid hrun).trans htaken)
  | carried => exact h
  | carrying hrun =>
    exact h.shelves (fun _ => rfl) (executePending_shelves hrun) (executePending_offGrid hrun)
  | settled => exact h
  | settling hrun =>
    exact h.shelves (fun _ => rfl) (settleAtBoundary_shelves hrun) (settleAtBoundary_offGrid hrun)
  | protecting hrun => exact h.shelves (fun _ => rfl) (protect_shelves hrun) (protect_offGrid hrun)
  | @beforeClose bar s s' hrun =>
    obtain ⟨held, hcoherent, -⟩ := hinv
    obtain ⟨position, row, hposition, hrow, hsame⟩ := stepClose_positions hcoherent hrun
    show List.Forall₂ SameBar (positions s') (portfolioRows s'.records)
    rw [hposition, hrow]
    exact List.rel_append h (.cons hsame .nil)
  | @finalize index candle s s' hrun =>
    -- the row at the end of the run has no position beside it
    obtain ⟨hshelves, row, hrow⟩ := finalize_positions hrun
    show List.Forall₂ SameBar (positions s') (portfolioRows s'.records).dropLast
    rw [hshelves, hrow, List.dropLast_concat]
    exact h
  | betweenBars hrun =>
    exact h.shelves (fun _ => rfl) (betweenBars_shelves hrun) (betweenBars_offGrid hrun)

open TransitionSystem

theorem sideBySide_of_reachable (h : (system input).Reachable state) : SideBySide state := by
  have hboth := h.invariant (I := fun state => Inv input False state ∧ SideBySide state)
    (fun _ hstart => ⟨inv_of_isStart hstart, sideBySide_of_isStart hstart⟩)
    (fun _ _ h hstep => ⟨inv_step h.1 (by simp) hstep, sideBySide_step h.1 h.2 hstep⟩)
  exact hboth.2

/-- When a run has ended, the position rows are those of the bars of its evaluation. -/
theorem positions_ts_of_finished (h : (system input).Reachable state)
    (hfinished : state.1 = .finished) :
    (positions state.2).map (·.ts) = input.evaluation.map (·.closeTime) := by
  have hside := sideBySide_of_reachable h
  obtain ⟨hcurve, -, done, hdone, hgrid⟩ := gridded_of_reachable h
  obtain ⟨phase, s⟩ := state
  cases hfinished
  obtain rfl : done = input.evaluation := hdone
  have htimes : ∀ {held : List PositionRow} {rows : List PortfolioRow},
      List.Forall₂ SameBar held rows → held.map (·.ts) = rows.map (·.ts) := by
    intro held rows hrows
    induction hrows with
    | nil => rfl
    | cons hhead _ ih => rw [List.map_cons, List.map_cons, hhead.ts_eq, ih]
  have hrows : (portfolioRows s.records).map (·.ts) = gridOf input.evaluation .finished := by
    rw [← hgrid]
    show _ = s.equityCurve.map Prod.fst
    rw [hcurve.curve_eq, List.map_map]
    rfl
  -- the last row of the equity table has no bar
  rw [htimes hside]
  show ((portfolioRows s.records).dropLast).map (·.ts) = _
  rw [List.map_dropLast, hrows]
  unfold gridOf
  cases hlast : input.evaluation.getLast? with
  | none =>
    rw [List.getLast?_eq_none_iff.1 hlast]
    rfl
  | some last => exact List.dropLast_concat

/-- **The position rows of every run**: recorded or waiting with the open trade, they stand
beside the rows of the bars in the equity table, and agree with them. When the run has ended,
they are all recorded exactly if none is left waiting. -/
theorem positionRows_of_reachable (h : (system input).Reachable state) :
    List.Forall₂ SameBar (positionRows state.2.records ++ waiting state.2)
        (barRows state.1 (portfolioRows state.2.records)) ∧
      (state.1 = .finished →
        ((positionRows state.2.records).map (·.ts) = input.evaluation.map (·.closeTime) ↔
          waiting state.2 = [])) := by
  refine ⟨sideBySide_of_reachable h, fun hfinished => ?_⟩
  have htimes := positions_ts_of_finished h hfinished
  unfold positions at htimes
  rw [← htimes, List.map_append]
  constructor
  · intro heq
    have hnil := List.self_eq_append_right.1 heq
    exact List.map_eq_nil_iff.1 hnil
  · intro hnil
    rw [hnil]
    exact (List.append_nil _).symm

/-- Whether a run has ended with a trade and no position row left waiting. -/
def endedRecorded (state : RunState) : Bool :=
  endedWithTrade state && (waiting state.2).isEmpty

theorem positionRows_of_four_hours : ∃ state : RunState, endedRecorded state = true ∧
    (positionRows state.2.records).map (·.ts) =
      (twoDollarRun 100000 (Binary64.ofRat 100) hundredThousand_pos).evaluation.map
        (·.closeTime) := by
  obtain ⟨state, hstate, hended⟩ := exists_of_simulated
    (twoDollarRun 100000 (Binary64.ofRat 100) hundredThousand_pos) (fun _ => true) 26
    endedRecorded (by decide +kernel)
  obtain ⟨htrade, hwaiting⟩ := (Bool.and_eq_true _ _).mp hended
  exact ⟨state, hended, ((positionRows_of_reachable (reachable_of_simulated hstate)).2
    (finished_of_endedWithTrade htrade)).2 (List.isEmpty_iff.1 hwaiting)⟩

end Engine
end TradingSystem
