import TradingSystem.Engine.Moves

/-!
# The indicators of a run

A run reads candles into its series whatever it trades. `IndicatorTrack` is the part of the
engine's state this concerns: the board, the snapshot counter and the INDICATOR_SNAPSHOT
rows. `trackBar` is what one bar does to it, and everything else of a run leaves it alone.

* `unwatched_trackOf` — trading leaves it alone.
* `trackOf_stepClose` — a bar's close is `trackBar`.
-/

namespace TradingSystem

open Numeric Logic

/-- What a run knows and has recorded of its series. -/
structure IndicatorTrack where
  board : SeriesBoard
  snapshotSeq : ℕ
  snapshots : List IndicatorSnapshotRow

namespace Engine

/-- The indicator part of the engine's state. -/
def trackOf (s : EngineState) : IndicatorTrack where
  board := s.board
  snapshotSeq := s.sequence .indicatorSnapshot
  snapshots := s.records.filterMap snapshotRow?

variable {input : RunInput}

/-! ### Trading -/

/-- Trading is not watched by the indicators. -/
instance unwatched_trackOf : Unwatched (SameView trackOf) where
  next s counter h := by
    have hsequence : Function.update s.sequence counter (s.sequence counter + 1)
        .indicatorSnapshot = s.sequence .indicatorSnapshot := Function.update_of_ne h.symm _ _
    change IndicatorTrack.mk s.board (Function.update s.sequence counter (s.sequence counter + 1)
      .indicatorSnapshot) _ = _
    rw [hsequence]
    rfl
  record s row h := by
    change IndicatorTrack.mk s.board _ ((s.records ++ [row]).filterMap snapshotRow?) = _
    rw [List.filterMap_append, List.filterMap_cons_none h, List.filterMap_nil, List.append_nil]
    rfl
  trading hsequence hrecords hboard := by
    unfold SameView trackOf
    rw [hsequence, hrecords, hboard]

theorem frames_settleAtBoundary {boundary : ℤ} :
    Frames trackOf (settleAtBoundary input boundary) :=
  frames_iff_moves.2 moves_settleAtBoundary

theorem frames_takePending : Frames trackOf takePending := frames_iff_moves.2 moves_takePending

theorem frames_executePending {candle : Candle} {pending : PendingOrder} :
    Frames trackOf (executePending input candle pending) :=
  frames_iff_moves.2 moves_executePending

theorem frames_protect {candle : Candle} : Frames trackOf (protect input candle) :=
  frames_iff_moves.2 moves_protect

theorem frames_markGrid {candle : Candle} : Frames trackOf (markGrid input candle) :=
  frames_iff_moves.2 moves_markGrid

theorem frames_handleAnswer {candle : Candle} {answer : StrategyAnswer} :
    Frames trackOf (handleAnswer input candle answer) :=
  frames_iff_moves.2 moves_handleAnswer

theorem frames_betweenBars {candle following : Candle} :
    Frames trackOf (betweenBars input candle following) :=
  frames_iff_moves.2 moves_betweenBars

theorem frames_finalize {last : Candle} : Frames trackOf (finalize input last) :=
  frames_iff_moves.2 moves_finalize

/-! ### The indicators on their own -/

/-- What a run starts from. -/
def initialTrack (setup : SeriesSetup) : IndicatorTrack where
  board := SeriesBoard.initial setup
  snapshotSeq := 0
  snapshots := []

/-- Run a program of the board. -/
def onBoard {α : Type} (m : Program Fault SeriesBoard α) : Program Fault IndicatorTrack α :=
  zoom IndicatorTrack.board (fun board track => { track with board := board }) m

/-- Record the published value of one series. -/
def trackSnapshot (spec : ResolvedSeriesSpec) : Program Fault IndicatorTrack PUnit := do
  let published ← onBoard (SeriesBoard.published spec)
  modify fun track => { track with
    snapshotSeq := track.snapshotSeq + 1
    snapshots := track.snapshots ++ [{
      snapshotSeq := track.snapshotSeq + 1
      indicatorKey := spec.key
      candleOpenTime := published.2.openTime
      candleCloseTime := published.2.closeTime
      value := published.1 }] }

/-- One bar: advance the series, then record each of them. -/
def trackBar (setup : SeriesSetup) (candle : Candle) : Program Fault IndicatorTrack PUnit := do
  onBoard (SeriesBoard.advance setup candle)
  forEach setup.specs trackSnapshot

/-- The indicators of a run over some bars: warm-up, then the bars. -/
def trackRun (setup : SeriesSetup) (bars : List Candle) : Program Fault IndicatorTrack PUnit := do
  onBoard (SeriesBoard.preload setup)
  forEach bars (trackBar setup)

theorem simulates_recordSnapshot (spec : ResolvedSeriesSpec) :
    Simulates trackOf (recordSnapshot input spec) (trackSnapshot spec) := by
  refine Simulates.bind (simulates_zoom (fun _ => rfl) fun _ _ => rfl) fun published => ?_
  intro s a s' h
  have hsequence : Function.update s.sequence .indicatorSnapshot
      (s.sequence .indicatorSnapshot + 1) .indicatorSnapshot =
        s.sequence .indicatorSnapshot + 1 := Function.update_self ..
  rw [bind_eq_ok] at h
  obtain ⟨_, _, hnext, hrecord⟩ := h
  cases hnext
  -- the sink took the row, or there were no normal end
  unfold record at hrecord
  simp only [get_bind_apply, bind_eq_ok, runPure_eq_ok] at hrecord
  obtain ⟨_, _, ⟨-, rfl⟩, hwrite⟩ := hrecord
  cases hwrite
  change _ = EStateM.Result.ok PUnit.unit (IndicatorTrack.mk s.board
    (Function.update s.sequence .indicatorSnapshot
      (s.sequence .indicatorSnapshot + 1) .indicatorSnapshot)
    ((s.records ++ [_]).filterMap snapshotRow?))
  rw [List.filterMap_append]
  simp only [hsequence]
  rfl

theorem simulates_updateIndicators (candle : Candle) :
    Simulates trackOf (updateIndicators input candle) (trackBar input.series candle) :=
  Simulates.bind (simulates_zoom (fun _ => rfl) fun _ _ => rfl) fun _ =>
    simulates_forEach simulates_recordSnapshot

/-- The close of a bar up to the strategy's turn: `step_close` before `analyze`. -/
def presentBar (input : RunInput) (candle : Candle) : EngineProgram PUnit := do
  updateIndicators input candle
  markGrid input candle

/-- **Refinement.** What a bar shows the strategy comes from `trackBar`. -/
theorem trackOf_presentBar {candle : Candle} {s s' : EngineState}
    (h : presentBar input candle s = .ok ⟨⟩ s') :
    trackBar input.series candle (trackOf s) = .ok ⟨⟩ (trackOf s') := by
  unfold presentBar at h
  rw [bind_eq_ok] at h
  obtain ⟨_, s₁, hupdate, hmark⟩ := h
  rw [frames_markGrid.of_ok hmark]
  exact simulates_updateIndicators candle s _ s₁ hupdate

theorem trackOf_stepClose {candle : Candle} {answer : StrategyAnswer} {s s' : EngineState}
    (h : stepClose input candle answer s = .ok ⟨⟩ s') :
    trackBar input.series candle (trackOf s) = .ok ⟨⟩ (trackOf s') := by
  unfold stepClose at h
  simp only [bind_eq_ok] at h
  obtain ⟨_, s₁, hupdate, _, s₂, hmark, hanswer⟩ := h
  rw [frames_handleAnswer.of_ok hanswer]
  refine trackOf_presentBar ?_
  unfold presentBar
  rw [bind_eq_ok]
  exact ⟨⟨⟩, s₁, hupdate, hmark⟩

/-! ### Runs -/

/-- The bars whose close a run has performed in a phase. -/
def BarsDone (input : RunInput) (done : List Candle) : Phase → Prop
  | .afterClose bar =>
    ∃ before, done = before ++ [bar.candle] ∧ input.evaluation = done ++ bar.rest
  | .finished => done = input.evaluation
  | .beforeOpen bar | .carrying bar _ | .settling bar _ | .protecting bar | .beforeClose bar =>
    input.evaluation = done ++ bar.candle :: bar.rest

/-- The indicators of a run are those of `trackRun` over the bars done. -/
def Tracked (input : RunInput) (state : RunState) : Prop :=
  ∃ done, BarsDone input done state.1 ∧
    trackRun input.series done (initialTrack input.series) = .ok ⟨⟩ (trackOf state.2)

theorem trackRun_append {setup : SeriesSetup} {bars : List Candle} {candle : Candle}
    {track track' : IndicatorTrack}
    (h : trackRun setup bars (initialTrack setup) = .ok ⟨⟩ track)
    (hbar : trackBar setup candle track = .ok ⟨⟩ track') :
    trackRun setup (bars ++ [candle]) (initialTrack setup) = .ok ⟨⟩ track' := by
  unfold trackRun at h ⊢
  rw [bind_eq_ok] at h ⊢
  obtain ⟨_, warmed, hwarm, hbars⟩ := h
  refine ⟨⟨⟩, warmed, hwarm, ?_⟩
  rw [forEach_append, bind_eq_ok]
  refine ⟨⟨⟩, track, hbars, ?_⟩
  rw [forEach_cons, bind_eq_ok]
  exact ⟨⟨⟩, track', hbar, rfl⟩

theorem tracked_of_isStart {state : RunState} (h : IsStart input state) : Tracked input state := by
  obtain ⟨cash, first, rest, -, hevaluation, hphase, hprepare⟩ := h
  refine ⟨[], ?_, ?_⟩
  · rw [hphase]
    exact hevaluation
  · unfold prepare at hprepare
    rw [bind_eq_ok] at hprepare
    obtain ⟨_, s₁, hdefinitions, hpreload⟩ := hprepare
    have hframe : Frames trackOf (recordDefinitions input) :=
      frames_iff_moves.2 (moves_forEach fun _ => moves_record (by rfl))
    have hsim : Simulates trackOf (zoom EngineState.board
        (fun board state => { state with board := board }) (SeriesBoard.preload input.series))
        (onBoard (SeriesBoard.preload input.series)) :=
      simulates_zoom (fun _ => rfl) fun _ _ => rfl
    have hrun := hsim s₁ _ _ hpreload
    rw [hframe.of_ok hdefinitions] at hrun
    unfold trackRun
    rw [bind_eq_ok]
    exact ⟨⟨⟩, _, hrun, rfl⟩

/-- One step of a run. -/
theorem tracked_step {phase phase' : Phase} {s s' : EngineState}
    (h : Tracked input (phase, s)) (hstep : stepPhase input phase s = .ok phase' s') :
    Tracked input (phase', s') := by
  obtain ⟨done, hdone, hrun⟩ := h
  cases phase with
  | beforeOpen bar =>
    simp only [stepPhase, bind_eq_ok, pure_apply] at hstep
    obtain ⟨_, s₁, h₁, carried, s₂, h₂, hpure⟩ := hstep
    cases hpure
    refine ⟨done, hdone, ?_⟩
    rw [frames_takePending.of_ok h₂, frames_settleAtBoundary.of_ok h₁]
    exact hrun
  | carrying bar orders =>
    cases orders with
    | nil =>
      simp only [stepPhase, bind_eq_ok, pure_apply, runPure_eq_ok] at hstep
      obtain ⟨boundaries, s₁, ⟨-, rfl⟩, hpure⟩ := hstep
      cases hpure
      exact ⟨done, hdone, hrun⟩
    | cons pending orders =>
      simp only [stepPhase, bind_eq_ok, pure_apply] at hstep
      obtain ⟨_, s₁, h₁, hpure⟩ := hstep
      cases hpure
      refine ⟨done, hdone, ?_⟩
      rw [frames_executePending.of_ok h₁]
      exact hrun
  | settling bar boundaries =>
    cases boundaries with
    | nil =>
      cases hstep
      exact ⟨done, hdone, hrun⟩
    | cons boundary boundaries =>
      simp only [stepPhase, bind_eq_ok, pure_apply] at hstep
      obtain ⟨_, s₁, h₁, hpure⟩ := hstep
      cases hpure
      refine ⟨done, hdone, ?_⟩
      rw [frames_settleAtBoundary.of_ok h₁]
      exact hrun
  | protecting bar =>
    simp only [stepPhase, bind_eq_ok, pure_apply] at hstep
    obtain ⟨_, s₁, h₁, hpure⟩ := hstep
    cases hpure
    refine ⟨done, hdone, ?_⟩
    rw [frames_protect.of_ok h₁]
    exact hrun
  | beforeClose bar =>
    -- the only step that moves the indicators
    simp only [stepPhase, bind_eq_ok, pure_apply] at hstep
    obtain ⟨_, s₁, h₁, hpure⟩ := hstep
    cases hpure
    refine ⟨done ++ [bar.candle], ⟨done, rfl, ?_⟩, trackRun_append hrun (trackOf_stepClose h₁)⟩
    rw [List.append_assoc]
    exact hdone
  | afterClose bar =>
    obtain ⟨index, candle, rest⟩ := bar
    obtain ⟨before, -, hevaluation⟩ := hdone
    cases rest with
    | nil =>
      simp only [stepPhase, bind_eq_ok, pure_apply] at hstep
      obtain ⟨_, s₁, h₁, hpure⟩ := hstep
      cases hpure
      refine ⟨done, ?_, ?_⟩
      · rw [List.append_nil] at hevaluation
        exact hevaluation.symm
      · rw [frames_finalize.of_ok h₁]
        exact hrun
    | cons following rest =>
      simp only [stepPhase, bind_eq_ok, pure_apply] at hstep
      obtain ⟨_, s₁, h₁, hpure⟩ := hstep
      cases hpure
      refine ⟨done, hevaluation, ?_⟩
      rw [frames_betweenBars.of_ok h₁]
      exact hrun
  | finished => cases hstep

/-- **The indicators of every reachable state** are those of the bars done. -/
theorem tracked_of_reachable {state : RunState} (h : (system input).Reachable state) :
    Tracked input state :=
  TransitionSystem.Reachable.invariant (fun _ => tracked_of_isStart)
    (fun _ _ htracked hstep => tracked_step htracked hstep) h

end Engine
end TradingSystem
