import TradingSystem.Engine.Indicators
import TradingSystem.Engine.Simulation
import TradingSystem.Engine.Timeline
import TradingSystem.Series.History

/-!
# No look-ahead in a run

Two runs of one configuration over feeds that agree up to an instant show the strategy the
same indicators at every bar that closes by the instant, and have recorded the same
snapshots. The board programs of the two runs are equal there (`SeriesBoard.advance_eq`), and
the indicators of a run depend on nothing else (`tracked_of_reachable`).

* `Analyzed` — a run shows the strategy a bar.
* `noLookahead` — the comparison of two runs, and the order in which a run feeds its series.
-/

namespace TradingSystem
namespace Engine

open Numeric Logic

/-! ### Feeds -/

/-- **What a feed returns** up to the end of a run: the candles of each stream, which the
engine accepts only in strictly increasing order. -/
structure HistoryFeed where
  candles : String → Timeframe → List Candle
  increasing : ∀ symbol timeframe, Increasing (candles symbol timeframe)
  stream_eq : ∀ symbol timeframe, ∀ candle ∈ candles symbol timeframe,
    candle.symbol = symbol ∧ candle.timeframe = timeframe

/-- Two feeds with the same candles up to an instant. -/
def HistoryFeed.AgreeUpTo (instant : ℤ) (feed feed' : HistoryFeed) : Prop :=
  ∀ symbol timeframe,
    upTo instant (feed.candles symbol timeframe) = upTo instant (feed'.candles symbol timeframe)

theorem HistoryFeed.byClose (feed : HistoryFeed) (symbol : String) (timeframe : Timeframe) :
    ByClose (feed.candles symbol timeframe) := by
  refine (feed.increasing symbol timeframe).imp_of_mem fun {left right} hleft hright hlt => ?_
  rw [left.closeTime_eq, right.closeTime_eq, (feed.stream_eq symbol timeframe left hleft).2,
    (feed.stream_eq symbol timeframe right hright).2]
  omega

/-- **The engine's reads of a feed.** The resolution of the series keeps one of each key. -/
structure ReadsFrom (input : RunInput) (reference : Option String) (feed : HistoryFeed) :
    Prop where
  history : input.history = feed.candles input.config.symbol input.config.timeframe
  symbol : input.series.symbol = input.config.symbol
  timeframe : input.series.timeframe = input.config.timeframe
  start : input.series.start = input.config.start
  histories : ∀ timeframe,
    input.series.histories timeframe = feed.candles input.config.symbol timeframe
  references : ∀ timeframe, input.series.references timeframe =
    match reference with
    | some symbol => feed.candles symbol timeframe
    | none => []
  keys : SeriesBoard.KeysDistinct input.series

/-- Two runs of one configuration and one set of series. -/
structure SameRun (input input' : RunInput) : Prop where
  config : input.config = input'.config
  specs : input.series.specs = input'.series.specs
  warmup : input.series.warmup = input'.series.warmup

variable {input input' : RunInput} {reference : Option String} {feed feed' : HistoryFeed}
  {instant : ℤ} {candle : Candle}

theorem ReadsFrom.ordered (h : ReadsFrom input reference feed) : input.series.Ordered := by
  refine ⟨fun timeframe => ?_, fun timeframe => ?_⟩
  · rw [h.histories]
    exact feed.byClose _ _
  · rw [h.references]
    cases reference with
    | none => exact List.Pairwise.nil
    | some symbol => exact feed.byClose _ _

theorem ReadsFrom.agree (h : ReadsFrom input reference feed) (h' : ReadsFrom input' reference feed')
    (hsame : SameRun input input') (hagree : feed.AgreeUpTo instant feed') :
    input.series.AgreeUpTo instant input'.series := by
  refine ⟨?_, ?_, ?_, hsame.specs, hsame.warmup, fun timeframe => ?_, fun timeframe => ?_⟩
  · rw [h.symbol, h'.symbol, hsame.config]
  · rw [h.timeframe, h'.timeframe, hsame.config]
  · rw [h.start, h'.start, hsame.config]
  · rw [h.histories, h'.histories, hsame.config]
    exact hagree _ _
  · rw [h.references, h'.references]
    cases reference with
    | none => rfl
    | some symbol => exact hagree _ _

/-! ### Bars -/

theorem evaluation_byClose : ByClose input.evaluation := by
  refine evaluation_increasing.imp_of_mem fun {left right} hleft hright hlt => ?_
  rw [history_closeTime (mem_evaluation.1 hleft).1, history_closeTime (mem_evaluation.1 hright).1]
  omega

/-- The bars before one of them are those that close earlier. -/
theorem done_eq_filter {done rest : List Candle} (h : input.evaluation = done ++ candle :: rest) :
    done = input.evaluation.filter fun bar => decide (bar.closeTime < candle.closeTime) := by
  have hordered : ByClose input.evaluation := evaluation_byClose
  unfold ByClose at hordered
  rw [h, List.pairwise_append, List.pairwise_cons] at hordered
  obtain ⟨-, ⟨hrest, -⟩, hdone⟩ := hordered
  have hbefore : done.filter (fun bar => decide (bar.closeTime < candle.closeTime)) = done := by
    rw [List.filter_eq_self]
    intro bar hbar
    rw [decide_eq_true_eq]
    exact hdone bar hbar candle (List.mem_cons_self ..)
  have hafter : (candle :: rest).filter (fun bar => decide (bar.closeTime < candle.closeTime)) =
      [] := by
    rw [List.filter_eq_nil_iff]
    intro bar hbar
    rw [decide_eq_true_eq, not_lt]
    rcases List.mem_cons.1 hbar with rfl | hbar
    · exact le_rfl
    · exact (hrest bar hbar).le
  rw [h, List.filter_append, hbefore, hafter, List.append_nil]

/-- The bars that close before an instant are the same in both runs. -/
theorem evaluation_filter_eq (h : ReadsFrom input reference feed)
    (h' : ReadsFrom input' reference feed') (hsame : SameRun input input')
    (hagree : feed.AgreeUpTo instant feed') {close : ℤ} (hle : close ≤ instant) :
    (input.evaluation.filter fun bar => decide (bar.closeTime < close)) =
      input'.evaluation.filter fun bar => decide (bar.closeTime < close) := by
  have hcut : ∀ (candles : List Candle) (start stop : ℤ),
      (candles.filter fun bar => decide (start ≤ bar.openTime ∧ bar.closeTime ≤ stop)).filter
        (fun bar => decide (bar.closeTime < close)) =
      ((upTo instant candles).filter
        fun bar => decide (start ≤ bar.openTime ∧ bar.closeTime ≤ stop)).filter
          fun bar => decide (bar.closeTime < close) := by
    intro candles start stop
    unfold upTo
    rw [List.filter_filter, List.filter_filter, List.filter_filter]
    refine List.filter_congr fun bar _ => ?_
    by_cases hlt : bar.closeTime < close
    · have hin : bar.closeTime ≤ instant := by omega
      simp [hlt, hin]
    · simp [hlt]
  unfold RunInput.evaluation
  rw [hcut input.history, hcut input'.history, h.history, h'.history, hsame.config, hagree]

/-- **A run shows the strategy a bar**, in this state: everything of the bar before `analyze`
has been done. -/
def Analyzed (input : RunInput) (candle : Candle) (s : EngineState) : Prop :=
  ∃ bar before, (system input).Reachable (.beforeClose bar, before) ∧ bar.candle = candle ∧
    presentBar input candle before = .ok ⟨⟩ s

/-- The indicators `analyze` is given. -/
def indicatorMap (input : RunInput) (s : EngineState) : List (SeriesKey × SeriesValue) :=
  s.board.features input.series.specs

/-- The INDICATOR_SNAPSHOT rows recorded so far. -/
def snapshotsOf (s : EngineState) : List IndicatorSnapshotRow :=
  (trackOf s).snapshots

variable {s s' : EngineState}

/-- The indicators of an analyzed bar are those of the bars up to it. -/
theorem Analyzed.tracked (h : Analyzed input candle s) :
    candle ∈ input.evaluation ∧
    trackRun input.series ((input.evaluation.filter fun bar =>
      decide (bar.closeTime < candle.closeTime)) ++ [candle]) (initialTrack input.series) =
        .ok ⟨⟩ (trackOf s) := by
  obtain ⟨bar, before, hreach, rfl, hpresent⟩ := h
  obtain ⟨done, hdone, hrun⟩ := tracked_of_reachable hreach
  change input.evaluation = done ++ bar.candle :: bar.rest at hdone
  refine ⟨by rw [hdone]; simp, ?_⟩
  rw [← done_eq_filter hdone]
  exact trackRun_append hrun (trackOf_presentBar hpresent)

/-- **The two runs agree** on the indicators of a bar that closes by the instant. -/
theorem trackOf_eq (h : ReadsFrom input reference feed) (h' : ReadsFrom input' reference feed')
    (hsame : SameRun input input') (hagree : feed.AgreeUpTo instant feed')
    (hle : candle.closeTime ≤ instant) (hs : Analyzed input candle s)
    (hs' : Analyzed input' candle s') : trackOf s = trackOf s' := by
  obtain ⟨hmem, hrun⟩ := hs.tracked
  obtain ⟨-, hrun'⟩ := hs'.tracked
  have hsetup := h.agree h' hsame hagree
  have hstart : input.series.start ≤ instant := by
    have hopen := (mem_evaluation.1 hmem).2.1
    have hclose := candle.openTime_lt_closeTime
    rw [h.start]
    omega
  -- both runs have shown the strategy the same bars
  have hbars := evaluation_filter_eq h h' hsame hagree hle
  have hbar : ∀ bar ∈ (input'.evaluation.filter fun bar =>
      decide (bar.closeTime < candle.closeTime)) ++ [candle],
      trackBar input.series bar = trackBar input'.series bar := by
    intro bar hbar
    have hclosed : bar.closeTime ≤ instant := by
      rcases List.mem_append.1 hbar with hbar | hbar
      · have := (List.mem_filter.1 hbar).2
        rw [decide_eq_true_eq] at this
        omega
      · rw [List.mem_singleton.1 hbar]
        exact hle
    unfold trackBar
    rw [SeriesBoard.advance_eq hsetup h.ordered h'.ordered hclosed, hsame.specs]
  have hinitial : initialTrack input.series = initialTrack input'.series := by
    unfold initialTrack
    rw [SeriesBoard.initial_eq hsetup hstart]
  -- so both have run the same program from the same start
  have hprogram : trackRun input.series ((input'.evaluation.filter fun bar =>
      decide (bar.closeTime < candle.closeTime)) ++ [candle]) =
      trackRun input'.series ((input'.evaluation.filter fun bar =>
        decide (bar.closeTime < candle.closeTime)) ++ [candle]) := by
    unfold trackRun
    rw [SeriesBoard.preload_eq hsetup hstart, forEach_congr hbar]
  rw [hbars, hprogram, hinitial, hrun'] at hrun
  injection hrun with _ htrack
  exact htrack.symm

/-! ### The order of what is fed -/

/-- Recording does not move the board. -/
theorem board_of_snapshots {specs : List ResolvedSeriesSpec} {track track' : IndicatorTrack}
    (h : forEach specs trackSnapshot track = .ok ⟨⟩ track') : track'.board = track.board := by
  have hframe : ∀ spec, Frames IndicatorTrack.board (trackSnapshot spec) := by
    intro spec
    have hpublished : Frames (fun board : SeriesBoard => board) (SeriesBoard.published spec) := by
      refine frames_get.bind fun board => ?_
      split
      · exact frames_pure _
      · exact frames_throw _
    refine Frames.bind (fun track => ?_) fun _ => frames_modify (by intro s; rfl)
    have hkept := hpublished track.board
    unfold onBoard zoom
    cases hrun : SeriesBoard.published spec track.board with
    | ok found board =>
      rw [hrun] at hkept
      exact hkept
    | error fault board =>
      rw [hrun] at hkept
      exact hkept
  exact (frames_forEach hframe).of_ok h

/-- Everything fed to the series of a run is in order. -/
def FedInOrder (input : RunInput) (board : SeriesBoard) : Prop :=
  ∀ spec ∈ input.series.specs, (board.consumed spec.key).Pairwise fun earlier later =>
    earlier.1.closeTime < later.1.closeTime

/-- The bars of a run, one after the other. -/
theorem fed_bars {setup : SeriesSetup} (hordered : setup.Ordered)
    (hkeys : SeriesBoard.KeysDistinct setup) {bars : List Candle} {time : ℤ}
    {track track' : IndicatorTrack} (hfed : SeriesBoard.Fed setup time track.board)
    (hbars : ByClose bars) (hlater : ∀ bar ∈ bars, time < bar.closeTime)
    (h : forEach bars (trackBar setup) track = .ok ⟨⟩ track') :
    ∃ time', SeriesBoard.Fed setup time' track'.board := by
  induction bars generalizing time track with
  | nil =>
    cases h
    exact ⟨time, hfed⟩
  | cons bar bars ih =>
    unfold ByClose at hbars
    rw [List.pairwise_cons] at hbars
    rw [forEach_cons, bind_eq_ok] at h
    obtain ⟨_, track₁, hbar, hrest⟩ := h
    unfold trackBar at hbar
    rw [bind_eq_ok] at hbar
    obtain ⟨_, track₂, hadvance, hsnapshots⟩ := hbar
    unfold onBoard at hadvance
    rw [zoom_eq_ok] at hadvance
    obtain ⟨board, hadvance, rfl⟩ := hadvance
    have hnext := hfed.advance hordered hkeys (hlater bar (List.mem_cons_self ..)) hadvance
    -- the snapshots leave the board alone
    have hboard : track₁.board = board := board_of_snapshots hsnapshots
    rw [← hboard] at hnext
    exact ih hnext hbars.2 hbars.1 hrest

theorem fedInOrder_of_reachable (h : ReadsFrom input reference feed) {state : RunState}
    (hreach : (system input).Reachable state) : FedInOrder input state.2.board := by
  obtain ⟨done, hdone, hrun⟩ := tracked_of_reachable hreach
  -- in every phase the bars that are done begin the evaluation
  have hcommon : done <+: input.evaluation := by
    obtain ⟨phase, s⟩ := state
    cases phase with
    | afterClose bar =>
      obtain ⟨before, -, hevaluation⟩ := hdone
      exact ⟨_, hevaluation.symm⟩
    | finished =>
      change done = _ at hdone
      rw [hdone]
    | beforeOpen bar => exact ⟨_, Eq.symm hdone⟩
    | carrying bar orders => exact ⟨_, Eq.symm hdone⟩
    | settling bar boundaries => exact ⟨_, Eq.symm hdone⟩
    | protecting bar => exact ⟨_, Eq.symm hdone⟩
    | beforeClose bar => exact ⟨_, Eq.symm hdone⟩
  unfold trackRun at hrun
  rw [bind_eq_ok] at hrun
  obtain ⟨_, warmed, hwarm, hbars⟩ := hrun
  unfold onBoard at hwarm
  rw [zoom_eq_ok] at hwarm
  obtain ⟨board, hwarm, rfl⟩ := hwarm
  have hfed : SeriesBoard.Fed input.series input.series.start board :=
    SeriesBoard.fed_preload h.ordered h.keys hwarm
  have hlater : ∀ bar ∈ done, input.series.start < bar.closeTime := by
    intro bar hbar
    have hopen := (mem_evaluation.1 (hcommon.subset hbar)).2.1
    have hclose := bar.openTime_lt_closeTime
    rw [h.start]
    omega
  obtain ⟨time, hend⟩ := fed_bars h.ordered h.keys hfed
    (evaluation_byClose.sublist hcommon.sublist) hlater hbars
  exact hend.ordered

/-! ### Both runs -/

/-- **No look-ahead.** Over feeds that agree up to an instant, two runs of one configuration
show the strategy the same indicators at every bar that closes by the instant, and have
recorded the same snapshots. In every state of a run each series has consumed its candles in
strictly increasing order, so none twice. -/
theorem noLookahead (h : ReadsFrom input reference feed) (h' : ReadsFrom input' reference feed')
    (hsame : SameRun input input') (hagree : feed.AgreeUpTo instant feed') :
    (∀ candle s s', candle.closeTime ≤ instant → Analyzed input candle s →
      Analyzed input' candle s' →
        indicatorMap input s = indicatorMap input' s' ∧ snapshotsOf s = snapshotsOf s') ∧
    ∀ state, (system input).Reachable state → FedInOrder input state.2.board := by
  refine ⟨?_, fun state hreach => fedInOrder_of_reachable h hreach⟩
  intro candle s s' hle hs hs'
  have htrack := trackOf_eq h h' hsame hagree hle hs hs'
  have hboard : s.board = s'.board := congrArg IndicatorTrack.board htrack
  refine ⟨?_, congrArg IndicatorTrack.snapshots htrack⟩
  unfold indicatorMap
  rw [hboard, hsame.specs]

/-! ### Two hourly markets -/

/-- The feed of an hourly market. -/
def hourlyFeed (bars : List (ℕ × Price))
    (hbars : bars.Pairwise fun left right => left.1 < right.1) :
    HistoryFeed where
  candles symbol timeframe :=
    if symbol = "BTCUSDT" ∧ timeframe = oneHour then bars.map hourlyCandle else []
  increasing := by
    intro symbol timeframe
    split
    · exact increasing_hourly hbars
    · exact List.Pairwise.nil
  stream_eq := by
    intro symbol timeframe candle hcandle
    split at hcandle
    · next hstream =>
      rw [List.mem_map] at hcandle
      obtain ⟨bar, -, rfl⟩ := hcandle
      rw [hstream.1, hstream.2]
      exact ⟨rfl, rfl⟩
    · cases hcandle

/-- A series that counts the bars it has seen. -/
def barCount : ResolvedSeriesSpec where
  name := "count"
  params := []
  timeframe := oneHour
  needsReferenceSeries := false
  minHistory := 0
  undefinedOutputs := []
  warmedUp _ := true
  compute inputs := .scalar (some inputs.length)

/-- A run that only counts. -/
def countingRun (bars : List (ℕ × Price))
    (hbars : bars.Pairwise fun left right => left.1 < right.1) : RunInput :=
  { hourly .futures 100000 (.riskBased onePercent) bars (fun _ => .nothing) (by norm_num)
      (by decide +kernel) hbars with
    series := {
      symbol := "BTCUSDT"
      timeframe := oneHour
      start := 0
      specs := [barCount]
      warmup := fun _ => 0
      histories := (hourlyFeed bars hbars).candles "BTCUSDT"
      references := fun _ => [] } }

theorem readsFrom_countingRun (bars : List (ℕ × Price))
    (hbars : bars.Pairwise fun left right => left.1 < right.1) :
    ReadsFrom (countingRun bars hbars) none (hourlyFeed bars hbars) where
  history := rfl
  symbol := rfl
  timeframe := rfl
  start := rfl
  histories _ := rfl
  references _ := rfl
  keys := List.nodup_singleton _

private def dollars (n : ℕ) (hn : Binary64.zero < Binary64.ofRat n) : Price :=
  ⟨Binary64.ofRat n, hn⟩

/-- An hour at two dollars, then one at two. -/
def steadyBars : List (ℕ × Price) :=
  [(1, dollars 2 (by decide +kernel)), (2, dollars 2 (by decide +kernel))]

/-- An hour at two dollars, then one at three. -/
def risingBars : List (ℕ × Price) :=
  [(1, dollars 2 (by decide +kernel)), (2, dollars 3 (by decide +kernel))]

/-- The first bar of both. -/
def firstBar : Candle := hourlyCandle (1, dollars 2 (by decide +kernel))

/-- A run is about to show the strategy a bar. -/
def presents (input : RunInput) (candle : Candle) (state : RunState) : Bool :=
  match state.1 with
  | .beforeClose bar => decide (bar.candle = candle) &&
      endsWith (presentBar input candle state.2) fun _ _ => true
  | _ => false

theorem exists_analyzed {input : RunInput} {candle : Candle} {steps : ℕ}
    (h : (simulated input (fun _ => true) steps).any (presents input candle) = true) :
    ∃ s, Analyzed input candle s := by
  obtain ⟨⟨phase, before⟩, hstate, htest⟩ := exists_of_simulated input _ steps _ h
  unfold presents at htest
  split at htest
  · next bar hphase =>
    rw [Bool.and_eq_true, decide_eq_true_eq] at htest
    obtain ⟨_, s, hpresent, -⟩ := exists_of_endsWith htest.2
    change phase = _ at hphase
    rw [hphase] at hstate
    exact ⟨s, bar, before, reachable_of_simulated hstate, htest.1, hpresent⟩
  · cases htest

/-- Both markets show their first bar with the same indicators. -/
theorem noLookahead_at_first_bar : ∃ s s',
    Analyzed (countingRun steadyBars (by decide)) firstBar s ∧
    Analyzed (countingRun risingBars (by decide)) firstBar s' ∧
    indicatorMap (countingRun steadyBars (by decide)) s =
      indicatorMap (countingRun risingBars (by decide)) s' := by
  obtain ⟨s, hs⟩ := exists_analyzed
    (show (simulated (countingRun steadyBars (by decide)) (fun _ => true) 4).any
      (presents (countingRun steadyBars (by decide)) firstBar) = true by decide +kernel)
  obtain ⟨s', hs'⟩ := exists_analyzed
    (show (simulated (countingRun risingBars (by decide)) (fun _ => true) 4).any
      (presents (countingRun risingBars (by decide)) firstBar) = true by decide +kernel)
  have hagree : (hourlyFeed steadyBars (by decide)).AgreeUpTo firstBar.closeTime
      (hourlyFeed risingBars (by decide)) := by
    intro symbol timeframe
    by_cases hstream : symbol = "BTCUSDT" ∧ timeframe = oneHour
    · change upTo _ (if _ then _ else _) = upTo _ (if _ then _ else _)
      rw [if_pos hstream, if_pos hstream]
      decide +kernel
    · change upTo _ (if _ then _ else _) = upTo _ (if _ then _ else _)
      rw [if_neg hstream, if_neg hstream]
  have hboth := noLookahead (readsFrom_countingRun steadyBars (by decide))
    (readsFrom_countingRun risingBars (by decide)) ⟨rfl, rfl, rfl⟩ hagree
  exact ⟨s, s', hs, hs', (hboth.1 firstBar s s' le_rfl hs hs').1⟩

end Engine
end TradingSystem
