import TradingSystem.Engine.EquityCurve
import TradingSystem.Evidence.GapStats

/-!
# The audit of the bar grid

The completion check compares the bars of a run with the candles of its period, less the gaps that
the snapshot of the strategy's candles declares. The two sides come from different places: the
bars are read back from the equity rows, and the gaps are decoded from a note.

* `gridFailures` — what the check reports.
* `gridCloses_of_build` — less the declared gaps, the closes of the period are those of its candles.
* `gridFailures_of_finished` — when nothing is reported about a run that has ended.
-/

namespace TradingSystem
namespace OhlcvGaps

open Numeric Data Logic Engine

/-! ### The check -/

/-- `snapshot_gap_count`: all omitted buckets of a snapshot. -/
def OhlcvGapContract.snapshotGapCount (contract : OhlcvGapContract) : ℤ :=
  contract.normalGapCount + contract.partialBucketCount

/-- A SOURCE_DATA_SNAPSHOT row, by the columns that the check reads. -/
structure SourceSnapshotRow where
  sourceKind : String
  symbol : String
  timeframe : Option Timeframe
  gapCount : ℤ
  note : Option String

/-- The BACKTEST_RUN_LOCAL row, by the columns that the check reads; a text that is no timeframe
is none. -/
structure LocalRunRow where
  periodStart : ℤ
  periodEnd : ℤ
  timeframe : Option Timeframe
  symbol : String

/-- The rows of the strategy's own candles. -/
def strategySources (run : LocalRunRow) (timeframe : Timeframe)
    (sources : List SourceSnapshotRow) : List SourceSnapshotRow :=
  sources.filter fun source =>
    source.sourceKind = "ohlcv" ∧ source.symbol = run.symbol ∧ source.timeframe = some timeframe

/-- The comparison of the bars with the grid, once the gaps are known. -/
def compareGrid (fullGrid allowed actual : List ℤ) : List String :=
  if ∀ closeTime ∈ allowed, closeTime ∈ fullGrid then
    let expected := fullGrid.filter (· ∉ allowed)
    if actual = expected then []
    else ["portfolio_grid_mismatch:expected=" ++ toString expected.length ++ ":actual=" ++
      toString actual.length ++ ":declared_gaps=" ++ toString allowed.dedup.length]
  else ["strategy_ohlcv_gap_outside_evaluation_grid"]

def gridFailures (run? : Option LocalRunRow) (sources : List SourceSnapshotRow)
    (rows : List PortfolioRow) : List String :=
  match run? with
  | none => ["missing_local_run"]
  | some run =>
    match run.timeframe with
    | none => ["unsupported_timeframe"]
    | some timeframe =>
      let duration := timeframeMilliseconds timeframe
      let span := run.periodEnd - run.periodStart
      if span ≤ 0 ∨ span % duration ≠ 0 then ["period_not_aligned_to_timeframe"]
      else
        let fullGrid := (List.range (span / duration).toNat).map fun index : ℕ =>
          run.periodStart + duration * (index + 1)
        match strategySources run timeframe sources with
        | [source] =>
          match source.note with
          | none => ["missing_strategy_ohlcv_gap_contract"]
          | some note =>
            match decodeOhlcvGapContract note with
            | .error _ => ["invalid_strategy_ohlcv_gap_contract"]
            | .ok contract =>
              if contract.snapshotGapCount ≠ source.gapCount then
                ["strategy_ohlcv_gap_count_mismatch"]
              else compareGrid fullGrid contract.evaluationGridGapCloseTimes (portfolioBarGrid rows)
        | _ => ["strategy_ohlcv_snapshot_count"]

/-! ### The rows of a run -/

/-- The period of a run as it is stored. -/
def localRunRow (config : RunConfig) : LocalRunRow where
  periodStart := epochMilliseconds config.start
  periodEnd := epochMilliseconds config.stop
  timeframe := some config.timeframe
  symbol := config.symbol

/-- The origin of a snapshot: the missing minutes, and what its validation found. -/
structure Origin where
  minuteGapCloseTimes : Option (List ℤ)
  status : String
  rowCount : ℤ
  timestampHash : String

/-- `_record_ohlcv_snapshot`: the contract and the row that keeps it. -/
def recordOhlcvSnapshot (candles : List Candle) (symbol : String) (timeframe : Timeframe)
    (rangeStart rangeEnd evaluationStart evaluationEnd : ℤ) (origin : Origin) :
    Except Fault (OhlcvGapContract × SourceSnapshotRow) := do
  require (candles ≠ []) (.valueError "OHLCV snapshot cannot be empty")
  let contract ← buildOhlcvGapContract candles timeframe rangeStart rangeEnd evaluationStart
    evaluationEnd origin.minuteGapCloseTimes origin.status origin.rowCount origin.timestampHash
  return (contract, {
    sourceKind := "ohlcv"
    symbol := symbol
    timeframe := some timeframe
    gapCount := contract.snapshotGapCount
    note := some contract.encode })

/-- The candles of the strategy's snapshot: minutes have a history of their own. -/
def strategyCandles (input : RunInput) (rangeStart : ℤ) : List Candle :=
  (if input.config.timeframe = .oneMinute then input.minuteHistory else input.history).filter
    fun candle => rangeStart ≤ candle.openTime ∧ candle.closeTime ≤ input.config.stop

/-- The strategy's snapshot, as `_record_source_snapshots` records it. -/
def recordStrategySnapshot (input : RunInput) (rangeStart : ℤ) (origin : Origin) :
    Except Fault (OhlcvGapContract × SourceSnapshotRow) :=
  recordOhlcvSnapshot (strategyCandles input rangeStart) input.config.symbol input.config.timeframe
    rangeStart input.config.stop input.config.start input.config.stop origin

/-! ### The declared gaps -/

section Grid

variable {candles : List Candle} {timeframe : Timeframe} {rangeStart start stop : ℤ}
  {minuteGapCloseTimes : Option (List ℤ)} {status hash : String} {count : ℤ}
  {contract : OhlcvGapContract}

/-- The closes of the evaluation: those of candles that close after its start. -/
structure GridCloses (candles : List Candle) (start stop duration : ℤ) (gaps : List ℤ) : Prop where
  aligned : 0 < stop - start ∧ (stop - start) % duration = 0
  gaps_mem : ∀ closeTime ∈ gaps, closeTime ∈ gridCloses start stop duration
  closes_iff : ∀ closeTime, closeTime ∈ gridCloses start stop duration ∧ closeTime ∉ gaps ↔
    start < closeTime ∧ ∃ candle ∈ candles, closeMilliseconds candle = closeTime
  onGrid : ∀ candle ∈ candles, start < closeMilliseconds candle →
    (closeMilliseconds candle - start) % duration = 0

/-- **Less the declared gaps**, the closes of the evaluation are those of the candles: where the
snapshot and the evaluation end together, their grids are one. -/
theorem gridCloses_of_build
    (h : buildOhlcvGapContract candles timeframe rangeStart stop start stop minuteGapCloseTimes
      status count hash = .ok contract) :
    GridCloses candles (epochMilliseconds start) (epochMilliseconds stop)
      (timeframeMilliseconds timeframe) contract.evaluationGridGapCloseTimes := by
  simp only [buildOhlcvGapContract, requireAligned, Except.bind_eq_ok, require_eq_ok] at h
  obtain ⟨-, ⟨-, hrangeDvd⟩, -, ⟨hspan, hdvd⟩, -, ⟨hle, -⟩, -, -, -, -, -, -, actual, hactual,
    ⟨normal, partials⟩, -, h⟩ := h
  cases h
  have hpos := timeframeMilliseconds_pos timeframe
  have hgathered := gathered_of_gatherCloseTimes hactual
  have honGrid := hgathered.onGrid
  have hmemActual := hgathered.mem_iff
  clear hgathered hactual
  generalize epochMilliseconds rangeStart = rangeMs at *
  generalize epochMilliseconds start = startMs at *
  generalize epochMilliseconds stop = stopMs at *
  generalize timeframeMilliseconds timeframe = duration at *
  -- the starts of the two grids are whole candles apart
  have hshift : (startMs - rangeMs) % duration = 0 := by
    have hsub := Int.sub_emod (stopMs - rangeMs) (stopMs - startMs) duration
    rw [hrangeDvd, hdvd, sub_zero, Int.zero_emod] at hsub
    rwa [sub_sub_sub_cancel_left] at hsub
  have hgrid : ∀ closeTime, startMs < closeTime → (IsGridClose rangeMs stopMs duration closeTime ↔
      IsGridClose startMs stopMs duration closeTime) := by
    intro closeTime hafter
    have hsame : (closeTime - rangeMs) % duration = (closeTime - startMs) % duration := by
      rw [← sub_add_sub_cancel closeTime startMs rangeMs, Int.add_emod, hshift, add_zero,
        Int.emod_emod]
    unfold IsGridClose
    rw [hsame]
    exact and_congr_left fun _ => and_congr_left fun _ =>
      ⟨fun _ => hafter, fun _ => hle.trans_lt hafter⟩
  have hgaps : ∀ closeTime, closeTime ∈ ((rangeStep (rangeMs + duration) (stopMs + 1)
      duration).filter (· ∉ actual)).filter (fun closeTime =>
        startMs < closeTime ∧ closeTime ≤ stopMs) ↔
      closeTime ∈ gridCloses startMs stopMs duration ∧ closeTime ∉ actual := by
    intro closeTime
    have hmem : closeTime ∈ rangeStep (rangeMs + duration) (stopMs + 1) duration ↔
        IsGridClose rangeMs stopMs duration closeTime := mem_gridCloses hpos hrangeDvd
    rw [List.mem_filter, List.mem_filter, decide_eq_true_eq, decide_eq_true_eq, hmem,
      mem_gridCloses hpos hdvd]
    constructor
    · rintro ⟨⟨hclose, hnone⟩, hafter, -⟩
      exact ⟨(hgrid closeTime hafter).1 hclose, hnone⟩
    · rintro ⟨hclose, hnone⟩
      exact ⟨⟨(hgrid closeTime hclose.1.1).2 hclose, hnone⟩, hclose.1⟩
  have hclose : ∀ closeTime ∈ actual, startMs < closeTime →
      IsGridClose startMs stopMs duration closeTime := fun closeTime hmem hafter =>
    (hgrid closeTime hafter).1 (honGrid closeTime hmem)
  refine ⟨⟨hspan, hdvd⟩, fun closeTime hmem => ((hgaps closeTime).1 hmem).1, fun closeTime => ?_,
    fun candle hcandle hafter => ?_⟩
  · rw [hgaps closeTime, ← hmemActual]
    constructor
    · rintro ⟨hmem, hnone⟩
      refine ⟨((mem_gridCloses hpos hdvd).1 hmem).1.1, ?_⟩
      by_contra hmissing
      exact hnone ⟨hmem, hmissing⟩
    · rintro ⟨hafter, hmem⟩
      exact ⟨(mem_gridCloses hpos hdvd).2 (hclose closeTime hmem hafter), fun hgap => hgap.2 hmem⟩
  · exact (hclose _ ((hmemActual _).2 ⟨candle, hcandle, rfl⟩) hafter).2

end Grid

/-! ### Runs on whole seconds -/

/-- The instants of a run are on whole seconds of the source's clock. -/
structure OnSeconds (input : RunInput) : Prop where
  start : ∃ seconds, WholeSecond input.config.start seconds
  stop : ∃ seconds, WholeSecond input.config.stop seconds
  closes : ∀ candle ∈ input.history, ∃ seconds, WholeSecond candle.closeTime seconds

section Run

variable {input : RunInput} {state : RunState} {rangeStart : ℤ} {origin : Origin}
  {contract : OhlcvGapContract} {source : SourceSnapshotRow}

theorem mem_strategyCandles (hminute : input.config.timeframe = .oneMinute →
      input.minuteHistory = input.history) {candle : Candle} :
    candle ∈ strategyCandles input rangeStart ↔ candle ∈ input.history ∧
      rangeStart ≤ candle.openTime ∧ candle.closeTime ≤ input.config.stop := by
  have hhistory : (if input.config.timeframe = .oneMinute then input.minuteHistory
      else input.history) = input.history := by
    split
    · next heq => exact hminute heq
    · rfl
  unfold strategyCandles
  rw [hhistory, List.mem_filter, decide_eq_true_eq]

/-- The candles of the snapshot that close after the start are those of the evaluation. -/
theorem mem_evaluation_iff (hseconds : OnSeconds input) (hstarted : rangeStart ≤ input.config.start)
    (hminute : input.config.timeframe = .oneMinute → input.minuteHistory = input.history)
    {gaps : List ℤ} (hgrid : GridCloses (strategyCandles input rangeStart)
      (epochMilliseconds input.config.start) (epochMilliseconds input.config.stop)
      (timeframeMilliseconds input.config.timeframe) gaps) {candle : Candle} :
    candle ∈ input.evaluation ↔ candle ∈ strategyCandles input rangeStart ∧
      epochMilliseconds input.config.start < closeMilliseconds candle := by
  have hstart := instant_eq_of_second hseconds.start
  have hpos := timeframeMilliseconds_pos input.config.timeframe
  have hduration := duration_eq_milliseconds input.config.timeframe
  simp only [Instant.millisecond] at hduration
  rw [mem_evaluation]
  constructor
  · rintro ⟨hmem, hopen, hstop⟩
    refine ⟨(mem_strategyCandles hminute).2 ⟨hmem, hstarted.trans hopen, hstop⟩, ?_⟩
    have hclose := instant_eq_of_second (hseconds.closes candle hmem)
    have hcloseTime := history_closeTime hmem
    unfold closeMilliseconds
    omega
  · rintro ⟨hmem, hafter⟩
    have haligned := hgrid.onGrid candle hmem hafter
    obtain ⟨hhistory, -, hstop⟩ := (mem_strategyCandles hminute).1 hmem
    refine ⟨hhistory, ?_, hstop⟩
    -- a close of the grid after the start is a candle after it at least
    have hclose := instant_eq_of_second (hseconds.closes candle hhistory)
    have hcloseTime := history_closeTime hhistory
    have hle := Int.le_of_dvd (by omega) (Int.dvd_of_emod_eq_zero haligned)
    unfold closeMilliseconds at hafter hle
    omega

/-- The stored closes of an evaluation follow each other. -/
theorem evaluation_closes_increasing (hseconds : OnSeconds input) :
    (input.evaluation.map fun candle => epochMilliseconds candle.closeTime).Pairwise
      (· < ·) := by
  have hincreasing := (closes_increasing (List.prefix_refl input.evaluation)).1
  rw [List.pairwise_map] at hincreasing ⊢
  refine List.Pairwise.imp_of_mem (fun hmem hmem' hlt => ?_) hincreasing
  have hclose := instant_eq_of_second (hseconds.closes _ (mem_evaluation.1 hmem).1)
  have hclose' := instant_eq_of_second (hseconds.closes _ (mem_evaluation.1 hmem').1)
  omega

/-- **The two sides of the check** are equal: the closes of the period less the declared gaps, and
the closes of the evaluation. -/
theorem expected_eq_closes (hseconds : OnSeconds input) (hstarted : rangeStart ≤ input.config.start)
    (hminute : input.config.timeframe = .oneMinute → input.minuteHistory = input.history)
    {gaps : List ℤ} (hgrid : GridCloses (strategyCandles input rangeStart)
      (epochMilliseconds input.config.start) (epochMilliseconds input.config.stop)
      (timeframeMilliseconds input.config.timeframe) gaps) :
    (input.evaluation.map fun candle => epochMilliseconds candle.closeTime) =
      (gridCloses (epochMilliseconds input.config.start) (epochMilliseconds input.config.stop)
        (timeframeMilliseconds input.config.timeframe)).filter (· ∉ gaps) := by
  have hfull : (gridCloses (epochMilliseconds input.config.start)
      (epochMilliseconds input.config.stop)
      (timeframeMilliseconds input.config.timeframe)).Pairwise (· < ·) :=
    rangeStep_increasing (timeframeMilliseconds_pos _)
  refine List.Pairwise.eq_of_mem_iff (evaluation_closes_increasing hseconds) (hfull.filter _)
    fun closeTime => ?_
  rw [List.mem_filter, decide_eq_true_eq, hgrid.closes_iff closeTime, List.mem_map]
  constructor
  · rintro ⟨candle, hcandle, rfl⟩
    obtain ⟨hmem, hafter⟩ := (mem_evaluation_iff hseconds hstarted hminute hgrid).1 hcandle
    exact ⟨hafter, candle, hmem, rfl⟩
  · rintro ⟨hafter, candle, hmem, rfl⟩
    exact ⟨candle, (mem_evaluation_iff hseconds hstarted hminute hgrid).2 ⟨hmem, hafter⟩, rfl⟩

/-- **The check of a run that has ended**, whose instants are on whole seconds and whose strategy
snapshot was recorded: its bars are compared with the closes of its period, less the gaps that the
note of the snapshot declares. Nothing is reported exactly where the last row is stored a
millisecond after the last close; elsewhere that row is read as one bar too many. -/
theorem gridFailures_of_finished (hseconds : OnSeconds input)
    (hstarted : rangeStart ≤ input.config.start)
    (hminute : input.config.timeframe = .oneMinute → input.minuteHistory = input.history)
    (hsnapshot : recordStrategySnapshot input rangeStart origin = .ok (contract, source))
    {sources : List SourceSnapshotRow}
    (hsources :
      strategySources (localRunRow input.config) input.config.timeframe sources = [source])
    (h : (system input).Reachable state) (hfinished : state.1 = .finished) :
    gridFailures (some (localRunRow input.config)) sources
      (portfolioRows state.2.records) = [] ↔ TerminalStored input := by
  unfold recordStrategySnapshot recordOhlcvSnapshot at hsnapshot
  simp only [Except.bind_eq_ok] at hsnapshot
  obtain ⟨-, -, built, hbuild, hreturned⟩ := hsnapshot
  cases hreturned
  have hdecode := decode_encode (wellFormed_of_build hbuild)
  have hgrid := gridCloses_of_build hbuild
  have hactual := portfolioBarGrid_of_finished (gridded_of_reachable h) hfinished
  rw [expected_eq_closes hseconds hstarted hminute hgrid] at hactual
  have hspan := hgrid.aligned
  have hmem := hgrid.gaps_mem
  -- the check enumerates the closes from the first
  have hfull : (List.range ((epochMilliseconds input.config.stop -
      epochMilliseconds input.config.start) /
        timeframeMilliseconds input.config.timeframe).toNat).map (fun index : ℕ =>
          epochMilliseconds input.config.start +
            timeframeMilliseconds input.config.timeframe * (index + 1)) =
      gridCloses (epochMilliseconds input.config.start)
        (epochMilliseconds input.config.stop)
        (timeframeMilliseconds input.config.timeframe) := by
    rw [gridCloses_eq]
    exact List.map_congr_left fun index _ => by rw [mul_comm]
  have haligned : ¬(epochMilliseconds input.config.stop -
      epochMilliseconds input.config.start ≤ 0 ∨
        (epochMilliseconds input.config.stop - epochMilliseconds input.config.start) %
            timeframeMilliseconds input.config.timeframe ≠ 0) := by
    rw [not_or, not_not]
    exact ⟨by omega, hspan.2⟩
  unfold gridFailures
  dsimp only [localRunRow] at hsources ⊢
  rw [if_neg haligned, hsources]
  dsimp only
  rw [hdecode]
  dsimp only
  rw [if_neg (not_not.2 rfl), hfull]
  unfold compareGrid
  rw [if_pos hmem, ← hactual]
  -- a difference is one failure
  dsimp only
  split
  · next heq => exact ⟨fun _ => heq, fun _ => rfl⟩
  · next hne => exact ⟨fun hnil => absurd hnil (List.cons_ne_nil _ _), fun heq => absurd heq hne⟩

end Run

/-! ### Five hours, the first without a candle -/

/-- Five hours of a market whose first candle is that of the second hour. -/
def untilFive : RunInput :=
  let run := twoDollarRun 100000 (Binary64.ofRat 100) hundredThousand_pos
  { run with
    config := { run.config with
      stop := 5 * Instant.hour
      start_lt_stop := by decide } }

theorem exists_ended_untilFive : ∃ state : RunState, endedWithTrade state = true ∧
    (system untilFive).Reachable state := by
  obtain ⟨state, hstate, hended⟩ := exists_of_simulated untilFive (fun _ => true) 26
    endedWithTrade (by decide +kernel)
  exact ⟨state, hended, reachable_of_simulated hstate⟩

theorem onSeconds_untilFive : OnSeconds untilFive where
  start := ⟨0, rfl, by norm_num⟩
  stop := ⟨18000, rfl, by norm_num⟩
  closes := by
    intro candle hcandle
    obtain ⟨bar, hbar, rfl⟩ := List.mem_map.1 hcandle
    simp only [List.mem_cons, List.not_mem_nil, or_false] at hbar
    rcases hbar with rfl | rfl | rfl | rfl
    · exact ⟨7200, rfl, by norm_num⟩
    · exact ⟨10800, rfl, by norm_num⟩
    · exact ⟨14400, rfl, by norm_num⟩
    · exact ⟨18000, rfl, by norm_num⟩

/-- All minutes of the first hour are missing. -/
def firstHourOrigin : Origin where
  minuteGapCloseTimes := some ((List.range 60).map fun minute : ℕ =>
    (minute + 1) * minuteMilliseconds)
  status := "verified"
  rowCount := 240
  timestampHash := someHash

def firstHourMissing : OhlcvGapContract :=
  ⟨3600000, [3600000], [], [3600000], "verified", 240, someHash⟩

def firstHourSource : SourceSnapshotRow :=
  ⟨"ohlcv", "BTCUSDT", some oneHour, 1, some firstHourMissing.encode⟩

theorem recordStrategySnapshot_untilFive :
    recordStrategySnapshot untilFive 0 firstHourOrigin =
      .ok (firstHourMissing, firstHourSource) := by
  have hcandles : strategyCandles untilFive 0 = untilFive.history := by
    rfl
  have hstart : epochMilliseconds 0 = 0 := by decide +kernel
  have hend : epochMilliseconds (5 * Instant.hour) = 18000000 := by decide +kernel
  -- the steps of the build, each evaluated on its own
  have hactual : gatherCloseTimes oneHour 0 18000000 untilFive.history [] =
      .ok [18000000, 14400000, 10800000, 7200000] := by decide +kernel
  have homitted : (rangeStep 3600000 18000001 3600000).filter
      (· ∉ [(18000000 : ℤ), 14400000, 10800000, 7200000]) = [3600000] := by decide
  have hclassify : classifyOmitted firstHourOrigin.minuteGapCloseTimes 3600000 [3600000] =
      .ok ([3600000], []) := by decide +kernel
  have hhash : IsOriginHash someHash := by decide +kernel
  have hbuild : buildOhlcvGapContract untilFive.history oneHour 0 (5 * Instant.hour) 0
      (5 * Instant.hour) firstHourOrigin.minuteGapCloseTimes "verified" 240 someHash =
        .ok firstHourMissing := by
    have hduration : timeframeMilliseconds oneHour = 3600000 := rfl
    simp only [buildOhlcvGapContract, requireAligned, Except.bind_eq_ok, require_eq_ok, hstart,
      hend, hduration]
    refine ⟨⟨⟩, by decide, ⟨⟩, by decide, ⟨⟩, by decide, ⟨⟩, trivial, ⟨⟩, by decide, ⟨⟩, hhash, _,
      hactual, _, (congrArg _ homitted).trans hclassify, ?_⟩
    rfl
  unfold recordStrategySnapshot recordOhlcvSnapshot
  rw [hcandles]
  simp only [Except.bind_eq_ok, require_eq_ok]
  exact ⟨⟨⟩, List.cons_ne_nil _ _, _, hbuild, rfl⟩

/-- The end of five hours is stored a millisecond after the last close. -/
theorem terminalStored_untilFive : TerminalStored untilFive := by
  intro last hlast
  have hclose : last.closeTime = 5 * Instant.hour := by
    cases hlast
    rfl
  rw [hclose]
  decide +kernel

theorem gridFailures_of_five_hours : ∃ state : RunState, endedWithTrade state = true ∧
    gridFailures (some (localRunRow untilFive.config)) [firstHourSource]
      (portfolioRows state.2.records) = [] := by
  obtain ⟨state, hended, hreachable⟩ := exists_ended_untilFive
  exact ⟨state, hended, (gridFailures_of_finished onSeconds_untilFive le_rfl
    (fun heq => absurd heq (by decide)) recordStrategySnapshot_untilFive rfl hreachable
    (finished_of_endedWithTrade hended)).2 terminalStored_untilFive⟩

end OhlcvGaps
end TradingSystem
