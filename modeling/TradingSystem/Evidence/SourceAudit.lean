import TradingSystem.Evidence.GridAudit
import TradingSystem.Series.WarmUp

/-!
# The audit of the source snapshots

Before its first bar a run records which candles it read: its minutes, the candles of its own
timeframe and those of the other timeframes of its series, each with the gap contract of the
snapshot. The completion check reads the rows back, decodes the contracts and compares them with
the period and with each other.

* `sourceSnapshotFailures` — what the check reports.
* `recordSourceSnapshots` — the rows of a run without a reference instrument.
* `rowFailures_recorded` — of a recorded row only the gaps of the evaluation may be reported.
* `crossFailures_eq_nil` — of the two contracts only candles with a missing minute.
* `sourceSnapshotFailures_of_recorded` — exactly when nothing is reported about a run.
-/

namespace TradingSystem
namespace OhlcvGaps

open Numeric Data Logic Engine

/-! ### The check -/

/-- A failure of the check, if it is one. -/
def report (failed : Prop) [Decidable failed] (failure : String) : List String :=
  if failed then [failure] else []

@[simp] theorem report_eq_nil {failed : Prop} [Decidable failed] {failure : String} :
    report failed failure = [] ↔ ¬failed := by
  unfold report
  split <;> simp_all

/-- A SOURCE_DATA_SNAPSHOT row of candles, with its number and its range. -/
structure SnapshotRow extends SourceSnapshotRow where
  snapshotId : ℕ
  rangeStart : ℤ
  rangeEnd : ℤ
  rowCount : ℤ

/-- A SOURCE_DATA_SNAPSHOT row: of candles, or of funding rates. -/
inductive SourceRow
  | ohlcv (row : SnapshotRow)
  | funding (snapshotId : ℕ) (symbol : String)

/-- Kind, symbol and timeframe of a row. -/
def SourceRow.key : SourceRow → String × String × Option Timeframe
  | .ohlcv row => (row.sourceKind, row.symbol, row.timeframe)
  | .funding _ symbol => ("funding", symbol, none)

/-- The BACKTEST_RUN_LOCAL row with the market type. -/
structure SourceRun extends LocalRunRow where
  marketType : MarketType

/-- The counts of the rows by key. -/
def countFailures (run : SourceRun) (rows : List SourceRow) : List String :=
  let keys := rows.map SourceRow.key
  report (keys.count ("ohlcv", run.symbol, run.timeframe) ≠ 1) "strategy_ohlcv_snapshot_count" ++
  report (run.timeframe ≠ some .oneMinute ∧
    keys.count ("ohlcv", run.symbol, some .oneMinute) ≠ 1) "minute_ohlcv_snapshot_count" ++
  report (run.marketType = .futures ∧ keys.count ("funding", run.symbol, none) ≠ 1)
    "funding_snapshot_count" ++
  report (∃ key ∈ keys, keys.count key ≠ 1) "duplicate_source_snapshot"

/-- The range of a row against the period: longer timeframes end with their last candle. -/
def CoversPeriod (run : SourceRun) (row : SnapshotRow) (timeframe : Timeframe) : Prop :=
  if run.timeframe = some timeframe ∨ timeframe = .oneMinute then
    row.rangeStart ≤ run.periodStart ∧ run.periodEnd ≤ row.rangeEnd
  else row.rangeStart ≤ run.periodStart ∧ row.rangeEnd ≤ run.periodEnd ∧
    run.periodEnd - row.rangeEnd < timeframeMilliseconds timeframe

instance (run : SourceRun) (row : SnapshotRow) (timeframe : Timeframe) :
    Decidable (CoversPeriod run row timeframe) := by
  unfold CoversPeriod
  infer_instance

/-- The gaps of a contract inside the period. -/
def expectedEvaluationGaps (run : SourceRun) (contract : OhlcvGapContract) : List ℤ :=
  ((contract.normalGapCloseTimes ++ contract.partialBucketCloseTimes).insertionSort (· ≤ ·)).filter
    fun closeTime => run.periodStart < closeTime ∧ closeTime ≤ run.periodEnd

/-- The contract of a row against its columns. -/
def contractFailures (run : SourceRun) (row : SnapshotRow) (timeframe : Timeframe)
    (contract : OhlcvGapContract) : List String :=
  let duration := timeframeMilliseconds timeframe
  let id := toString row.snapshotId
  report (contract.timeframeMs ≠ duration) ("ohlcv_gap_timeframe_mismatch:" ++ id) ++
  report (contract.snapshotGapCount ≠ row.gapCount) ("ohlcv_gap_count_mismatch:" ++ id) ++
  report (∃ closeTime ∈ contract.normalGapCloseTimes,
    ¬(row.rangeStart < closeTime ∧ closeTime ≤ row.rangeEnd) ∨
      (closeTime - row.rangeStart) % duration ≠ 0) ("ohlcv_normal_gap_off_grid:" ++ id) ++
  report (contract.evaluationGridGapCloseTimes ≠ expectedEvaluationGaps run contract)
    ("ohlcv_evaluation_gap_mismatch:" ++ id) ++
  report (contract.originValidationStatus ≠ "verified") ("ohlcv_origin_unverified:" ++ id) ++
  -- the rows of the origin are minutes
  report (timeframe = .oneMinute ∧ contract.originValidationStatus = "verified" ∧
    contract.originMinuteRowCount ≠ row.rowCount) ("ohlcv_origin_row_count_mismatch:" ++ id)

/-- The failures of one row. -/
def rowFailures (run : SourceRun) : SourceRow → List String
  | .funding _ _ => []
  | .ohlcv row =>
    let id := toString row.snapshotId
    if row.sourceKind ≠ "ohlcv" then []
    else match row.timeframe with
    | none => ["ohlcv_unsupported_timeframe:" ++ id]
    | some timeframe =>
      let span := row.rangeEnd - row.rangeStart
      -- without a grid the row is not looked at further
      if span ≤ 0 ∨ span % timeframeMilliseconds timeframe ≠ 0 then
        ["ohlcv_snapshot_range_alignment:" ++ id]
      else
        report (row.rowCount + row.gapCount ≠ span / timeframeMilliseconds timeframe)
          ("ohlcv_snapshot_count_identity:" ++ id) ++
        report (¬CoversPeriod run row timeframe) ("ohlcv_snapshot_evaluation_coverage:" ++ id) ++
        match row.note with
        | none => ["ohlcv_gap_contract_missing:" ++ id]
        | some note =>
          match decodeOhlcvGapContract note with
          | .error _ => ["ohlcv_gap_contract_invalid:" ++ id]
          | .ok contract => contractFailures run row timeframe contract

/-- The contract that a row of a timeframe keeps. -/
def keptContract (timeframe : Option Timeframe) : SourceRow → Option OhlcvGapContract
  | .funding _ _ => none
  | .ohlcv row =>
    if row.sourceKind = "ohlcv" ∧ row.timeframe = timeframe then
      row.note.bind fun note => (decodeOhlcvGapContract note).toOption
    else none

/-- `contracts[timeframe]`: of two rows the later counts. -/
def contractOf (rows : List SourceRow) (timeframe : Option Timeframe) : Option OhlcvGapContract :=
  (rows.filterMap (keptContract timeframe)).getLast?

/-- The close of the strategy's candle that a minute is of. -/
def upperClose (periodStart duration minuteClose : ℤ) : ℤ :=
  periodStart + (minuteClose - periodStart + duration - 1) / duration * duration

/-- The contract of the strategy against that of the minutes. -/
def crossFailures (run : SourceRun) (strategy minute : OhlcvGapContract) : List String :=
  report (strategy.originValidationStatus ≠ minute.originValidationStatus ∨
    strategy.originMinuteRowCount ≠ minute.originMinuteRowCount ∨
      strategy.originTimestampHash ≠ minute.originTimestampHash)
    "ohlcv_origin_contract_mismatch" ++
  -- a run of minutes has one contract
  if run.timeframe = some .oneMinute then []
  else
    let gaps := strategy.normalGapCloseTimes ++ strategy.partialBucketCloseTimes
    (gaps.flatMap fun closeTime =>
      let missing := missingMinutes minute.normalGapCloseTimes strategy.timeframeMs closeTime *
        minuteMilliseconds
      report (closeTime ∈ strategy.normalGapCloseTimes ∧ missing ≠ strategy.timeframeMs ∨
        closeTime ∉ strategy.normalGapCloseTimes ∧
          ¬(0 < missing ∧ missing < strategy.timeframeMs))
        ("ohlcv_resample_gap_classification:" ++ toString closeTime)) ++
    minute.evaluationGridGapCloseTimes.flatMap fun minuteClose =>
      report (upperClose run.periodStart strategy.timeframeMs minuteClose ∉ gaps)
        ("ohlcv_minute_gap_without_resample_gap:" ++ toString minuteClose)

def sourceSnapshotFailures (run? : Option SourceRun) (rows : List SourceRow) : List String :=
  match run? with
  | none => ["missing_local_run"]
  | some run =>
    countFailures run rows ++ rows.flatMap (rowFailures run) ++
      match contractOf rows run.timeframe, contractOf rows (some .oneMinute) with
      | some strategy, some minute => crossFailures run strategy minute
      | _, _ => []

/-! ### The rows of a run -/

/-- What the snapshots of a run read. A run with a reference instrument records further rows. -/
structure SnapshotInput where
  config : WarmUp.HistoryConfig
  marketType : MarketType
  minuteHistory : List Candle
  prepared : WarmUp.Prepared
  sourceCandles : String → ℤ → ℤ → List Candle
  sha256 : String → String
  reference_none : config.referenceSymbol = none

/-- `_record_ohlcv_snapshot`, with the columns of the range. -/
def recordRangedSnapshot (snapshotId : ℕ) (candles : List Candle) (symbol : String)
    (timeframe : Timeframe) (rangeStart rangeEnd evaluationStart evaluationEnd : ℤ)
    (origin : Origin) : Except Fault (OhlcvGapContract × SnapshotRow) := do
  let (contract, row) ← recordOhlcvSnapshot candles symbol timeframe rangeStart rangeEnd
    evaluationStart evaluationEnd origin
  return (contract, { row with
    snapshotId := snapshotId
    rangeStart := epochMilliseconds rangeStart
    rangeEnd := epochMilliseconds rangeEnd
    rowCount := candles.length })

/-- The candles of a snapshot. -/
def snapshotCandles (rangeStart rangeEnd : ℤ) (candles : List Candle) : List Candle :=
  candles.filter fun candle => rangeStart ≤ candle.openTime ∧ candle.closeTime ≤ rangeEnd

def lastClosedBoundary (timeframe : Timeframe) (boundary : ℤ) : ℤ :=
  boundary - epochMilliseconds boundary % timeframeMilliseconds timeframe * Instant.millisecond

namespace SnapshotInput

variable (input : SnapshotInput)

/-- `preload[0].open_time`. -/
def firstOpen (timeframe : Timeframe) : Except Fault ℤ :=
  match input.prepared.preload (input.config.symbol, timeframe) with
  | [] => .error (.lookupError "list index out of range")
  | candle :: _ => .ok candle.openTime

/-- The earliest first open of some timeframes. -/
def earliestOpen (timeframe : Timeframe) : List Timeframe → Except Fault ℤ
  | [] => input.firstOpen timeframe
  | other :: rest => do
    let first ← input.firstOpen timeframe
    let others ← earliestOpen other rest
    return min first others

/-- The candles of a timeframe up to an end, and the first open of the timeframe. -/
def seriesCandles (timeframe : Timeframe) (rangeEnd : ℤ) : Except Fault (ℤ × List Candle) := do
  let rangeStart ← input.firstOpen timeframe
  return (rangeStart, snapshotCandles rangeStart rangeEnd
    (WarmUp.historyOf input.prepared.histories (input.config.symbol, timeframe)))

def validateMinuteOrigin (minuteCandles : List Candle) (rangeStart : ℤ) : Except Fault Origin := do
  let observed := input.sourceCandles input.config.symbol rangeStart input.config.finish
  require (observed = minuteCandles)
    (.valueError "1m OHLCV Evidence diverges from independent origin query")
  return {
    minuteGapCloseTimes := none
    status := "verified"
    rowCount := observed.length
    timestampHash := input.sha256 (Json.canonicalJson (.arr (observed.map fun candle =>
      .int (epochMilliseconds candle.openTime)))) }

/-- The end of the range of another timeframe. -/
def otherEnd (timeframe : Timeframe) : ℤ := lastClosedBoundary timeframe input.config.finish

/-- The start of the evaluation of another timeframe: its last candle at least. -/
def otherStart (timeframe : Timeframe) : ℤ :=
  if lastClosedBoundary timeframe input.config.start = input.otherEnd timeframe then
    input.otherEnd timeframe - timeframeMilliseconds timeframe * Instant.millisecond
  else lastClosedBoundary timeframe input.config.start

/-- The timeframes of the series besides the minute and the timeframe of the strategy. -/
def otherTimeframes : List Timeframe :=
  (((input.config.specs.map (·.timeframe)).dedup).filter fun timeframe =>
    timeframe ≠ .oneMinute ∧ timeframe ≠ input.config.timeframe).insertionSort
      fun timeframe timeframe' => timeframe.text ≤ timeframe'.text

/-- The row of another timeframe. -/
def recordOther (origin : Origin) (snapshotId : ℕ) (timeframe : Timeframe) :
    Except Fault SnapshotRow := do
  let (rangeStart, candles) ← input.seriesCandles timeframe (input.otherEnd timeframe)
  let (_, row) ← recordRangedSnapshot snapshotId candles input.config.symbol timeframe rangeStart
    (input.otherEnd timeframe) (input.otherStart timeframe) (input.otherEnd timeframe) origin
  return row

/-- The rows of the other timeframes. -/
def recordOthers (origin : Origin) : ℕ → List Timeframe → Except Fault (List SnapshotRow)
  | _, [] => .ok []
  | snapshotId, timeframe :: rest => do
    let row ← input.recordOther origin snapshotId timeframe
    let rows ← recordOthers origin (snapshotId + 1) rest
    return row :: rows

/-- The row of the strategy's timeframe; the minutes have theirs already. -/
def recordStrategy (origin : Origin) : Except Fault (List SnapshotRow) :=
  if input.config.timeframe = .oneMinute then .ok []
  else do
    let (rangeStart, candles) ← input.seriesCandles input.config.timeframe input.config.finish
    let (_, row) ← recordRangedSnapshot 2 candles input.config.symbol input.config.timeframe
      rangeStart input.config.finish input.config.start input.config.finish origin
    return [row]

/-- The row of `_record_funding_snapshot`. -/
def fundingRows (snapshotId : ℕ) : List SourceRow :=
  if input.marketType = .futures then [.funding snapshotId input.config.symbol] else []

def recordSourceSnapshots : Except Fault (List SourceRow) := do
  let rangeStart ← input.earliestOpen input.config.timeframe
    (input.config.specs.map (·.timeframe))
  let minuteCandles := snapshotCandles rangeStart input.config.finish input.minuteHistory
  require (minuteCandles ≠ []) (.valueError "run has no 1m origin snapshot")
  let origin ← input.validateMinuteOrigin minuteCandles rangeStart
  let (minute, minuteRow) ← recordRangedSnapshot 1 minuteCandles input.config.symbol .oneMinute
    rangeStart input.config.finish input.config.start input.config.finish origin
  -- the gaps of longer candles are classified by the minutes that are missing
  let resampled := { origin with minuteGapCloseTimes := some minute.normalGapCloseTimes }
  let strategy ← input.recordStrategy resampled
  let others ← input.recordOthers resampled (strategy.length + 2) input.otherTimeframes
  let candles := (minuteRow :: strategy ++ others).map SourceRow.ohlcv
  return candles ++ input.fundingRows (candles.length + 1)

/-- The period of the run as it is stored. -/
def sourceRun : SourceRun where
  periodStart := epochMilliseconds input.config.start
  periodEnd := epochMilliseconds input.config.finish
  timeframe := some input.config.timeframe
  symbol := input.config.symbol
  marketType := input.marketType

end SnapshotInput

/-! ### What a recorded contract says -/

section Recorded

variable {candles : List Candle} {symbol : String} {timeframe : Timeframe}
  {rangeStart rangeEnd evaluationStart evaluationEnd : ℤ} {origin : Origin} {snapshotId : ℕ}
  {contract : OhlcvGapContract} {row : SnapshotRow}

/-- **What is known of a recorded snapshot**: its contract splits the closes of the grid at which
no candle closes, and keeps those of the evaluation. -/
structure Recorded (candles : List Candle) (timeframe : Timeframe)
    (rangeStart rangeEnd evaluationStart evaluationEnd : ℤ) (origin : Origin)
    (contract : OhlcvGapContract) (omitted : List ℤ) : Prop where
  wellFormed : WellFormed contract
  timeframeMs : contract.timeframeMs = timeframeMilliseconds timeframe
  aligned : 0 < rangeEnd - rangeStart ∧
    (rangeEnd - rangeStart) % timeframeMilliseconds timeframe = 0
  evaluation_aligned : 0 < evaluationEnd - evaluationStart ∧
    (evaluationEnd - evaluationStart) % timeframeMilliseconds timeframe = 0
  covers : rangeStart ≤ evaluationStart ∧ evaluationEnd ≤ rangeEnd
  onGrid : ∀ candle ∈ candles, IsGridClose rangeStart rangeEnd (timeframeMilliseconds timeframe)
    (closeMilliseconds candle)
  mem_omitted : ∀ closeTime, closeTime ∈ omitted ↔
    IsGridClose rangeStart rangeEnd (timeframeMilliseconds timeframe) closeTime ∧
      ∀ candle ∈ candles, closeMilliseconds candle ≠ closeTime
  increasing : omitted.Pairwise (· < ·)
  count : (candles.length : ℤ) + omitted.length =
    (rangeEnd - rangeStart) / timeframeMilliseconds timeframe
  classified : classifyOmitted origin.minuteGapCloseTimes (timeframeMilliseconds timeframe)
    omitted = .ok (contract.normalGapCloseTimes, contract.partialBucketCloseTimes)
  evaluation : contract.evaluationGridGapCloseTimes = omitted.filter fun closeTime =>
    evaluationStart < closeTime ∧ closeTime ≤ evaluationEnd
  facts : contract.originMinuteRowCount = origin.rowCount ∧
    contract.originTimestampHash = origin.timestampHash

theorem recorded_of_recordRangedSnapshot
    (h : recordRangedSnapshot snapshotId candles symbol timeframe rangeStart rangeEnd
      evaluationStart evaluationEnd origin = .ok (contract, row)) :
    ∃ omitted, Recorded candles timeframe (epochMilliseconds rangeStart)
      (epochMilliseconds rangeEnd) (epochMilliseconds evaluationStart)
      (epochMilliseconds evaluationEnd) origin contract omitted ∧
        row = ⟨⟨"ohlcv", symbol, some timeframe, contract.snapshotGapCount, some contract.encode⟩,
          snapshotId, epochMilliseconds rangeStart, epochMilliseconds rangeEnd,
          candles.length⟩ := by
  unfold recordRangedSnapshot recordOhlcvSnapshot at h
  simp only [Except.bind_eq_ok] at h
  obtain ⟨_, ⟨-, -, built, hbuild, hsource⟩, hrow⟩ := h
  cases hsource
  cases hrow
  have hwellFormed := wellFormed_of_build hbuild
  -- the checks of the builder, and what it collects
  simp only [buildOhlcvGapContract, requireAligned, Except.bind_eq_ok, require_eq_ok] at hbuild
  obtain ⟨-, haligned, -, hevaluation, -, hcovers, -, -, -, -, -, -, actual, hactual,
    ⟨normal, partials⟩, hclassify, hbuild⟩ := hbuild
  cases hbuild
  have hpos := timeframeMilliseconds_pos timeframe
  have hgathered := gathered_of_gatherCloseTimes hactual
  have hgrid : (gridCloses (epochMilliseconds rangeStart) (epochMilliseconds rangeEnd)
      (timeframeMilliseconds timeframe)).Pairwise (· < ·) := rangeStep_increasing hpos
  refine ⟨(gridCloses (epochMilliseconds rangeStart) (epochMilliseconds rangeEnd)
    (timeframeMilliseconds timeframe)).filter (· ∉ actual), {
      wellFormed := hwellFormed
      timeframeMs := rfl
      aligned := haligned
      evaluation_aligned := hevaluation
      covers := hcovers
      onGrid := ?_
      mem_omitted := ?_
      increasing := hgrid.filter _
      count := ?_
      classified := hclassify
      evaluation := rfl
      facts := ⟨rfl, rfl⟩ }, rfl⟩
  · intro candle hcandle
    exact hgathered.onGrid _ ((hgathered.mem_iff _).2 ⟨candle, hcandle, rfl⟩)
  · intro closeTime
    rw [List.mem_filter, mem_gridCloses hpos haligned.2, decide_eq_true_iff, hgathered.mem_iff,
      not_exists]
    simp only [not_and]
  · have hlength := hgathered.length_add haligned.2
    rw [length_gridCloses] at hlength
    have hnonneg := Int.ediv_nonneg haligned.1.le hpos.le
    omega

variable {omitted : List ℤ}

/-- The two lists of gaps, in order, are the closes without a candle. -/
theorem Recorded.sorted_gaps (h : Recorded candles timeframe rangeStart rangeEnd evaluationStart
    evaluationEnd origin contract omitted) :
    (contract.normalGapCloseTimes ++ contract.partialBucketCloseTimes).Perm omitted ∧
      (contract.normalGapCloseTimes ++ contract.partialBucketCloseTimes).insertionSort (· ≤ ·) =
        omitted := by
  obtain ⟨hnormal, hpartials, hdisjoint, hcovers⟩ := split_of_classifyOmitted h.classified
  have hnodup : omitted.Nodup := h.increasing.imp ne_of_lt
  have hperm : (contract.normalGapCloseTimes ++ contract.partialBucketCloseTimes).Perm omitted := by
    refine (List.perm_ext_iff_of_nodup ?_ hnodup).2 fun closeTime => ?_
    · exact List.nodup_append'.2 ⟨hnormal.nodup hnodup, hpartials.nodup hnodup,
        fun closeTime hmem hmem' => hdisjoint closeTime hmem hmem'⟩
    · rw [List.mem_append]
      refine ⟨?_, hcovers closeTime⟩
      rintro (hmem | hmem)
      · exact hnormal.subset hmem
      · exact hpartials.subset hmem
  refine ⟨hperm, ?_⟩
  exact ((List.perm_insertionSort _ _).trans hperm).eq_of_pairwise'
    (List.pairwise_insertionSort (· ≤ ·) _) (h.increasing.imp le_of_lt)

theorem Recorded.snapshotGapCount_eq (h : Recorded candles timeframe rangeStart rangeEnd
    evaluationStart evaluationEnd origin contract omitted) :
    contract.snapshotGapCount = omitted.length := by
  rw [← h.sorted_gaps.1.length_eq, List.length_append, Nat.cast_add]
  rfl

/-- **Of a recorded row** only the gaps of the evaluation may be reported: nothing is exactly when
the gaps that the contract keeps for its evaluation are those of the period. -/
theorem rowFailures_recorded {run : SourceRun}
    (h : Recorded candles timeframe rangeStart rangeEnd evaluationStart evaluationEnd origin
      contract omitted)
    (hrow : row = ⟨⟨"ohlcv", symbol, some timeframe, contract.snapshotGapCount,
      some contract.encode⟩, snapshotId, rangeStart, rangeEnd, candles.length⟩)
    (hperiod : CoversPeriod run row timeframe)
    (horigin : timeframe = .oneMinute → origin.rowCount = candles.length) :
    rowFailures run (.ohlcv row) = [] ↔
      omitted.filter (fun closeTime => evaluationStart < closeTime ∧ closeTime ≤ evaluationEnd) =
        omitted.filter fun closeTime =>
          run.periodStart < closeTime ∧ closeTime ≤ run.periodEnd := by
  subst hrow
  have hspan := h.aligned
  have haligned : ¬(rangeEnd - rangeStart ≤ 0 ∨
      (rangeEnd - rangeStart) % timeframeMilliseconds timeframe ≠ 0) := by
    rw [not_or, not_not]
    exact ⟨by omega, hspan.2⟩
  have hcount : (candles.length : ℤ) + contract.snapshotGapCount =
      (rangeEnd - rangeStart) / timeframeMilliseconds timeframe := by
    rw [h.snapshotGapCount_eq]
    exact h.count
  have hnormal : ¬∃ closeTime ∈ contract.normalGapCloseTimes,
      ¬(rangeStart < closeTime ∧ closeTime ≤ rangeEnd) ∨
        (closeTime - rangeStart) % timeframeMilliseconds timeframe ≠ 0 := by
    rintro ⟨closeTime, hmem, hoff⟩
    have hgap := (split_of_classifyOmitted h.classified).1.subset hmem
    obtain ⟨hinside, honGrid⟩ := ((h.mem_omitted closeTime).1 hgap).1
    exact hoff.elim (fun hout => hout hinside) fun hne => hne honGrid
  have hexpected : expectedEvaluationGaps run contract = omitted.filter fun closeTime =>
      run.periodStart < closeTime ∧ closeTime ≤ run.periodEnd := by
    unfold expectedEvaluationGaps
    rw [h.sorted_gaps.2]
  unfold rowFailures
  dsimp only
  rw [if_neg (not_not.2 rfl), if_neg haligned, decode_encode h.wellFormed]
  -- the decoded contract is the recorded one, so only the evaluation is left open
  unfold contractFailures
  simp only [List.append_eq_nil_iff, report_eq_nil, hexpected, h.evaluation, not_not]
  constructor
  · rintro ⟨-, ⟨⟨⟨-, hevaluation⟩, -⟩, -⟩⟩
    exact hevaluation
  · intro hevaluation
    refine ⟨⟨hcount, hperiod⟩, ⟨⟨⟨⟨h.timeframeMs, trivial⟩, hnormal⟩, hevaluation⟩,
      h.wellFormed.verified⟩, ?_⟩
    rintro ⟨hminute, -, hne⟩
    exact hne (h.facts.1.trans (horigin hminute))

end Recorded

/-! ### The two contracts -/

/-- Only the minute lasts a minute. -/
theorem eq_oneMinute_of_milliseconds {timeframe : Timeframe}
    (h : timeframeMilliseconds timeframe = minuteMilliseconds) : timeframe = .oneMinute := by
  obtain ⟨count, unit, hpos⟩ := timeframe
  simp only [timeframeMilliseconds, minuteMilliseconds] at h
  cases unit with
  | minutes =>
    simp only [unitMilliseconds] at h
    obtain rfl : count = 1 := by omega
    rfl
  | hours =>
    simp only [unitMilliseconds] at h
    omega
  | days =>
    simp only [unitMilliseconds] at h
    omega

/-- How long the minutes are that a classified bucket lacks. -/
theorem missing_of_classified {minuteGaps : List ℤ} {duration : ℤ}
    {omitted normal partials : List ℤ} (hpos : 0 < duration)
    (hdvd : duration % minuteMilliseconds = 0)
    (h : classify minuteGaps duration omitted = .ok (normal, partials)) :
    (∀ closeTime ∈ normal,
      (missingMinutes minuteGaps duration closeTime : ℤ) * minuteMilliseconds = duration) ∧
    ∀ closeTime ∈ partials,
      0 < (missingMinutes minuteGaps duration closeTime : ℤ) * minuteMilliseconds ∧
        (missingMinutes minuteGaps duration closeTime : ℤ) * minuteMilliseconds < duration := by
  have hclassified := classified_of_classify h
  have hwhole : duration / minuteMilliseconds * minuteMilliseconds = duration :=
    Int.ediv_mul_cancel (Int.dvd_of_emod_eq_zero hdvd)
  refine ⟨fun closeTime hmem => ?_, fun closeTime hmem => ?_⟩
  · rw [hclassified.normal_missing closeTime hmem, hwhole]
  · have hnotAll := hclassified.partials_missing closeTime hmem
    have hsome := (missing_of_classify h closeTime
      (hclassified.partials_sublist.subset hmem)).resolve_left hnotAll
    -- at most all minutes are counted
    have hle : (missingMinutes minuteGaps duration closeTime : ℤ) ≤
        duration / minuteMilliseconds := by
      have hcount : missingMinutes minuteGaps duration closeTime ≤
          (duration / minuteMilliseconds).toNat := by
        rw [missingMinutes_eq]
        refine (List.length_filter_le _ _).trans ?_
        rw [length_gridCloses, sub_sub_cancel]
      have hnonneg : 0 ≤ duration / minuteMilliseconds := Int.ediv_nonneg hpos.le (by decide)
      omega
    unfold minuteMilliseconds at hwhole hle hnotAll ⊢
    omega

/-- The candle of a minute is the one it lies in. -/
theorem upperClose_eq {start duration closeTime minute : ℤ} (hpos : 0 < duration)
    (haligned : duration ∣ closeTime - start) :
    upperClose start duration minute = closeTime ↔
      closeTime - duration < minute ∧ minute ≤ closeTime := by
  obtain ⟨index, hindex⟩ := haligned
  have hclose : closeTime = start + index * duration := by
    rw [mul_comm index, ← hindex]
    ring
  have hquotient : (minute - start + duration - 1) / duration = index ↔
      closeTime - duration < minute ∧ minute ≤ closeTime := by
    rw [hclose, Int.ediv_eq_iff_of_pos hpos]
    constructor <;> rintro ⟨hlow, hhigh⟩ <;> constructor <;> omega
  rw [← hquotient, upperClose, hclose, add_right_inj]
  exact mul_left_inj' hpos.ne'

/-- Every candle that closes after an instant has all its minutes. -/
def WholeCandles (timeframe : Timeframe) (start : ℤ) (candles minutes : List Candle) : Prop :=
  ∀ candle ∈ candles, start < closeMilliseconds candle →
    ∀ minute, IsMinuteOf (timeframeMilliseconds timeframe) (closeMilliseconds candle) minute →
      ∃ other ∈ minutes, closeMilliseconds other = minute

section Cross

variable {candles minutes : List Candle} {timeframe : Timeframe}
  {rangeStart minuteStart start stop : ℤ} {origin minuteOrigin : Origin}
  {strategy minute : OhlcvGapContract} {omitted minuteOmitted : List ℤ}

/-- **Missing minutes.** Each evaluated minute that is missing lies in a bucket without a candle
exactly when the evaluated candles have all their minutes. -/
theorem upperClose_mem_iff
    (hminute : Recorded minutes .oneMinute minuteStart stop start stop minuteOrigin minute
      minuteOmitted)
    (hstrategy : Recorded candles timeframe rangeStart stop start stop origin strategy omitted) :
    (∀ minuteClose ∈ minute.evaluationGridGapCloseTimes,
      upperClose start (timeframeMilliseconds timeframe) minuteClose ∈ omitted) ↔
        WholeCandles timeframe start candles minutes := by
  have hpos := timeframeMilliseconds_pos timeframe
  have hwhole := Int.dvd_of_emod_eq_zero (timeframeMilliseconds_emod timeframe)
  have hperiod := Int.dvd_of_emod_eq_zero hstrategy.evaluation_aligned.2
  have hrange := Int.dvd_of_emod_eq_zero hstrategy.aligned.2
  have hminutes : minuteMilliseconds ∣ stop - minuteStart :=
    Int.dvd_of_emod_eq_zero hminute.aligned.2
  have hminuteCovers := hminute.covers.1
  have hcovers := hstrategy.covers.1
  have hmemMinute := hminute.mem_omitted
  have hmem := hstrategy.mem_omitted
  have honGrid := hstrategy.onGrid
  have hevaluation : ∀ minuteClose, minuteClose ∈ minute.evaluationGridGapCloseTimes ↔
      minuteClose ∈ minuteOmitted ∧ start < minuteClose ∧ minuteClose ≤ stop := by
    intro minuteClose
    rw [hminute.evaluation, List.mem_filter, decide_eq_true_iff]
  change ∀ closeTime, closeTime ∈ minuteOmitted ↔
    IsGridClose minuteStart stop minuteMilliseconds closeTime ∧ _ at hmemMinute
  clear hminute hstrategy
  unfold WholeCandles
  generalize timeframeMilliseconds timeframe = duration at *
  -- every close of the strategy's grid lies whole candles after the start
  have haligned : ∀ closeTime, (closeTime - rangeStart) % duration = 0 ↔
      duration ∣ closeTime - start := by
    intro closeTime
    have hshift : duration ∣ start - rangeStart := by
      have hsub := dvd_sub hrange hperiod
      rwa [sub_sub_sub_cancel_left] at hsub
    rw [← Int.dvd_iff_emod_eq_zero, ← sub_add_sub_cancel closeTime start rangeStart]
    exact dvd_add_left hshift
  have hstart : minuteMilliseconds ∣ start - minuteStart := by
    have hsub := dvd_sub hminutes (hwhole.trans hperiod)
    rwa [sub_sub_sub_cancel_left] at hsub
  -- so a minute of the minute grid is one of a bucket, and the other way round
  have hgrid : ∀ closeTime minuteClose, duration ∣ closeTime - start →
      ((minuteClose - minuteStart) % minuteMilliseconds = 0 ↔
        (minuteClose - (closeTime - duration)) % minuteMilliseconds = 0) := by
    intro closeTime minuteClose hclose
    have hbucket : minuteMilliseconds ∣ closeTime - duration - minuteStart := by
      have hsum := dvd_add (dvd_sub (hwhole.trans hclose) hwhole) hstart
      rwa [show closeTime - start - duration + (start - minuteStart) =
        closeTime - duration - minuteStart by ring] at hsum
    rw [← Int.dvd_iff_emod_eq_zero, ← Int.dvd_iff_emod_eq_zero,
      ← sub_add_sub_cancel minuteClose (closeTime - duration) minuteStart]
    exact dvd_add_left hbucket
  constructor
  · intro hgaps candle hcandle hafter minuteClose hminuteOf
    obtain ⟨⟨hlow, hhigh⟩, hon⟩ := hminuteOf
    obtain ⟨⟨-, hstop⟩, hclose⟩ := honGrid candle hcandle
    rw [haligned] at hclose
    have hle := Int.le_of_dvd (by omega) hclose
    by_contra hnone
    -- the missing minute would be one of the evaluation
    have hmissing : minuteClose ∈ minute.evaluationGridGapCloseTimes := by
      refine (hevaluation minuteClose).2 ⟨(hmemMinute minuteClose).2 ⟨⟨⟨by omega, by omega⟩,
        (hgrid _ _ hclose).2 hon⟩, fun other hother heq => hnone ⟨other, hother, heq⟩⟩, by omega,
        by omega⟩
    have hbucket := hgaps minuteClose hmissing
    rw [(upperClose_eq hpos hclose).2 ⟨hlow, hhigh⟩] at hbucket
    exact ((hmem _).1 hbucket).2 candle hcandle rfl
  · intro hcandles minuteClose hmissing
    obtain ⟨homitted, hafter, hbefore⟩ := (hevaluation minuteClose).1 hmissing
    have hclose : duration ∣ upperClose start duration minuteClose - start := by
      rw [upperClose, add_sub_cancel_left]
      exact dvd_mul_left _ _
    obtain ⟨hlow, hhigh⟩ := (upperClose_eq hpos hclose).1 rfl
    generalize upperClose start duration minuteClose = closeTime at *
    have hstop : closeTime ≤ stop := by
      by_contra hlate
      have hdvd := dvd_sub hclose hperiod
      rw [sub_sub_sub_cancel_right] at hdvd
      have hle := Int.le_of_dvd (by omega) hdvd
      omega
    rw [hmem]
    refine ⟨⟨⟨by omega, hstop⟩, (haligned closeTime).2 hclose⟩, fun candle hcandle heq => ?_⟩
    -- a candle there would have the missing minute
    obtain ⟨⟨-, hon⟩, hnone⟩ := (hmemMinute minuteClose).1 homitted
    subst heq
    obtain ⟨other, hother, heq⟩ := hcandles candle hcandle (by omega) minuteClose
      ⟨⟨hlow, hhigh⟩, (hgrid _ _ hclose).1 hon⟩
    exact hnone other hother heq

/-- **Of the two contracts** only candles with a missing minute are reported. -/
theorem crossFailures_eq_nil {run : SourceRun} (hrun : run.timeframe = some timeframe)
    (hstart : run.periodStart = start) (htimeframe : timeframe ≠ .oneMinute)
    (hminute : Recorded minutes .oneMinute minuteStart stop start stop minuteOrigin minute
      minuteOmitted)
    (hstrategy : Recorded candles timeframe rangeStart stop start stop
      { minuteOrigin with minuteGapCloseTimes := some minute.normalGapCloseTimes } strategy
        omitted) :
    crossFailures run strategy minute = [] ↔ WholeCandles timeframe start candles minutes := by
  have hne : timeframeMilliseconds timeframe ≠ minuteMilliseconds :=
    fun heq => htimeframe (eq_oneMinute_of_milliseconds heq)
  have hclassify := hstrategy.classified
  unfold classifyOmitted at hclassify
  rw [if_neg hne] at hclassify
  obtain ⟨hnormal, hpartials⟩ := missing_of_classified (timeframeMilliseconds_pos timeframe)
    (timeframeMilliseconds_emod timeframe) hclassify
  have hdisjoint := hstrategy.wellFormed.disjoint
  have horigin : ¬(strategy.originValidationStatus ≠ minute.originValidationStatus ∨
      strategy.originMinuteRowCount ≠ minute.originMinuteRowCount ∨
        strategy.originTimestampHash ≠ minute.originTimestampHash) := by
    rw [hstrategy.facts.1, hstrategy.facts.2, hminute.facts.1, hminute.facts.2,
      hstrategy.wellFormed.verified, hminute.wellFormed.verified]
    simp
  -- the builder has classified every gap by the same minutes
  have hgap : ∀ closeTime, closeTime ∈ strategy.normalGapCloseTimes ++
      strategy.partialBucketCloseTimes ↔ closeTime ∈ omitted :=
    fun closeTime => hstrategy.sorted_gaps.1.mem_iff
  rw [← upperClose_mem_iff hminute hstrategy]
  unfold crossFailures
  rw [hrun, if_neg fun heq => htimeframe (Option.some.inj heq)]
  simp only [List.append_eq_nil_iff, List.flatMap_eq_nil_iff, report_eq_nil, not_not, hstart,
    hstrategy.timeframeMs, hgap]
  refine ⟨fun h => h.2.2, fun h => ⟨horigin, fun closeTime hmem => ?_, h⟩⟩
  rintro (⟨hmem, hmissing⟩ | ⟨hnot, hmissing⟩)
  · exact hmissing (hnormal closeTime hmem)
  · exact hmissing (hpartials closeTime
      ((List.mem_append.1 ((hgap closeTime).2 hmem)).resolve_left hnot))

/-- Minutes are not compared with themselves. -/
theorem crossFailures_self {run : SourceRun} (hrun : run.timeframe = some .oneMinute) :
    crossFailures run minute minute = [] := by
  unfold crossFailures
  rw [if_pos hrun]
  simp

end Cross

/-! ### Longer timeframes -/

/-- **The gaps of another timeframe** inside the period are those of its own evaluation, unless
the whole period lies in one of its candles: then its last candle before the period has to
exist. -/
theorem evaluation_other_iff {candles : List Candle} {timeframe : Timeframe} {origin : Origin}
    {rangeStart rangeEnd evaluationStart start stop : ℤ} {contract : OhlcvGapContract}
    {omitted : List ℤ} (h : Recorded candles timeframe rangeStart rangeEnd evaluationStart rangeEnd
      origin contract omitted)
    (hend : rangeEnd = stop - stop % timeframeMilliseconds timeframe)
    (hstart : evaluationStart = if start - start % timeframeMilliseconds timeframe = rangeEnd then
      rangeEnd - timeframeMilliseconds timeframe
      else start - start % timeframeMilliseconds timeframe) :
    (omitted.filter (fun closeTime => evaluationStart < closeTime ∧ closeTime ≤ rangeEnd) =
      omitted.filter fun closeTime => start < closeTime ∧ closeTime ≤ stop) ↔
        (start - start % timeframeMilliseconds timeframe = rangeEnd →
          ∃ candle ∈ candles, closeMilliseconds candle = rangeEnd) := by
  have hpos := timeframeMilliseconds_pos timeframe
  have hmem := h.mem_omitted
  have hspan := h.aligned
  clear h
  generalize timeframeMilliseconds timeframe = duration at *
  have hstop := Int.emod_nonneg stop hpos.ne'
  have hlow := Int.emod_nonneg start hpos.ne'
  have hhigh := Int.emod_lt_of_pos start hpos
  have hstartDvd : duration ∣ start - start % duration := Int.dvd_self_sub_emod
  have hendDvd : duration ∣ rangeEnd := hend ▸ Int.dvd_self_sub_emod
  -- the closes of the grid are multiples of the duration
  have hcloses : ∀ closeTime ∈ omitted, closeTime ≤ rangeEnd ∧ duration ∣ closeTime := by
    intro closeTime homitted
    obtain ⟨⟨⟨-, hbefore⟩, hon⟩, -⟩ := (hmem closeTime).1 homitted
    have hsub := dvd_sub (Int.dvd_of_emod_eq_zero hspan.2) (Int.dvd_of_emod_eq_zero hon)
    rw [sub_sub_sub_cancel_right] at hsub
    exact ⟨hbefore, (dvd_sub_right hendDvd).1 hsub⟩
  by_cases hsame : start - start % duration = rangeEnd
  · -- the period has no close of this timeframe, its evaluation has the one before
    rw [if_pos hsame] at hstart
    have hnone : (omitted.filter fun closeTime => start < closeTime ∧ closeTime ≤ stop) = [] := by
      rw [List.filter_eq_nil_iff]
      intro closeTime homitted
      have hbefore := (hcloses closeTime homitted).1
      rw [decide_eq_true_iff]
      omega
    have hlast : rangeEnd ∈ omitted ↔ ¬∃ candle ∈ candles, closeMilliseconds candle = rangeEnd := by
      rw [hmem, not_exists]
      simp only [not_and]
      exact and_iff_right ⟨⟨by omega, le_rfl⟩, hspan.2⟩
    rw [hnone, List.filter_eq_nil_iff]
    constructor
    · intro hempty _
      by_contra hmissing
      refine hempty rangeEnd (hlast.2 hmissing) (decide_eq_true ⟨by omega, le_rfl⟩)
    · intro hcandle closeTime homitted
      obtain ⟨hbefore, hdvd⟩ := hcloses closeTime homitted
      rw [decide_eq_true_iff]
      rintro ⟨hafter, -⟩
      -- only the end itself lies in the last candle
      obtain rfl | hlt := hbefore.eq_or_lt
      · exact hlast.1 homitted (hcandle hsame)
      · have hle := Int.le_of_dvd (by omega) (dvd_sub hendDvd hdvd)
        omega
  · -- both begin with the first close after the start
    rw [if_neg hsame] at hstart
    refine iff_of_true (List.filter_congr fun closeTime homitted => ?_) fun heq => absurd heq hsame
    obtain ⟨hbefore, hdvd⟩ := hcloses closeTime homitted
    rw [decide_eq_decide, hstart]
    refine and_congr ⟨fun hafter => ?_, fun hafter => by omega⟩
      ⟨fun _ => by omega, fun _ => hbefore⟩
    have hle := Int.le_of_dvd (by omega) (dvd_sub hdvd hstartDvd)
    omega

/-! ### The rows together -/

/-- The contract of the last row of a timeframe counts. -/
theorem contractOf_eq (before : List SourceRow) {after : List SourceRow} {row : SourceRow}
    {timeframe : Option Timeframe} {contract : OhlcvGapContract}
    (hkept : keptContract timeframe row = some contract)
    (hafter : ∀ other ∈ after, keptContract timeframe other = none) :
    contractOf (before ++ row :: after) timeframe = some contract := by
  unfold contractOf
  rw [List.filterMap_append, List.filterMap_cons_some hkept,
    List.filterMap_eq_nil_iff.2 hafter, List.getLast?_append]
  rfl

/-- What a row of candles is, for the counts and the contracts. -/
structure RowOf (symbol : String) (timeframe : Timeframe) (contract : OhlcvGapContract)
    (row : SnapshotRow) : Prop where
  wellFormed : WellFormed contract
  key : (SourceRow.ohlcv row).key = ("ohlcv", symbol, some timeframe)
  note : row.note = some contract.encode

theorem RowOf.keptContract_eq {symbol : String} {timeframe : Timeframe}
    {contract : OhlcvGapContract} {row : SnapshotRow} (h : RowOf symbol timeframe contract row)
    (other : Timeframe) : keptContract (some other) (.ohlcv row) =
      if timeframe = other then some contract else none := by
  have hkey := h.key
  simp only [SourceRow.key, Prod.mk.injEq] at hkey
  unfold keptContract
  dsimp only
  rw [hkey.1, hkey.2.2, h.note]
  simp only [true_and, Option.some.injEq, Option.bind_some, decode_encode h.wellFormed]
  rfl

theorem rowOf_recorded {candles : List Candle} {symbol : String} {timeframe : Timeframe}
    {rangeStart rangeEnd evaluationStart evaluationEnd : ℤ} {origin : Origin} {snapshotId : ℕ}
    {contract : OhlcvGapContract} {row : SnapshotRow}
    (h : recordRangedSnapshot snapshotId candles symbol timeframe rangeStart rangeEnd
      evaluationStart evaluationEnd origin = .ok (contract, row)) :
    RowOf symbol timeframe contract row := by
  obtain ⟨omitted, hrecorded, rfl⟩ := recorded_of_recordRangedSnapshot h
  exact ⟨hrecorded.wellFormed, rfl, rfl⟩

namespace SnapshotInput

variable {input : SnapshotInput} {origin : Origin} {timeframe : Timeframe}

/-- The instants of the run and the boundaries of its longer timeframes are on whole seconds of
the source's clock. -/
structure OnSeconds (input : SnapshotInput) : Prop where
  start : ∃ seconds, WholeSecond input.config.start seconds
  finish : ∃ seconds, WholeSecond input.config.finish seconds
  boundaries : ∀ timeframe ∈ input.otherTimeframes,
    (∃ seconds, WholeSecond (input.otherStart timeframe) seconds) ∧
      ∃ seconds, WholeSecond (input.otherEnd timeframe) seconds

theorem mem_otherTimeframes : timeframe ∈ input.otherTimeframes →
    timeframe ≠ .oneMinute ∧ timeframe ≠ input.config.timeframe := by
  unfold otherTimeframes
  rw [List.mem_insertionSort, List.mem_filter, decide_eq_true_iff]
  exact And.right

theorem nodup_otherTimeframes : input.otherTimeframes.Nodup := by
  unfold otherTimeframes
  exact (List.perm_insertionSort _ _).nodup_iff.2 ((List.nodup_dedup _).filter _)

/-- The last candle of another timeframe before a period that lies in one of its candles. -/
def LastCandle (input : SnapshotInput) (timeframe : Timeframe) : Prop :=
  lastClosedBoundary timeframe input.config.start = input.otherEnd timeframe →
    ∀ first candles, input.seriesCandles timeframe (input.otherEnd timeframe) =
      .ok (first, candles) →
        ∃ candle ∈ candles, closeMilliseconds candle = epochMilliseconds (input.otherEnd timeframe)

theorem rowFailures_recordOther (hseconds : input.OnSeconds)
    (hmem : timeframe ∈ input.otherTimeframes) {snapshotId : ℕ} {row : SnapshotRow}
    (h : input.recordOther origin snapshotId timeframe = .ok row) :
    (rowFailures input.sourceRun (.ohlcv row) = [] ↔ input.LastCandle timeframe) ∧
      ∃ contract, RowOf input.config.symbol timeframe contract row := by
  unfold recordOther at h
  simp only [Except.bind_eq_ok] at h
  obtain ⟨⟨first, candles⟩, hseries, ⟨contract, kept⟩, hrow, h⟩ := h
  cases h
  refine ⟨?_, contract, rowOf_recorded hrow⟩
  obtain ⟨omitted, hrecorded, heq⟩ := recorded_of_recordRangedSnapshot hrow
  obtain ⟨hne, hne'⟩ := mem_otherTimeframes hmem
  -- in milliseconds
  have hstart := instant_eq_of_second hseconds.start
  have hfinish := instant_eq_of_second hseconds.finish
  have hotherStart := instant_eq_of_second (hseconds.boundaries timeframe hmem).1
  have hotherEnd := instant_eq_of_second (hseconds.boundaries timeframe hmem).2
  have hpos := timeframeMilliseconds_pos timeframe
  have hend : epochMilliseconds (input.otherEnd timeframe) =
      epochMilliseconds input.config.finish -
        epochMilliseconds input.config.finish % timeframeMilliseconds timeframe := by
    have hboundary : input.otherEnd timeframe = input.config.finish -
        epochMilliseconds input.config.finish % timeframeMilliseconds timeframe * 1000 := rfl
    omega
  have hboundary : lastClosedBoundary timeframe input.config.start =
      (epochMilliseconds input.config.start -
        epochMilliseconds input.config.start % timeframeMilliseconds timeframe) * 1000 := by
    have hunfold : lastClosedBoundary timeframe input.config.start = input.config.start -
        epochMilliseconds input.config.start % timeframeMilliseconds timeframe * 1000 := rfl
    omega
  have hsame : lastClosedBoundary timeframe input.config.start = input.otherEnd timeframe ↔
      epochMilliseconds input.config.start -
        epochMilliseconds input.config.start % timeframeMilliseconds timeframe =
          epochMilliseconds (input.otherEnd timeframe) := by
    constructor <;> intro heq <;> omega
  have hevaluation : epochMilliseconds (input.otherStart timeframe) =
      if epochMilliseconds input.config.start -
        epochMilliseconds input.config.start % timeframeMilliseconds timeframe =
          epochMilliseconds (input.otherEnd timeframe) then
        epochMilliseconds (input.otherEnd timeframe) - timeframeMilliseconds timeframe
      else epochMilliseconds input.config.start -
        epochMilliseconds input.config.start % timeframeMilliseconds timeframe := by
    have hunfold : input.otherStart timeframe =
        if lastClosedBoundary timeframe input.config.start = input.otherEnd timeframe then
          input.otherEnd timeframe - timeframeMilliseconds timeframe * 1000
        else lastClosedBoundary timeframe input.config.start := rfl
    by_cases hcase : lastClosedBoundary timeframe input.config.start = input.otherEnd timeframe
    · rw [if_pos hcase] at hunfold
      rw [if_pos (hsame.1 hcase)]
      omega
    · rw [if_neg hcase] at hunfold
      rw [if_neg fun heq => hcase (hsame.2 heq)]
      omega
  have hlow := Int.emod_nonneg (epochMilliseconds input.config.start) hpos.ne'
  have hstop := Int.emod_nonneg (epochMilliseconds input.config.finish) hpos.ne'
  have hhigh := Int.emod_lt_of_pos (epochMilliseconds input.config.finish) hpos
  have hbefore : epochMilliseconds (input.otherStart timeframe) ≤
      epochMilliseconds input.config.start := by
    rw [hevaluation]
    split <;> omega
  have hcovers : CoversPeriod input.sourceRun kept timeframe := by
    unfold CoversPeriod
    rw [if_neg]
    · subst heq
      refine ⟨hrecorded.covers.1.trans hbefore, ?_, ?_⟩
      · show epochMilliseconds (input.otherEnd timeframe) ≤ epochMilliseconds input.config.finish
        omega
      · show epochMilliseconds input.config.finish -
          epochMilliseconds (input.otherEnd timeframe) < timeframeMilliseconds timeframe
        omega
    · rintro (hown | hown)
      · exact hne' (Option.some.inj hown).symm
      · exact hne hown
  rw [rowFailures_recorded hrecorded heq hcovers fun hown => absurd hown hne]
  refine (evaluation_other_iff hrecorded hend hevaluation).trans ?_
  -- the candles of the snapshot are those that the condition names
  unfold LastCandle
  rw [hsame]
  refine forall_congr' fun _ => ⟨?_, fun hall => hall first candles hseries⟩
  intro hcandle first' candles' hseries'
  rw [hseries] at hseries'
  cases hseries'
  exact hcandle

/-- The rows of the other timeframes. -/
theorem recordOthers_spec (hseconds : input.OnSeconds) {snapshotId : ℕ}
    {timeframes : List Timeframe} {rows : List SnapshotRow}
    (hmem : ∀ timeframe ∈ timeframes, timeframe ∈ input.otherTimeframes)
    (h : input.recordOthers origin snapshotId timeframes = .ok rows) :
    ((∀ row ∈ rows, rowFailures input.sourceRun (.ohlcv row) = []) ↔
      ∀ timeframe ∈ timeframes, input.LastCandle timeframe) ∧
    rows.map (fun row => (SourceRow.ohlcv row).key) =
      timeframes.map (fun timeframe => ("ohlcv", input.config.symbol, some timeframe)) ∧
    ∀ row ∈ rows, ∃ timeframe ∈ timeframes, ∃ contract,
      RowOf input.config.symbol timeframe contract row := by
  induction timeframes generalizing snapshotId rows with
  | nil =>
    cases h
    exact ⟨by simp, rfl, by simp⟩
  | cons timeframe rest ih =>
    rw [List.forall_mem_cons] at hmem
    unfold recordOthers at h
    simp only [Except.bind_eq_ok] at h
    obtain ⟨row, hrow, others, hothers, h⟩ := h
    cases h
    -- the first row is judged by itself, the others by induction
    obtain ⟨hiff, hkeys, hrows⟩ := ih hmem.2 hothers
    obtain ⟨hfirst, contract, hof⟩ := rowFailures_recordOther hseconds hmem.1 hrow
    refine ⟨?_, ?_, ?_⟩
    · rw [List.forall_mem_cons, List.forall_mem_cons, hfirst, hiff]
    · rw [List.map_cons, List.map_cons, hof.key, hkeys]
    · rw [List.forall_mem_cons]
      refine ⟨⟨timeframe, List.mem_cons_self, contract, hof⟩, fun other hother => ?_⟩
      obtain ⟨timeframe', hmem', hof'⟩ := hrows other hother
      exact ⟨timeframe', List.mem_cons_of_mem _ hmem', hof'⟩

/-- The rows of the minutes and of the strategy end with the period. -/
theorem rowFailures_own {snapshotId : ℕ} {candles : List Candle} {first : ℤ}
    {contract : OhlcvGapContract} {row : SnapshotRow}
    (hown : timeframe = input.config.timeframe ∨ timeframe = .oneMinute)
    (h : recordRangedSnapshot snapshotId candles input.config.symbol timeframe first
      input.config.finish input.config.start input.config.finish origin = .ok (contract, row))
    (horigin : timeframe = .oneMinute → origin.rowCount = candles.length) :
    rowFailures input.sourceRun (.ohlcv row) = [] := by
  obtain ⟨omitted, hrecorded, heq⟩ := recorded_of_recordRangedSnapshot h
  have hcovers : CoversPeriod input.sourceRun row timeframe := by
    have hcase : input.sourceRun.timeframe = some timeframe ∨ timeframe = .oneMinute :=
      hown.imp (fun htimeframe => congrArg some htimeframe.symm) id
    unfold CoversPeriod
    rw [if_pos hcase]
    subst heq
    exact ⟨hrecorded.covers.1, le_rfl⟩
  rw [rowFailures_recorded hrecorded heq hcovers horigin]
  rfl

theorem recordStrategy_eq_ok {rows : List SnapshotRow}
    (htimeframe : input.config.timeframe ≠ .oneMinute)
    (h : input.recordStrategy origin = .ok rows) : ∃ first candles contract row,
      input.seriesCandles input.config.timeframe input.config.finish = .ok (first, candles) ∧
        recordRangedSnapshot 2 candles input.config.symbol input.config.timeframe first
          input.config.finish input.config.start input.config.finish origin =
            .ok (contract, row) ∧ rows = [row] := by
  unfold recordStrategy at h
  rw [if_neg htimeframe] at h
  simp only [Except.bind_eq_ok] at h
  obtain ⟨⟨first, candles⟩, hseries, ⟨contract, row⟩, hrow, h⟩ := h
  cases h
  exact ⟨first, candles, contract, row, hseries, hrow, rfl⟩

end SnapshotInput

/-- Rows of distinct timeframes are counted once each. -/
theorem countFailures_eq_nil {run : SourceRun} {rows : List SourceRow}
    (timeframes : List Timeframe) {timeframe : Timeframe}
    (hkeys : rows.map SourceRow.key =
      (timeframes.map fun timeframe => ("ohlcv", run.symbol, some timeframe)) ++
        if run.marketType = .futures then [("funding", run.symbol, none)] else [])
    (hnodup : timeframes.Nodup) (hminute : .oneMinute ∈ timeframes)
    (hrun : run.timeframe = some timeframe) (hown : timeframe ∈ timeframes) :
    countFailures run rows = [] := by
  have hdistinct : (rows.map SourceRow.key).Nodup := by
    rw [hkeys, List.nodup_append']
    refine ⟨hnodup.map fun timeframe timeframe' heq => by simpa using heq, ?_, ?_⟩
    · split
      · exact List.nodup_singleton _
      · exact List.nodup_nil
    · intro key hkey hfunding
      obtain ⟨timeframe, -, rfl⟩ := List.mem_map.1 hkey
      split at hfunding
      · exact absurd (List.mem_singleton.1 hfunding) (by simp)
      · exact absurd hfunding List.not_mem_nil
  -- a key that occurs among distinct ones occurs once
  have hcandles : ∀ timeframe ∈ timeframes,
      ("ohlcv", run.symbol, some timeframe) ∈ rows.map SourceRow.key := by
    intro timeframe hmem
    rw [hkeys]
    exact List.mem_append_left _ (List.mem_map_of_mem hmem)
  have hfunding : run.marketType = .futures →
      ("funding", run.symbol, none) ∈ rows.map SourceRow.key := by
    intro hfutures
    rw [hkeys, if_pos hfutures]
    exact List.mem_append_right _ (List.mem_singleton_self _)
  unfold countFailures
  simp only [List.append_eq_nil_iff, report_eq_nil, not_and, not_not, not_exists, hrun]
  exact ⟨⟨⟨List.count_eq_one_of_mem hdistinct (hcandles timeframe hown),
    fun _ => List.count_eq_one_of_mem hdistinct (hcandles _ hminute)⟩,
    fun hfutures => List.count_eq_one_of_mem hdistinct (hfunding hfutures)⟩,
    fun key hkey => List.count_eq_one_of_mem hdistinct hkey⟩

section Audit

open SnapshotInput

theorem mem_fundingRows {input : SnapshotInput} {snapshotId : ℕ} {row : SourceRow}
    (h : row ∈ input.fundingRows snapshotId) :
    row = .funding snapshotId input.config.symbol ∧ input.marketType = .futures := by
  unfold fundingRows at h
  split at h
  · next hfutures => exact ⟨List.mem_singleton.1 h, hfutures⟩
  · exact absurd h List.not_mem_nil

theorem key_fundingRows (input : SnapshotInput) (snapshotId : ℕ) :
    (input.fundingRows snapshotId).map SourceRow.key =
      if input.sourceRun.marketType = .futures then
        [("funding", input.sourceRun.symbol, none)] else [] := by
  unfold fundingRows
  show _ = if input.marketType = .futures then _ else _
  split <;> rfl

variable {input : SnapshotInput} {rows : List SourceRow} {rangeStart : ℤ}

/-- What is known of the rows behind that of the strategy. -/
structure LaterRows (input : SnapshotInput) (after : List SourceRow) : Prop where
  kept : ∀ timeframe, timeframe = .oneMinute ∨ timeframe = input.config.timeframe →
    ∀ other ∈ after, keptContract (some timeframe) other = none
  failures : after.flatMap (rowFailures input.sourceRun) = [] ↔
    ∀ timeframe ∈ input.otherTimeframes, input.LastCandle timeframe
  keys : after.map SourceRow.key =
    (input.otherTimeframes.map fun timeframe =>
      ("ohlcv", input.sourceRun.symbol, some timeframe)) ++
        if input.sourceRun.marketType = .futures then
          [("funding", input.sourceRun.symbol, none)] else []

theorem laterRows_of_recordOthers (hseconds : input.OnSeconds) {origin : Origin}
    {firstId snapshotId : ℕ} {others : List SnapshotRow}
    (h : input.recordOthers origin firstId input.otherTimeframes = .ok others) :
    LaterRows input (others.map SourceRow.ohlcv ++ input.fundingRows snapshotId) := by
  obtain ⟨hfailures, hkeys, hrows⟩ := recordOthers_spec hseconds (fun _ => id) h
  refine ⟨?_, ?_, ?_⟩
  · intro timeframe htimeframe other hother
    rw [List.mem_append, List.mem_map] at hother
    rcases hother with ⟨row, hrow, rfl⟩ | hfunding
    · obtain ⟨timeframe', hmem, contract, hof⟩ := hrows row hrow
      obtain ⟨hne, hne'⟩ := mem_otherTimeframes hmem
      rw [hof.keptContract_eq, if_neg]
      rintro rfl
      exact htimeframe.elim hne hne'
    · obtain ⟨rfl, -⟩ := mem_fundingRows hfunding
      rfl
  · have hfunding : (input.fundingRows snapshotId).flatMap (rowFailures input.sourceRun) = [] := by
      refine List.flatMap_eq_nil_iff.2 fun row hrow => ?_
      obtain ⟨rfl, -⟩ := mem_fundingRows hrow
      rfl
    rw [← hfailures, List.flatMap_append, hfunding, List.append_nil, List.flatMap_map,
      List.flatMap_eq_nil_iff]
  · rw [List.map_append, List.map_map, key_fundingRows]
    exact congrArg (· ++ _) hkeys

section Rows

variable {after : List SourceRow} {minutes candles : List Candle} {minuteId snapshotId : ℕ}
  {first : ℤ} {origin : Origin} {minute contract : OhlcvGapContract} {minuteRow row : SnapshotRow}

/-- A run of minutes: its minutes are the candles of the strategy. -/
theorem sourceSnapshotFailures_of_minutes (htimeframe : input.config.timeframe = .oneMinute)
    (hafter : LaterRows input after) (hcount : origin.rowCount = minutes.length)
    (hminuteRow : recordRangedSnapshot minuteId minutes input.config.symbol .oneMinute rangeStart
      input.config.finish input.config.start input.config.finish origin = .ok (minute, minuteRow)) :
    sourceSnapshotFailures (some input.sourceRun) (.ohlcv minuteRow :: after) = [] ↔
      ∀ timeframe ∈ input.otherTimeframes, input.LastCandle timeframe := by
  have hrun : input.sourceRun.timeframe = some .oneMinute := congrArg some htimeframe
  have hof := rowOf_recorded hminuteRow
  have hkept := hof.keptContract_eq .oneMinute
  rw [if_pos rfl] at hkept
  -- the minutes are compared with themselves
  have hcontract : contractOf (.ohlcv minuteRow :: after) (some .oneMinute) = some minute :=
    contractOf_eq [] hkept (hafter.kept .oneMinute (Or.inl rfl))
  have hcounts : countFailures input.sourceRun (.ohlcv minuteRow :: after) = [] := by
    refine countFailures_eq_nil (.oneMinute :: input.otherTimeframes) ?_
      (List.nodup_cons.2 ⟨fun hmem => (mem_otherTimeframes hmem).1 rfl, nodup_otherTimeframes⟩)
      List.mem_cons_self hrun List.mem_cons_self
    rw [List.map_cons, hafter.keys, hof.key]
    rfl
  unfold sourceSnapshotFailures
  dsimp only
  rw [hrun, hcontract]
  dsimp only
  rw [crossFailures_self hrun, hcounts, List.append_nil, List.nil_append, List.flatMap_cons,
    rowFailures_own (Or.inr rfl) hminuteRow fun _ => hcount, List.nil_append, hafter.failures]

/-- A run of longer candles: its two contracts are compared. -/
theorem sourceSnapshotFailures_of_strategy (htimeframe : input.config.timeframe ≠ .oneMinute)
    (hafter : LaterRows input after) (hcount : origin.rowCount = minutes.length)
    (hminuteRow : recordRangedSnapshot minuteId minutes input.config.symbol .oneMinute rangeStart
      input.config.finish input.config.start input.config.finish origin = .ok (minute, minuteRow))
    (hrow : recordRangedSnapshot snapshotId candles input.config.symbol input.config.timeframe first
      input.config.finish input.config.start input.config.finish
      { origin with minuteGapCloseTimes := some minute.normalGapCloseTimes } =
        .ok (contract, row)) :
    sourceSnapshotFailures (some input.sourceRun) (.ohlcv minuteRow :: .ohlcv row :: after) = [] ↔
      WholeCandles input.config.timeframe (epochMilliseconds input.config.start) candles minutes ∧
        ∀ timeframe ∈ input.otherTimeframes, input.LastCandle timeframe := by
  have hrun : input.sourceRun.timeframe = some input.config.timeframe := rfl
  have hminuteOf := rowOf_recorded hminuteRow
  have hof := rowOf_recorded hrow
  have hkeptMinute := hminuteOf.keptContract_eq .oneMinute
  have hkept := hof.keptContract_eq input.config.timeframe
  have hkept' := hof.keptContract_eq .oneMinute
  rw [if_pos rfl] at hkeptMinute hkept
  rw [if_neg htimeframe] at hkept'
  -- each of the two contracts is found under its timeframe
  have hcontract : contractOf (.ohlcv minuteRow :: .ohlcv row :: after) (some .oneMinute) =
      some minute :=
    contractOf_eq [] hkeptMinute (List.forall_mem_cons.2 ⟨hkept', hafter.kept _ (Or.inl rfl)⟩)
  have hstrategy : contractOf (.ohlcv minuteRow :: .ohlcv row :: after)
      (some input.config.timeframe) = some contract :=
    contractOf_eq [.ohlcv minuteRow] hkept (hafter.kept _ (Or.inr rfl))
  -- no timeframe has two rows, so the counts agree
  have hcounts : countFailures input.sourceRun (.ohlcv minuteRow :: .ohlcv row :: after) = [] := by
    refine countFailures_eq_nil (.oneMinute :: input.config.timeframe :: input.otherTimeframes)
      ?_ ?_ List.mem_cons_self hrun (List.mem_cons_of_mem _ List.mem_cons_self)
    · rw [List.map_cons, List.map_cons, hafter.keys, hminuteOf.key, hof.key]
      rfl
    · rw [List.nodup_cons, List.nodup_cons, List.mem_cons, not_or]
      exact ⟨⟨fun heq => htimeframe heq.symm, fun hmem => (mem_otherTimeframes hmem).1 rfl⟩,
        fun hmem => (mem_otherTimeframes hmem).2 rfl, nodup_otherTimeframes⟩
  obtain ⟨minuteOmitted, hminuteRecorded, -⟩ := recorded_of_recordRangedSnapshot hminuteRow
  obtain ⟨omitted, hrecorded, -⟩ := recorded_of_recordRangedSnapshot hrow
  -- what is left is the comparison of the two contracts
  have hcross : crossFailures input.sourceRun contract minute = [] ↔ WholeCandles
      input.config.timeframe (epochMilliseconds input.config.start) candles minutes :=
    crossFailures_eq_nil hrun rfl htimeframe hminuteRecorded hrecorded
  unfold sourceSnapshotFailures
  dsimp only
  rw [hrun, hcontract, hstrategy]
  dsimp only
  rw [hcounts, List.nil_append, List.flatMap_cons, List.flatMap_cons,
    rowFailures_own (Or.inr rfl) hminuteRow fun _ => hcount,
    rowFailures_own (Or.inl rfl) hrow fun heq => absurd heq htimeframe, List.nil_append,
    List.nil_append, List.append_eq_nil_iff, hafter.failures, hcross, and_comm]

end Rows

/-- **Exactly when nothing is reported** about the rows that a run has recorded: every evaluated
candle of the strategy has all its minutes, and every timeframe of a series in whose candle the
whole period lies has its last candle before it. -/
theorem sourceSnapshotFailures_of_recorded (hseconds : input.OnSeconds)
    (hrange : input.earliestOpen input.config.timeframe (input.config.specs.map (·.timeframe)) =
      .ok rangeStart)
    (h : input.recordSourceSnapshots = .ok rows) :
    sourceSnapshotFailures (some input.sourceRun) rows = [] ↔
      (input.config.timeframe ≠ .oneMinute → ∀ first candles,
        input.seriesCandles input.config.timeframe input.config.finish = .ok (first, candles) →
          WholeCandles input.config.timeframe (epochMilliseconds input.config.start) candles
            (snapshotCandles rangeStart input.config.finish input.minuteHistory)) ∧
      ∀ timeframe ∈ input.otherTimeframes, input.LastCandle timeframe := by
  unfold recordSourceSnapshots at h
  simp only [Except.bind_eq_ok] at h
  obtain ⟨_, hrange', -, -, origin, horigin, ⟨minute, minuteRow⟩, hminuteRow, strategy, hstrategy,
    others, hothers, h⟩ := h
  rw [hrange] at hrange'
  cases hrange'
  cases h
  -- the origin was checked against the minutes it counts
  have hcount : origin.rowCount =
      (snapshotCandles rangeStart input.config.finish input.minuteHistory).length := by
    unfold validateMinuteOrigin at horigin
    simp only [Except.bind_eq_ok, require_eq_ok] at horigin
    obtain ⟨-, hobserved, horigin⟩ := horigin
    cases horigin
    dsimp only
    rw [hobserved]
  by_cases htimeframe : input.config.timeframe = .oneMinute
  · -- a run on minutes has no snapshot but theirs
    have hnone : strategy = [] := by
      unfold recordStrategy at hstrategy
      rw [if_pos htimeframe] at hstrategy
      cases hstrategy
      rfl
    subst hnone
    refine (sourceSnapshotFailures_of_minutes htimeframe
      (laterRows_of_recordOthers hseconds hothers) hcount hminuteRow).trans ?_
    exact ⟨fun hlast => ⟨fun hne => absurd htimeframe hne, hlast⟩, And.right⟩
  · obtain ⟨first, candles, contract, row, hseries, hrow, rfl⟩ :=
      recordStrategy_eq_ok htimeframe hstrategy
    refine (sourceSnapshotFailures_of_strategy htimeframe
      (laterRows_of_recordOthers hseconds hothers) hcount hminuteRow hrow).trans ?_
    refine and_congr_left fun _ => ⟨fun hwhole _ first' candles' hseries' => ?_,
      fun hall => hall htimeframe first candles hseries⟩
    rw [hseries] at hseries'
    cases hseries'
    exact hwhole

end Audit

/-! ### Six minutes with a hole of two -/

/-- The candles of a timeframe with the given opens, in minutes. -/
def candlesAt (timeframe : Timeframe) (opens : List ℕ) : List Candle :=
  opens.map fun minute : ℕ =>
    Candle.flat "BTCUSDT" timeframe (minute * Instant.minute) (Binary64.ofRat 100) hundred_pos

def twoMinute : Timeframe := ⟨2, .minutes, Nat.two_pos⟩

theorem zero_lt_three : 0 < 3 := Nat.succ_pos 2

def threeMinute : Timeframe := ⟨3, .minutes, zero_lt_three⟩

/-- A series of three minutes over a run of two-minute candles. -/
def holedConfig : WarmUp.HistoryConfig where
  symbol := "BTCUSDT"
  referenceSymbol := none
  timeframe := twoMinute
  start := 6 * Instant.minute
  finish := 12 * Instant.minute
  minHistory := 1
  specs := [{
    name := "sma"
    params := []
    timeframe := threeMinute
    needsReferenceSeries := false
    minHistory := 1
    undefinedOutputs := []
    warmedUp := fun _ => true
    compute := fun _ => .named [] }]
  policy := none
  minHistory_pos := Nat.one_pos
  specs_pos := by
    intro spec hspec
    rw [List.mem_singleton.1 hspec]
    exact Nat.one_pos

/-- Its candles: the ninth and the tenth minute are missing, and with them the two-minute candle
that they are and both three-minute candles that they are of. -/
def holedHistories (stream : SignalService.CandleStream) : Option (List Candle) :=
  if stream.2 = twoMinute then some (candlesAt twoMinute [4, 6, 10])
  else some (candlesAt threeMinute [3])

def holedMinutes : List Candle := candlesAt .oneMinute [3, 4, 5, 6, 7, 10, 11]

def holed : SnapshotInput where
  config := holedConfig
  marketType := .futures
  minuteHistory := holedMinutes
  prepared := {
    histories := holedHistories
    preload := fun stream =>
      if stream.2 = twoMinute then candlesAt twoMinute [4] else candlesAt threeMinute [3]
    setup := WarmUp.setupOf holedConfig [] holedHistories
    turtleN := [] }
  sourceCandles := fun _ rangeStart rangeEnd => snapshotCandles rangeStart rangeEnd holedMinutes
  sha256 := fun _ => someHash
  reference_none := rfl

theorem exists_recorded_holed : ∃ rows, holed.recordSourceSnapshots = .ok rows := by
  have hok : holed.recordSourceSnapshots.isOk = true := by decide +kernel
  cases hrows : holed.recordSourceSnapshots with
  | ok rows => exact ⟨rows, rfl⟩
  | error fault =>
    rw [hrows] at hok
    cases hok

theorem onSeconds_holed : holed.OnSeconds where
  start := ⟨360, rfl, by norm_num⟩
  finish := ⟨720, rfl, by norm_num⟩
  boundaries := by
    intro timeframe hmem
    have hothers : holed.otherTimeframes = [threeMinute] := by decide +kernel
    have hstart : holed.otherStart threeMinute = 360 * 1000000 := by decide +kernel
    have hend : holed.otherEnd threeMinute = 720 * 1000000 := by decide +kernel
    rw [hothers, List.mem_singleton] at hmem
    subst hmem
    exact ⟨⟨360, hstart, by norm_num⟩, ⟨720, hend, by norm_num⟩⟩

/-- The two-minute candles that exist have both their minutes. -/
theorem wholeCandles_holed : WholeCandles twoMinute (epochMilliseconds (6 * Instant.minute))
    (snapshotCandles (4 * Instant.minute) (12 * Instant.minute) (candlesAt twoMinute [4, 6, 10]))
    (snapshotCandles (3 * Instant.minute) (12 * Instant.minute) holedMinutes) := by
  have hmillis : timeframeMilliseconds twoMinute = 120000 := rfl
  have hclosed : ∀ candle ∈ snapshotCandles (4 * Instant.minute) (12 * Instant.minute)
      (candlesAt twoMinute [4, 6, 10]), ∀ minute ∈ [closeMilliseconds candle - 60000,
        closeMilliseconds candle], ∃ other ∈ snapshotCandles (3 * Instant.minute)
          (12 * Instant.minute) holedMinutes, closeMilliseconds other = minute := by
    decide +kernel
  rintro candle hcandle - minute ⟨⟨hlow, hhigh⟩, hon⟩
  rw [hmillis] at hlow hon
  unfold minuteMilliseconds at hon
  refine hclosed candle hcandle minute ?_
  rw [List.mem_cons, List.mem_singleton]
  omega

theorem sourceSnapshotFailures_of_hole : ∃ rows, holed.recordSourceSnapshots = .ok rows ∧
    sourceSnapshotFailures (some holed.sourceRun) rows = [] := by
  obtain ⟨rows, hrows⟩ := exists_recorded_holed
  have hrange : holed.earliestOpen holed.config.timeframe
      (holed.config.specs.map (·.timeframe)) = .ok (3 * Instant.minute) := by decide +kernel
  have hseries : holed.seriesCandles holed.config.timeframe holed.config.finish =
      .ok (4 * Instant.minute, snapshotCandles (4 * Instant.minute) (12 * Instant.minute)
        (candlesAt twoMinute [4, 6, 10])) := by rfl
  have hlast : ∀ timeframe ∈ holed.otherTimeframes,
      lastClosedBoundary timeframe holed.config.start ≠ holed.otherEnd timeframe := by
    decide +kernel
  refine ⟨rows, hrows, (sourceSnapshotFailures_of_recorded onSeconds_holed hrange hrows).2
    ⟨fun _ first candles hfirst => ?_, fun timeframe hmem heq => absurd heq (hlast timeframe hmem)⟩⟩
  rw [hseries] at hfirst
  cases hfirst
  exact wholeCandles_holed

end OhlcvGaps
end TradingSystem
