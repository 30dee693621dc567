import TradingSystem.Costs.FundingWalk
import TradingSystem.Data.LongestRun
import TradingSystem.Evidence.GapExactness
import TradingSystem.Types.Clock

/-!
# The statistics of the evaluation gaps

`_set_gap_stats` measures the gaps of the evaluation range: the longest run of adjacent missing
closes, the share of the candles that are there, and the funding boundaries that no candle
observes. A boundary is counted when the candles before and after it are both missing. That is a
boundary on the grid strictly inside missing time; a boundary in the middle of a missing candle
is not counted.

* `setGapStats` — the statistics, with the floats of the source.
* `epochMilliseconds_of_second` — on whole seconds the floats are exact.
* `exactStats_of_gridGaps` — what the statistics are, for every set of missing closes.
-/

namespace TradingSystem
namespace OhlcvGaps

open Numeric Data Logic

/-! ### The statistics -/

def minDataCoverageRatio : Binary64 := Binary64.ofRat (95 / 100)

/-- `MAX_CONSECUTIVE_GAP_SECONDS`. -/
def maxConsecutiveGapSecondsAllowed : ℤ := 86400

/-- The gap statistics of a run. -/
structure GapStats where
  expectedCandleCount : ℤ
  observedCandleCount : ℤ
  sourceAbsentGapCount : ℕ
  partialBucketCount : ℕ
  dataCoverageRatio : Binary64
  maxConsecutiveGapBars : ℕ
  maxConsecutiveGapSeconds : ℤ
  dataCoveragePassed : Bool
  unobservableFundingBoundaryCount : ℕ

/-- The number of candles of a span: its seconds as a float, a thousand times that, over the
timeframe. -/
def expectedCount (timeframeMs start finish : ℤ) : ℤ :=
  let seconds := Binary64.ofRat ((finish - start) / 1000000)
  let milliseconds := seconds.mul (Binary64.ofRat 1000)
  truncated (milliseconds.div (Binary64.ofRat timeframeMs))

/-- `at.timestamp() * 1_000`. -/
def timestampMilliseconds (instant : ℤ) : Binary64 :=
  (timestamp instant).mul (Binary64.ofRat 1000)

/-- How many closes lie in the evaluation range, compared with its floats. -/
def countWithin (start finish : ℤ) (closeTimes : List ℤ) : ℕ :=
  closeTimes.countP fun value =>
    (timestampMilliseconds start).val < value ∧ value ≤ (timestampMilliseconds finish).val

/-- A boundary whose candle and the one after it are both missing. -/
def isUnobservable (timeframeMs : ℤ) (gaps : List ℤ) (boundary : ℤ) : Bool :=
  decide (epochMilliseconds boundary ∈ gaps ∧ epochMilliseconds boundary + timeframeMs ∈ gaps)

/-- **`_set_gap_stats`** over the configured range. -/
def setGapStats (contract : Option OhlcvGapContract) (start finish : ℤ) :
    Except Fault GapStats :=
  match contract with
  | none => .error (.runtimeError "strategy gap contract was not recorded")
  | some contract => do
      let expected := expectedCount contract.timeframeMs start finish
      let missing := contract.evaluationGridGapCount
      let longest :=
        (LongestRun.scan contract.timeframeMs contract.evaluationGridGapCloseTimes).longest
      require (expected ≠ 0) .zeroDivision
      let coverage := Binary64.ofRat (((expected - missing : ℤ) : ℚ) / (expected : ℚ))
      let maxGapSeconds := longest * contract.timeframeMs / 1000
      let boundaries ← FundingWalk.boundariesBetween start finish
      return {
        expectedCandleCount := expected
        observedCandleCount := expected - missing
        sourceAbsentGapCount := countWithin start finish contract.normalGapCloseTimes
        partialBucketCount := countWithin start finish contract.partialBucketCloseTimes
        dataCoverageRatio := coverage
        maxConsecutiveGapBars := longest
        maxConsecutiveGapSeconds := maxGapSeconds
        dataCoveragePassed := decide (minDataCoverageRatio ≤ coverage) &&
          decide (maxGapSeconds ≤ maxConsecutiveGapSecondsAllowed)
        unobservableFundingBoundaryCount := boundaries.countP
          (isUnobservable contract.timeframeMs contract.evaluationGridGapCloseTimes) }

/-! ### Whole seconds -/

/-- On a range of whole candles the count of the source is that of the grid. -/
theorem expectedCount_eq {timeframeMs start finish startSecond finishSecond : ℤ}
    (hstart : WholeSecond start startSecond) (hfinish : WholeSecond finish finishSecond)
    (hpos : 0 < timeframeMs) (hspan : startSecond < finishSecond)
    (hdvd : (finishSecond * 1000 - startSecond * 1000) % timeframeMs = 0) :
    expectedCount timeframeMs start finish =
      (gridCloses (startSecond * 1000) (finishSecond * 1000) timeframeMs).length := by
  obtain ⟨count, hcount⟩ := Int.dvd_of_emod_eq_zero hdvd
  have hsmall := abs_le.1 hstart.small
  have hsmall' := abs_le.1 hfinish.small
  have hcount_pos : 0 < count := pos_of_mul_pos_right (by omega) hpos.le
  have hcount_le : count ≤ timeframeMs * count := le_mul_of_one_le_left hcount_pos.le hpos
  have htimeframe_le : timeframeMs ≤ timeframeMs * count :=
    le_mul_of_one_le_right hpos.le hcount_pos
  have hseconds : ((finish : ℚ) - start) / 1000000 = ((finishSecond - startSecond : ℤ) : ℚ) := by
    rw [sub_div, hfinish.div_eq, hstart.div_eq]
    push_cast
    rfl
  have hproduct : ((finishSecond - startSecond : ℤ) : ℚ) * ((1000 : ℤ) : ℚ) =
      ((timeframeMs * count : ℤ) : ℚ) := by
    rw [← hcount]
    push_cast
    ring
  have hquotient : ((timeframeMs * count : ℤ) : ℚ) / (timeframeMs : ℚ) = (count : ℚ) := by
    push_cast
    exact mul_div_cancel_left₀ _ (by exact_mod_cast hpos.ne')
  have hthousand : (1000 : ℚ) = ((1000 : ℤ) : ℚ) := by norm_num
  unfold expectedCount Binary64.mul Binary64.div truncated
  dsimp only [Binary64.ofRat_val]
  -- no step rounds
  rw [hseconds, hthousand, round_intCast (abs_le.2 ⟨by omega, by omega⟩),
    round_intCast (abs_le.2 ⟨by omega, by omega⟩), hproduct,
    round_intCast (abs_le.2 ⟨by omega, by omega⟩), round_intCast (abs_le.2 ⟨by omega, by omega⟩),
    hquotient, round_intCast (abs_le.2 ⟨by omega, by omega⟩), Rat.num_intCast, Rat.den_intCast,
    length_gridCloses, hcount, Int.mul_ediv_cancel_left _ hpos.ne']
  rw [Nat.cast_one, Int.tdiv_one, Int.toNat_of_nonneg hcount_pos.le]

/-! ### Funding boundaries and missing time -/

/-- An instant, in milliseconds, that belongs to a missing candle. -/
def IsMissing (timeframeMs : ℤ) (gaps : List ℤ) (instant : ℤ) : Prop :=
  ∃ closeTime ∈ gaps, closeTime - timeframeMs < instant ∧ instant ≤ closeTime

/-- Strictly inside missing time: it has not ended, and goes on. -/
def IsInsideMissing (timeframeMs : ℤ) (gaps : List ℤ) (instant : ℤ) : Prop :=
  IsMissing timeframeMs gaps instant ∧ IsMissing timeframeMs gaps (instant + 1)

/-- The missing closes of a range lie on its grid, in their order. -/
structure GridGaps (rangeStart rangeEnd timeframeMs : ℤ) (gaps : List ℤ) : Prop where
  increasing : gaps.Pairwise (· < ·)
  onGrid : ∀ closeTime ∈ gaps, IsGridClose rangeStart rangeEnd timeframeMs closeTime

/-- **On the grid** a close is strictly inside missing time exactly when the candles before and
after it are missing. -/
theorem GridGaps.inside_iff {rangeStart rangeEnd timeframeMs instant : ℤ} {gaps : List ℤ}
    (h : GridGaps rangeStart rangeEnd timeframeMs gaps) (hpos : 0 < timeframeMs) :
    instant ∈ gaps ∧ instant + timeframeMs ∈ gaps ↔
      IsGridClose rangeStart rangeEnd timeframeMs instant ∧
        IsInsideMissing timeframeMs gaps instant := by
  constructor
  · rintro ⟨hmem, hnext⟩
    exact ⟨h.onGrid _ hmem, ⟨instant, hmem, by omega, le_rfl⟩,
      ⟨instant + timeframeMs, hnext, by omega, by omega⟩⟩
  · rintro ⟨⟨-, halign⟩, ⟨closeTime, hmem, hafter, hbefore⟩, closeTime', hmem', hafter', hbefore'⟩
    obtain ⟨steps, hsteps⟩ := Int.dvd_of_emod_eq_zero halign
    obtain ⟨count, hcount⟩ := Int.dvd_of_emod_eq_zero (h.onGrid _ hmem).2
    obtain ⟨count', hcount'⟩ := Int.dvd_of_emod_eq_zero (h.onGrid _ hmem').2
    -- the distance of two closes of the grid is a number of candles
    have hnumber : count = steps := by
      apply LongestRun.eq_of_mul_lt hpos
      · rw [mul_add, mul_one]
        omega
      · rw [mul_add, mul_one]
        omega
    have hnumber' : count' = steps + 1 := by
      apply LongestRun.eq_of_mul_lt hpos
      · rw [mul_add, mul_add, mul_one]
        omega
      · rw [mul_add, mul_add, mul_one]
        omega
    rw [hnumber] at hcount
    rw [hnumber', mul_add, mul_one] at hcount'
    have heq : closeTime = instant := by omega
    have heq' : closeTime' = instant + timeframeMs := by omega
    rw [heq] at hmem
    rw [heq'] at hmem'
    exact ⟨hmem, hmem'⟩

/-- The number of the instants with a property, each counted once. -/
def Counts (number : ℕ) (property : ℤ → Prop) : Prop :=
  ∃ instants : List ℤ, instants.Nodup ∧ (∀ instant, instant ∈ instants ↔ property instant) ∧
    number = instants.length

/-- A funding boundary of the range, after its start and up to its end. -/
def IsFundingBoundary (start finish boundary : ℤ) : Prop :=
  (start < boundary ∧ boundary ≤ finish) ∧ isBoundary boundary = true

/-! ### What the statistics are -/

/-- **Exact statistics** of the missing closes of a range. -/
structure ExactStats (contract : OhlcvGapContract) (start finish startSecond finishSecond : ℤ)
    (stats : GapStats) : Prop where
  /-- the longest run of adjacent missing closes -/
  longest : IsGreatest {length | ∃ last, LongestRun.IsRun contract.evaluationGridGapCloseTimes
    contract.timeframeMs last length} stats.maxConsecutiveGapBars
  /-- the closes of the grid that are not missing, over all of them -/
  coverage : stats.dataCoverageRatio = Binary64.ofRat
    ((((gridCloses (startSecond * 1000) (finishSecond * 1000) contract.timeframeMs).length : ℚ) -
      contract.evaluationGridGapCloseTimes.length) /
        (gridCloses (startSecond * 1000) (finishSecond * 1000) contract.timeframeMs).length)
  /-- the funding boundaries on the grid that lie strictly inside missing time -/
  unobservable : Counts stats.unobservableFundingBoundaryCount fun boundary =>
    IsFundingBoundary start finish boundary ∧
      IsGridClose (startSecond * 1000) (finishSecond * 1000) contract.timeframeMs
        (epochMilliseconds boundary) ∧
      IsInsideMissing contract.timeframeMs contract.evaluationGridGapCloseTimes
        (epochMilliseconds boundary)

/-- **The statistics are exact**, for every range of the calendar on the candle grid and every set
of missing closes on it. The walk over the funding boundaries steps past the last day of the range,
so the range ends before the last day that a `datetime` holds. -/
theorem exactStats_of_gridGaps {contract : OhlcvGapContract}
    {start finish startSecond finishSecond : ℤ} (hstart : WholeSecond start startSecond)
    (hfinish : WholeSecond finish finishSecond) (hspan : startSecond < finishSecond)
    (hcalendar : Resampling.calendarStart ≤ start) (hlast : finish < FundingWalk.lastDay)
    (hpos : 0 < contract.timeframeMs)
    (hdvd : (finishSecond * 1000 - startSecond * 1000) % contract.timeframeMs = 0)
    (hgaps : GridGaps (startSecond * 1000) (finishSecond * 1000) contract.timeframeMs
      contract.evaluationGridGapCloseTimes) :
    ∃ stats, setGapStats (some contract) start finish = .ok stats ∧
      ExactStats contract start finish startSecond finishSecond stats := by
  have hexpected := expectedCount_eq hstart hfinish hpos hspan hdvd
  have hle : start ≤ finish := by
    rw [hstart.instant_eq, hfinish.instant_eq]
    omega
  have hboundaries := FundingWalk.boundariesBetween_isOk hcalendar hle hlast
  have hne : expectedCount contract.timeframeMs start finish ≠ 0 := by
    obtain ⟨count, hcount⟩ := Int.dvd_of_emod_eq_zero hdvd
    have hcount_pos : 0 < count := pos_of_mul_pos_right (by omega) hpos.le
    rw [hexpected, length_gridCloses, hcount, Int.mul_ediv_cancel_left _ hpos.ne']
    omega
  have hreturned : ∃ stats, setGapStats (some contract) start finish = .ok stats ∧
      stats.maxConsecutiveGapBars = (LongestRun.scan contract.timeframeMs
        contract.evaluationGridGapCloseTimes).longest ∧
      stats.dataCoverageRatio = Binary64.ofRat
        (((expectedCount contract.timeframeMs start finish - contract.evaluationGridGapCount : ℤ) :
          ℚ) / (expectedCount contract.timeframeMs start finish : ℚ)) ∧
      stats.unobservableFundingBoundaryCount = (listedBoundaries start finish).countP
        (isUnobservable contract.timeframeMs contract.evaluationGridGapCloseTimes) := by
    unfold setGapStats
    simp only [Except.bind_eq_ok, require_eq_ok, hboundaries]
    exact ⟨_, ⟨⟨⟩, hne, _, rfl, rfl⟩, rfl, rfl, rfl⟩
  obtain ⟨stats, hstats, hlongest, hcoverage, hcount⟩ := hreturned
  refine ⟨stats, hstats, ⟨?_, ?_, ?_⟩⟩
  · -- the missing closes increase on the grid
    rw [hlongest]
    refine LongestRun.isGreatest_scan hpos hgaps.increasing fun value hvalue other hother => ?_
    have hdistance := dvd_sub (Int.dvd_of_emod_eq_zero (hgaps.onGrid value hvalue).2)
      (Int.dvd_of_emod_eq_zero (hgaps.onGrid other hother).2)
    rwa [sub_sub_sub_cancel_right] at hdistance
  · rw [hcoverage, hexpected]
    unfold OhlcvGapContract.evaluationGridGapCount
    push_cast
    rfl
  · -- no boundary is listed twice
    have hnodup := (FundingWalk.boundariesBetween_pairwise hboundaries).imp ne_of_lt
    refine ⟨(listedBoundaries start finish).filter (isUnobservable contract.timeframeMs
      contract.evaluationGridGapCloseTimes), hnodup.filter _, ?_, ?_⟩
    · intro boundary
      rw [List.mem_filter]
      have hmem : boundary ∈ listedBoundaries start finish ↔
          IsFundingBoundary start finish boundary :=
        (FundingWalk.mem_boundariesBetween hboundaries).trans and_assoc.symm
      refine and_congr hmem ?_
      -- the two candles around the boundary are missing
      unfold isUnobservable
      rw [decide_eq_true_iff]
      exact hgaps.inside_iff hpos
    · rw [hcount, List.countP_eq_length_filter]

/-- A range that ends on the last day has no statistics: the boundaries cannot be enumerated. -/
theorem setGapStats_of_lastDay {contract : OhlcvGapContract} {start finish : ℤ} {stats : GapStats}
    (hstart : Resampling.InCalendar start) (hle : start ≤ finish)
    (hlast : FundingWalk.lastDay ≤ finish) :
    setGapStats (some contract) start finish ≠ .ok stats := by
  intro hreturned
  unfold setGapStats at hreturned
  simp only [Except.bind_eq_ok] at hreturned
  obtain ⟨_, -, boundaries, hboundaries, -⟩ := hreturned
  rw [FundingWalk.boundariesBetween_eq_error hstart hle hlast] at hboundaries
  cases hboundaries

/-! ### A missing day -/

/-- A day of daily candles without a candle. -/
def missingDay : OhlcvGapContract :=
  ⟨86400000, [86400000], [], [86400000], "verified", 0, someHash⟩

/-- Three hours of hourly candles, the first two missing. -/
def missingMorning : OhlcvGapContract :=
  ⟨3600000, [28800000, 32400000], [], [28800000, 32400000], "verified", 60, someHash⟩

/-- The boundary at eight o'clock, between the two missing hours, is counted. -/
theorem exactStats_of_morning : ∃ stats,
    setGapStats (some missingMorning) (7 * Instant.hour) (10 * Instant.hour) = .ok stats ∧
      ExactStats missingMorning (7 * Instant.hour) (10 * Instant.hour) 25200 36000 stats := by
  have hstart : WholeSecond (7 * Instant.hour) 25200 := ⟨rfl, by norm_num⟩
  have hfinish : WholeSecond (10 * Instant.hour) 36000 := ⟨rfl, by norm_num⟩
  refine exactStats_of_gridGaps hstart hfinish (by decide) (by decide) (by decide) (by decide)
    (by decide) ⟨?_, ?_⟩
  · change List.Pairwise (· < ·) [(28800000 : ℤ), 32400000]
    decide
  · intro closeTime hmem
    change closeTime ∈ [(28800000 : ℤ), 32400000] at hmem
    simp only [List.mem_cons, List.not_mem_nil, or_false] at hmem
    unfold IsGridClose missingMorning
    rcases hmem with rfl | rfl <;> decide

/-- **A missing day of daily candles**: eight and sixteen o'clock lie strictly inside missing
time, and no boundary is counted. And three hours up to the last midnight of the calendar have no
statistics. -/
theorem not_counts_of_missing_day : (∃ stats,
    setGapStats (some missingDay) 0 Instant.day = .ok stats ∧
      ¬Counts stats.unobservableFundingBoundaryCount fun boundary =>
        IsFundingBoundary 0 Instant.day boundary ∧
          IsInsideMissing missingDay.timeframeMs missingDay.evaluationGridGapCloseTimes
            (epochMilliseconds boundary)) ∧
    ∀ stats, setGapStats (some { missingDay with
        timeframeMs := 3600000
        normalGapCloseTimes := []
        evaluationGridGapCloseTimes := [] })
      (FundingWalk.lastDay - 3 * Instant.hour) FundingWalk.lastDay ≠ .ok stats := by
  refine ⟨?_, fun stats => setGapStats_of_lastDay (by decide) (by decide) le_rfl⟩
  -- the code counts nothing, and eight in the morning lies inside the missing day
  have hcount : returnsWith (setGapStats (some missingDay) 0 Instant.day)
      (fun stats => decide (stats.unobservableFundingBoundaryCount = 0)) = true := by
    decide +kernel
  obtain ⟨stats, hstats, hzero⟩ := exists_of_returnsWith hcount
  refine ⟨stats, hstats, ?_⟩
  rintro ⟨instants, -, hmem, hlength⟩
  rw [of_decide_eq_true hzero] at hlength
  have hmorning : 8 * Instant.hour ∈ instants := by
    have hsecond : WholeSecond (8 * Instant.hour) 28800 := ⟨rfl, by norm_num⟩
    have hinstant : epochMilliseconds (8 * Instant.hour) = 28800000 :=
      epochMilliseconds_of_second hsecond
    refine (hmem _).2 ⟨⟨by decide, by decide⟩, ?_⟩
    rw [hinstant]
    have hday : (86400000 : ℤ) ∈ missingDay.evaluationGridGapCloseTimes := List.mem_cons_self
    exact ⟨⟨86400000, hday, by decide, by decide⟩, 86400000, hday, by decide, by decide⟩
  rw [List.eq_nil_of_length_eq_zero hlength.symm] at hmorning
  cases hmorning

end OhlcvGaps
end TradingSystem
