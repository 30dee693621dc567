import TradingSystem.Engine.Simulation
import TradingSystem.Evidence.GapContract
import TradingSystem.Numeric.EvenSplit

/-!
# Segments of a run

The harness cuts the range of a run into segments and runs each of them on its own: in and out
of sample at a split, or chronological folds of a walk-forward run. Neither cut looks at the
timeframe, although the gap contract of a segment asks for a whole number of candles.

* `Runnable` — the segments follow each other over the whole range, each is on the candle grid,
  and every bar of the range lies in exactly one.
* `Cuts.runnable` — cuts on the candle grid make runnable segments.
* `walkForward_runnable_iff` — folds are runnable exactly when their number divides the number
  of candles, and the doubles of the cuts are precise enough for the span.
* `isOos_runnable_iff` — a split is runnable exactly when it lies within half a microsecond of a
  whole number of candles.
* `harness_runnable_iff` — both.
-/

namespace TradingSystem
namespace Harness

open Numeric Logic OhlcvGaps

/-! ### Cutting a range -/

/-- `timedelta * float`: the exact product in microseconds, rounded half to even. -/
def timedeltaMul (duration : ℤ) (factor : Binary64) : ℤ := roundHalfEven (duration * factor.val)

def segmentConfig (config : RunConfig) (start stop : ℤ) : Except Fault RunConfig :=
  if h : Instant.millisecond ≤ stop - start then
    .ok { config with
      start := start
      stop := stop
      start_lt_stop := by
        have : (0 : ℤ) < Instant.millisecond := by decide
        omega }
  else .error (.valueError "run segment must span at least one millisecond")

/-- The segments between neighbouring boundaries. -/
def segmentsBetween (config : RunConfig) : List ℤ → Except Fault (List RunConfig)
  | left :: right :: rest => do
      let segment ← segmentConfig config left right
      let segments ← segmentsBetween config (right :: rest)
      return segment :: segments
  | _ => .ok []

/-- `Harness.is_oos`, up to the runs of its segments. -/
def isOos (config : RunConfig) (split : Binary64) : Except Fault (List RunConfig) := do
  require (Binary64.zero < split ∧ split < Binary64.ofRat 1)
    (.valueError "split must be strictly between zero and one")
  let boundary := config.start + timedeltaMul (config.stop - config.start) split
  require (config.start < boundary ∧ boundary < config.stop)
    (.valueError "split produced an empty validation period")
  segmentsBetween config [config.start, boundary, config.stop]

/-- `index / folds`. -/
def foldFraction (folds : ℤ) (index : ℕ) : Binary64 := Binary64.ofRat (index / folds)

/-- The boundaries of the folds. -/
def foldBoundaries (config : RunConfig) (folds : ℤ) : List ℤ :=
  ((List.range folds.toNat).map fun index =>
    config.start + timedeltaMul (config.stop - config.start) (foldFraction folds index)) ++
      [config.stop]

/-- `Harness._run_walk_forward`, up to the runs of its segments. -/
def walkForward (config : RunConfig) (folds : ℤ) : Except Fault (List RunConfig) := do
  require (2 ≤ folds) (.valueError "walk-forward requires at least two folds")
  let duration := config.stop - config.start
  require (¬Binary64.ofRat (duration / 1000000) < Binary64.ofRat (folds / 1000))
    (.valueError "period is too short for millisecond-separated folds")
  segmentsBetween config (foldBoundaries config folds)

/-! ### Runnable segments -/

/-- Segments that follow each other from one instant to another. -/
inductive Cuts : ℤ → ℤ → List RunConfig → Prop
  | last (segment : RunConfig) : Cuts segment.start segment.stop [segment]
  | cons (segment : RunConfig) {stop : ℤ} {segments : List RunConfig} :
      Cuts segment.stop stop segments → Cuts segment.start stop (segment :: segments)

/-- Both ends lie on the candle grid. -/
def OnCandleGrid (config : RunConfig) : Prop :=
  config.timeframe.duration ∣ config.start ∧ config.timeframe.duration ∣ config.stop

/-- The evaluation range passes the check of the gap contract. -/
def AcceptedByGapContract (config : RunConfig) : Prop :=
  requireAligned "evaluation" (timeframeMilliseconds config.timeframe)
    (epochMilliseconds config.start) (epochMilliseconds config.stop) = .ok ()

/-- The engine evaluates the candle. -/
def Evaluates (config : RunConfig) (candle : Candle) : Prop :=
  config.start ≤ candle.openTime ∧ candle.closeTime ≤ config.stop

instance (config : RunConfig) (candle : Candle) : Decidable (Evaluates config candle) :=
  inferInstanceAs (Decidable (_ ∧ _))

/-- **Runnable segments**: a partition of the range into runs of whole candles. -/
structure Runnable (config : RunConfig) (segments : List RunConfig) : Prop where
  /-- They are consecutive and cover exactly the range. -/
  cuts : Cuts config.start config.stop segments
  /-- None is empty. -/
  nonempty : ∀ segment ∈ segments, segment.start < segment.stop
  timeframe_eq : ∀ segment ∈ segments, segment.timeframe = config.timeframe
  aligned : ∀ segment ∈ segments, OnCandleGrid segment
  accepted : ∀ segment ∈ segments, AcceptedByGapContract segment
  /-- Every bar of the range is evaluated by exactly one of them. -/
  bars : ∀ candle : Candle, candle.timeframe = config.timeframe →
    config.timeframe.duration ∣ candle.openTime → Evaluates config candle →
      segments.countP (fun segment => Evaluates segment candle) = 1

/-- **A run whose range is aligned**: both ends are instants of the calendar and lie on the
candle grid. -/
structure Aligned (config : RunConfig) : Prop where
  onCandleGrid : OnCandleGrid config
  /-- Not before the first instant of year one. -/
  datetimeMin_le : -62135596800000000 ≤ config.start
  /-- Not after the last instant of year 9999. -/
  le_datetimeMax : config.stop ≤ 253402300799999999

/-! ### The segments between boundaries -/

variable {config segment : RunConfig} {segments : List RunConfig} {left right start stop : ℤ}

theorem segmentConfig_eq_ok (h : segmentConfig config left right = .ok segment) :
    segment.start = left ∧ segment.stop = right ∧ segment.timeframe = config.timeframe := by
  unfold segmentConfig at h
  split at h
  · cases h
    exact ⟨rfl, rfl, rfl⟩
  · cases h

/-- What the harness makes of boundaries: segments that start at each of them but the last. -/
theorem segmentsBetween_eq_ok {rest : List ℤ} :
    ∀ {left segments}, segmentsBetween config (left :: (rest ++ [stop])) = .ok segments →
      Cuts left stop segments ∧ segments.map RunConfig.start = left :: rest ∧
        ∀ segment ∈ segments, segment.timeframe = config.timeframe := by
  induction rest with
  | nil =>
    intro left segments h
    obtain ⟨segment, hsegment, h⟩ := Except.bind_eq_ok.1 h
    obtain ⟨tail, htail, h⟩ := Except.bind_eq_ok.1 h
    cases htail
    cases h
    obtain ⟨rfl, rfl, htimeframe⟩ := segmentConfig_eq_ok hsegment
    exact ⟨Cuts.last segment, rfl, List.forall_mem_singleton.2 htimeframe⟩
  | cons right rest ih =>
    intro left segments h
    obtain ⟨segment, hsegment, h⟩ := Except.bind_eq_ok.1 h
    obtain ⟨tail, htail, h⟩ := Except.bind_eq_ok.1 h
    cases h
    obtain ⟨rfl, rfl, htimeframe⟩ := segmentConfig_eq_ok hsegment
    obtain ⟨hcuts, hstarts, htimeframes⟩ := ih htail
    refine ⟨Cuts.cons segment hcuts, ?_, List.forall_mem_cons.2 ⟨htimeframe, htimeframes⟩⟩
    rw [List.map_cons, hstarts]

namespace Cuts

theorem start_lt_stop (h : Cuts start stop segments) : start < stop := by
  induction h with
  | last segment => exact segment.start_lt_stop
  | cons segment _ ih => exact segment.start_lt_stop.trans ih

/-- Some segment starts with the range. -/
theorem exists_start (h : Cuts start stop segments) :
    ∃ segment ∈ segments, segment.start = start := by
  cases h with
  | last segment => exact ⟨segment, List.mem_cons_self, rfl⟩
  | cons segment _ => exact ⟨segment, List.mem_cons_self, rfl⟩

/-- Every segment lies in the range. -/
theorem within (h : Cuts start stop segments) :
    ∀ segment ∈ segments, start ≤ segment.start ∧ segment.stop ≤ stop := by
  induction h with
  | last segment => exact List.forall_mem_singleton.2 ⟨le_rfl, le_rfl⟩
  | cons segment hrest ih =>
    refine List.forall_mem_cons.2 ⟨⟨le_rfl, hrest.start_lt_stop.le⟩, fun other hother => ?_⟩
    obtain ⟨hstart, hstop⟩ := ih other hother
    exact ⟨segment.start_lt_stop.le.trans hstart, hstop⟩

/-- When all segments start on a grid, they end on it, as the range does. -/
theorem dvd_stop {step : ℤ} (h : Cuts start stop segments) (hstop : step ∣ stop)
    (hstarts : ∀ segment ∈ segments, step ∣ segment.start) :
    ∀ segment ∈ segments, step ∣ segment.stop := by
  induction h with
  | last segment => exact List.forall_mem_singleton.2 hstop
  | cons segment hrest ih =>
    obtain ⟨-, hrests⟩ := List.forall_mem_cons.1 hstarts
    refine List.forall_mem_cons.2 ⟨?_, ih hstop hrests⟩
    -- the next segment starts where this one stops
    obtain ⟨next, hnext, heq⟩ := hrest.exists_start
    rw [← heq]
    exact hrests next hnext

/-- A candle before the range is in none of its segments. -/
theorem countP_eq_zero (h : Cuts start stop segments) {candle : Candle}
    (hbefore : candle.openTime < start) :
    segments.countP (fun segment => Evaluates segment candle) = 0 := by
  rw [List.countP_eq_zero]
  intro segment hsegment hevaluates
  have hstart := (h.within segment hsegment).1
  have hopen := (of_decide_eq_true hevaluates).1
  omega

/-- **A bar of the range is in exactly one segment**, when all of them are on the grid. -/
theorem countP_eq_one (h : Cuts start stop segments) {candle : Candle}
    (haligned : ∀ segment ∈ segments, candle.timeframe.duration ∣ segment.stop)
    (hopen : candle.timeframe.duration ∣ candle.openTime)
    (hstart : start ≤ candle.openTime) (hstop : candle.closeTime ≤ stop) :
    segments.countP (fun segment => Evaluates segment candle) = 1 := by
  have hduration := candle.timeframe.duration_pos
  have hclose := candle.closeTime_eq
  induction h with
  | last segment =>
    rw [List.countP_singleton, if_pos]
    exact decide_eq_true ⟨hstart, hstop⟩
  | cons segment hrest ih =>
    obtain ⟨hsegment, hrests⟩ := List.forall_mem_cons.1 haligned
    by_cases hin : candle.closeTime ≤ segment.stop
    · -- it closes within this segment, before the next ones start
      rw [List.countP_cons, if_pos (decide_eq_true ⟨hstart, hin⟩),
        hrest.countP_eq_zero (by omega)]
    · have hout : ¬Evaluates segment candle := fun hevaluates => hin hevaluates.2
      have hnext : segment.stop ≤ candle.openTime := by
        -- on the grid, what does not close by the end opens after it
        obtain ⟨k, hk⟩ := hsegment
        obtain ⟨l, hl⟩ := hopen
        have hlt : k < l + 1 := by
          by_contra hle
          have := mul_le_mul_of_nonneg_left (not_lt.1 hle) hduration.le
          rw [mul_add, mul_one] at this
          omega
        rw [hk, hl]
        exact mul_le_mul_of_nonneg_left (Int.lt_add_one_iff.1 hlt) hduration.le
      rw [List.countP_cons, if_neg (by rw [decide_eq_false hout]; exact Bool.false_ne_true),
        add_zero]
      exact ih hrests hnext hstop

end Cuts

/-! ### The check of the gap contract -/

/-- A timeframe lasts as many thousand microseconds as it has milliseconds. -/
theorem duration_eq (timeframe : Timeframe) :
    timeframe.duration = timeframeMilliseconds timeframe * Instant.millisecond := by
  have hunit : timeframe.unit.duration =
      unitMilliseconds timeframe.unit * Instant.millisecond := by
    cases timeframe.unit <;> rfl
  rw [Timeframe.duration, hunit, timeframeMilliseconds]
  ring

theorem minute_dvd_duration (timeframe : Timeframe) : Instant.minute ∣ timeframe.duration := by
  have hunit : Instant.minute ∣ timeframe.unit.duration := by
    cases timeframe.unit <;> decide
  exact hunit.mul_right _

/-- **Whole minutes of the calendar have exact milliseconds**: they are whole seconds. -/
theorem epochMilliseconds_minute {m : ℤ} (h : |m| ≤ 2 ^ 32) :
    epochMilliseconds (m * Instant.minute) = m * minuteMilliseconds := by
  have habs := abs_le.1 h
  have hsecond : WholeSecond (m * Instant.minute) (m * 60) := by
    refine ⟨?_, abs_le.2 ⟨by omega, by omega⟩⟩
    simp only [Instant.minute, Instant.second]
    ring
  rw [epochMilliseconds_of_second hsecond, minuteMilliseconds]
  ring

/-- A run whose range is aligned passes the check. -/
theorem Aligned.accepted (h : Aligned config) : AcceptedByGapContract config := by
  obtain ⟨⟨⟨first, hfirst⟩, ⟨last, hlast⟩⟩, hmin, hmax⟩ := h
  obtain ⟨length, hlength⟩ := minute_dvd_duration config.timeframe
  -- on bar boundaries the rounding through a float is exact
  have hminutes : ∀ {t k : ℤ}, t = config.timeframe.duration * k →
      -62135596800000000 ≤ t → t ≤ 253402300799999999 →
      epochMilliseconds t = timeframeMilliseconds config.timeframe * k := by
    intro t k ht hlow hhigh
    have htime : t = length * k * Instant.minute := by
      rw [ht, hlength]
      ring
    have hms : timeframeMilliseconds config.timeframe = length * minuteMilliseconds := by
      have hduration := duration_eq config.timeframe
      rw [hlength] at hduration
      unfold Instant.minute Instant.second Instant.millisecond at hduration
      unfold minuteMilliseconds
      omega
    have hbound : |length * k| ≤ 2 ^ 32 := by
      unfold Instant.minute Instant.second at htime
      exact abs_le.2 ⟨by omega, by omega⟩
    rw [htime, epochMilliseconds_minute hbound, hms]
    ring
  have hlt := config.start_lt_stop
  have hpos := timeframeMilliseconds_pos config.timeframe
  have hduration := config.timeframe.duration_pos
  -- the segment spans at least one bar
  have hindex : first < last := by
    rw [hfirst, hlast] at hlt
    exact lt_of_mul_lt_mul_left hlt hduration.le
  unfold AcceptedByGapContract requireAligned
  rw [require_eq_ok, hminutes hfirst hmin (by omega), hminutes hlast (by omega) hmax, ← mul_sub]
  exact ⟨mul_pos hpos (by omega), Int.mul_emod_right _ _⟩

/-- **Cuts on the candle grid make runnable segments.** -/
theorem Cuts.runnable (h : Cuts config.start config.stop segments) (haligned : Aligned config)
    (htimeframe : ∀ segment ∈ segments, segment.timeframe = config.timeframe)
    (hstarts : ∀ segment ∈ segments, config.timeframe.duration ∣ segment.start) :
    Runnable config segments := by
  have hstops := h.dvd_stop haligned.onCandleGrid.2 hstarts
  -- segments that start on the grid also stop on it, each where the next one starts
  have hgrid : ∀ segment ∈ segments, OnCandleGrid segment := by
    intro segment hsegment
    unfold OnCandleGrid
    rw [htimeframe segment hsegment]
    exact ⟨hstarts segment hsegment, hstops segment hsegment⟩
  exact {
    cuts := h
    nonempty := fun segment _ => segment.start_lt_stop
    timeframe_eq := htimeframe
    aligned := hgrid
    accepted := by
      intro segment hsegment
      obtain ⟨hstart, hstop⟩ := h.within segment hsegment
      exact Aligned.accepted ⟨hgrid segment hsegment, haligned.datetimeMin_le.trans hstart,
        hstop.trans haligned.le_datetimeMax⟩
    -- an evaluated close lies in one segment only
    bars := by
      intro candle hcandle hopen hevaluates
      rw [← hcandle] at hopen hstops
      exact h.countP_eq_one hstops hopen hevaluates.1 hevaluates.2 }

/-- The segments are runnable exactly when each of them starts on the candle grid. -/
theorem Cuts.runnable_iff (h : Cuts config.start config.stop segments) (haligned : Aligned config)
    (htimeframe : ∀ segment ∈ segments, segment.timeframe = config.timeframe) :
    Runnable config segments ↔
      ∀ start ∈ segments.map RunConfig.start, config.timeframe.duration ∣ start := by
  rw [List.forall_mem_map]
  constructor
  · intro hrunnable segment hsegment
    have hgrid := (hrunnable.aligned segment hsegment).1
    rwa [htimeframe segment hsegment] at hgrid
  · exact h.runnable haligned htimeframe

/-! ### When cuts are runnable -/

/-- How many candles the range of a run has room for. -/
def candleCount (config : RunConfig) : ℤ := (config.stop - config.start) / config.timeframe.duration

/-- **The folds fit**: their number divides the number of candles, and the double of every
fraction is precise enough for the span. -/
def FoldsFit (config : RunConfig) (folds : ℤ) : Prop :=
  folds ∣ candleCount config ∧ ∀ index : ℕ, index < folds →
    |((config.stop - config.start : ℤ) : ℚ) * (foldFraction folds index).val -
      ((config.stop - config.start : ℤ) : ℚ) * (index / folds)| ≤ 1 / 2

/-- **The split fits**: it falls within half a microsecond of the end of a candle. -/
def SplitFits (config : RunConfig) (split : Binary64) : Prop :=
  ∃ candles : ℤ, |((config.stop - config.start : ℤ) : ℚ) * split.val -
    ((candles * config.timeframe.duration : ℤ) : ℚ)| ≤ 1 / 2

theorem even_duration (timeframe : Timeframe) : Even timeframe.duration := by
  obtain ⟨minutes, hminutes⟩ := minute_dvd_duration timeframe
  have heven : Even Instant.minute := by decide
  rw [hminutes]
  exact heven.mul_right minutes

theorem hundred_le_duration (timeframe : Timeframe) : 100 ≤ timeframe.duration := by
  have hpos := timeframe.duration_pos
  obtain ⟨minutes, hminutes⟩ := minute_dvd_duration timeframe
  unfold Instant.minute Instant.second at hminutes
  omega

/-- The calendar spans less than `2 ^ 59` microseconds. -/
theorem Aligned.span_le (h : Aligned config) :
    ((config.stop - config.start : ℤ) : ℚ) ≤ 2 ^ 59 := by
  have hmin := h.datetimeMin_le
  have hmax := h.le_datetimeMax
  exact_mod_cast (by omega : config.stop - config.start ≤ 2 ^ 59)

/-- An aligned range is a positive number of candles long. -/
theorem Aligned.exists_candles (h : Aligned config) :
    ∃ count : ℕ, 0 < count ∧ candleCount config = count ∧
      config.stop - config.start = count * config.timeframe.duration := by
  have hduration := config.timeframe.duration_pos
  have hlt := config.start_lt_stop
  obtain ⟨count, hcount⟩ := dvd_sub h.onCandleGrid.2 h.onCandleGrid.1
  have hpos : 0 < count := by
    by_contra hle
    have := mul_nonpos_of_nonneg_of_nonpos hduration.le (not_lt.1 hle)
    omega
  obtain ⟨n, rfl⟩ := Int.eq_ofNat_of_zero_le hpos.le
  refine ⟨n, by exact_mod_cast hpos, ?_, by rw [hcount, mul_comm]⟩
  rw [candleCount, hcount]
  exact Int.mul_ediv_cancel_left _ hduration.ne'

theorem foldFraction_val (folds : ℤ) (index : ℕ) :
    (foldFraction folds index).val = binary64.round (index / folds) := rfl

/-- The first cut is the start of the range. -/
theorem timedeltaMul_foldFraction_zero (duration folds : ℤ) :
    timedeltaMul duration (foldFraction folds 0) = 0 := by
  unfold timedeltaMul foldFraction
  rw [Binary64.ofRat_val, Nat.cast_zero, zero_div, BinaryFormat.round_zero, mul_zero,
    roundHalfEven_zero]

theorem foldBoundaries_eq {folds : ℤ} {n : ℕ} (hfolds : folds.toNat = n + 1) :
    foldBoundaries config folds = config.start :: ((List.range n).map (fun index =>
      config.start + timedeltaMul (config.stop - config.start) (foldFraction folds (index + 1))) ++
        [config.stop]) := by
  rw [foldBoundaries, hfolds, List.range_succ_eq_map, List.map_cons, List.map_map,
    timedeltaMul_foldFraction_zero, add_zero]
  rfl

/-- **Folds** that the harness accepts are runnable exactly when they fit. -/
theorem walkForward_runnable_iff {folds : ℤ} (haligned : Aligned config)
    (h : walkForward config folds = .ok segments) :
    Runnable config segments ↔ FoldsFit config folds := by
  obtain ⟨_, hfolds, h⟩ := Except.bind_eq_ok.1 h
  obtain ⟨_, _, h⟩ := Except.bind_eq_ok.1 h
  rw [require_eq_ok] at hfolds
  obtain ⟨n, hn⟩ : ∃ n, folds.toNat = n + 1 := ⟨folds.toNat - 1, by omega⟩
  obtain rfl : folds = ((n + 1 : ℕ) : ℤ) := by omega
  rw [foldBoundaries_eq hn] at h
  obtain ⟨hcuts, hstarts, htimeframe⟩ := segmentsBetween_eq_ok h
  obtain ⟨count, -, hcount, hspan⟩ := haligned.exists_candles
  have hstart := haligned.onCandleGrid.1
  rw [hcuts.runnable_iff haligned htimeframe, hstarts]
  -- the starts are on the grid when the cuts are, as the range starts there
  have hiff : (∀ start ∈ config.start :: (List.range n).map (fun index =>
      config.start + timedeltaMul (config.stop - config.start)
        (foldFraction ((n + 1 : ℕ) : ℤ) (index + 1))), config.timeframe.duration ∣ start) ↔
      ∀ index < n + 1, config.timeframe.duration ∣
        timedeltaMul (config.stop - config.start) (foldFraction ((n + 1 : ℕ) : ℤ) index) := by
    rw [List.forall_mem_cons, List.forall_mem_map]
    constructor
    · rintro ⟨-, hrest⟩ index hindex
      cases index with
      | zero =>
        rw [timedeltaMul_foldFraction_zero]
        exact dvd_zero _
      | succ index => exact (dvd_add_right hstart).1 (hrest index (List.mem_range.2 (by omega)))
    · intro hall
      refine ⟨hstart, fun index hindex => (dvd_add_right hstart).2 (hall (index + 1) ?_)⟩
      have := List.mem_range.1 hindex
      omega
  have hcut := dvd_rounded_cuts_iff (N := count) (Nat.succ_pos n)
    (hundred_le_duration config.timeframe) (even_duration config.timeframe)
    (by rw [hspan]; push_cast; rfl) haligned.span_le
  rw [hiff, FoldsFit, hcount, Int.natCast_dvd_natCast]
  simpa only [timedeltaMul, foldFraction_val, Nat.cast_lt, Int.cast_natCast] using hcut

/-- **A split** that the harness accepts is runnable exactly when it fits. -/
theorem isOos_runnable_iff {split : Binary64} (haligned : Aligned config)
    (h : isOos config split = .ok segments) :
    Runnable config segments ↔ SplitFits config split := by
  obtain ⟨_, _, h⟩ := Except.bind_eq_ok.1 h
  obtain ⟨_, _, h⟩ := Except.bind_eq_ok.1 h
  obtain ⟨hcuts, hstarts, htimeframe⟩ := @segmentsBetween_eq_ok config config.stop
    [config.start + timedeltaMul (config.stop - config.start) split] _ _ h
  have hstart := haligned.onCandleGrid.1
  rw [hcuts.runnable_iff haligned htimeframe, hstarts, List.forall_mem_cons,
    List.forall_mem_singleton, dvd_add_right hstart, and_iff_right hstart]
  unfold SplitFits timedeltaMul
  constructor
  · rintro ⟨candles, hcandles⟩
    refine ⟨candles, (roundHalfEven_eq_iff_of_even ?_).1 ?_⟩
    · exact (even_duration config.timeframe).mul_left candles
    · rw [hcandles, mul_comm]
  · rintro ⟨candles, hcandles⟩
    refine ⟨candles, ?_⟩
    rw [(roundHalfEven_eq_iff_of_even ((even_duration config.timeframe).mul_left candles)).2
      hcandles, mul_comm]

/-- **Short spans are precise enough.** On a range of at most 285 years folds fit as soon as
their number divides the number of candles. -/
theorem foldsFit_iff_dvd {folds : ℤ} (hfolds : 0 < folds)
    (hshort : config.stop - config.start ≤ 2 ^ 53) :
    FoldsFit config folds ↔ folds ∣ candleCount config := by
  refine and_iff_left fun index hindex => ?_
  have hfoldsQ : (0 : ℚ) < folds := by exact_mod_cast hfolds
  have hbelow : (index : ℚ) / folds < 1 := by
    rw [div_lt_one hfoldsQ]
    exact_mod_cast hindex
  have hspan : (0 : ℚ) ≤ ((config.stop - config.start : ℤ) : ℚ) := by
    exact_mod_cast (sub_pos.2 config.start_lt_stop).le
  have hround := abs_sub_round_le_of_lt_one (div_nonneg (Nat.cast_nonneg index) hfoldsQ.le) hbelow
  rw [← mul_sub, abs_mul, abs_of_nonneg hspan, abs_sub_comm, foldFraction_val]
  calc ((config.stop - config.start : ℤ) : ℚ) *
        |(index : ℚ) / folds - binary64.round (index / folds)|
      ≤ 2 ^ 53 * (1 / 2 ^ 54) := by
        gcongr
        exact_mod_cast hshort
    _ = 1 / 2 := by norm_num

/-! ### Four hours -/

theorem fourHours_pos : (0 : ℤ) < 4 * Instant.hour := by decide

theorem ten_thousand_pos : (0 : Decimal) < 10000 := by norm_num

theorem fullAllocation_valid : (SizingMethod.pct (Binary64.ofRat 1)).Valid := by
  decide +kernel

/-- A run over four hourly candles. -/
def fourHours : RunConfig where
  symbol := "BTCUSDT"
  timeframe := Engine.oneHour
  marketType := .futures
  start := 0
  stop := 4 * Instant.hour
  initialCapital := 10000
  sizing := .pct (Binary64.ofRat 1)
  symbol_ne := Engine.btcusdt_ne
  start_lt_stop := fourHours_pos
  initialCapital_pos := ten_thousand_pos
  sizing_valid := fullAllocation_valid

theorem aligned_fourHours : Aligned fourHours where
  onCandleGrid := ⟨by decide, by decide⟩
  datetimeMin_le := by decide
  le_datetimeMax := by decide

theorem walkForward_fourHours_two : returnsWith (walkForward fourHours 2) fun _ => true := by
  decide +kernel

theorem walkForward_fourHours_three : returnsWith (walkForward fourHours 3) fun _ => true := by
  decide +kernel

theorem foldsFit_fourHours : FoldsFit fourHours 2 :=
  (foldsFit_iff_dvd (by decide) (by decide)).2 (by decide +kernel)

/-- **The segments of the harness** partition the range into runnable runs exactly when the
folds, or the split, fit the candles of the range. -/
theorem harness_runnable_iff (haligned : Aligned config) :
    (∀ folds segments, walkForward config folds = .ok segments →
      (Runnable config segments ↔ FoldsFit config folds)) ∧
    (∀ split segments, isOos config split = .ok segments →
      (Runnable config segments ↔ SplitFits config split)) :=
  ⟨fun _ _ => walkForward_runnable_iff haligned, fun _ _ => isOos_runnable_iff haligned⟩

/-- Two folds of four hours. -/
theorem harness_runnable_iff_of_fourHours :
    ∃ segments, walkForward fourHours 2 = .ok segments ∧ Runnable fourHours segments := by
  obtain ⟨segments, hsegments, -⟩ := exists_of_returnsWith walkForward_fourHours_two
  have hrunnable := ((harness_runnable_iff aligned_fourHours).1 2 segments hsegments).2
  exact ⟨segments, hsegments, hrunnable foldsFit_fourHours⟩

/-- **Three folds of four hours** are accepted, although no three equal runs of whole candles
exist. -/
theorem not_runnable_of_threeFolds :
    ¬∀ (config : RunConfig) (folds : ℤ) (segments : List RunConfig), Aligned config →
      walkForward config folds = .ok segments → Runnable config segments := by
  intro hclaim
  obtain ⟨segments, hsegments, -⟩ := exists_of_returnsWith walkForward_fourHours_three
  have hrunnable := hclaim fourHours 3 segments aligned_fourHours hsegments
  have hfit := (walkForward_runnable_iff aligned_fourHours hsegments).1 hrunnable
  exact absurd hfit.1 (by decide +kernel)

end Harness
end TradingSystem
