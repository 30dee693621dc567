import TradingSystem.Data.Separated
import TradingSystem.Series.CandleFeed
import TradingSystem.Types.Clock
import Mathlib.Data.List.Induction

/-!
# Resampling stored minutes

Both feeds build their candles from the stored rows of one minute. The rows are grouped by
the bucket each opens in, and every bucket up to the latest one closed by the boundary either
becomes a candle or is counted as dropped.

* `bucketStart` — the start of an instant's bucket, through a float number of seconds.
* `addRow`, `emission`, `advance` — one row grouped, one bucket looked at, one round of the loop.
* `resampleConfirmedOhlcv` — the function.
* `group_eq_ok`, `run_eq_ok`, `resample_eq_ok` — what the grouping, the loop and the function
  return.
-/

namespace TradingSystem
namespace Resampling

open Numeric Data Logic Wallet CandleFeed

/-! ### The calendar -/

/-- The first instant of the year 1. -/
def calendarStart : ℤ := -62135596800 * Instant.second

/-- The first instant after the year 9999. -/
def calendarEnd : ℤ := 253402300800 * Instant.second

/-- An instant that a `datetime` holds. -/
def InCalendar (instant : ℤ) : Prop := calendarStart ≤ instant ∧ instant < calendarEnd

instance (instant : ℤ) : Decidable (InCalendar instant) := inferInstanceAs (Decidable (_ ∧ _))

/-- `datetime + timedelta`. -/
def shift (instant span : ℤ) : Except Fault ℤ := do
  require (InCalendar (instant + span)) (.overflowError "date value out of range")
  return instant + span

/-- `datetime.fromtimestamp` at whole seconds. The text of the source's error also has the
year. -/
def fromTimestamp (seconds : ℤ) : Except Fault ℤ := do
  require (InCalendar (seconds * Instant.second)) (.valueError "year is out of range")
  return seconds * Instant.second

/-- The instant that the source reads off an instant's float. -/
def clockReading (instant : ℤ) : ℤ := truncated (timestamp instant) * Instant.second

/-- The instant that `_bucket_start` computes: the seconds are those of the float. -/
def computedStart (value duration : ℤ) : ℤ :=
  let seconds := duration / Instant.second
  let epochSeconds := truncated (timestamp value)
  (epochSeconds - epochSeconds % seconds) * Instant.second

def bucketStart (value duration : ℤ) : Except Fault ℤ :=
  let seconds := duration / Instant.second
  let epochSeconds := truncated (timestamp value)
  fromTimestamp (epochSeconds - epochSeconds % seconds)

/-! ### Rows and candles -/

/-- A row of `ohlcv_futures` as it is selected. -/
structure OhlcvRow where
  time : ℤ
  «open» : Decimal
  high : Decimal
  low : Decimal
  close : Decimal
  volume : Option Decimal
  quoteVolume : Option Decimal
  tradeCount : Option ℤ
deriving DecidableEq, Repr

/-- A candle with all its columns. -/
structure OhlcvCandle where
  symbol : String
  exchange : String
  timeframe : Timeframe
  openTime : ℤ
  closeTime : ℤ
  «open» : Binary64
  high : Binary64
  low : Binary64
  close : Binary64
  volume : Binary64
  quoteVolume : Option Binary64
  tradeCount : Option ℤ
deriving DecidableEq

/-- `Candle.validate`. The type of a timeframe has its pattern. -/
def OhlcvCandle.validate (candle : OhlcvCandle) : Except Fault Unit := do
  require (candle.closeTime = candle.openTime + candle.timeframe.duration)
    (.valueError "close_time must equal open_time + timeframe")
  require (Binary64.zero < candle.open ∧ Binary64.zero < candle.high ∧
      Binary64.zero < candle.low ∧ Binary64.zero < candle.close)
    (.valueError "all candle prices must be positive")
  require (candle.open ≤ candle.high ∧ candle.close ≤ candle.high)
    (.valueError "high must be at least max(open, close)")
  require (candle.low ≤ candle.open ∧ candle.low ≤ candle.close)
    (.valueError "low must be at most min(open, close)")
  require (Binary64.zero ≤ candle.volume) (.valueError "volume must be non-negative")
  require (candle.quoteVolume.all fun quote => Binary64.zero ≤ quote)
    (.valueError "quote_volume must be non-negative")
  require (candle.tradeCount.all fun count => 0 ≤ count)
    (.valueError "trade_count must be non-negative")

/-- `sum(values, Decimal(0))`: each addition is rounded to the context. -/
def decimalSum (values : List Decimal) : Decimal :=
  values.foldl (fun total value => contextRound (total + value)) 0

def buildCandle (rows : List OhlcvRow) (symbol exchange : String) (timeframe : Timeframe)
    (openTime closeTime : ℤ) : Except Fault OhlcvCandle := do
  let candle : OhlcvCandle := {
    symbol := symbol
    exchange := exchange
    timeframe := timeframe
    openTime := openTime
    closeTime := closeTime
    «open» := toFloat ((rows.map (·.open)).head?.getD 0)
    high := toFloat ((rows.map (·.high)).max?.getD 0)
    low := toFloat ((rows.map (·.low)).min?.getD 0)
    close := toFloat ((rows.map (·.close)).getLast?.getD 0)
    volume := toFloat (decimalSum (rows.map fun row => row.volume.getD 0))
    quoteVolume :=
      if rows.any (·.quoteVolume.isNone) then none
      else some (toFloat (decimalSum (rows.map fun row => row.quoteVolume.getD 0)))
    tradeCount :=
      if rows.any (·.tradeCount.isNone) then none
      else some (rows.map fun row => row.tradeCount.getD 0).sum }
  candle.validate
  return candle

/-! ### The function -/

structure ResampledCandles where
  candles : List OhlcvCandle
  droppedBucketCount : ℕ
deriving DecidableEq

/-- The rows grouped so far, each with the start of its bucket. -/
abbrev Grouped := List (ℤ × OhlcvRow)

/-- The first loop of `resample_confirmed_ohlcv`. -/
def addRow (duration : ℤ) (grouped : Grouped) (row : OhlcvRow) : Except Fault Grouped := do
  require row.volume.isSome (.typeError "volume must be returned as Decimal")
  let start ← bucketStart row.time duration
  require (∀ entry ∈ grouped, ¬(entry.1 = start ∧ entry.2.time = row.time))
    (.valueError "duplicate 1m source candle")
  return grouped ++ [(start, row)]

/-- `grouped.get(current, {})`. -/
def bucketOf (grouped : Grouped) (current : ℤ) : List OhlcvRow :=
  (grouped.filter fun entry => entry.1 = current).map (·.2)

/-- The rows of a bucket are at its minutes, and at all of them. -/
def Complete (timeframe : Timeframe) (current : ℤ) (bucket : List OhlcvRow) : Prop :=
  (∀ row ∈ bucket, row.time ∈ bucketTimes timeframe current) ∧
    ∀ time ∈ bucketTimes timeframe current, time ∈ bucket.map (·.time)

instance (timeframe : Timeframe) (current : ℤ) (bucket : List OhlcvRow) :
    Decidable (Complete timeframe current bucket) := inferInstanceAs (Decidable (_ ∧ _))

/-- What the second loop makes of one bucket: a candle, or nothing when a minute is missing. -/
def emission (grouped : Grouped) (symbol exchange : String) (timeframe : Timeframe)
    (current : ℤ) : Except Fault (Option OhlcvCandle) := do
  require (∀ time ∈ bucketTimes timeframe current, InCalendar time)
    (.overflowError "date value out of range")
  let next ← shift current timeframe.duration
  let bucket := bucketOf grouped current
  if Complete timeframe current bucket then
    let candle ← buildCandle (bucket.insertionSort fun left right => left.time ≤ right.time)
      symbol exchange timeframe current next
    return some candle
  else
    return none

/-- One round of the second loop. -/
def advance (grouped : Grouped) (symbol exchange : String) (timeframe : Timeframe)
    (result : ResampledCandles) (current : ℤ) : Except Fault ResampledCandles := do
  match ← emission grouped symbol exchange timeframe current with
  | some candle => return { result with candles := result.candles ++ [candle] }
  | none => return { result with droppedBucketCount := result.droppedBucketCount + 1 }

def resampleConfirmedOhlcv (rows : List OhlcvRow) (symbol exchange : String)
    (timeframe : Timeframe) (boundary : ℤ) : Except Fault ResampledCandles := do
  let duration := timeframe.duration
  if rows = [] then return ⟨[], 0⟩
  let grouped ← rows.foldlM (addRow duration) []
  match (grouped.map (·.1)).min? with
  | none => return ⟨[], 0⟩
  | some firstBucket =>
    let opened ← shift boundary (-duration)
    let latestCompleteBucket ← bucketStart opened duration
    if latestCompleteBucket < firstBucket then return ⟨[], 0⟩
    (buckets firstBucket latestCompleteBucket duration).foldlM
      (advance grouped symbol exchange timeframe) ⟨[], 0⟩

/-! ### The calendar's rules -/

section Calendar

variable {instant span value duration start : ℤ} {timeframe : Timeframe}

/-- A value that is returned where a requirement holds. -/
theorem require_bind_eq_ok {α : Type} {condition : Prop} [Decidable condition] {fault : Fault}
    {value result : α} :
    (require condition fault >>= fun _ => Except.ok value) = .ok result ↔
      condition ∧ result = value := by
  rw [Except.bind_eq_ok]
  constructor
  · rintro ⟨_, hin, heq⟩
    rw [require_eq_ok] at hin
    exact ⟨hin, (Except.ok.inj heq).symm⟩
  · rintro ⟨hin, rfl⟩
    exact ⟨⟨⟩, require_eq_ok.2 hin, rfl⟩

theorem shift_eq_ok :
    shift instant span = .ok start ↔ InCalendar (instant + span) ∧ start = instant + span :=
  require_bind_eq_ok

theorem bucketStart_eq_ok :
    bucketStart value duration = .ok start ↔
      InCalendar (computedStart value duration) ∧ start = computedStart value duration :=
  require_bind_eq_ok

/-- A timeframe is a whole number of minutes. -/
theorem minute_dvd_duration (timeframe : Timeframe) : Instant.minute ∣ timeframe.duration := by
  have hunit : Instant.minute ∣ timeframe.unit.duration := by
    cases timeframe.unit <;> decide
  exact hunit.mul_right _

theorem duration_eq_seconds (timeframe : Timeframe) :
    timeframe.duration = timeframe.duration / Instant.second * Instant.second := by
  have hsecond : Instant.second ∣ Instant.minute := by decide
  exact (Int.ediv_mul_cancel (hsecond.trans (minute_dvd_duration timeframe))).symm

/-- Computed starts are multiples of the duration. -/
theorem duration_dvd_computedStart (timeframe : Timeframe) (value : ℤ) :
    timeframe.duration ∣ computedStart value timeframe.duration := by
  have hdvd := mul_dvd_mul_right (Int.dvd_self_sub_emod
    (x := truncated (timestamp value)) (m := timeframe.duration / Instant.second)) Instant.second
  rw [← duration_eq_seconds] at hdvd
  exact hdvd

/-- The bucket is that of the instant as the clock reads it. -/
theorem computedStart_eq_bucketStart (timeframe : Timeframe) (value : ℤ) :
    computedStart value timeframe.duration =
      CandleFeed.bucketStart (clockReading value) timeframe.duration := by
  have hpos : 0 < Instant.second := by decide
  show (truncated (timestamp value) -
      truncated (timestamp value) % (timeframe.duration / Instant.second)) * Instant.second = _
  unfold CandleFeed.bucketStart clockReading
  have hmod : truncated (timestamp value) * Instant.second % timeframe.duration =
      truncated (timestamp value) % (timeframe.duration / Instant.second) * Instant.second := by
    conv_lhs => rw [duration_eq_seconds timeframe]
    rw [mul_comm (truncated (timestamp value)), mul_comm (timeframe.duration / Instant.second),
      Int.mul_emod_mul_of_pos _ _ hpos, mul_comm]
  rw [hmod]
  ring

/-- **On whole seconds** the clock is exact, -/
theorem clockReading_eq {seconds : ℤ} (h : WholeSecond value seconds) :
    clockReading value = value := by
  unfold clockReading
  rw [truncated_timestamp h]
  exact h.instant_eq.symm

/-- and the computed start is the start of the bucket. -/
theorem computedStart_eq {seconds : ℤ} (h : WholeSecond value seconds) (timeframe : Timeframe) :
    computedStart value timeframe.duration = CandleFeed.bucketStart value timeframe.duration := by
  rw [computedStart_eq_bucketStart, clockReading_eq h]

/-- The instants of the calendar on whole minutes are on whole seconds of 38 bits. -/
theorem exists_wholeSecond (hminute : Instant.minute ∣ value) (hin : InCalendar value) :
    ∃ seconds, WholeSecond value seconds := by
  obtain ⟨minutes, rfl⟩ := hminute
  obtain ⟨hlow, hhigh⟩ := hin
  refine ⟨60 * minutes, ?_, ?_⟩
  · unfold Instant.minute Instant.second
    ring
  · unfold Instant.minute calendarStart Instant.second at hlow
    unfold Instant.minute calendarEnd Instant.second at hhigh
    rw [abs_le]
    constructor <;> omega

end Calendar

/-! ### Grouping -/

section Grouping

variable {rows : List OhlcvRow} {grouped grouped' : Grouped} {row : OhlcvRow} {duration : ℤ}

/-- The entry of a row. -/
def entryOf (duration : ℤ) (row : OhlcvRow) : ℤ × OhlcvRow :=
  (computedStart row.time duration, row)

/-- A row that can be grouped at all. -/
structure Groupable (duration : ℤ) (row : OhlcvRow) : Prop where
  volume_isSome : row.volume.isSome
  start_inCalendar : InCalendar (computedStart row.time duration)

theorem addRow_eq_ok :
    addRow duration grouped row = .ok grouped' ↔
      Groupable duration row ∧
        (∀ entry ∈ grouped, ¬(entry.1 = computedStart row.time duration ∧
          entry.2.time = row.time)) ∧
        grouped' = grouped ++ [entryOf duration row] := by
  unfold addRow
  simp only [Except.bind_eq_ok, require_eq_ok, bucketStart_eq_ok]
  constructor
  · rintro ⟨-, hvolume, start, ⟨hin, rfl⟩, -, hfresh, heq⟩
    exact ⟨⟨hvolume, hin⟩, hfresh, (Except.ok.inj heq).symm⟩
  · rintro ⟨hrow, hfresh, rfl⟩
    exact ⟨⟨⟩, hrow.volume_isSome, _, ⟨hrow.start_inCalendar, rfl⟩, ⟨⟩, hfresh, rfl⟩

/-- **Grouping** succeeds when no row is without a volume, out of range or there twice, and
loses nothing. -/
theorem group_eq_ok :
    rows.foldlM (addRow duration) [] = .ok grouped ↔
      (∀ row ∈ rows, Groupable duration row) ∧ (rows.map (·.time)).Nodup ∧
        grouped = rows.map (entryOf duration) := by
  induction rows using List.reverseRecOn generalizing grouped with
  | nil =>
    constructor
    · intro h
      cases h
      exact ⟨List.forall_mem_nil _, List.nodup_nil, rfl⟩
    · rintro ⟨-, -, rfl⟩
      rfl
  | append_singleton rows row ih =>
    -- the last row is added to the grouping of the rows before it
    rw [List.foldlM_append, Except.bind_eq_ok]
    simp only [List.foldlM_cons, List.foldlM_nil, bind_pure, ih, addRow_eq_ok,
      List.forall_mem_append, forall_eq, List.map_append, List.map_singleton,
      List.nodup_append, List.nodup_singleton, List.mem_singleton, true_and]
    constructor
    · rintro ⟨_, ⟨hrows, hnodup, rfl⟩, hrow, hfresh, rfl⟩
      refine ⟨⟨hrows, hrow⟩, ⟨hnodup, ?_⟩, rfl⟩
      rintro time htime rfl
      obtain ⟨other, hother, heq⟩ := List.mem_map.1 htime
      refine hfresh _ (List.mem_map_of_mem hother) ⟨?_, heq⟩
      -- rows at one instant are in one bucket
      show computedStart other.time duration = _
      rw [heq]
    · rintro ⟨⟨hrows, hrow⟩, ⟨hnodup, hfresh⟩, rfl⟩
      refine ⟨_, ⟨hrows, hnodup, rfl⟩, hrow, ?_, rfl⟩
      rintro entry hentry ⟨-, htime⟩
      obtain ⟨other, hother, rfl⟩ := List.mem_map.1 hentry
      exact hfresh other.time (List.mem_map_of_mem hother) htime

theorem mem_bucketOf {current : ℤ} :
    row ∈ bucketOf (rows.map (entryOf duration)) current ↔
      row ∈ rows ∧ computedStart row.time duration = current := by
  unfold bucketOf
  simp only [List.mem_map, List.mem_filter, decide_eq_true_eq]
  constructor
  · rintro ⟨_, ⟨⟨other, hother, rfl⟩, hcurrent⟩, rfl⟩
    exact ⟨hother, hcurrent⟩
  · rintro ⟨hrow, hcurrent⟩
    exact ⟨_, ⟨⟨row, hrow, rfl⟩, hcurrent⟩, rfl⟩

/-- Within a bucket too no instant is there twice. -/
theorem nodup_bucketOf {current : ℤ} (h : (rows.map (·.time)).Nodup) :
    ((bucketOf (rows.map (entryOf duration)) current).map (·.time)).Nodup := by
  have hsub : (bucketOf (rows.map (entryOf duration)) current).Sublist rows := by
    unfold bucketOf
    rw [List.filter_map, List.map_map]
    have hid : ((·.2) ∘ entryOf duration : OhlcvRow → OhlcvRow) = id := rfl
    rw [hid, List.map_id]
    exact List.filter_sublist
  exact h.sublist (hsub.map _)

/-- The rows of a bucket in order of time. -/
theorem pairwise_insertionSort_time {bucket : List OhlcvRow} (h : (bucket.map (·.time)).Nodup) :
    (bucket.insertionSort fun left right => left.time ≤ right.time).Pairwise
      fun left right => left.time < right.time := by
  have hsorted := pairwise_sortBy (fun row : OhlcvRow => row.time) bucket
  have hnodup : ((bucket.insertionSort fun left right => left.time ≤ right.time).map
      (·.time)).Nodup := ((List.perm_insertionSort _ bucket).map _).nodup_iff.2 h
  rw [List.Nodup, List.pairwise_map] at hnodup
  -- in order, and never equal
  exact (hsorted.and hnodup).imp fun hpair => lt_of_le_of_ne hpair.1 hpair.2

/-- **A bucket is looked at as a set.** -/
theorem sorted_congr {bucket bucket' : List OhlcvRow} (h : (bucket.map (·.time)).Nodup)
    (h' : (bucket'.map (·.time)).Nodup) (hmem : ∀ row, row ∈ bucket ↔ row ∈ bucket') :
    (bucket.insertionSort fun left right => left.time ≤ right.time) =
      bucket'.insertionSort fun left right => left.time ≤ right.time := by
  have hirrefl : Std.Irrefl fun left right : OhlcvRow => left.time < right.time :=
    ⟨fun row => lt_irrefl row.time⟩
  refine (pairwise_insertionSort_time h).eq_of_mem_iff (pairwise_insertionSort_time h') ?_
  intro row
  rw [List.mem_insertionSort, List.mem_insertionSort, hmem]

theorem complete_congr {timeframe : Timeframe} {current : ℤ} {bucket bucket' : List OhlcvRow}
    (hmem : ∀ row, row ∈ bucket ↔ row ∈ bucket') :
    Complete timeframe current bucket ↔ Complete timeframe current bucket' := by
  unfold Complete
  simp only [List.mem_map, hmem]

end Grouping

/-! ### The loop -/

section Loop

variable {grouped grouped' : Grouped} {symbol exchange : String} {timeframe : Timeframe}
  {starts : List ℤ} {result init : ResampledCandles} {current : ℤ}

/-- The candle of a bucket, if the loop gets one. -/
def emitted (grouped : Grouped) (symbol exchange : String) (timeframe : Timeframe)
    (current : ℤ) : Option OhlcvCandle :=
  (emission grouped symbol exchange timeframe current).toOption.join

theorem emitted_of_emission {outcome : Option OhlcvCandle}
    (h : emission grouped symbol exchange timeframe current = .ok outcome) :
    emitted grouped symbol exchange timeframe current = outcome := by
  unfold emitted
  rw [h]
  rfl

theorem advance_eq_ok :
    advance grouped symbol exchange timeframe init current = .ok result ↔
      ∃ outcome, emission grouped symbol exchange timeframe current = .ok outcome ∧
        result = ⟨init.candles ++ outcome.toList,
          init.droppedBucketCount + if outcome = none then 1 else 0⟩ := by
  unfold advance
  rw [Except.bind_eq_ok]
  refine exists_congr fun outcome => and_congr_right fun _ => ?_
  cases outcome with
  | none =>
    constructor
    · intro h
      cases h
      simp
    · rintro rfl
      simp [pure, Except.pure]
  | some candle =>
    constructor
    · intro h
      cases h
      simp
    · rintro rfl
      simp [pure, Except.pure]

/-- **The loop** looks at every bucket; the complete ones become candles, in order, and the
others are counted. -/
theorem run_eq_ok :
    starts.foldlM (advance grouped symbol exchange timeframe) init = .ok result ↔
      (∀ start ∈ starts, ∃ outcome,
        emission grouped symbol exchange timeframe start = .ok outcome) ∧
      result = ⟨init.candles ++ starts.filterMap (emitted grouped symbol exchange timeframe),
        init.droppedBucketCount +
          starts.countP fun start => emitted grouped symbol exchange timeframe start = none⟩ := by
  induction starts generalizing init with
  | nil =>
    constructor
    · intro h
      cases h
      simp
    · rintro ⟨-, rfl⟩
      simp [pure, Except.pure]
  | cons start starts ih =>
    -- candles and count so far are what the rest of the loop starts from
    rw [List.foldlM_cons, Except.bind_eq_ok]
    simp only [advance_eq_ok, ih, List.forall_mem_cons]
    constructor
    · rintro ⟨_, ⟨outcome, hstart, rfl⟩, hstarts, rfl⟩
      refine ⟨⟨⟨outcome, hstart⟩, hstarts⟩, ?_⟩
      rw [List.filterMap_cons, List.countP_cons, emitted_of_emission hstart]
      cases outcome with
      | none =>
        simp
        omega
      | some candle => simp
    · rintro ⟨⟨⟨outcome, hstart⟩, hstarts⟩, rfl⟩
      refine ⟨_, ⟨outcome, hstart, rfl⟩, hstarts, ?_⟩
      rw [List.filterMap_cons, List.countP_cons, emitted_of_emission hstart]
      cases outcome with
      | none =>
        simp
        omega
      | some candle => simp

/-- Groupings with the same rows in a bucket make the same of it. -/
theorem emission_congr
    (h : ((bucketOf grouped current).map (·.time)).Nodup)
    (h' : ((bucketOf grouped' current).map (·.time)).Nodup)
    (hmem : ∀ row, row ∈ bucketOf grouped current ↔ row ∈ bucketOf grouped' current) :
    emission grouped symbol exchange timeframe current =
      emission grouped' symbol exchange timeframe current := by
  unfold emission
  dsimp only
  rw [sorted_congr h h' hmem]
  simp only [complete_congr hmem]

end Loop

/-! ### One bucket -/

section Emission

variable {rows : List OhlcvRow} {grouped : Grouped} {symbol exchange : String}
  {timeframe : Timeframe} {current start openTime closeTime first latest : ℤ}
  {candle : OhlcvCandle} {outcome : Option OhlcvCandle}

/-- A built candle has passed its checks. -/
theorem buildCandle_eq_ok
    (h : buildCandle rows symbol exchange timeframe openTime closeTime = .ok candle) :
    candle.symbol = symbol ∧ candle.exchange = exchange ∧ candle.timeframe = timeframe ∧
      candle.openTime = openTime ∧ candle.closeTime = closeTime := by
  unfold buildCandle at h
  dsimp only at h
  rw [Except.bind_eq_ok] at h
  obtain ⟨-, -, heq⟩ := h
  cases heq
  exact ⟨rfl, rfl, rfl, rfl, rfl⟩

/-- **What one bucket gives**: nothing unless it is complete, and then its candle. -/
theorem emission_eq_ok :
    emission grouped symbol exchange timeframe current = .ok outcome ↔
      (∀ time ∈ bucketTimes timeframe current, InCalendar time) ∧
      InCalendar (current + timeframe.duration) ∧
      (Complete timeframe current (bucketOf grouped current) ∧ (∃ candle,
          buildCandle ((bucketOf grouped current).insertionSort fun left right =>
            left.time ≤ right.time) symbol exchange timeframe current
            (current + timeframe.duration) = .ok candle ∧ outcome = some candle) ∨
        ¬Complete timeframe current (bucketOf grouped current) ∧ outcome = none) := by
  unfold emission
  simp only [Except.bind_eq_ok, require_eq_ok, shift_eq_ok]
  constructor
  · rintro ⟨-, htimes, _, ⟨hnext, rfl⟩, h⟩
    refine ⟨htimes, hnext, ?_⟩
    split at h
    · -- every minute is there: the candle of the rows in their order
      next hcomplete =>
      rw [Except.bind_eq_ok] at h
      obtain ⟨candle, hbuild, heq⟩ := h
      exact .inl ⟨hcomplete, candle, hbuild, (Except.ok.inj heq).symm⟩
    · next hcomplete => exact .inr ⟨hcomplete, (Except.ok.inj h).symm⟩
  · rintro ⟨htimes, hnext, h⟩
    refine ⟨⟨⟩, htimes, _, ⟨hnext, rfl⟩, ?_⟩
    obtain ⟨hcomplete, candle, hbuild, rfl⟩ | ⟨hcomplete, rfl⟩ := h
    · rw [if_pos hcomplete, Except.bind_eq_ok]
      exact ⟨candle, hbuild, rfl⟩
    · rw [if_neg hcomplete]
      rfl

theorem emission_of_emitted
    (h : emitted grouped symbol exchange timeframe current = some candle) :
    emission grouped symbol exchange timeframe current = .ok (some candle) := by
  cases houtcome : emission grouped symbol exchange timeframe current with
  | error fault =>
    unfold emitted at h
    rw [houtcome] at h
    cases h
  | ok outcome => rw [← h, emitted_of_emission houtcome]

/-- A candle comes from a complete bucket, and opens where it starts. -/
theorem complete_of_emitted
    (h : emitted grouped symbol exchange timeframe current = some candle) :
    Complete timeframe current (bucketOf grouped current) ∧ candle.openTime = current := by
  obtain ⟨-, -, ⟨hcomplete, _, hbuild, heq⟩ | ⟨-, hnone⟩⟩ :=
    emission_eq_ok.1 (emission_of_emitted h)
  · cases heq
    obtain ⟨-, -, -, hopen, -⟩ := buildCandle_eq_ok hbuild
    exact ⟨hcomplete, hopen⟩
  · cases hnone

/-- A complete bucket has a row where it starts. -/
theorem exists_row_of_complete
    (h : Complete timeframe current (bucketOf (rows.map (entryOf timeframe.duration)) current)) :
    ∃ row ∈ rows, row.time = current ∧ computedStart row.time timeframe.duration = current := by
  obtain ⟨row, hrow, htime⟩ := List.mem_map.1 (h.2 _ (mem_bucketTimes_self timeframe current))
  obtain ⟨hmem, hstart⟩ := mem_bucketOf.1 hrow
  exact ⟨row, hmem, htime, hstart⟩

/-- Candles are emitted in the order in which they open. -/
theorem emitted_ordered (grouped : Grouped) (symbol exchange : String) (timeframe : Timeframe)
    (first latest : ℤ) :
    ((buckets first latest timeframe.duration).filterMap
      (emitted grouped symbol exchange timeframe)).Pairwise
        fun left right => left.openTime < right.openTime := by
  refine (buckets_pairwise timeframe first latest).filterMap _ ?_
  intro s t hst left hleft right hright
  rw [(complete_of_emitted hleft).2, (complete_of_emitted hright).2]
  exact hst

end Emission

/-! ### The function's rules -/

section Function

variable {rows : List OhlcvRow} {symbol exchange : String} {timeframe : Timeframe}
  {boundary first latest duration : ℤ} {result : ResampledCandles}

/-- The latest bucket that the function takes for closed by the boundary. -/
def latestStart (timeframe : Timeframe) (boundary : ℤ) : ℤ :=
  computedStart (boundary - timeframe.duration) timeframe.duration

/-- `min(grouped)`. -/
def IsFirstBucket (rows : List OhlcvRow) (timeframe : Timeframe) (first : ℤ) : Prop :=
  IsLeast {start | ∃ row ∈ rows, computedStart row.time timeframe.duration = start} first

/-- No bucket is left when the latest one is before the first. -/
theorem buckets_eq_nil (hpos : 0 < duration) (h : latest < first) :
    buckets first latest duration = [] := by
  unfold buckets
  have hneg : (latest - first) / duration < 0 := Int.ediv_neg_of_neg_of_pos (by omega) hpos
  have hcount : ((latest - first) / duration + 1).toNat = 0 := by omega
  rw [hcount]
  rfl

theorem min?_grouped :
    ((rows.map (entryOf timeframe.duration)).map (·.1)).min? = some first ↔
      IsFirstBucket rows timeframe first := by
  rw [List.min?_eq_some_iff]
  refine and_congr ?_ ?_
  · simp [entryOf]
  · simp [entryOf, lowerBounds]

theorem exists_isFirstBucket (timeframe : Timeframe) (hne : rows ≠ []) :
    ∃ first, IsFirstBucket rows timeframe first := by
  have hmap : (rows.map (entryOf timeframe.duration)).map (·.1) ≠ [] := by
    simpa using hne
  obtain ⟨first, hmin⟩ := Option.ne_none_iff_exists'.1 (mt List.min?_eq_none_iff.1 hmap)
  exact ⟨first, min?_grouped.1 hmin⟩

/-- The latest bucket starts at a multiple of the duration, and so does the first. -/
theorem IsFirstBucket.dvd (h : IsFirstBucket rows timeframe first) :
    timeframe.duration ∣ first := by
  obtain ⟨row, -, rfl⟩ := h.1
  exact duration_dvd_computedStart timeframe row.time

/-- The buckets the loop passes through. -/
theorem mem_buckets_latest {start : ℤ} (h : IsFirstBucket rows timeframe first) :
    start ∈ buckets first (latestStart timeframe boundary) timeframe.duration ↔
      timeframe.duration ∣ start ∧ first ≤ start ∧ start ≤ latestStart timeframe boundary := by
  have hlatest := Int.emod_eq_zero_of_dvd
    (duration_dvd_computedStart timeframe (boundary - timeframe.duration))
  rw [mem_buckets timeframe.duration_pos h.dvd, latestStart, bucketStart_eq_self hlatest,
    Int.dvd_iff_emod_eq_zero]

/-- **What the function returns**, on rows that are not empty. -/
theorem resample_eq_ok (hne : rows ≠ []) :
    resampleConfirmedOhlcv rows symbol exchange timeframe boundary = .ok result ↔
      (∀ row ∈ rows, Groupable timeframe.duration row) ∧ (rows.map (·.time)).Nodup ∧
      InCalendar (boundary - timeframe.duration) ∧ InCalendar (latestStart timeframe boundary) ∧
      ∃ first, IsFirstBucket rows timeframe first ∧
        (∀ start ∈ buckets first (latestStart timeframe boundary) timeframe.duration,
          ∃ outcome, emission (rows.map (entryOf timeframe.duration)) symbol exchange timeframe
            start = .ok outcome) ∧
        result =
          ⟨(buckets first (latestStart timeframe boundary) timeframe.duration).filterMap
            (emitted (rows.map (entryOf timeframe.duration)) symbol exchange timeframe),
          (buckets first (latestStart timeframe boundary) timeframe.duration).countP fun start =>
            emitted (rows.map (entryOf timeframe.duration)) symbol exchange timeframe start =
              none⟩ := by
  unfold resampleConfirmedOhlcv
  dsimp only
  rw [if_neg hne, Except.bind_eq_ok]
  simp only [group_eq_ok]
  -- the rows have one first bucket
  obtain ⟨first, hfirst⟩ := exists_isFirstBucket timeframe hne
  have hmin := min?_grouped.2 hfirst
  have hrun : ∀ other, IsFirstBucket rows timeframe other ↔ other = first := fun other =>
    ⟨fun hother => hother.unique hfirst, fun heq => heq ▸ hfirst⟩
  simp only [hrun, exists_eq_left]
  constructor
  · rintro ⟨_, ⟨hrows, hnodup, rfl⟩, h⟩
    rw [hmin] at h
    dsimp only at h
    simp only [Except.bind_eq_ok, shift_eq_ok, bucketStart_eq_ok, ← sub_eq_add_neg] at h
    obtain ⟨_, ⟨hopened, rfl⟩, _, ⟨hlatest, rfl⟩, h⟩ := h
    refine ⟨hrows, hnodup, hopened, hlatest, ?_⟩
    split at h
    · -- the loop is not entered
      next hlt =>
      cases h
      rw [latestStart, buckets_eq_nil timeframe.duration_pos hlt]
      exact ⟨nofun, rfl⟩
    · obtain ⟨hstarts, rfl⟩ := run_eq_ok.1 h
      refine ⟨hstarts, ?_⟩
      rw [List.nil_append, Nat.zero_add]
      rfl
  · rintro ⟨hrows, hnodup, hopened, hlatest, hstarts, rfl⟩
    refine ⟨_, ⟨hrows, hnodup, rfl⟩, ?_⟩
    rw [hmin]
    dsimp only
    simp only [Except.bind_eq_ok, shift_eq_ok, bucketStart_eq_ok, ← sub_eq_add_neg]
    refine ⟨_, ⟨hopened, rfl⟩, _, ⟨hlatest, rfl⟩, ?_⟩
    split
    · next hlt =>
      rw [latestStart, buckets_eq_nil timeframe.duration_pos hlt]
      rfl
    · refine run_eq_ok.2 ⟨hstarts, ?_⟩
      rw [List.nil_append, Nat.zero_add]
      rfl

theorem resample_nil :
    resampleConfirmedOhlcv [] symbol exchange timeframe boundary = .ok ⟨[], 0⟩ := rfl

end Function

end Resampling
end TradingSystem
