import TradingSystem.Resampling.FlooredRead
import Mathlib.Data.Set.Card

/-!
# Resampling is exact while the clock is read in time

On valid rows of one minute a resampling is exact: one candle for every complete bucket that
is closed by the boundary, and every other bucket up to there counted. The code finds the
latest closed bucket through a float clock whose fraction is cut towards zero, and that can
read an instant as one that is still to come.

* `OhlcvRow.Valid` — what the schema says about a row.
* `Aggregates`, `Exact`, `ResamplesExactly` — what exact means.
* `clockReading`, `ReadInTime` — the clock, and when it is early enough.
* `resamplesExactly_iff` — resampling is exact exactly when the clock is read in time.
-/

namespace TradingSystem
namespace Resampling

open Numeric Logic Wallet CandleFeed

/-! ### The specification -/

/-- A row as the constraints of `ohlcv_futures` have it, with a volume. -/
structure OhlcvRow.Valid (row : OhlcvRow) : Prop extends OneMinute row where
  /-- Prices are positive, with eight places. -/
  prices : ∀ price ∈ [row.open, row.high, row.low, row.close], IsMoney price ∧ 0 < price
  open_le_high : row.open ≤ row.high
  close_le_high : row.close ≤ row.high
  low_le_open : row.low ≤ row.open
  low_le_close : row.low ≤ row.close
  volume : ∃ volume, row.volume = some volume ∧ 0 ≤ volume
  quoteVolume : ∀ quote ∈ row.quoteVolume, 0 ≤ quote
  tradeCount : ∀ count ∈ row.tradeCount, 0 ≤ count

/-- The candle aggregates the minutes. -/
structure Aggregates (minutes : List OhlcvRow) (candle : OhlcvCandle) : Prop where
  /-- The open of the first minute. -/
  open_eq : ∃ row, minutes.head? = some row ∧ candle.open = toFloat row.open
  /-- The close of the last minute. -/
  close_eq : ∃ row, minutes.getLast? = some row ∧ candle.close = toFloat row.close
  /-- The maximum high. -/
  high_eq : ∃ high, IsGreatest {price | ∃ row ∈ minutes, row.high = price} high ∧
    candle.high = toFloat high
  /-- The minimum low. -/
  low_eq : ∃ low, IsLeast {price | ∃ row ∈ minutes, row.low = price} low ∧
    candle.low = toFloat low
  /-- The summed volume. -/
  volume_eq : candle.volume = toFloat (decimalSum (minutes.map fun row => row.volume.getD 0))

/-- A bucket of the grid whose close is not after the boundary. -/
def ClosedBucket (timeframe : Timeframe) (boundary start : ℤ) : Prop :=
  timeframe.duration ∣ start ∧ start + timeframe.duration ≤ boundary

/-- The first row's bucket on the grid. -/
def IsFirstRowBucket (rows : List OhlcvRow) (timeframe : Timeframe) (first : ℤ) : Prop :=
  IsLeast {start | ∃ row ∈ rows, CandleFeed.bucketStart row.time timeframe.duration = start} first

/-- The result has the complete closed buckets as candles and the rest of the closed ones in
its count. -/
structure Exact (rows : List OhlcvRow) (symbol exchange : String) (timeframe : Timeframe)
    (boundary : ℤ) (result : ResampledCandles) : Prop where
  ordered : result.candles.Pairwise fun left right => left.openTime < right.openTime
  /-- A bucket has a candle exactly when it is closed and has a row for each minute. -/
  exists_iff : ∀ start, (∃ candle ∈ result.candles, candle.openTime = start) ↔
    ClosedBucket timeframe boundary start ∧
      ∀ time ∈ bucketTimes timeframe start, ∃ row ∈ rows, row.time = time
  /-- A candle is of the stream, spans its bucket and aggregates the rows of its minutes. -/
  aggregated : ∀ candle ∈ result.candles,
    candle.symbol = symbol ∧ candle.exchange = exchange ∧ candle.timeframe = timeframe ∧
      candle.closeTime = candle.openTime + timeframe.duration ∧
      ∃ minutes : List OhlcvRow, (∀ row ∈ minutes, row ∈ rows) ∧
        minutes.map (·.time) = bucketTimes timeframe candle.openTime ∧ Aggregates minutes candle
  /-- Emitted and dropped are the closed buckets from the first row's on. -/
  counted : ∀ first, IsFirstRowBucket rows timeframe first →
    result.candles.length + result.droppedBucketCount =
      Set.ncard {start | first ≤ start ∧ ClosedBucket timeframe boundary start}

/-- **Resampling is exact**, and neither rows at or after the boundary nor the order of the
rows change it. -/
structure ResamplesExactly (rows : List OhlcvRow) (symbol exchange : String)
    (timeframe : Timeframe) (boundary : ℤ) : Prop where
  exact : ∃ result, resampleConfirmedOhlcv rows symbol exchange timeframe boundary = .ok result ∧
    Exact rows symbol exchange timeframe boundary result
  past : resampleConfirmedOhlcv (rows.filter fun row => row.time < boundary) symbol exchange
      timeframe boundary = resampleConfirmedOhlcv rows symbol exchange timeframe boundary
  order : ∀ rows' : List OhlcvRow, rows'.Perm rows →
    resampleConfirmedOhlcv rows' symbol exchange timeframe boundary =
      resampleConfirmedOhlcv rows symbol exchange timeframe boundary

/-! ### The clock -/

/-- The condition: with any row at all, the buckets in question start within the calendar,
and the clock does not read the instant one duration before the boundary as the next bucket,
unless every row is later than it. -/
def ReadInTime (rows : List OhlcvRow) (timeframe : Timeframe) (boundary : ℤ) : Prop :=
  rows = [] ∨
    (∀ row ∈ rows, InCalendar (CandleFeed.bucketStart row.time timeframe.duration)) ∧
    InCalendar (boundary - timeframe.duration) ∧
    InCalendar (CandleFeed.bucketStart (clockReading (boundary - timeframe.duration))
      timeframe.duration) ∧
    (clockReading (boundary - timeframe.duration) <
        CandleFeed.bucketStart (boundary - timeframe.duration) timeframe.duration +
          timeframe.duration ∨
      ∀ row ∈ rows, clockReading (boundary - timeframe.duration) <
        CandleFeed.bucketStart row.time timeframe.duration)

section Clock

variable {instant start boundary : ℤ} {timeframe : Timeframe}

/-- Cutting the fraction of a float does not pass a whole number below it. -/
theorem le_truncated {x : Binary64} {n : ℤ} (h : (n : ℚ) ≤ x.val) : n ≤ truncated x := by
  have hfloor : n ≤ x.val.num / x.val.den := by
    rw [← Rat.floor_def']
    exact Int.le_floor.2 h
  unfold truncated
  rw [Int.tdiv_eq_ediv]
  have hsign : (0 : ℤ) ≤ Int.sign x.val.den := Int.sign_nonneg_iff.2 (by positivity)
  split <;> omega

/-- The clock does not read an instant as a second before its own. -/
theorem second_le_clockReading (hin : InCalendar instant) :
    instant / Instant.second * Instant.second ≤ clockReading instant := by
  obtain ⟨hlow, hhigh⟩ := hin
  unfold calendarStart Instant.second at hlow
  unfold calendarEnd Instant.second at hhigh
  have hsmall : |instant / Instant.second| ≤ 2 ^ 53 := by
    unfold Instant.second
    rw [abs_le]
    constructor <;> omega
  have hle : ((instant / Instant.second : ℤ) : ℚ) ≤ instant / 1000000 := by
    rw [le_div_iff₀ (by norm_num)]
    have := Int.ediv_mul_le instant (show Instant.second ≠ 0 by decide)
    unfold Instant.second at this ⊢
    exact_mod_cast this
  have hround := binary64.round_mono hle
  rw [round_intCast hsmall] at hround
  exact mul_le_mul_of_nonneg_right (le_truncated hround) (by decide)

/-- Nor as an earlier bucket. -/
theorem bucketStart_le_clockReading (hin : InCalendar instant) (timeframe : Timeframe) :
    CandleFeed.bucketStart instant timeframe.duration ≤ clockReading instant := by
  refine le_trans ?_ (second_le_clockReading hin)
  have hsecond : Instant.second ∣ CandleFeed.bucketStart instant timeframe.duration :=
    (Dvd.intro_left _ (duration_eq_seconds timeframe).symm).trans dvd_bucketStart
  obtain ⟨k, hk⟩ := hsecond
  have hle : CandleFeed.bucketStart instant timeframe.duration ≤ instant :=
    bucketStart_le timeframe.duration_pos
  rw [hk] at hle ⊢
  rw [mul_comm]
  refine mul_le_mul_of_nonneg_right ((Int.le_ediv_iff_mul_le (by decide)).2 ?_) (by decide)
  rwa [mul_comm]

end Clock

/-! ### One candle -/

section Build

variable {minutes : List OhlcvRow} {values : List Decimal}

/-- Sums of volumes are not negative, however they are rounded. -/
theorem decimalSum_nonneg (h : ∀ value ∈ values, 0 ≤ value) : 0 ≤ decimalSum values := by
  unfold decimalSum
  suffices hfold : ∀ total : Decimal, 0 ≤ total →
      0 ≤ values.foldl (fun total value => contextRound (total + value)) total from
    hfold 0 le_rfl
  induction values with
  | nil => exact fun total htotal => htotal
  | cons value values ih =>
    intro total htotal
    rw [List.forall_mem_cons] at h
    exact ih h.2 _ (contextRound_nonneg (add_nonneg htotal h.1))

/-- **Summed volumes**: while the total has less than 29 digits, the sum is exact. -/
theorem decimalSum_eq_sum (h : ∀ value ∈ values, IsMoney value ∧ 0 ≤ value)
    (hlt : values.sum < contextLimit) : decimalSum values = values.sum := by
  unfold decimalSum
  suffices hfold : ∀ total : Decimal, IsMoney total → 0 ≤ total →
      total + values.sum < contextLimit →
      values.foldl (fun total value => contextRound (total + value)) total =
        total + values.sum by
    have hsum := hfold 0 isMoney_zero le_rfl (by rwa [zero_add])
    rwa [zero_add] at hsum
  clear hlt
  induction values with
  | nil => exact fun total _ _ _ => (add_zero total).symm
  | cons value values ih =>
    intro total hmoney htotal hlt
    rw [List.forall_mem_cons] at h
    rw [List.sum_cons] at hlt ⊢
    have hnonneg := add_nonneg htotal h.1.2
    have hrest := List.sum_nonneg fun value hvalue => (h.2 value hvalue).2
    -- the partial sum is money below the limit, so it is not rounded
    have hround : contextRound (total + value) = total + value := by
      apply contextRound_of_isMoney (hmoney.add h.1.1)
      rw [abs_of_nonneg hnonneg]
      linarith
    rw [List.foldl_cons, hround, ih h.2 (total + value) (hmoney.add h.1.1) hnonneg (by linarith)]
    ring

/-- **Valid minutes** always make a candle, and it aggregates them. -/
theorem exists_buildCandle (symbol exchange : String) (timeframe : Timeframe) (start : ℤ)
    (hne : minutes ≠ []) (hvalid : ∀ row ∈ minutes, row.Valid) :
    ∃ candle, buildCandle minutes symbol exchange timeframe start
      (start + timeframe.duration) = .ok candle ∧ Aggregates minutes candle := by
  obtain ⟨first, hfirst⟩ := Option.ne_none_iff_exists'.1 (mt List.head?_eq_none_iff.1 hne)
  obtain ⟨last, hlast⟩ := Option.ne_none_iff_exists'.1 (mt List.getLast?_eq_none_iff.1 hne)
  have hhighs : minutes.map (·.high) ≠ [] := by simpa using hne
  have hlows : minutes.map (·.low) ≠ [] := by simpa using hne
  obtain ⟨high, hhigh⟩ := Option.ne_none_iff_exists'.1 (mt List.max?_eq_none_iff.1 hhighs)
  obtain ⟨low, hlow⟩ := Option.ne_none_iff_exists'.1 (mt List.min?_eq_none_iff.1 hlows)
  obtain ⟨hhighMem, hhighMax⟩ := List.max?_eq_some_iff.1 hhigh
  obtain ⟨hlowMem, hlowMin⟩ := List.min?_eq_some_iff.1 hlow
  obtain ⟨highest, hhighest, rfl⟩ := List.mem_map.1 hhighMem
  obtain ⟨lowest, hlowest, rfl⟩ := List.mem_map.1 hlowMem
  have hfirstValid := hvalid first (List.mem_of_mem_head? hfirst)
  have hlastValid := hvalid last (List.mem_of_getLast? hlast)
  -- every price is a positive amount, so its double is positive too
  have hpos : ∀ row ∈ minutes, ∀ price ∈ [row.open, row.high, row.low, row.close],
      Binary64.zero < toFloat price := by
    intro row hrow price hprice
    obtain ⟨hmoney, hprice0⟩ := (hvalid row hrow).prices price hprice
    exact Binary64.lt_def.2 (toFloat_pos hmoney hprice0)
  have hfirstHigh := hhighMax _ (List.mem_map_of_mem (List.mem_of_mem_head? hfirst))
  have hlastHigh := hhighMax _ (List.mem_map_of_mem (List.mem_of_getLast? hlast))
  have hfirstLow := hlowMin _ (List.mem_map_of_mem (List.mem_of_mem_head? hfirst))
  have hlastLow := hlowMin _ (List.mem_map_of_mem (List.mem_of_getLast? hlast))
  -- the candle is built from these five, and its own check passes
  unfold buildCandle
  dsimp only
  simp only [List.head?_map, List.getLast?_map, hfirst, hlast, hhigh, hlow, Option.map_some,
    Option.getD_some]
  refine ⟨_, Except.bind_eq_ok.2 ⟨⟨⟩, ?_, rfl⟩, ?_⟩
  · -- rounding to a double keeps the order of the prices
    unfold OhlcvCandle.validate
    simp only [Except.bind_eq_ok, require_eq_ok]
    refine ⟨⟨⟩, trivial, ⟨⟩, ⟨?_, ?_, ?_, ?_⟩, ⟨⟩, ⟨?_, ?_⟩, ⟨⟩, ⟨?_, ?_⟩, ⟨⟩, ?_, ⟨⟩, ?_, ?_⟩
    · exact hpos first (List.mem_of_mem_head? hfirst) _ (by simp)
    · exact hpos highest hhighest _ (by simp)
    · exact hpos lowest hlowest _ (by simp)
    · exact hpos last (List.mem_of_getLast? hlast) _ (by simp)
    · exact toFloat_mono (hfirstValid.open_le_high.trans hfirstHigh)
    · exact toFloat_mono (hlastValid.close_le_high.trans hlastHigh)
    · exact toFloat_mono (hfirstLow.trans hfirstValid.low_le_open)
    · exact toFloat_mono (hlastLow.trans hlastValid.low_le_close)
    · -- volumes are sums of values that are not negative
      refine toFloat_nonneg (decimalSum_nonneg ?_)
      rintro _ hvolume
      obtain ⟨row, hrow, rfl⟩ := List.mem_map.1 hvolume
      obtain ⟨volume, heq, hvolume0⟩ := (hvalid row hrow).volume
      rwa [heq]
    · split
      · rfl
      · refine decide_eq_true (toFloat_nonneg (decimalSum_nonneg ?_))
        rintro _ hquote
        obtain ⟨row, hrow, rfl⟩ := List.mem_map.1 hquote
        have hrowQuote := (hvalid row hrow).quoteVolume
        cases hcase : row.quoteVolume with
        | none => exact le_rfl
        | some quote => exact hrowQuote quote hcase
    · split
      · rfl
      · refine decide_eq_true (List.sum_nonneg ?_)
        rintro _ hcount
        obtain ⟨row, hrow, rfl⟩ := List.mem_map.1 hcount
        have hrowCount := (hvalid row hrow).tradeCount
        cases hcase : row.tradeCount with
        | none => exact le_rfl
        | some count => exact hrowCount count hcase
  · refine ⟨⟨first, hfirst, rfl⟩, ⟨last, hlast, rfl⟩, ?_, ?_, rfl⟩
    · refine ⟨highest.high, ⟨⟨highest, hhighest, rfl⟩, ?_⟩, rfl⟩
      rintro _ ⟨row, hrow, rfl⟩
      exact hhighMax _ (List.mem_map_of_mem hrow)
    · refine ⟨lowest.low, ⟨⟨lowest, hlowest, rfl⟩, ?_⟩, rfl⟩
      rintro _ ⟨row, hrow, rfl⟩
      exact hlowMin _ (List.mem_map_of_mem hrow)

end Build

/-! ### One bucket of valid rows -/

section Bucket

variable {rows : List OhlcvRow} {symbol exchange : String} {timeframe : Timeframe}
  {start time duration : ℤ} {bucket : List OhlcvRow} {candle : OhlcvCandle}

/-- Of two multiples, one that is before the next after the other is not after it. -/
theorem le_of_dvd_of_lt_add {a b : ℤ} (hpos : 0 < duration) (ha : duration ∣ a)
    (hb : duration ∣ b) (hlt : b < a + duration) : b ≤ a := by
  obtain ⟨j, rfl⟩ := ha
  obtain ⟨k, rfl⟩ := hb
  have hkj : k < j + 1 := by
    refine lt_of_mul_lt_mul_left ?_ hpos.le
    linarith
  exact mul_le_mul_of_nonneg_left (by omega) hpos.le

/-- An instant is in the bucket that starts at the last multiple before it. -/
theorem bucketStart_eq_iff (hpos : 0 < duration) (hdvd : duration ∣ start) :
    CandleFeed.bucketStart time duration = start ↔ start ≤ time ∧ time < start + duration := by
  have hlt := Int.emod_lt_of_pos time hpos
  constructor
  · rintro rfl
    refine ⟨bucketStart_le hpos, ?_⟩
    unfold CandleFeed.bucketStart
    omega
  · rintro ⟨hle, hnext⟩
    have hlower := le_bucketStart hpos (Int.emod_eq_zero_of_dvd hdvd) hle
    have hupper : CandleFeed.bucketStart time duration < start + duration :=
      (bucketStart_le hpos).trans_lt hnext
    exact le_antisymm (le_of_dvd_of_lt_add hpos hdvd dvd_bucketStart hupper) hlower

/-- The minutes of a bucket are the whole minutes from its start to its end. -/
theorem mem_bucketTimes_iff (hdvd : timeframe.duration ∣ start) :
    time ∈ bucketTimes timeframe start ↔
      Instant.minute ∣ time ∧ start ≤ time ∧ time < start + timeframe.duration := by
  have hpos : 0 < Instant.minute := by decide
  have hminute := (minute_dvd_duration timeframe).trans hdvd
  obtain ⟨count, hcount⟩ := minute_dvd_duration timeframe
  rw [mem_bucketTimes, hcount, Int.mul_ediv_cancel_left _ hpos.ne']
  constructor
  · -- minute `k` of the bucket
    rintro ⟨k, hk, rfl⟩
    have hk' : (k : ℤ) < count := by omega
    have hlt := mul_lt_mul_of_pos_right hk' hpos
    have hnonneg : 0 ≤ (k : ℤ) * Instant.minute := mul_nonneg (by positivity) hpos.le
    exact ⟨hminute.add (Dvd.intro_left _ rfl), by linarith, by linarith⟩
  · rintro ⟨htime, hle, hlt⟩
    obtain ⟨k, hk⟩ := htime.sub hminute
    have hk0 : 0 ≤ k := by
      refine le_of_mul_le_mul_left (?_ : Instant.minute * 0 ≤ Instant.minute * k) hpos
      linarith
    have hkcount : k < count := by
      refine lt_of_mul_lt_mul_left (?_ : Instant.minute * k < Instant.minute * count) hpos.le
      linarith
    refine ⟨k.toNat, by omega, ?_⟩
    rw [Int.toNat_of_nonneg hk0]
    linarith

theorem bucketTimes_pairwise (timeframe : Timeframe) (start : ℤ) :
    (bucketTimes timeframe start).Pairwise (· < ·) := by
  unfold bucketTimes
  rw [List.pairwise_map]
  change List.Pairwise _ ((List.range _).flatMap fun k : ℕ => [(k : ℤ)])
  rw [← List.map_eq_flatMap, List.pairwise_map]
  refine List.pairwise_lt_range.imp ?_
  intro j k hjk
  have hcast : (j : ℤ) < k := by exact_mod_cast hjk
  have := mul_lt_mul_of_pos_right hcast (show 0 < Instant.minute by decide)
  linarith

/-- The sorted rows of a complete bucket are at its minutes, one each. -/
theorem sorted_times (hnodup : (bucket.map (·.time)).Nodup)
    (hcomplete : Complete timeframe start bucket) :
    (bucket.insertionSort fun left right => left.time ≤ right.time).map (·.time) =
      bucketTimes timeframe start := by
  have hsorted := pairwise_insertionSort_time hnodup
  rw [← List.pairwise_map] at hsorted
  apply hsorted.eq_of_mem_iff (bucketTimes_pairwise timeframe start)
  intro time
  constructor
  · intro htime
    obtain ⟨row, hrow, rfl⟩ := List.mem_map.1 htime
    exact hcomplete.1 row ((List.mem_insertionSort _).1 hrow)
  · intro htime
    obtain ⟨row, hrow, rfl⟩ := List.mem_map.1 (hcomplete.2 time htime)
    exact List.mem_map_of_mem ((List.mem_insertionSort _).2 hrow)

theorem mem_bucketOf_iff {row : OhlcvRow} (hminute : ∀ row ∈ rows, OneMinute row)
    (hdvd : timeframe.duration ∣ start) :
    row ∈ bucketOf (rows.map (entryOf timeframe.duration)) start ↔
      row ∈ rows ∧ start ≤ row.time ∧ row.time < start + timeframe.duration := by
  rw [mem_bucketOf]
  refine and_congr_right fun hrow => ?_
  rw [(hminute row hrow).computedStart_eq, bucketStart_eq_iff timeframe.duration_pos hdvd]

/-- **A bucket is complete** when there is a row for each of its minutes. -/
theorem complete_iff (hminute : ∀ row ∈ rows, OneMinute row)
    (hdvd : timeframe.duration ∣ start) :
    Complete timeframe start (bucketOf (rows.map (entryOf timeframe.duration)) start) ↔
      ∀ time ∈ bucketTimes timeframe start, ∃ row ∈ rows, row.time = time := by
  constructor
  · intro hcomplete time htime
    obtain ⟨row, hrow, heq⟩ := List.mem_map.1 (hcomplete.2 time htime)
    exact ⟨row, ((mem_bucketOf_iff hminute hdvd).1 hrow).1, heq⟩
  · intro hrows
    refine ⟨fun row hrow => ?_, fun time htime => ?_⟩
    · obtain ⟨hmem, hin⟩ := (mem_bucketOf_iff hminute hdvd).1 hrow
      exact (mem_bucketTimes_iff hdvd).2 ⟨(hminute row hmem).minute, hin⟩
    · obtain ⟨row, hmem, rfl⟩ := hrows time htime
      exact List.mem_map_of_mem
        ((mem_bucketOf_iff hminute hdvd).2 ⟨hmem, ((mem_bucketTimes_iff hdvd).1 htime).2⟩)

/-- The rows that a complete bucket is built from. -/
theorem sorted_ne_nil (hcomplete : Complete timeframe start bucket) :
    (bucket.insertionSort fun left right => left.time ≤ right.time) ≠ [] := by
  obtain ⟨row, hrow, -⟩ := List.mem_map.1 (hcomplete.2 start (mem_bucketTimes_self timeframe start))
  exact List.ne_nil_of_mem ((List.mem_insertionSort _).2 hrow)

/-- On valid rows the loop passes every bucket of the calendar. -/
theorem exists_emission (hvalid : ∀ row ∈ rows, row.Valid) (hdvd : timeframe.duration ∣ start)
    (hstart : calendarStart ≤ start) (hclose : start + timeframe.duration < calendarEnd) :
    ∃ outcome, emission (rows.map (entryOf timeframe.duration)) symbol exchange timeframe start =
      .ok outcome := by
  have hpos := timeframe.duration_pos
  have htimes : ∀ time ∈ bucketTimes timeframe start, InCalendar time := by
    intro time htime
    obtain ⟨-, hle, hlt⟩ := (mem_bucketTimes_iff hdvd).1 htime
    exact ⟨hstart.trans hle, hlt.trans hclose⟩
  have hnext : InCalendar (start + timeframe.duration) := ⟨by linarith, hclose⟩
  by_cases hcomplete : Complete timeframe start
      (bucketOf (rows.map (entryOf timeframe.duration)) start)
  · have hbucket : ∀ row ∈ (bucketOf (rows.map (entryOf timeframe.duration)) start).insertionSort
        fun left right => left.time ≤ right.time, row.Valid := by
      intro row hrow
      exact hvalid row (mem_bucketOf.1 ((List.mem_insertionSort _).1 hrow)).1
    obtain ⟨candle, hbuild, -⟩ :=
      exists_buildCandle symbol exchange timeframe start (sorted_ne_nil hcomplete) hbucket
    exact ⟨some candle, emission_eq_ok.2 ⟨htimes, hnext, .inl ⟨hcomplete, candle, hbuild, rfl⟩⟩⟩
  · exact ⟨none, emission_eq_ok.2 ⟨htimes, hnext, .inr ⟨hcomplete, rfl⟩⟩⟩

/-- **A candle of valid rows** aggregates the rows of its minutes. -/
theorem aggregates_of_emitted (hvalid : ∀ row ∈ rows, row.Valid)
    (hnodup : (rows.map (·.time)).Nodup)
    (h : emitted (rows.map (entryOf timeframe.duration)) symbol exchange timeframe start =
      some candle) :
    candle.symbol = symbol ∧ candle.exchange = exchange ∧ candle.timeframe = timeframe ∧
      candle.closeTime = candle.openTime + timeframe.duration ∧
      ∃ minutes : List OhlcvRow, (∀ row ∈ minutes, row ∈ rows) ∧
        minutes.map (·.time) = bucketTimes timeframe candle.openTime ∧
        Aggregates minutes candle := by
  obtain ⟨-, -, ⟨hcomplete, built, hbuild, heq⟩ | ⟨-, hnone⟩⟩ :=
    emission_eq_ok.1 (emission_of_emitted h)
  · -- the candle that is built of valid rows is the one that aggregates them
    cases heq
    obtain ⟨hsymbol, hexchange, htimeframe, hopen, hclose⟩ := buildCandle_eq_ok hbuild
    have hmem : ∀ row ∈ (bucketOf (rows.map (entryOf timeframe.duration)) start).insertionSort
        fun left right => left.time ≤ right.time, row ∈ rows := fun row hrow =>
      (mem_bucketOf.1 ((List.mem_insertionSort _).1 hrow)).1
    obtain ⟨other, hother, haggregates⟩ := exists_buildCandle symbol exchange timeframe start
      (sorted_ne_nil hcomplete) fun row hrow => hvalid row (hmem row hrow)
    rw [hother] at hbuild
    cases hbuild
    rw [hopen]
    exact ⟨hsymbol, hexchange, htimeframe, hclose, _, hmem,
      sorted_times (nodup_bucketOf hnodup) hcomplete, haggregates⟩
  · cases hnone

end Bucket

/-! ### The closed buckets -/

section Closed

variable {rows : List OhlcvRow} {timeframe : Timeframe} {boundary start first : ℤ}

/-- For rows of one minute the first bucket is that of the grid. -/
theorem isFirstBucket_iff (hminute : ∀ row ∈ rows, OneMinute row) :
    IsFirstBucket rows timeframe first ↔ IsFirstRowBucket rows timeframe first := by
  have hset : {start | ∃ row ∈ rows, computedStart row.time timeframe.duration = start} =
      {start | ∃ row ∈ rows, CandleFeed.bucketStart row.time timeframe.duration = start} := by
    ext start
    refine exists_congr fun row => and_congr_right fun hrow => ?_
    rw [(hminute row hrow).computedStart_eq]
  unfold IsFirstBucket IsFirstRowBucket
  rw [hset]

theorem latestStart_le (timeframe : Timeframe) (boundary : ℤ) :
    latestStart timeframe boundary ≤ clockReading (boundary - timeframe.duration) := by
  rw [latestStart, computedStart_eq_bucketStart]
  exact bucketStart_le timeframe.duration_pos

/-- Multiples of the duration up to the clock's reading are up to the latest start. -/
theorem le_latestStart (hdvd : timeframe.duration ∣ start)
    (hle : start ≤ clockReading (boundary - timeframe.duration)) :
    start ≤ latestStart timeframe boundary := by
  rw [latestStart, computedStart_eq_bucketStart]
  exact le_bucketStart timeframe.duration_pos (Int.emod_eq_zero_of_dvd hdvd) hle

/-- A bucket is closed when it starts no later than the bucket one duration before the
boundary. -/
theorem closedBucket_iff (hdvd : timeframe.duration ∣ start) :
    ClosedBucket timeframe boundary start ↔
      start ≤ CandleFeed.bucketStart (boundary - timeframe.duration) timeframe.duration := by
  constructor
  · rintro ⟨-, hclose⟩
    exact le_bucketStart timeframe.duration_pos (Int.emod_eq_zero_of_dvd hdvd) (by linarith)
  · intro hle
    have := hle.trans (bucketStart_le timeframe.duration_pos)
    exact ⟨hdvd, by linarith⟩

/-- **Read in time**, the loop passes the closed buckets from the first one on, and no
other. -/
theorem mem_buckets_iff_closed (hminute : ∀ row ∈ rows, OneMinute row)
    (hfirst : IsFirstBucket rows timeframe first)
    (hin : InCalendar (boundary - timeframe.duration))
    (hclock : clockReading (boundary - timeframe.duration) <
        CandleFeed.bucketStart (boundary - timeframe.duration) timeframe.duration +
          timeframe.duration ∨
      ∀ row ∈ rows, clockReading (boundary - timeframe.duration) <
        CandleFeed.bucketStart row.time timeframe.duration) :
    start ∈ buckets first (latestStart timeframe boundary) timeframe.duration ↔
      first ≤ start ∧ ClosedBucket timeframe boundary start := by
  have hlatest := latestStart_le timeframe boundary
  rw [mem_buckets_latest hfirst]
  constructor
  · rintro ⟨hdvd, hle, hstart⟩
    refine ⟨hle, (closedBucket_iff hdvd).2 ?_⟩
    rcases hclock with hclock | hclock
    · -- a multiple before the next bucket is no later than this one
      have hlt : start < CandleFeed.bucketStart (boundary - timeframe.duration)
          timeframe.duration + timeframe.duration := by omega
      exact le_of_dvd_of_lt_add timeframe.duration_pos dvd_bucketStart hdvd hlt
    · -- the first bucket is after the clock, so the loop passes none
      obtain ⟨row, hrow, heq⟩ := ((isFirstBucket_iff hminute).1 hfirst).1
      have := hclock row hrow
      omega
  · rintro ⟨hle, hclosed⟩
    refine ⟨hclosed.1, hle, le_latestStart hclosed.1 ?_⟩
    exact ((closedBucket_iff hclosed.1).1 hclosed).trans (bucketStart_le_clockReading hin timeframe)

theorem nodup_buckets (timeframe : Timeframe) (first latest : ℤ) :
    (buckets first latest timeframe.duration).Nodup :=
  (buckets_pairwise timeframe first latest).imp fun h => h.ne

/-- Emitted and dropped are the buckets of the loop. -/
theorem length_add_dropped {f : ℤ → Option OhlcvCandle} (starts : List ℤ) :
    (starts.filterMap f).length + (starts.countP fun start => f start = none) =
      starts.length := by
  induction starts with
  | nil => rfl
  | cons start starts ih =>
    rw [List.filterMap_cons, List.countP_cons, List.length_cons, ← ih]
    cases f start with
    | none =>
      simp
      omega
    | some candle =>
      simp
      omega

theorem length_buckets (timeframe : Timeframe) (first latest : ℤ) :
    (buckets first latest timeframe.duration).length =
      Set.ncard {start | start ∈ buckets first latest timeframe.duration} := by
  rw [← List.toFinset_card_of_nodup (nodup_buckets timeframe first latest),
    ← Set.ncard_coe_finset]
  congr 1
  ext start
  simp

end Closed

/-! ### Exactness -/

section Exactness

variable {rows rows' : List OhlcvRow} {symbol exchange : String} {timeframe : Timeframe}
  {boundary : ℤ} {result : ResampledCandles}

/-- A valid row in the calendar is grouped. -/
theorem OhlcvRow.Valid.groupable {row : OhlcvRow} (h : row.Valid)
    (hin : InCalendar (CandleFeed.bucketStart row.time timeframe.duration)) :
    Groupable timeframe.duration row := by
  obtain ⟨volume, heq, -⟩ := h.volume
  refine ⟨by rw [heq]; rfl, ?_⟩
  rwa [h.toOneMinute.computedStart_eq]

/-- **The result depends on the rows of the buckets passed** and on nothing else. -/
theorem resample_congr (hne : rows ≠ []) (hne' : rows' ≠ [])
    (hrows : resampleConfirmedOhlcv rows symbol exchange timeframe boundary = .ok result)
    (hgroup : ∀ row ∈ rows', Groupable timeframe.duration row)
    (hnodup : (rows'.map (·.time)).Nodup)
    (hfirst : ∀ first, IsFirstBucket rows timeframe first → IsFirstBucket rows' timeframe first)
    (hbucket : ∀ first, IsFirstBucket rows timeframe first →
      ∀ start ∈ buckets first (latestStart timeframe boundary) timeframe.duration,
      ∀ row, computedStart row.time timeframe.duration = start → (row ∈ rows' ↔ row ∈ rows)) :
    resampleConfirmedOhlcv rows' symbol exchange timeframe boundary = .ok result := by
  obtain ⟨-, hnodup', hopened, hlatest, first, hleast, hstarts, rfl⟩ :=
    (resample_eq_ok hne).1 hrows
  -- a bucket is emitted from its own rows, and these are the same
  have hemission : ∀ start ∈ buckets first (latestStart timeframe boundary) timeframe.duration,
      emission (rows'.map (entryOf timeframe.duration)) symbol exchange timeframe start =
        emission (rows.map (entryOf timeframe.duration)) symbol exchange timeframe start := by
    intro start hstart
    apply emission_congr (nodup_bucketOf hnodup) (nodup_bucketOf hnodup')
    intro row
    rw [mem_bucketOf, mem_bucketOf]
    exact and_congr_left fun heq => hbucket first hleast start hstart row heq
  refine (resample_eq_ok hne').2 ⟨hgroup, hnodup, hopened, hlatest, first, hfirst first hleast,
    ?_, ?_⟩
  · intro start hstart
    rw [hemission start hstart]
    exact hstarts start hstart
  · have hemitted : ∀ start ∈ buckets first (latestStart timeframe boundary) timeframe.duration,
        emitted (rows.map (entryOf timeframe.duration)) symbol exchange timeframe start =
          emitted (rows'.map (entryOf timeframe.duration)) symbol exchange timeframe start := by
      intro start hstart
      unfold emitted
      rw [hemission start hstart]
    rw [List.filterMap_congr hemitted]
    congr 1
    apply List.countP_congr
    intro start hstart
    rw [hemitted start hstart]

/-- Without rows a resampling is exact. -/
theorem resamplesExactly_nil : ResamplesExactly [] symbol exchange timeframe boundary := by
  refine ⟨⟨⟨[], 0⟩, resample_nil, ?_⟩, rfl, ?_⟩
  · constructor
    · exact List.Pairwise.nil
    · intro start
      constructor
      · rintro ⟨candle, hcandle, -⟩
        cases hcandle
      · rintro ⟨-, hrows⟩
        obtain ⟨row, hrow, -⟩ := hrows start (mem_bucketTimes_self timeframe start)
        cases hrow
    · intro candle hcandle
      cases hcandle
    · rintro first ⟨⟨row, hrow, -⟩, -⟩
      cases hrow
  · intro rows' hperm
    rw [hperm.eq_nil]

/-- **Read in time**, a resampling of valid rows returns, and what it returns is exact. -/
theorem exact_of_readInTime (symbol exchange : String) (hvalid : ∀ row ∈ rows, row.Valid)
    (hnodup : (rows.map (·.time)).Nodup) (hboundary : InCalendar boundary) (hne : rows ≠ [])
    (h : ReadInTime rows timeframe boundary) :
    ∃ result, resampleConfirmedOhlcv rows symbol exchange timeframe boundary = .ok result ∧
      Exact rows symbol exchange timeframe boundary result := by
  have hminute : ∀ row ∈ rows, OneMinute row := fun row hrow => (hvalid row hrow).toOneMinute
  obtain hnil | ⟨hstarts, hopened, hlatest, hclock⟩ := h
  · exact absurd hnil hne
  rw [← computedStart_eq_bucketStart] at hlatest
  obtain ⟨first, hfirst⟩ := exists_isFirstBucket timeframe hne
  have hmem : ∀ start, start ∈ buckets first (latestStart timeframe boundary) timeframe.duration ↔
      first ≤ start ∧ ClosedBucket timeframe boundary start := fun start =>
    mem_buckets_iff_closed hminute hfirst hopened hclock
  have hfirstIn : calendarStart ≤ first := by
    obtain ⟨row, hrow, heq⟩ := ((isFirstBucket_iff hminute).1 hfirst).1
    rw [← heq]
    exact (hstarts row hrow).1
  have hloop : ∀ start ∈ buckets first (latestStart timeframe boundary) timeframe.duration,
      ∃ outcome, emission (rows.map (entryOf timeframe.duration)) symbol exchange timeframe
        start = .ok outcome := by
    intro start hstart
    obtain ⟨hle, hdvd, hclose⟩ := (hmem start).1 hstart
    exact exists_emission hvalid hdvd (hfirstIn.trans hle) (hclose.trans_lt hboundary.2)
  refine ⟨_, (resample_eq_ok hne).2 ⟨fun row hrow => (hvalid row hrow).groupable
    (hstarts row hrow), hnodup, hopened, hlatest, first, hfirst, hloop, rfl⟩, ?_⟩
  constructor
  · exact emitted_ordered _ symbol exchange timeframe first _
  · intro start
    constructor
    · rintro ⟨candle, hcandle, hopen⟩
      obtain ⟨current, hcurrent, hemitted⟩ := List.mem_filterMap.1 hcandle
      obtain ⟨hcomplete, heq⟩ := complete_of_emitted hemitted
      obtain rfl : current = start := heq.symm.trans hopen
      obtain ⟨-, hclosed⟩ := (hmem current).1 hcurrent
      exact ⟨hclosed, (complete_iff hminute hclosed.1).1 hcomplete⟩
    · rintro ⟨hclosed, hrows⟩
      -- the row of its first minute puts the bucket among those passed
      obtain ⟨row, hrow, htime⟩ := hrows start (mem_bucketTimes_self timeframe start)
      have hle : first ≤ start := by
        refine hfirst.2 ⟨row, hrow, ?_⟩
        rw [(hminute row hrow).computedStart_eq, htime]
        exact bucketStart_eq_self (Int.emod_eq_zero_of_dvd hclosed.1)
      have hstart := (hmem start).2 ⟨hle, hclosed⟩
      obtain ⟨outcome, houtcome⟩ := hloop start hstart
      have hcomplete := (complete_iff hminute hclosed.1).2 hrows
      obtain ⟨-, -, ⟨-, candle, hbuild, rfl⟩ | ⟨hnot, -⟩⟩ := emission_eq_ok.1 houtcome
      · obtain ⟨-, -, -, hopen, -⟩ := buildCandle_eq_ok hbuild
        exact ⟨candle, List.mem_filterMap.2 ⟨start, hstart, emitted_of_emission houtcome⟩, hopen⟩
      · exact absurd hcomplete hnot
  · intro candle hcandle
    obtain ⟨start, -, hemitted⟩ := List.mem_filterMap.1 hcandle
    exact aggregates_of_emitted hvalid hnodup hemitted
  · intro other hother
    obtain rfl : first = other := ((isFirstBucket_iff hminute).1 hfirst).unique hother
    dsimp only
    rw [length_add_dropped, length_buckets]
    simp only [hmem]

/-- **Read in time**, rows at or after the boundary change nothing. -/
theorem past_of_readInTime (hvalid : ∀ row ∈ rows, row.Valid)
    (hne : rows ≠ []) (h : ReadInTime rows timeframe boundary)
    (hresult : resampleConfirmedOhlcv rows symbol exchange timeframe boundary = .ok result) :
    resampleConfirmedOhlcv (rows.filter fun row => row.time < boundary) symbol exchange timeframe
      boundary = .ok result := by
  have hminute : ∀ row ∈ rows, OneMinute row := fun row hrow => (hvalid row hrow).toOneMinute
  obtain hnil | ⟨-, hopened, -, hclock⟩ := h
  · exact absurd hnil hne
  -- the rows of a closed bucket all lie before the boundary
  have hpast : ∀ row, row ∈ (rows.filter fun row => row.time < boundary) ↔
      row ∈ rows ∧ row.time < boundary := by
    intro row
    rw [List.mem_filter, decide_eq_true_eq]
  obtain ⟨hgroup, hnodup, -, -, first, hfirst, -, hresultEq⟩ := (resample_eq_ok hne).1 hresult
  by_cases hnone : (rows.filter fun row => row.time < boundary) = []
  · -- every row is in a bucket that closes after the boundary
    rw [hnone, resample_nil, hresultEq]
    have hempty : buckets first (latestStart timeframe boundary) timeframe.duration = [] := by
      rw [List.eq_nil_iff_forall_not_mem]
      intro start hstart
      obtain ⟨hle, hdvd, hclose⟩ :=
        (mem_buckets_iff_closed hminute hfirst hopened hclock).1 hstart
      obtain ⟨row, hrow, heq⟩ := ((isFirstBucket_iff hminute).1 hfirst).1
      have hlt := ((bucketStart_eq_iff timeframe.duration_pos (heq ▸ dvd_bucketStart)).1 heq).2
      have hfuture : ¬row.time < boundary := by
        intro hbefore
        have hmem := (hpast row).2 ⟨hrow, hbefore⟩
        rw [hnone] at hmem
        cases hmem
      omega
    rw [hempty]
    rfl
  · refine resample_congr hne hnone hresult (fun row hrow => hgroup row ((hpast row).1 hrow).1)
      (hnodup.sublist (List.filter_sublist.map _)) ?_ ?_
    · -- the least start is that of a past row
      intro least hleast
      obtain ⟨early, hearly⟩ := List.exists_mem_of_ne_nil _ hnone
      obtain ⟨hearlyMem, hearlyLt⟩ := (hpast early).1 hearly
      obtain ⟨row, hrow, heq⟩ := hleast.1
      refine ⟨?_, fun start hstart => ?_⟩
      · by_cases hbefore : row.time < boundary
        · exact ⟨row, (hpast row).2 ⟨hrow, hbefore⟩, heq⟩
        · refine ⟨early, hearly, le_antisymm ?_ (hleast.2 ⟨early, hearlyMem, rfl⟩)⟩
          rw [← heq, (hminute early hearlyMem).computedStart_eq,
            (hminute row hrow).computedStart_eq]
          refine le_bucketStart timeframe.duration_pos
            (Int.emod_eq_zero_of_dvd dvd_bucketStart) ?_
          have hearlyStart : CandleFeed.bucketStart early.time timeframe.duration ≤ early.time :=
            bucketStart_le timeframe.duration_pos
          omega
      · obtain ⟨other, hother, rfl⟩ := hstart
        exact hleast.2 ⟨other, ((hpast other).1 hother).1, rfl⟩
    · intro least hleast start hstart row heq
      rw [hpast]
      refine and_iff_left_of_imp fun hrow => ?_
      obtain ⟨-, hdvd, hclose⟩ := (mem_buckets_iff_closed hminute hleast hopened hclock).1 hstart
      rw [(hminute row hrow).computedStart_eq,
        bucketStart_eq_iff timeframe.duration_pos hdvd] at heq
      omega

/-- The order of the rows changes nothing. -/
theorem resample_perm (hne : rows ≠ []) (hperm : rows'.Perm rows)
    (hresult : resampleConfirmedOhlcv rows symbol exchange timeframe boundary = .ok result) :
    resampleConfirmedOhlcv rows' symbol exchange timeframe boundary = .ok result := by
  obtain ⟨hgroup, hnodup, -⟩ := (resample_eq_ok hne).1 hresult
  have hne' : rows' ≠ [] := fun hnil => hne (List.Perm.eq_nil (hnil ▸ hperm.symm))
  apply resample_congr hne hne' hresult
  · exact fun row hrow => hgroup row (hperm.mem_iff.1 hrow)
  · exact (hperm.map _).nodup_iff.2 hnodup
  · intro first hfirst
    unfold IsFirstBucket at hfirst ⊢
    simpa only [hperm.mem_iff] using hfirst
  · exact fun _ _ _ _ row _ => hperm.mem_iff

/-- A clock that reads the next bucket makes the loop count one bucket too many. -/
theorem not_exact_of_late (hminute : ∀ row ∈ rows, OneMinute row) (hne : rows ≠ [])
    (hlate : CandleFeed.bucketStart (boundary - timeframe.duration) timeframe.duration +
      timeframe.duration ≤ clockReading (boundary - timeframe.duration))
    {row : OhlcvRow} (hrow : row ∈ rows)
    (hle : CandleFeed.bucketStart row.time timeframe.duration ≤
      clockReading (boundary - timeframe.duration))
    (hresult : resampleConfirmedOhlcv rows symbol exchange timeframe boundary = .ok result) :
    ¬Exact rows symbol exchange timeframe boundary result := by
  intro hexact
  obtain ⟨-, -, hopened, -, first, hfirst, -, rfl⟩ := (resample_eq_ok hne).1 hresult
  have hcounted := hexact.counted first ((isFirstBucket_iff hminute).1 hfirst)
  dsimp only at hcounted
  rw [length_add_dropped, length_buckets] at hcounted
  have hfirstLe : first ≤ CandleFeed.bucketStart row.time timeframe.duration :=
    ((isFirstBucket_iff hminute).1 hfirst).2 ⟨row, hrow, rfl⟩
  have hlatest : CandleFeed.bucketStart row.time timeframe.duration ≤
      latestStart timeframe boundary := le_latestStart dvd_bucketStart hle
  have hnext : CandleFeed.bucketStart (boundary - timeframe.duration) timeframe.duration +
      timeframe.duration ≤ latestStart timeframe boundary :=
    le_latestStart (dvd_bucketStart.add dvd_rfl) hlate
  have hdvd : timeframe.duration ∣ latestStart timeframe boundary :=
    duration_dvd_computedStart timeframe _
  -- the closed buckets are fewer than those passed
  have hlt : Set.ncard {start | first ≤ start ∧ ClosedBucket timeframe boundary start} <
      Set.ncard {start |
        start ∈ buckets first (latestStart timeframe boundary) timeframe.duration} := by
    refine Set.ncard_lt_ncard ⟨?_, ?_⟩ (List.finite_toSet _)
    · rintro start ⟨hstart, hclosed⟩
      refine (mem_buckets_latest hfirst).2 ⟨hclosed.1, hstart, le_latestStart hclosed.1 ?_⟩
      exact ((closedBucket_iff hclosed.1).1 hclosed).trans
        (bucketStart_le_clockReading hopened timeframe)
    · intro hsub
      have hmem := hsub ((mem_buckets_latest hfirst).2
        ⟨hdvd, hfirstLe.trans hlatest, le_rfl⟩)
      have hclosed := (closedBucket_iff hdvd).1 hmem.2
      have := timeframe.duration_pos
      omega
  omega

/-- **Resampling is exact exactly when the clock is read in time.** The candles are those of the
complete buckets closed by the boundary, and the other closed buckets from the first on are
counted, unless the float of the boundary's clock, cut to seconds, falls into a later bucket. -/
theorem resamplesExactly_iff (hvalid : ∀ row ∈ rows, row.Valid)
    (hnodup : (rows.map (·.time)).Nodup) (hboundary : InCalendar boundary) :
    ResamplesExactly rows symbol exchange timeframe boundary ↔
      ReadInTime rows timeframe boundary := by
  have hminute : ∀ row ∈ rows, OneMinute row := fun row hrow => (hvalid row hrow).toOneMinute
  by_cases hne : rows = []
  · subst hne
    exact ⟨fun _ => .inl rfl, fun _ => resamplesExactly_nil⟩
  constructor
  · rintro ⟨⟨result, hresult, hexact⟩, -, -⟩
    obtain ⟨hgroup, -, hopened, hlatest, -⟩ := (resample_eq_ok hne).1 hresult
    rw [latestStart, computedStart_eq_bucketStart] at hlatest
    refine .inr ⟨fun row hrow => ?_, hopened, hlatest, ?_⟩
    · have hin := (hgroup row hrow).start_inCalendar
      rwa [(hminute row hrow).computedStart_eq] at hin
    · by_contra hnot
      rw [not_or, not_lt] at hnot
      obtain ⟨hlate, hrows⟩ := hnot
      simp only [not_forall, not_lt] at hrows
      obtain ⟨row, hrow, hle⟩ := hrows
      -- a late boundary leaves out a bucket that is complete
      exact not_exact_of_late hminute hne hlate hrow hle hresult hexact
  · intro h
    obtain ⟨result, hresult, hexact⟩ :=
      exact_of_readInTime symbol exchange hvalid hnodup hboundary hne h
    refine ⟨⟨result, hresult, hexact⟩, ?_, fun rows' hperm => ?_⟩
    · rw [past_of_readInTime hvalid hne h hresult, hresult]
    · rw [resample_perm hne hperm hresult, hresult]

/-- **On whole seconds** the clock is read in time. -/
theorem readInTime_of_wholeSecond {seconds : ℤ}
    (hsecond : WholeSecond (boundary - timeframe.duration) seconds)
    (hrows : ∀ row ∈ rows, InCalendar (CandleFeed.bucketStart row.time timeframe.duration))
    (hopened : InCalendar (boundary - timeframe.duration))
    (hstart : InCalendar
      (CandleFeed.bucketStart (boundary - timeframe.duration) timeframe.duration)) :
    ReadInTime rows timeframe boundary := by
  refine .inr ⟨hrows, hopened, ?_, .inl ?_⟩
  · rwa [clockReading_eq hsecond]
  · rw [clockReading_eq hsecond]
    have := Int.emod_lt_of_pos (boundary - timeframe.duration) timeframe.duration_pos
    unfold CandleFeed.bucketStart
    omega

theorem valid_oneDollarMinute {minutes : ℤ} (hin : InCalendar (minutes * Instant.minute)) :
    (oneDollarMinute (minutes * Instant.minute)).Valid where
  minute := Dvd.intro_left _ rfl
  calendar := hin
  prices := by
    intro price hprice
    simp only [oneDollarMinute, List.mem_cons, List.not_mem_nil, or_false, or_self] at hprice
    subst hprice
    exact ⟨isMoney_one, one_pos⟩
  open_le_high := le_rfl
  close_le_high := le_rfl
  low_le_open := le_rfl
  low_le_close := le_rfl
  volume := ⟨2, rfl, by norm_num⟩
  quoteVolume := by
    rintro _ ⟨⟩
    norm_num
  tradeCount := by
    rintro _ ⟨⟩
    norm_num

/-- The first three minutes of the epoch. -/
def threeMinutes : List OhlcvRow :=
  [oneDollarMinute (0 * Instant.minute), oneDollarMinute (1 * Instant.minute),
    oneDollarMinute (2 * Instant.minute)]

/-- At the end of the fourth minute the first two make a candle, and the bucket of the third is
dropped. -/
theorem resamplesExactly_threeMinutes :
    ResamplesExactly threeMinutes "BTCUSDT" "binance" twoMinutes (4 * Instant.minute) ∧
      returnsWith (resampleConfirmedOhlcv threeMinutes "BTCUSDT" "binance" twoMinutes
        (4 * Instant.minute)) (fun result => decide (result.candles.length = 1 ∧
          result.droppedBucketCount = 1)) = true := by
  refine ⟨(resamplesExactly_iff ?_ (by decide) (by decide)).2 ?_, by decide +kernel⟩
  · intro row hrow
    simp only [threeMinutes, List.mem_cons, List.not_mem_nil, or_false] at hrow
    obtain rfl | rfl | rfl := hrow
    · exact valid_oneDollarMinute (by decide)
    · exact valid_oneDollarMinute (by decide)
    · exact valid_oneDollarMinute (by decide)
  · have hsecond : WholeSecond (4 * Instant.minute - twoMinutes.duration) 120 :=
      ⟨by decide, by decide⟩
    exact readInTime_of_wholeSecond hsecond (by decide) (by decide) (by decide)

/-- **An unfinished minute** is emitted half a second before it ends: the instant one minute
before the boundary is half a second before the epoch, and is read as the epoch. -/
theorem not_resamplesExactly_of_unfinished :
    (∀ row ∈ [oneDollarMinute (0 * Instant.minute)], row.Valid) ∧
      InCalendar (59 * Instant.second + 500 * Instant.millisecond) ∧
      ¬ResamplesExactly [oneDollarMinute (0 * Instant.minute)] "BTCUSDT" "binance"
        Timeframe.oneMinute (59 * Instant.second + 500 * Instant.millisecond) := by
  have hvalid : ∀ row ∈ [oneDollarMinute (0 * Instant.minute)], row.Valid := by
    intro row hrow
    rw [List.mem_singleton.1 hrow]
    exact valid_oneDollarMinute (by decide)
  refine ⟨hvalid, by decide, ?_⟩
  rintro ⟨⟨result, hresult, hexact⟩, -, -⟩
  have hclock : clockReading (59 * Instant.second + 500 * Instant.millisecond -
      Timeframe.oneMinute.duration) = 0 := by decide +kernel
  refine not_exact_of_late (fun row hrow => (hvalid row hrow).toOneMinute)
    (List.cons_ne_nil _ _) ?_ (List.mem_singleton_self _) ?_ hresult hexact
  · rw [hclock]
    decide
  · rw [hclock]
    decide

end Exactness

end Resampling
end TradingSystem
