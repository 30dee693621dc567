import TradingSystem.Resampling.Resample

/-!
# Reads from a floor on

The feed of a backtest bounds its reads below by a history floor, and the feed of the live
service reads only what follows its cursor. Both cut the stored minutes anywhere, also inside
a bucket.

* `BacktestFeed.candles`, `LiveFeed.candlesAfter` — the two reads.
* `OneMinute` — a stored row opens on a whole minute.
* `resample_since` — resampling from a floor on keeps the candles from there on.
* `Table.suffix_of_full_read` — so does either feed.
-/

namespace TradingSystem
namespace Resampling

open Numeric Logic Wallet CandleFeed

/-- The stored rows of one minute, by symbol and exchange. -/
abbrev Table := String → String → List OhlcvRow

namespace Table

/-- `ORDER BY time`. -/
def orderByTime (rows : List OhlcvRow) : List OhlcvRow :=
  rows.insertionSort fun left right => left.time ≤ right.time

/-- `_CANDLES_SQL` of either feed. -/
def candlesSql (table : Table) (symbol exchange : String) (boundary : ℤ) : List OhlcvRow :=
  orderByTime ((table symbol exchange).filter fun row => row.time < boundary)

/-- `_CANDLES_SINCE_SQL` of the backtest feed and `_CANDLES_AFTER_SQL` of the live one. -/
def candlesSinceSql (table : Table) (symbol exchange : String) (floor boundary : ℤ) :
    List OhlcvRow :=
  orderByTime ((table symbol exchange).filter fun row =>
    floor ≤ row.time ∧ row.time < boundary)

end Table

/-- `candles` of the backtest feed under its history floor. Its caches only keep what an
earlier read of the same boundary and floor returned. -/
def BacktestFeed.candles (table : Table) (historyFloor : Option ℤ) (symbol exchange : String)
    (timeframe : Timeframe) (upTo : ℤ) : Except Fault (List OhlcvCandle) := do
  let rows :=
    match historyFloor with
    | none => table.candlesSql symbol exchange upTo
    | some floor => table.candlesSinceSql symbol exchange floor upTo
  if rows = [] then return []
  let resampling ← resampleConfirmedOhlcv rows symbol exchange timeframe upTo
  return resampling.candles

/-- `candles` of the live feed. -/
def LiveFeed.candles (table : Table) (symbol exchange : String) (timeframe : Timeframe)
    (upTo : ℤ) : Except Fault (List OhlcvCandle) := do
  let rows := table.candlesSql symbol exchange upTo
  let result ← resampleConfirmedOhlcv rows symbol exchange timeframe upTo
  return result.candles

/-- `candles_after` of the live feed. -/
def LiveFeed.candlesAfter (table : Table) (symbol exchange : String) (timeframe : Timeframe)
    (after upTo : ℤ) : Except Fault (List OhlcvCandle) := do
  if upTo ≤ after then return []
  let rows := table.candlesSinceSql symbol exchange after upTo
  let result ← resampleConfirmedOhlcv rows symbol exchange timeframe upTo
  return result.candles.filter fun candle => after ≤ candle.openTime

/-- A row of one minute opens on a whole minute of the calendar. -/
structure OneMinute (row : OhlcvRow) : Prop where
  minute : Instant.minute ∣ row.time
  calendar : InCalendar row.time

theorem OneMinute.computedStart_eq {row : OhlcvRow} (h : OneMinute row) (timeframe : Timeframe) :
    computedStart row.time timeframe.duration =
      CandleFeed.bucketStart row.time timeframe.duration := by
  obtain ⟨seconds, hseconds⟩ := exists_wholeSecond h.minute h.calendar
  exact Resampling.computedStart_eq hseconds timeframe

/-- A bucket starts no later than its rows. -/
theorem OneMinute.computedStart_le {row : OhlcvRow} (h : OneMinute row) (timeframe : Timeframe) :
    computedStart row.time timeframe.duration ≤ row.time := by
  rw [h.computedStart_eq]
  exact bucketStart_le timeframe.duration_pos

/-- A minute at a price of one. -/
def oneDollarMinute (time : ℤ) : OhlcvRow := ⟨time, 1, 1, 1, 1, some 2, some 2, some 3⟩

/-- The timeframe of two minutes. -/
def twoMinutes : Timeframe := ⟨2, .minutes, Nat.zero_lt_two⟩

/-! ### A cut of the rows -/

section Cut

variable {rows since : List OhlcvRow} {symbol exchange : String} {timeframe : Timeframe}
  {floor boundary start first first' : ℤ} {all : ResampledCandles} {candle : OhlcvCandle}

/-- `since` has the rows from the floor on. -/
abbrev IsCut (rows since : List OhlcvRow) (floor : ℤ) : Prop :=
  since.Perm (rows.filter fun row => floor ≤ row.time)

theorem IsCut.mem_iff (h : IsCut rows since floor) {row : OhlcvRow} :
    row ∈ since ↔ row ∈ rows ∧ floor ≤ row.time := by
  rw [List.Perm.mem_iff h, List.mem_filter, decide_eq_true_eq]

theorem IsCut.nodup (h : IsCut rows since floor) (hrows : (rows.map (·.time)).Nodup) :
    (since.map (·.time)).Nodup := by
  rw [(List.Perm.map _ h).nodup_iff]
  exact hrows.sublist (List.filter_sublist.map _)

/-- **From the floor on** the buckets are as before. -/
theorem emission_since_of_le (hcut : IsCut rows since floor)
    (hminute : ∀ row ∈ rows, OneMinute row) (hnodup : (rows.map (·.time)).Nodup)
    (hle : floor ≤ start) :
    emission (since.map (entryOf timeframe.duration)) symbol exchange timeframe start =
      emission (rows.map (entryOf timeframe.duration)) symbol exchange timeframe start := by
  apply emission_congr (nodup_bucketOf (hcut.nodup hnodup)) (nodup_bucketOf hnodup)
  intro row
  rw [mem_bucketOf, mem_bucketOf, hcut.mem_iff]
  constructor
  · rintro ⟨⟨hrow, -⟩, hstart⟩
    exact ⟨hrow, hstart⟩
  · -- a row is not before its bucket, and that not before the floor
    rintro ⟨hrow, hstart⟩
    have hrowStart := (hminute row hrow).computedStart_le timeframe
    exact ⟨⟨hrow, by omega⟩, hstart⟩

/-- **Before the floor** every bucket lacks its first minute, also the one the floor cuts. -/
theorem emission_since_of_lt (hcut : IsCut rows since floor) (hlt : start < floor)
    {outcome : Option OhlcvCandle}
    (h : emission (rows.map (entryOf timeframe.duration)) symbol exchange timeframe start =
      .ok outcome) :
    emission (since.map (entryOf timeframe.duration)) symbol exchange timeframe start =
      .ok none := by
  obtain ⟨htimes, hnext, -⟩ := emission_eq_ok.1 h
  refine emission_eq_ok.2 ⟨htimes, hnext, .inr ⟨?_, rfl⟩⟩
  intro hcomplete
  obtain ⟨row, hrow, htime, -⟩ := exists_row_of_complete hcomplete
  have hfloor := (hcut.mem_iff.1 hrow).2
  omega

/-- The first bucket of the cut is not before the first of all rows. -/
theorem first_le_of_cut (hcut : IsCut rows since floor)
    (hfirst : IsFirstBucket rows timeframe first)
    (hfirst' : IsFirstBucket since timeframe first') : first ≤ first' := by
  obtain ⟨row, hrow, hstart⟩ := hfirst'.1
  exact hfirst.2 ⟨row, (hcut.mem_iff.1 hrow).1, hstart⟩

/-- A candle has a row where it opens. -/
theorem exists_row_of_emitted
    (h : emitted (rows.map (entryOf timeframe.duration)) symbol exchange timeframe start =
      some candle) :
    ∃ row ∈ rows, row.time = start ∧ computedStart row.time timeframe.duration = start :=
  exists_row_of_complete (complete_of_emitted h).1

/-- **Resampling from a floor on** gives the candles from there on. -/
theorem resample_since (hcut : IsCut rows since floor) (hminute : ∀ row ∈ rows, OneMinute row)
    (hall : resampleConfirmedOhlcv rows symbol exchange timeframe boundary = .ok all) :
    ∃ result, resampleConfirmedOhlcv since symbol exchange timeframe boundary = .ok result ∧
      result.candles = all.candles.filter fun candle => floor ≤ candle.openTime := by
  have hirrefl : Std.Irrefl fun left right : OhlcvCandle => left.openTime < right.openTime :=
    ⟨fun candle => lt_irrefl candle.openTime⟩
  by_cases hrows : rows = []
  · subst hrows
    have hsince : since = [] := List.Perm.eq_nil hcut
    rw [resample_nil] at hall
    cases hall
    exact ⟨⟨[], 0⟩, by rw [hsince, resample_nil], rfl⟩
  obtain ⟨hgroup, hnodup, hopened, hlatest, first, hfirst, hstarts, rfl⟩ :=
    (resample_eq_ok hrows).1 hall
  by_cases hsince : since = []
  · -- no row from the floor on, so no candle from there on
    refine ⟨⟨[], 0⟩, by rw [hsince, resample_nil], ?_⟩
    symm
    rw [List.filter_eq_nil_iff]
    intro candle hcandle
    obtain ⟨start, -, hemitted⟩ := List.mem_filterMap.1 hcandle
    obtain ⟨row, hrow, htime, -⟩ := exists_row_of_emitted hemitted
    rw [(complete_of_emitted hemitted).2, decide_eq_true_eq]
    intro hfloor
    have hmem := hcut.mem_iff.2 ⟨hrow, by omega⟩
    rw [hsince] at hmem
    cases hmem
  obtain ⟨first', hfirst'⟩ := exists_isFirstBucket timeframe hsince
  have hfirstLe := first_le_of_cut hcut hfirst hfirst'
  have hsub : ∀ start ∈ buckets first' (latestStart timeframe boundary) timeframe.duration,
      start ∈ buckets first (latestStart timeframe boundary) timeframe.duration := by
    intro start hstart
    rw [mem_buckets_latest hfirst'] at hstart
    exact (mem_buckets_latest hfirst).2 ⟨hstart.1, by omega, hstart.2.2⟩
  refine ⟨_, (resample_eq_ok hsince).2 ⟨fun row hrow => hgroup row (hcut.mem_iff.1 hrow).1,
    hcut.nodup hnodup, hopened, hlatest, first', hfirst', ?_, rfl⟩, ?_⟩
  · intro start hstart
    obtain ⟨outcome, houtcome⟩ := hstarts start (hsub start hstart)
    -- the bucket that the floor cuts is passed too, and gives nothing
    by_cases hle : floor ≤ start
    · rw [emission_since_of_le hcut hminute hnodup hle]
      exact ⟨outcome, houtcome⟩
    · exact ⟨none, emission_since_of_lt hcut (not_le.1 hle) houtcome⟩
  · -- both sides are in order, so they are compared as sets
    apply (emitted_ordered _ symbol exchange timeframe first' _).eq_of_mem_iff
      ((emitted_ordered _ symbol exchange timeframe first _).filter _)
    intro candle
    simp only [List.mem_filter, List.mem_filterMap, decide_eq_true_eq]
    constructor
    · rintro ⟨start, hstart, hemitted⟩
      -- a candle of the cut has its first minute from the floor on
      obtain ⟨row, hrow, htime, -⟩ := exists_row_of_emitted hemitted
      have hle : floor ≤ start := by
        rw [← htime]
        exact (hcut.mem_iff.1 hrow).2
      refine ⟨⟨start, hsub start hstart, ?_⟩, by rwa [(complete_of_emitted hemitted).2]⟩
      unfold emitted at hemitted ⊢
      rwa [emission_since_of_le hcut hminute hnodup hle] at hemitted
    · -- and the row where it opens brings the bucket into the cut's loop
      rintro ⟨⟨start, hstart, hemitted⟩, hfloor⟩
      rw [(complete_of_emitted hemitted).2] at hfloor
      obtain ⟨row, hrow, htime, hrowStart⟩ := exists_row_of_emitted hemitted
      have hmem := hcut.mem_iff.2 ⟨hrow, htime ▸ hfloor⟩
      rw [mem_buckets_latest hfirst] at hstart
      refine ⟨start, (mem_buckets_latest hfirst').2
        ⟨hstart.1, hfirst'.2 ⟨row, hmem, hrowStart⟩, hstart.2.2⟩, ?_⟩
      unfold emitted at hemitted ⊢
      rwa [emission_since_of_le hcut hminute hnodup hfloor]

end Cut

/-! ### The feeds -/

namespace Table

variable {table : Table} {symbol exchange : String} {timeframe : Timeframe} {floor upTo : ℤ}
  {all : List OhlcvCandle}

/-- The bounded query cuts the rows of the other. -/
theorem isCut_candlesSinceSql :
    IsCut (table.candlesSql symbol exchange upTo)
      (table.candlesSinceSql symbol exchange floor upTo) floor := by
  refine (List.perm_insertionSort _ _).trans ?_
  refine List.Perm.trans (List.Perm.of_eq ?_) ((List.perm_insertionSort _ _).symm.filter _)
  rw [List.filter_filter]
  simp only [Bool.decide_and]

theorem mem_candlesSql {row : OhlcvRow} :
    row ∈ table.candlesSql symbol exchange upTo ↔
      row ∈ table symbol exchange ∧ row.time < upTo := by
  unfold candlesSql orderByTime
  rw [List.mem_insertionSort, List.mem_filter, decide_eq_true_eq]

/-- Without a floor the feeds read the same. -/
theorem backtestFeed_none :
    BacktestFeed.candles table none symbol exchange timeframe upTo =
      LiveFeed.candles table symbol exchange timeframe upTo := by
  unfold BacktestFeed.candles LiveFeed.candles
  dsimp only
  split
  · next hnil =>
    rw [hnil, resample_nil]
    rfl
  · rfl

theorem liveFeed_eq_ok :
    LiveFeed.candles table symbol exchange timeframe upTo = .ok all ↔
      ∃ result, resampleConfirmedOhlcv (table.candlesSql symbol exchange upTo) symbol exchange
        timeframe upTo = .ok result ∧ all = result.candles := by
  unfold LiveFeed.candles
  dsimp only
  rw [Except.bind_eq_ok]
  refine exists_congr fun result => and_congr_right fun _ => ?_
  constructor
  · intro h
    exact (Except.ok.inj h).symm
  · rintro rfl
    rfl

/-- **The history floor** keeps the candles from the floor on. -/
theorem backtestFeed_some (hminute : ∀ row ∈ table symbol exchange, OneMinute row)
    (hall : LiveFeed.candles table symbol exchange timeframe upTo = .ok all) :
    BacktestFeed.candles table (some floor) symbol exchange timeframe upTo =
      .ok (all.filter fun candle => floor ≤ candle.openTime) := by
  obtain ⟨full, hfull, rfl⟩ := liveFeed_eq_ok.1 hall
  have hcut : IsCut (table.candlesSql symbol exchange upTo)
      (table.candlesSinceSql symbol exchange floor upTo) floor := isCut_candlesSinceSql
  obtain ⟨result, hresult, hcandles⟩ := resample_since hcut
    (fun row hrow => hminute row (mem_candlesSql.1 hrow).1) hfull
  unfold BacktestFeed.candles
  dsimp only
  split
  · -- without rows the feed does not resample
    next hnil =>
    rw [hnil, resample_nil] at hresult
    cases hresult
    rw [← hcandles]
    rfl
  · rw [hresult, ← hcandles]
    rfl

/-- **The cursor** keeps the candles from the cursor on. Nothing opens at or after the
boundary. -/
theorem liveFeed_after (hminute : ∀ row ∈ table symbol exchange, OneMinute row)
    (hall : LiveFeed.candles table symbol exchange timeframe upTo = .ok all) :
    LiveFeed.candlesAfter table symbol exchange timeframe floor upTo =
      .ok (all.filter fun candle => floor ≤ candle.openTime) := by
  obtain ⟨full, hfull, rfl⟩ := liveFeed_eq_ok.1 hall
  have hcut : IsCut (table.candlesSql symbol exchange upTo)
      (table.candlesSinceSql symbol exchange floor upTo) floor := isCut_candlesSinceSql
  -- resampling from the floor drops the buckets before it and nothing else
  obtain ⟨result, hresult, hcandles⟩ := resample_since hcut
    (fun row hrow => hminute row (mem_candlesSql.1 hrow).1) hfull
  unfold LiveFeed.candlesAfter
  by_cases hle : upTo ≤ floor
  · -- every row is before the cursor
    rw [if_pos hle, ← hcandles]
    have hnil : table.candlesSinceSql symbol exchange floor upTo = [] := by
      rw [List.eq_nil_iff_forall_not_mem]
      intro row hrow
      obtain ⟨hmem, hfloor⟩ := hcut.mem_iff.1 hrow
      have hbefore := (mem_candlesSql.1 hmem).2
      omega
    rw [hnil, resample_nil] at hresult
    cases hresult
    rfl
  · rw [if_neg hle]
    dsimp only
    rw [hresult]
    show Except.ok (result.candles.filter _) = _
    rw [hcandles, List.filter_filter]
    simp only [Bool.and_self]

/-- **A floored or incremental read is a suffix of the full one.** Whatever the floor or the
cursor, when the full read returns so do the bounded ones, with the same candles from there
on. -/
theorem suffix_of_full_read (hminute : ∀ row ∈ table symbol exchange, OneMinute row)
    (hall : LiveFeed.candles table symbol exchange timeframe upTo = .ok all) :
    BacktestFeed.candles table none symbol exchange timeframe upTo = .ok all ∧
      (∃ since,
        BacktestFeed.candles table (some floor) symbol exchange timeframe upTo = .ok since ∧
        (since.filter fun candle => floor ≤ candle.openTime) =
          all.filter fun candle => floor ≤ candle.openTime) ∧
      ∃ after,
        LiveFeed.candlesAfter table symbol exchange timeframe floor upTo = .ok after ∧
        (after.filter fun candle => floor ≤ candle.openTime) =
          all.filter fun candle => floor ≤ candle.openTime := by
  have hidem : ((all.filter fun candle => floor ≤ candle.openTime).filter fun candle =>
      floor ≤ candle.openTime) = all.filter fun candle => floor ≤ candle.openTime := by
    rw [List.filter_filter]
    simp only [Bool.and_self]
  exact ⟨backtestFeed_none.trans hall, ⟨_, backtestFeed_some hminute hall, hidem⟩,
    _, liveFeed_after hminute hall, hidem⟩

/-- Four minutes of which the second is missing. -/
def holed : Table := fun _ _ =>
  [0, 2 * Instant.minute, 3 * Instant.minute].map oneDollarMinute

/-- With a hole and a floor inside the first bucket, one candle is read. -/
theorem suffix_of_holed :
    ∃ all, LiveFeed.candles holed "BTCUSDT" "binance" twoMinutes (4 * Instant.minute) =
        .ok all ∧ all.length = 1 ∧
      ∃ after, LiveFeed.candlesAfter holed "BTCUSDT" "binance" twoMinutes Instant.minute
          (4 * Instant.minute) = .ok after ∧
        (after.filter fun candle => Instant.minute ≤ candle.openTime) =
          all.filter fun candle => Instant.minute ≤ candle.openTime := by
  have hread : returnsWith (LiveFeed.candles holed "BTCUSDT" "binance" twoMinutes
      (4 * Instant.minute)) (fun all => all.length = 1) = true := by decide +kernel
  obtain ⟨all, hall, hlength⟩ := exists_of_returnsWith hread
  have hminute : ∀ row ∈ holed "BTCUSDT" "binance", OneMinute row := by
    intro row hrow
    obtain ⟨time, htime, rfl⟩ := List.mem_map.1 hrow
    have htimes : ∀ time ∈ [0, 2 * Instant.minute, 3 * Instant.minute],
        Instant.minute ∣ time ∧ InCalendar time := by decide
    exact ⟨(htimes time htime).1, (htimes time htime).2⟩
  exact ⟨all, hall, of_decide_eq_true hlength, (suffix_of_full_read hminute hall).2.2⟩

end Table

end Resampling
end TradingSystem
