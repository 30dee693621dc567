import TradingSystem.Resampling.Exactness

/-!
# The candles that the engine reads

The engine's model of a read has minutes that are candles already, an exact clock and no calendar,
and keeps of a bar what a strategy and the matcher look at. On rows as the constraints of the table
have them, and with the clock read in time, it gives the bars that the source's function gives.

* `Bar` — what both say of a bar.
* `minutesOf` — the minutes of the rows.
* `Spans` — the prices of a bucket, as they are folded minute by minute.
* `confirmedCandle_of_aggregates` — one bucket.
* `bars_of_readInTime` — the function.
* `feed_bars_of_readInTime` — the read of the feed, with or without a floor.
-/

namespace TradingSystem
namespace Resampling

open Numeric Data Logic Wallet CandleFeed

/-! ### Bars -/

/-- The stream, the span and the prices of a bar. -/
structure Bar where
  symbol : String
  timeframe : Timeframe
  openTime : ℤ
  closeTime : ℤ
  «open» : Binary64
  high : Binary64
  low : Binary64
  close : Binary64

def OhlcvCandle.bar (candle : OhlcvCandle) : Bar where
  symbol := candle.symbol
  timeframe := candle.timeframe
  openTime := candle.openTime
  closeTime := candle.closeTime
  «open» := candle.open
  high := candle.high
  low := candle.low
  close := candle.close

def barOf (candle : Candle) : Bar where
  symbol := candle.symbol
  timeframe := candle.timeframe
  openTime := candle.openTime
  closeTime := candle.closeTime
  «open» := candle.open
  high := candle.high
  low := candle.low
  close := candle.close

/-! ### Minutes -/

/-- A positive amount of a valid row is a positive float. -/
theorem OhlcvRow.Valid.toFloat_pos {row : OhlcvRow} (h : row.Valid) {price : Decimal}
    (hprice : price ∈ [row.open, row.high, row.low, row.close]) :
    Binary64.zero < toFloat price := by
  obtain ⟨hmoney, hpos⟩ := h.prices price hprice
  exact Binary64.lt_def.2 (TradingSystem.toFloat_pos hmoney hpos)

/-- The minute of a row. -/
def minuteOf (symbol : String) (row : OhlcvRow) (h : row.Valid) : Candle where
  symbol := symbol
  timeframe := Timeframe.oneMinute
  openTime := row.time
  closeTime := row.time + Timeframe.oneMinute.duration
  «open» := toFloat row.open
  high := toFloat row.high
  low := toFloat row.low
  close := toFloat row.close
  closeTime_eq := rfl
  open_pos := h.toFloat_pos (by simp)
  low_pos := h.toFloat_pos (by simp)
  close_pos := h.toFloat_pos (by simp)
  open_le_high := toFloat_mono h.open_le_high
  close_le_high := toFloat_mono h.close_le_high
  low_le_open := toFloat_mono h.low_le_open
  low_le_close := toFloat_mono h.low_le_close

/-- The minutes of the rows, in their order. -/
def minutesOf (symbol : String) (rows : List OhlcvRow) (hvalid : ∀ row ∈ rows, row.Valid) :
    MinuteStore :=
  rows.pmap (minuteOf symbol) hvalid

section Minutes

variable {rows : List OhlcvRow} {symbol : String} {timeframe : Timeframe} {start time : ℤ}
  {minute : Candle}

theorem mem_minutesOf (hvalid : ∀ row ∈ rows, row.Valid) :
    minute ∈ minutesOf symbol rows hvalid ↔
      ∃ row, ∃ h : row ∈ rows, minuteOf symbol row (hvalid row h) = minute := List.mem_pmap

/-- A column of the minutes is that of the rows. -/
theorem map_minutesOf {α : Type} (hvalid : ∀ row ∈ rows, row.Valid) {f : Candle → α}
    {g : OhlcvRow → α} (h : ∀ row valid, f (minuteOf symbol row valid) = g row) :
    (minutesOf symbol rows hvalid).map f = rows.map g := by
  unfold minutesOf
  rw [List.map_pmap]
  simp only [h]
  exact List.pmap_eq_map ..

theorem nodup_openTime (symbol : String) (hvalid : ∀ row ∈ rows, row.Valid)
    (hnodup : (rows.map (·.time)).Nodup) :
    ((minutesOf symbol rows hvalid).map (·.openTime)).Nodup := by
  rw [map_minutesOf hvalid fun _ _ => rfl]
  exact hnodup

/-- A stored minute is the one of the row at its instant. -/
theorem minuteAt_minutesOf (hvalid : ∀ row ∈ rows, row.Valid)
    (hnodup : (rows.map (·.time)).Nodup) {row : OhlcvRow} (hrow : row ∈ rows) :
    minuteAt (minutesOf symbol rows hvalid) symbol row.time =
      some (minuteOf symbol row (hvalid row hrow)) := by
  cases hfound : minuteAt (minutesOf symbol rows hvalid) symbol row.time with
  | none =>
    unfold minuteAt at hfound
    rw [List.find?_eq_none] at hfound
    exact absurd (decide_eq_true ⟨rfl, rfl, rfl⟩)
      (hfound _ ((mem_minutesOf hvalid).2 ⟨row, hrow, rfl⟩))
  | some minute =>
    obtain ⟨other, hother, rfl⟩ := (mem_minutesOf hvalid).1 (List.mem_of_find?_eq_some hfound)
    have htest := List.find?_some hfound
    rw [decide_eq_true_eq] at htest
    -- no two rows are at one instant
    obtain rfl := List.inj_on_of_nodup_map hnodup hother hrow htest.2.2
    rfl

/-- The minutes of a bucket are those of its rows, when each of its minutes has one. -/
theorem mapM_minuteAt (hvalid : ∀ row ∈ rows, row.Valid) (hnodup : (rows.map (·.time)).Nodup)
    (bucket : List OhlcvRow) (hbucket : ∀ row ∈ bucket, row ∈ rows) :
    (bucket.map (·.time)).mapM (minuteAt (minutesOf symbol rows hvalid) symbol) =
      some (minutesOf symbol bucket fun row hrow => hvalid row (hbucket row hrow)) := by
  induction bucket with
  | nil => rfl
  | cons row bucket ih =>
    rw [List.map_cons, List.mapM_cons, minuteAt_minutesOf hvalid hnodup
      (hbucket row (List.mem_cons_self ..)), ih fun other hother =>
        hbucket other (List.mem_cons_of_mem _ hother)]
    rfl

/-- Rows on whole minutes leave no minute beside those of a bucket. -/
theorem onMinutes_minutesOf (hvalid : ∀ row ∈ rows, row.Valid)
    (hdvd : timeframe.duration ∣ start) :
    OnMinutes (minutesOf symbol rows hvalid) symbol timeframe start := by
  rintro minute hminute ⟨-, -, hle, hlt⟩
  obtain ⟨row, hrow, rfl⟩ := (mem_minutesOf hvalid).1 hminute
  exact (mem_bucketTimes_iff hdvd).2 ⟨(hvalid row hrow).minute, hle, hlt⟩

end Minutes

/-! ### Folding a bucket -/

/-- The prices of a bucket from its minutes: the first open, the last close, the greatest high and
the least low. -/
structure Spans (minutes : List Candle) (prices : PriceRange) : Prop where
  open_eq : (minutes.map (·.open)).head? = some prices.open
  close_eq : (minutes.map (·.close)).getLast? = some prices.close
  high_mem : prices.high ∈ minutes.map (·.high)
  le_high : ∀ high ∈ minutes.map (·.high), high ≤ prices.high
  low_mem : prices.low ∈ minutes.map (·.low)
  low_le : ∀ low ∈ minutes.map (·.low), prices.low ≤ low

theorem maxOf_eq (x y : Binary64) : PriceRange.maxOf x y = x ∨ PriceRange.maxOf x y = y := by
  unfold PriceRange.maxOf
  split
  · exact Or.inr rfl
  · exact Or.inl rfl

theorem minOf_eq (x y : Binary64) : PriceRange.minOf x y = x ∨ PriceRange.minOf x y = y := by
  unfold PriceRange.minOf
  split
  · exact Or.inl rfl
  · exact Or.inr rfl

theorem spans_singleton (minute : Candle) : Spans [minute] (.ofCandle minute) where
  open_eq := rfl
  close_eq := rfl
  high_mem := List.mem_singleton_self _
  le_high := by
    intro high hhigh
    rw [List.map_singleton, List.mem_singleton] at hhigh
    subst hhigh
    exact le_refl minute.high.val
  low_mem := List.mem_singleton_self _
  low_le := by
    intro low hlow
    rw [List.map_singleton, List.mem_singleton] at hlow
    subst hlow
    exact le_refl minute.low.val

/-- One more minute. -/
theorem Spans.append {minutes : List Candle} {prices : PriceRange} (h : Spans minutes prices)
    (minute : Candle) : Spans (minutes ++ [minute]) (prices.append (.ofCandle minute)) where
  open_eq := by
    rw [List.map_append, List.head?_append, h.open_eq]
    rfl
  close_eq := by
    rw [List.map_append, List.map_singleton, List.getLast?_concat]
    rfl
  high_mem := by
    rw [List.map_append, List.mem_append, List.map_singleton, List.mem_singleton]
    rcases maxOf_eq prices.high minute.high with heq | heq
    · left
      change PriceRange.maxOf prices.high minute.high ∈ _
      rw [heq]
      exact h.high_mem
    · exact Or.inr heq
  le_high := by
    intro high hhigh
    rw [List.map_append, List.mem_append, List.map_singleton, List.mem_singleton] at hhigh
    obtain hhigh | rfl := hhigh
    · exact PriceRange.le_trans' (h.le_high high hhigh) (PriceRange.le_maxOf_left _ _)
    · exact PriceRange.le_maxOf_right _ _
  low_mem := by
    rw [List.map_append, List.mem_append, List.map_singleton, List.mem_singleton]
    rcases minOf_eq prices.low minute.low with heq | heq
    · left
      change PriceRange.minOf prices.low minute.low ∈ _
      rw [heq]
      exact h.low_mem
    · exact Or.inr heq
  low_le := by
    intro low hlow
    rw [List.map_append, List.mem_append, List.map_singleton, List.mem_singleton] at hlow
    obtain hlow | rfl := hlow
    · exact PriceRange.le_trans' (PriceRange.minOf_le_left _ _) (h.low_le low hlow)
    · exact PriceRange.minOf_le_right _ _

/-- The rest of the minutes, one after the other. -/
theorem Spans.foldl {minutes : List Candle} {prices : PriceRange} (h : Spans minutes prices)
    (rest : List Candle) : Spans (minutes ++ rest)
      (rest.foldl (fun prices minute => prices.append (.ofCandle minute)) prices) := by
  induction rest generalizing minutes prices with
  | nil =>
    rw [List.append_nil]
    exact h
  | cons minute rest ih =>
    have hrest := ih (h.append minute)
    rw [List.append_assoc, List.singleton_append] at hrest
    exact hrest

/-- A built candle has the prices of its minutes. -/
theorem exists_spans (symbol : String) (timeframe : Timeframe) (openTime : ℤ)
    {minutes : List Candle} (hne : minutes ≠ []) :
    ∃ prices, Spans minutes prices ∧
      Wallet.buildCandle symbol timeframe openTime minutes =
        some (prices.toCandle symbol timeframe openTime) := by
  cases minutes with
  | nil => exact absurd rfl hne
  | cons first rest => exact ⟨_, (spans_singleton first).foldl rest, rfl⟩

/-! ### One bucket -/

section Bucket

variable {rows bucket : List OhlcvRow} {symbol : String} {timeframe : Timeframe}
  {candle : OhlcvCandle} {prices : PriceRange}

/-- The folded prices are the aggregated ones: rounding to a float keeps the order. -/
theorem prices_eq_of_aggregates (hvalid : ∀ row ∈ bucket, row.Valid)
    (haggregates : Aggregates bucket candle)
    (hspans : Spans (minutesOf symbol bucket hvalid) prices) :
    prices.open = candle.open ∧ prices.high = candle.high ∧ prices.low = candle.low ∧
      prices.close = candle.close := by
  obtain ⟨hopen, hclose, hhigh, hleHigh, hlow, hlowLe⟩ := hspans
  rw [map_minutesOf hvalid fun _ _ => rfl] at hopen hclose hhigh hleHigh hlow hlowLe
  obtain ⟨first, hfirst, hfirstOpen⟩ := haggregates.open_eq
  obtain ⟨last, hlast, hlastClose⟩ := haggregates.close_eq
  obtain ⟨high, ⟨⟨highest, hhighest, rfl⟩, hgreatest⟩, hhighEq⟩ := haggregates.high_eq
  obtain ⟨low, ⟨⟨lowest, hlowest, rfl⟩, hleast⟩, hlowEq⟩ := haggregates.low_eq
  refine ⟨?_, ?_, ?_, ?_⟩
  · rw [List.head?_map, hfirst] at hopen
    rw [hfirstOpen]
    exact (Option.some.inj hopen).symm
  · -- the greatest high has the greatest float
    obtain ⟨row, hrow, heq⟩ := List.mem_map.1 hhigh
    have hupper : toFloat row.high ≤ toFloat highest.high :=
      toFloat_mono (hgreatest ⟨row, hrow, rfl⟩)
    have hlower := hleHigh _ (List.mem_map_of_mem hhighest)
    rw [hhighEq, ← heq] at *
    exact Binary64.ext (le_antisymm (Binary64.le_def.1 hupper) (Binary64.le_def.1 hlower))
  · obtain ⟨row, hrow, heq⟩ := List.mem_map.1 hlow
    have hlower : toFloat lowest.low ≤ toFloat row.low := toFloat_mono (hleast ⟨row, hrow, rfl⟩)
    have hupper := hlowLe _ (List.mem_map_of_mem hlowest)
    rw [hlowEq, ← heq] at *
    exact Binary64.ext (le_antisymm (Binary64.le_def.1 hupper) (Binary64.le_def.1 hlower))
  · rw [List.getLast?_map, hlast] at hclose
    rw [hlastClose]
    exact (Option.some.inj hclose).symm

/-- **One bucket**: where the rows of its minutes aggregate to a candle, the minutes make a bar of
the same span and prices. -/
theorem confirmedCandle_of_aggregates (hvalid : ∀ row ∈ rows, row.Valid)
    (hnodup : (rows.map (·.time)).Nodup) (hdvd : timeframe.duration ∣ candle.openTime)
    (hbucket : ∀ row ∈ bucket, row ∈ rows)
    (htimes : bucket.map (·.time) = bucketTimes timeframe candle.openTime)
    (haggregates : Aggregates bucket candle) (hsymbol : candle.symbol = symbol)
    (htimeframe : candle.timeframe = timeframe)
    (hclose : candle.closeTime = candle.openTime + timeframe.duration) :
    ∃ bar, confirmedCandle (minutesOf symbol rows hvalid) symbol timeframe candle.openTime =
      some bar ∧ barOf bar = candle.bar := by
  have hvalid' : ∀ row ∈ bucket, row.Valid := fun row hrow => hvalid row (hbucket row hrow)
  have hne : minutesOf symbol bucket hvalid' ≠ [] := by
    obtain ⟨first, hfirst, -⟩ := haggregates.open_eq
    have hmem := List.mem_of_mem_head? hfirst
    exact List.ne_nil_of_mem ((mem_minutesOf hvalid').2 ⟨first, hmem, rfl⟩)
  obtain ⟨prices, hspans, hbuilt⟩ := exists_spans symbol timeframe candle.openTime hne
  obtain ⟨hopen, hhigh, hlow, hcloses⟩ := prices_eq_of_aggregates hvalid' haggregates hspans
  refine ⟨prices.toCandle symbol timeframe candle.openTime, ?_, ?_⟩
  · unfold confirmedCandle
    rw [if_pos ⟨Int.emod_eq_zero_of_dvd hdvd, onMinutes_minutesOf hvalid hdvd⟩, ← htimes,
      mapM_minuteAt hvalid hnodup bucket hbucket]
    exact hbuilt
  · change (⟨symbol, timeframe, candle.openTime, candle.openTime + timeframe.duration, prices.open,
      prices.high, prices.low, prices.close⟩ : Bar) = candle.bar
    unfold OhlcvCandle.bar
    rw [hsymbol, htimeframe, hclose, hopen, hhigh, hlow, hcloses]

/-- A confirmed bar has a row for each of its minutes. -/
theorem exists_rows_of_confirmed (hvalid : ∀ row ∈ rows, row.Valid) {start : ℤ} {bar : Candle}
    (h : confirmedCandle (minutesOf symbol rows hvalid) symbol timeframe start = some bar) :
    timeframe.duration ∣ start ∧ ∀ time ∈ bucketTimes timeframe start,
      ∃ row ∈ rows, row.time = time := by
  refine ⟨Int.dvd_of_emod_eq_zero (exists_row_of_confirmed h).1, fun time htime => ?_⟩
  unfold confirmedCandle at h
  split at h
  · cases hfound : minuteAt (minutesOf symbol rows hvalid) symbol time with
    | none =>
      rw [mapM_eq_none htime hfound] at h
      cases h
    | some minute =>
      obtain ⟨row, hrow, rfl⟩ := (mem_minutesOf hvalid).1 (List.mem_of_find?_eq_some hfound)
      have htest := List.find?_some hfound
      rw [decide_eq_true_eq] at htest
      exact ⟨row, hrow, htest.2.2⟩
  · cases h

end Bucket

/-! ### The whole read -/

section Reads

variable {rows : List OhlcvRow} {symbol exchange : String} {timeframe : Timeframe} {boundary : ℤ}
  {result : ResampledCandles}

/-- A read of minutes at different instants returns. -/
theorem exists_resample (symbol : String) (timeframe : Timeframe) (boundary : ℤ)
    {minutes : MinuteStore} (h : (minutes.map (·.openTime)).Nodup) :
    ∃ bars, CandleFeed.resample minutes symbol timeframe boundary = .ok bars := by
  unfold CandleFeed.resample
  simp only [Except.bind_eq_ok, require_eq_ok]
  cases (minutes.map fun row => CandleFeed.bucketStart row.openTime timeframe.duration).min? with
  | none => exact ⟨[], ⟨⟩, h, rfl⟩
  | some first => exact ⟨_, ⟨⟩, h, rfl⟩

/-- Exact candles have the bars of the engine's read. -/
theorem bars_eq_of_exact (hvalid : ∀ row ∈ rows, row.Valid) (hnodup : (rows.map (·.time)).Nodup)
    (hexact : Exact rows symbol exchange timeframe boundary result) {bars : List Candle}
    (hbars : CandleFeed.resample (minutesOf symbol rows hvalid) symbol timeframe boundary =
      .ok bars) :
    bars.map barOf = result.candles.map OhlcvCandle.bar := by
  have hirrefl : Std.Irrefl fun left right : Bar => left.openTime < right.openTime :=
    ⟨fun bar => lt_irrefl bar.openTime⟩
  -- each emitted candle is confirmed, with the same bar
  have hconfirmed : ∀ candle ∈ result.candles, candle.closeTime ≤ boundary ∧
      ∃ bar, confirmedCandle (minutesOf symbol rows hvalid) symbol timeframe candle.openTime =
        some bar ∧ barOf bar = candle.bar := by
    intro candle hcandle
    obtain ⟨⟨hdvd, hclosed⟩, -⟩ := (hexact.exists_iff candle.openTime).1 ⟨candle, hcandle, rfl⟩
    obtain ⟨hsymbol, -, htimeframe, hclose, bucket, hbucket, htimes, haggregates⟩ :=
      hexact.aggregated candle hcandle
    rw [hclose]
    exact ⟨hclosed, confirmedCandle_of_aggregates hvalid hnodup hdvd hbucket htimes haggregates
      hsymbol htimeframe hclose⟩
  have hread : (bars.map barOf).Pairwise fun left right => left.openTime < right.openTime :=
    List.pairwise_map.2 (resample_ordered hbars)
  have hemitted : (result.candles.map OhlcvCandle.bar).Pairwise
      fun left right => left.openTime < right.openTime := List.pairwise_map.2 hexact.ordered
  refine hread.eq_of_mem_iff hemitted fun bar => ?_
  rw [List.mem_map, List.mem_map]
  constructor
  · rintro ⟨candle, hcandle, rfl⟩
    -- a confirmed bar is in a closed bucket, whose candle has the same bar
    obtain ⟨hbar, hclose⟩ := (mem_resample hbars).1 hcandle
    obtain ⟨hdvd, hrows⟩ := exists_rows_of_confirmed hvalid hbar
    have hspan := (confirmedCandle_eq_some hbar).2.2.2
    obtain ⟨emitted, hemitted, hopen⟩ := (hexact.exists_iff candle.openTime).2
      ⟨⟨hdvd, hspan ▸ hclose⟩, hrows⟩
    obtain ⟨-, bar, hother, heq⟩ := hconfirmed emitted hemitted
    rw [hopen, hbar] at hother
    cases hother
    exact ⟨emitted, hemitted, heq.symm⟩
  · rintro ⟨candle, hcandle, rfl⟩
    obtain ⟨hclose, bar, hbar, heq⟩ := hconfirmed candle hcandle
    obtain ⟨-, -, hopen, -⟩ := confirmedCandle_eq_some hbar
    refine ⟨bar, (mem_resample hbars).2 ⟨hopen.symm ▸ hbar, ?_⟩, heq⟩
    have hcloses := congrArg Bar.closeTime heq
    exact hcloses.le.trans hclose

/-- **The engine reads what the source resamples.** On valid rows and with the clock read in time
both functions return, and their candles have the same bars in the same order. -/
theorem bars_of_readInTime (symbol exchange : String) (hvalid : ∀ row ∈ rows, row.Valid)
    (hnodup : (rows.map (·.time)).Nodup) (hboundary : InCalendar boundary)
    (h : ReadInTime rows timeframe boundary) :
    ∃ result bars, resampleConfirmedOhlcv rows symbol exchange timeframe boundary = .ok result ∧
      CandleFeed.resample (minutesOf symbol rows hvalid) symbol timeframe boundary = .ok bars ∧
      bars.map barOf = result.candles.map OhlcvCandle.bar := by
  obtain ⟨bars, hbars⟩ :=
    exists_resample symbol timeframe boundary (nodup_openTime symbol hvalid hnodup)
  by_cases hne : rows = []
  · subst hne
    cases hbars
    exact ⟨_, _, resample_nil, rfl, rfl⟩
  · obtain ⟨result, hresult, hexact⟩ :=
      exact_of_readInTime symbol exchange hvalid hnodup hboundary hne h
    exact ⟨result, bars, hresult, hbars, bars_eq_of_exact hvalid hnodup hexact hbars⟩

end Reads

/-! ### The feed -/

section Feed

variable {table : Table} {rows : List OhlcvRow} {floor : Option ℤ} {symbol exchange : String}
  {timeframe : Timeframe} {upTo : ℤ}

/-- The rows between the floor of a read and its end. -/
def readRows (rows : List OhlcvRow) (floor : Option ℤ) (upTo : ℤ) : List OhlcvRow :=
  rows.filter fun row => (∀ bound ∈ floor, bound ≤ row.time) ∧ row.time < upTo

theorem mem_of_mem_readRows {row : OhlcvRow} (h : row ∈ readRows rows floor upTo) : row ∈ rows :=
  List.mem_of_mem_filter h

/-- Minutes are picked by their rows. -/
theorem filter_minutesOf {p : Candle → Bool} {q : OhlcvRow → Bool}
    (h : ∀ row valid, p (minuteOf symbol row valid) = q row) (hvalid : ∀ row ∈ rows, row.Valid)
    (hkept : ∀ row ∈ rows.filter q, row.Valid) :
    (minutesOf symbol rows hvalid).filter p = minutesOf symbol (rows.filter q) hkept := by
  unfold minutesOf
  induction rows with
  | nil => rfl
  | cons row rows ih =>
    have hrest : ∀ other ∈ rows, other.Valid := fun other hother =>
      hvalid other (List.mem_cons_of_mem _ hother)
    revert hkept
    cases hrow : q row with
    | true =>
      rw [List.filter_cons_of_pos hrow]
      intro hkept
      rw [List.pmap_cons, List.pmap_cons, List.filter_cons_of_pos (by rw [h, hrow]),
        ih hrest fun other hother => hkept other (List.mem_cons_of_mem _ hother)]
    | false =>
      rw [List.filter_cons_of_neg (by rw [hrow]; exact Bool.false_ne_true)]
      intro hkept
      rw [List.pmap_cons, List.filter_cons_of_neg (by rw [h, hrow]; exact Bool.false_ne_true),
        ih hrest hkept]

/-- The minutes between the floor and the end are those of the rows read. -/
theorem sourceRows_minutesOf (hvalid : ∀ row ∈ rows, row.Valid) :
    sourceRows (minutesOf symbol rows hvalid) floor symbol upTo =
      minutesOf symbol (readRows rows floor upTo)
        fun row hrow => hvalid row (mem_of_mem_readRows hrow) := by
  refine filter_minutesOf (fun row valid => ?_) hvalid _
  simp [minuteOf]

/-- Either query of the feed has the rows between its floor and its end, in order of time. -/
theorem backtestFeed_eq :
    BacktestFeed.candles table floor symbol exchange timeframe upTo =
      if Table.orderByTime (readRows (table symbol exchange) floor upTo) = [] then .ok []
      else resampleConfirmedOhlcv (Table.orderByTime (readRows (table symbol exchange) floor upTo))
        symbol exchange timeframe upTo >>= fun result => .ok result.candles := by
  unfold BacktestFeed.candles
  dsimp only
  cases floor with
  | none =>
    have hrows : table.candlesSql symbol exchange upTo =
        Table.orderByTime (readRows (table symbol exchange) none upTo) := by
      simp [Table.candlesSql, readRows]
    rw [← hrows]
    rfl
  | some bound =>
    have hrows : table.candlesSinceSql symbol exchange bound upTo =
        Table.orderByTime (readRows (table symbol exchange) (some bound) upTo) := by
      simp [Table.candlesSinceSql, readRows]
    rw [← hrows]
    rfl

/-- The feed resamples them in order of time. -/
theorem candles_eq_ok {result : ResampledCandles}
    (h : resampleConfirmedOhlcv (readRows (table symbol exchange) floor upTo) symbol exchange
      timeframe upTo = .ok result) :
    BacktestFeed.candles table floor symbol exchange timeframe upTo = .ok result.candles := by
  have hperm : (Table.orderByTime (readRows (table symbol exchange) floor upTo)).Perm
      (readRows (table symbol exchange) floor upTo) := List.perm_insertionSort _ _
  rw [backtestFeed_eq]
  split
  · -- without rows the feed does not resample
    next hnil =>
    rw [hnil] at hperm
    rw [hperm.symm.eq_nil, resample_nil] at h
    cases h
    rfl
  · next hne =>
    have hne' : readRows (table symbol exchange) floor upTo ≠ [] := fun hnil =>
      hne (List.Perm.eq_nil (hnil ▸ hperm))
    rw [resample_perm hne' hperm h]
    rfl

/-- **The engine's read is the feed's**, with or without a floor: on a table of valid rows, and with
the clock read in time, the bars are the same and in the same order. -/
theorem feed_bars_of_readInTime (hvalid : ∀ row ∈ table symbol exchange, row.Valid)
    (hnodup : ((table symbol exchange).map (·.time)).Nodup) (hupTo : InCalendar upTo)
    (h : ReadInTime (readRows (table symbol exchange) floor upTo) timeframe upTo) :
    ∃ candles bars, BacktestFeed.candles table floor symbol exchange timeframe upTo =
        .ok candles ∧
      CandleFeed.candles (minutesOf symbol (table symbol exchange) hvalid) floor symbol timeframe
        upTo = .ok bars ∧
      bars.map barOf = candles.map OhlcvCandle.bar := by
  have hread : ((readRows (table symbol exchange) floor upTo).map (·.time)).Nodup :=
    hnodup.sublist (List.filter_sublist.map _)
  obtain ⟨result, bars, hresult, hbars, heq⟩ := bars_of_readInTime symbol exchange
    (fun row hrow => hvalid row (mem_of_mem_readRows hrow)) hread hupTo h
  refine ⟨result.candles, bars, candles_eq_ok hresult, ?_, heq⟩
  unfold CandleFeed.candles
  rw [sourceRows_minutesOf hvalid]
  exact hbars

end Feed

end Resampling
end TradingSystem
