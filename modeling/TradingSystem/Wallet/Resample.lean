import TradingSystem.Types.Candle

/-!
# Resampled candles

A candle of a longer timeframe is built from the candles of one minute it spans, and only
when every one of them is there. A missing minute leaves a gap; nothing is synthesized.
`Resampling.CandleReads` shows that these are the bars of the function in the source.

* `PriceRange` — the prices of a bar, with the facts a candle's constructor checks.
* `confirmedCandle` — the candle of one bucket, if its minutes are complete.
-/

namespace TradingSystem
namespace Wallet

open Numeric

/-- The prices of a bar. Its extremes enclose its open and its close. -/
structure PriceRange where
  «open» : Binary64
  high : Binary64
  low : Binary64
  close : Binary64
  open_pos : Binary64.zero < «open»
  low_pos : Binary64.zero < low
  close_pos : Binary64.zero < close
  open_le_high : «open» ≤ high
  close_le_high : close ≤ high
  low_le_open : low ≤ «open»
  low_le_close : low ≤ close

namespace PriceRange

/-- The prices of a candle. -/
def ofCandle (candle : Candle) : PriceRange where
  «open» := candle.open
  high := candle.high
  low := candle.low
  close := candle.close
  open_pos := candle.open_pos
  low_pos := candle.low_pos
  close_pos := candle.close_pos
  open_le_high := candle.open_le_high
  close_le_high := candle.close_le_high
  low_le_open := candle.low_le_open
  low_le_close := candle.low_le_close

theorem le_trans' {x y z : Binary64} (h : x ≤ y) (h' : y ≤ z) : x ≤ z :=
  Binary64.le_def.2 ((Binary64.le_def.1 h).trans (Binary64.le_def.1 h'))

/-- The larger of two floats. -/
def maxOf (x y : Binary64) : Binary64 := if x ≤ y then y else x

/-- The smaller of two floats. -/
def minOf (x y : Binary64) : Binary64 := if x ≤ y then x else y

theorem le_maxOf_left (x y : Binary64) : x ≤ maxOf x y := by
  unfold maxOf
  split
  · next h => exact h
  · exact le_refl x.val

theorem le_maxOf_right (x y : Binary64) : y ≤ maxOf x y := by
  unfold maxOf
  split
  · exact le_refl y.val
  · next h => exact (not_le.1 (mt Binary64.le_def.2 h)).le

theorem minOf_le_left (x y : Binary64) : minOf x y ≤ x := by
  unfold minOf
  split
  · exact le_refl x.val
  · next h => exact (not_le.1 (mt Binary64.le_def.2 h)).le

theorem minOf_le_right (x y : Binary64) : minOf x y ≤ y := by
  unfold minOf
  split
  · next h => exact h
  · exact le_refl y.val

theorem minOf_pos {x y : Binary64} (hx : Binary64.zero < x) (hy : Binary64.zero < y) :
    Binary64.zero < minOf x y := by
  unfold minOf
  split
  · exact hx
  · exact hy

/-- Two bars, one after the other. -/
def append (first second : PriceRange) : PriceRange where
  «open» := first.open
  high := maxOf first.high second.high
  low := minOf first.low second.low
  close := second.close
  open_pos := first.open_pos
  low_pos := minOf_pos first.low_pos second.low_pos
  close_pos := second.close_pos
  open_le_high := le_trans' first.open_le_high (le_maxOf_left _ _)
  close_le_high := le_trans' second.close_le_high (le_maxOf_right _ _)
  low_le_open := le_trans' (minOf_le_left _ _) first.low_le_open
  low_le_close := le_trans' (minOf_le_right _ _) second.low_le_close

/-- A candle closes one duration after it opens. -/
theorem spans (timeframe : Timeframe) (openTime : ℤ) :
    openTime + timeframe.duration = openTime + timeframe.duration := rfl

/-- The candle of a symbol and timeframe with these prices. -/
def toCandle (prices : PriceRange) (symbol : String) (timeframe : Timeframe) (openTime : ℤ) :
    Candle where
  symbol := symbol
  timeframe := timeframe
  openTime := openTime
  closeTime := openTime + timeframe.duration
  «open» := prices.open
  high := prices.high
  low := prices.low
  close := prices.close
  closeTime_eq := spans timeframe openTime
  open_pos := prices.open_pos
  low_pos := prices.low_pos
  close_pos := prices.close_pos
  open_le_high := prices.open_le_high
  close_le_high := prices.close_le_high
  low_le_open := prices.low_le_open
  low_le_close := prices.low_le_close

end PriceRange

/-- The candles of one minute that are stored, in any order. -/
abbrev MinuteStore := List Candle

/-- The stored minute of a symbol that opens at an instant. -/
def minuteAt (minutes : MinuteStore) (symbol : String) (time : ℤ) : Option Candle :=
  minutes.find? fun minute =>
    minute.symbol = symbol ∧ minute.timeframe = Timeframe.oneMinute ∧ minute.openTime = time

/-- The minutes a bucket of a timeframe must hold. -/
def bucketTimes (timeframe : Timeframe) (openTime : ℤ) : List ℤ :=
  (List.range (timeframe.duration / Instant.minute).toNat).map fun k =>
    openTime + k * Instant.minute

/-- `_build_candle`: the candle of a complete bucket. -/
def buildCandle (symbol : String) (timeframe : Timeframe) (openTime : ℤ) :
    List Candle → Option Candle
  | [] => none
  | first :: rest =>
    let prices := rest.foldl (fun prices minute => prices.append (.ofCandle minute))
      (PriceRange.ofCandle first)
    some (prices.toCandle symbol timeframe openTime)

/-- Every stored minute that opens in a bucket is one the bucket must hold. -/
def OnMinutes (minutes : MinuteStore) (symbol : String) (timeframe : Timeframe) (openTime : ℤ) :
    Prop :=
  ∀ minute ∈ minutes, minute.symbol = symbol ∧ minute.timeframe = Timeframe.oneMinute ∧
    openTime ≤ minute.openTime ∧ minute.openTime < openTime + timeframe.duration →
      minute.openTime ∈ bucketTimes timeframe openTime

instance (minutes : MinuteStore) (symbol : String) (timeframe : Timeframe) (openTime : ℤ) :
    Decidable (OnMinutes minutes symbol timeframe openTime) :=
  inferInstanceAs (Decidable (∀ minute ∈ minutes, _))

/-- `resample_confirmed_ohlcv` at one bucket: a bucket starts at a multiple of its
duration, and it is confirmed when it holds all its minutes and no others. -/
def confirmedCandle (minutes : MinuteStore) (symbol : String) (timeframe : Timeframe)
    (openTime : ℤ) : Option Candle :=
  if openTime % timeframe.duration = 0 ∧ OnMinutes minutes symbol timeframe openTime then
    ((bucketTimes timeframe openTime).mapM (minuteAt minutes symbol)).bind
      (buildCandle symbol timeframe openTime)
  else none

theorem buildCandle_eq_some {symbol : String} {timeframe : Timeframe} {openTime : ℤ}
    {bucket : List Candle} {candle : Candle}
    (h : buildCandle symbol timeframe openTime bucket = some candle) :
    candle.symbol = symbol ∧ candle.timeframe = timeframe ∧ candle.openTime = openTime ∧
      candle.closeTime = openTime + timeframe.duration := by
  cases bucket with
  | nil => cases h
  | cons first rest =>
    cases h
    exact ⟨rfl, rfl, rfl, rfl⟩

theorem confirmedCandle_eq_some {minutes : MinuteStore} {symbol : String} {timeframe : Timeframe}
    {openTime : ℤ} {candle : Candle}
    (h : confirmedCandle minutes symbol timeframe openTime = some candle) :
    candle.symbol = symbol ∧ candle.timeframe = timeframe ∧ candle.openTime = openTime ∧
      candle.closeTime = openTime + timeframe.duration := by
  unfold confirmedCandle at h
  split at h
  · rw [Option.bind_eq_some_iff] at h
    obtain ⟨bucket, -, hbuild⟩ := h
    exact buildCandle_eq_some hbuild
  · cases h

end Wallet
end TradingSystem
