import TradingSystem.Types.Money
import TradingSystem.Types.Enums

/-!
# Instants, timeframes and candles

Instants are integers, microseconds since the Unix epoch (the resolution of
`datetime`). A candle carries the facts its constructor validates: it spans
exactly its timeframe, its prices are positive and its extremes enclose its
open and close.

Evidence stores instants as epoch milliseconds. The source computes them through
a float number of seconds, as `epochMilliseconds` of `Types.Clock` does;
`wholeMilliseconds` is the number an instant stands for.
-/

namespace TradingSystem

open Numeric

namespace Instant

def millisecond : ℤ := 1000

def second : ℤ := 1000000

def minute : ℤ := 60 * second

def hour : ℤ := 60 * minute

def day : ℤ := 24 * hour

end Instant

/-- The whole milliseconds of an instant. The float of the source gives this number on whole
seconds, and on whole milliseconds from November 2004 to January 2038. -/
def wholeMilliseconds (value : ℤ) : ℤ := value.tdiv Instant.millisecond

/-- An instant on a whole millisecond. -/
def WholeMillisecond (t : ℤ) : Prop := t % Instant.millisecond = 0

theorem wholeMilliseconds_mul {t : ℤ} (h : WholeMillisecond t) :
    wholeMilliseconds t * Instant.millisecond = t :=
  Int.tdiv_mul_cancel (Int.dvd_of_emod_eq_zero h)

/-! ### Timeframes -/

inductive TimeframeUnit
  | minutes | hours | days
deriving DecidableEq, Repr

/-- The duration of one unit of a timeframe. -/
def TimeframeUnit.duration : TimeframeUnit → ℤ
  | minutes => Instant.minute
  | hours => Instant.hour
  | days => Instant.day

/-- A timeframe string that matches `^[1-9]\d*[mhd]$`: a positive count and a
unit. Two timeframes are the same text exactly when both parts agree, so `60m`
and `1h` are different timeframes of one duration. -/
structure Timeframe where
  count : ℕ
  unit : TimeframeUnit
  count_pos : 0 < count
deriving DecidableEq, Repr

namespace Timeframe

/-- The length of one candle. -/
def duration (timeframe : Timeframe) : ℤ := timeframe.unit.duration * timeframe.count

theorem unit_duration_pos (unit : TimeframeUnit) : 0 < unit.duration := by
  cases unit <;> decide

theorem duration_pos (timeframe : Timeframe) : 0 < timeframe.duration :=
  mul_pos (unit_duration_pos _) (by exact_mod_cast timeframe.count_pos)

/-- Every candle lasts at least a minute. -/
theorem minute_le_duration (timeframe : Timeframe) : Instant.minute ≤ timeframe.duration := by
  have hunit : Instant.minute ≤ timeframe.unit.duration := by
    cases timeframe.unit <;> decide
  have hcount : (1 : ℤ) ≤ timeframe.count := by exact_mod_cast timeframe.count_pos
  calc Instant.minute ≤ timeframe.unit.duration * 1 := by linarith
    _ ≤ timeframe.duration :=
        mul_le_mul_of_nonneg_left hcount (unit_duration_pos _).le

/-- The one-minute timeframe of the source rows. -/
def oneMinute : Timeframe := ⟨1, .minutes, by decide⟩

end Timeframe

/-! ### Candles -/

/-- A confirmed candle. -/
structure Candle where
  symbol : String
  timeframe : Timeframe
  openTime : ℤ
  closeTime : ℤ
  «open» : Binary64
  high : Binary64
  low : Binary64
  close : Binary64
  closeTime_eq : closeTime = openTime + timeframe.duration
  open_pos : Binary64.zero < «open»
  low_pos : Binary64.zero < low
  close_pos : Binary64.zero < close
  open_le_high : «open» ≤ high
  close_le_high : close ≤ high
  low_le_open : low ≤ «open»
  low_le_close : low ≤ close
deriving DecidableEq

namespace Candle

theorem openTime_lt_closeTime (candle : Candle) : candle.openTime < candle.closeTime := by
  have := candle.timeframe.duration_pos
  rw [candle.closeTime_eq]
  omega

/-- The candle of one price, as the engine builds it to close a position at the
last confirmed price. -/
def flat (symbol : String) (timeframe : Timeframe) (openTime : ℤ) (price : Binary64)
    (price_pos : Binary64.zero < price) : Candle where
  symbol := symbol
  timeframe := timeframe
  openTime := openTime
  closeTime := openTime + timeframe.duration
  «open» := price
  high := price
  low := price
  close := price
  closeTime_eq := rfl
  open_pos := price_pos
  low_pos := price_pos
  close_pos := price_pos
  open_le_high := le_refl price.val
  close_le_high := le_refl price.val
  low_le_open := le_refl price.val
  low_le_close := le_refl price.val

end Candle

/-- Candles in strictly increasing order of their opens. -/
def Increasing (candles : List Candle) : Prop :=
  candles.Pairwise fun left right => left.openTime < right.openTime

end TradingSystem
