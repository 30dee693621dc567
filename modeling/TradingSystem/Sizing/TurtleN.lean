import TradingSystem.Types.Candle
import TradingSystem.Wallet.Resample

/-!
# The daily volatility of the turtle policy

`turtle_n_series` smooths the true ranges of daily candles: the first value is the mean of
the first `period` ranges, and every later one weighs the one before. The value at a day
therefore depends on where the list of days starts.

* `floatSum` — `sum` over floats, which carries a compensation term.
* `turtleNSeries` — the series, keyed by the close of its day.
* `latestN` — the value a bar uses: the last one finalized by its close.
-/

namespace TradingSystem
namespace TurtleN

open Numeric Wallet.PriceRange

/-- The sum of two floats. -/
def add (x y : Binary64) : Binary64 := Binary64.ofRat (x.val + y.val)

/-- A sum under way: its leading part and the rounding errors collected so far. -/
structure CompensatedSum where
  hi : Binary64
  lo : Binary64

/-- One term of a compensated sum. -/
def CompensatedSum.add (total : CompensatedSum) (x : Binary64) : CompensatedSum :=
  let t := TurtleN.add total.hi x
  if Binary64.abs x ≤ Binary64.abs total.hi then
    ⟨t, TurtleN.add total.lo (TurtleN.add (Binary64.sub total.hi t) x)⟩
  else ⟨t, TurtleN.add total.lo (TurtleN.add (Binary64.sub x t) total.hi)⟩

/-- `sum(values)`. -/
def floatSum (values : List Binary64) : Binary64 :=
  match values with
  | [] => Binary64.zero
  | first :: rest =>
    let total := rest.foldl CompensatedSum.add ⟨first, Binary64.zero⟩
    if total.lo = Binary64.zero then total.hi else add total.hi total.lo

/-- The true range of a candle after the close before it. -/
def trueRange (previousClose : Option Binary64) (candle : Candle) : Binary64 :=
  let current := Binary64.sub candle.high candle.low
  match previousClose with
  | none => current
  | some previous =>
    maxOf (maxOf current (Binary64.abs (Binary64.sub candle.high previous)))
      (Binary64.abs (Binary64.sub candle.low previous))

/-- The true ranges of candles that follow a close. -/
def trueRanges : Option Binary64 → List Candle → List Binary64
  | _, [] => []
  | previous, candle :: rest =>
    trueRange previous candle :: trueRanges (some candle.close) rest

/-- The value after one more day. -/
def smooth (period : ℤ) (current range : Binary64) : Binary64 :=
  Binary64.div (add (Binary64.mul (Binary64.ofRat (period - 1)) current) range)
    (Binary64.ofRat period)

/-- The values of the days that follow a value. -/
def smoothed (period : ℤ) : Binary64 → List (Candle × Binary64) → List (ℤ × Binary64)
  | _, [] => []
  | current, (candle, range) :: rest =>
    let next := smooth period current range
    (candle.closeTime, next) :: smoothed period next rest

/-- `turtle_n_series`. A candle has finite positive prices, so that the check of the prices
passes for every list of candles. -/
def turtleNSeries (candles : List Candle) (period : ℤ) : Except Fault (List (ℤ × Binary64)) := do
  require (2 ≤ period) (.valueError "period must be an integer of at least 2")
  require (∀ pair ∈ candles.zip candles.tail, pair.1.openTime < pair.2.openTime)
    (.valueError "turtle N candles must be strictly increasing")
  let ranges := trueRanges none candles
  let days := candles.zip ranges
  match (days.take period.toNat).getLast? with
  | none => return []
  | some (last, _) =>
    if days.length < period.toNat then return []
    else
      let first := Binary64.div (floatSum (ranges.take period.toNat)) (Binary64.ofRat period)
      return (last.closeTime, first) :: smoothed period first (days.drop period.toNat)

/-- The value a bar uses: the last one finalized by its close. -/
def latestN (series : List (ℤ × Binary64)) (time : ℤ) : Option Binary64 :=
  ((series.filter fun item => item.1 ≤ time).getLast?).map (·.2)

end TurtleN
end TradingSystem
