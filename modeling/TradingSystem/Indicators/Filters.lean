import TradingSystem.Indicators.WarmUp
import TradingSystem.Indicators.Klinger

/-!
# Filtered momentum and volatility

`MACDState`, `TRIXState`, `DPOState`, `RelativeVigorIndexState`, `MassIndexState`,
`UlcerIndexState` and `ElderImpulseState`: their outputs in terms of the primitives they chain.

* `outputs_update` of each state — the values of a state are those of its averages and windows.
* `definedFrom_swma` — where the symmetric four-term average begins.
-/

namespace TradingSystem
namespace Indicators

open Streaming

/-! ### MACD -/

/-- The parameters that `macd` admits. -/
structure MacdParameters extends MacdPeriods where
  signalPeriod : ℕ
  signal_pos : 0 < signalPeriod

structure MacdValue where
  macd : Value
  signal : Value
  histogram : Value
deriving DecidableEq

structure MACDState where
  line : MacdLineState
  signal : RecursiveAverageState
  value : MacdValue

namespace MACDState

/-- A state that has seen nothing. -/
def new : MACDState := ⟨.new, .new, ⟨NAN, NAN, NAN⟩⟩

def update (p : MacdParameters) (state : MACDState) (candle : Candle) : MACDState × MacdValue :=
  let line := MacdLineState.update p.toMacdPeriods state.line (some candle.close)
  let signal := EmaState.update p.signalPeriod state.signal line.2
  let value := ⟨line.2, signal.2, difference line.2 signal.2⟩
  (⟨line.1, signal.1, value⟩, value)

theorem outputs_update (p : MacdParameters) (state : MACDState) (candles : List Candle) :
    outputs (update p) state candles =
      let line := outputs (MacdLineState.update p.toMacdPeriods) state.line (closes candles)
      let signal := outputs (EmaState.update p.signalPeriod) state.signal line
      List.zipWith3 MacdValue.mk line signal (List.zipWith difference line signal) := by
  induction candles generalizing state with
  | nil => rfl
  | cons candle candles ih =>
    rw [outputs_cons, ih]
    rfl

end MACDState

/-! ### TRIX -/

/-- The percentage change of a value, undefined where either is. -/
def percentChange (previous current : Value) : Value :=
  both (fun previous current => 100 * safeDivide (current - previous) previous 0) previous current

structure TRIXState where
  first : RecursiveAverageState
  second : RecursiveAverageState
  third : RecursiveAverageState
  previous : Value
  value : Value

namespace TRIXState

/-- A state that has seen nothing. -/
def new : TRIXState := ⟨.new, .new, .new, NAN, NAN⟩

def update (period : ℕ) (state : TRIXState) (candle : Candle) : TRIXState × Value :=
  let first := EmaState.update period state.first (some candle.close)
  let second := EmaState.update period state.second first.2
  let third := EmaState.update period state.third second.2
  let value := percentChange state.previous third.2
  (⟨first.1, second.1, third.1, third.2, value⟩, value)

theorem outputs_update (period : ℕ) (state : TRIXState) (candles : List Candle) :
    outputs (update period) state candles =
      let third := outputs (EmaState.update period) state.third
        (outputs (EmaState.update period) state.second
          (outputs (EmaState.update period) state.first (closes candles)))
      List.zipWith percentChange (state.previous :: third) third := by
  induction candles generalizing state with
  | nil => rfl
  | cons candle candles ih =>
    rw [outputs_cons, ih]
    rfl

end TRIXState

/-! ### The detrended price -/

def dpoShift (period : ℕ) : ℕ := period / 2 + 1

structure DPOState where
  average : SmaState
  closes : DelayLine
  value : Value

namespace DPOState

/-- A state that has seen nothing. -/
def new : DPOState := ⟨.new, [], NAN⟩

def update (period : ℕ) (state : DPOState) (candle : Candle) : DPOState × Value :=
  let earlier := DelayLine.update (dpoShift period) state.closes (some candle.close)
  let average := SmaState.update period state.average (some candle.close)
  let value := difference earlier.2 average.2
  (⟨average.1, earlier.1, value⟩, value)

theorem outputs_update (period : ℕ) (state : DPOState) (candles : List Candle) :
    outputs (update period) state candles = List.zipWith difference
      (outputs (DelayLine.update (dpoShift period)) state.closes (Indicators.closes candles))
      (outputs (SmaState.update period) state.average (Indicators.closes candles)) := by
  induction candles generalizing state with
  | nil => rfl
  | cons candle candles ih =>
    rw [outputs_cons, ih]
    rfl

end DPOState

/-! ### Relative vigor -/

def swmaLength : ℕ := 4

def symmetricWeighted (window : List ℚ) : ℚ :=
  (window.getD 3 0 + 2 * window.getD 2 0 + 2 * window.getD 1 0 + window.getD 0 0) / 6

/-- A window of a symmetric filter. -/
abbrev SwmaWindow := List Value

namespace SwmaWindow

def filtered (window : SwmaWindow) : Value :=
  if window.length < swmaLength ∨ window.any Option.isNone then NAN
  else some (symmetricWeighted window.reduceOption)

/-- Append a value and filter the window. -/
def update (window : SwmaWindow) (value : Value) : SwmaWindow × Value :=
  (push swmaLength window value, filtered (push swmaLength window value))

end SwmaWindow

/-- The symmetric average begins with the fourth value. -/
theorem definedFrom_swma {start : ℕ} {values : List Value} (h : DefinedFrom start values) :
    DefinedFrom (start + (swmaLength - 1)) (outputs SwmaWindow.update [] values) := by
  have hprefixes : outputs SwmaWindow.update [] values =
      prefixes (fun seen => SwmaWindow.filtered (seen.rtake swmaLength)) values := by
    apply outputs_eq_prefixes
    intro xs x
    have hfinal : final SwmaWindow.update [] xs = xs.rtake swmaLength := foldl_push swmaLength xs
    rw [hfinal, SwmaWindow.update, push_rtake]
  rw [hprefixes]
  refine h.prefixes (by decide) fun seen => ?_
  -- the filter asks of its window what the weighted mean asks of one
  rw [← windowWeightedMean_isSome, SwmaWindow.filtered, windowWeightedMean, WmaWindow.current]
  split <;> rfl

/-- The ratio of two averages. -/
def vigor (numerator denominator : Value) : Value :=
  both (fun x y => safeDivide x y 0) numerator denominator

structure RviValue where
  rvi : Value
  signal : Value
deriving DecidableEq

structure RelativeVigorIndexState where
  bodies : SwmaWindow
  ranges : SwmaWindow
  lineWindow : SwmaWindow
  numerator : SmaState
  denominator : SmaState
  value : RviValue

namespace RelativeVigorIndexState

/-- A state that has seen nothing. -/
def new : RelativeVigorIndexState := ⟨[], [], [], .new, .new, ⟨NAN, NAN⟩⟩

def update (period : ℕ) (state : RelativeVigorIndexState) (candle : Candle) :
    RelativeVigorIndexState × RviValue :=
  let bodies := SwmaWindow.update state.bodies (some (candle.close - candle.open))
  let ranges := SwmaWindow.update state.ranges (some (candle.high - candle.low))
  let numerator := SmaState.update period state.numerator bodies.2
  let denominator := SmaState.update period state.denominator ranges.2
  let line := vigor numerator.2 denominator.2
  let signal := SwmaWindow.update state.lineWindow line
  let value := ⟨line, signal.2⟩
  (⟨bodies.1, ranges.1, signal.1, numerator.1, denominator.1, value⟩, value)

/-- The line of the averages of both filters. -/
def line (period : ℕ) (state : RelativeVigorIndexState) (candles : List Candle) : List Value :=
  List.zipWith vigor
    (outputs (SmaState.update period) state.numerator
      (outputs SwmaWindow.update state.bodies
        (candles.map fun candle => some (candle.close - candle.open))))
    (outputs (SmaState.update period) state.denominator
      (outputs SwmaWindow.update state.ranges
        (candles.map fun candle => some (candle.high - candle.low))))

theorem outputs_update (period : ℕ) (state : RelativeVigorIndexState) (candles : List Candle) :
    outputs (update period) state candles = List.zipWith RviValue.mk (line period state candles)
      (outputs SwmaWindow.update state.lineWindow (line period state candles)) := by
  induction candles generalizing state with
  | nil => rfl
  | cons candle candles ih =>
    rw [outputs_cons, ih]
    rfl

end RelativeVigorIndexState

/-! ### Mass and Ulcer indices -/

def rangeRatio (first second : Value) : Value := both (fun x y => safeDivide x y 1) first second

/-- The periods of a mass index. -/
structure MassParameters where
  period : ℕ
  sumPeriod : ℕ
  period_pos : 0 < period
  sum_pos : 0 < sumPeriod

structure MassIndexState where
  first : RecursiveAverageState
  second : RecursiveAverageState
  sum : SmaState
  value : Value

namespace MassIndexState

/-- A state that has seen nothing. -/
def new : MassIndexState := ⟨.new, .new, .new, NAN⟩

def update (p : MassParameters) (state : MassIndexState) (candle : Candle) :
    MassIndexState × Value :=
  let single := EmaState.update p.period state.first (some (candle.high - candle.low))
  let double := EmaState.update p.period state.second single.2
  let mean := SmaState.update p.sumPeriod state.sum (rangeRatio single.2 double.2)
  let value := mean.2.map fun mean : ℚ => mean * p.sumPeriod
  (⟨single.1, double.1, mean.1, value⟩, value)

theorem outputs_update (p : MassParameters) (state : MassIndexState) (candles : List Candle) :
    outputs (update p) state candles =
      let single := outputs (EmaState.update p.period) state.first
        (candles.map fun candle => some (candle.high - candle.low))
      (outputs (SmaState.update p.sumPeriod) state.sum
        (List.zipWith rangeRatio single
          (outputs (EmaState.update p.period) state.second single))).map
        (Option.map fun mean : ℚ => mean * p.sumPeriod) := by
  induction candles generalizing state with
  | nil => rfl
  | cons candle candles ih =>
    rw [outputs_cons, ih]
    rfl

end MassIndexState

def squaredDrawdown (close highestClose : Value) : Value :=
  both (fun close highestClose => (100 * safeDivide (close - highestClose) highestClose 0) ^ 2)
    close highestClose

structure UlcerIndexState where
  highest : RollingExtremeState
  mean : SmaState
  value : Value

namespace UlcerIndexState

/-- A state that has seen nothing. -/
def new : UlcerIndexState := ⟨.new, .new, NAN⟩

/-- `update`; `sqrt` is the square root that `_root_of_mean_square` takes. -/
def update (sqrt : ℚ → ℚ) (period : ℕ) (state : UlcerIndexState) (candle : Candle) :
    UlcerIndexState × Value :=
  let highestClose := RollingExtremeState.update period true state.highest (some candle.close)
  let mean := SmaState.update period state.mean
    (squaredDrawdown (some candle.close) highestClose.2)
  let value := mean.2.map fun mean => sqrt (max 0 mean)
  (⟨highestClose.1, mean.1, value⟩, value)

theorem outputs_update (sqrt : ℚ → ℚ) (period : ℕ) (state : UlcerIndexState)
    (candles : List Candle) :
    outputs (update sqrt period) state candles =
      (outputs (SmaState.update period) state.mean
        (List.zipWith squaredDrawdown (closes candles)
          (outputs (RollingExtremeState.update period true) state.highest
            (closes candles)))).map (Option.map fun mean => sqrt (max 0 mean)) := by
  induction candles generalizing state with
  | nil => rfl
  | cons candle candles ih =>
    rw [outputs_cons, ih]
    rfl

end UlcerIndexState

/-! ### The impulse system -/

def impulse (average previousAverage histogram previousHistogram : Value) : Value :=
  match average, previousAverage, histogram, previousHistogram with
  | some average, some previousAverage, some histogram, some previousHistogram =>
    if previousAverage < average ∧ previousHistogram < histogram then some 1
    else if average < previousAverage ∧ histogram < previousHistogram then some (-1)
    else some 0
  | _, _, _, _ => NAN

/-- An impulse needs all four values. -/
theorem impulse_isSome (average previousAverage histogram previousHistogram : Value) :
    (impulse average previousAverage histogram previousHistogram).isSome ↔
      (average.isSome ∧ previousAverage.isSome) ∧
        histogram.isSome ∧ previousHistogram.isSome := by
  cases average <;> cases previousAverage <;> cases histogram <;> cases previousHistogram <;>
    simp [impulse]
  split_ifs <;> rfl

/-- The parameters that `elder_impulse` admits. -/
structure ElderImpulseParameters extends MacdParameters where
  emaPeriod : ℕ
  ema_pos : 0 < emaPeriod

structure ElderImpulseState where
  average : RecursiveAverageState
  macd : MACDState
  previousAverage : Value
  previousHistogram : Value
  value : Value

namespace ElderImpulseState

/-- A state that has seen nothing. -/
def new : ElderImpulseState := ⟨.new, .new, NAN, NAN, NAN⟩

def update (p : ElderImpulseParameters) (state : ElderImpulseState) (candle : Candle) :
    ElderImpulseState × Value :=
  let average := EmaState.update p.emaPeriod state.average (some candle.close)
  let macd := MACDState.update p.toMacdParameters state.macd candle
  let value := impulse average.2 state.previousAverage macd.2.histogram state.previousHistogram
  (⟨average.1, macd.1, average.2, macd.2.histogram, value⟩, value)

theorem outputs_update (p : ElderImpulseParameters) (state : ElderImpulseState)
    (candles : List Candle) :
    outputs (update p) state candles =
      let average := outputs (EmaState.update p.emaPeriod) state.average (closes candles)
      let histogram := (outputs (MACDState.update p.toMacdParameters) state.macd candles).map
        MacdValue.histogram
      List.zipWith4 impulse average (state.previousAverage :: average) histogram
        (state.previousHistogram :: histogram) := by
  induction candles generalizing state with
  | nil => rfl
  | cons candle candles ih =>
    rw [outputs_cons, ih]
    rfl

end ElderImpulseState

end Indicators
end TradingSystem
