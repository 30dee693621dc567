import TradingSystem.Indicators.Strength
import TradingSystem.Indicators.Momentum

/-!
# Oscillators

The oscillators that contrast a value with the extremes, the movement or the volume of a window,
each as a batch function and as a state.

* `StochasticRSIState.outputs_stochasticRsi`, `SMIState.outputs_smi`, `TSIState.outputs_tsi`,
  `CMOState.outputs_cmo`, `WilliamsRState.outputs_williamsR`,
  `UltimateOscillatorState.outputs_ultimate`, `MoneyFlowIndexState.outputs_moneyFlow` — fed candle
  by candle, a state gives the batch series.
-/

namespace TradingSystem
namespace Indicators

open Streaming

/-! ### Stochastic -/

/-- `StochasticValue`, also the value of the stochastic relative strength. -/
structure StochasticValue where
  percentK : Value
  percentD : Value
deriving DecidableEq

/-- The place of a close between two extremes; a flat window keeps the previous one. -/
def stochasticK (previousK close high low : ℚ) : ℚ :=
  safeDivide (100 * (close - low)) (high - low) previousK

/-- The loop of `stochastic`. -/
def stochasticLoop : ℚ → List Candle → List Value → List Value → List Value
  | previousK, candle :: candles, some high :: highs, some low :: lows =>
    let currentK := stochasticK previousK candle.close high low
    some currentK :: stochasticLoop currentK candles highs lows
  | previousK, _ :: candles, _ :: highs, _ :: lows =>
    NAN :: stochasticLoop previousK candles highs lows
  | _, _, _, _ => []

def stochastic (candles : List Candle) (period smoothPeriod : ℕ) : List StochasticValue :=
  let percentK := stochasticLoop 50 candles (hh (highs candles) period) (ll (lows candles) period)
  List.zipWith StochasticValue.mk percentK (sma percentK smoothPeriod)

structure StochasticState where
  highest : RollingExtremeState
  lowest : RollingExtremeState
  smoothed : SmaState
  previousK : ℚ
  value : StochasticValue

namespace StochasticState

/-- A state that has seen nothing. -/
def new : StochasticState := ⟨.new, .new, .new, 50, ⟨NAN, NAN⟩⟩

def update (period smoothPeriod : ℕ) (state : StochasticState) (candle : Candle) :
    StochasticState × StochasticValue :=
  let highest := RollingExtremeState.update period true state.highest (some candle.high)
  let lowest := RollingExtremeState.update period false state.lowest (some candle.low)
  match highest.2, lowest.2 with
  | some high, some low =>
    let currentK := stochasticK state.previousK candle.close high low
    let smoothed := SmaState.update smoothPeriod state.smoothed (some currentK)
    let value := ⟨some currentK, smoothed.2⟩
    (⟨highest.1, lowest.1, smoothed.1, currentK, value⟩, value)
  | _, _ =>
    (⟨highest.1, lowest.1, state.smoothed, state.previousK, ⟨NAN, NAN⟩⟩, ⟨NAN, NAN⟩)

end StochasticState

/-! ### Stochastic relative strength -/

/-- The parameters that `stochastic_rsi` admits. -/
structure StochasticRsiParameters where
  rsiPeriod : ℕ
  stochasticPeriod : ℕ
  smoothK : ℕ
  smoothD : ℕ
  rsi_pos : 0 < rsiPeriod
  stochastic_pos : 0 < stochasticPeriod
  smoothK_pos : 0 < smoothK
  smoothD_pos : 0 < smoothD

/-- The place of a strength between the extremes of its window. -/
def rawStochastic (value high low : Value) : Value :=
  match value, high, low with
  | some value, some high, some low => some (100 * safeDivide (value - low) (high - low) (1 / 2))
  | _, _, _ => NAN

def stochasticRsi (p : StochasticRsiParameters) (candles : List Candle) : List StochasticValue :=
  let strength := rsi candles p.rsiPeriod
  let raw := List.zipWith3 rawStochastic strength (hh strength p.stochasticPeriod)
    (ll strength p.stochasticPeriod)
  let percentK := sma raw p.smoothK
  List.zipWith StochasticValue.mk percentK (sma percentK p.smoothD)

structure StochasticRSIState where
  rsi : RSIValueState
  highest : RollingExtremeState
  lowest : RollingExtremeState
  smoothK : SmaState
  smoothD : SmaState
  value : StochasticValue

namespace StochasticRSIState

/-- A state that has seen nothing. -/
def new : StochasticRSIState := ⟨.new, .new, .new, .new, .new, ⟨NAN, NAN⟩⟩

def update (p : StochasticRsiParameters) (state : StochasticRSIState) (candle : Candle) :
    StochasticRSIState × StochasticValue :=
  let strength := RSIValueState.update p.rsiPeriod state.rsi candle.close
  let high := RollingExtremeState.update p.stochasticPeriod true state.highest strength.2
  let low := RollingExtremeState.update p.stochasticPeriod false state.lowest strength.2
  let raw := rawStochastic strength.2 high.2 low.2
  let percentK := SmaState.update p.smoothK state.smoothK raw
  let percentD := SmaState.update p.smoothD state.smoothD percentK.2
  let value := ⟨percentK.2, percentD.2⟩
  (⟨strength.1, high.1, low.1, percentK.1, percentD.1, value⟩, value)

theorem outputs_update (p : StochasticRsiParameters) (state : StochasticRSIState)
    (candles : List Candle) :
    outputs (update p) state candles =
      let strength := outputs (RSIValueState.update p.rsiPeriod) state.rsi (closePrices candles)
      let percentK := outputs (SmaState.update p.smoothK) state.smoothK
        (List.zipWith3 rawStochastic strength
          (outputs (RollingExtremeState.update p.stochasticPeriod true) state.highest strength)
          (outputs (RollingExtremeState.update p.stochasticPeriod false) state.lowest strength))
      List.zipWith StochasticValue.mk percentK
        (outputs (SmaState.update p.smoothD) state.smoothD percentK) := by
  induction candles generalizing state with
  | nil => rfl
  | cons candle candles ih =>
    rw [outputs_cons, ih]
    rfl

/-- Fed candle by candle, the state gives the batch series. -/
theorem outputs_stochasticRsi (p : StochasticRsiParameters) {candles : List Candle}
    (h : candles ≠ []) : outputs (update p) new candles = stochasticRsi p candles := by
  have hcloses : closePrices candles ≠ [] := by simpa [closePrices] using h
  rw [outputs_update, stochasticRsi]
  simp only [new, RSIValueState.outputs_rsi p.rsi_pos hcloses,
    outputs_rollingExtreme p.stochastic_pos, outputs_sma]
  rfl

end StochasticRSIState

/-! ### The momentum indices -/

/-- A doubly smoothed value as a percentage of a doubly smoothed range. -/
def percentOf (numerator denominator : Value) : Value :=
  both (fun x y => 100 * safeDivide x y 0) numerator denominator

def tsi (candles : List Candle) (longPeriod shortPeriod : ℕ) : List Value :=
  let changes := changesOf id (closePrices candles)
  let magnitudes := changes.map (Option.map fun change => |change|)
  let smoothed := ema (ema changes longPeriod) shortPeriod
  let absolute := ema (ema magnitudes longPeriod) shortPeriod
  List.zipWith percentOf smoothed absolute

structure TSIState where
  previousClose : Option ℚ
  changeLong : RecursiveAverageState
  changeShort : RecursiveAverageState
  magnitudeLong : RecursiveAverageState
  magnitudeShort : RecursiveAverageState
  value : Value

namespace TSIState

/-- A state that has seen nothing. -/
def new : TSIState := ⟨none, .new, .new, .new, .new, NAN⟩

def update (longPeriod shortPeriod : ℕ) (state : TSIState) (candle : Candle) :
    TSIState × Value :=
  let change : Value := changeFrom id state.previousClose candle.close
  let magnitude := change.map fun change => |change|
  let changeLong := EmaState.update longPeriod state.changeLong change
  let changeShort := EmaState.update shortPeriod state.changeShort changeLong.2
  let magnitudeLong := EmaState.update longPeriod state.magnitudeLong magnitude
  let magnitudeShort := EmaState.update shortPeriod state.magnitudeShort magnitudeLong.2
  let value := percentOf changeShort.2 magnitudeShort.2
  (⟨some candle.close, changeLong.1, changeShort.1, magnitudeLong.1, magnitudeShort.1, value⟩,
    value)

theorem outputs_update (longPeriod shortPeriod : ℕ) (state : TSIState) (candles : List Candle) :
    outputs (update longPeriod shortPeriod) state candles =
      let changes := withPrevious (changeFrom id) state.previousClose (closePrices candles)
      List.zipWith percentOf
        (outputs (EmaState.update shortPeriod) state.changeShort
          (outputs (EmaState.update longPeriod) state.changeLong changes))
        (outputs (EmaState.update shortPeriod) state.magnitudeShort
          (outputs (EmaState.update longPeriod) state.magnitudeLong
            (changes.map (Option.map fun change => |change|)))) := by
  induction candles generalizing state with
  | nil => rfl
  | cons candle candles ih =>
    rw [outputs_cons, ih]
    rfl

/-- Fed candle by candle, the state gives the batch series. -/
theorem outputs_tsi {longPeriod shortPeriod : ℕ} (hlong : 0 < longPeriod)
    (hshort : 0 < shortPeriod) {candles : List Candle} (h : candles ≠ []) :
    outputs (update longPeriod shortPeriod) new candles = tsi candles longPeriod shortPeriod := by
  have hcloses : closePrices candles ≠ [] := by simpa [closePrices] using h
  rw [outputs_update, tsi, changesOf_eq id hcloses]
  simp only [new, outputs_ema hlong, outputs_ema hshort]

end TSIState

/-- The parameters that `smi` admits. -/
structure SmiParameters where
  period : ℕ
  longPeriod : ℕ
  shortPeriod : ℕ
  signalPeriod : ℕ
  period_pos : 0 < period
  long_pos : 0 < longPeriod
  short_pos : 0 < shortPeriod
  signal_pos : 0 < signalPeriod

structure SmiValue where
  smi : Value
  signal : Value
deriving DecidableEq

/-- The distance of a close from the middle of its window. -/
def distance (candle : Candle) (high low : Value) : Value :=
  both (fun high low => candle.close - (high + low) / 2) high low

/-- Half the range of a window. -/
def halfRange (high low : Value) : Value := both (fun high low => (high - low) / 2) high low

def smi (p : SmiParameters) (candles : List Candle) : List SmiValue :=
  let highest := hh (highs candles) p.period
  let lowest := ll (lows candles) p.period
  let distances := List.zipWith3 distance candles highest lowest
  let ranges := List.zipWith halfRange highest lowest
  let smoothed := ema (ema distances p.longPeriod) p.shortPeriod
  let smoothedRange := ema (ema ranges p.longPeriod) p.shortPeriod
  let line := List.zipWith percentOf smoothed smoothedRange
  List.zipWith SmiValue.mk line (ema line p.signalPeriod)

structure SMIState where
  highest : RollingExtremeState
  lowest : RollingExtremeState
  distanceLong : RecursiveAverageState
  distanceShort : RecursiveAverageState
  rangeLong : RecursiveAverageState
  rangeShort : RecursiveAverageState
  signal : RecursiveAverageState
  value : SmiValue

namespace SMIState

/-- A state that has seen nothing. -/
def new : SMIState := ⟨.new, .new, .new, .new, .new, .new, .new, ⟨NAN, NAN⟩⟩

def update (p : SmiParameters) (state : SMIState) (candle : Candle) : SMIState × SmiValue :=
  let highest := RollingExtremeState.update p.period true state.highest (some candle.high)
  let lowest := RollingExtremeState.update p.period false state.lowest (some candle.low)
  let distanceLong := EmaState.update p.longPeriod state.distanceLong
    (distance candle highest.2 lowest.2)
  let distanceShort := EmaState.update p.shortPeriod state.distanceShort distanceLong.2
  let rangeLong := EmaState.update p.longPeriod state.rangeLong (halfRange highest.2 lowest.2)
  let rangeShort := EmaState.update p.shortPeriod state.rangeShort rangeLong.2
  let line := percentOf distanceShort.2 rangeShort.2
  let signal := EmaState.update p.signalPeriod state.signal line
  let value := ⟨line, signal.2⟩
  (⟨highest.1, lowest.1, distanceLong.1, distanceShort.1, rangeLong.1, rangeShort.1, signal.1,
    value⟩, value)

theorem outputs_update (p : SmiParameters) (state : SMIState) (candles : List Candle) :
    outputs (update p) state candles =
      let highest := outputs (RollingExtremeState.update p.period true) state.highest
        (highs candles)
      let lowest := outputs (RollingExtremeState.update p.period false) state.lowest (lows candles)
      let line := List.zipWith percentOf
        (outputs (EmaState.update p.shortPeriod) state.distanceShort
          (outputs (EmaState.update p.longPeriod) state.distanceLong
            (List.zipWith3 distance candles highest lowest)))
        (outputs (EmaState.update p.shortPeriod) state.rangeShort
          (outputs (EmaState.update p.longPeriod) state.rangeLong
            (List.zipWith halfRange highest lowest)))
      List.zipWith SmiValue.mk line
        (outputs (EmaState.update p.signalPeriod) state.signal line) := by
  induction candles generalizing state with
  | nil => rfl
  | cons candle candles ih =>
    rw [outputs_cons, ih]
    rfl

/-- Fed candle by candle, the state gives the batch series. -/
theorem outputs_smi (p : SmiParameters) (candles : List Candle) :
    outputs (update p) new candles = smi p candles := by
  rw [outputs_update, smi]
  simp only [new, outputs_rollingExtreme p.period_pos, outputs_ema p.long_pos,
    outputs_ema p.short_pos, outputs_ema p.signal_pos]
  rfl

end SMIState

/-! ### Chande and Williams -/

/-- The contrast of two window averages. -/
def contrast (up down : Value) : Value :=
  both (fun up down => 100 * safeDivide (up - down) (up + down) 0) up down

def cmo (candles : List Candle) (period : ℕ) : List Value :=
  let gains := changesOf gain (closePrices candles)
  let losses := changesOf loss (closePrices candles)
  List.zipWith contrast (sma gains period) (sma losses period)

structure CMOState where
  previousClose : Option ℚ
  gains : SmaState
  losses : SmaState
  value : Value

namespace CMOState

/-- A state that has seen nothing. -/
def new : CMOState := ⟨none, .new, .new, NAN⟩

def update (period : ℕ) (state : CMOState) (candle : Candle) : CMOState × Value :=
  match state.previousClose with
  | none =>
    (⟨some candle.close, (SmaState.update period state.gains NAN).1,
      (SmaState.update period state.losses NAN).1, NAN⟩, NAN)
  | some previousClose =>
    let change := candle.close - previousClose
    let up := SmaState.update period state.gains (some (gain change))
    let down := SmaState.update period state.losses (some (loss change))
    let value := contrast up.2 down.2
    (⟨some candle.close, up.1, down.1, value⟩, value)

theorem outputs_update (period : ℕ) (previousClose : ℚ) (gains losses : SmaState)
    (value : Value) (candles : List Candle) :
    outputs (update period) ⟨some previousClose, gains, losses, value⟩ candles =
      List.zipWith contrast
        (outputs (SmaState.update period) gains
          (withPrevious (changeFrom gain) (some previousClose) (closePrices candles)))
        (outputs (SmaState.update period) losses
          (withPrevious (changeFrom loss) (some previousClose) (closePrices candles))) := by
  induction candles generalizing previousClose gains losses value with
  | nil => rfl
  | cons candle candles ih => exact congrArg _ (ih candle.close _ _ _)

/-- A window that an undefined value enters has no average. -/
theorem sma_update_none {period : ℕ} (hperiod : 0 < period) :
    (SmaState.update period .new NAN).2 = NAN := by
  have hadd : SmaState.new.add NAN = ⟨[none], 0, 1⟩ := rfl
  rw [SmaState.update, hadd, SmaState.evict, if_neg (by simp; omega)]
  exact if_neg fun hwarm => absurd hwarm.2 (by decide)

/-- Fed candle by candle, the state gives the batch series. -/
theorem outputs_cmo {period : ℕ} (hperiod : 0 < period) {candles : List Candle}
    (h : candles ≠ []) : outputs (update period) new candles = cmo candles period := by
  have hcloses : closePrices candles ≠ [] := by simpa [closePrices] using h
  rw [cmo, changesOf_eq gain hcloses, changesOf_eq loss hcloses]
  simp only [← outputs_sma]
  cases candles with
  | nil => exact absurd rfl h
  | cons candle candles =>
    have hafter := outputs_update period candle.close (SmaState.update period .new NAN).1
      (SmaState.update period .new NAN).1 NAN candles
    have hfirst : contrast (SmaState.update period .new NAN).2
        (SmaState.update period .new NAN).2 = NAN := by
      rw [sma_update_none hperiod]
      rfl
    exact congrArg₂ List.cons hfirst.symm hafter

end CMOState

/-- The place of a close below the high of its window. -/
def williams (candle : Candle) (high low : Value) : Value :=
  both (fun high low => -100 * safeDivide (high - candle.close) (high - low) (1 / 2)) high low

def williamsR (candles : List Candle) (period : ℕ) : List Value :=
  List.zipWith3 williams candles (hh (highs candles) period) (ll (lows candles) period)

structure WilliamsRState where
  highest : RollingExtremeState
  lowest : RollingExtremeState
  value : Value

namespace WilliamsRState

/-- A state that has seen nothing. -/
def new : WilliamsRState := ⟨.new, .new, NAN⟩

def update (period : ℕ) (state : WilliamsRState) (candle : Candle) : WilliamsRState × Value :=
  let high := RollingExtremeState.update period true state.highest (some candle.high)
  let low := RollingExtremeState.update period false state.lowest (some candle.low)
  let value := williams candle high.2 low.2
  (⟨high.1, low.1, value⟩, value)

theorem outputs_update (period : ℕ) (state : WilliamsRState) (candles : List Candle) :
    outputs (update period) state candles = List.zipWith3 williams candles
      (outputs (RollingExtremeState.update period true) state.highest (highs candles))
      (outputs (RollingExtremeState.update period false) state.lowest (lows candles)) := by
  induction candles generalizing state with
  | nil => rfl
  | cons candle candles ih =>
    rw [outputs_cons, ih]
    rfl

/-- Fed candle by candle, the state gives the batch series. -/
theorem outputs_williamsR {period : ℕ} (hperiod : 0 < period) (candles : List Candle) :
    outputs (update period) new candles = williamsR candles period := by
  rw [outputs_update, williamsR]
  simp only [new, outputs_rollingExtreme hperiod]
  rfl

end WilliamsRState

/-! ### The ultimate oscillator -/

/-- Buying pressure and range against the close before. -/
def buying (previousClose : ℚ) (candle : Candle) : ℚ × ℚ :=
  let trueLow := min candle.low previousClose
  (candle.close - trueLow, max candle.high previousClose - trueLow)

/-- The share of pressure in a window's range. -/
def share (pressure span : Value) : Value :=
  both (fun pressure span => safeDivide pressure span (1 / 2)) pressure span

/-- The three shares, weighed. -/
def weighed (short medium long : Value) : Value :=
  match short, medium, long with
  | some x, some y, some z => some (100 * (4 * x + 2 * y + 1 * z) / (4 + 2 + 1))
  | _, _, _ => NAN

/-- The parameters that `ultimate_oscillator` admits. -/
structure UltimateParameters where
  shortPeriod : ℕ
  mediumPeriod : ℕ
  longPeriod : ℕ
  short_pos : 0 < shortPeriod
  medium_pos : 0 < mediumPeriod
  long_pos : 0 < longPeriod

def ultimateOscillator (p : UltimateParameters) (candles : List Candle) : List Value :=
  let pressures := moves (fun previous current => (buying previous.close current).1) candles
  let ranges := moves (fun previous current => (buying previous.close current).2) candles
  let averages (period : ℕ) := List.zipWith share (sma pressures period) (sma ranges period)
  List.zipWith3 weighed (averages p.shortPeriod) (averages p.mediumPeriod) (averages p.longPeriod)

/-- The two windows of one period. -/
structure ShareState where
  pressures : SmaState
  ranges : SmaState

namespace ShareState

/-- Windows that have seen nothing. -/
def new : ShareState := ⟨.new, .new⟩

/-- Advance both windows. -/
def update (period : ℕ) (state : ShareState) (bar : Value × Value) : ShareState × Value :=
  let pressure := SmaState.update period state.pressures bar.1
  let span := SmaState.update period state.ranges bar.2
  (⟨pressure.1, span.1⟩, share pressure.2 span.2)

theorem outputs_update (period : ℕ) (state : ShareState) (bars : List (Value × Value)) :
    outputs (update period) state bars = List.zipWith share
      (outputs (SmaState.update period) state.pressures (bars.map Prod.fst))
      (outputs (SmaState.update period) state.ranges (bars.map Prod.snd)) := by
  induction bars generalizing state with
  | nil => rfl
  | cons bar bars ih =>
    rw [outputs_cons, ih]
    rfl

end ShareState

structure UltimateOscillatorState where
  previousClose : Option ℚ
  short : ShareState
  medium : ShareState
  long : ShareState
  value : Value

namespace UltimateOscillatorState

/-- A state that has seen nothing. -/
def new : UltimateOscillatorState := ⟨none, .new, .new, .new, NAN⟩

/-- Pressure and range of a candle, undefined for the first one. -/
def bar (previousClose : Option ℚ) (candle : Candle) : Value × Value :=
  (previousClose.map fun previousClose => (buying previousClose candle).1,
    previousClose.map fun previousClose => (buying previousClose candle).2)

def update (p : UltimateParameters) (state : UltimateOscillatorState) (candle : Candle) :
    UltimateOscillatorState × Value :=
  let bar := bar state.previousClose candle
  let short := ShareState.update p.shortPeriod state.short bar
  let medium := ShareState.update p.mediumPeriod state.medium bar
  let long := ShareState.update p.longPeriod state.long bar
  let value := weighed short.2 medium.2 long.2
  (⟨some candle.close, short.1, medium.1, long.1, value⟩, value)

theorem outputs_update (p : UltimateParameters) (previous : Option Candle)
    (short medium long : ShareState) (value : Value) (candles : List Candle) :
    outputs (update p) ⟨previous.map Candle.close, short, medium, long, value⟩ candles =
      let bars := withPrevious (fun previous candle => bar (previous.map Candle.close) candle)
        previous candles
      List.zipWith3 weighed (outputs (ShareState.update p.shortPeriod) short bars)
        (outputs (ShareState.update p.mediumPeriod) medium bars)
        (outputs (ShareState.update p.longPeriod) long bars) := by
  induction candles generalizing previous short medium long value with
  | nil => rfl
  | cons candle candles ih => exact congrArg _ (ih (some candle) _ _ _ _)

/-- A component of the values of neighbours. -/
theorem map_withPrevious {α β γ : Type} (f : Option α → α → β) (g : β → γ) (previous : Option α)
    (xs : List α) :
    (withPrevious f previous xs).map g = withPrevious (fun a b => g (f a b)) previous xs := by
  induction xs generalizing previous with
  | nil => rfl
  | cons x xs ih => simp [ih]

/-- Fed candle by candle, the state gives the batch series. -/
theorem outputs_ultimate (p : UltimateParameters) {candles : List Candle} (h : candles ≠ []) :
    outputs (update p) new candles = ultimateOscillator p candles := by
  have hbars := outputs_update p none .new .new .new NAN candles
  rw [Option.map_none] at hbars
  rw [new, hbars, ultimateOscillator, moves_eq _ h, moves_eq _ h]
  simp only [ShareState.outputs_update, map_withPrevious, ShareState.new, outputs_sma, bar,
    Option.map_map]
  rfl

end UltimateOscillatorState

/-! ### Money flow -/

def moneyFlowVolume (candle : Candle) : ℚ :=
  safeDivide ((candle.close - candle.low) - (candle.high - candle.close))
    (candle.high - candle.low) 0 * candle.volume

/-- The loop of `cmf`. -/
def cmfLoop (period : ℕ) : List ℚ → List ℚ → List Candle → List Value
  | _, _, [] => []
  | flows, volumes, candle :: candles =>
    let flows := push period flows (moneyFlowVolume candle)
    let volumes := push period volumes candle.volume
    (if flows.length < period then NAN else some (safeDivide flows.sum volumes.sum 0)) ::
      cmfLoop period flows volumes candles

def cmf (candles : List Candle) (period : ℕ) : List Value := cmfLoop period [] [] candles

structure CMFState where
  flows : SmaState
  volumes : SmaState

namespace CMFState

/-- A state that has seen nothing. -/
def new : CMFState := ⟨.new, .new⟩

def update (period : ℕ) (state : CMFState) (candle : Candle) : CMFState × Value :=
  let flow := SmaState.update period state.flows (some (moneyFlowVolume candle))
  let volume := SmaState.update period state.volumes (some candle.volume)
  (⟨flow.1, volume.1⟩, both (fun flow volume => safeDivide flow volume 0) flow.2 volume.2)

theorem outputs_update (period : ℕ) (state : CMFState) (candles : List Candle) :
    outputs (update period) state candles =
      List.zipWith (both fun flow volume => safeDivide flow volume 0)
        (outputs (SmaState.update period) state.flows
          (candles.map fun candle => some (moneyFlowVolume candle)))
        (outputs (SmaState.update period) state.volumes
          (candles.map fun candle => some candle.volume)) := by
  induction candles generalizing state with
  | nil => rfl
  | cons candle candles ih =>
    rw [outputs_cons, ih]
    rfl

end CMFState

def moneyFlowIndexValue (positive negative : ℚ) : ℚ :=
  if negative = 0 then 100
  else if positive = 0 then 0
  else 100 - 100 / (1 + positive / negative)

/-- The raw flow of a candle, when its typical price rose or when it fell. -/
def moneyFlow (rising : Bool) (previousPrice : ℚ) (candle : Candle) : ℚ :=
  if (if rising then previousPrice < candle.typical else candle.typical < previousPrice) then
    candle.typical * candle.volume
  else 0

def moneyFlowIndex (candles : List Candle) (period : ℕ) : List Value :=
  let positive := withPrevious (fun previous candle =>
    previous.map fun previous => moneyFlow true previous.typical candle) none candles
  let negative := withPrevious (fun previous candle =>
    previous.map fun previous => moneyFlow false previous.typical candle) none candles
  List.zipWith (both moneyFlowIndexValue) (sma positive period) (sma negative period)

structure MoneyFlowIndexState where
  previousPrice : Option ℚ
  positive : SmaState
  negative : SmaState

namespace MoneyFlowIndexState

/-- A state that has seen nothing. -/
def new : MoneyFlowIndexState := ⟨none, .new, .new⟩

def update (period : ℕ) (state : MoneyFlowIndexState) (candle : Candle) :
    MoneyFlowIndexState × Value :=
  let gain := SmaState.update period state.positive
    (state.previousPrice.map fun previousPrice => moneyFlow true previousPrice candle)
  let loss := SmaState.update period state.negative
    (state.previousPrice.map fun previousPrice => moneyFlow false previousPrice candle)
  (⟨some candle.typical, gain.1, loss.1⟩, both moneyFlowIndexValue gain.2 loss.2)

theorem outputs_update (period : ℕ) (previous : Option Candle) (positive negative : SmaState)
    (candles : List Candle) :
    outputs (update period) ⟨previous.map Candle.typical, positive, negative⟩ candles =
      List.zipWith (both moneyFlowIndexValue)
        (outputs (SmaState.update period) positive (withPrevious (fun previous candle =>
          previous.map fun previous => moneyFlow true previous.typical candle) previous candles))
        (outputs (SmaState.update period) negative (withPrevious (fun previous candle =>
          previous.map fun previous => moneyFlow false previous.typical candle)
          previous candles)) := by
  induction candles generalizing previous positive negative with
  | nil => rfl
  | cons candle candles ih =>
    have hstep : (update period ⟨previous.map Candle.typical, positive, negative⟩ candle) =
        (⟨some candle.typical,
          (SmaState.update period positive (previous.map fun previous =>
            moneyFlow true previous.typical candle)).1,
          (SmaState.update period negative (previous.map fun previous =>
            moneyFlow false previous.typical candle)).1⟩,
          both moneyFlowIndexValue
            (SmaState.update period positive (previous.map fun previous =>
              moneyFlow true previous.typical candle)).2
            (SmaState.update period negative (previous.map fun previous =>
              moneyFlow false previous.typical candle)).2) := by
      cases previous <;> rfl
    rw [outputs_cons, hstep]
    exact congrArg _ (ih (some candle) _ _)

/-- Fed candle by candle, the state gives the batch series. -/
theorem outputs_moneyFlow (period : ℕ) (candles : List Candle) :
    outputs (update period) new candles = moneyFlowIndex candles period := by
  have hrun := outputs_update period none .new .new candles
  rw [Option.map_none] at hrun
  rw [new, hrun, moneyFlowIndex]
  simp only [outputs_sma]

end MoneyFlowIndexState

end Indicators
end TradingSystem
