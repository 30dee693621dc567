import TradingSystem.Indicators.Systems

/-!
# The Klinger volume oscillator

A candle's volume force depends on the trend of its prices and on the ranges since the trend last
turned. Two averages of the force are contrasted and the contrast is smoothed.

* `KlingerVolumeOscillatorState.outputs_klinger` — fed candle by candle, the state gives the batch
  series.
-/

namespace TradingSystem
namespace Indicators

open Streaming

def hlcSum (candle : Candle) : ℚ := candle.high + candle.low + candle.close

/-- `_klinger_step`: the force, the trend and the cumulative range. -/
def klingerStep (candle previous : Candle) (previousTrend : Option ℚ) (cumulativeRange : ℚ) :
    ℚ × ℚ × ℚ :=
  let span := candle.high - candle.low
  let trend := if hlcSum previous < hlcSum candle then 1 else -1
  let cumulative := if previousTrend = some trend then cumulativeRange + span
    else (previous.high - previous.low) + span
  if cumulative = 0 then (0, trend, cumulative)
  else (candle.volume * |2 * (span / cumulative) - 1| * trend * 100, trend, cumulative)

/-- The parameters that `klinger_volume_oscillator` admits. -/
structure KlingerParameters where
  shortPeriod : ℕ
  longPeriod : ℕ
  signalPeriod : ℕ
  short_pos : 0 < shortPeriod
  signal_pos : 0 < signalPeriod
  short_lt_long : shortPeriod < longPeriod

theorem KlingerParameters.long_pos (p : KlingerParameters) : 0 < p.longPeriod :=
  p.short_pos.trans p.short_lt_long

structure KlingerValue where
  kvo : Value
  signal : Value
deriving DecidableEq

/-- The loop of the forces from the second candle on. -/
def klingerForcesLoop (previous : Candle) : Option ℚ → ℚ → List Candle → List Value
  | _, _, [] => []
  | trend, cumulative, candle :: candles =>
    let step := klingerStep candle previous trend cumulative
    some step.1 :: klingerForcesLoop candle (some step.2.1) step.2.2 candles

/-- The forces of candles; the first has none. -/
def klingerForces : List Candle → List Value
  | [] => []
  | candle :: candles => NAN :: klingerForcesLoop candle none 0 candles

/-- The difference of two averages. -/
def difference (first second : Value) : Value := both (· - ·) first second

def klingerVolumeOscillator (p : KlingerParameters) (candles : List Candle) :
    List KlingerValue :=
  let forces := klingerForces candles
  let oscillator := List.zipWith difference (ema forces p.shortPeriod) (ema forces p.longPeriod)
  List.zipWith KlingerValue.mk oscillator (ema oscillator p.signalPeriod)

/-- What a state remembers for the force of the next candle. -/
structure KlingerForceState where
  previous : Option Candle
  trend : Option ℚ
  cumulative : ℚ

/-- The force of a candle. -/
def KlingerForceState.update (state : KlingerForceState) (candle : Candle) :
    KlingerForceState × Value :=
  match state.previous with
  | none => ({ state with previous := some candle }, NAN)
  | some previous =>
    let step := klingerStep candle previous state.trend state.cumulative
    (⟨some candle, some step.2.1, step.2.2⟩, some step.1)

structure KlingerVolumeOscillatorState where
  force : KlingerForceState
  fast : RecursiveAverageState
  slow : RecursiveAverageState
  signal : RecursiveAverageState
  value : KlingerValue

namespace KlingerVolumeOscillatorState

/-- A state that has seen nothing. -/
def new : KlingerVolumeOscillatorState := ⟨⟨none, none, 0⟩, .new, .new, .new, ⟨NAN, NAN⟩⟩

def update (p : KlingerParameters) (state : KlingerVolumeOscillatorState) (candle : Candle) :
    KlingerVolumeOscillatorState × KlingerValue :=
  let force := state.force.update candle
  let fast := EmaState.update p.shortPeriod state.fast force.2
  let slow := EmaState.update p.longPeriod state.slow force.2
  let oscillator := difference fast.2 slow.2
  let signal := EmaState.update p.signalPeriod state.signal oscillator
  let value := ⟨oscillator, signal.2⟩
  (⟨force.1, fast.1, slow.1, signal.1, value⟩, value)

end KlingerVolumeOscillatorState

/-! ### Parity -/

theorem outputs_forceLoop (previous : Candle) (trend : Option ℚ) (cumulative : ℚ)
    (candles : List Candle) :
    outputs KlingerForceState.update ⟨some previous, trend, cumulative⟩ candles =
      klingerForcesLoop previous trend cumulative candles := by
  induction candles generalizing previous trend cumulative with
  | nil => rfl
  | cons candle candles ih =>
    rw [outputs_cons, klingerForcesLoop]
    exact congrArg _ (ih candle _ _)

theorem outputs_force (candles : List Candle) :
    outputs KlingerForceState.update ⟨none, none, 0⟩ candles = klingerForces candles := by
  cases candles with
  | nil => rfl
  | cons candle candles => exact congrArg _ (outputs_forceLoop candle none 0 candles)

namespace KlingerVolumeOscillatorState

/-- The values of a state are those of its averages. -/
theorem outputs_update (p : KlingerParameters) (state : KlingerVolumeOscillatorState)
    (candles : List Candle) :
    outputs (update p) state candles =
      let forces := outputs KlingerForceState.update state.force candles
      let oscillator := List.zipWith difference
        (outputs (EmaState.update p.shortPeriod) state.fast forces)
        (outputs (EmaState.update p.longPeriod) state.slow forces)
      List.zipWith KlingerValue.mk oscillator
        (outputs (EmaState.update p.signalPeriod) state.signal oscillator) := by
  induction candles generalizing state with
  | nil => rfl
  | cons candle candles ih =>
    rw [outputs_cons, ih]
    rfl

/-- Fed candle by candle, the state gives the batch series. -/
theorem outputs_klinger (p : KlingerParameters) (candles : List Candle) :
    outputs (update p) new candles = klingerVolumeOscillator p candles := by
  rw [outputs_update, klingerVolumeOscillator]
  simp only [new, outputs_force, outputs_ema p.short_pos, outputs_ema p.long_pos,
    outputs_ema p.signal_pos]

end KlingerVolumeOscillatorState

end Indicators
end TradingSystem
