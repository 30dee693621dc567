import TradingSystem.Indicators.Systems

/-!
# Relative strength and the Schaff cycle

The relative strength of any series, and the three-part Connors form of it; the MACD line and the
two stochastic stages of the Schaff trend cycle.

* `RSIValueState.outputs_rsi` — fed value by value, the state gives `rsiFromValues`.
* `ConnorsRSIState.outputs_connors`, `SchaffTrendCycleState.outputs_schaff` — fed candle by
  candle, the states give the batch series.
-/

namespace TradingSystem
namespace Indicators

open Streaming

/-- The close prices of candles. -/
def closePrices (candles : List Candle) : List ℚ := candles.map Candle.close

/-! ### Relative strength -/

def rsiValue (averageGain averageLoss : ℚ) : ℚ :=
  if averageLoss = 0 then 100
  else if averageGain = 0 then 0
  else 100 - 100 / (1 + averageGain / averageLoss)

/-- The gains or the losses of neighbours; the first value has none. -/
def changesOf (part : ℚ → ℚ) (values : List ℚ) : List Value :=
  NAN :: List.zipWith (fun previous current => some (part (current - previous))) values values.tail

/-- The gain of a change. -/
def gain (change : ℚ) : ℚ := max change 0

/-- The loss of a change. -/
def loss (change : ℚ) : ℚ := max (-change) 0

def rsiFromValues (values : List ℚ) (period : ℕ) : List Value :=
  let averageGains := rma (changesOf gain values) period
  let averageLosses := rma (changesOf loss values) period
  List.zipWith (both rsiValue) averageGains averageLosses

def rsi (candles : List Candle) (period : ℕ) : List Value :=
  rsiFromValues (closePrices candles) period

structure RSIValueState where
  previous : Option ℚ
  gains : RecursiveAverageState
  losses : RecursiveAverageState
  value : Value

namespace RSIValueState

/-- A state that has seen nothing. -/
def new : RSIValueState := ⟨none, .new, .new, NAN⟩

/-- The last value, replaced where both averages are defined. -/
def refresh (last averageGain averageLoss : Value) : Value :=
  match averageGain, averageLoss with
  | some averageGain, some averageLoss => some (rsiValue averageGain averageLoss)
  | _, _ => last

def update (period : ℕ) (state : RSIValueState) (value : ℚ) : RSIValueState × Value :=
  match state.previous with
  | none => ({ state with previous := some value }, NAN)
  | some previous =>
    let gains := RmaState.update period state.gains (some (gain (value - previous)))
    let losses := RmaState.update period state.losses (some (loss (value - previous)))
    let rsi := refresh state.value gains.2 losses.2
    (⟨some value, gains.1, losses.1, rsi⟩, rsi)

end RSIValueState

/-- An average is never lost. -/
theorem RmaState.value_of_none (period : ℕ) (state : RecursiveAverageState) (x : ℚ)
    (h : (RmaState.update period state (some x)).1.value = none) : state.value = none := by
  obtain ⟨seed, value⟩ := state
  cases value with
  | none => rfl
  | some current => simp [RmaState.update, RecursiveAverageState.update] at h

/-- The part of a change, undefined for the first value. -/
def changeFrom (part : ℚ → ℚ) (previous : Option ℚ) (value : ℚ) : Value :=
  previous.map fun previous => part (value - previous)

theorem changesOf_eq (part : ℚ → ℚ) {values : List ℚ} (h : values ≠ []) :
    changesOf part values = withPrevious (changeFrom part) none values := by
  cases values with
  | nil => exact absurd rfl h
  | cons value values =>
    rw [withPrevious_cons, withPrevious_some]
    rfl

namespace RSIValueState

/-- Until both averages are defined the state has no value, so it never shows an old one. -/
theorem outputs_after (period : ℕ) {state : RSIValueState} {previous : ℚ}
    (hprevious : state.previous = some previous)
    (hvalue : state.gains.value = none ∨ state.losses.value = none → state.value = none)
    (values : List ℚ) :
    outputs (update period) state values = List.zipWith (both rsiValue)
      (outputs (RmaState.update period) state.gains
        (withPrevious (changeFrom gain) (some previous) values))
      (outputs (RmaState.update period) state.losses
        (withPrevious (changeFrom loss) (some previous) values)) := by
  induction values generalizing state previous with
  | nil => rfl
  | cons value values ih =>
    obtain ⟨_, gains, losses, last⟩ := state
    obtain rfl := hprevious
    simp only at hvalue
    set gains' := RmaState.update period gains (some (gain (value - previous))) with hgains
    set losses' := RmaState.update period losses (some (loss (value - previous))) with hlosses
    -- the value kept from before shows only while an average is missing, and then it is none
    have hshown : refresh last gains'.2 losses'.2 = both rsiValue gains'.2 losses'.2 := by
      cases hgain : gains'.2 with
      | none =>
        exact hvalue (.inl (RmaState.value_of_none period gains _ hgain))
      | some averageGain =>
        cases hloss : losses'.2 with
        | none => exact hvalue (.inr (RmaState.value_of_none period losses _ hloss))
        | some averageLoss => rfl
    have hkept : gains'.1.value = none ∨ losses'.1.value = none →
        refresh last gains'.2 losses'.2 = none := by
      intro hnone
      rw [hshown]
      rcases hnone with hnone | hnone
      · rw [show gains'.2 = none from hnone, both_none_left]
      · rw [show losses'.2 = none from hnone, both_none_right]
    rw [outputs_cons, withPrevious_cons, withPrevious_cons, outputs_cons, outputs_cons,
      List.zipWith_cons_cons]
    exact congrArg₂ _ hshown (ih rfl hkept)

/-- Fed value by value, the state gives the batch series. -/
theorem outputs_rsi {period : ℕ} (hperiod : 0 < period) {values : List ℚ} (h : values ≠ []) :
    outputs (update period) new values = rsiFromValues values period := by
  rw [rsiFromValues, changesOf_eq gain h, changesOf_eq loss h]
  simp only [← outputs_rma hperiod]
  cases values with
  | nil => exact absurd rfl h
  | cons value values =>
    have hafter : outputs (update period) ⟨some value, .new, .new, NAN⟩ values = _ :=
      outputs_after period rfl (fun _ => rfl) values
    rw [outputs_cons, withPrevious_cons, withPrevious_cons, outputs_cons, outputs_cons,
      List.zipWith_cons_cons]
    exact congrArg _ hafter

end RSIValueState

/-- The update of `RSIState`. -/
def RSIState.update (period : ℕ) (state : RSIValueState) (candle : Candle) :
    RSIValueState × Value :=
  RSIValueState.update period state candle.close

theorem RSIState.outputs_update (period : ℕ) (state : RSIValueState) (candles : List Candle) :
    outputs (RSIState.update period) state candles =
      outputs (RSIValueState.update period) state (closePrices candles) := by
  induction candles generalizing state with
  | nil => rfl
  | cons candle candles ih =>
    rw [outputs_cons, ih]
    rfl

/-! ### The Connors form -/

/-- One step of `_streak_series`. -/
def streakStep (previous : Option ℚ) (streak value : ℚ) : ℚ :=
  match previous with
  | none => 0
  | some previous =>
    if value = previous then 0
    else if previous < value then (if 0 < streak then streak + 1 else 1)
    else if streak < 0 then streak - 1 else -1

/-- The loop of `_streak_series`. -/
def streakLoop : Option ℚ → ℚ → List ℚ → List ℚ
  | _, _, [] => []
  | previous, streak, value :: values =>
    let streak := streakStep previous streak value
    streak :: streakLoop (some value) streak values

def streakSeries (values : List ℚ) : List ℚ := streakLoop none 0 values

def percentRank (window : List Value) (value : Value) (period : ℕ) : Value :=
  match value with
  | none => NAN
  | some value =>
    if window.length < period ∨ window.any Option.isNone then NAN
    else some (100 * (window.reduceOption.countP (· < value) : ℕ) / period)

/-- The ranks of changes among the `period` changes before them. -/
def ranks (changes : List Value) (period : ℕ) : List Value :=
  (List.range changes.length).map fun index =>
    if index < period then NAN
    else percentRank ((changes.take index).drop (index - period)) (changes.getD index NAN) period

/-- The mean of three values; undefined where one is. -/
def meanOfThree (first second third : Value) : Value :=
  match first, second, third with
  | some x, some y, some z => some ((x + y + z) / 3)
  | _, _, _ => NAN

/-- The parameters that `connors_rsi` admits. -/
structure ConnorsParameters where
  rsiPeriod : ℕ
  streakPeriod : ℕ
  rankPeriod : ℕ
  rsi_pos : 0 < rsiPeriod
  streak_pos : 0 < streakPeriod
  rank_pos : 0 < rankPeriod

def connorsRsi (p : ConnorsParameters) (candles : List Candle) : List Value :=
  let priceRsi := rsiFromValues (closePrices candles) p.rsiPeriod
  let streakRsi := rsiFromValues (streakSeries (closePrices candles)) p.streakPeriod
  let changes := roc (closes candles) 1
  List.zipWith3 meanOfThree priceRsi streakRsi (ranks changes p.rankPeriod)

/-- The window of changes a `ConnorsRSIState` keeps. -/
abbrev RankWindow := List Value

/-- Rank a change against the window and append it. -/
def RankWindow.update (period : ℕ) (window : RankWindow) (change : Value) : RankWindow × Value :=
  (push period window change, percentRank window change period)

structure ConnorsRSIState where
  price : RSIValueState
  streakRsi : RSIValueState
  previousClose : Option ℚ
  streak : ℚ
  changes : RankWindow
  value : Value

namespace ConnorsRSIState

/-- A state that has seen nothing. -/
def new : ConnorsRSIState := ⟨.new, .new, none, 0, [], NAN⟩

def update (p : ConnorsParameters) (state : ConnorsRSIState) (candle : Candle) :
    ConnorsRSIState × Value :=
  let close := candle.close
  let streak := streakStep state.previousClose state.streak close
  let change := change state.previousClose (some close)
  let price := RSIValueState.update p.rsiPeriod state.price close
  let streakRsi := RSIValueState.update p.streakPeriod state.streakRsi streak
  let rank := RankWindow.update p.rankPeriod state.changes change
  let value := meanOfThree price.2 streakRsi.2 rank.2
  (⟨price.1, streakRsi.1, some close, streak, rank.1, value⟩, value)

end ConnorsRSIState

theorem outputs_rank (period : ℕ) (changes : List Value) :
    outputs (RankWindow.update period) [] changes = ranks changes period := by
  apply List.ext_getElem (by simp [ranks])
  intro i hi hi'
  have hlt : i < changes.length := by simpa using hi
  have hfinal : final (RankWindow.update period) [] (changes.take i) =
      (changes.take i).rtake period := foldl_push period (changes.take i)
  have hlength : (changes.take i).length = i := by simp; omega
  rw [getElem_outputs, hfinal, RankWindow.update]
  simp only [ranks, List.getElem_map, List.getElem_range, List.getD_eq_getElem?_getD,
    List.getElem?_eq_getElem hlt, Option.getD_some, List.rtake, hlength]
  by_cases hshort : i < period
  · rw [if_pos hshort]
    cases changes[i] with
    | none => rfl
    | some x =>
      simp only [percentRank]
      rw [if_pos]
      exact .inl (by rw [List.length_drop, hlength]; omega)
  · rw [if_neg hshort]

/-- The changes of neighbours. -/
theorem roc_one (values : List ℚ) :
    roc (values.map some) 1 =
      withPrevious (fun previous value => change previous (some value)) none values := by
  cases values with
  | nil => rfl
  | cons value values =>
    rw [withPrevious_cons, withPrevious_some]
    apply List.ext_getElem (by simp [length_roc])
    intro i hi hi'
    rw [getElem_roc]
    cases i with
    | zero => rfl
    | succ i =>
      have hlt : i < values.length := by simpa [length_roc] using hi
      have hlt' : i < (value :: values).length := by simp; omega
      rw [if_neg (by omega), Nat.add_sub_cancel, List.getElem_cons_succ, List.getElem_zipWith]
      simp only [List.getD_eq_getElem?_getD, List.getElem?_map, List.getElem?_eq_getElem hlt',
        List.getElem?_cons_succ, List.getElem?_eq_getElem hlt, Option.map_some, Option.getD_some]

theorem length_streakLoop (previous : Option ℚ) (streak : ℚ) (values : List ℚ) :
    (streakLoop previous streak values).length = values.length := by
  induction values generalizing previous streak with
  | nil => rfl
  | cons value values ih => simp [streakLoop, ih]

namespace ConnorsRSIState

/-- The values of a state are those of its three parts. -/
theorem outputs_update (p : ConnorsParameters) (state : ConnorsRSIState)
    (candles : List Candle) :
    outputs (update p) state candles = List.zipWith3 meanOfThree
      (outputs (RSIValueState.update p.rsiPeriod) state.price (closePrices candles))
      (outputs (RSIValueState.update p.streakPeriod) state.streakRsi
        (streakLoop state.previousClose state.streak (closePrices candles)))
      (outputs (RankWindow.update p.rankPeriod) state.changes
        (withPrevious (fun previous value => change previous (some value))
          state.previousClose (closePrices candles))) := by
  induction candles generalizing state with
  | nil => rfl
  | cons candle candles ih =>
    rw [outputs_cons, ih]
    rfl

/-- Fed candle by candle, the state gives the batch series. -/
theorem outputs_connors (p : ConnorsParameters) {candles : List Candle} (h : candles ≠ []) :
    outputs (update p) new candles = connorsRsi p candles := by
  have hcloses : closePrices candles ≠ [] := by simpa [closePrices] using h
  have hstreak : streakSeries (closePrices candles) ≠ [] := by
    rw [← List.length_pos_iff, streakSeries, length_streakLoop, List.length_pos_iff]
    exact hcloses
  have hchanges : roc (closes candles) 1 = withPrevious
      (fun previous value => change previous (some value)) none (closePrices candles) := by
    rw [← roc_one, closes, closePrices, List.map_map]
    rfl
  rw [outputs_update, connorsRsi]
  simp only [new, RSIValueState.outputs_rsi p.rsi_pos hcloses, outputs_rank, hchanges]
  rw [← streakSeries, RSIValueState.outputs_rsi p.streak_pos hstreak]

end ConnorsRSIState

/-! ### The MACD line -/

/-- The periods that `_macd_line` admits. -/
structure MacdPeriods where
  fastPeriod : ℕ
  slowPeriod : ℕ
  fast_pos : 0 < fastPeriod
  fast_lt_slow : fastPeriod < slowPeriod

theorem MacdPeriods.slow_pos (p : MacdPeriods) : 0 < p.slowPeriod :=
  p.fast_pos.trans p.fast_lt_slow

def macdLine (values : List Value) (p : MacdPeriods) : List Value :=
  List.zipWith (both (· - ·)) (ema values p.fastPeriod) (ema values p.slowPeriod)

structure MacdLineState where
  fast : RecursiveAverageState
  slow : RecursiveAverageState

namespace MacdLineState

/-- A state that has seen nothing. -/
def new : MacdLineState := ⟨.new, .new⟩

def update (p : MacdPeriods) (state : MacdLineState) (value : Value) : MacdLineState × Value :=
  let fast := EmaState.update p.fastPeriod state.fast value
  let slow := EmaState.update p.slowPeriod state.slow value
  (⟨fast.1, slow.1⟩, both (· - ·) fast.2 slow.2)

theorem outputs_update (p : MacdPeriods) (state : MacdLineState) (values : List Value) :
    outputs (update p) state values = List.zipWith (both (· - ·))
      (outputs (EmaState.update p.fastPeriod) state.fast values)
      (outputs (EmaState.update p.slowPeriod) state.slow values) := by
  induction values generalizing state with
  | nil => rfl
  | cons value values ih =>
    rw [outputs_cons, ih]
    rfl

theorem outputs_macdLine (p : MacdPeriods) (values : List Value) :
    outputs (update p) new values = macdLine values p := by
  rw [outputs_update, macdLine]
  simp only [new, outputs_ema p.fast_pos, outputs_ema p.slow_pos]

end MacdLineState

/-! ### The Schaff cycle -/

def schaffSmoothingFactor : ℚ := 1 / 2

/-- What a stage remembers: the last ratio and the smoothed one. -/
structure Ratio where
  previousRatio : ℚ
  smoothed : Option ℚ

/-- The ratio of a value in its window, smoothed. -/
def Ratio.step (state : Ratio) (value high low : Value) : Ratio × Value :=
  match value, high, low with
  | some value, some high, some low =>
    let ratio := safeDivide (100 * (value - low)) (high - low) state.previousRatio
    let smoothed := match state.smoothed with
      | none => ratio
      | some smoothed => smoothed + schaffSmoothingFactor * (ratio - smoothed)
    (⟨ratio, some smoothed⟩, some smoothed)
  | _, _, _ => (state, NAN)

/-- The loop of `_schaff_stage`. -/
def schaffLoop : Ratio → List Value → List Value → List Value → List Value
  | state, value :: values, high :: highs, low :: lows =>
    (state.step value high low).2 :: schaffLoop (state.step value high low).1 values highs lows
  | _, _, _, _ => []

def schaffStage (values : List Value) (period : ℕ) : List Value :=
  schaffLoop ⟨50, none⟩ values (hh values period) (ll values period)

structure SchaffStageState where
  highest : RollingExtremeState
  lowest : RollingExtremeState
  ratio : Ratio

namespace SchaffStageState

/-- A state that has seen nothing. -/
def new : SchaffStageState := ⟨.new, .new, ⟨50, none⟩⟩

def update (period : ℕ) (state : SchaffStageState) (value : Value) : SchaffStageState × Value :=
  let high := RollingExtremeState.update period true state.highest value
  let low := RollingExtremeState.update period false state.lowest value
  let ratio := state.ratio.step value high.2 low.2
  (⟨high.1, low.1, ratio.1⟩, ratio.2)

theorem outputs_update (period : ℕ) (state : SchaffStageState) (values : List Value) :
    outputs (update period) state values = schaffLoop state.ratio values
      (outputs (RollingExtremeState.update period true) state.highest values)
      (outputs (RollingExtremeState.update period false) state.lowest values) := by
  induction values generalizing state with
  | nil => rfl
  | cons value values ih =>
    rw [outputs_cons, ih]
    rfl

theorem outputs_schaffStage {period : ℕ} (hperiod : 0 < period) (values : List Value) :
    outputs (update period) new values = schaffStage values period := by
  rw [outputs_update, schaffStage]
  simp only [new, outputs_rollingExtreme hperiod]
  rfl

end SchaffStageState

/-- The parameters that `schaff_trend_cycle` admits. -/
structure SchaffParameters extends MacdPeriods where
  cyclePeriod : ℕ
  cycle_pos : 0 < cyclePeriod

def schaffTrendCycle (p : SchaffParameters) (candles : List Candle) : List Value :=
  let line := macdLine (closes candles) p.toMacdPeriods
  schaffStage (schaffStage line p.cyclePeriod) p.cyclePeriod

structure SchaffTrendCycleState where
  line : MacdLineState
  first : SchaffStageState
  second : SchaffStageState
  value : Value

namespace SchaffTrendCycleState

/-- A state that has seen nothing. -/
def new : SchaffTrendCycleState := ⟨.new, .new, .new, NAN⟩

def update (p : SchaffParameters) (state : SchaffTrendCycleState) (candle : Candle) :
    SchaffTrendCycleState × Value :=
  let line := MacdLineState.update p.toMacdPeriods state.line (some candle.close)
  let first := SchaffStageState.update p.cyclePeriod state.first line.2
  let second := SchaffStageState.update p.cyclePeriod state.second first.2
  (⟨line.1, first.1, second.1, second.2⟩, second.2)

theorem outputs_update (p : SchaffParameters) (state : SchaffTrendCycleState)
    (candles : List Candle) :
    outputs (update p) state candles =
      outputs (SchaffStageState.update p.cyclePeriod) state.second
        (outputs (SchaffStageState.update p.cyclePeriod) state.first
          (outputs (MacdLineState.update p.toMacdPeriods) state.line (closes candles))) := by
  induction candles generalizing state with
  | nil => rfl
  | cons candle candles ih =>
    rw [outputs_cons, ih]
    rfl

/-- Fed candle by candle, the state gives the batch series. -/
theorem outputs_schaff (p : SchaffParameters) (candles : List Candle) :
    outputs (update p) new candles = schaffTrendCycle p candles := by
  rw [outputs_update, schaffTrendCycle]
  simp only [new, MacdLineState.outputs_macdLine, SchaffStageState.outputs_schaffStage p.cycle_pos]

end SchaffTrendCycleState

end Indicators
end TradingSystem
