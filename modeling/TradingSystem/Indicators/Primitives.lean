import TradingSystem.Streaming.Transducer
import Mathlib.Algebra.Order.Field.Rat
import Mathlib.Algebra.Order.BigOperators.Group.List
import Mathlib.Data.Rat.Defs
import Mathlib.Algebra.Order.Group.Abs

/-!
# Indicator primitives

Values are rationals with an undefined value for NaN. Every primitive is written twice, as in the
source: a batch function over a whole series, and a state that is fed one value at a time.

* `sma` and `SmaState`, `ema`, `rma` and `RecursiveAverageState`, `hh`, `ll` and
  `RollingExtremeState`, `cumulative` and `CumulativeState`, `roc`, `mom` and `RocState`.
* `outputs_sma`, `outputs_ema`, `outputs_rma`, `outputs_cumulative` — a state gives the batch
  series.
-/

namespace TradingSystem
namespace Indicators

open Streaming

/-! ### Values and candles -/

/-- A float of the source: a rational, or NaN. -/
abbrev Value := Option ℚ

/-- The undefined value of a warm-up. -/
abbrev NAN : Value := none

/-- A confirmed candle: its prices are positive, its extremes enclose its open and close. -/
structure Candle where
  «open» : ℚ
  high : ℚ
  low : ℚ
  close : ℚ
  volume : ℚ
  open_pos : 0 < «open»
  low_pos : 0 < low
  close_pos : 0 < close
  open_le_high : «open» ≤ high
  close_le_high : close ≤ high
  low_le_open : low ≤ «open»
  low_le_close : low ≤ close
  volume_nonneg : 0 ≤ volume

namespace Candle

variable (candle : Candle)

theorem low_le_high : candle.low ≤ candle.high := candle.low_le_close.trans candle.close_le_high

theorem high_pos : 0 < candle.high := candle.low_pos.trans_le candle.low_le_high

theorem no_volume : (0 : ℚ) ≤ 0 := le_rfl

theorem price_pos (price : ℕ) (h : 0 < price) : (0 : ℚ) < price := Nat.cast_pos.2 h

/-- The candle of one price and no volume. -/
def flat (price : ℕ) (h : 0 < price) : Candle where
  «open» := price
  high := price
  low := price
  close := price
  volume := 0
  open_pos := price_pos price h
  low_pos := price_pos price h
  close_pos := price_pos price h
  open_le_high := le_rfl
  close_le_high := le_rfl
  low_le_open := le_rfl
  low_le_close := le_rfl
  volume_nonneg := no_volume

end Candle

/-- Division with a substitute for a zero denominator. -/
def safeDivide (numerator denominator onZero : ℚ) : ℚ :=
  if denominator = 0 then onZero else numerator / denominator

/-- Combine two values; undefined where either is. -/
def both (f : ℚ → ℚ → ℚ) (first second : Value) : Value :=
  match first, second with
  | some x, some y => some (f x y)
  | _, _ => NAN

@[simp] theorem both_some (f : ℚ → ℚ → ℚ) (x y : ℚ) :
    both f (some x) (some y) = some (f x y) := rfl

@[simp] theorem both_none_left (f : ℚ → ℚ → ℚ) (y : Value) : both f none y = none := rfl

@[simp] theorem both_none_right (f : ℚ → ℚ → ℚ) (x : Value) : both f x none = none := by
  cases x <;> rfl

theorem both_eq_some {f : ℚ → ℚ → ℚ} {first second : Value} {z : ℚ} :
    both f first second = some z ↔ ∃ x y, first = some x ∧ second = some y ∧ f x y = z := by
  cases first <;> cases second <;> simp

/-- `hl2`, the median price of a candle. -/
def Candle.median (candle : Candle) : ℚ := (candle.high + candle.low) / 2

/-- `tp`, the typical price of a candle. -/
def Candle.typical (candle : Candle) : ℚ := (candle.high + candle.low + candle.close) / 3

/-- The True Range of a candle, with the first-candle fallback. -/
def trueRange (previousClose : Option ℚ) (candle : Candle) : ℚ :=
  match previousClose with
  | none => candle.high - candle.low
  | some close => max (max (candle.high - candle.low) |candle.high - close|) |candle.low - close|

theorem sub_le_trueRange (previousClose : Option ℚ) (candle : Candle) :
    candle.high - candle.low ≤ trueRange previousClose candle := by
  cases previousClose with
  | none => exact le_refl _
  | some close => exact (le_max_left _ _).trans (le_max_left _ _)

theorem high_sub_le_trueRange (close : ℚ) (candle : Candle) :
    candle.high - close ≤ trueRange (some close) candle :=
  (le_abs_self _).trans ((le_max_right _ _).trans (le_max_left _ _))

theorem sub_low_le_trueRange (close : ℚ) (candle : Candle) :
    close - candle.low ≤ trueRange (some close) candle := by
  rw [← neg_sub]
  exact (neg_le_abs _).trans (le_max_right _ _)

theorem trueRange_nonneg (previousClose : Option ℚ) (candle : Candle) :
    0 ≤ trueRange previousClose candle :=
  (sub_nonneg.2 candle.low_le_high).trans (sub_le_trueRange previousClose candle)

def tr (candles : List Candle) : List ℚ :=
  withPrevious (fun previous candle => trueRange (previous.map Candle.close) candle) none candles

/-! ### The simple average -/

/-- The loop of `sma`. -/
def smaLoop (period : ℕ) : List Value → ℚ → ℤ → List Value → List Value
  | _, _, _, [] => []
  | window, total, invalid, value :: values =>
    let window := window ++ [value]
    let invalid := if value.isNone then invalid + 1 else invalid
    let total := total + value.getD 0
    let removed := if period < window.length then window.head? else none
    let window := if period < window.length then window.tail else window
    let invalid := if removed = some none then invalid - 1 else invalid
    let total := total - removed.join.getD 0
    (if window.length = period ∧ invalid = 0 then some (total / period) else NAN) ::
      smaLoop period window total invalid values

/-- `sma`: the rolling simple average. -/
def sma (values : List Value) (period : ℕ) : List Value := smaLoop period [] 0 0 values

structure SmaState where
  window : List Value
  total : ℚ
  invalid : ℤ

namespace SmaState

/-- A state that has seen nothing. -/
def new : SmaState := ⟨[], 0, 0⟩

/-- Whether a full, valid window is present. -/
def warmedUp (period : ℕ) (state : SmaState) : Prop :=
  state.window.length = period ∧ state.invalid = 0

instance (period : ℕ) (state : SmaState) : Decidable (state.warmedUp period) :=
  inferInstanceAs (Decidable (_ ∧ _))

/-- The average of a complete valid window. -/
def current (period : ℕ) (state : SmaState) : Value :=
  if state.warmedUp period then some (state.total / period) else NAN

/-- Count a value in. -/
def add (state : SmaState) : Value → SmaState
  | none => { state with window := state.window ++ [none], invalid := state.invalid + 1 }
  | some x => { state with window := state.window ++ [some x], total := state.total + x }

/-- Take the oldest value out of a window that is too long. -/
def evict (period : ℕ) (state : SmaState) : SmaState :=
  if period < state.window.length then
    match state.window with
    | [] => state
    | none :: rest => { state with window := rest, invalid := state.invalid - 1 }
    | some x :: rest => { state with window := rest, total := state.total - x }
  else state

/-- Add one value, evict the oldest, and return the current average. -/
def update (period : ℕ) (state : SmaState) (value : Value) : SmaState × Value :=
  let state := (state.add value).evict period
  (state, state.current period)

end SmaState

theorem SmaState.add_eq (state : SmaState) (value : Value) :
    state.add value = ⟨state.window ++ [value], state.total + value.getD 0,
      if value.isNone then state.invalid + 1 else state.invalid⟩ := by
  cases value <;> simp [SmaState.add]

theorem SmaState.evict_eq (period : ℕ) (state : SmaState) :
    state.evict period =
      let removed := if period < state.window.length then state.window.head? else none
      ⟨if period < state.window.length then state.window.tail else state.window,
        state.total - removed.join.getD 0,
        if removed = some none then state.invalid - 1 else state.invalid⟩ := by
  obtain ⟨window, total, invalid⟩ := state
  by_cases hlong : period < window.length
  · simp only [SmaState.evict, if_pos hlong]
    rcases window with _ | ⟨_ | oldest, rest⟩ <;> simp
  · simp [SmaState.evict, hlong]

theorem outputs_smaLoop (period : ℕ) (state : SmaState) (values : List Value) :
    outputs (SmaState.update period) state values =
      smaLoop period state.window state.total state.invalid values := by
  induction values generalizing state with
  | nil => rfl
  | cons value values ih =>
    rw [outputs_cons, ih, smaLoop]
    simp only [SmaState.update, SmaState.add_eq, SmaState.evict_eq]
    rfl

/-- Fed one by one, `SmaState` gives the series of `sma`. -/
theorem outputs_sma (period : ℕ) (values : List Value) :
    outputs (SmaState.update period) .new values = sma values period :=
  outputs_smaLoop period .new values

/-! ### Recursive averages -/

/-- The loop of `_recursive_average`. -/
def recursiveAverageLoop (period : ℕ) (alpha : ℚ) : List ℚ → Option ℚ → List Value → List Value
  | _, _, [] => []
  | seed, current, none :: values =>
    NAN :: recursiveAverageLoop period alpha (if current.isNone then [] else seed) current values
  | seed, none, some value :: values =>
    let seed := push period seed value
    if seed.length < period then NAN :: recursiveAverageLoop period alpha seed none values
    else
      let current := seed.sum / period
      some current :: recursiveAverageLoop period alpha seed (some current) values
  | seed, some current, some value :: values =>
    let current := current + alpha * (value - current)
    some current :: recursiveAverageLoop period alpha seed (some current) values

def recursiveAverage (values : List Value) (period : ℕ) (alpha : ℚ) : List Value :=
  recursiveAverageLoop period alpha [] none values

/-- The smoothing factor of an EMA. -/
def emaAlpha (period : ℕ) : ℚ := 2 / (period + 1)

/-- The smoothing factor of Wilder's average. -/
def rmaAlpha (period : ℕ) : ℚ := 1 / period

def ema (values : List Value) (period : ℕ) : List Value :=
  recursiveAverage values period (emaAlpha period)

def rma (values : List Value) (period : ℕ) : List Value :=
  recursiveAverage values period (rmaAlpha period)

structure RecursiveAverageState where
  seed : List ℚ
  value : Option ℚ

namespace RecursiveAverageState

/-- A state that has seen nothing. -/
def new : RecursiveAverageState := ⟨[], none⟩

/-- Whether the seed completed. -/
def warmedUp (state : RecursiveAverageState) : Prop := state.value.isSome

instance (state : RecursiveAverageState) : Decidable state.warmedUp :=
  inferInstanceAs (Decidable (_ = true))

/-- The recursive average, or NaN before the seed completes. -/
def current (state : RecursiveAverageState) : Value := state.value

/-- Advance one observation. -/
def update (period : ℕ) (alpha : ℚ) (state : RecursiveAverageState) :
    Value → RecursiveAverageState × Value
  | none => (if state.value.isNone then { state with seed := [] } else state, NAN)
  | some value =>
    let state := match state.value with
      | none =>
        let seed := state.seed ++ [value]
        if seed.length = period then ⟨[], some (seed.sum / period)⟩ else ⟨seed, none⟩
      | some current => { state with value := some (current + alpha * (value - current)) }
    (state, state.current)

end RecursiveAverageState

/-- The update of `EmaState`. -/
def EmaState.update (period : ℕ) :
    RecursiveAverageState → Value → RecursiveAverageState × Value :=
  RecursiveAverageState.update period (emaAlpha period)

/-- The update of `RmaState`. -/
def RmaState.update (period : ℕ) :
    RecursiveAverageState → Value → RecursiveAverageState × Value :=
  RecursiveAverageState.update period (rmaAlpha period)

section RecursiveAverage

variable {period : ℕ} {alpha : ℚ}

/-- Once there is an average the seed plays no part. -/
theorem outputs_recursiveAverage_value (state : RecursiveAverageState) {current : ℚ}
    (h : state.value = some current) (seed : List ℚ) (values : List Value) :
    outputs (RecursiveAverageState.update period alpha) state values =
      recursiveAverageLoop period alpha seed (some current) values := by
  induction values generalizing state current with
  | nil => rfl
  | cons value values ih =>
    obtain ⟨oldSeed, average⟩ := state
    obtain rfl : average = some current := h
    cases value with
    | none =>
      rw [outputs_cons, recursiveAverageLoop, ih _ rfl]
      rfl
    | some x =>
      rw [outputs_cons, recursiveAverageLoop, ih _ rfl]
      rfl

/-- Fed one by one, the state gives the series of `_recursive_average`. -/
theorem outputs_recursiveAverage_seed {seed : List ℚ} (hseed : seed.length < period)
    (values : List Value) :
    outputs (RecursiveAverageState.update period alpha) ⟨seed, none⟩ values =
      recursiveAverageLoop period alpha seed none values := by
  induction values generalizing seed with
  | nil => rfl
  | cons value values ih =>
    cases value with
    | none =>
      rw [outputs_cons, recursiveAverageLoop]
      exact congrArg _ (ih (by simp only [List.length_nil]; omega))
    | some x =>
      have hpush : push period seed x = seed ++ [x] := by
        rw [push, if_neg (by simp; omega)]
      rw [outputs_cons, recursiveAverageLoop, hpush]
      -- the last value of the seed starts the recursion
      by_cases hfull : (seed ++ [x]).length = period
      · rw [if_neg (by omega)]
        simp only [RecursiveAverageState.update, if_pos hfull]
        exact congrArg _ (outputs_recursiveAverage_value _ rfl _ _)
      · have hshort : (seed ++ [x]).length < period := by
          simp only [List.length_append, List.length_singleton] at hfull ⊢
          omega
        rw [if_pos hshort]
        simp only [RecursiveAverageState.update, if_neg hfull]
        exact congrArg _ (ih hshort)

theorem outputs_recursiveAverage (hperiod : 0 < period) (values : List Value) :
    outputs (RecursiveAverageState.update period alpha) .new values =
      recursiveAverage values period alpha :=
  outputs_recursiveAverage_seed hperiod values

theorem outputs_ema (hperiod : 0 < period) (values : List Value) :
    outputs (EmaState.update period) .new values = ema values period :=
  outputs_recursiveAverage hperiod values

theorem outputs_rma (hperiod : 0 < period) (values : List Value) :
    outputs (RmaState.update period) .new values = rma values period :=
  outputs_recursiveAverage hperiod values

end RecursiveAverage

/-! ### Rolling extremes -/

/-- Whether a candidate at the back of the queue gives way to a new value. -/
def givesWay (highest : Bool) (value : ℚ) (candidate : ℤ × ℚ) : Bool :=
  if highest then candidate.2 ≤ value else value ≤ candidate.2

/-- The candidates after a value at an index, those out of the window dropped. -/
def nextCandidates (period : ℕ) (highest : Bool) (candidates : List (ℤ × ℚ)) (index : ℕ)
    (value : Value) : List (ℤ × ℚ) :=
  let candidates := match value with
    | none => []
    | some x => candidates.rdropWhile (givesWay highest x) ++ [((index : ℤ), x)]
  candidates.dropWhile fun candidate => candidate.1 < (index : ℤ) - period + 1

/-- The entry of the result at an index; the slice reads the whole series. -/
def extremeAt (period : ℕ) (values : List Value) (candidates : List (ℤ × ℚ)) (index : ℕ) :
    Value :=
  match candidates with
  | [] => NAN
  | first :: _ =>
    if index + 1 < period then NAN
    else
      let window := (values.take (index + 1)).drop (index + 1 - period)
      if window.any Option.isNone then NAN else some first.2

/-- The loop of `_rolling_extreme`. -/
def rollingExtremeLoop (period : ℕ) (highest : Bool) (values : List Value) :
    List (ℤ × ℚ) → ℕ → List Value → List Value
  | _, _, [] => []
  | candidates, index, value :: rest =>
    let candidates := nextCandidates period highest candidates index value
    extremeAt period values candidates index ::
      rollingExtremeLoop period highest values candidates (index + 1) rest

def rollingExtreme (values : List Value) (period : ℕ) (highest : Bool) : List Value :=
  rollingExtremeLoop period highest values [] 0 values

/-- `hh`: the rolling highest value. -/
def hh (values : List Value) (period : ℕ) : List Value := rollingExtreme values period true

/-- `ll`: the rolling lowest value. -/
def ll (values : List Value) (period : ℕ) : List Value := rollingExtreme values period false

structure RollingExtremeState where
  candidates : List (ℤ × ℚ)
  window : List Value
  index : ℤ
  invalid : ℤ

namespace RollingExtremeState

/-- A state that has seen nothing. -/
def new : RollingExtremeState := ⟨[], [], -1, 0⟩

/-- Whether a full, valid window is present. -/
def warmedUp (period : ℕ) (state : RollingExtremeState) : Prop :=
  state.window.length = period ∧ state.invalid = 0

instance (period : ℕ) (state : RollingExtremeState) : Decidable (state.warmedUp period) :=
  inferInstanceAs (Decidable (_ ∧ _))

/-- The window extreme, or NaN while warming up. -/
def current (period : ℕ) (state : RollingExtremeState) : Value :=
  if state.warmedUp period then
    match state.candidates with
    | [] => NAN
    | first :: _ => some first.2
  else NAN

/-- Count a value in. -/
def add (highest : Bool) (state : RollingExtremeState) : Value → RollingExtremeState
  | none =>
    ⟨[], state.window ++ [none], state.index + 1, state.invalid + 1⟩
  | some x =>
    ⟨state.candidates.rdropWhile (givesWay highest x) ++ [(state.index + 1, x)],
      state.window ++ [some x], state.index + 1, state.invalid⟩

/-- Take the oldest value out of a window that is too long. -/
def evict (period : ℕ) (state : RollingExtremeState) : RollingExtremeState :=
  if period < state.window.length then
    match state.window with
    | [] => state
    | none :: rest => { state with window := rest, invalid := state.invalid - 1 }
    | some _ :: rest => { state with window := rest }
  else state

/-- Drop the candidates that left the window. -/
def expire (period : ℕ) (state : RollingExtremeState) : RollingExtremeState :=
  { state with candidates := state.candidates.dropWhile fun candidate =>
      candidate.1 < state.index - period + 1 }

/-- Add one value and return the extreme of the current window. -/
def update (period : ℕ) (highest : Bool) (state : RollingExtremeState) (value : Value) :
    RollingExtremeState × Value :=
  let state := ((state.add highest value).evict period).expire period
  (state, state.current period)

end RollingExtremeState

/-! ### Running total and rate of change -/

/-- The loop of `cumulative`. -/
def cumulativeLoop : ℚ → List Value → List Value
  | _, [] => []
  | total, none :: values => NAN :: cumulativeLoop total values
  | total, some value :: values => some (total + value) :: cumulativeLoop (total + value) values

/-- `cumulative`: the sum so far, undefined where the value is. -/
def cumulative (values : List Value) : List Value := cumulativeLoop 0 values

structure CumulativeState where
  total : ℚ
  seen : Bool

namespace CumulativeState

/-- A state that has seen nothing. -/
def new : CumulativeState := ⟨0, false⟩

/-- Add one value to the total and return it. -/
def update (state : CumulativeState) : Value → CumulativeState × Value
  | none => (state, NAN)
  | some value => (⟨state.total + value, true⟩, some (state.total + value))

end CumulativeState

theorem outputs_cumulative (values : List Value) :
    outputs CumulativeState.update .new values = cumulative values := by
  suffices h : ∀ state : CumulativeState,
      outputs CumulativeState.update state values = cumulativeLoop state.total values from h .new
  induction values with
  | nil => exact fun _ => rfl
  | cons value values ih =>
    intro state
    cases value <;> simp [cumulativeLoop, CumulativeState.update, ih]

/-- The percentage change from one value to another. -/
def change (previous current : Value) : Value :=
  match previous, current with
  | some x, some y => if x = 0 then NAN else some (100 * (y - x) / x)
  | _, _ => NAN

/-- The raw change from one value to another. -/
def momentum (previous current : Value) : Value := both (fun x y => y - x) previous current

/-- A change over `period` observations. -/
def lagged (change : Value → Value → Value) (values : List Value) (period : ℕ) : List Value :=
  List.replicate (min period values.length) NAN ++
    (List.range' period (values.length - period)).map fun index =>
      change (values.getD (index - period) NAN) (values.getD index NAN)

/-- `mom`: the raw momentum over `period` observations. -/
def mom (values : List Value) (period : ℕ) : List Value := lagged momentum values period

/-- `roc`: the percentage rate of change over `period` observations. -/
def roc (values : List Value) (period : ℕ) : List Value := lagged change values period

/-- The window of `RocState`, a deque of `period + 1` values. -/
abbrev RocState := List Value

namespace RocState

/-- The change that a state reports, in percent or raw. -/
def changeOf (percentage : Bool) : Value → Value → Value :=
  if percentage then change else momentum

/-- The change against the lookback, or NaN while warming up. -/
def current (percentage : Bool) (period : ℕ) (state : RocState) : Value :=
  if state.length = period + 1 then changeOf percentage (state.headD NAN) (state.getLastD NAN)
  else NAN

/-- Add one value and return the change against the lookback. -/
def update (percentage : Bool) (period : ℕ) (state : RocState) (value : Value) :
    RocState × Value :=
  let state := push (period + 1) state value
  (state, current percentage period state)

end RocState

end Indicators
end TradingSystem
