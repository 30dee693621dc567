import TradingSystem.Indicators.Systems

/-!
# The directional system

Wilder's directional movement: the moves of the extremes and the True Range are smoothed, the
smoothed moves as shares of the smoothed range are the two directional indicators, and their
contrast is smoothed once more.

* `DMIState.outputs_dmi` — fed candle by candle, `DMIState` gives the series of `dmi`.
-/

namespace TradingSystem
namespace Indicators

open Streaming

def directionalMovement (previous current : Candle) : ℚ × ℚ :=
  let upMove := current.high - previous.high
  let downMove := previous.low - current.low
  (if downMove < upMove ∧ 0 < upMove then upMove else 0,
    if upMove < downMove ∧ 0 < downMove then downMove else 0)

def directionalIndex (plus minus : ℚ) : ℚ :=
  100 * safeDivide |plus - minus| (plus + minus) 0

structure DmiValue where
  plusDi : Value
  minusDi : Value
  adx : Value
  adxr : Value
deriving DecidableEq

/-- A directional indicator, where all three smoothed series are defined. -/
def directionalIndicator (span plus minus move : Value) : Value :=
  match span, plus, minus, move with
  | some span, some _, some _, some move => some (100 * safeDivide move span 0)
  | _, _, _, _ => NAN

/-- The two indicators and their contrast. -/
def directional (span plus minus : Value) : Value :=
  both directionalIndex (directionalIndicator span plus minus plus)
    (directionalIndicator span plus minus minus)

/-- The mean of an average and an earlier one. -/
def rating (adx earlier : Value) : Value := both (fun x y => (x + y) / 2) adx earlier

/-- A candle's share of a move, undefined for the first candle. -/
def moves (move : Candle → Candle → ℚ) (candles : List Candle) : List Value :=
  NAN :: List.zipWith (fun previous current => some (move previous current)) candles candles.tail

/-- The averages `period` candles earlier. -/
def earlierBy (period : ℕ) (average : List Value) : List Value :=
  (List.range average.length).map fun index =>
    if period ≤ index then average.getD (index - period) NAN else NAN

def dmi (candles : List Candle) (period : ℕ) : List DmiValue :=
  let plusMoves := moves (fun previous current => (directionalMovement previous current).1) candles
  let minusMoves := moves (fun previous current => (directionalMovement previous current).2) candles
  let ranges := NAN :: (tr candles).tail.map some
  let smoothedRange := rma ranges period
  let smoothedPlus := rma plusMoves period
  let smoothedMinus := rma minusMoves period
  let plusIndicators := List.zipWith3 (fun span plus minus =>
    directionalIndicator span plus minus plus) smoothedRange smoothedPlus smoothedMinus
  let minusIndicators := List.zipWith3 (fun span plus minus =>
    directionalIndicator span plus minus minus) smoothedRange smoothedPlus smoothedMinus
  let average := rma (List.zipWith3 directional smoothedRange smoothedPlus smoothedMinus) period
  List.zipWith4 DmiValue.mk plusIndicators minusIndicators average
    (List.zipWith rating average (earlierBy period average))

/-- The averages a `DMIState` has seen. -/
abbrev History := List Value

/-- Append an average and read the one `period` places before it. -/
def History.update (period : ℕ) (history : History) (adx : Value) : History × Value :=
  let history := history ++ [adx]
  (history, if period < history.length then history.getD (history.length - 1 - period) NAN else NAN)

structure DMIState where
  previous : Option Candle
  range : RecursiveAverageState
  plus : RecursiveAverageState
  minus : RecursiveAverageState
  average : RecursiveAverageState
  history : History
  value : DmiValue

namespace DMIState

/-- A state that has seen nothing. -/
def new : DMIState := ⟨none, .new, .new, .new, .new, [], ⟨NAN, NAN, NAN, NAN⟩⟩

def update (period : ℕ) (state : DMIState) (candle : Candle) : DMIState × DmiValue :=
  let span := state.previous.map fun previous => trueRange (some previous.close) candle
  let plusMove := state.previous.map fun previous => (directionalMovement previous candle).1
  let minusMove := state.previous.map fun previous => (directionalMovement previous candle).2
  let range := RmaState.update period state.range span
  let plus := RmaState.update period state.plus plusMove
  let minus := RmaState.update period state.minus minusMove
  let plusIndicator := directionalIndicator range.2 plus.2 minus.2 plus.2
  let minusIndicator := directionalIndicator range.2 plus.2 minus.2 minus.2
  let average := RmaState.update period state.average (directional range.2 plus.2 minus.2)
  let history := History.update period state.history average.2
  let value := ⟨plusIndicator, minusIndicator, average.2, rating average.2 history.2⟩
  (⟨some candle, range.1, plus.1, minus.1, average.1, history.1, value⟩, value)

end DMIState

/-! ### Parity -/

theorem outputs_history (period : ℕ) (average : List Value) :
    outputs (History.update period) [] average = earlierBy period average := by
  -- the state is what it has seen, so each output is read off a prefix
  have hprefixes : outputs (History.update period) [] average =
      prefixes (fun seen => if period < seen.length then
        seen.getD (seen.length - 1 - period) NAN else NAN) average := by
    apply outputs_eq_prefixes
    intro xs x
    have hfinal : final (History.update period) [] xs = xs := by
      induction xs using List.reverseRecOn with
      | nil => rfl
      | append_singleton xs x ih => rw [final_concat, ih]; rfl
    rw [hfinal]
    rfl
  rw [hprefixes]
  apply List.ext_getElem (by simp [earlierBy])
  intro i hi hi'
  have hlt : i < average.length := by simpa using hi
  have hlength : (average.take (i + 1)).length = i + 1 := by simp; omega
  rw [getElem_prefixes, hlength]
  simp only [earlierBy, List.getElem_map, List.getElem_range]
  by_cases hle : period ≤ i
  · rw [if_pos (by omega), if_pos hle, Nat.add_sub_cancel, List.getD_eq_getElem?_getD,
      List.getElem?_take_of_lt (by omega), List.getD_eq_getElem?_getD]
  · rw [if_neg (by omega), if_neg hle]

/-- Moves of neighbours are undefined first and then those of a candle and the one before it. -/
theorem moves_eq (move : Candle → Candle → ℚ) {candles : List Candle} (h : candles ≠ []) :
    moves move candles = withPrevious (fun previous candle =>
      previous.map fun previous => move previous candle) none candles := by
  cases candles with
  | nil => exact absurd rfl h
  | cons candle candles =>
    rw [withPrevious_cons, withPrevious_some]
    rfl

theorem ranges_eq {candles : List Candle} (h : candles ≠ []) :
    NAN :: (tr candles).tail.map some = withPrevious (fun previous candle =>
      previous.map fun previous => trueRange (some previous.close) candle) none candles := by
  cases candles with
  | nil => exact absurd rfl h
  | cons candle candles =>
    rw [tr, withPrevious_cons, withPrevious_cons, withPrevious_some, withPrevious_some,
      List.tail_cons, List.map_zipWith]
    rfl

namespace DMIState

/-- The values of a state are those of its averages. -/
theorem outputs_update (period : ℕ) (state : DMIState) (candles : List Candle) :
    outputs (update period) state candles =
      let range := outputs (RmaState.update period) state.range
        (withPrevious (fun previous candle =>
          previous.map fun previous => trueRange (some previous.close) candle)
          state.previous candles)
      let plus := outputs (RmaState.update period) state.plus
        (withPrevious (fun previous candle =>
          previous.map fun previous => (directionalMovement previous candle).1)
          state.previous candles)
      let minus := outputs (RmaState.update period) state.minus
        (withPrevious (fun previous candle =>
          previous.map fun previous => (directionalMovement previous candle).2)
          state.previous candles)
      let average := outputs (RmaState.update period) state.average
        (List.zipWith3 directional range plus minus)
      List.zipWith4 DmiValue.mk
        (List.zipWith3 (fun span plus minus => directionalIndicator span plus minus plus)
          range plus minus)
        (List.zipWith3 (fun span plus minus => directionalIndicator span plus minus minus)
          range plus minus) average
        (List.zipWith rating average (outputs (History.update period) state.history average)) := by
  induction candles generalizing state with
  | nil => rfl
  | cons candle candles ih =>
    rw [outputs_cons, ih]
    rfl

/-- Fed candle by candle, the state gives the batch series. -/
theorem outputs_dmi {period : ℕ} (hperiod : 0 < period) {candles : List Candle}
    (h : candles ≠ []) : outputs (update period) new candles = dmi candles period := by
  rw [outputs_update, dmi]
  simp only [new, outputs_rma hperiod, outputs_history, moves_eq _ h, ranges_eq h]

end DMIState

end Indicators
end TradingSystem
