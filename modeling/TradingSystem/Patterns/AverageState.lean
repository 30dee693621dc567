import TradingSystem.Streaming.Transducer
import TradingSystem.Types.Enums

/-!
# The state of a candle average

The candlestick patterns compare a candle with the average range of the candles before it. This
is the state that keeps the average as candles arrive: a moving total, and two bounded buffers for
the ranges that enter and leave it and for the candle that is asked about. What a range is, and how
a total is taken, is left open: the total may be exact, or rounded at every step.

* `Averaging` — ranges, their totals, and the average that a total stands for.
* `movingTotal`, `valueAt` — the total at a target, and the average at a candle.
* `CandleAverageState.update_after` — one update, in terms of the candles alone.
* `CandleAverageState.run_eq` — no buffer is asked for what it no longer holds.
-/

namespace TradingSystem
namespace Patterns

open Streaming

/-! ### Settings -/

/-- What a setting measures of a candle. -/
inductive CandleRangeType
  | realBody | highLow | shadows
deriving DecidableEq, Repr

/-- The settings the patterns use. -/
inductive CandleSettingType
  | bodyLong | bodyVeryLong | bodyShort | bodyDoji | shadowLong | shadowVeryLong | shadowShort
  | shadowVeryShort | near | far | equal
deriving DecidableEq, Repr

/-- One candle setting. -/
structure CandleSetting where
  rangeType : CandleRangeType
  avgPeriod : ℕ
  factor : ℚ

/-- The setting of every type. -/
abbrev CandleSettings := CandleSettingType → CandleSetting

/-! ### Indexing -/

/-- Indexing of a list or a deque: a negative index counts from the end. -/
def item {α : Type} (xs : List α) (index : ℤ) : Except Fault α :=
  let index := if index < 0 then index + xs.length else index
  match xs[index.toNat]? with
  | some x => if index < 0 then .error (.lookupError "index out of range") else .ok x
  | none => .error (.lookupError "index out of range")

theorem item_eq {α : Type} {xs : List α} {index : ℕ} (h : index < xs.length) :
    item xs index = .ok xs[index] := by
  simp [item, h, show ¬ (index : ℤ) < 0 by omega]

theorem item_sub {α : Type} {xs : List α} {index offset : ℕ} (hle : offset ≤ index)
    (h : index - offset < xs.length) :
    item xs ((index : ℤ) - offset) = .ok xs[index - offset] := by
  rw [← Int.natCast_sub hle, item_eq h]

/-! ### Ranges and their totals -/

/-- An average over candles `κ` with values `α`: the period, the range of a candle, how ranges are
added and subtracted, and the average that a total of ranges stands for at a candle. -/
structure Averaging (κ α : Type) where
  avgPeriod : ℕ
  range : κ → α
  zero : α
  add : α → α → α
  sub : α → α → α
  average : α → κ → α

namespace Averaging

variable {κ α : Type} (averaging : Averaging κ α)

/-- A total with what it gains. -/
def gain (total : α) : Option α → α
  | none => total
  | some gained => averaging.add total gained

/-- What the moving total gains when its target moves past a range: the range, less the one that
leaves a full window. -/
def gainAt (ranges : List α) (target : ℕ) : Option α :=
  if averaging.avgPeriod = 0 then none
  else ranges[target]?.map fun added =>
    if averaging.avgPeriod ≤ target then
      (ranges[target - averaging.avgPeriod]?.map (averaging.sub added)).getD added
    else added

/-- The moving total at a target, as it comes about step by step. -/
def movingTotal (ranges : List α) : ℕ → α
  | 0 => averaging.zero
  | target + 1 =>
    averaging.gain (movingTotal ranges target) (averaging.gainAt ranges target)

/-- The average at a candle, once its target has a full window before it. -/
def valueAt (targetOffset : ℕ) (candles : List κ) (index : ℕ) : Option α :=
  if averaging.avgPeriod + targetOffset ≤ index then
    candles[index - targetOffset]?.map (averaging.average
      (averaging.movingTotal (candles.map averaging.range) (index - targetOffset)))
  else none

variable {averaging} {ranges : List α} {target : ℕ}

/-- A window that is full loses a range. -/
theorem gainAt_full (hperiod : averaging.avgPeriod ≠ 0) (h : target < ranges.length)
    (hfull : averaging.avgPeriod ≤ target) :
    averaging.gainAt ranges target =
      some (averaging.sub ranges[target] ranges[target - averaging.avgPeriod]) := by
  rw [gainAt, if_neg hperiod, List.getElem?_eq_getElem h, Option.map_some, if_pos hfull,
    List.getElem?_eq_getElem (by omega)]
  rfl

/-- A window that is not full loses none. -/
theorem gainAt_filling (hperiod : averaging.avgPeriod ≠ 0) (h : target < ranges.length)
    (hfilling : ¬ averaging.avgPeriod ≤ target) :
    averaging.gainAt ranges target = some ranges[target] := by
  rw [gainAt, if_neg hperiod, List.getElem?_eq_getElem h, Option.map_some, if_neg hfilling]

/-- The total does not read the ranges from its target on. -/
theorem movingTotal_append (h : target ≤ ranges.length) (more : List α) :
    averaging.movingTotal (ranges ++ more) target = averaging.movingTotal ranges target := by
  induction target with
  | zero => rfl
  | succ target ih =>
    rw [movingTotal, movingTotal, ih (Nat.le_of_succ_le h), gainAt, gainAt,
      List.getElem?_append_left (by omega), List.getElem?_append_left (by omega)]

/-- Without a period nothing is totalled. -/
theorem movingTotal_of_period_zero (h : averaging.avgPeriod = 0) :
    averaging.movingTotal ranges target = averaging.zero := by
  induction target with
  | zero => rfl
  | succ target ih => rw [movingTotal, gainAt, if_pos h, ih, gain]

theorem valueAt_eq {targetOffset index : ℕ} {candles : List κ}
    (hready : averaging.avgPeriod + targetOffset ≤ index)
    (h : index - targetOffset < candles.length) :
    averaging.valueAt targetOffset candles index = some (averaging.average
      (averaging.movingTotal (candles.map averaging.range) (index - targetOffset))
      candles[index - targetOffset]) := by
  rw [valueAt, if_pos hready, List.getElem?_eq_getElem h, Option.map_some]

end Averaging

/-! ### The state -/

structure CandleAverageState (κ α : Type) where
  seen : ℕ
  periodTotal : α
  current : Option α
  rangeBuffer : List α
  candleBuffer : List κ
  firstRangeIndex : ℤ
  firstCandleIndex : ℤ

namespace CandleAverageState

variable {κ α : Type} (averaging : Averaging κ α)

/-- A state that has seen nothing. -/
def new : CandleAverageState κ α := ⟨0, averaging.zero, none, [], [], 0, 0⟩

def maxRangeBufferLength (targetOffset : ℕ) : ℕ := max 1 (averaging.avgPeriod + targetOffset + 2)

def maxCandleBufferLength (targetOffset : ℕ) : ℕ := targetOffset + 1

def appendRange (targetOffset : ℕ) (state : CandleAverageState κ α) (value : α) :
    CandleAverageState κ α :=
  let buffer := state.rangeBuffer ++ [value]
  if maxRangeBufferLength averaging targetOffset < buffer.length then
    { state with rangeBuffer := buffer.tail, firstRangeIndex := state.firstRangeIndex + 1 }
  else { state with rangeBuffer := buffer }

def appendCandle (targetOffset : ℕ) (state : CandleAverageState κ α) (candle : κ) :
    CandleAverageState κ α :=
  let buffer := state.candleBuffer ++ [candle]
  if maxCandleBufferLength targetOffset < buffer.length then
    { state with candleBuffer := buffer.tail, firstCandleIndex := state.firstCandleIndex + 1 }
  else { state with candleBuffer := buffer }

def rangeAt (state : CandleAverageState κ α) (index : ℤ) : Except Fault α :=
  let position := index - state.firstRangeIndex
  if position < 0 ∨ (state.rangeBuffer.length : ℤ) ≤ position then
    .error (.lookupError "range buffer does not hold requested index")
  else item state.rangeBuffer position

def candleAt (state : CandleAverageState κ α) (index : ℤ) : Except Fault κ :=
  let position := index - state.firstCandleIndex
  if position < 0 ∨ (state.candleBuffer.length : ℤ) ≤ position then
    .error (.lookupError "candle buffer does not hold requested index")
  else item state.candleBuffer position

/-- What the moving total gains at a target. -/
def totalChange (state : CandleAverageState κ α) (targetIndex : ℤ) : Except Fault (Option α) :=
  let addIndex := targetIndex - 1
  let subtractIndex := targetIndex - averaging.avgPeriod - 1
  if 0 ≤ addIndex then do
    let added ← state.rangeAt addIndex
    if 0 ≤ subtractIndex then
      let removed ← state.rangeAt subtractIndex
      return some (averaging.sub added removed)
    else return some added
  else .ok none

/-- The part of `update` that counts and buffers the candle. -/
def buffered (targetOffset : ℕ) (state : CandleAverageState κ α) (candle : κ) :
    CandleAverageState κ α :=
  let state := { state with seen := state.seen + 1 }
  let state := appendRange averaging targetOffset state (averaging.range candle)
  appendCandle targetOffset state candle

def update (targetOffset : ℕ) (state : CandleAverageState κ α) (candle : κ) :
    Except Fault (CandleAverageState κ α × Option α) := do
  let candleIndex := state.seen
  let state := buffered averaging targetOffset state candle
  let targetIndex : ℤ := candleIndex - targetOffset
  if averaging.avgPeriod = 0 then
    if targetIndex < 0 then return ({ state with current := none }, none)
    else
      let target ← state.candleAt targetIndex
      let value := averaging.average averaging.zero target
      return ({ state with current := some value }, some value)
  else
    let gained ← totalChange averaging state targetIndex
    let state := { state with periodTotal := averaging.gain state.periodTotal gained }
    if targetIndex < averaging.avgPeriod then return ({ state with current := none }, none)
    else
      let target ← state.candleAt targetIndex
      let value := averaging.average state.periodTotal target
      return ({ state with current := some value }, some value)

/-- The values of `update` for candles fed one by one. -/
def run (targetOffset : ℕ) (candles : List κ) : Except Fault (List (Option α)) :=
  outputsM (update averaging targetOffset) (new averaging) candles

end CandleAverageState

/-! ### Buffers of bounded length -/

/-- The index of the first element a buffer of bounded length holds. -/
def firstIndex {α : Type} (length : ℕ) (xs : List α) : ℤ := (xs.length - length : ℕ)

theorem firstIndex_concat {α : Type} (length : ℕ) (xs : List α) (x : α) :
    firstIndex length (xs ++ [x]) =
      if length < (xs.rtake length ++ [x]).length then firstIndex length xs + 1
      else firstIndex length xs := by
  rw [List.length_append, length_rtake, List.length_singleton]
  simp only [firstIndex, List.length_append, List.length_singleton]
  split <;> omega

/-- An element a buffer of bounded length still holds is found at its index. -/
theorem item_rtake {α : Type} {length : ℕ} {xs : List α} {index : ℕ} (h : index < xs.length)
    (hlength : xs.length ≤ index + length) :
    ¬ ((index : ℤ) - firstIndex length xs < 0 ∨
        ((xs.rtake length).length : ℤ) ≤ index - firstIndex length xs) ∧
      item (xs.rtake length) (index - firstIndex length xs) = .ok xs[index] := by
  have hrtake : (xs.rtake length).length = min length xs.length := length_rtake length xs
  have hindex : (index : ℤ) - firstIndex length xs = (index - (xs.length - length) : ℕ) := by
    rw [firstIndex]
    omega
  have hinside : index - (xs.length - length) < (xs.rtake length).length := by
    rw [hrtake, lt_min_iff]
    omega
  rw [hindex, item_eq hinside]
  constructor
  · rintro (hbefore | hbeyond)
    · exact absurd hbefore (Int.natCast_nonneg _).not_gt
    · exact absurd (Int.ofNat_le.1 hbeyond) hinside.not_ge
  · simp only [List.rtake, List.getElem_drop]
    congr 2
    omega

/-! ### The state after some candles -/

namespace CandleAverageState

section Run

variable {κ α : Type} {averaging : Averaging κ α}

/-- What a buffer of ranges holds of the values appended to it. -/
theorem appendRange_eq {targetOffset : ℕ} {state : CandleAverageState κ α} (values : List α)
    (hbuffer : state.rangeBuffer = values.rtake (maxRangeBufferLength averaging targetOffset))
    (hfirst : state.firstRangeIndex =
      firstIndex (maxRangeBufferLength averaging targetOffset) values) (value : α) :
    appendRange averaging targetOffset state value =
      { state with
        rangeBuffer := (values ++ [value]).rtake (maxRangeBufferLength averaging targetOffset)
        firstRangeIndex := firstIndex
          (maxRangeBufferLength averaging targetOffset) (values ++ [value]) } := by
  rw [appendRange, hbuffer, hfirst, firstIndex_concat, ← push_rtake, push]
  split <;> rfl

/-- What a buffer of candles holds of the candles appended to it. -/
theorem appendCandle_eq {targetOffset : ℕ} {state : CandleAverageState κ α} (candles : List κ)
    (hbuffer : state.candleBuffer = candles.rtake (maxCandleBufferLength targetOffset))
    (hfirst : state.firstCandleIndex =
      firstIndex (maxCandleBufferLength targetOffset) candles) (candle : κ) :
    appendCandle targetOffset state candle =
      { state with
        candleBuffer := (candles ++ [candle]).rtake (maxCandleBufferLength targetOffset)
        firstCandleIndex := firstIndex (maxCandleBufferLength targetOffset)
          (candles ++ [candle]) } := by
  rw [appendCandle, hbuffer, hfirst, firstIndex_concat, ← push_rtake, push]
  split <;> rfl

variable (averaging) in
/-- The state after some candles. -/
def after (targetOffset : ℕ) (candles : List κ) : CandleAverageState κ α where
  seen := candles.length
  periodTotal := averaging.movingTotal (candles.map averaging.range)
    (candles.length - 1 - targetOffset)
  current := if candles.isEmpty then none
    else averaging.valueAt targetOffset candles (candles.length - 1)
  rangeBuffer := (candles.map averaging.range).rtake (maxRangeBufferLength averaging targetOffset)
  candleBuffer := candles.rtake (maxCandleBufferLength targetOffset)
  firstRangeIndex := firstIndex (maxRangeBufferLength averaging targetOffset)
    (candles.map averaging.range)
  firstCandleIndex := firstIndex (maxCandleBufferLength targetOffset) candles

theorem after_nil (targetOffset : ℕ) : after averaging targetOffset [] = new averaging := by
  simp [after, new, Averaging.movingTotal, firstIndex, List.rtake]

/-- The target candle is still held. -/
theorem candleAt_eq {targetOffset : ℕ} {state : CandleAverageState κ α} {candles : List κ}
    (hbuffer : state.candleBuffer = candles.rtake (maxCandleBufferLength targetOffset))
    (hfirst : state.firstCandleIndex = firstIndex (maxCandleBufferLength targetOffset) candles)
    {index : ℕ} (h : index < candles.length)
    (hlength : candles.length ≤ index + maxCandleBufferLength targetOffset) :
    state.candleAt index = .ok candles[index] := by
  obtain ⟨hinside, hitem⟩ := item_rtake h hlength
  rw [candleAt, hbuffer, hfirst, if_neg hinside, hitem]

/-- The ranges that enter and leave the moving total are still held. -/
theorem rangeAt_eq {targetOffset : ℕ} {state : CandleAverageState κ α} {values : List α}
    (hbuffer : state.rangeBuffer = values.rtake (maxRangeBufferLength averaging targetOffset))
    (hfirst : state.firstRangeIndex =
      firstIndex (maxRangeBufferLength averaging targetOffset) values)
    {index : ℕ} (h : index < values.length)
    (hlength : values.length ≤ index + maxRangeBufferLength averaging targetOffset) :
    state.rangeAt index = .ok values[index] := by
  obtain ⟨hinside, hitem⟩ := item_rtake h hlength
  rw [rangeAt, hbuffer, hfirst, if_neg hinside, hitem]

/-- The moving total gains what the total at the target gains. -/
theorem totalChange_eq {targetOffset : ℕ} {state : CandleAverageState κ α} {values : List α}
    {last : ℕ} (hperiod : averaging.avgPeriod ≠ 0) (hlast : values.length = last + 1)
    (hbuffer : state.rangeBuffer = values.rtake (maxRangeBufferLength averaging targetOffset))
    (hfirst : state.firstRangeIndex =
      firstIndex (maxRangeBufferLength averaging targetOffset) values) :
    totalChange averaging state ((last : ℤ) - targetOffset) = .ok
      (if targetOffset + 1 ≤ last then averaging.gainAt values (last - 1 - targetOffset)
      else none) := by
  set period := averaging.avgPeriod with hperiod_eq
  have hheld : maxRangeBufferLength averaging targetOffset = period + targetOffset + 2 := by
    rw [maxRangeBufferLength]
    omega
  rw [totalChange]
  by_cases hadd : targetOffset + 1 ≤ last
  · set target := last - 1 - targetOffset with htarget
    rw [if_pos (by omega), if_pos hadd,
      show (last : ℤ) - targetOffset - 1 = target by omega,
      rangeAt_eq hbuffer hfirst (by omega) (by omega)]
    simp only [bind, Except.bind, ← hperiod_eq]
    -- a range leaves only once the window is full, and the buffer reaches back to it
    by_cases hsubtract : period ≤ target
    · have hleft : (last : ℤ) - targetOffset - period - 1 = (target - period : ℕ) := by omega
      rw [if_pos (by omega), Averaging.gainAt_full hperiod (by omega) hsubtract, hleft,
        rangeAt_eq hbuffer hfirst (by omega) (by omega)]
      rfl
    · rw [if_neg (by omega), Averaging.gainAt_filling hperiod (by omega) hsubtract]
      rfl
  · rw [if_neg (by omega), if_neg hadd]

/-- A candle is read without the running total. -/
theorem candleAt_withTotal (state : CandleAverageState κ α) (total : α) (index : ℤ) :
    ({ state with periodTotal := total } : CandleAverageState κ α).candleAt index =
      state.candleAt index := rfl

section Update

variable (averaging : Averaging κ α) (targetOffset : ℕ) (candles : List κ) (candle : κ)

theorem ranges_concat : (candles ++ [candle]).map averaging.range =
    candles.map averaging.range ++ [averaging.range candle] := by
  simp

/-- The total of the state, read off the ranges with the next candle. -/
theorem periodTotal_after : (after averaging targetOffset candles).periodTotal =
    averaging.movingTotal ((candles ++ [candle]).map averaging.range)
      (candles.length - 1 - targetOffset) := by
  rw [ranges_concat, Averaging.movingTotal_append (by simp; omega)]
  rfl

/-- The total moves on with the target, which it does from the second candle behind the offset. -/
theorem movingTotal_next :
    averaging.gain
        (averaging.movingTotal ((candles ++ [candle]).map averaging.range)
          (candles.length - 1 - targetOffset))
        (if targetOffset + 1 ≤ candles.length then
          averaging.gainAt ((candles ++ [candle]).map averaging.range)
            (candles.length - 1 - targetOffset)
        else none) =
      averaging.movingTotal ((candles ++ [candle]).map averaging.range)
        (candles.length - targetOffset) := by
  split
  · rename_i hmoves
    rw [show candles.length - targetOffset = candles.length - 1 - targetOffset + 1 by omega]
    rfl
  · rw [show candles.length - targetOffset = candles.length - 1 - targetOffset by omega]
    rfl

/-- The next state: everything is read off the candles with the next one. -/
theorem after_concat : after averaging targetOffset (candles ++ [candle]) =
    { seen := candles.length + 1
      periodTotal := averaging.movingTotal ((candles ++ [candle]).map averaging.range)
        (candles.length - targetOffset)
      current := averaging.valueAt targetOffset (candles ++ [candle]) candles.length
      rangeBuffer := ((candles ++ [candle]).map averaging.range).rtake
        (maxRangeBufferLength averaging targetOffset)
      candleBuffer := (candles ++ [candle]).rtake (maxCandleBufferLength targetOffset)
      firstRangeIndex := firstIndex (maxRangeBufferLength averaging targetOffset)
        ((candles ++ [candle]).map averaging.range)
      firstCandleIndex := firstIndex (maxCandleBufferLength targetOffset)
        (candles ++ [candle]) } := by
  have hlength : (candles ++ [candle]).length - 1 = candles.length := by simp
  have hne : ¬ (candles ++ [candle]).isEmpty = true := by simp
  rw [after, hlength, if_neg hne, List.length_append, List.length_singleton]

/-- Both buffers have taken the candle; the total and the value are still the earlier ones. -/
theorem buffered_after :
    buffered averaging targetOffset (after averaging targetOffset candles) candle =
      { after averaging targetOffset (candles ++ [candle]) with
        periodTotal := (after averaging targetOffset candles).periodTotal
        current := (after averaging targetOffset candles).current } := by
  rw [buffered, appendRange_eq (candles.map averaging.range) rfl rfl,
    appendCandle_eq candles rfl rfl, after_concat, ranges_concat]
  rfl

/-- With the total at the new target, and the value there, that is the next state. -/
theorem after_of_buffered {total : α}
    (htotal : total = averaging.movingTotal ((candles ++ [candle]).map averaging.range)
      (candles.length - targetOffset)) :
    ({ buffered averaging targetOffset (after averaging targetOffset candles) candle with
        periodTotal := total
        current := averaging.valueAt targetOffset (candles ++ [candle]) candles.length } :
          CandleAverageState κ α) =
      after averaging targetOffset (candles ++ [candle]) := by
  rw [buffered_after, htotal, after_concat]

theorem target_lt : candles.length - targetOffset < (candles ++ [candle]).length := by
  rw [List.length_append, List.length_singleton]
  omega

/-- The new target is read from the buffer. -/
theorem candleAt_buffered (htarget : candles.length - targetOffset < (candles ++ [candle]).length)
    (h : targetOffset ≤ candles.length) :
    (buffered averaging targetOffset (after averaging targetOffset candles) candle).candleAt
      ((candles.length : ℤ) - targetOffset) =
      .ok (candles ++ [candle])[candles.length - targetOffset] := by
  rw [← Int.natCast_sub h, buffered_after]
  exact candleAt_eq rfl rfl htarget (by simp [maxCandleBufferLength]; omega)

/-- The total of the buffered state with what it gains is the total at the new target. -/
theorem totalChange_buffered (hperiod : averaging.avgPeriod ≠ 0) :
    ∃ gained, totalChange averaging
        (buffered averaging targetOffset (after averaging targetOffset candles) candle)
        ((candles.length : ℤ) - targetOffset) = .ok gained ∧
      averaging.gain (after averaging targetOffset candles).periodTotal gained =
        averaging.movingTotal ((candles ++ [candle]).map averaging.range)
          (candles.length - targetOffset) := by
  rw [periodTotal_after averaging targetOffset candles candle, buffered_after]
  exact ⟨_, totalChange_eq hperiod (by simp) rfl rfl,
    movingTotal_next averaging targetOffset candles candle⟩

/-- **One update** reaches the next state, and its value is the average there. -/
theorem update_after :
    update averaging targetOffset (after averaging targetOffset candles) candle =
      .ok (after averaging targetOffset (candles ++ [candle]),
        averaging.valueAt targetOffset (candles ++ [candle]) candles.length) := by
  have htarget := target_lt targetOffset candles candle
  have hread := candleAt_buffered averaging targetOffset candles candle htarget
  have hvalue (h : averaging.avgPeriod + targetOffset ≤ candles.length) :=
    averaging.valueAt_eq h htarget
  have hnone (h : ¬ averaging.avgPeriod + targetOffset ≤ candles.length) :
      averaging.valueAt targetOffset (candles ++ [candle]) candles.length = none :=
    if_neg h
  have hreached (total : α) (htotal : total = _) :=
    after_of_buffered averaging targetOffset candles candle htotal
  have htotal : (buffered averaging targetOffset
      (after averaging targetOffset candles) candle).periodTotal =
      (after averaging targetOffset candles).periodTotal := by
    rw [buffered_after]
  have hseen : (after averaging targetOffset candles).seen = candles.length := rfl
  have hgained := totalChange_buffered averaging targetOffset candles candle
  -- the state with the new candle in its buffers, before the total moves
  set state := buffered averaging targetOffset
    (after averaging targetOffset candles) candle with hstate
  simp only [update, ← hstate, hseen]
  by_cases hzero : averaging.avgPeriod = 0
  · -- without a period there is nothing to total
    have hkept : state.periodTotal = averaging.movingTotal
        ((candles ++ [candle]).map averaging.range) (candles.length - targetOffset) := by
      rw [htotal, Averaging.movingTotal_of_period_zero hzero]
      exact Averaging.movingTotal_of_period_zero hzero
    rw [if_pos hzero, ← hreached state.periodTotal hkept]
    by_cases hbefore : candles.length < targetOffset
    · rw [if_pos (by omega), hnone (by omega)]
      rfl
    · rw [if_neg (by omega), hread (by omega), hvalue (by omega),
        Averaging.movingTotal_of_period_zero hzero]
      rfl
  · -- otherwise one range enters the total and one leaves it
    obtain ⟨gained, hchange, hmoved⟩ := hgained hzero
    rw [if_neg hzero, hchange, ← hreached _ rfl]
    simp only [bind, Except.bind, htotal, hmoved]
    by_cases hbefore : candles.length < averaging.avgPeriod + targetOffset
    · rw [if_pos (by omega), hnone (by omega)]
      rfl
    · rw [if_neg (by omega), candleAt_withTotal, hread (by omega), hvalue (by omega)]
      rfl

end Update

/-- The average at a candle does not read the candles after it. -/
theorem valueAt_take (targetOffset : ℕ) (candles : List κ) {index : ℕ}
    (h : index < candles.length) :
    averaging.valueAt targetOffset (candles.take (index + 1)) index =
      averaging.valueAt targetOffset candles index := by
  have htotal : averaging.movingTotal ((candles.take (index + 1)).map averaging.range)
        (index - targetOffset) =
      averaging.movingTotal (candles.map averaging.range) (index - targetOffset) := by
    rw [← List.take_append_drop (index + 1) candles, List.map_append,
      Averaging.movingTotal_append (by simp; omega), List.take_append_drop]
  rw [Averaging.valueAt, Averaging.valueAt, htotal, List.getElem?_take,
    if_pos (show index - targetOffset < index + 1 by omega)]

/-- **The values of the state** are the averages at its candles. -/
theorem run_eq (targetOffset : ℕ) (candles : List κ) :
    run averaging targetOffset candles =
      .ok ((List.range candles.length).map (averaging.valueAt targetOffset candles)) := by
  have hstep (seen : List κ) (candle : κ) :
      update averaging targetOffset (after averaging targetOffset seen) candle =
        .ok (after averaging targetOffset (seen ++ [candle]),
          averaging.valueAt targetOffset (seen ++ [candle]) ((seen ++ [candle]).length - 1)) := by
    rw [update_after, List.length_append, List.length_singleton, Nat.add_sub_cancel]
  have hrun := outputsM_eq_prefixes (after averaging targetOffset)
    (fun seen => averaging.valueAt targetOffset seen (seen.length - 1)) hstep candles
  rw [after_nil] at hrun
  rw [run, hrun, prefixes]
  -- a prefix is judged at its last candle
  refine congrArg Except.ok (List.map_congr_left fun index hindex => ?_)
  have hlt : index < candles.length := List.mem_range.1 hindex
  rw [List.length_take, show min (index + 1) candles.length - 1 = index by omega,
    valueAt_take targetOffset candles hlt]

end Run

end CandleAverageState

end Patterns
end TradingSystem
