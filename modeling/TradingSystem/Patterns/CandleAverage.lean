import TradingSystem.Indicators.Primitives
import TradingSystem.Patterns.AverageState

/-!
# Candle averages

The source computes the average range before a candle three times: directly, as a series with a
moving total, and in a state that keeps two bounded buffers. Over the rationals, where a moving
total loses nothing, the three agree.

* `averageOf` — the average of a target candle over the ranges before it.
* `rational` — the exact arithmetic of an average, which the state is run in.
* `candleAverageAt_eq`, `candleAverageSeries_eq`, `run_rational` — each of the three gives it,
  without an index error.
* `candleAverages_agree` — all of it.
-/

namespace TradingSystem
namespace Patterns

open Streaming Indicators

/-! ### Ranges of a candle -/

def realBody (candle : Candle) : ℚ := |candle.close - candle.open|

def upperShadow (candle : Candle) : ℚ :=
  candle.high - if candle.open ≤ candle.close then candle.close else candle.open

def lowerShadow (candle : Candle) : ℚ :=
  (if candle.open ≤ candle.close then candle.open else candle.close) - candle.low

def highLowRange (candle : Candle) : ℚ := candle.high - candle.low

def candleRange (settings : CandleSettings) (settingType : CandleSettingType)
    (candle : Candle) : ℚ :=
  match (settings settingType).rangeType with
  | .realBody => realBody candle
  | .highLow => highLowRange candle
  | .shadows => upperShadow candle + lowerShadow candle

def candleAverage (settings : CandleSettings) (settingType : CandleSettingType)
    (periodTotal : ℚ) (candle : Candle) : ℚ :=
  let setting := settings settingType
  let average :=
    if setting.avgPeriod ≠ 0 then periodTotal / setting.avgPeriod
    else candleRange settings settingType candle
  let divisor := if setting.rangeType = .shadows then 2 else 1
  setting.factor * average / divisor

/-! ### Direct and batch -/

variable (settings : CandleSettings) (settingType : CandleSettingType)

/-- The loop that sums the ranges of `count` candles from an index on. -/
def totalLoop (candles : List Candle) : ℕ → ℕ → ℚ → Except Fault ℚ
  | _, 0, total => .ok total
  | index, count + 1, total => do
    let candle ← item candles index
    totalLoop candles (index + 1) count (total + candleRange settings settingType candle)

def candlePeriodTotalAt (candles : List Candle) (targetIndex : ℤ) : Except Fault ℚ :=
  if targetIndex < 0 ∨ (candles.length : ℤ) ≤ targetIndex then
    .error (.lookupError "target_index is outside candles")
  else
    let avgPeriod := (settings settingType).avgPeriod
    if avgPeriod = 0 then .ok 0
    else if targetIndex < avgPeriod then
      .error (.valueError "not enough candles before target_index")
    else totalLoop settings settingType candles (targetIndex - avgPeriod).toNat avgPeriod 0

def candleAverageAt (candles : List Candle) (targetIndex : ℤ) : Except Fault ℚ := do
  let periodTotal ← candlePeriodTotalAt settings settingType candles targetIndex
  let candle ← item candles targetIndex
  return candleAverage settings settingType periodTotal candle

/-- The loop of `candle_average_series` over `count` current candles. -/
def seriesLoop (candles : List Candle) (targetOffset : ℕ) :
    ℕ → ℕ → ℚ → ℕ → Except Fault (List (Option ℚ))
  | _, _, _, 0 => .ok []
  | currentIndex, trailingIndex, periodTotal, count + 1 => do
    let target ← item candles ((currentIndex : ℤ) - targetOffset)
    let value := candleAverage settings settingType periodTotal target
    let trailing ← item candles trailingIndex
    let periodTotal := periodTotal + (candleRange settings settingType target -
      candleRange settings settingType trailing)
    let values ← seriesLoop candles targetOffset (currentIndex + 1) (trailingIndex + 1)
      periodTotal count
    return some value :: values

/-- The loop of `candle_average_series` for an average period of zero. -/
def plainLoop (candles : List Candle) (targetOffset : ℕ) :
    ℕ → ℕ → Except Fault (List (Option ℚ))
  | _, 0 => .ok []
  | currentIndex, count + 1 => do
    let target ← item candles ((currentIndex : ℤ) - targetOffset)
    let values ← plainLoop candles targetOffset (currentIndex + 1) count
    return some (candleAverage settings settingType 0 target) :: values

def candleAverageSeries (candles : List Candle) (targetOffset : ℕ) :
    Except Fault (List (Option ℚ)) :=
  let avgPeriod := (settings settingType).avgPeriod
  let firstCurrentIndex := avgPeriod + targetOffset
  let undefined := List.replicate (min firstCurrentIndex candles.length) none
  if candles.length ≤ firstCurrentIndex then .ok undefined
  else if avgPeriod = 0 then do
    let values ← plainLoop settings settingType candles targetOffset targetOffset
      (candles.length - targetOffset)
    return undefined ++ values
  else do
    let targetIndex := firstCurrentIndex - targetOffset
    let trailingIndex := targetIndex - avgPeriod
    let periodTotal ← totalLoop settings settingType candles trailingIndex avgPeriod 0
    let values ← seriesLoop settings settingType candles targetOffset firstCurrentIndex
      trailingIndex periodTotal (candles.length - firstCurrentIndex)
    return undefined ++ values

/-- The average over exact numbers. -/
def rational : Averaging Candle ℚ where
  avgPeriod := (settings settingType).avgPeriod
  range := candleRange settings settingType
  zero := 0
  add total gained := total + gained
  sub added removed := added - removed
  average := candleAverage settings settingType

/-! ### The average before a target -/

section Averages

variable {settings settingType}

/-- The ranges of the candles. -/
def ranges (settings : CandleSettings) (settingType : CandleSettingType)
    (candles : List Candle) : List ℚ :=
  candles.map (candleRange settings settingType)

/-- The sum of at most `period` values before a place. -/
def sumBefore (period : ℕ) (values : List ℚ) (target : ℕ) : ℚ :=
  ((values.take target).drop (target - period)).sum

/-- The sum moves with the place. -/
theorem sumBefore_succ (period : ℕ) (values : List ℚ) {target : ℕ} (h : target < values.length) :
    sumBefore period values (target + 1) = sumBefore period values target +
      (values[target] - if period ≤ target then values.getD (target - period) 0 else 0) := by
  have htake : values.take (target + 1) = values.take target ++ [values[target]] :=
    take_succ_eq_concat h
  have hlength : (values.take target).length = target := by simp; omega
  split
  · rename_i hle
    rcases Nat.eq_zero_or_pos period with rfl | hpos
    · rw [sumBefore, sumBefore]
      simp [h]
    · have hdrop : (values.take target).drop (target - period) = values.getD (target - period) 0 ::
          (values.take target).drop (target + 1 - period) := by
        rw [List.drop_eq_getElem_cons (by omega), List.getElem_take, List.getD_eq_getElem?_getD,
          List.getElem?_eq_getElem (by omega), Option.getD_some,
          show target - period + 1 = target + 1 - period by omega]
      rw [sumBefore, sumBefore, htake, List.drop_append_of_le_length (by omega), hdrop,
        List.sum_append, List.sum_cons, List.sum_cons, List.sum_nil]
      ring
  · rename_i hle
    rw [sumBefore, sumBefore, htake, show target + 1 - period = 0 by omega,
      show target - period = 0 by omega, List.drop_zero, List.drop_zero, List.sum_append,
      List.sum_cons, List.sum_nil, sub_zero, add_zero]

/-- The average of a target candle over the ranges before it. -/
def averageOf (settings : CandleSettings) (settingType : CandleSettingType)
    (candles : List Candle) (target : ℕ) : Option ℚ :=
  candles[target]?.map (candleAverage settings settingType
    (sumBefore (settings settingType).avgPeriod (ranges settings settingType candles) target))

/-- The entry of the series at a current index. -/
def averageAt (settings : CandleSettings) (settingType : CandleSettingType) (targetOffset : ℕ)
    (candles : List Candle) (index : ℕ) : Option ℚ :=
  if (settings settingType).avgPeriod + targetOffset ≤ index then
    averageOf settings settingType candles (index - targetOffset)
  else none

theorem totalLoop_eq (settings : CandleSettings) (settingType : CandleSettingType)
    {candles : List Candle} (count index : ℕ) (total : ℚ)
    (h : index + count ≤ candles.length) :
    totalLoop settings settingType candles index count total = .ok (total +
      (((ranges settings settingType candles).take (index + count)).drop index).sum) := by
  induction count generalizing index total with
  | zero => simp [totalLoop]
  | succ count ih =>
    -- one value leaves the window as the next one enters
    have hdrop : ((ranges settings settingType candles).take (index + (count + 1))).drop index =
        candleRange settings settingType candles[index] ::
          ((ranges settings settingType candles).take (index + 1 + count)).drop (index + 1) := by
      rw [List.drop_eq_getElem_cons (by simp [ranges]; omega), List.getElem_take]
      simp [ranges, show index + (count + 1) = index + 1 + count by omega]
    rw [totalLoop, item_eq (by omega), hdrop, List.sum_cons, ← add_assoc]
    exact ih (index + 1) _ (by omega)

theorem averageOf_eq {candles : List Candle} {target : ℕ} (h : target < candles.length) :
    averageOf settings settingType candles target = some (candleAverage settings settingType
      (sumBefore (settings settingType).avgPeriod (ranges settings settingType candles) target)
      candles[target]) := by
  rw [averageOf, List.getElem?_eq_getElem h, Option.map_some]

/-- An average period of zero reads the target candle alone. -/
theorem candleAverage_zero (h : (settings settingType).avgPeriod = 0) (total : ℚ)
    (candle : Candle) :
    candleAverage settings settingType total candle =
      candleAverage settings settingType 0 candle := by
  simp [candleAverage, h]

/-! ### Direct -/

/-- The direct average is the average before the target. -/
theorem candleAverageAt_eq (settings : CandleSettings) (settingType : CandleSettingType)
    {candles : List Candle} {target : ℕ}
    (hperiod : (settings settingType).avgPeriod ≤ target) (h : target < candles.length) :
    candleAverageAt settings settingType candles target = .ok (candleAverage settings settingType
      (sumBefore (settings settingType).avgPeriod (ranges settings settingType candles) target)
      candles[target]) := by
  rw [candleAverageAt, candlePeriodTotalAt, if_neg (by omega), item_eq h]
  by_cases hzero : (settings settingType).avgPeriod = 0
  · rw [if_pos hzero, candleAverage_zero hzero]
    rfl
  · rw [if_neg hzero, if_neg (by omega),
      show ((target : ℤ) - (settings settingType).avgPeriod).toNat =
        target - (settings settingType).avgPeriod by omega,
      totalLoop_eq _ _ _ _ _ (by omega), Nat.sub_add_cancel hperiod, zero_add]
    rfl

/-- Otherwise the direct average is refused. -/
theorem candleAverageAt_error (settings : CandleSettings) (settingType : CandleSettingType)
    (candles : List Candle) {target : ℤ}
    (h : target < (settings settingType).avgPeriod ∨ (candles.length : ℤ) ≤ target) :
    candleAverageAt settings settingType candles target =
      .error (if target < 0 ∨ (candles.length : ℤ) ≤ target then
        .lookupError "target_index is outside candles"
      else .valueError "not enough candles before target_index") := by
  rw [candleAverageAt, candlePeriodTotalAt]
  by_cases houtside : target < 0 ∨ (candles.length : ℤ) ≤ target
  · rw [if_pos houtside, if_pos houtside]
    rfl
  · rw [if_neg houtside, if_neg houtside, if_neg (by omega), if_pos (by omega)]
    rfl

/-! ### Batch -/

/-- One round of the batch loop. -/
theorem seriesLoop_eq (settings : CandleSettings) (settingType : CandleSettingType)
    {candles : List Candle} {targetOffset : ℕ} (count current : ℕ)
    (hfirst : (settings settingType).avgPeriod + targetOffset ≤ current)
    (hlast : current + count ≤ candles.length) :
    seriesLoop settings settingType candles targetOffset current
      (current - targetOffset - (settings settingType).avgPeriod)
      (sumBefore (settings settingType).avgPeriod (ranges settings settingType candles)
        (current - targetOffset)) count =
      .ok ((List.range' current count).map
        (averageAt settings settingType targetOffset candles)) := by
  induction count generalizing current with
  | zero => rfl
  | succ count ih =>
    have hlength : (ranges settings settingType candles).length = candles.length := by
      simp [ranges]
    -- one step moves the window by one candle
    have htotal := sumBefore_succ (settings settingType).avgPeriod
      (ranges settings settingType candles) (show current - targetOffset < _ by omega)
    rw [if_pos (by omega), List.getD_eq_getElem?_getD, List.getElem?_eq_getElem (by omega),
      Option.getD_some] at htotal
    simp only [ranges, List.getElem_map] at htotal
    have hrest := ih (current + 1) (by omega) (by omega)
    rw [show current + 1 - targetOffset = current - targetOffset + 1 by omega,
      show current - targetOffset + 1 - (settings settingType).avgPeriod =
        current - targetOffset - (settings settingType).avgPeriod + 1 by omega] at hrest
    simp only [ranges] at hrest
    rw [htotal] at hrest
    -- the step reads the new candle and the one that leaves
    rw [seriesLoop, item_sub (by omega) (by omega), item_eq (by omega)]
    simp only [ranges, bind, Except.bind, hrest, pure, Except.pure, List.range'_succ,
      List.map_cons]
    rw [averageAt, if_pos hfirst, averageOf_eq (by omega)]
    rfl

theorem plainLoop_eq (hzero : (settings settingType).avgPeriod = 0) {candles : List Candle}
    {targetOffset : ℕ} (count current : ℕ) (hfirst : targetOffset ≤ current)
    (hlast : current + count ≤ candles.length) :
    plainLoop settings settingType candles targetOffset current count =
      .ok ((List.range' current count).map
        (averageAt settings settingType targetOffset candles)) := by
  induction count generalizing current with
  | zero => rfl
  | succ count ih =>
    rw [plainLoop, item_sub hfirst (by omega)]
    simp only [bind, Except.bind, ih (current + 1) (by omega) (by omega), pure, Except.pure,
      List.range'_succ, List.map_cons]
    rw [averageAt, if_pos (by omega), averageOf_eq (by omega), candleAverage_zero hzero
      (sumBefore _ _ _)]

/-- The entries of the series. -/
def averages (settings : CandleSettings) (settingType : CandleSettingType) (targetOffset : ℕ)
    (candles : List Candle) : List (Option ℚ) :=
  (List.range candles.length).map (averageAt settings settingType targetOffset candles)

theorem replicate_append_eq {first : ℕ} {candles : List Candle} {targetOffset : ℕ}
    (hfirst : first = (settings settingType).avgPeriod + targetOffset)
    (h : first ≤ candles.length) :
    List.replicate first none ++ (List.range' first (candles.length - first)).map
      (averageAt settings settingType targetOffset candles) =
      averages settings settingType targetOffset candles := by
  apply List.ext_getElem
  · simp [averages]
    omega
  · intro i hi hi'
    simp only [averages, List.getElem_map, List.getElem_range]
    by_cases hlt : i < first
    · rw [List.getElem_append_left (by simpa using hlt), List.getElem_replicate, averageAt,
        if_neg (by omega)]
    · rw [List.getElem_append_right (by simpa using hlt)]
      simp [show first + (i - first) = i by omega]

/-- The batch series has the average before each target. -/
theorem candleAverageSeries_eq (candles : List Candle) (targetOffset : ℕ) :
    candleAverageSeries settings settingType candles targetOffset =
      .ok (averages settings settingType targetOffset candles) := by
  set first := (settings settingType).avgPeriod + targetOffset with hfirst
  rw [candleAverageSeries]
  by_cases hshort : candles.length ≤ first
  · simp only [← hfirst, if_pos hshort]
    congr 1
    apply List.ext_getElem
    · simp [averages]
      omega
    · intro i hi hi'
      simp only [List.length_replicate] at hi
      rw [List.getElem_replicate]
      -- too short a series has no average at all
      simp only [averages, List.getElem_map, List.getElem_range, averageAt, ← hfirst]
      rw [if_neg (by omega)]
  · simp only [← hfirst, if_neg hshort, Nat.min_eq_left (show first ≤ candles.length by omega)]
    by_cases hzero : (settings settingType).avgPeriod = 0
    · have hjoined := replicate_append_eq hfirst (show first ≤ candles.length by omega)
      rw [show first = targetOffset by omega] at hjoined ⊢
      rw [if_pos hzero, plainLoop_eq hzero _ _ (le_refl _) (by omega)]
      exact congrArg _ hjoined
    · have hloop := seriesLoop_eq settings settingType (candles.length - first) first
        (le_refl _) (show first + (candles.length - first) ≤ candles.length by omega)
      have htotal := totalLoop_eq settings settingType (settings settingType).avgPeriod
        (first - targetOffset - (settings settingType).avgPeriod) 0
        (show _ ≤ candles.length by omega)
      rw [show first - targetOffset - (settings settingType).avgPeriod +
        (settings settingType).avgPeriod = first - targetOffset by omega, zero_add] at htotal
      rw [if_neg hzero, htotal]
      rw [sumBefore] at hloop
      simp only [bind, Except.bind, pure, Except.pure, hloop]
      exact congrArg _ (replicate_append_eq hfirst (by omega))

/-! ### The state -/

/-- Over exact numbers the moving total is the sum of the window. -/
theorem movingTotal_rational {values : List ℚ} {target : ℕ} (h : target ≤ values.length) :
    (rational settings settingType).movingTotal values target =
      sumBefore (settings settingType).avgPeriod values target := by
  by_cases hzero : (settings settingType).avgPeriod = 0
  · rw [Averaging.movingTotal_of_period_zero hzero, hzero, sumBefore, Nat.sub_zero,
      List.drop_eq_nil_of_le (by simp)]
    rfl
  · induction target with
    | zero => rw [sumBefore, List.take_zero, List.drop_nil]; rfl
    | succ target ih =>
      -- one value enters, and one leaves a window that is full
      rw [sumBefore_succ _ _ (by omega), ← ih (Nat.le_of_succ_le h), Averaging.movingTotal]
      by_cases hfull : (settings settingType).avgPeriod ≤ target
      · rw [Averaging.gainAt_full hzero (by omega) hfull, if_pos hfull,
          List.getD_eq_getElem?_getD, List.getElem?_eq_getElem (by omega)]
        rfl
      · rw [Averaging.gainAt_filling hzero (by omega) hfull, if_neg hfull, sub_zero]
        rfl

/-- The values of the state are the entries of the series. -/
theorem run_rational (targetOffset : ℕ) (candles : List Candle) :
    CandleAverageState.run (rational settings settingType) targetOffset candles =
      .ok (averages settings settingType targetOffset candles) := by
  rw [CandleAverageState.run_eq, averages]
  refine congrArg Except.ok (List.map_congr_left fun index hindex => ?_)
  have hlt : index < candles.length := List.mem_range.1 hindex
  have hlength : (ranges settings settingType candles).length = candles.length := by simp [ranges]
  rw [averageAt]
  split
  · rename_i hready
    rw [Averaging.valueAt_eq hready (by omega), averageOf_eq (by omega)]
    exact congrArg (fun total => some (candleAverage settings settingType total _))
      (movingTotal_rational (by rw [List.length_map]; omega))
  · rename_i hready
    exact if_neg hready

end Averages

/-! ### Agreement -/

/-- **The three candle averages agree.** For every setting, offset and candles, the batch series
and the values of the state are one list with an entry for every candle, and neither meets an
index outside a list or a buffer. An entry is defined when its target has enough candles before
it; the direct average of the target is then that entry, and otherwise it is refused: with an
index error when there is no such target, else for want of candles. -/
theorem candleAverages_agree (settings : CandleSettings) (settingType : CandleSettingType)
    (targetOffset : ℕ) (candles : List Candle) :
    ∃ values : List (Option ℚ),
      candleAverageSeries settings settingType candles targetOffset = .ok values ∧
      CandleAverageState.run (rational settings settingType) targetOffset candles = .ok values ∧
      values.length = candles.length ∧
      ∀ (index : ℕ) (hindex : index < values.length),
        (∀ value, values[index] = some value ↔
          candleAverageAt settings settingType candles ((index : ℤ) - targetOffset) = .ok value) ∧
        (values[index] = none ↔
          candleAverageAt settings settingType candles ((index : ℤ) - targetOffset) =
            .error (if (index : ℤ) < targetOffset then
              .lookupError "target_index is outside candles"
            else .valueError "not enough candles before target_index")) := by
  have hseries : candleAverageSeries settings settingType candles targetOffset =
      .ok (averages settings settingType targetOffset candles) :=
    candleAverageSeries_eq candles targetOffset
  have hrun : CandleAverageState.run (rational settings settingType) targetOffset candles =
      .ok (averages settings settingType targetOffset candles) :=
    run_rational targetOffset candles
  have hlength : (averages settings settingType targetOffset candles).length = candles.length := by
    simp [averages]
  refine ⟨averages settings settingType targetOffset candles, hseries, hrun, hlength,
    fun index hindex => ?_⟩
  have hlt : index < candles.length := by simpa [averages] using hindex
  have hentry : (averages settings settingType targetOffset candles)[index] =
      averageAt settings settingType targetOffset candles index := by simp [averages]
  rw [hentry]
  -- the target has enough candles before it, or it has too few, or it is none
  by_cases hready : (settings settingType).avgPeriod + targetOffset ≤ index
  · have hat := candleAverageAt_eq settings settingType
      (show (settings settingType).avgPeriod ≤ index - targetOffset by omega)
      (show index - targetOffset < candles.length by omega)
    rw [Int.natCast_sub (by omega)] at hat
    rw [averageAt, if_pos hready, averageOf_eq (by omega), hat]
    simp
  · have hat := candleAverageAt_error settings settingType candles
      (.inl (show (index : ℤ) - targetOffset < (settings settingType).avgPeriod by omega))
    rw [averageAt, if_neg hready, hat]
    by_cases hbefore : (index : ℤ) < targetOffset
    · simp [hbefore]
    · simp [hbefore]
      omega

end Patterns
end TradingSystem
