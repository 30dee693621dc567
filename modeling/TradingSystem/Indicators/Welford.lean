import TradingSystem.Indicators.RollingWindow
import Mathlib.Analysis.Real.Sqrt
import Mathlib.Tactic.FieldSimp
import Mathlib.Tactic.Positivity

/-!
# The rolling deviation

`_RollingPopulationStdev` keeps the mean and the sum of squared deviations of a window by adding
and removing values.

* `mean`, `squares` — what they are of a list of values; `squares_concat` and `squares_cons` say
  what one value more does to them.
* `RollingStdev.final_eq` — after any values the moments are those of the defined values of the
  window.
* `RollingStdev.moments_exact` — with that, the clamp changes nothing and a value is given exactly
  for a complete window.
-/

namespace TradingSystem
namespace Indicators

open Streaming

/-! ### Moments of a list -/

/-- The mean; zero of nothing. -/
def mean (xs : List ℚ) : ℚ := xs.sum / xs.length

/-- The sum of the squared deviations from the mean. -/
def squares (xs : List ℚ) : ℚ := (xs.map fun x => (x - mean xs) ^ 2).sum

theorem squares_nonneg (xs : List ℚ) : 0 ≤ squares xs :=
  List.sum_nonneg (by simpa [squares] using fun x _ => sq_nonneg (x - mean xs))

theorem mul_mean (xs : List ℚ) : xs.length * mean xs = xs.sum := by
  rcases xs with _ | ⟨x, xs⟩
  · simp
  · rw [mean, mul_div_cancel₀]
    simp only [List.length_cons]
    positivity

theorem sum_sq_sub (xs : List ℚ) (c : ℚ) :
    (xs.map fun x => (x - c) ^ 2).sum =
      (xs.map fun x => x ^ 2).sum - 2 * c * xs.sum + xs.length * c ^ 2 := by
  induction xs with
  | nil => simp
  | cons x xs ih =>
    simp only [List.map_cons, List.sum_cons, ih, List.length_cons]
    push_cast
    ring

theorem squares_eq (xs : List ℚ) :
    squares xs = (xs.map fun x => x ^ 2).sum - xs.length * mean xs ^ 2 := by
  rw [squares, sum_sq_sub, ← mul_mean xs]
  ring

/-- The mean after one value more. -/
theorem mean_cons (xs : List ℚ) (x : ℚ) :
    mean (x :: xs) = mean xs + (x - mean xs) / (xs.length + 1) := by
  have hpos : (xs.length : ℚ) + 1 ≠ 0 := by positivity
  have hsum := mul_mean xs
  rw [mean, List.sum_cons, List.length_cons, ← hsum]
  push_cast
  field_simp
  ring

/-- The sum of squared deviations after one value more. -/
theorem squares_cons (xs : List ℚ) (x : ℚ) :
    squares (x :: xs) = squares xs + (x - mean xs) * (x - mean (x :: xs)) := by
  have hpos : (xs.length : ℚ) + 1 ≠ 0 := by positivity
  rw [squares_eq, squares_eq, mean_cons, List.map_cons, List.sum_cons, List.length_cons]
  push_cast
  field_simp
  ring

theorem mean_concat (xs : List ℚ) (x : ℚ) : mean (xs ++ [x]) = mean (x :: xs) := by
  simp [mean, add_comm]

theorem squares_concat (xs : List ℚ) (x : ℚ) : squares (xs ++ [x]) = squares (x :: xs) := by
  simp [squares_eq, mean_concat, add_comm]

/-! ### The state -/

/-- `_RollingPopulationStdev`. -/
structure RollingStdev where
  window : List Value
  count : ℤ
  invalid : ℤ
  mean : ℚ
  m2 : ℚ

namespace RollingStdev

/-- A state that has seen nothing. -/
def new : RollingStdev := ⟨[], 0, 0, 0, 0⟩

def add (state : RollingStdev) (value : ℚ) : RollingStdev :=
  let count := state.count + 1
  let delta := value - state.mean
  let mean := state.mean + delta / count
  { state with count := count, mean := mean, m2 := state.m2 + delta * (value - mean) }

/-- `_remove`; the clamp of the source is `max 0`. -/
def remove (clamp : ℚ → ℚ) (state : RollingStdev) (value : ℚ) : RollingStdev :=
  if state.count = 1 then { state with count := 0, mean := 0, m2 := 0 }
  else
    let newCount := state.count - 1
    let newMean := state.mean - (value - state.mean) / newCount
    let newM2 := state.m2 - (value - state.mean) * (value - newMean)
    { state with count := newCount, mean := newMean, m2 := clamp newM2 }

/-- Whether a full, valid window is present. -/
def warmedUp (period : ℕ) (state : RollingStdev) : Prop :=
  state.window.length = period ∧ state.invalid = 0 ∧ state.count = period

instance (period : ℕ) (state : RollingStdev) : Decidable (state.warmedUp period) :=
  inferInstanceAs (Decidable (_ ∧ _ ∧ _))

/-- What the root is taken of. -/
def variance (period : ℕ) (state : RollingStdev) : Value :=
  if state.warmedUp period then some (max 0 state.m2 / period) else NAN

/-- Count a value in. -/
def enter (state : RollingStdev) : Value → RollingStdev
  | none => { state with window := state.window ++ [none], invalid := state.invalid + 1 }
  | some x => { state with window := state.window ++ [some x] }.add x

/-- Take the oldest value out of a window that is too long. -/
def evict (clamp : ℚ → ℚ) (period : ℕ) (state : RollingStdev) : RollingStdev :=
  if period < state.window.length then
    match state.window with
    | [] => state
    | none :: rest => { state with window := rest, invalid := state.invalid - 1 }
    | some x :: rest => { state with window := rest }.remove clamp x
  else state

/-- `update` with a given clamp. -/
def updateWith (clamp : ℚ → ℚ) (period : ℕ) (state : RollingStdev) (value : Value) :
    RollingStdev × Value :=
  let state := (state.enter value).evict clamp period
  (state, state.variance period)

/-- `update`, up to the root of `current`. -/
def update (period : ℕ) : RollingStdev → Value → RollingStdev × Value := updateWith (max 0) period

/-- `current`: the root of the mean square of the deviations. -/
noncomputable def current (period : ℕ) (state : RollingStdev) : Option ℝ :=
  (state.variance period).map fun variance => Real.sqrt variance

/-- The state of a window. -/
def ofWindow (window : List Value) : RollingStdev :=
  ⟨window, window.reduceOption.length, window.count none, Indicators.mean window.reduceOption,
    squares window.reduceOption⟩

theorem enter_ofWindow (window : List Value) (value : Value) :
    (ofWindow window).enter value = ofWindow (window ++ [value]) := by
  cases value with
  | none => simp [ofWindow, enter, List.reduceOption]
  | some x =>
    simp only [ofWindow, enter, add, List.reduceOption_append, List.reduceOption_singleton,
      Option.toList_some, mean_concat, squares_concat, mean_cons, squares_cons]
    simp

/-- Removing undoes adding: the moments of the rest. -/
theorem remove_cons {clamp : ℚ → ℚ} (hclamp : ∀ x, 0 ≤ x → clamp x = x) (state : RollingStdev)
    (x : ℚ) (xs : List ℚ) (hcount : state.count = (x :: xs).length)
    (hmean : state.mean = Indicators.mean (x :: xs)) (hm2 : state.m2 = squares (x :: xs)) :
    state.remove clamp x = { state with
      count := xs.length, mean := Indicators.mean xs, m2 := squares xs } := by
  rcases xs with _ | ⟨y, ys⟩
  · rw [remove, if_pos (by simp [hcount])]
    simp [Indicators.mean, squares]
  · have hne : ¬ state.count = 1 := by
      rw [hcount]
      simp only [List.length_cons]
      omega
    have hcast : ((state.count - 1 : ℤ) : ℚ) = (y :: ys).length := by
      rw [hcount]
      simp
    have hpos : ((y :: ys).length : ℚ) ≠ 0 := by simp only [List.length_cons]; positivity
    have hpos' : ((y :: ys).length : ℚ) + 1 ≠ 0 := by positivity
    -- the two updates of the source, each solved for the moments of the rest
    have hnewMean : state.mean - (x - state.mean) / ((state.count - 1 : ℤ) : ℚ) =
        Indicators.mean (y :: ys) := by
      rw [hcast, hmean, mean_cons (y :: ys) x]
      field_simp
      ring
    have hnewM2 : state.m2 - (x - state.mean) * (x - Indicators.mean (y :: ys)) =
        squares (y :: ys) := by
      rw [hm2, hmean, squares_cons (y :: ys) x]
      ring
    rw [remove, if_neg hne]
    simp only [hnewMean, hnewM2, hclamp _ (squares_nonneg _)]
    rw [hcount]
    simp

theorem evict_ofWindow {clamp : ℚ → ℚ} (hclamp : ∀ x, 0 ≤ x → clamp x = x) (period : ℕ)
    (window : List Value) :
    (ofWindow window).evict clamp period =
      ofWindow (if period < window.length then window.tail else window) := by
  by_cases hlong : period < window.length
  · rw [if_pos hlong, evict, if_pos (by exact hlong)]
    rcases window with _ | ⟨_ | oldest, rest⟩
    · rfl
    · simp [ofWindow, List.reduceOption_cons_of_none]
    · simp only [ofWindow, List.tail_cons]
      rw [remove_cons hclamp _ oldest rest.reduceOption] <;>
        simp [List.reduceOption_cons_of_some]
  · rw [if_neg hlong, evict, if_neg (by exact hlong)]

/-- After any values the state is that of the last ones. -/
theorem final_eq {clamp : ℚ → ℚ} (hclamp : ∀ x, 0 ≤ x → clamp x = x) (period : ℕ)
    (values : List Value) :
    final (updateWith clamp period) .new values = ofWindow (values.rtake period) := by
  induction values using List.reverseRecOn with
  | nil => simp [new, ofWindow, List.rtake, Indicators.mean, squares]
  | append_singleton values value ih =>
    rw [final_concat, ih, updateWith, enter_ofWindow, evict_ofWindow hclamp, ← push_rtake]
    rfl

/-- **What a state says of the values it has seen.** -/
structure Exact (period : ℕ) (values : List Value) (state : RollingStdev) : Prop where
  window : state.window = values.rtake period
  mean : state.mean = Indicators.mean (values.rtake period).reduceOption
  m2 : state.m2 = squares (values.rtake period).reduceOption
  m2_nonneg : 0 ≤ state.m2
  unclamped : state = final (updateWith id period) .new values
  defined : (state.current period).isSome ↔ period ≤ values.length ∧
    ∀ value ∈ values.rtake period, value.isSome
  deviation : ∀ deviation ∈ state.current period,
    deviation = Real.sqrt ((state.m2 / period : ℚ) : ℝ)

/-- **The rolling deviation is exact.** For every period and every series of values, undefined
ones at any place: after each update the moments are those of the defined values of the window,
the clamp changes nothing, and a value is given exactly for a full window of defined values. -/
theorem moments_exact (period : ℕ) (values : List Value) :
    Exact period values (final (update period) .new values) := by
  -- with the clamp and without it the run ends in the same state
  have hmax : final (update period) .new values = ofWindow (values.rtake period) :=
    final_eq (fun x hx => max_eq_right hx) period values
  have hid : final (updateWith id period) .new values = ofWindow (values.rtake period) :=
    final_eq (fun x _ => rfl) period values
  have hnonneg := squares_nonneg (values.rtake period).reduceOption
  have hwarm : (ofWindow (values.rtake period)).warmedUp period ↔
      (completeWindow period values).isSome := by
    simp only [warmedUp, ofWindow, count_none_eq_zero, completeWindow]
    constructor
    · rintro ⟨hlength, hnone, -⟩
      rw [if_pos ⟨hlength, hnone⟩]
      rfl
    · intro h
      obtain ⟨window, hwindow⟩ := Option.isSome_iff_exists.1 h
      obtain ⟨hmap, hlength⟩ := completeWindow_eq_some.1 hwindow
      rw [← completeWindow] at hwindow
      rw [hmap, List.length_map]
      refine ⟨hlength, by simp, ?_⟩
      have hreduce : (window.map some).reduceOption = window := by simp [List.reduceOption]
      rw [hreduce, hlength]
  rw [hmax]
  refine ⟨rfl, rfl, rfl, hnonneg, hid.symm, ?_, ?_⟩
  · rw [← completeWindow_isSome, ← hwarm, current, Option.isSome_map, variance]
    split <;> simp_all
  · intro deviation hdeviation
    rw [current, Option.mem_map] at hdeviation
    obtain ⟨variance', hvariance, rfl⟩ := hdeviation
    rw [variance] at hvariance
    split at hvariance
    · obtain rfl := Option.some.inj hvariance
      rw [max_eq_right (show 0 ≤ (ofWindow (values.rtake period)).m2 from hnonneg)]
    · cases hvariance

end RollingStdev

end Indicators
end TradingSystem
