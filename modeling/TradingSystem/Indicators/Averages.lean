import TradingSystem.Indicators.RollingWindow
import TradingSystem.Streaming.Smoothing

/-!
# The averages over tuples

Averages of several series with the same undefined places are the components of one average of
tuples. `ema_rows`, `rma_rows` and `sma_rows` say so and keep the tuples in a convex set, which is
how the bounds of the oscillators are carried through their smoothing.
-/

namespace TradingSystem
namespace Indicators

open Streaming

variable {M : Type*} [AddCommGroup M] [Module ℚ M]

/-! ### Recursive averages -/

/-- The state of the source is a recursive average of numbers. -/
theorem outputs_eq_smooth {period : ℕ} {alpha : ℚ} (values : List Value) :
    outputs (RecursiveAverageState.update period alpha) .new values =
      outputs (smooth period alpha) ⟨[], none⟩ values := by
  refine outputs_eq_of_simulation
    (fun (s : RecursiveAverageState) (t : Smoothing ℚ) => s.seed = t.seed ∧ s.value = t.value)
    ?_ ⟨rfl, rfl⟩ values
  rintro ⟨seed, value⟩ ⟨seed', value'⟩ x ⟨hseed, hvalue⟩
  simp only at hseed hvalue
  subst hseed hvalue
  rcases x with _ | x <;> rcases value with _ | current
  · exact ⟨⟨rfl, rfl⟩, rfl⟩
  · exact ⟨⟨rfl, rfl⟩, rfl⟩
  · by_cases hfull : (seed ++ [x]).length = period
    · have hmean : (seed ++ [x]).sum / period = listMean (seed ++ [x]) := by
        rw [listMean, hfull, smul_eq_mul, div_eq_inv_mul]
      simp only [RecursiveAverageState.update, smooth, if_pos hfull, hmean]
      exact ⟨⟨trivial, trivial⟩, rfl⟩
    · simp only [RecursiveAverageState.update, smooth, if_neg hfull]
      exact ⟨⟨trivial, trivial⟩, rfl⟩
  · exact ⟨⟨rfl, rfl⟩, rfl⟩

theorem recursiveAverage_eq_smooth {period : ℕ} (hperiod : 0 < period) (alpha : ℚ)
    (values : List Value) :
    recursiveAverage values period alpha = outputs (smooth period alpha) ⟨[], none⟩ values := by
  rw [← outputs_recursiveAverage hperiod, outputs_eq_smooth]

theorem emaAlpha_mem {period : ℕ} (hperiod : 0 < period) :
    0 ≤ emaAlpha period ∧ emaAlpha period ≤ 1 := by
  have hone : (1 : ℚ) ≤ period := by exact_mod_cast hperiod
  rw [emaAlpha]
  refine ⟨by positivity, ?_⟩
  rw [div_le_one (by positivity)]
  linarith

theorem rmaAlpha_mem {period : ℕ} (hperiod : 0 < period) :
    0 ≤ rmaAlpha period ∧ rmaAlpha period ≤ 1 := by
  have hone : (1 : ℚ) ≤ period := by exact_mod_cast hperiod
  rw [rmaAlpha]
  refine ⟨by positivity, ?_⟩
  rwa [div_le_one (by positivity)]

/-- Rows of values inside a set, and what one component of them is. -/
def component (φ : M →ₗ[ℚ] ℚ) (rows : List (Option M)) : List Value := rows.map (Option.map φ)

/-- All defined rows are in a set. -/
def RowsIn (C : Set M) (rows : List (Option M)) : Prop := ∀ row ∈ rows, ∀ x ∈ row, x ∈ C

section Rows

variable {C : Set M} {rows : List (Option M)} {period : ℕ}

theorem recursiveAverage_rows (hC : Convex ℚ C) (hrows : RowsIn C rows) (hperiod : 0 < period)
    {alpha : ℚ} (halpha : 0 ≤ alpha ∧ alpha ≤ 1) :
    ∃ averages : List (Option M), RowsIn C averages ∧
      ∀ φ : M →ₗ[ℚ] ℚ, recursiveAverage (component φ rows) period alpha = component φ averages :=
  ⟨_, smooth_mem hC halpha.1 halpha.2 hrows, fun φ => by
    rw [recursiveAverage_eq_smooth hperiod, component, smooth_map_new, component]⟩

theorem ema_rows (hC : Convex ℚ C) (hrows : RowsIn C rows) (hperiod : 0 < period) :
    ∃ averages : List (Option M), RowsIn C averages ∧
      ∀ φ : M →ₗ[ℚ] ℚ, ema (component φ rows) period = component φ averages :=
  recursiveAverage_rows hC hrows hperiod (emaAlpha_mem hperiod)

theorem rma_rows (hC : Convex ℚ C) (hrows : RowsIn C rows) (hperiod : 0 < period) :
    ∃ averages : List (Option M), RowsIn C averages ∧
      ∀ φ : M →ₗ[ℚ] ℚ, rma (component φ rows) period = component φ averages :=
  recursiveAverage_rows hC hrows hperiod (rmaAlpha_mem hperiod)

/-! ### Rolling averages -/

theorem completeWindow_component [DecidableEq M] (φ : M →ₗ[ℚ] ℚ) (rows : List (Option M)) :
    completeWindow period (component φ rows) = (completeWindow period rows).map (List.map φ) := by
  have hrtake : (component φ rows).rtake period = component φ (rows.rtake period) := by
    simp [List.rtake, component, List.map_drop]
  cases hwindow : completeWindow period rows with
  | none =>
    rw [Option.map_none, ← Option.not_isSome_iff_eq_none, completeWindow_isSome, hrtake]
    rw [← Option.not_isSome_iff_eq_none, completeWindow_isSome] at hwindow
    simpa [component] using hwindow
  | some window =>
    obtain ⟨hmap, hlength⟩ := completeWindow_eq_some.1 hwindow
    rw [Option.map_some, completeWindow_eq_some, hrtake, hmap]
    exact ⟨by simp [component], by rwa [List.length_map]⟩

theorem sma_rows [DecidableEq M] (hC : Convex ℚ C) (hrows : RowsIn C rows)
    (hperiod : 0 < period) :
    ∃ averages : List (Option M), RowsIn C averages ∧
      ∀ φ : M →ₗ[ℚ] ℚ, sma (component φ rows) period = component φ averages := by
  refine ⟨prefixes (fun rows => (completeWindow period rows).map listMean) rows, ?_, fun φ => ?_⟩
  · intro row hrow x hx
    simp only [prefixes, List.mem_map] at hrow
    obtain ⟨i, -, rfl⟩ := hrow
    rw [Option.mem_map] at hx
    obtain ⟨window, hwindow, rfl⟩ := hx
    -- a mean of points of a convex set stays in it
    refine listMean_mem hC ?_ fun y hy => ?_
    · have := (completeWindow_eq_some.1 hwindow).2
      rintro rfl
      simp at this
      omega
    · exact hrows _ (List.mem_of_mem_take (mem_of_completeWindow hwindow hy)) y rfl
  · rw [sma_eq]
    apply List.ext_getElem (by simp [component])
    intro i hi hi'
    simp only [component, List.getElem_map, getElem_prefixes, ← List.map_take]
    rw [← component, windowMean, completeWindow_component]
    cases hwindow : completeWindow period (rows.take (i + 1)) with
    | none => rfl
    | some window =>
      have hlength := (completeWindow_eq_some.1 hwindow).2
      simp only [Option.map_some, map_listMean]
      rw [listMean, List.length_map, hlength, smul_eq_mul, div_eq_inv_mul]

end Rows

/-! ### Averages of one series -/

/-- A series inside a set. -/
def ValuesIn (C : Set ℚ) (values : List Value) : Prop := RowsIn C values

theorem component_id (values : List Value) : component LinearMap.id values = values := by
  simp [component]

section Values

variable {C : Set ℚ} {values : List Value} {period : ℕ}

theorem ValuesIn.ema (hC : Convex ℚ C) (h : ValuesIn C values) (hperiod : 0 < period) :
    ValuesIn C (ema values period) := by
  obtain ⟨averages, haverages, hcomponent⟩ := ema_rows hC h hperiod
  have := hcomponent LinearMap.id
  rw [component_id, component_id] at this
  rwa [this]

theorem ValuesIn.rma (hC : Convex ℚ C) (h : ValuesIn C values) (hperiod : 0 < period) :
    ValuesIn C (rma values period) := by
  obtain ⟨averages, haverages, hcomponent⟩ := rma_rows hC h hperiod
  have := hcomponent LinearMap.id
  rw [component_id, component_id] at this
  rwa [this]

theorem ValuesIn.sma (hC : Convex ℚ C) (h : ValuesIn C values) (hperiod : 0 < period) :
    ValuesIn C (sma values period) := by
  obtain ⟨averages, haverages, hcomponent⟩ := sma_rows hC h hperiod
  have := hcomponent LinearMap.id
  rw [component_id, component_id] at this
  rwa [this]

end Values

end Indicators
end TradingSystem
