import TradingSystem.Indicators.Averages
import TradingSystem.Indicators.Oscillators
import TradingSystem.Indicators.Coppock

/-!
# Warm-ups

Where the outputs of the primitives begin, given where their inputs do, and what an exact declared
history of an indicator state is.

* `definedFrom_ema`, `definedFrom_sma`, `definedFrom_extreme`, `definedFrom_delay` and the others —
  the place a primitive begins at.
* `Indicator` — a state with its outputs, its `warmed_up` flag and its `min_history`.
* `Indicator.Exact` — the declared history is the least that defines every output, and every longer
  run keeps them defined; `Indicator.exact_iff` reduces it to where the rows begin.
-/

namespace TradingSystem
namespace Indicators

open Streaming

/-! ### Combinations -/

/-- The entry of three series. -/
theorem getElem_zipWith3 {α β γ δ : Type} (f : α → β → γ → δ) (xs : List α) (ys : List β)
    (zs : List γ) (i : ℕ) (h : i < (List.zipWith3 f xs ys zs).length) :
    ∃ (hx : i < xs.length) (hy : i < ys.length) (hz : i < zs.length),
      (List.zipWith3 f xs ys zs)[i] = f xs[i] ys[i] zs[i] := by
  induction xs generalizing ys zs i with
  | nil => simp [List.zipWith3] at h
  | cons x xs ih =>
    rcases ys with _ | ⟨y, ys⟩
    · simp [List.zipWith3] at h
    rcases zs with _ | ⟨z, zs⟩
    · simp [List.zipWith3] at h
    cases i with
    | zero => exact ⟨by simp, by simp, by simp, rfl⟩
    | succ i =>
      obtain ⟨hx, hy, hz, heq⟩ := ih ys zs i (by simpa [List.zipWith3] using h)
      exact ⟨by simpa using hx, by simpa using hy, by simpa using hz, heq⟩

theorem length_zipWith3 {α β γ δ : Type} (f : α → β → γ → δ) (xs : List α) (ys : List β)
    (zs : List γ) :
    (List.zipWith3 f xs ys zs).length = min xs.length (min ys.length zs.length) := by
  induction xs generalizing ys zs with
  | nil => simp [List.zipWith3]
  | cons x xs ih =>
    rcases ys with _ | ⟨y, ys⟩
    · simp [List.zipWith3]
    rcases zs with _ | ⟨z, zs⟩
    · simp [List.zipWith3]
    simp [List.zipWith3, ih]

/-- The entry of four series. -/
theorem getElem_zipWith4 {α β γ δ ε : Type} (f : α → β → γ → δ → ε) (xs : List α) (ys : List β)
    (zs : List γ) (ws : List δ) (i : ℕ) (h : i < (List.zipWith4 f xs ys zs ws).length) :
    ∃ (hx : i < xs.length) (hy : i < ys.length) (hz : i < zs.length) (hw : i < ws.length),
      (List.zipWith4 f xs ys zs ws)[i] = f xs[i] ys[i] zs[i] ws[i] := by
  induction xs generalizing ys zs ws i with
  | nil => simp [List.zipWith4] at h
  | cons x xs ih =>
    rcases ys with _ | ⟨y, ys⟩
    · simp [List.zipWith4] at h
    rcases zs with _ | ⟨z, zs⟩
    · simp [List.zipWith4] at h
    rcases ws with _ | ⟨w, ws⟩
    · simp [List.zipWith4] at h
    cases i with
    | zero => exact ⟨by simp, by simp, by simp, by simp, rfl⟩
    | succ i =>
      obtain ⟨hx, hy, hz, hw, heq⟩ := ih ys zs ws i (by simpa [List.zipWith4] using h)
      exact ⟨by simpa using hx, by simpa using hy, by simpa using hz, by simpa using hw, heq⟩

section Places

variable {start start' start'' : ℕ} {xs ys zs : List Value}

/-- A value computed from three others begins with the latest one. -/
theorem definedFrom_zipWith3 {f : Value → Value → Value → Value}
    (hf : ∀ x y z, (f x y z).isSome ↔ x.isSome ∧ y.isSome ∧ z.isSome) (hx : DefinedFrom start xs)
    (hy : DefinedFrom start' ys) (hz : DefinedFrom start'' zs) :
    DefinedFrom (max start (max start' start'')) (List.zipWith3 f xs ys zs) := by
  intro i hi
  obtain ⟨hxi, hyi, hzi, heq⟩ := getElem_zipWith3 f xs ys zs i hi
  rw [heq, hf, hx, hy, hz, max_le_iff, max_le_iff]

/-- A value computed from two others and something that is always there. -/
theorem definedFrom_zipWith3_right {α : Type} {f : α → Value → Value → Value}
    (hf : ∀ a y z, (f a y z).isSome ↔ y.isSome ∧ z.isSome) (items : List α)
    (hy : DefinedFrom start ys) (hz : DefinedFrom start' zs) :
    DefinedFrom (max start start') (List.zipWith3 f items ys zs) := by
  intro i hi
  obtain ⟨_, hyi, hzi, heq⟩ := getElem_zipWith3 f items ys zs i hi
  rw [heq, hf, hy, hz, max_le_iff]

/-- A value computed from another begins where that does. -/
theorem definedFrom_map {f : Value → Value} (hf : ∀ x, (f x).isSome ↔ x.isSome)
    (h : DefinedFrom start xs) : DefinedFrom start (xs.map f) := by
  intro i hi
  rw [List.getElem_map, hf, h]

/-- A value computed from another and the one before it begins one place later. -/
theorem definedFrom_previous {f : Value → Value → Value}
    (hf : ∀ x y, (f x y).isSome ↔ x.isSome ∧ y.isSome) (h : DefinedFrom start xs) :
    DefinedFrom (start + 1) (List.zipWith f (none :: xs) xs) := by
  intro i hi
  rw [List.getElem_zipWith, hf, h]
  cases i with
  | zero => simp
  | succ i =>
    rw [List.getElem_cons_succ, h]
    omega

/-- What a candle has only with one before it begins with the second candle. -/
theorem definedFrom_withPrevious {α : Type} {g : Option α → α → Value}
    (hnone : ∀ x, g none x = none) (hsome : ∀ x y, (g (some x) y).isSome) (xs : List α) :
    DefinedFrom 1 (withPrevious g none xs) := by
  cases xs with
  | nil => intro i hi; simp at hi
  | cons x xs =>
    rw [withPrevious_cons, withPrevious_some]
    intro i hi
    cases i with
    | zero => simp [hnone]
    | succ i =>
      rw [List.getElem_cons_succ, List.getElem_zipWith]
      simp [hsome]

theorem definedFrom_closes (candles : List Candle) : DefinedFrom 0 (closes candles) :=
  fun i hi => by simp [closes]

theorem definedFrom_highs (candles : List Candle) : DefinedFrom 0 (highs candles) :=
  fun i hi => by simp [highs]

theorem definedFrom_lows (candles : List Candle) : DefinedFrom 0 (lows candles) :=
  fun i hi => by simp [lows]

theorem definedFrom_hl2 (candles : List Candle) : DefinedFrom 0 (hl2 candles) :=
  fun i hi => by simp [hl2]

/-! ### Averages, extremes, delays -/

variable {period : ℕ}

theorem definedFrom_ema (hperiod : 0 < period) (h : DefinedFrom start xs) :
    DefinedFrom (start + (period - 1)) (outputs (EmaState.update period) .new xs) := by
  rw [EmaState.update, outputs_eq_smooth]
  exact h.smooth hperiod _

theorem definedFrom_rma (hperiod : 0 < period) (h : DefinedFrom start xs) :
    DefinedFrom (start + (period - 1)) (outputs (RmaState.update period) .new xs) := by
  rw [RmaState.update, outputs_eq_smooth]
  exact h.smooth hperiod _

theorem definedFrom_sma (hperiod : 0 < period) (h : DefinedFrom start xs) :
    DefinedFrom (start + (period - 1)) (outputs (SmaState.update period) .new xs) := by
  rw [outputs_smaState]
  exact h.prefixes hperiod fun ys => by rw [windowMean, Option.isSome_map]

theorem definedFrom_wma (hperiod : 0 < period) (h : DefinedFrom start xs) :
    DefinedFrom (start + (period - 1)) (outputs (WmaWindow.update period) [] xs) := by
  rw [outputs_wma]
  exact wma_definedFrom h hperiod

/-- A complete window has extremes. -/
theorem windowExtreme_isSome (hperiod : 0 < period) (highest : Bool) (ys : List Value) :
    (windowExtreme highest period ys).isSome ↔ (completeWindow period ys).isSome := by
  rw [windowExtreme]
  cases hwindow : completeWindow period ys with
  | none => simp
  | some window =>
    have hne : window ≠ [] := by
      have := (completeWindow_eq_some.1 hwindow).2
      rintro rfl
      simp at this
      omega
    cases highest <;> simp [hne, List.isSome_max?_iff, List.isSome_min?_iff]

theorem definedFrom_extreme (hperiod : 0 < period) (highest : Bool) (h : DefinedFrom start xs) :
    DefinedFrom (start + (period - 1))
      (outputs (RollingExtremeState.update period highest) .new xs) := by
  rw [outputs_rollingExtremeState hperiod]
  exact h.prefixes hperiod (windowExtreme_isSome hperiod highest)

theorem definedFrom_delay (h : DefinedFrom start xs) (delay : ℕ) :
    DefinedFrom (start + delay) (outputs (DelayLine.update delay) [] xs) := by
  rw [outputs_delayLine]
  intro i hi
  have hlt : i < xs.length := by simpa using hi
  rw [getElem_publishAfter]
  split
  · rw [List.getD_eq_getElem?_getD, List.getElem?_eq_getElem (by omega), Option.getD_some, h]
    omega
  · simp
    omega

theorem definedFrom_history (h : DefinedFrom start xs) (period : ℕ) :
    DefinedFrom (start + period) (outputs (History.update period) [] xs) := by
  rw [outputs_history]
  intro i hi
  have hlt : i < xs.length := by simpa [earlierBy] using hi
  simp only [earlierBy, List.getElem_map, List.getElem_range]
  split
  · rw [List.getD_eq_getElem?_getD, List.getElem?_eq_getElem (by omega), Option.getD_some, h]
    omega
  · simp
    omega

/-- What one more input gives, when the outputs begin at a place. -/
theorem definedFrom_snd {σ α : Type} {update : σ → α → σ × Value} {state : σ} {seen : List α}
    {x : α} (h : DefinedFrom start (outputs update state (seen ++ [x]))) :
    (update (final update state seen) x).2.isSome ↔ start ≤ seen.length := by
  have hlast := h seen.length (by simp)
  simp only [outputs_concat] at hlast
  rw [List.getElem_append_right (by simp)] at hlast
  simpa using hlast

/-! ### Changes of closes -/

/-- Changes of closes begin with the second one. -/
theorem definedFrom_changesOf (part : ℚ → ℚ) (values : List ℚ) (h : values ≠ []) :
    DefinedFrom 1 (changesOf part values) := by
  rw [changesOf_eq part h]
  exact definedFrom_withPrevious (fun _ => rfl) (fun _ _ => rfl) values

theorem definedFrom_rsi (hperiod : 0 < period) (values : List ℚ) :
    DefinedFrom period (outputs (RSIValueState.update period) .new values) := by
  by_cases hempty : values = []
  · rw [hempty]
    exact fun i hi => absurd hi (Nat.not_lt_zero i)
  have hgains := definedFrom_rma hperiod (definedFrom_changesOf gain values hempty)
  have hlosses := definedFrom_rma hperiod (definedFrom_changesOf loss values hempty)
  have hplace : max (1 + (period - 1)) (1 + (period - 1)) = period := by omega
  have hboth := hgains.zipWith (both_isSome rsiValue) hlosses
  rw [hplace] at hboth
  rwa [RSIValueState.outputs_rsi hperiod hempty, rsiFromValues, ← outputs_rma hperiod,
    ← outputs_rma hperiod]

theorem definedFrom_cmo (hperiod : 0 < period) (candles : List Candle) :
    DefinedFrom period (outputs (CMOState.update period) .new candles) := by
  by_cases hempty : candles = []
  · rw [hempty]
    exact fun i hi => absurd hi (Nat.not_lt_zero i)
  have hcloses : closePrices candles ≠ [] := by simpa [closePrices] using hempty
  have hgains := definedFrom_sma hperiod (definedFrom_changesOf gain _ hcloses)
  have hlosses := definedFrom_sma hperiod (definedFrom_changesOf loss _ hcloses)
  have hplace : max (1 + (period - 1)) (1 + (period - 1)) = period := by omega
  have hboth : DefinedFrom _ (List.zipWith contrast _ _) :=
    hgains.zipWith (both_isSome fun up down => 100 * safeDivide (up - down) (up + down) 0) hlosses
  rw [hplace] at hboth
  rwa [CMOState.outputs_cmo hperiod hempty, cmo, ← outputs_sma, ← outputs_sma]

end Places

/-! ### When an average has warmed up -/

/-- A recursive average has a value when it has given one. -/
theorem recursiveAverage_warmedUp (period : ℕ) (alpha : ℚ) (state : RecursiveAverageState)
    (xs : List Value) :
    (final (RecursiveAverageState.update period alpha) state xs).warmedUp ↔
      state.warmedUp ∨
        ∃ y ∈ outputs (RecursiveAverageState.update period alpha) state xs, y.isSome := by
  induction xs generalizing state with
  | nil => simp
  | cons x xs ih =>
    have hstep : (RecursiveAverageState.update period alpha state x).1.warmedUp ↔
        state.warmedUp ∨ (RecursiveAverageState.update period alpha state x).2.isSome := by
      obtain ⟨seed, value⟩ := state
      rcases x with _ | x <;> rcases value with _ | value <;>
        simp [RecursiveAverageState.update, RecursiveAverageState.warmedUp,
          RecursiveAverageState.current]
    rw [final_cons, ih, hstep, outputs_cons, List.exists_mem_cons_iff, or_assoc]

theorem ema_warmedUp {period start : ℕ} {xs : List Value}
    (h : DefinedFrom start (outputs (EmaState.update period) .new xs)) :
    (final (EmaState.update period) .new xs).warmedUp ↔ start < xs.length := by
  have hiff := recursiveAverage_warmedUp period (emaAlpha period) .new xs
  have hnew : ¬ RecursiveAverageState.new.warmedUp := by decide
  have hsome := h.exists_isSome
  rw [length_outputs] at hsome
  rw [← hsome]
  exact hiff.trans (or_iff_right hnew)

/-! ### Declared histories -/

/-- An indicator state: what it does with a candle, what it shows, the values of an output, whether
it says it has warmed up, and the history it asks for. -/
structure Indicator where
  State : Type
  Output : Type
  update : State → Candle → State × Output
  new : State
  current : State → Output
  values : Output → List Value
  warmedUp : State → Prop
  minHistory : ℕ

namespace Indicator

variable (indicator : Indicator)

/-- The state after seeding with some candles. -/
def seed (candles : List Candle) : indicator.State :=
  final indicator.update indicator.new candles

/-- Every value of an output is defined. -/
def Complete (output : indicator.Output) : Prop :=
  ∀ value ∈ indicator.values output, value.isSome

/-- The declared history is exact: it is the least number of candles that always leaves every
output defined, and from its last candle on no update gives an undefined output and the state says
it has warmed up. -/
structure Exact : Prop where
  least : IsLeast {n | ∀ candles : List Candle, candles.length = n →
    indicator.Complete (indicator.current (indicator.seed candles))} indicator.minHistory
  never_aborts : ∀ (candles : List Candle) (candle : Candle),
    indicator.minHistory ≤ candles.length + 1 →
    indicator.Complete (indicator.update (indicator.seed candles) candle).2 ∧
      indicator.warmedUp (indicator.seed (candles ++ [candle]))

/-- The outputs are complete from a place on. -/
def RowsFrom (start : ℕ) : Prop :=
  ∀ (candles : List Candle) (candle : Candle),
    indicator.Complete (indicator.update (indicator.seed candles) candle).2 ↔
      start ≤ candles.length

/-- What the state shows is complete after the candle at a place. -/
def ShownFrom (start : ℕ) : Prop :=
  ∀ candles : List Candle,
    indicator.Complete (indicator.current (indicator.seed candles)) ↔ start < candles.length

/-- After every update the state shows its output, and before the first one something is missing. -/
structure ShowsOutput : Prop where
  shown : ∀ state candle,
    indicator.current (indicator.update state candle).1 = (indicator.update state candle).2
  new : ¬ indicator.Complete (indicator.current indicator.new)

variable {indicator}

theorem seed_concat (candles : List Candle) (candle : Candle) :
    indicator.seed (candles ++ [candle]) =
      (indicator.update (indicator.seed candles) candle).1 :=
  final_concat indicator.update indicator.new candles candle

namespace ShowsOutput

variable (h : indicator.ShowsOutput) {start : ℕ}

include h

theorem shownFrom (hrows : indicator.RowsFrom start) : indicator.ShownFrom start := by
  intro candles
  induction candles using List.reverseRecOn with
  | nil => simpa [seed] using h.new
  | append_singleton candles candle _ =>
    rw [seed_concat, h.shown, hrows, List.length_append, List.length_singleton, Nat.lt_succ_iff]

end ShowsOutput

/-- **When a declared history is exact.** Where the outputs begin at a place, the history has to be
one more. -/
theorem exact_iff {start : ℕ} (hrows : indicator.RowsFrom start)
    (hshown : indicator.ShownFrom start)
    (hwarm : ∀ state, indicator.Complete (indicator.current state) → indicator.warmedUp state) :
    indicator.Exact ↔ indicator.minHistory = start + 1 := by
  -- all histories of a length complete the state from one length on
  have hset (n : ℕ) : (∀ candles : List Candle, candles.length = n →
      indicator.Complete (indicator.current (indicator.seed candles))) ↔ start + 1 ≤ n := by
    constructor
    · intro hall
      have := (hshown _).1 (hall (List.replicate n (.flat 1 Nat.one_pos)) (by simp))
      rwa [List.length_replicate] at this
    · rintro hle candles rfl
      exact (hshown candles).2 hle
  constructor
  · intro hexact
    have hmem := (hset _).1 hexact.least.1
    have hle := hexact.least.2 ((hset (start + 1)).2 (le_refl _))
    exact le_antisymm hle hmem
  · intro heq
    refine ⟨⟨(hset _).2 heq.ge, fun n hn => heq ▸ (hset n).1 hn⟩, fun candles candle hlong => ?_⟩
    have hlt : start < (candles ++ [candle]).length := by
      rw [List.length_append, List.length_singleton]
      omega
    exact ⟨(hrows candles candle).2 (by omega), hwarm _ ((hshown _).2 hlt)⟩

/-- The values of the outputs, given where each of them begins. -/
theorem rowsFrom_of_outputs {start : ℕ}
    (h : ∀ (candles : List Candle) (i : ℕ)
      (hi : i < (outputs indicator.update indicator.new candles).length),
      indicator.Complete (outputs indicator.update indicator.new candles)[i] ↔ start ≤ i) :
    indicator.RowsFrom start := by
  intro candles candle
  have hlast := h (candles ++ [candle]) candles.length (by simp)
  simp only [outputs_concat] at hlast
  rw [List.getElem_append_right (by simp)] at hlast
  simpa [seed] using hlast

/-! ### Outputs of two, three and four values -/

section Rows

variable {a b c d : ℕ} {xs ys zs ws : List Candle → List Value}

theorem rowsFrom_pair {mk : Value → Value → indicator.Output}
    (hvalues : ∀ x y, indicator.values (mk x y) = [x, y])
    (h : ∀ candles, outputs indicator.update indicator.new candles =
      List.zipWith mk (xs candles) (ys candles))
    (hx : ∀ candles, DefinedFrom a (xs candles)) (hy : ∀ candles, DefinedFrom b (ys candles)) :
    indicator.RowsFrom (max a b) := by
  apply rowsFrom_of_outputs
  simp only [h]
  intro candles i hi
  have hlt := hi
  rw [List.length_zipWith, lt_min_iff] at hlt
  rw [Complete, List.getElem_zipWith, hvalues, List.forall_mem_cons, List.forall_mem_singleton,
    hx _ _ hlt.1, hy _ _ hlt.2, max_le_iff]

theorem rowsFrom_triple {mk : Value → Value → Value → indicator.Output}
    (hvalues : ∀ x y z, indicator.values (mk x y z) = [x, y, z])
    (h : ∀ candles, outputs indicator.update indicator.new candles =
      List.zipWith3 mk (xs candles) (ys candles) (zs candles))
    (hx : ∀ candles, DefinedFrom a (xs candles)) (hy : ∀ candles, DefinedFrom b (ys candles))
    (hz : ∀ candles, DefinedFrom c (zs candles)) : indicator.RowsFrom (max a (max b c)) := by
  apply rowsFrom_of_outputs
  simp only [h]
  intro candles i hi
  obtain ⟨hxi, hyi, hzi, heq⟩ := getElem_zipWith3 _ _ _ _ i hi
  rw [Complete, heq, hvalues, List.forall_mem_cons, List.forall_mem_cons,
    List.forall_mem_singleton, hx _ _ hxi, hy _ _ hyi, hz _ _ hzi, max_le_iff, max_le_iff]

theorem rowsFrom_quadruple {mk : Value → Value → Value → Value → indicator.Output}
    (hvalues : ∀ x y z w, indicator.values (mk x y z w) = [x, y, z, w])
    (h : ∀ candles, outputs indicator.update indicator.new candles =
      List.zipWith4 mk (xs candles) (ys candles) (zs candles) (ws candles))
    (hx : ∀ candles, DefinedFrom a (xs candles)) (hy : ∀ candles, DefinedFrom b (ys candles))
    (hz : ∀ candles, DefinedFrom c (zs candles)) (hw : ∀ candles, DefinedFrom d (ws candles)) :
    indicator.RowsFrom (max a (max b (max c d))) := by
  apply rowsFrom_of_outputs
  simp only [h]
  intro candles i hi
  obtain ⟨hxi, hyi, hzi, hwi, heq⟩ := getElem_zipWith4 _ _ _ _ _ i hi
  rw [Complete, heq, hvalues, List.forall_mem_cons, List.forall_mem_cons, List.forall_mem_cons,
    List.forall_mem_singleton, hx _ _ hxi, hy _ _ hyi, hz _ _ hzi, hw _ _ hwi, max_le_iff,
    max_le_iff, max_le_iff]

end Rows

/-! ### Indicators of one value -/

section Scalar

variable {State : Type} {update : State → Candle → State × Value} {new : State}
  {current : State → Value} {warmedUp : State → Prop} {minHistory : ℕ} (start : ℕ)

/-- An indicator of one value. -/
def scalar (update : State → Candle → State × Value) (new : State) (current : State → Value)
    (warmedUp : State → Prop) (minHistory : ℕ) : Indicator where
  State := State
  Output := Value
  update := update
  new := new
  current := current
  values output := [output]
  warmedUp := warmedUp
  minHistory := minHistory

theorem scalar_exact_iff (h : ∀ candles, DefinedFrom start (outputs update new candles))
    (hshown : ∀ candles, (current (final update new candles)).isSome ↔ start < candles.length)
    (hwarm : ∀ state, (current state).isSome → warmedUp state) :
    (scalar update new current warmedUp minHistory).Exact ↔ minHistory = start + 1 := by
  have hcomplete (value : Value) :
      (scalar update new current warmedUp minHistory).Complete value ↔ value.isSome :=
    List.forall_mem_singleton
  refine exact_iff (rowsFrom_of_outputs fun candles i hi => ?_) (fun candles => ?_)
    fun state hstate => hwarm state ((hcomplete _).1 hstate)
  · exact (hcomplete _).trans (h candles i hi)
  · exact (hcomplete _).trans (hshown candles)

variable {start}

/-- A state that shows its output after every update. -/
theorem scalar_shown (hshown : ∀ state candle,
      current (update state candle).1 = (update state candle).2) (hnew : current new = none)
    (h : ∀ candles, DefinedFrom start (outputs update new candles)) (candles : List Candle) :
    (current (final update new candles)).isSome ↔ start < candles.length := by
  induction candles using List.reverseRecOn with
  | nil => simp [hnew]
  | append_singleton candles candle _ =>
    rw [final_concat, hshown, definedFrom_snd (h (candles ++ [candle])), List.length_append,
      List.length_singleton, Nat.lt_succ_iff]

/-- Where such a state shows a value from a place on, so do its outputs. -/
theorem definedFrom_of_shown (hshown : ∀ state candle,
      current (update state candle).1 = (update state candle).2)
    (h : ∀ candles, (current (final update new candles)).isSome ↔ start < candles.length)
    (candles : List Candle) : DefinedFrom start (outputs update new candles) := by
  intro i hi
  have hlt : i < candles.length := by simpa using hi
  have hafter := h (candles.take (i + 1))
  rw [take_succ_eq_concat hlt, final_concat, hshown, List.length_append, List.length_singleton,
    List.length_take, min_eq_left hlt.le, Nat.lt_succ_iff] at hafter
  rw [getElem_outputs, ← hafter]

/-- A state that keeps its last value and says it has warmed up when that is defined. -/
theorem keptValue_exact_iff {value : State → Value} (hshown : ∀ state candle,
      value (update state candle).1 = (update state candle).2) (hnew : value new = none)
    (h : ∀ candles, DefinedFrom start (outputs update new candles)) :
    (scalar update new value (fun state => (value state).isSome) minHistory).Exact ↔
      minHistory = start + 1 :=
  scalar_exact_iff start h (scalar_shown hshown hnew h) fun _ => id

end Scalar

/-! ### Indicators of several values -/

/-- Of defined values none is missing. -/
theorem not_exists_isNone {values : List Value} (h : ∀ value ∈ values, value.isSome) :
    ¬ ∃ value ∈ values, value.isNone := by
  rintro ⟨value, hvalue, hnone⟩
  have hsome := h value hvalue
  rw [Option.isNone_iff_eq_none.1 hnone] at hsome
  exact absurd hsome (by decide)

section Record

variable {State Output : Type} {update : State → Candle → State × Output} {new : State}
  {value : State → Output} {values : Output → List Value} {warmedUp : State → Prop}
  {start minHistory : ℕ}

/-- A state that keeps its last output. -/
def kept (update : State → Candle → State × Output) (new : State) (value : State → Output)
    (values : Output → List Value) (warmedUp : State → Prop) (minHistory : ℕ) : Indicator where
  State := State
  Output := Output
  update := update
  new := new
  current := value
  values := values
  warmedUp := warmedUp
  minHistory := minHistory

theorem kept_exact_iff (hshown : ∀ state candle,
      value (update state candle).1 = (update state candle).2)
    (hnew : none ∈ values (value new))
    (hwarm : ∀ state, (∀ v ∈ values (value state), v.isSome) → warmedUp state)
    (hrows : (kept update new value values warmedUp minHistory).RowsFrom start) :
    (kept update new value values warmedUp minHistory).Exact ↔ minHistory = start + 1 := by
  have hshows : (kept update new value values warmedUp minHistory).ShowsOutput :=
    ⟨hshown, fun hcomplete => absurd (hcomplete none hnew) (by simp)⟩
  exact exact_iff hrows (hshows.shownFrom hrows) hwarm

end Record

end Indicator

end Indicators
end TradingSystem
