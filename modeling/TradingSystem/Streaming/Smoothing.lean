import TradingSystem.Streaming.Window
import Mathlib.Analysis.Convex.Basic
import Mathlib.Algebra.Order.Field.Rat
import Mathlib.Tactic.FieldSimp
import Mathlib.Tactic.Positivity

/-!
# Smoothing in a vector space

A recursive average starts from the mean of `period` values and then moves a fraction of the way
to each new one; a rolling average is the mean of a window. Both only ever form convex
combinations, so they stay in every convex set the values lie in. Over tuples this bounds averages
that are run side by side against each other.

* `listMean_mem` — the mean of values in a convex set is in it.
* `smooth` — the recursive average; `smooth_mem` keeps it in a convex set, `smooth_map` takes it
  through a linear map.
-/

namespace TradingSystem
namespace Streaming

variable {M N : Type*} [AddCommGroup M] [Module ℚ M] [AddCommGroup N] [Module ℚ N]

/-- The mean of a list of vectors. -/
def listMean (xs : List M) : M := (xs.length : ℚ)⁻¹ • xs.sum

theorem listMean_cons {x : M} {xs : List M} (h : xs ≠ []) :
    listMean (x :: xs) = ((xs.length : ℚ) + 1)⁻¹ • x +
      ((xs.length : ℚ) / (xs.length + 1)) • listMean xs := by
  have hpos : (xs.length : ℚ) ≠ 0 := by
    exact_mod_cast (List.length_pos_of_ne_nil h).ne'
  have hpos' : (xs.length : ℚ) + 1 ≠ 0 := by positivity
  have hscalar : (xs.length : ℚ) / (xs.length + 1) * (xs.length : ℚ)⁻¹ =
      ((xs.length : ℚ) + 1)⁻¹ := by field_simp
  rw [listMean, listMean, smul_smul, hscalar, List.sum_cons, List.length_cons, smul_add]
  push_cast
  rfl

/-- The mean of values in a convex set is in it. -/
theorem listMean_mem {C : Set M} (hC : Convex ℚ C) {xs : List M} (hne : xs ≠ [])
    (h : ∀ x ∈ xs, x ∈ C) : listMean xs ∈ C := by
  induction xs with
  | nil => exact absurd rfl hne
  | cons x xs ih =>
    by_cases hxs : xs = []
    · subst hxs
      simpa [listMean] using h x (by simp)
    · have hfirst : 0 ≤ ((xs.length : ℚ) + 1)⁻¹ := by positivity
      have hrest : 0 ≤ (xs.length : ℚ) / (xs.length + 1) := by positivity
      have hsum : ((xs.length : ℚ) + 1)⁻¹ + (xs.length : ℚ) / (xs.length + 1) = 1 := by
        field_simp
        ring
      rw [listMean_cons hxs]
      exact hC (h x (by simp)) (ih hxs fun y hy => h y (by simp [hy])) hfirst hrest hsum

theorem map_listMean (φ : M →ₗ[ℚ] N) (xs : List M) : φ (listMean xs) = listMean (xs.map φ) := by
  rw [listMean, listMean, map_smul, map_list_sum, List.length_map]

/-! ### Recursive averages -/

/-- The values of the seed, then the average. -/
structure Smoothing (M : Type*) where
  seed : List M
  value : Option M

/-- Advance a recursive average by one value. -/
def smooth (period : ℕ) (alpha : ℚ) (state : Smoothing M) : Option M → Smoothing M × Option M
  | none => (if state.value.isNone then { state with seed := [] } else state, none)
  | some x =>
    match state.value with
    | none =>
      let seed := state.seed ++ [x]
      if seed.length = period then (⟨[], some (listMean seed)⟩, some (listMean seed))
      else (⟨seed, none⟩, none)
    | some current =>
      let next := current + alpha • (x - current)
      ({ state with value := some next }, some next)

/-- A state inside a set. -/
def Smoothing.Within (C : Set M) (state : Smoothing M) : Prop :=
  (∀ x ∈ state.seed, x ∈ C) ∧ ∀ x ∈ state.value, x ∈ C

/-- A step to a value of a convex set stays in it. -/
theorem Smoothing.Within.step {C : Set M} (hC : Convex ℚ C) {period : ℕ} {alpha : ℚ}
    (halpha : 0 ≤ alpha) (halpha' : alpha ≤ 1) {state : Smoothing M} (h : state.Within C)
    {x : Option M} (hx : ∀ y ∈ x, y ∈ C) :
    (smooth period alpha state x).1.Within C ∧ ∀ y ∈ (smooth period alpha state x).2, y ∈ C := by
  obtain ⟨seed, value⟩ := state
  obtain ⟨hseed, hvalue⟩ := h
  rcases x with _ | x
  · refine ⟨?_, by simp [smooth]⟩
    cases value with
    | none => exact ⟨by simp [smooth], by simp [smooth]⟩
    | some current => exact ⟨hseed, hvalue⟩
  · have hx := hx x rfl
    -- a full seed gives its mean, later values are steps towards the input
    cases value with
    | none =>
      have hseed' : ∀ y ∈ seed ++ [x], y ∈ C := by
        intro y hy
        rcases List.mem_append.1 hy with hy | hy
        · exact hseed y hy
        · exact List.mem_singleton.1 hy ▸ hx
      simp only [smooth]
      split
      · have hmean := listMean_mem hC (by simp) hseed'
        refine ⟨⟨by simp, fun y hy => ?_⟩, fun y hy => ?_⟩ <;>
          exact Option.some.inj hy ▸ hmean
      · exact ⟨⟨hseed', by simp⟩, by simp⟩
    | some current =>
      have hcurrent := hvalue current rfl
      have hnext : current + alpha • (x - current) ∈ C := by
        have := hC hcurrent hx (sub_nonneg.2 halpha') halpha (by ring)
        rwa [sub_smul, one_smul, sub_add, ← smul_sub, ← neg_sub x current, smul_neg,
          sub_neg_eq_add] at this
      exact ⟨⟨hseed, fun y hy => Option.some.inj hy ▸ hnext⟩,
        fun y hy => Option.some.inj hy ▸ hnext⟩

/-- **Smoothing stays in convex sets.** -/
theorem smooth_mem {C : Set M} (hC : Convex ℚ C) {period : ℕ} {alpha : ℚ} (halpha : 0 ≤ alpha)
    (halpha' : alpha ≤ 1) {xs : List (Option M)} (hxs : ∀ x ∈ xs, ∀ y ∈ x, y ∈ C) :
    ∀ x ∈ outputs (smooth period alpha) ⟨[], none⟩ xs, ∀ y ∈ x, y ∈ C :=
  forall_mem_outputs (Smoothing.Within C) (fun x => ∀ y ∈ x, y ∈ C) (fun x => ∀ y ∈ x, y ∈ C)
    (fun _ _ hstate hx => hstate.step hC halpha halpha' hx) ⟨by simp, by simp⟩ hxs

/-- Smoothing commutes with a linear map. -/
theorem smooth_map (φ : M →ₗ[ℚ] N) (period : ℕ) (alpha : ℚ) (state : Smoothing M)
    (xs : List (Option M)) :
    outputs (smooth period alpha) ⟨state.seed.map φ, state.value.map φ⟩ (xs.map (Option.map φ)) =
      (outputs (smooth period alpha) state xs).map (Option.map φ) := by
  induction xs generalizing state with
  | nil => rfl
  | cons x xs ih =>
    obtain ⟨seed, value⟩ := state
    rcases x with _ | x <;> rcases value with _ | current
    · simpa [smooth] using ih ⟨[], none⟩
    · simpa [smooth] using ih ⟨seed, some current⟩
    · -- the seed fills on both sides at once
      by_cases hfull : (seed ++ [x]).length = period
      · have hseed : seed.map φ ++ [φ x] = (seed ++ [x]).map φ := by simp
        have hmapped : ((seed ++ [x]).map φ).length = period := by rwa [List.length_map]
        simp only [List.map_cons, Option.map_some, Option.map_none, outputs_cons, smooth, hseed,
          if_pos hfull, if_pos hmapped, ← map_listMean]
        exact congrArg _ (ih ⟨[], some (listMean (seed ++ [x]))⟩)
      · have hseed : seed.map φ ++ [φ x] = (seed ++ [x]).map φ := by simp
        have hmapped : ¬ ((seed ++ [x]).map φ).length = period := by rwa [List.length_map]
        simp only [List.map_cons, Option.map_some, Option.map_none, outputs_cons, smooth, hseed,
          if_neg hfull, if_neg hmapped]
        exact congrArg _ (ih ⟨seed ++ [x], none⟩)
    · have hnext : φ current + alpha • (φ x - φ current) = φ (current + alpha • (x - current)) := by
        simp
      simp only [List.map_cons, Option.map_some, outputs_cons, smooth, hnext]
      exact congrArg _ (ih ⟨seed, some (current + alpha • (x - current))⟩)

/-- Smoothing a linear image of values smoothes the values. -/
theorem smooth_map_new (φ : M →ₗ[ℚ] N) (period : ℕ) (alpha : ℚ) (xs : List (Option M)) :
    outputs (smooth period alpha) ⟨[], none⟩ (xs.map (Option.map φ)) =
      (outputs (smooth period alpha) ⟨[], none⟩ xs).map (Option.map φ) :=
  smooth_map φ period alpha ⟨[], none⟩ xs

/-! ### Warm-ups -/

/-- The state of a recursive average whose values start at a place: the seed holds the values
gathered so far, until it is full and gives the first average. -/
structure Smoothing.WarmingUp (period start seen : ℕ) (state : Smoothing M) : Prop where
  value : state.value.isSome ↔ start + period ≤ seen
  seed : state.value = none → state.seed.length = seen - start

/-- One more place: the seed takes a value, or the average is defined from here on. -/
theorem Smoothing.WarmingUp.step {period start seen : ℕ} (hperiod : 0 < period) (alpha : ℚ)
    {state : Smoothing M} (h : state.WarmingUp period start seen) {x : Option M}
    (hx : x.isSome ↔ start ≤ seen) :
    (smooth period alpha state x).1.WarmingUp period start (seen + 1) ∧
      ((smooth period alpha state x).2.isSome ↔ start + (period - 1) ≤ seen) := by
  obtain ⟨hvalue, hseed⟩ := h
  obtain ⟨seed, value⟩ := state
  suffices hnext : ((smooth period alpha ⟨seed, value⟩ x).1.value.isSome ↔
        start + period ≤ seen + 1) ∧
      ((smooth period alpha ⟨seed, value⟩ x).1.value = none →
        (smooth period alpha ⟨seed, value⟩ x).1.seed.length = seen + 1 - start) ∧
      ((smooth period alpha ⟨seed, value⟩ x).2.isSome ↔ start + (period - 1) ≤ seen) from
    ⟨⟨hnext.1, hnext.2.1⟩, hnext.2.2⟩
  -- without an average the seed is still short; with one it stays defined
  rcases value with _ | current
  · have hshort : ¬ start + period ≤ seen := by simpa using hvalue
    have hlength : seed.length = seen - start := hseed rfl
    rcases x with _ | x
    · have hbefore : ¬ start ≤ seen := by simpa using hx
      simp [smooth]
      omega
    · have hafter : start ≤ seen := by simpa using hx
      by_cases hfull : (seed ++ [x]).length = period
      · simp only [smooth, if_pos hfull]
        simp only [List.length_append, List.length_singleton] at hfull
        simp
        omega
      · simp only [smooth, if_neg hfull]
        simp only [List.length_append, List.length_singleton] at hfull ⊢
        simp
        omega
  · have hlong : start + period ≤ seen := by simpa using hvalue
    rcases x with _ | x
    · have hbefore : ¬ start ≤ seen := by simpa using hx
      omega
    · simp [smooth]
      omega

/-- So it is at every later place. -/
theorem Smoothing.WarmingUp.run {period start : ℕ} (hperiod : 0 < period) (alpha : ℚ)
    {xs : List (Option M)} :
    ∀ {seen : ℕ} {state : Smoothing M}, state.WarmingUp period start seen →
      (∀ i (hi : i < xs.length), xs[i].isSome ↔ start ≤ seen + i) →
      ∀ i (hi : i < (outputs (smooth period alpha) state xs).length),
        (outputs (smooth period alpha) state xs)[i].isSome ↔ start + (period - 1) ≤ seen + i := by
  induction xs with
  | nil =>
    intro _ _ _ _ i hi
    simp at hi
  | cons x xs ih =>
    intro seen state h hxs i hi
    have hx := hxs 0 (by simp)
    simp only [List.getElem_cons_zero, Nat.add_zero] at hx
    obtain ⟨hnext, hgives⟩ := h.step hperiod alpha hx
    -- after one input the start is one nearer
    have hrest : ∀ j (hj : j < xs.length), xs[j].isSome ↔ start ≤ seen + 1 + j := by
      intro j hj
      have := hxs (j + 1) (by simpa using hj)
      rw [List.getElem_cons_succ] at this
      rw [this]
      omega
    cases i with
    | zero => simpa using hgives
    | succ i =>
      have := ih hnext hrest i (by simpa using hi)
      simp only [outputs_cons, List.getElem_cons_succ]
      rw [this]
      omega

/-- A recursive average starts `period - 1` places after its values do. -/
theorem DefinedFrom.smooth {start : ℕ} {xs : List (Option M)} (h : DefinedFrom start xs)
    {period : ℕ} (hperiod : 0 < period) (alpha : ℚ) :
    DefinedFrom (start + (period - 1)) (outputs (smooth period alpha) ⟨[], none⟩ xs) := by
  have hnew : (⟨[], none⟩ : Smoothing M).WarmingUp period start 0 :=
    ⟨by simp; omega, by simp⟩
  intro i hi
  have := hnew.run hperiod alpha (fun j hj => by simpa using h j hj) i hi
  rwa [Nat.zero_add] at this

end Streaming
end TradingSystem
