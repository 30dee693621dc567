import TradingSystem.Streaming.Transducer
import Mathlib.Data.List.ReduceOption
import Mathlib.Data.List.Count

/-!
# Windows of partly undefined values

The window of a prefix is its last `period` values. It is complete when there are that many and
every one is defined.

* `completeWindow` — the values of a complete window.
* `completeWindow_isSome` — when the window at an index is complete.
* `mem_of_completeWindow` — its values are values of the series.
* `DefinedFrom` — a series that is undefined up to an index and defined from there on, the shape
  of every warm-up; `DefinedFrom.prefixes` and `DefinedFrom.zipWith` are what a window
  and a combination of two series do to it.
-/

namespace TradingSystem
namespace Streaming

variable {α β : Type*}

/-- The values of the last `period` places, when there are that many and all are defined. -/
def completeWindow [DecidableEq α] (period : ℕ) (xs : List (Option α)) : Option (List α) :=
  if (xs.rtake period).length = period ∧ none ∉ xs.rtake period then
    some (xs.rtake period).reduceOption
  else none

section CompleteWindow

variable [DecidableEq α] {period : ℕ} {xs : List (Option α)}

theorem completeWindow_eq_some {window : List α} :
    completeWindow period xs = some window ↔ xs.rtake period = window.map some ∧
      window.length = period := by
  constructor
  · intro h
    rw [completeWindow] at h
    split at h
    · rename_i hcomplete
      obtain rfl := Option.some.inj h
      -- without a gap the window is the list of its values
      have hmap : xs.rtake period = (xs.rtake period).reduceOption.map some := by
        have hall : ∀ x ∈ xs.rtake period, x ≠ none := fun x hx hnone =>
          hcomplete.2 (hnone ▸ hx)
        generalize xs.rtake period = w at hall
        induction w with
        | nil => rfl
        | cons x w ih =>
          obtain ⟨y, rfl⟩ := Option.ne_none_iff_exists'.1 (hall x (by simp))
          rw [List.reduceOption_cons_of_some, List.map_cons,
            ← ih fun z hz => hall z (by simp [hz])]
      have hlength := congrArg List.length hmap
      rw [List.length_map] at hlength
      exact ⟨hmap, hlength.symm.trans hcomplete.1⟩
    · cases h
  · rintro ⟨hmap, hlength⟩
    have hnone : none ∉ xs.rtake period := by simp [hmap]
    have hreduce : (window.map some).reduceOption = window := by
      induction window with
      | nil => rfl
      | cons y ys ih => simp [List.reduceOption]
    rw [completeWindow, if_pos ⟨by rw [hmap, List.length_map, hlength], hnone⟩, hmap, hreduce]

theorem mem_of_completeWindow {window : List α} (h : completeWindow period xs = some window)
    {x : α} (hx : x ∈ window) : some x ∈ xs := by
  have hmem : some x ∈ xs.rtake period := by
    rw [(completeWindow_eq_some.1 h).1]
    exact List.mem_map_of_mem hx
  exact List.mem_of_mem_drop hmem

theorem completeWindow_isSome :
    (completeWindow period xs).isSome ↔
      period ≤ xs.length ∧ ∀ x ∈ xs.rtake period, x.isSome := by
  have hlength : (xs.rtake period).length = period ↔ period ≤ xs.length := by
    rw [length_rtake]
    omega
  have hnone : none ∉ xs.rtake period ↔ ∀ x ∈ xs.rtake period, x.isSome := by
    refine ⟨fun h x hx => ?_, fun h hx => by simpa using h none hx⟩
    exact Option.isSome_iff_ne_none.2 fun hnone => h (hnone ▸ hx)
  rw [completeWindow, ← hlength, ← hnone]
  split <;> simp_all

/-- Of defined values every full window is complete. -/
theorem completeWindow_map_some (period : ℕ) (xs : List α) :
    completeWindow period (xs.map some) =
      if period ≤ xs.length then some (xs.rtake period) else none := by
  have hrtake : (xs.map some).rtake period = (xs.rtake period).map some := by
    simp [List.rtake, List.map_drop]
  split
  · rename_i h
    exact completeWindow_eq_some.2 ⟨hrtake, by rw [length_rtake]; omega⟩
  · rename_i h
    rw [← Option.not_isSome_iff_eq_none, completeWindow_isSome, List.length_map]
    exact fun hcomplete => h hcomplete.1

end CompleteWindow

/-! ### Warm-ups -/

/-- Undefined before an index, defined from it on. -/
def DefinedFrom (start : ℕ) (xs : List (Option α)) : Prop :=
  ∀ i (h : i < xs.length), xs[i].isSome ↔ start ≤ i

namespace DefinedFrom

variable {start : ℕ} {xs : List (Option α)}

theorem map_some (xs : List α) : DefinedFrom 0 (xs.map some) := fun i h => by simp

/-- The same place, written another way. -/
theorem place {start' : ℕ} (h : DefinedFrom start xs) (heq : start = start') :
    DefinedFrom start' xs := heq ▸ h

/-- A series that begins at a place has a value when it is longer. -/
theorem exists_isSome (h : DefinedFrom start xs) : (∃ y ∈ xs, y.isSome) ↔ start < xs.length := by
  constructor
  · rintro ⟨y, hy, hsome⟩
    obtain ⟨i, hi, rfl⟩ := List.getElem_of_mem hy
    exact ((h i hi).1 hsome).trans_lt hi
  · intro hlt
    exact ⟨xs[start], List.getElem_mem hlt, (h start hlt).2 (le_refl _)⟩

/-- A value computed from two others begins with the later one. -/
theorem zipWith {γ : Type*} {start' : ℕ} {ys : List (Option β)}
    {f : Option α → Option β → Option γ}
    (hf : ∀ x y, (f x y).isSome ↔ x.isSome ∧ y.isSome) (h : DefinedFrom start xs)
    (h' : DefinedFrom start' ys) : DefinedFrom (max start start') (List.zipWith f xs ys) := by
  intro i hi
  rw [List.getElem_zipWith, hf, h, h', max_le_iff]

/-- A window over a series completes `period - 1` places after the series begins. -/
theorem prefixes [DecidableEq α] (h : DefinedFrom start xs) {period : ℕ} (hperiod : 0 < period)
    {f : List (Option α) → Option β}
    (hf : ∀ ys, (f ys).isSome ↔ (completeWindow period ys).isSome) :
    DefinedFrom (start + (period - 1)) (prefixes f xs) := by
  intro i hi
  have hlt : i < xs.length := by simpa using hi
  rw [getElem_prefixes, hf, completeWindow_isSome]
  have hlength : (xs.take (i + 1)).length = i + 1 := by simp; omega
  constructor
  · rintro ⟨hle, hall⟩
    rw [hlength] at hle
    have hmem : getElem xs (i + 1 - period) (by omega) ∈ (xs.take (i + 1)).rtake period := by
      rw [List.rtake, hlength, List.mem_drop_iff_getElem]
      exact ⟨0, by omega, by simp⟩
    have := (h _ _).1 (hall _ hmem)
    omega
  · intro hle
    refine ⟨by omega, fun x hx => ?_⟩
    rw [List.rtake, hlength, List.mem_drop_iff_getElem] at hx
    obtain ⟨j, hj, rfl⟩ := hx
    rw [List.getElem_take]
    exact (h _ _).2 (by omega)

end DefinedFrom

end Streaming
end TradingSystem
