import Mathlib.Algebra.Group.Basic
import Mathlib.Data.List.Chain

/-!
# Runs of equally spaced values

A list of values written as runs: the first value of a run and the number of values that
follow each other at a fixed step. `encode` reads the values from left to right and extends
the last run whenever the next value is the one after it.

* `expand_encode` — expanding the runs of a list returns the list.
* `encode_expand` — the runs of an expansion are the runs that were expanded, when no run
  begins where the one before it ends; `maximal_encode` says that all encodings are so.
-/

namespace TradingSystem
namespace Data
namespace Runs

variable {α : Type*} [AddMonoid α] (step : α)

/-- The value after the last one of a run. -/
def after (run : α × ℕ) : α := run.1 + run.2 • step

/-- One more value: the last run grows, or a new one begins. -/
def extend [DecidableEq α] (runs : List (α × ℕ)) (value : α) : List (α × ℕ) :=
  match runs.getLast? with
  | some run =>
      if value = after step run then runs.dropLast ++ [(run.1, run.2 + 1)]
      else runs ++ [(value, 1)]
  | none => [(value, 1)]

def encode [DecidableEq α] (values : List α) : List (α × ℕ) := values.foldl (extend step) []

/-- The values of a run. -/
def expandRun (run : α × ℕ) : List α :=
  (List.range run.2).map fun offset => run.1 + offset • step

def expand (runs : List (α × ℕ)) : List α := runs.flatMap (expandRun step)

/-- No run is empty, and none begins where the one before it ends. -/
structure Maximal (runs : List (α × ℕ)) : Prop where
  count_pos : ∀ run ∈ runs, 0 < run.2
  apart : runs.IsChain fun left right => right.1 ≠ after step left

variable {step} {runs : List (α × ℕ)} {run : α × ℕ} {value first : α}

theorem expandRun_succ (first : α) (count : ℕ) :
    expandRun step (first, count + 1) =
      expandRun step (first, count) ++ [after step (first, count)] := by
  unfold expandRun
  rw [List.range_succ, List.map_append]
  rfl

theorem expandRun_one (first : α) : expandRun step (first, 1) = [first] := by
  show [first + 0 • step] = [first]
  rw [zero_nsmul, add_zero]

theorem expand_append (left right : List (α × ℕ)) :
    expand step (left ++ right) = expand step left ++ expand step right :=
  List.flatMap_append

theorem expand_singleton (run : α × ℕ) : expand step [run] = expandRun step run :=
  List.flatMap_singleton _ _

theorem maximal_nil : Maximal step [] :=
  ⟨by intro run hrun; exact absurd hrun List.not_mem_nil, List.isChain_nil⟩

/-- Only the start of a run matters for what is before it. -/
theorem maximal_concat :
    Maximal step (runs ++ [run]) ↔
      Maximal step runs ∧ 0 < run.2 ∧ ∀ last ∈ runs.getLast?, run.1 ≠ after step last := by
  constructor
  · rintro ⟨hcount, hchain⟩
    obtain ⟨hruns, -, hlast⟩ := List.isChain_append.1 hchain
    refine ⟨⟨?_, hruns⟩, ?_, ?_⟩
    · exact fun other hother => hcount other (List.mem_append_left _ hother)
    · exact hcount run (List.mem_append_right _ (List.mem_singleton_self run))
    · exact fun last hmem => hlast last hmem run rfl
  · rintro ⟨⟨hcount, hchain⟩, hpos, hlast⟩
    refine ⟨?_, hchain.append (List.isChain_singleton run) ?_⟩
    · intro other hother
      obtain hother | hother := List.mem_append.1 hother
      · exact hcount other hother
      · rw [List.mem_singleton.1 hother]
        exact hpos
    · intro last hmem other hother
      rw [← Option.mem_some_iff.1 hother]
      exact hlast last hmem

variable [DecidableEq α]

theorem extend_nil : extend step [] value = [(value, 1)] := rfl

theorem extend_of_eq (h : value = after step run) :
    extend step (runs ++ [run]) value = runs ++ [(run.1, run.2 + 1)] := by
  unfold extend
  rw [List.getLast?_concat, List.dropLast_concat]
  exact if_pos h

theorem extend_of_ne (h : value ≠ after step run) :
    extend step (runs ++ [run]) value = runs ++ [run] ++ [(value, 1)] := by
  unfold extend
  rw [List.getLast?_concat]
  exact if_neg h

/-- **One more value** is one more value of the expansion. -/
theorem expand_extend (runs : List (α × ℕ)) (value : α) :
    expand step (extend step runs value) = expand step runs ++ [value] := by
  obtain rfl | ⟨front, last, rfl⟩ := List.eq_nil_or_concat' runs
  · rw [extend_nil, expand_singleton, expandRun_one]
    rfl
  · by_cases h : value = after step last
    · -- the last run grows by the value after it
      rw [extend_of_eq h, expand_append, expand_append, expand_singleton, expand_singleton,
        expandRun_succ, h, List.append_assoc]
    · rw [extend_of_ne h, expand_append, expand_singleton, expandRun_one]

/-- **Expanding the runs of a list returns the list.** -/
theorem expand_encode (values : List α) : expand step (encode step values) = values := by
  induction values using List.reverseRecOn with
  | nil => rfl
  | append_singleton values value ih =>
    rw [encode, List.foldl_append, List.foldl_cons, List.foldl_nil, expand_extend]
    rw [encode] at ih
    rw [ih]

theorem Maximal.extend (h : Maximal step runs) (value : α) :
    Maximal step (extend step runs value) := by
  obtain rfl | ⟨front, last, rfl⟩ := List.eq_nil_or_concat' runs
  · rw [extend_nil]
    show Maximal step ([] ++ [(value, 1)])
    rw [maximal_concat]
    exact ⟨h, Nat.one_pos, by intro last hlast; exact absurd hlast (Option.not_mem_none last)⟩
  · by_cases heq : value = after step last
    · -- the last run grows: it begins where it began
      obtain ⟨hfront, -, hapart⟩ := maximal_concat.1 h
      rw [extend_of_eq heq, maximal_concat]
      exact ⟨hfront, Nat.succ_pos _, hapart⟩
    · rw [extend_of_ne heq, maximal_concat, List.getLast?_concat]
      refine ⟨h, Nat.one_pos, ?_⟩
      intro other hother
      rw [← Option.mem_some_iff.1 hother]
      exact heq

/-- **Every encoding is maximal.** -/
theorem maximal_encode (values : List α) : Maximal step (encode step values) := by
  induction values using List.reverseRecOn with
  | nil => exact maximal_nil
  | append_singleton values value ih =>
    rw [encode, List.foldl_append, List.foldl_cons, List.foldl_nil]
    exact ih.extend value

/-- Reading the values of one run behind runs that do not reach its start. -/
theorem foldl_extend_expandRun (hapart : ∀ last ∈ runs.getLast?, first ≠ after step last)
    (count : ℕ) :
    (expandRun step (first, count + 1)).foldl (extend step) runs =
      runs ++ [(first, count + 1)] := by
  induction count with
  | zero =>
    rw [expandRun_one, List.foldl_cons, List.foldl_nil]
    obtain rfl | ⟨front, last, rfl⟩ := List.eq_nil_or_concat' runs
    · rfl
    · exact extend_of_ne (hapart last (by rw [List.getLast?_concat]; rfl))
  | succ count ih =>
    rw [expandRun_succ, List.foldl_append, ih, List.foldl_cons, List.foldl_nil,
      extend_of_eq rfl]

/-- **The runs of an expansion** are the runs that were expanded, when these are maximal. -/
theorem encode_expand (h : Maximal step runs) : encode step (expand step runs) = runs := by
  induction runs using List.reverseRecOn with
  | nil => rfl
  | append_singleton runs run ih =>
    obtain ⟨hruns, hpos, hapart⟩ := maximal_concat.1 h
    obtain ⟨first, count⟩ := run
    obtain ⟨count, rfl⟩ := Nat.exists_eq_succ_of_ne_zero hpos.ne'
    have ih := ih hruns
    rw [encode] at ih ⊢
    rw [expand_append, expand_singleton, List.foldl_append, ih]
    exact foldl_extend_expandRun hapart count

end Runs
end Data
end TradingSystem
