import Mathlib.Data.List.DropRight
import Mathlib.Data.List.Basic
import Mathlib.Data.List.Induction
import Mathlib.Tactic.Ring
import Mathlib.Tactic.Common

/-!
# Transducers

A transducer reads a list from the left, keeps a state and gives one output for each input.

* `outputs`, `final` — what a run gives and the state it ends in.
* `getElem_outputs` — an output is made from the state after the inputs before it.
* `outputs_eq_of_simulation` — related transducers give the same outputs.
* `forall_mem_outputs` — what every step preserves holds of every output.
* `prefixes` — the outputs of a function of what was read so far; `outputs_eq_prefixes`.
* `outputsM` — a run whose updates may fail.
* `withPrevious` — the outputs of a function of an element and the one before it.
* `push` — a queue of bounded length; it holds the last elements (`foldl_push`).
-/

namespace TradingSystem
namespace Streaming

variable {σ τ α β γ : Type*}

/-! ### Runs -/

/-- The outputs of a run. -/
def outputs (update : σ → α → σ × β) : σ → List α → List β
  | _, [] => []
  | state, x :: xs => (update state x).2 :: outputs update (update state x).1 xs

/-- The state after a run. -/
def final (update : σ → α → σ × β) (state : σ) (xs : List α) : σ :=
  xs.foldl (fun state x => (update state x).1) state

section Runs

variable (update : σ → α → σ × β) (state : σ)

@[simp] theorem outputs_nil : outputs update state [] = [] := rfl

@[simp] theorem outputs_cons (x : α) (xs : List α) :
    outputs update state (x :: xs) =
      (update state x).2 :: outputs update (update state x).1 xs := rfl

@[simp] theorem final_nil : final update state [] = state := rfl

@[simp] theorem final_cons (x : α) (xs : List α) :
    final update state (x :: xs) = final update (update state x).1 xs := rfl

theorem final_append (xs ys : List α) :
    final update state (xs ++ ys) = final update (final update state xs) ys :=
  List.foldl_append

theorem final_concat (xs : List α) (x : α) :
    final update state (xs ++ [x]) = (update (final update state xs) x).1 := by
  rw [final_append]
  rfl

theorem outputs_append (xs ys : List α) :
    outputs update state (xs ++ ys) =
      outputs update state xs ++ outputs update (final update state xs) ys := by
  induction xs generalizing state with
  | nil => rfl
  | cons x xs ih => simp [ih]

theorem outputs_concat (xs : List α) (x : α) :
    outputs update state (xs ++ [x]) =
      outputs update state xs ++ [(update (final update state xs) x).2] := by
  rw [outputs_append]
  rfl

@[simp] theorem length_outputs (xs : List α) : (outputs update state xs).length = xs.length := by
  induction xs generalizing state with
  | nil => rfl
  | cons x xs ih => simp [ih]

@[simp] theorem outputs_eq_nil {xs : List α} : outputs update state xs = [] ↔ xs = [] := by
  rw [← List.length_eq_zero_iff, length_outputs, List.length_eq_zero_iff]

theorem getElem_outputs (xs : List α) (i : ℕ) (h : i < (outputs update state xs).length) :
    (outputs update state xs)[i] = (update (final update state (xs.take i))
      (getElem xs i (by simpa using h))).2 := by
  induction xs generalizing state i with
  | nil => simp at h
  | cons x xs ih =>
    cases i with
    | zero => rfl
    | succ i => simp [ih]

/-- What every step preserves holds of every output. -/
theorem forall_mem_outputs {update : σ → α → σ × β} {state : σ} (I : σ → Prop) (Q : α → Prop)
    (P : β → Prop) (hstep : ∀ state x, I state → Q x → I (update state x).1 ∧ P (update state x).2)
    (hstate : I state) {xs : List α} (hxs : ∀ x ∈ xs, Q x) :
    ∀ y ∈ outputs update state xs, P y := by
  induction xs generalizing state with
  | nil => simp
  | cons x xs ih =>
    have hx := hstep state x hstate (hxs x (by simp))
    intro y hy
    rcases List.mem_cons.1 hy with rfl | hy
    · exact hx.2
    · exact ih hx.1 (fun z hz => hxs z (by simp [hz])) y hy

end Runs

/-- Transducers related by a simulation give the same outputs. -/
theorem outputs_eq_of_simulation {update : σ → α → σ × β} {update' : τ → α → τ × β}
    (R : σ → τ → Prop)
    (hstep : ∀ s t x, R s t → R (update s x).1 (update' t x).1 ∧ (update s x).2 = (update' t x).2)
    {s : σ} {t : τ} (h : R s t) (xs : List α) : outputs update s xs = outputs update' t xs := by
  induction xs generalizing s t with
  | nil => rfl
  | cons x xs ih =>
    obtain ⟨hnext, hout⟩ := hstep s t x h
    rw [outputs_cons, outputs_cons, hout, ih hnext]

/-! ### Functions of a prefix -/

/-- The values of a function at every non-empty prefix. -/
def prefixes (f : List α → β) (xs : List α) : List β :=
  (List.range xs.length).map fun i => f (xs.take (i + 1))

@[simp] theorem length_prefixes (f : List α → β) (xs : List α) :
    (prefixes f xs).length = xs.length := by simp [prefixes]

theorem getElem_prefixes (f : List α → β) (xs : List α) (i : ℕ)
    (h : i < (prefixes f xs).length) : (prefixes f xs)[i] = f (xs.take (i + 1)) := by
  simp [prefixes]

theorem getElem?_prefixes (f : List α → β) {xs : List α} {i : ℕ} (h : i < xs.length) :
    (prefixes f xs)[i]? = some (f (xs.take (i + 1))) := by
  rw [List.getElem?_eq_getElem (by simpa using h), getElem_prefixes]

theorem take_succ_eq_concat {xs : List α} {i : ℕ} (h : i < xs.length) :
    xs.take (i + 1) = xs.take i ++ [xs[i]] := by
  rw [List.take_add_one, List.getElem?_eq_getElem h]
  rfl

/-- A transducer whose output is a function of the inputs read gives the values of that function
at the prefixes. -/
theorem outputs_eq_prefixes {update : σ → α → σ × β} {state : σ} (f : List α → β)
    (h : ∀ xs x, (update (final update state xs) x).2 = f (xs ++ [x])) (xs : List α) :
    outputs update state xs = prefixes f xs := by
  apply List.ext_getElem (by simp)
  intro i hi hi'
  have hlt : i < xs.length := by simpa using hi
  rw [getElem_outputs, getElem_prefixes, h, take_succ_eq_concat hlt]

theorem prefixes_concat (f : List α → β) (xs : List α) (x : α) :
    prefixes f (xs ++ [x]) = prefixes f xs ++ [f (xs ++ [x])] := by
  simp only [prefixes, List.length_append, List.length_singleton, List.range_succ,
    List.map_append, List.map_cons, List.map_nil]
  congr 1
  · apply List.map_congr_left
    intro i hi
    rw [List.take_append_of_le_length (List.mem_range.1 hi)]
  · rw [← List.length_singleton (a := x), ← List.length_append, List.take_length]

/-- What one more input gives, when the outputs are the values of a function at the prefixes. -/
theorem snd_update_final {update : σ → α → σ × β} {state : σ} {f : List α → β}
    (h : ∀ xs, outputs update state xs = prefixes f xs) (xs : List α) (x : α) :
    (update (final update state xs) x).2 = f (xs ++ [x]) := by
  have hconcat := h (xs ++ [x])
  rw [outputs_concat, prefixes_concat, h xs] at hconcat
  simpa using hconcat

/-! ### Updates that may fail -/

/-- The outputs of a run whose updates may fail. -/
def outputsM {ε σ α β : Type} (update : σ → α → Except ε (σ × β)) :
    σ → List α → Except ε (List β)
  | _, [] => .ok []
  | state, x :: xs => do
    let (state, y) ← update state x
    let ys ← outputsM update state xs
    return y :: ys

/-- When every update of a state reached succeeds, so does the run. -/
theorem outputsM_eq_prefixes {ε σ α β : Type} {update : σ → α → Except ε (σ × β)}
    (state : List α → σ) (f : List α → β)
    (h : ∀ xs x, update (state xs) x = .ok (state (xs ++ [x]), f (xs ++ [x]))) (xs : List α) :
    outputsM update (state []) xs = .ok (prefixes f xs) := by
  suffices hseen : ∀ seen, outputsM update (state seen) xs =
      .ok ((List.range xs.length).map fun i => f (seen ++ xs.take (i + 1))) by
    simpa [prefixes] using hseen []
  induction xs with
  | nil => exact fun _ => rfl
  | cons x xs ih =>
    intro seen
    rw [outputsM, h]
    simp only [bind, Except.bind, ih (seen ++ [x]), pure, Except.pure, List.length_cons,
      List.range_succ_eq_map, List.map_cons, List.map_map]
    simp [Function.comp_def]

/-! ### An element and the one before it -/

/-- The values of a function at every element and the one before it. -/
def withPrevious (f : Option α → α → β) : Option α → List α → List β
  | _, [] => []
  | previous, x :: xs => f previous x :: withPrevious f (some x) xs

section WithPrevious

variable (f : Option α → α → β)

@[simp] theorem withPrevious_nil (previous : Option α) : withPrevious f previous [] = [] := rfl

@[simp] theorem withPrevious_cons (previous : Option α) (x : α) (xs : List α) :
    withPrevious f previous (x :: xs) = f previous x :: withPrevious f (some x) xs := rfl

@[simp] theorem length_withPrevious (previous : Option α) (xs : List α) :
    (withPrevious f previous xs).length = xs.length := by
  induction xs generalizing previous with
  | nil => rfl
  | cons x xs ih => simp [ih]

/-- With a first element, the rest are the values at the pairs of neighbours. -/
theorem withPrevious_some (x : α) (xs : List α) :
    withPrevious f (some x) xs = List.zipWith (fun a b => f (some a) b) (x :: xs) xs := by
  induction xs generalizing x with
  | nil => rfl
  | cons y ys ih => simp [ih]

theorem mem_withPrevious {previous : Option α} {xs : List α} {y : β}
    (h : y ∈ withPrevious f previous xs) :
    ∃ before, (before = previous ∨ ∃ a ∈ xs, before = some a) ∧ ∃ x ∈ xs, y = f before x := by
  induction xs generalizing previous with
  | nil => simp at h
  | cons x xs ih =>
    rcases List.mem_cons.1 h with rfl | h
    · exact ⟨previous, .inl rfl, x, by simp, rfl⟩
    · obtain ⟨before, hbefore, z, hz, rfl⟩ := ih h
      refine ⟨before, .inr ?_, z, by simp [hz], rfl⟩
      rcases hbefore with rfl | ⟨a, ha, rfl⟩
      · exact ⟨x, by simp, rfl⟩
      · exact ⟨a, by simp [ha], rfl⟩

theorem take_withPrevious (previous : Option α) (xs : List α) (n : ℕ) :
    (withPrevious f previous xs).take n = withPrevious f previous (xs.take n) := by
  induction xs generalizing previous n with
  | nil => simp
  | cons x xs ih => cases n <;> simp [ih]

/-- The values from some place on are those of the elements from there on. -/
theorem exists_drop_withPrevious (previous : Option α) (xs : List α) (n : ℕ) :
    ∃ before, (withPrevious f previous xs).drop n = withPrevious f before (xs.drop n) := by
  induction xs generalizing previous n with
  | nil => exact ⟨previous, by simp⟩
  | cons x xs ih =>
    cases n with
    | zero => exact ⟨previous, rfl⟩
    | succ n => exact ih (some x) n

end WithPrevious

/-! ### Queues of bounded length -/

/-- Append to a queue that keeps at most `length` elements, the newest ones. -/
def push (length : ℕ) (queue : List α) (x : α) : List α :=
  if length < (queue ++ [x]).length then (queue ++ [x]).tail else queue ++ [x]

theorem length_rtake (length : ℕ) (xs : List α) :
    (xs.rtake length).length = min length xs.length := by
  simp [List.rtake]
  omega

theorem rtake_eq_self {length : ℕ} {xs : List α} (h : xs.length ≤ length) :
    xs.rtake length = xs := by
  rw [List.rtake, Nat.sub_eq_zero_of_le h, List.drop_zero]

/-- Of a queue that holds the last elements, the next one holds the last elements. -/
theorem push_rtake (length : ℕ) (xs : List α) (x : α) :
    push length (xs.rtake length) x = (xs ++ [x]).rtake length := by
  by_cases hle : xs.length < length
  · have hlength : (xs ++ [x]).length ≤ length := by simp; omega
    rw [rtake_eq_self hle.le, rtake_eq_self hlength, push, if_neg hlength.not_gt]
  · have hfull : length < (xs.rtake length ++ [x]).length := by
      rw [List.length_append, length_rtake, List.length_singleton]
      omega
    have h : (xs ++ [x]).length - length = xs.length - length + 1 := by simp; omega
    rw [push, if_pos hfull, List.rtake, List.rtake, h, ← List.drop_append_of_le_length (by omega),
      List.tail_drop]

/-- A queue filled from nothing holds the last elements. -/
theorem foldl_push (length : ℕ) (xs : List α) :
    xs.foldl (push length) [] = xs.rtake length := by
  induction xs using List.reverseRecOn with
  | nil => simp [List.rtake]
  | append_singleton xs x ih => rw [List.foldl_append, ih, List.foldl_cons, List.foldl_nil,
      push_rtake]

end Streaming
end TradingSystem
