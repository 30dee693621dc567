import Mathlib.Logic.Relation
import Mathlib.Tactic.Basic

/-!
# Programs that raise and keep their state

Rules for programs over a mutable state that may raise an exception. A program
is `EStateM ε σ α`: the state reached at the raise is part of the outcome, as
it is for objects mutated in place by a method that then raises.

* `bind_eq_ok`, `bind_eq_error` — how a sequence ends: the inversion lemmas every
  proof about a program peels it with (`Except` versions first).
* `raiseUnless` — a guard.
* `zoom` — run a program on a component of the state; the component is written
  back also when the program raises.
* `forEach` — a program run for each element of a list in turn.
-/

namespace TradingSystem
namespace Logic

universe u

/-! ### Pure computations that may fail -/

section Except

variable {ε α β : Type u}

theorem Except.bind_eq_ok {x : Except ε α} {f : α → Except ε β} {b : β} :
    (x >>= f) = .ok b ↔ ∃ a, x = .ok a ∧ f a = .ok b := by
  cases x with
  | error e =>
    refine ⟨(nomatch ·), ?_⟩
    rintro ⟨_, h, _⟩
    cases h
  | ok a =>
    refine ⟨fun h => ⟨a, rfl, h⟩, ?_⟩
    rintro ⟨_, h, h'⟩
    cases h
    exact h'

theorem Except.bind_eq_error {x : Except ε α} {f : α → Except ε β} {e : ε} :
    (x >>= f) = .error e ↔ x = .error e ∨ ∃ a, x = .ok a ∧ f a = .error e := by
  cases x with
  | error e' =>
    refine ⟨fun h => Or.inl (by cases h; rfl), ?_⟩
    rintro (h | ⟨_, h, _⟩)
    · cases h
      rfl
    · cases h
  | ok a =>
    refine ⟨fun h => Or.inr ⟨a, rfl, h⟩, ?_⟩
    rintro (h | ⟨_, h, h'⟩)
    · cases h
    · cases h
      exact h'

end Except

/-! ### Stateful programs -/

variable {ε σ τ α β γ : Type u}

/-- A program over the state `σ` that may raise an `ε`. -/
abbrev Program (ε σ α : Type u) := EStateM ε σ α

open EStateM (Result)

@[simp] theorem pure_apply (a : α) (s : σ) : (pure a : Program ε σ α) s = .ok a s := rfl

@[simp] theorem throw_apply (e : ε) (s : σ) : (throw e : Program ε σ α) s = .error e s := rfl

@[simp] theorem get_apply (s : σ) : (get : Program ε σ σ) s = .ok s s := rfl

@[simp] theorem set_apply (s s' : σ) : (set s' : Program ε σ PUnit) s = .ok ⟨⟩ s' := rfl

@[simp] theorem modify_apply (f : σ → σ) (s : σ) :
    (modify f : Program ε σ PUnit) s = .ok ⟨⟩ (f s) := rfl

@[simp] theorem get_bind_apply (f : σ → Program ε σ β) (s : σ) :
    ((get : Program ε σ σ) >>= f) s = f s s := rfl

@[simp] theorem set_bind_apply (s' : σ) (f : PUnit → Program ε σ β) (s : σ) :
    ((set s' : Program ε σ PUnit) >>= f) s = f ⟨⟩ s' := rfl

@[simp] theorem modify_bind_apply (g : σ → σ) (f : PUnit → Program ε σ β) (s : σ) :
    ((modify g : Program ε σ PUnit) >>= f) s = f ⟨⟩ (g s) := rfl

/-- A sequence ends normally exactly when both parts do. -/
theorem bind_eq_ok {x : Program ε σ α} {f : α → Program ε σ β} {s s' : σ} {b : β} :
    (x >>= f) s = .ok b s' ↔ ∃ a s₁, x s = .ok a s₁ ∧ f a s₁ = .ok b s' := by
  change EStateM.bind x f s = _ ↔ _
  unfold EStateM.bind
  cases x s with
  | ok a s₁ =>
    refine ⟨fun h => ⟨a, s₁, rfl, h⟩, ?_⟩
    rintro ⟨_, _, h, h'⟩
    cases h
    exact h'
  | error e s₁ =>
    refine ⟨(nomatch ·), ?_⟩
    rintro ⟨_, _, h, _⟩
    cases h

/-- A sequence raises in its first part, or in the second after the first. -/
theorem bind_eq_error {x : Program ε σ α} {f : α → Program ε σ β} {s s' : σ} {e : ε} :
    (x >>= f) s = .error e s' ↔
      x s = .error e s' ∨ ∃ a s₁, x s = .ok a s₁ ∧ f a s₁ = .error e s' := by
  change EStateM.bind x f s = _ ↔ _
  unfold EStateM.bind
  cases x s with
  | ok a s₁ =>
    refine ⟨fun h => Or.inr ⟨a, s₁, rfl, h⟩, ?_⟩
    rintro (h | ⟨_, _, h, h'⟩)
    · cases h
    · cases h
      exact h'
  | error e' s₁ =>
    refine ⟨fun h => Or.inl (by cases h; rfl), ?_⟩
    rintro (h | ⟨_, _, h, _⟩)
    · cases h
      rfl
    · cases h

/-- The rest of a sequence whose first part is known to end normally. -/
theorem bind_apply_of_ok {x : Program ε σ α} {f : α → Program ε σ β} {s s₁ : σ} {a : α}
    (h : x s = .ok a s₁) : (x >>= f) s = f a s₁ := by
  change EStateM.bind x f s = _
  unfold EStateM.bind
  rw [h]

theorem bind_apply_of_error {x : Program ε σ α} {f : α → Program ε σ β} {s s₁ : σ} {e : ε}
    (h : x s = .error e s₁) : (x >>= f) s = .error e s₁ := by
  change EStateM.bind x f s = _
  unfold EStateM.bind
  rw [h]

/-- Raise a fault unless the condition holds. -/
def raiseUnless (condition : Prop) [Decidable condition] (fault : ε) : Program ε σ PUnit :=
  if condition then pure ⟨⟩ else throw fault

theorem raiseUnless_eq_ok {condition : Prop} [Decidable condition] {fault : ε} {s s' : σ}
    {u : PUnit} : (raiseUnless condition fault : Program ε σ PUnit) s = .ok u s' ↔
      condition ∧ s = s' := by
  unfold raiseUnless
  split <;> simp_all [eq_comm]

theorem raiseUnless_bind {condition : Prop} [Decidable condition] {fault : ε}
    {f g : PUnit → Program ε σ β} (h : condition → f ⟨⟩ = g ⟨⟩) :
    raiseUnless condition fault >>= f = raiseUnless condition fault >>= g := by
  unfold raiseUnless
  split
  · next hcondition => exact h hcondition
  · rfl

theorem raiseUnless_eq_error {condition : Prop} [Decidable condition] {fault e : ε} {s s' : σ} :
    (raiseUnless condition fault : Program ε σ PUnit) s = .error e s' ↔
      ¬condition ∧ e = fault ∧ s = s' := by
  unfold raiseUnless
  split <;> simp_all [eq_comm]

/-- A guard that holds does nothing. -/
theorem raiseUnless_bind_apply {condition : Prop} [Decidable condition] {fault : ε}
    {f : PUnit → Program ε σ β} {s : σ} (h : condition) :
    (raiseUnless condition fault >>= f) s = f ⟨⟩ s :=
  bind_apply_of_ok ((raiseUnless_eq_ok (u := ⟨⟩)).2 ⟨h, rfl⟩)

/-- A guard that fails ends a program where it stands. -/
theorem raiseUnless_bind_apply_of_not {condition : Prop} [Decidable condition] {fault : ε}
    {f : PUnit → Program ε σ β} {s : σ} (h : ¬condition) :
    (raiseUnless condition fault >>= f) s = .error fault s :=
  bind_apply_of_error (raiseUnless_eq_error.2 ⟨h, rfl, rfl⟩)

/-- A pure computation as a program. -/
def runPure : Except ε α → Program ε σ α
  | .ok a => pure a
  | .error e => throw e

@[simp] theorem runPure_ok (a : α) (s : σ) :
    (runPure (.ok a : Except ε α) : Program ε σ α) s = .ok a s := rfl

@[simp] theorem runPure_error (e : ε) (s : σ) :
    (runPure (.error e : Except ε α) : Program ε σ α) s = .error e s := rfl

theorem runPure_eq_ok {x : Except ε α} {s s' : σ} {a : α} :
    (runPure x : Program ε σ α) s = .ok a s' ↔ x = .ok a ∧ s = s' := by
  cases x <;> simp [eq_comm]

theorem runPure_eq_error {x : Except ε α} {s s' : σ} {e : ε} :
    (runPure x : Program ε σ α) s = .error e s' ↔ x = .error e ∧ s = s' := by
  cases x <;> simp [eq_comm]

theorem runPure_ok_bind (a : α) (f : α → Program ε σ β) : runPure (.ok a) >>= f = f a := rfl

theorem runPure_error_bind (e : ε) (f : α → Program ε σ β) :
    runPure (.error e) >>= f = throw e := rfl

/-- Run a program on a component of the state. The component is written back
whichever way the program ends. -/
def zoom (view : σ → τ) (put : τ → σ → σ) (m : Program ε τ α) : Program ε σ α := fun s =>
  match m (view s) with
  | .ok a t => .ok a (put t s)
  | .error e t => .error e (put t s)

theorem zoom_eq_ok {view : σ → τ} {put : τ → σ → σ} {m : Program ε τ α} {s s' : σ} {a : α} :
    zoom view put m s = .ok a s' ↔ ∃ t, m (view s) = .ok a t ∧ s' = put t s := by
  unfold zoom
  cases m (view s) with
  | ok b t =>
    constructor
    · intro h
      cases h
      exact ⟨t, rfl, rfl⟩
    · rintro ⟨t', h, rfl⟩
      cases h
      rfl
  | error e t => simp

theorem zoom_eq_error {view : σ → τ} {put : τ → σ → σ} {m : Program ε τ α} {s s' : σ} {e : ε} :
    zoom view put m s = .error e s' ↔ ∃ t, m (view s) = .error e t ∧ s' = put t s := by
  unfold zoom
  cases m (view s) with
  | ok b t => simp
  | error e' t =>
    constructor
    · intro h
      cases h
      exact ⟨t, rfl, rfl⟩
    · rintro ⟨t', h, rfl⟩
      cases h
      rfl

/-- Run a program for each element of a list, in order. -/
def forEach (items : List α) (body : α → Program ε σ PUnit) : Program ε σ PUnit :=
  match items with
  | [] => pure ⟨⟩
  | item :: rest => do
    body item
    forEach rest body

@[simp] theorem forEach_nil (body : α → Program ε σ PUnit) : forEach [] body = pure ⟨⟩ := rfl

theorem forEach_cons (item : α) (rest : List α) (body : α → Program ε σ PUnit) :
    forEach (item :: rest) body = (do body item; forEach rest body) := rfl

/-- Loops over the same list with bodies that agree on it are the same program. -/
theorem forEach_congr {items : List α} {body body' : α → Program ε σ PUnit}
    (h : ∀ item ∈ items, body item = body' item) : forEach items body = forEach items body' := by
  induction items with
  | nil => rfl
  | cons item rest ih =>
    rw [forEach_cons, forEach_cons, h item (List.mem_cons_self ..),
      ih fun x hx => h x (List.mem_cons_of_mem _ hx)]

/-- A loop over a concatenation is two loops. -/
theorem forEach_append (items rest : List α) (body : α → Program ε σ PUnit) :
    forEach (items ++ rest) body = (do forEach items body; forEach rest body) := by
  induction items with
  | nil => rfl
  | cons item items ih =>
    rw [List.cons_append, forEach_cons, forEach_cons, ih, bind_assoc]

/-! ### Evaluated outcomes -/

/-- Test a normal outcome. Outcomes of concrete runs are established by evaluating a
test on them. -/
def endsWith (outcome : Result ε σ α) (test : α → σ → Bool) : Bool :=
  match outcome with
  | .ok a s => test a s
  | .error _ _ => false

theorem exists_of_endsWith {outcome : Result ε σ α} {test : α → σ → Bool}
    (h : endsWith outcome test = true) : ∃ a s, outcome = .ok a s ∧ test a s = true := by
  cases outcome with
  | ok a s => exact ⟨a, s, rfl, h⟩
  | error e s => cases h

/-- Test the result of a pure computation. -/
def returnsWith (outcome : Except ε α) (test : α → Bool) : Bool :=
  match outcome with
  | .ok a => test a
  | .error _ => false

theorem exists_of_returnsWith {outcome : Except ε α} {test : α → Bool}
    (h : returnsWith outcome test = true) : ∃ a, outcome = .ok a ∧ test a = true := by
  cases outcome with
  | ok a => exact ⟨a, rfl, h⟩
  | error e => cases h

end Logic
end TradingSystem
