import TradingSystem.Logic.Program

/-!
# What a program leaves alone

A *view* reads a part of the state. `Frames view m` says that `m` leaves that part alone
whichever way it ends, so that the part is known after a raise as well. The rules follow
the shape of a program; `Frames.of_ok` and `Frames.of_error` are what callers use.

`Moves R m` is the same for a relation: however `m` ends, it moves the state along `R`. A
frame is the case of `SameView view`.

`Simulates view m n` says that a run of `m` is, on the view, a run of `n`.
-/

namespace TradingSystem
namespace Logic

universe u v

variable {ε σ α β : Type u} {τ : Type v}

open EStateM (Result)

/-- The state a program ends in, normally or by raising. -/
def finalState (outcome : Result ε σ α) : σ :=
  match outcome with
  | .ok _ s => s
  | .error _ s => s

/-- Returning a value does not move the state. -/
theorem finalState_bind_pure (m : Program ε σ α) (f : α → β) (s : σ) :
    finalState ((m >>= fun a => (pure (f a) : Program ε σ β)) s) = finalState (m s) := by
  cases h : m s with
  | ok a s₁ =>
    rw [bind_apply_of_ok h]
    rfl
  | error e s₁ =>
    rw [bind_apply_of_error h]
    rfl

/-- **A frame.** The program leaves the view of the state unchanged. -/
def Frames (view : σ → τ) (m : Program ε σ α) : Prop :=
  ∀ s, view (finalState (m s)) = view s

variable {view : σ → τ} {m : Program ε σ α} {f : α → Program ε σ β} {s s' : σ}

theorem Frames.of_ok {a : α} (h : Frames view m) (hm : m s = .ok a s') : view s' = view s := by
  have := h s
  rw [hm] at this
  exact this

theorem Frames.of_error {e : ε} (h : Frames view m) (hm : m s = .error e s') :
    view s' = view s := by
  have := h s
  rw [hm] at this
  exact this

/-- A coarser view is left alone too. -/
theorem Frames.comp {υ : Type v} (h : Frames view m) (g : τ → υ) :
    Frames (fun s => g (view s)) m := fun s => congrArg g (h s)

theorem frames_pure (a : α) : Frames view (pure a : Program ε σ α) := fun _ => rfl

theorem frames_throw (e : ε) : Frames view (throw e : Program ε σ α) := fun _ => rfl

theorem frames_get : Frames view (get : Program ε σ σ) := fun _ => rfl

theorem frames_modify {g : σ → σ} (h : ∀ s, view (g s) = view s) :
    Frames view (modify g : Program ε σ PUnit) := h

theorem frames_runPure (x : Except ε α) : Frames view (runPure x : Program ε σ α) := by
  intro s
  cases x <;> rfl

theorem frames_raiseUnless {condition : Prop} [Decidable condition] (fault : ε) :
    Frames view (raiseUnless condition fault : Program ε σ PUnit) := by
  unfold raiseUnless
  split
  · exact frames_pure _
  · exact frames_throw _

theorem Frames.bind (hm : Frames view m) (hf : ∀ a, Frames view (f a)) :
    Frames view (m >>= f) := by
  intro s
  cases hrun : m s with
  | error e s₁ =>
    rw [bind_apply_of_error hrun]
    exact hm.of_error hrun
  | ok a s₁ =>
    rw [bind_apply_of_ok hrun, hf a s₁]
    exact hm.of_ok hrun

theorem frames_forEach {items : List α} {body : α → Program ε σ PUnit}
    (h : ∀ item, Frames view (body item)) : Frames view (forEach items body) := by
  induction items with
  | nil => exact frames_pure _
  | cons item rest ih =>
    rw [forEach_cons]
    exact (h item).bind fun _ => ih

/-! ### Moves -/

section Moves

/-- **A bounded move.** However the program ends, it has moved the state along `R`. -/
def Moves (R : σ → σ → Prop) (m : Program ε σ α) : Prop :=
  ∀ s, R s (finalState (m s))

/-- Two states look alike. -/
def SameView (view : σ → τ) (s s' : σ) : Prop := view s' = view s

instance sameView_refl : Std.Refl (SameView view) := ⟨fun _ => rfl⟩

instance sameView_trans : IsTrans σ (SameView view) := ⟨fun _ _ _ h h' => Eq.trans h' h⟩

/-- A frame moves the state to one that looks alike. -/
theorem frames_iff_moves : Frames view m ↔ Moves (SameView view) m := Iff.rfl

variable {R : σ → σ → Prop}

theorem Moves.of_ok {a : α} (h : Moves R m) (hm : m s = .ok a s') : R s s' := by
  have := h s
  rw [hm] at this
  exact this

theorem Moves.of_error {e : ε} (h : Moves R m) (hm : m s = .error e s') : R s s' := by
  have := h s
  rw [hm] at this
  exact this

theorem moves_modify {g : σ → σ} (h : ∀ s, R s (g s)) :
    Moves R (modify g : Program ε σ PUnit) := h

theorem moves_get_bind {f : σ → Program ε σ α} (h : ∀ s, R s (finalState (f s s))) :
    Moves R ((get : Program ε σ σ) >>= f) := h

theorem moves_ite {condition : Prop} [Decidable condition] {m m' : Program ε σ α}
    (h : Moves R m) (h' : Moves R m') : Moves R (if condition then m else m') := by
  split
  · exact h
  · exact h'

variable [Std.Refl R]

theorem moves_pure (a : α) : Moves R (pure a : Program ε σ α) := fun s => Std.Refl.refl s

theorem moves_throw (e : ε) : Moves R (throw e : Program ε σ α) := fun s => Std.Refl.refl s

theorem moves_get : Moves R (get : Program ε σ σ) := fun s => Std.Refl.refl s

theorem moves_runPure (x : Except ε α) : Moves R (runPure x : Program ε σ α) := by
  intro s
  cases x <;> exact Std.Refl.refl s

theorem moves_runPure_bind {x : Except ε α} {f : α → Program ε σ β}
    (h : ∀ a, x = .ok a → Moves R (f a)) : Moves R (runPure x >>= f) := by
  cases x with
  | error e => exact moves_throw e
  | ok a => exact h a rfl

theorem moves_raiseUnless {condition : Prop} [Decidable condition] (fault : ε) :
    Moves R (raiseUnless condition fault : Program ε σ PUnit) := by
  unfold raiseUnless
  split
  · exact moves_pure _
  · exact moves_throw _

omit [Std.Refl R] in
theorem Moves.bind [IsTrans σ R] (hm : Moves R m) (hf : ∀ a, Moves R (f a)) :
    Moves R (m >>= f) := by
  intro s
  cases hrun : m s with
  | error e s₁ =>
    rw [bind_apply_of_error hrun]
    exact hm.of_error hrun
  | ok a s₁ =>
    rw [bind_apply_of_ok hrun]
    exact IsTrans.trans s s₁ _ (hm.of_ok hrun) (hf a s₁)

theorem moves_forEach [IsTrans σ R] {items : List α} {body : α → Program ε σ PUnit}
    (h : ∀ item, Moves R (body item)) : Moves R (forEach items body) := by
  induction items with
  | nil => exact moves_pure _
  | cons item rest ih =>
    rw [forEach_cons]
    exact (h item).bind fun _ => ih

omit [Std.Refl R] in
theorem moves_set_bind [IsTrans σ R] {f : PUnit → Program ε σ α} (hset : R s s')
    (hf : Moves R (f ⟨⟩)) : R s (finalState (((set s' : Program ε σ PUnit) >>= f) s)) :=
  IsTrans.trans s s' _ hset (hf s')

end Moves

/-! ### Simulation -/

section Simulation

variable {ρ : Type u} {view : σ → ρ} {n : Program ε ρ α} {g : α → Program ε ρ β}

/-- **A simulation.** On the view, a run of `m` is a run of `n`. -/
def Simulates (view : σ → ρ) (m : Program ε σ α) (n : Program ε ρ α) : Prop :=
  ∀ s a s', m s = .ok a s' → n (view s) = .ok a (view s')

theorem Simulates.bind (hm : Simulates view m n) (hf : ∀ a, Simulates view (f a) (g a)) :
    Simulates view (m >>= f) (n >>= g) := by
  intro s b s' h
  rw [bind_eq_ok] at h
  obtain ⟨a, s₁, hfirst, hrest⟩ := h
  rw [bind_apply_of_ok (hm s a s₁ hfirst)]
  exact hf a s₁ b s' hrest

theorem simulates_forEach {ι : Type u} {items : List ι} {body : ι → Program ε σ PUnit}
    {body' : ι → Program ε ρ PUnit} (h : ∀ item, Simulates view (body item) (body' item)) :
    Simulates view (forEach items body) (forEach items body') := by
  induction items with
  | nil =>
    intro s a s' hrun
    cases hrun
    rfl
  | cons item rest ih =>
    rw [forEach_cons, forEach_cons]
    exact (h item).bind fun _ => ih

theorem simulates_zoom {υ : Type u} {part : σ → υ} {put : υ → σ → σ} {part' : ρ → υ}
    {put' : υ → ρ → ρ} {m : Program ε υ α} (hpart : ∀ s, part' (view s) = part s)
    (hput : ∀ u s, view (put u s) = put' u (view s)) :
    Simulates view (zoom part put m) (zoom part' put' m) := by
  intro s a s' h
  rw [zoom_eq_ok] at h ⊢
  obtain ⟨u, hrun, rfl⟩ := h
  exact ⟨u, by rw [hpart]; exact hrun, hput u s⟩

end Simulation

end Logic
end TradingSystem
