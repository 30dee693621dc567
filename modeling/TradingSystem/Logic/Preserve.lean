import TradingSystem.Logic.Program

/-!
# What a program preserves

`Preserves P m` says that `m`, where it ends normally, leads from a state with the property `P`
to a state with it. Unlike a frame it says nothing about a raise, so that a program may break the
property on the way to one. The rules follow the shape of a program.
-/

namespace TradingSystem
namespace Logic

universe u

variable {ε σ α β : Type u} {P : σ → Prop} {m : Program ε σ α} {f : α → Program ε σ β}

/-- **Preservation.** Every normal end keeps the property. -/
def Preserves (P : σ → Prop) (m : Program ε σ α) : Prop :=
  ∀ ⦃s a s'⦄, P s → m s = .ok a s' → P s'

theorem preserves_pure (a : α) : Preserves P (pure a : Program ε σ α) := by
  intro s b s' hs h
  cases h
  exact hs

theorem preserves_get : Preserves P (get : Program ε σ σ) := by
  intro s b s' hs h
  cases h
  exact hs

theorem preserves_modify {g : σ → σ} (hg : ∀ s, P s → P (g s)) :
    Preserves P (modify g : Program ε σ PUnit) := by
  intro s b s' hs h
  cases h
  exact hg s hs

theorem Preserves.bind (hm : Preserves P m) (hf : ∀ a, Preserves P (f a)) :
    Preserves P (m >>= f) := by
  intro s b s' hs h
  rw [bind_eq_ok] at h
  obtain ⟨a, s₁, h₁, h₂⟩ := h
  exact hf a (hm hs h₁) h₂

theorem preserves_ite {condition : Prop} [Decidable condition] {m' : Program ε σ α}
    (hm : Preserves P m) (hm' : Preserves P m') :
    Preserves P (if condition then m else m') := by
  split
  · exact hm
  · exact hm'

/-- A loop preserves what each of its rounds preserves. -/
theorem preserves_forEach {items : List α} {body : α → Program ε σ PUnit}
    (hbody : ∀ item ∈ items, Preserves P (body item)) : Preserves P (forEach items body) := by
  induction items with
  | nil => exact preserves_pure _
  | cons item items ih =>
    rw [forEach_cons]
    exact (hbody item (List.mem_cons_self ..)).bind fun _ =>
      ih fun later hlater => hbody later (List.mem_cons_of_mem _ hlater)

end Logic
end TradingSystem
