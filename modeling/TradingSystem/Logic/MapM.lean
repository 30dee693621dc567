import Mathlib.Data.List.Forall2

/-!
# Mapping with a function that can fail

What is known of a list that a fallible function was mapped over.

* `forall₂_of_mapM` — item by item.
* `mem_of_mapM` — the members of the result.
* `exists_mapM` — a function that fails on no item fails on no list.
-/

namespace TradingSystem
namespace Logic

variable {α β ε : Type} {f : α → Except ε β} {l : List α} {found : List β}

/-- What a list is mapped to, item by item. -/
theorem forall₂_of_mapM (h : l.mapM f = .ok found) :
    List.Forall₂ (fun a b => f a = .ok b) l found := by
  induction l generalizing found with
  | nil =>
    rw [List.mapM_nil] at h
    cases h
    exact .nil
  | cons a l ih =>
    rw [List.mapM_cons] at h
    cases ha : f a with
    | error failure => simp [ha, bind, Except.bind] at h
    | ok b =>
      cases hl : l.mapM f with
      | error failure => simp [ha, hl, bind, Except.bind] at h
      | ok rest =>
        have hfound : b :: rest = found := by
          simpa [ha, hl, bind, Except.bind, pure, Except.pure] using h
        rw [← hfound]
        exact .cons ha (ih hl)

theorem mem_of_mapM (h : l.mapM f = .ok found) {b : β} :
    b ∈ found ↔ ∃ a ∈ l, f a = .ok b := by
  have hitems := forall₂_of_mapM h
  clear h
  induction hitems with
  | nil => simp
  | cons ha _ ih => simp [ih, ha, eq_comm]

theorem mapM_cons_ok {a : α} {b : β} (ha : f a = .ok b) (hl : l.mapM f = .ok found) :
    (a :: l).mapM f = .ok (b :: found) := by
  rw [List.mapM_cons, ha, hl]
  rfl

/-- A function that fails on no item fails on no list. -/
theorem exists_mapM (h : ∀ a ∈ l, ∃ b, f a = .ok b) : ∃ found, l.mapM f = .ok found := by
  induction l with
  | nil => exact ⟨[], rfl⟩
  | cons a l ih =>
    obtain ⟨b, hb⟩ := h a (List.mem_cons_self ..)
    obtain ⟨rest, hrest⟩ := ih fun a ha => h a (List.mem_cons_of_mem _ ha)
    exact ⟨b :: rest, mapM_cons_ok hb hrest⟩

/-- Where a list is mapped, every item is. -/
theorem exists_of_mapM (h : l.mapM f = .ok found) {a : α} (ha : a ∈ l) : ∃ b, f a = .ok b := by
  have hitems := forall₂_of_mapM h
  clear h
  induction hitems with
  | nil => cases ha
  | cons hb _ ih =>
    obtain rfl | ha := List.mem_cons.1 ha
    · exact ⟨_, hb⟩
    · exact ih ha

end Logic
end TradingSystem
