import Mathlib.Data.List.Basic
import Mathlib.Data.List.Sort

/-!
# Separated parts and sorted rows

Two general facts behind a canonical encoding of rows.

* `intercalate_injective` — parts that do not contain their separator are told apart.
* `map_sortBy_eq` — rows with a key of their own are sorted into one order, whatever
  order they came in.
-/

namespace TradingSystem
namespace Data

/-! ### Parts -/

section Parts

variable {α : Type} {x a : α} {part : List α} {parts others : List (List α)}

theorem mem_intercalate (h : a ∈ [x].intercalate parts) : a = x ∨ ∃ part ∈ parts, a ∈ part := by
  induction parts with
  | nil => exact absurd h List.not_mem_nil
  | cons part parts ih =>
    cases parts with
    | nil =>
      rw [List.intercalate_singleton] at h
      exact .inr ⟨part, List.mem_cons_self .., h⟩
    | cons next parts =>
      rw [List.intercalate_cons_cons, List.mem_append, List.mem_append, List.mem_singleton] at h
      obtain (h | h) | h := h
      · exact .inr ⟨part, List.mem_cons_self .., h⟩
      · exact .inl h
      · exact (ih h).imp_right fun ⟨other, hother, hmem⟩ =>
          ⟨other, List.mem_cons_of_mem _ hother, hmem⟩

/-- Two parts leave their separator behind. -/
theorem intercalate_ne_nil (h : 2 ≤ parts.length) : [x].intercalate parts ≠ [] := by
  obtain _ | ⟨part, _ | ⟨next, parts⟩⟩ := parts
  · simp at h
  · simp at h
  · rw [List.intercalate_cons_cons]
    simp

/-- **Separated parts are told apart.** -/
theorem intercalate_injective [DecidableEq α] (h : ∀ part ∈ parts, x ∉ part)
    (h' : ∀ part ∈ others, x ∉ part) (hne : parts ≠ []) (hne' : others ≠ [])
    (heq : [x].intercalate parts = [x].intercalate others) : parts = others := by
  rw [← List.splitOn_intercalate x h hne, heq, List.splitOn_intercalate x h' hne']

/-- Parts that are not empty are told apart, also from no parts at all. -/
theorem intercalate_injective_of_ne_nil [DecidableEq α] (h : ∀ part ∈ parts, x ∉ part)
    (h' : ∀ part ∈ others, x ∉ part) (hne : ∀ part ∈ parts, part ≠ [])
    (hne' : ∀ part ∈ others, part ≠ [])
    (heq : [x].intercalate parts = [x].intercalate others) : parts = others := by
  -- A text without characters stands for no parts.
  have hnil : ∀ {l : List (List α)}, (∀ part ∈ l, part ≠ []) → [x].intercalate l = [] →
      l = [] := by
    intro l hl hempty
    obtain _ | ⟨part, _ | ⟨next, l⟩⟩ := l
    · rfl
    · rw [List.intercalate_singleton] at hempty
      exact absurd hempty (hl part (List.mem_cons_self ..))
    · exact absurd hempty (intercalate_ne_nil (by simp))
  by_cases hparts : parts = []
  · rw [hparts] at heq ⊢
    exact (hnil hne' heq.symm).symm
  · refine intercalate_injective h h' hparts (fun hothers => hparts ?_) heq
    rw [hothers] at heq
    exact hnil hne heq

/-- Lists whose items are told apart by what they are mapped to. -/
theorem map_eq_of_injOn {β : Type} {f : α → β} {l l' : List α}
    (h : ∀ a ∈ l, ∀ b ∈ l', f a = f b → a = b) (heq : l.map f = l'.map f) : l = l' := by
  induction l generalizing l' with
  | nil => exact (List.map_eq_nil_iff.1 heq.symm).symm
  | cons a l ih =>
    cases l' with
    | nil => cases heq
    | cons b l' =>
      rw [List.map_cons, List.map_cons, List.cons.injEq] at heq
      rw [h a (List.mem_cons_self ..) b (List.mem_cons_self ..) heq.1]
      refine congrArg (b :: ·) (ih (fun a' ha b' hb => ?_) heq.2)
      exact h a' (List.mem_cons_of_mem _ ha) b' (List.mem_cons_of_mem _ hb)

end Parts

/-! ### Rows -/

section Rows

variable {ρ β κ : Type} [LinearOrder κ]

/-- The rows in the order of their keys. -/
def sortBy (key : ρ → κ) (rows : List ρ) : List ρ :=
  rows.insertionSort fun row other => key row ≤ key other

variable {key : ρ → κ} {shown : ρ → β} {rows others : List ρ}

theorem perm_sortBy (key : ρ → κ) (rows : List ρ) : (sortBy key rows).Perm rows :=
  List.perm_insertionSort _ rows

theorem pairwise_sortBy (key : ρ → κ) (rows : List ρ) :
    (sortBy key rows).Pairwise fun row other => key row ≤ key other := by
  have htotal : Std.Total fun row other : ρ => key row ≤ key other :=
    ⟨fun row other => le_total (key row) (key other)⟩
  have htrans : IsTrans ρ fun row other => key row ≤ key other := ⟨fun _ _ _ => le_trans⟩
  exact List.pairwise_insertionSort _ rows

/-- **What is shown of sorted rows** does not depend on the order they came in, when what is
shown determines the key and the key the row. -/
theorem map_sortBy_eq (hshown : ∀ row other : ρ, shown row = shown other → key row = key other)
    (hkey : ∀ row ∈ rows, ∀ other ∈ rows, key row = key other → row = other)
    (h : (rows.map shown).Perm (others.map shown)) :
    (sortBy key rows).map shown = (sortBy key others).map shown := by
  have hperm : ((sortBy key rows).map shown).Perm ((sortBy key others).map shown) :=
    ((perm_sortBy key rows).map shown).trans (h.trans ((perm_sortBy key others).map shown).symm)
  -- Sorted by the keys of whichever rows show them.
  have hsorted : ∀ l : List ρ, ((sortBy key l).map shown).Pairwise fun a b =>
      ∀ row other, shown row = a → shown other = b → key row ≤ key other := by
    intro l
    rw [List.pairwise_map]
    refine (pairwise_sortBy key l).imp fun hle row other hrow hother => ?_
    rw [hshown _ _ hrow, hshown _ _ hother]
    exact hle
  refine List.Perm.eq_of_pairwise ?_ (hsorted rows) (hsorted others) hperm
  intro a b ha hb hab hba
  obtain ⟨row, hrow, rfl⟩ := List.mem_map.1 ha
  obtain ⟨other, hother, rfl⟩ := List.mem_map.1 (hperm.mem_iff.2 hb)
  have heq : key row = key other := le_antisymm (hab _ _ rfl rfl) (hba _ _ rfl rfl)
  rw [hkey row ((perm_sortBy key rows).mem_iff.1 hrow) other
    ((perm_sortBy key rows).mem_iff.1 hother) heq]

/-- A single row needs no key. -/
theorem map_sortBy_eq_of_length_le_one (hlength : rows.length ≤ 1)
    (h : (rows.map shown).Perm (others.map shown)) :
    (sortBy key rows).map shown = (sortBy key others).map shown := by
  have hperm : ((sortBy key rows).map shown).Perm ((sortBy key others).map shown) :=
    ((perm_sortBy key rows).map shown).trans (h.trans ((perm_sortBy key others).map shown).symm)
  have hsorted : ((sortBy key rows).map shown).length ≤ 1 := by
    rw [List.length_map, (perm_sortBy key rows).length_eq]
    exact hlength
  obtain hnil | ⟨a, ha⟩ := Nat.le_one_iff_eq_zero_or_eq_one.1 hsorted |>.imp
    List.length_eq_zero_iff.1 List.length_eq_one_iff.1
  · rw [hnil] at hperm ⊢
    exact (List.nil_perm.1 hperm).symm
  · rw [ha] at hperm ⊢
    exact List.singleton_perm.1 hperm

end Rows

end Data
end TradingSystem
