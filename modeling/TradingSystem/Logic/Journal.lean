import Mathlib.Data.Multiset.AddSub
import Mathlib.Data.Multiset.UnionInter
import Mathlib.Data.List.Nodup
import Mathlib.Data.List.Pairwise

/-!
# Journals

A journal is a list of rows that is only appended to. A row has *keys*, which no other row may
have, and *references*, which must be keys of earlier rows. It may also *raise* tasks, which
later rows are to settle.

A program that writes a journal reserves keys before the rows exist, and has tasks in hand that
no row has settled. `Kept reserved open rows` says that the journal is in order: keys are used
once, reserved ones included, references point backwards, and every task that the rows leave
open is in hand.

* `Kept.append` — write a row whose keys were reserved.
* `Kept.reserve` — reserve a key nobody has.
* `Kept.mono` — give reservations up, take tasks in hand.
-/

namespace TradingSystem
namespace Logic

universe u v w

/-! ### Rows one after the other -/

section Stepwise

variable {ρ : Type u} {P : List ρ → ρ → Prop} {rows : List ρ} {row : ρ}

/-- Every row stands in a relation to the rows before it. -/
def Stepwise (P : List ρ → ρ → Prop) (rows : List ρ) : Prop :=
  ∀ before row after, rows = before ++ row :: after → P before row

theorem stepwise_nil : Stepwise P [] := by
  intro before row after h
  simp at h

/-- **One more row** stands in it to all the others. -/
theorem Stepwise.append (h : Stepwise P rows) (hrow : P rows row) : Stepwise P (rows ++ [row]) := by
  intro before other after heq
  rcases List.append_eq_append_iff.1 heq with ⟨between, rfl, hlast⟩ | ⟨between, rfl, hlast⟩
  · -- the row is at or behind the last one
    cases between with
    | nil =>
      obtain ⟨rfl, -⟩ := List.cons.inj hlast
      rw [List.append_nil]
      exact hrow
    | cons first rest =>
      have hlength := congrArg List.length hlast
      simp at hlength
  · cases between with
    | nil =>
      obtain ⟨rfl, -⟩ := List.cons.inj hlast
      rw [List.append_nil] at hrow
      exact hrow
    | cons first rest =>
      obtain ⟨rfl, -⟩ := List.cons.inj hlast
      exact h before other rest rfl

/-- Rows that stand in it to whatever is before them. -/
theorem Stepwise.append_all {rows' : List ρ} (h : Stepwise P rows)
    (hrows : ∀ row ∈ rows', ∀ before, P before row) : Stepwise P (rows ++ rows') := by
  induction rows' generalizing rows with
  | nil =>
    rw [List.append_nil]
    exact h
  | cons first rest ih =>
    rw [← List.singleton_append, ← List.append_assoc]
    exact ih (h.append (hrows first (List.mem_cons_self ..) rows))
      fun row hrow => hrows row (List.mem_cons_of_mem _ hrow)

end Stepwise

/-! ### Keys, references and tasks -/

/-- What the rows of a journal are known by, refer to, ask for and answer. -/
structure JournalSpec (ρ : Type u) (κ : Type v) (τ : Type w) where
  keys : ρ → List κ
  refs : ρ → List κ
  raises : ρ → List τ
  settles : ρ → List τ

namespace JournalSpec

variable {ρ : Type u} {κ : Type v} {τ : Type w} (spec : JournalSpec ρ κ τ)

/-- The keys of some rows. -/
def keysOf (rows : List ρ) : List κ := rows.flatMap spec.keys

/-- A row raises the task and no row settles it. -/
def Outstanding (rows : List ρ) (task : τ) : Prop :=
  (∃ row ∈ rows, task ∈ spec.raises row) ∧ ∀ row ∈ rows, task ∉ spec.settles row

/-- **Referenced rows.** Every row refers to keys of rows before it. -/
def Referenced (rows : List ρ) : Prop :=
  Stepwise (fun before row => spec.refs row ⊆ spec.keysOf before) rows

/-- **A journal in order.** -/
structure Kept (reserved : Multiset κ) (tasks : List τ) (rows : List ρ) : Prop where
  nodup : (↑(spec.keysOf rows) + reserved).Nodup
  referenced : spec.Referenced rows
  outstanding : ∀ task, spec.Outstanding rows task → task ∈ tasks

variable {spec} {rows : List ρ} {row : ρ} {reserved reserved' : Multiset κ} {tasks tasks' : List τ}
  {key : κ}

theorem keysOf_append {rows' : List ρ} :
    spec.keysOf (rows ++ rows') = spec.keysOf rows ++ spec.keysOf rows' := List.flatMap_append

theorem keysOf_singleton : spec.keysOf [row] = spec.keys row := List.flatMap_singleton ..

theorem mem_keysOf : key ∈ spec.keysOf rows ↔ ∃ row ∈ rows, key ∈ spec.keys row :=
  List.mem_flatMap

/-- A journal without rows. -/
theorem kept_nil (h : reserved.Nodup) (tasks : List τ) : spec.Kept reserved tasks [] where
  nodup := by
    change ((0 : Multiset κ) + reserved).Nodup
    rwa [Multiset.zero_add]
  referenced := stepwise_nil
  outstanding task h := by
    obtain ⟨⟨row, hrow, -⟩, -⟩ := h
    cases hrow

theorem referenced_append (h : spec.Referenced rows) (hrefs : spec.refs row ⊆ spec.keysOf rows) :
    spec.Referenced (rows ++ [row]) :=
  Stepwise.append h hrefs

theorem outstanding_append {task : τ} (h : spec.Outstanding (rows ++ [row]) task) :
    (spec.Outstanding rows task ∨ task ∈ spec.raises row) ∧ task ∉ spec.settles row := by
  obtain ⟨⟨raising, hraising, htask⟩, hnone⟩ := h
  refine ⟨?_, hnone row (by simp)⟩
  rcases List.mem_append.1 hraising with hold | hnew
  · exact Or.inl ⟨⟨raising, hold, htask⟩, fun other hother => hnone other
      (List.mem_append_left _ hother)⟩
  · rw [List.mem_singleton.1 hnew] at htask
    exact Or.inr htask

/-- **Writing a row** uses up its keys; what it raises is in hand, unless it settles it. -/
theorem Kept.append (h : spec.Kept (↑(spec.keys row) + reserved) tasks rows)
    (hrefs : spec.refs row ⊆ spec.keysOf rows)
    (htasks : ∀ task, task ∈ tasks ∨ task ∈ spec.raises row →
      task ∈ tasks' ∨ task ∈ spec.settles row) :
    spec.Kept reserved tasks' (rows ++ [row]) where
  nodup := by
    have hnodup := h.nodup
    rw [← Multiset.add_assoc] at hnodup
    rw [keysOf_append, keysOf_singleton, ← Multiset.coe_add]
    exact hnodup
  referenced := referenced_append h.referenced hrefs
  outstanding task htask := by
    obtain ⟨hopen, hsettled⟩ := outstanding_append htask
    exact (htasks task (hopen.imp_left (h.outstanding task))).resolve_right hsettled

/-- Reservations may be given up and tasks taken in hand. -/
theorem Kept.mono (h : spec.Kept reserved tasks rows) (hreserved : reserved' ≤ reserved)
    (htasks : tasks ⊆ tasks') : spec.Kept reserved' tasks' rows :=
  ⟨Multiset.nodup_of_le (Multiset.add_le_add_left hreserved) h.nodup, h.referenced,
    fun task htask => htasks (h.outstanding task htask)⟩

/-- **Reserving** a key that is neither used nor reserved. -/
theorem Kept.reserve (h : spec.Kept reserved tasks rows) (hused : key ∉ spec.keysOf rows)
    (hreserved : key ∉ reserved) : spec.Kept (key ::ₘ reserved) tasks rows := by
  refine ⟨?_, h.referenced, h.outstanding⟩
  rw [Multiset.add_cons, Multiset.nodup_cons, Multiset.mem_add, Multiset.mem_coe, not_or]
  exact ⟨⟨hused, hreserved⟩, h.nodup⟩

/-- A reserved key is not used. -/
theorem Kept.not_mem_keysOf (h : spec.Kept reserved tasks rows) (hkey : key ∈ reserved) :
    key ∉ spec.keysOf rows := by
  intro hused
  have hdisjoint := (Multiset.nodup_add.1 h.nodup).2.2
  exact Multiset.disjoint_left.1 hdisjoint (Multiset.mem_coe.2 hused) hkey

/-- No key is used twice. -/
theorem Kept.keysOf_nodup (h : spec.Kept reserved tasks rows) : (spec.keysOf rows).Nodup :=
  Multiset.coe_nodup.1 (Multiset.nodup_of_le (Multiset.le_add_right _ _) h.nodup)

/-- Rows with a key in common are one row. -/
theorem eq_of_mem_keys {row' : ρ} (h : (spec.keysOf rows).Nodup) (hrow : row ∈ rows)
    (hrow' : row' ∈ rows) (hkey : key ∈ spec.keys row) (hkey' : key ∈ spec.keys row') :
    row = row' := by
  by_contra hne
  have : Std.Symm (Function.onFun List.Disjoint spec.keys) := ⟨fun _ _ h => List.Disjoint.symm h⟩
  have hdisjoint := (List.nodup_flatMap.1 h).2.forall hrow hrow' hne
  exact hdisjoint hkey hkey'

/-- Whatever a row refers to is the key of some row. -/
theorem Referenced.mem_keysOf (h : spec.Referenced rows) (hrow : row ∈ rows)
    (hkey : key ∈ spec.refs row) : key ∈ spec.keysOf rows := by
  obtain ⟨before, after, rfl⟩ := List.append_of_mem hrow
  rw [keysOf_append]
  exact List.mem_append_left _ (h before row after rfl hkey)

end JournalSpec
end Logic
end TradingSystem
