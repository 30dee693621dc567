import Mathlib.Algebra.Order.Ring.Int
import Mathlib.Algebra.Order.Group.Unbundled.Int
import Mathlib.Algebra.Ring.Divisibility.Basic
import Mathlib.Data.List.Basic
import Mathlib.Tactic.Linarith
import Mathlib.Tactic.Ring

/-!
# Counting behind a watermark

Positions of a regular grid are passed by a cursor, and some of those beyond the cursor are
counted. A mark says up to where the counting went, so that no position is counted twice.

* `Watermark` — the invariant: the positions between the cursor and the mark are counted, and
  none beyond the mark is.
* `Watermark.advance` — the cursor passes one position; the mark moves with it if it has to.
* `Watermark.count` — everything due beyond the mark is counted and the mark moves behind it.
* `Watermark.mem_count` — this adds what is due beyond the *cursor*: what lies between the
  cursor and the mark was counted before.
-/

namespace TradingSystem
namespace Logic

/-- The first positions after a mark. -/
def stretch (step mark : ℤ) (count : ℕ) : List ℤ :=
  (List.range count).map fun index : ℕ => mark + (index + 1) * step

variable {step start cursor mark p time : ℤ} {counted : List ℤ}

/-- How many positions are due beyond a mark. -/
def dueCount (step mark time : ℤ) : ℕ := ((time - mark) / step).toNat

theorem mem_stretch (hstep : 0 < step) (count : ℕ) :
    p ∈ stretch step mark count ↔ step ∣ p - mark ∧ mark < p ∧ p ≤ mark + count * step := by
  rw [stretch, List.mem_map]
  constructor
  · rintro ⟨index, hindex, rfl⟩
    have hle : (index : ℤ) + 1 ≤ count := by exact_mod_cast List.mem_range.1 hindex
    have hpos : (0 : ℤ) ≤ index := Int.natCast_nonneg index
    refine ⟨⟨index + 1, by ring⟩, by nlinarith, by nlinarith⟩
  · rintro ⟨⟨index, hindex⟩, hlt, hle⟩
    have hpos : 0 < index := by nlinarith
    have hbound : index ≤ count := by nlinarith
    refine ⟨(index - 1).toNat, List.mem_range.2 (by omega), ?_⟩
    have hcast : (((index - 1).toNat : ℕ) : ℤ) = index - 1 := Int.toNat_of_nonneg (by omega)
    rw [hcast]
    linarith

/-- What is due beyond a mark at some time are the positions up to that time. -/
theorem mem_stretch_dueCount (hstep : 0 < step) :
    p ∈ stretch step mark (dueCount step mark time) ↔ step ∣ p - mark ∧ mark < p ∧ p ≤ time := by
  rw [mem_stretch hstep]
  refine and_congr_right fun hdvd => and_congr_right fun hlt => ?_
  obtain ⟨index, hindex⟩ := hdvd
  have hpos : 0 < index := by nlinarith
  have hdue : (index : ℤ) ≤ dueCount step mark time ↔ index ≤ (time - mark) / step := by
    rw [dueCount]
    omega
  calc p ≤ mark + dueCount step mark time * step
      ↔ index * step ≤ dueCount step mark time * step := by
        constructor <;> intro h <;> linarith
    _ ↔ index ≤ dueCount step mark time := mul_le_mul_iff_of_pos_right hstep
    _ ↔ index ≤ (time - mark) / step := hdue
    _ ↔ index * step ≤ time - mark := Int.le_ediv_iff_mul_le hstep
    _ ↔ p ≤ time := by constructor <;> intro h <;> linarith

theorem stretch_ascending (hstep : 0 < step) (mark : ℤ) (count : ℕ) :
    (stretch step mark count).Pairwise (· < ·) := by
  rw [stretch, List.pairwise_map]
  refine List.pairwise_lt_range.imp ?_
  intro left right hlt
  have hcast : (left : ℤ) < right := by exact_mod_cast hlt
  nlinarith

/-- **The watermark.** -/
structure Watermark (step start cursor mark : ℤ) (counted : List ℤ) : Prop where
  start_le : start ≤ cursor
  cursor_le : cursor ≤ mark
  cursor_dvd : step ∣ cursor - start
  mark_dvd : step ∣ mark - start
  ascending : counted.Pairwise (· < ·)
  le_mark : ∀ p ∈ counted, p ≤ mark
  covered : ∀ p, step ∣ p - start → cursor < p → p ≤ mark → p ∈ counted

namespace Watermark

theorem init (step start : ℤ) : Watermark step start start start [] where
  start_le := le_refl start
  cursor_le := le_refl start
  cursor_dvd := by rw [sub_self]; exact dvd_zero step
  mark_dvd := by rw [sub_self]; exact dvd_zero step
  ascending := List.Pairwise.nil
  le_mark p hp := absurd hp List.not_mem_nil
  covered p _ hlt hle := absurd hle (not_le.2 hlt)

/-- **The cursor passes a position.** -/
theorem advance (h : Watermark step start cursor mark counted) (hstep : 0 < step) :
    Watermark step start (cursor + step) (max (cursor + step) mark) counted where
  start_le := by linarith [h.start_le]
  cursor_le := le_max_left _ _
  cursor_dvd := by
    rw [add_sub_right_comm]
    exact dvd_add h.cursor_dvd (dvd_refl step)
  mark_dvd := by
    obtain hmax | hmax := max_choice (cursor + step) mark
    · rw [hmax, add_sub_right_comm]
      exact dvd_add h.cursor_dvd (dvd_refl step)
    · rw [hmax]
      exact h.mark_dvd
  ascending := h.ascending
  le_mark p hp := le_max_of_le_right (h.le_mark p hp)
  covered p hdvd hlt hle := by
    obtain hle | hle := le_max_iff.1 hle
    · exact absurd hle (not_le.2 hlt)
    · exact h.covered p hdvd (by linarith) hle

/-- **Everything due is counted.** -/
theorem count (h : Watermark step start cursor mark counted) (hstep : 0 < step) (time : ℤ) :
    Watermark step start cursor (mark + dueCount step mark time * step)
      (counted ++ stretch step mark (dueCount step mark time)) where
  start_le := h.start_le
  cursor_le := by
    have hcount : (0 : ℤ) ≤ dueCount step mark time * step := by positivity
    linarith [h.cursor_le]
  cursor_dvd := h.cursor_dvd
  mark_dvd := by
    rw [add_sub_right_comm]
    exact dvd_add h.mark_dvd (dvd_mul_left step _)
  ascending := by
    rw [List.pairwise_append]
    refine ⟨h.ascending, stretch_ascending hstep mark _, ?_⟩
    -- what was counted lies up to the mark, what is added lies behind it
    intro old hold new hnew
    exact lt_of_le_of_lt (h.le_mark old hold) ((mem_stretch hstep _).1 hnew).2.1
  le_mark p hp := by
    obtain hp | hp := List.mem_append.1 hp
    · have hcount : (0 : ℤ) ≤ dueCount step mark time * step := by positivity
      linarith [h.le_mark p hp]
    · exact ((mem_stretch hstep _).1 hp).2.2
  covered p hdvd hlt hle := by
    rw [List.mem_append]
    by_cases hmark : p ≤ mark
    · exact Or.inl (h.covered p hdvd hlt hmark)
    · refine Or.inr ((mem_stretch hstep _).2 ⟨?_, not_le.1 hmark, hle⟩)
      have hdiff : p - mark = (p - start) - (mark - start) := by ring
      rw [hdiff]
      exact dvd_sub hdvd h.mark_dvd

/-- **What counting adds** are the positions due beyond the cursor. -/
theorem mem_count (h : Watermark step start cursor mark counted) (hstep : 0 < step) (time p : ℤ) :
    p ∈ counted ++ stretch step mark (dueCount step mark time) ↔
      p ∈ counted ∨ (step ∣ p - start ∧ cursor < p ∧ p ≤ time) := by
  have hdvd : step ∣ p - mark ↔ step ∣ p - start := by
    have hsum : p - start = (p - mark) + (mark - start) := by ring
    rw [hsum]
    exact (dvd_add_left h.mark_dvd).symm
  rw [List.mem_append, mem_stretch_dueCount hstep, hdvd]
  constructor
  · rintro (hold | ⟨hgrid, hlt, hle⟩)
    · exact Or.inl hold
    · exact Or.inr ⟨hgrid, lt_of_le_of_lt h.cursor_le hlt, hle⟩
  · rintro (hold | ⟨hgrid, hlt, hle⟩)
    · exact Or.inl hold
    · by_cases hmark : p ≤ mark
      · -- it was counted when the mark passed it
        exact Or.inl (h.covered p hgrid hlt hmark)
      · exact Or.inr ⟨hgrid, not_le.1 hmark, hle⟩

end Watermark

end Logic
end TradingSystem
