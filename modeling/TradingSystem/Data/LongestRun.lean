import Mathlib.Algebra.Order.Ring.Int
import Mathlib.Data.List.Induction
import Mathlib.Order.Bounds.Basic
import Mathlib.Tactic.Ring
import Mathlib.Tactic.Linarith

/-!
# The longest run of an increasing list

One pass over increasing integers that keeps the length of the run that ends at the last of them
and the longest length so far. On a list whose values differ by multiples of the step, the
result is the greatest length of a run.

* `Scanned` — what the state says of the values seen so far.
* `Scanned.step` — one more value keeps it.
* `isGreatest_scan` — the whole pass.
-/

namespace TradingSystem
namespace Data
namespace LongestRun

variable {values : List ℤ} {duration : ℤ}

/-- The variables of the loop. -/
structure Scan where
  longest : ℕ
  current : ℕ
  previous : Option ℤ

/-- The body of the loop. -/
def step (duration : ℤ) (scan : Scan) (value : ℤ) : Scan :=
  let current :=
    if scan.previous.any fun previous => value = previous + duration then scan.current + 1 else 1
  ⟨max scan.longest current, current, some value⟩

/-- The loop. -/
def scan (duration : ℤ) (values : List ℤ) : Scan :=
  values.foldl (step duration) ⟨0, 0, none⟩

/-- A run of the given length that ends at a value. -/
def IsRun (values : List ℤ) (duration last : ℤ) (length : ℕ) : Prop :=
  ∀ k : ℕ, k < length → last - k * duration ∈ values

/-- **What the loop has seen.** The previous value is the greatest one, the current length is
that of the run that ends there, which cannot be longer, and the longest is the greatest. -/
structure Scanned (values : List ℤ) (duration : ℤ) (scan : Scan) : Prop where
  empty : scan.previous = none → values = []
  greatest : ∀ previous ∈ scan.previous, IsGreatest {value | value ∈ values} previous
  current : ∀ previous ∈ scan.previous, IsRun values duration previous scan.current ∧
    previous - scan.current * duration ∉ values
  longest : IsGreatest {length | ∃ last, IsRun values duration last length} scan.longest

theorem IsRun.append {last : ℤ} {length : ℕ} (h : IsRun values duration last length)
    (value : ℤ) : IsRun (values ++ [value]) duration last length :=
  fun k hk => List.mem_append_left _ (h k hk)

/-- A run of a longer list that ends before its last value is a run of the list. -/
theorem IsRun.of_append {value last : ℤ} {length : ℕ} (hpos : 0 < duration) (hlt : last < value)
    (h : IsRun (values ++ [value]) duration last length) :
    IsRun values duration last length := by
  intro k hk
  rcases List.mem_append.1 (h k hk) with hmem | hmem
  · exact hmem
  · have hback : 0 ≤ (k : ℤ) * duration := mul_nonneg (Int.natCast_nonneg k) hpos.le
    have heq := List.mem_singleton.1 hmem
    omega

/-- A run that ends at a value goes on a step before it. -/
theorem isRun_succ_iff {last : ℤ} {length : ℕ} : IsRun values duration last (length + 1) ↔
    last ∈ values ∧ IsRun values duration (last - duration) length := by
  constructor
  · intro h
    refine ⟨by simpa using h 0 (Nat.succ_pos _), fun k hk => ?_⟩
    have hmem := h (k + 1) (Nat.succ_lt_succ hk)
    rw [show last - duration - k * duration = last - ((k + 1 : ℕ) : ℤ) * duration by
      push_cast; ring]
    exact hmem
  · rintro ⟨hlast, hrest⟩ k hk
    cases k with
    | zero => simpa using hlast
    | succ k =>
      have hmem := hrest k (Nat.lt_of_succ_lt_succ hk)
      rw [show last - ((k + 1 : ℕ) : ℤ) * duration = last - duration - k * duration by
        push_cast; ring]
      exact hmem

/-- A run that cannot be extended is the longest that ends where it does. -/
theorem IsRun.le_of_not_mem {last : ℤ} {length bound : ℕ} (h : IsRun values duration last length)
    (hbound : last - bound * duration ∉ values) : length ≤ bound := by
  by_contra hlt
  exact hbound (h bound (not_le.1 hlt))

/-- Numbers whose multiples are less than one step apart are equal. -/
theorem eq_of_mul_lt {j k : ℤ} (hpos : 0 < duration) (hjk : duration * j < duration * (k + 1))
    (hkj : duration * k < duration * (j + 1)) : j = k := by
  have hle := lt_of_mul_lt_mul_left hjk hpos.le
  have hge := lt_of_mul_lt_mul_left hkj hpos.le
  omega

/-- The value before the next one is the previous value, or there is none. -/
theorem Scanned.mem_iff {scan : Scan} {value : ℤ} (h : Scanned values duration scan)
    (hpos : 0 < duration) (hlast : ∀ other ∈ values, other < value)
    (hgrid : ∀ other ∈ values, duration ∣ value - other) :
    value - duration ∈ values ↔ scan.previous = some (value - duration) := by
  constructor
  · intro hmem
    cases hprevious : scan.previous with
    | none =>
      rw [h.empty hprevious] at hmem
      cases hmem
    | some previous =>
      obtain ⟨hheld, hgreatest⟩ := h.greatest previous hprevious
      -- it lies less than two steps before the value, on the grid
      have hle : value - duration ≤ previous := hgreatest hmem
      have hlt := hlast previous hheld
      obtain ⟨steps, hsteps⟩ := hgrid previous hheld
      have hone : steps = 1 := by
        apply eq_of_mul_lt hpos
        · rw [mul_add, mul_one]
          omega
        · rw [mul_add, mul_one]
          omega
      rw [hone, mul_one] at hsteps
      rw [← hsteps]
      congr 1
      ring
  · intro hprevious
    exact (h.greatest _ hprevious).1

/-- **One more value.** -/
theorem Scanned.step {scan : Scan} {value : ℤ} (h : Scanned values duration scan)
    (hpos : 0 < duration) (hlast : ∀ other ∈ values, other < value)
    (hgrid : ∀ other ∈ values, duration ∣ value - other) :
    Scanned (values ++ [value]) duration (LongestRun.step duration scan value) := by
  have hmem_iff := h.mem_iff hpos hlast hgrid
  have hself : value ∈ values ++ [value] := List.mem_append_right _ (List.mem_singleton_self _)
  -- the run that ends at the value, and that it cannot be longer
  have hcurrent : IsRun (values ++ [value]) duration value
      (LongestRun.step duration scan value).current ∧
      value - (LongestRun.step duration scan value).current * duration ∉ values ++ [value] := by
    unfold LongestRun.step
    dsimp only
    by_cases hadjacent : scan.previous = some (value - duration)
    · have htest : (scan.previous.any fun previous => value = previous + duration) = true := by
        rw [hadjacent]
        simp
      rw [if_pos htest]
      -- the run that ended at the previous value goes on
      obtain ⟨hrun, hend⟩ := h.current _ hadjacent
      refine ⟨isRun_succ_iff.2 ⟨hself, hrun.append value⟩, ?_⟩
      intro hmem
      have hback : 0 ≤ (scan.current : ℤ) * duration :=
        mul_nonneg (Int.natCast_nonneg _) hpos.le
      rcases List.mem_append.1 hmem with hmem | hmem
      · apply hend
        rw [show value - duration - scan.current * duration =
          value - ((scan.current + 1 : ℕ) : ℤ) * duration by push_cast; ring]
        exact hmem
      · have heq := List.mem_singleton.1 hmem
        push_cast at heq
        linarith
    · have htest : ¬(scan.previous.any fun previous => value = previous + duration) = true := by
        intro htrue
        apply hadjacent
        obtain ⟨previous, hprevious, heq⟩ := (Option.any_eq_true _ _).1 htrue
        rw [hprevious, of_decide_eq_true heq, add_sub_cancel_right]
      rw [if_neg htest]
      -- a run of one value, with nothing a step before it
      refine ⟨isRun_succ_iff.2 ⟨hself, fun k hk => absurd hk (Nat.not_lt_zero k)⟩, ?_⟩
      intro hmem
      rw [Nat.cast_one, one_mul] at hmem
      rcases List.mem_append.1 hmem with hmem | hmem
      · exact hadjacent (hmem_iff.1 hmem)
      · have heq := List.mem_singleton.1 hmem
        omega
  refine ⟨nofun, ?_, ?_, ?_⟩
  · rintro previous hprevious
    cases hprevious
    refine ⟨hself, fun other hother => ?_⟩
    rcases List.mem_append.1 hother with hmem | hmem
    · exact (hlast other hmem).le
    · exact (List.mem_singleton.1 hmem).le
  · rintro previous hprevious
    cases hprevious
    exact hcurrent
  · obtain ⟨⟨last, hlongest⟩, hbound⟩ := h.longest
    constructor
    · -- the longest run so far, or the one that ends at the value
      rcases max_choice scan.longest (LongestRun.step duration scan value).current with heq | heq
      · refine ⟨last, ?_⟩
        change IsRun _ _ _ (max scan.longest (LongestRun.step duration scan value).current)
        rw [heq]
        exact hlongest.append value
      · refine ⟨value, ?_⟩
        change IsRun _ _ _ (max scan.longest (LongestRun.step duration scan value).current)
        rw [heq]
        exact hcurrent.1
    · rintro length ⟨last', hrun⟩
      cases length with
      | zero => exact Nat.zero_le _
      | succ length =>
        -- a run ends at an earlier value or at this one
        have hheld := (isRun_succ_iff.1 hrun).1
        rcases List.mem_append.1 hheld with hmem | hmem
        · exact (hbound ⟨last', hrun.of_append hpos (hlast last' hmem)⟩).trans
            (le_max_left _ _)
        · rw [List.mem_singleton.1 hmem] at hrun
          exact (hrun.le_of_not_mem hcurrent.2).trans (le_max_right _ _)

/-- **The longest run.** On an increasing list on a grid the pass ends with the greatest length
of a run. -/
theorem isGreatest_scan (hpos : 0 < duration) (hincreasing : values.Pairwise (· < ·))
    (hgrid : ∀ value ∈ values, ∀ other ∈ values, duration ∣ value - other) :
    IsGreatest {length | ∃ last, IsRun values duration last length}
      (scan duration values).longest := by
  suffices h : Scanned values duration (scan duration values) from h.longest
  induction values using List.reverseRecOn with
  | nil =>
    refine ⟨fun _ => rfl, nofun, nofun, ⟨0, fun k hk => absurd hk (Nat.not_lt_zero k)⟩, ?_⟩
    rintro length ⟨last, hrun⟩
    by_contra hlt
    exact absurd (hrun 0 (not_le.1 hlt)) List.not_mem_nil
  | append_singleton values value ih =>
    -- the last value is the greatest, as the step asks
    obtain ⟨hvalues, -, hlast⟩ := List.pairwise_append.1 hincreasing
    have hscanned := ih hvalues fun other hother other' hother' =>
      hgrid other (List.mem_append_left _ hother) other' (List.mem_append_left _ hother')
    unfold scan at hscanned ⊢
    rw [List.foldl_append, List.foldl_cons, List.foldl_nil]
    have hself : value ∈ values ++ [value] := List.mem_append_right _ (List.mem_singleton_self _)
    exact hscanned.step hpos (fun other hother => hlast other hother value
      (List.mem_singleton_self _)) fun other hother =>
        hgrid value hself other (List.mem_append_left _ hother)

end LongestRun
end Data
end TradingSystem
