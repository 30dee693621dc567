import Mathlib.Algebra.Order.Round
import Mathlib.Algebra.Order.Field.Basic
import Mathlib.Data.Int.Log
import Mathlib.Tactic.Linarith
import Mathlib.Tactic.Ring
import Mathlib.Tactic.FieldSimp
import Mathlib.Tactic.Positivity

/-!
# Rounding half to even

Rounding to the nearest integer with ties going to the even neighbour, and the
rounding to the multiples of a quantum that it induces. Both decimal
quantization (quantum `10^(-8)`) and binary floating point (quantum the unit in
the last place) are instances of `roundTo`.

Everything is read off one characterization, `roundHalfEven_eq_iff`: the result
is the integer strictly closer than one half, or an even integer at distance
exactly one half. Monotonicity, oddness and the error bound follow from it
without going back to the floor function.

* `roundHalfEven` — the integer rounding.
* `OnGrid u x` — `x` is an integer multiple of the quantum `u`.
* `roundTo u x` — the multiple of `u` nearest to `x`, ties to even.
-/

namespace TradingSystem
namespace Numeric

variable {α : Type*} [Field α] [LinearOrder α] [IsStrictOrderedRing α] [FloorRing α]

/-! ### Rounding to an integer -/

/-- The integer nearest to `x`; at a midpoint, the even one of the two. -/
def roundHalfEven (x : α) : ℤ :=
  if Int.fract x < 1 / 2 then ⌊x⌋
  else if 1 / 2 < Int.fract x then ⌊x⌋ + 1
  else if Even ⌊x⌋ then ⌊x⌋ else ⌊x⌋ + 1

/-- `n` is an admissible rounding of `x`: nearer than one half, or an even
integer at distance one half. -/
def IsHalfEven (x : α) (n : ℤ) : Prop :=
  |x - n| < 1 / 2 ∨ (|x - n| = 1 / 2 ∧ Even n)

theorem isHalfEven_roundHalfEven (x : α) : IsHalfEven x (roundHalfEven x) := by
  have h0 : (0 : α) ≤ Int.fract x := Int.fract_nonneg x
  have h1 : Int.fract x < 1 := Int.fract_lt_one x
  have hx : x - (⌊x⌋ : α) = Int.fract x := Int.self_sub_floor x
  have hx1 : x - ((⌊x⌋ + 1 : ℤ) : α) = Int.fract x - 1 := by push_cast; linarith
  unfold roundHalfEven
  split_ifs with hlt hgt heven
  · left
    rw [hx, abs_of_nonneg h0]
    exact hlt
  · left
    rw [hx1, abs_of_nonpos (by linarith)]
    linarith
  · right
    have hhalf : Int.fract x = 1 / 2 := le_antisymm (not_lt.1 hgt) (not_lt.1 hlt)
    exact ⟨by rw [hx, hhalf]; norm_num, heven⟩
  · right
    have hhalf : Int.fract x = 1 / 2 := le_antisymm (not_lt.1 hgt) (not_lt.1 hlt)
    refine ⟨?_, Int.even_add_one.2 heven⟩
    rw [hx1, hhalf, abs_of_nonpos (by norm_num)]
    norm_num

/-- **Uniqueness.** Two admissible roundings of ordered arguments are ordered;
with equal arguments they coincide. -/
theorem IsHalfEven.le {x y : α} {m n : ℤ} (hxy : x ≤ y)
    (hm : IsHalfEven x m) (hn : IsHalfEven y n) : m ≤ n := by
  by_contra hlt
  have hgap : (n : α) + 1 ≤ m := by exact_mod_cast (not_le.1 hlt)
  have hmx : |x - m| ≤ 1 / 2 := hm.elim le_of_lt (fun h => h.1.le)
  have hny : |y - n| ≤ 1 / 2 := hn.elim le_of_lt (fun h => h.1.le)
  have hx := (abs_le.1 hmx).1
  have hy := (abs_le.1 hny).2
  -- the two candidates are adjacent and `x = y` is their midpoint
  have hadj : (m : α) = n + 1 := by linarith
  have hxm : |x - m| = 1 / 2 := by
    rw [abs_of_nonpos (by linarith)]; linarith
  have hyn : |y - n| = 1 / 2 := by
    rw [abs_of_nonneg (by linarith)]; linarith
  have hme : Even m := hm.elim (fun h => absurd hxm h.ne) And.right
  have hne : Even n := hn.elim (fun h => absurd hyn h.ne) And.right
  have hmn : m = n + 1 := by exact_mod_cast hadj
  rw [hmn] at hme
  exact (Int.even_add_one.1 hme) hne

/-- The characterization every other fact is derived from. -/
theorem roundHalfEven_eq_iff {x : α} {n : ℤ} : roundHalfEven x = n ↔ IsHalfEven x n := by
  constructor
  · rintro rfl
    exact isHalfEven_roundHalfEven x
  · intro h
    exact le_antisymm ((isHalfEven_roundHalfEven x).le le_rfl h)
      (h.le le_rfl (isHalfEven_roundHalfEven x))

theorem roundHalfEven_eq_of_abs_lt {x : α} {n : ℤ} (h : |x - n| < 1 / 2) :
    roundHalfEven x = n :=
  roundHalfEven_eq_iff.2 (Or.inl h)

theorem abs_sub_roundHalfEven_le (x : α) : |x - roundHalfEven x| ≤ 1 / 2 :=
  (isHalfEven_roundHalfEven x).elim le_of_lt (fun h => h.1.le)

@[simp] theorem roundHalfEven_intCast (n : ℤ) : roundHalfEven (n : α) = n :=
  roundHalfEven_eq_of_abs_lt (by simp)

@[simp] theorem roundHalfEven_zero : roundHalfEven (0 : α) = 0 := by
  simpa using roundHalfEven_intCast (α := α) 0

theorem roundHalfEven_neg (x : α) : roundHalfEven (-x) = -roundHalfEven x := by
  rw [roundHalfEven_eq_iff]
  have habs : |-x - ((-roundHalfEven x : ℤ) : α)| = |x - roundHalfEven x| := by
    rw [← abs_neg]
    push_cast
    ring_nf
  rcases isHalfEven_roundHalfEven x with h | ⟨h, heven⟩
  · exact Or.inl (habs ▸ h)
  · exact Or.inr ⟨habs.trans h, heven.neg⟩

theorem roundHalfEven_mono {x y : α} (h : x ≤ y) : roundHalfEven x ≤ roundHalfEven y :=
  (isHalfEven_roundHalfEven x).le h (isHalfEven_roundHalfEven y)

/-- The rounding is the nearest integer: no other is closer. -/
theorem abs_sub_roundHalfEven_le_abs_sub (x : α) (n : ℤ) :
    |x - roundHalfEven x| ≤ |x - n| := by
  rcases eq_or_ne (roundHalfEven x) n with rfl | hne
  · exact le_rfl
  have hgap : (1 : α) ≤ |((roundHalfEven x : ℤ) : α) - n| := by
    have h := Int.one_le_abs (sub_ne_zero.2 hne)
    exact_mod_cast h
  have hhalf := abs_sub_roundHalfEven_le x
  have htri : |((roundHalfEven x : ℤ) : α) - n| ≤ |x - roundHalfEven x| + |x - n| := by
    have h := abs_sub_le ((roundHalfEven x : ℤ) : α) x n
    rwa [abs_sub_comm ((roundHalfEven x : ℤ) : α) x] at h
  linarith

theorem roundHalfEven_pos_iff {x : α} : 0 < roundHalfEven x ↔ 1 / 2 < x := by
  constructor
  · intro h
    by_contra hle
    have h0 : IsHalfEven (1 / 2 : α) 0 :=
      Or.inr ⟨by rw [Int.cast_zero, sub_zero, abs_of_pos (by norm_num)], Even.zero⟩
    exact absurd ((isHalfEven_roundHalfEven x).le (not_lt.1 hle) h0) (not_le.2 h)
  · intro h
    by_contra hle
    have hc : ((roundHalfEven x : ℤ) : α) ≤ 0 := by exact_mod_cast not_lt.1 hle
    have hb := (abs_le.1 (abs_sub_roundHalfEven_le x)).2
    linarith

/-! ### The distance to the rounding -/

/-- The rounding error is the distance to the nearer neighbour. -/
theorem abs_sub_roundHalfEven_eq_min (x : α) :
    |x - roundHalfEven x| = min (Int.fract x) (1 - Int.fract x) := by
  have h0 : (0 : α) ≤ Int.fract x := Int.fract_nonneg x
  have h1 : Int.fract x < 1 := Int.fract_lt_one x
  have hfloor : |x - (⌊x⌋ : α)| = Int.fract x := by
    rw [Int.self_sub_floor, abs_of_nonneg h0]
  have hceil : |x - ((⌊x⌋ + 1 : ℤ) : α)| = 1 - Int.fract x := by
    have hx : x - ((⌊x⌋ + 1 : ℤ) : α) = -(1 - Int.fract x) := by
      rw [Int.cast_add, Int.cast_one, ← Int.self_sub_floor]
      ring
    rw [hx, abs_neg, abs_of_pos (by linarith)]
  unfold roundHalfEven
  split_ifs with hlt hgt
  · rw [hfloor, min_eq_left (by linarith)]
  · rw [hceil, min_eq_right (by linarith)]
  · rw [hfloor, min_eq_left (by linarith)]
  · rw [hceil, min_eq_right (by linarith)]

/-- Adding an integer does not change the rounding error. -/
theorem abs_sub_roundHalfEven_intCast_add (n : ℤ) (x : α) :
    |n + x - roundHalfEven (n + x)| = |x - roundHalfEven x| := by
  rw [abs_sub_roundHalfEven_eq_min, abs_sub_roundHalfEven_eq_min, Int.fract_intCast_add]

theorem abs_neg_sub_roundHalfEven (x : α) :
    |-x - roundHalfEven (-x)| = |x - roundHalfEven x| := by
  have hneg : -x - ((-roundHalfEven x : ℤ) : α) = -(x - roundHalfEven x) := by
    push_cast
    ring
  rw [roundHalfEven_neg, hneg, abs_neg]

/-- The rounding error of a quotient, read off the remainder of the division. -/
theorem abs_sub_roundHalfEven_div {t k : ℤ} (hk : 0 < k) :
    |(t : α) / k - roundHalfEven ((t : α) / k)| * k = ((min (t % k) (k - t % k) : ℤ) : α) := by
  have hk' : (0 : α) < k := by exact_mod_cast hk
  have hfloor : ⌊(t : α) / k⌋ = t / k := by
    rw [Int.floor_div_cast_of_nonneg hk.le, Int.floor_intCast]
  have hfract : Int.fract ((t : α) / k) * k = ((t % k : ℤ) : α) := by
    rw [Int.fract, hfloor, sub_mul, div_mul_cancel₀ _ hk'.ne', Int.emod_def]
    push_cast
    ring
  rw [abs_sub_roundHalfEven_eq_min, min_mul_of_nonneg _ _ hk'.le, sub_mul, one_mul, hfract]
  push_cast
  rfl

/-- Rounding to within one of an integer `s`: within three halves of it, where the
midpoint between `s ± 1` and `s ± 2` goes to `s ± 1` only if that is even. -/
theorem abs_roundHalfEven_sub_le_one_iff {x : α} {s : ℤ} :
    |roundHalfEven x - s| ≤ 1 ↔ |x - s| < 3 / 2 ∨ (|x - s| = 3 / 2 ∧ Odd s) := by
  -- the distance to `s` is at most the two errors together
  have htri : |x - s| ≤ |x - roundHalfEven x| + |(roundHalfEven x : α) - s| :=
    abs_sub_le x _ _
  constructor
  · intro h
    have hc : |(roundHalfEven x : α) - s| ≤ 1 := by exact_mod_cast h
    have hle := abs_sub_roundHalfEven_le x
    rcases lt_or_eq_of_le (show |x - s| ≤ 3 / 2 by linarith) with hlt | heq
    · exact Or.inl hlt
    · -- both errors are as large as they can be, so the rounding was a tie
      refine Or.inr ⟨heq, ?_⟩
      have heven : Even (roundHalfEven x) := by
        rcases isHalfEven_roundHalfEven x with hlt | ⟨-, heven⟩
        · linarith
        · exact heven
      have hone : |roundHalfEven x - s| = 1 := by
        have hone' : |(roundHalfEven x : α) - s| = 1 := by linarith
        exact_mod_cast hone'
      rcases (abs_eq (by norm_num)).1 hone with h1 | h1
      · rw [show s = roundHalfEven x - 1 by omega]
        exact heven.sub_odd odd_one
      · rw [show s = roundHalfEven x + 1 by omega]
        exact heven.add_odd odd_one
  · rintro (hlt | ⟨heq, hodd⟩)
    · have htri' : |(roundHalfEven x : α) - s| ≤ |x - roundHalfEven x| + |x - s| := by
        rw [abs_sub_comm x]
        exact abs_sub_le _ x _
      have hc : |(roundHalfEven x : α) - s| < 2 := by
        linarith [abs_sub_roundHalfEven_le x]
      have hz : |roundHalfEven x - s| < 2 := by exact_mod_cast hc
      omega
    · -- the even neighbour of `s` on the side of `x`
      rcases (abs_eq (by norm_num)).1 heq with h1 | h1
      · have hround : roundHalfEven x = s + 1 := by
          refine roundHalfEven_eq_iff.2 (Or.inr ⟨?_, hodd.add_odd odd_one⟩)
          rw [show x - ((s + 1 : ℤ) : α) = 1 / 2 by push_cast; linarith]
          exact abs_of_pos (by norm_num)
        rw [hround]
        simp
      · have hround : roundHalfEven x = s - 1 := by
          refine roundHalfEven_eq_iff.2 (Or.inr ⟨?_, hodd.sub_odd odd_one⟩)
          rw [show x - ((s - 1 : ℤ) : α) = -(1 / 2) by push_cast; linarith, abs_neg]
          exact abs_of_pos (by norm_num)
        rw [hround]
        simp

/-! ### The grid of a quantum -/

section Grid

variable {β : Type*} [Field β]

/-- `x` is an integer multiple of the quantum `u`. -/
def OnGrid (u x : β) : Prop := ∃ n : ℤ, x = n * u

@[simp] theorem OnGrid.zero {u : β} : OnGrid u 0 := ⟨0, by simp⟩

theorem OnGrid.add {u x y : β} : OnGrid u x → OnGrid u y → OnGrid u (x + y) := by
  rintro ⟨m, rfl⟩ ⟨n, rfl⟩
  exact ⟨m + n, by push_cast; ring⟩

theorem OnGrid.neg {u x : β} : OnGrid u x → OnGrid u (-x) := by
  rintro ⟨m, rfl⟩
  exact ⟨-m, by push_cast; ring⟩

theorem OnGrid.sub {u x y : β} (hx : OnGrid u x) (hy : OnGrid u y) : OnGrid u (x - y) := by
  rw [sub_eq_add_neg]
  exact hx.add hy.neg

/-- A coarser quantum has a coarser grid. -/
theorem OnGrid.trans {u v x : β} : OnGrid u v → OnGrid v x → OnGrid u x := by
  rintro ⟨m, rfl⟩ ⟨n, rfl⟩
  exact ⟨n * m, by push_cast; ring⟩

variable [LinearOrder β] [IsStrictOrderedRing β]

/-- Two distinct grid points are at least one quantum apart. -/
theorem OnGrid.le_of_lt_add {u x y : β} (hu : 0 < u) (hx : OnGrid u x) (hy : OnGrid u y)
    (h : x < y + u) : x ≤ y := by
  obtain ⟨m, rfl⟩ := hx
  obtain ⟨n, rfl⟩ := hy
  have hmn : (m : β) < n + 1 := by
    by_contra hge
    have := mul_le_mul_of_nonneg_right (not_lt.1 hge) hu.le
    linarith
  have hle : m ≤ n := Int.lt_add_one_iff.1 (by exact_mod_cast hmn)
  exact mul_le_mul_of_nonneg_right (by exact_mod_cast hle) hu.le

theorem OnGrid.le_of_pos {u x : β} (hu : 0 < u) (hx : OnGrid u x) (h : 0 < x) : u ≤ x := by
  by_contra hlt
  exact absurd (hx.le_of_lt_add hu OnGrid.zero (by rw [zero_add]; exact not_le.1 hlt))
    (not_le.2 h)

end Grid

/-! ### Rounding to the grid -/

/-- Round to the nearest multiple of the quantum `u`, ties to even. -/
def roundTo (u x : α) : α := roundHalfEven (x / u) * u

omit [IsStrictOrderedRing α] in
theorem onGrid_roundTo (u x : α) : OnGrid u (roundTo u x) := ⟨_, rfl⟩

@[simp] theorem roundTo_zero (u : α) : roundTo u 0 = 0 := by simp [roundTo]

theorem roundTo_neg (u x : α) : roundTo u (-x) = -roundTo u x := by
  unfold roundTo
  rw [neg_div, roundHalfEven_neg]
  push_cast
  ring

variable {u : α} (hu : 0 < u)
include hu

theorem roundTo_of_onGrid {x : α} (hx : OnGrid u x) : roundTo u x = x := by
  obtain ⟨n, rfl⟩ := hx
  unfold roundTo
  rw [mul_div_cancel_right₀ _ hu.ne', roundHalfEven_intCast]

theorem onGrid_iff_roundTo_eq {x : α} : OnGrid u x ↔ roundTo u x = x :=
  ⟨roundTo_of_onGrid hu, fun h => h ▸ onGrid_roundTo u x⟩

theorem roundTo_mono {x y : α} (h : x ≤ y) : roundTo u x ≤ roundTo u y := by
  unfold roundTo
  have hdiv : x / u ≤ y / u := div_le_div_of_nonneg_right h hu.le
  exact mul_le_mul_of_nonneg_right (by exact_mod_cast roundHalfEven_mono hdiv) hu.le

theorem roundTo_nonneg {x : α} (h : 0 ≤ x) : 0 ≤ roundTo u x := by
  simpa using roundTo_mono hu h

theorem abs_sub_roundTo (x : α) :
    |x - roundTo u x| = |x / u - roundHalfEven (x / u)| * u := by
  unfold roundTo
  rw [← abs_of_pos hu, ← abs_mul, abs_of_pos hu, sub_mul, div_mul_cancel₀ _ hu.ne']

/-- The rounding error is at most half a quantum. -/
theorem abs_sub_roundTo_le (x : α) : |x - roundTo u x| ≤ u / 2 := by
  rw [abs_sub_roundTo hu]
  linarith [mul_le_mul_of_nonneg_right (abs_sub_roundHalfEven_le (x / u)) hu.le]

/-- A grid point above the argument bounds its rounding. -/
theorem roundTo_le_of_le {x y : α} (hy : OnGrid u y) (h : x ≤ y) : roundTo u x ≤ y :=
  (roundTo_mono hu h).trans_eq (roundTo_of_onGrid hu hy)

theorem le_roundTo_of_le {x y : α} (hx : OnGrid u x) (h : x ≤ y) : x ≤ roundTo u y :=
  (roundTo_of_onGrid hu hx).symm.trans_le (roundTo_mono hu h)

theorem roundTo_pos_iff {x : α} : 0 < roundTo u x ↔ u / 2 < x := by
  unfold roundTo
  rw [mul_pos_iff_of_pos_right hu, Int.cast_pos, roundHalfEven_pos_iff, lt_div_iff₀ hu]
  constructor <;> intro h <;> linarith

/-- A value nearer than half a quantum to a grid point rounds to it. -/
theorem roundTo_eq_of_abs_lt {x y : α} (hy : OnGrid u y) (h : |x - y| < u / 2) :
    roundTo u x = y := by
  obtain ⟨n, rfl⟩ := hy
  have hdist : |x / u - n| < 1 / 2 := by
    have hmul : |x / u - n| * u = |x - n * u| := by
      rw [← abs_of_pos hu, ← abs_mul, abs_of_pos hu, sub_mul, div_mul_cancel₀ _ hu.ne']
    rw [← mul_lt_mul_iff_of_pos_right hu, hmul]
    linarith
  unfold roundTo
  rw [roundHalfEven_eq_of_abs_lt hdist]

/-- No grid point is nearer to the argument than its rounding. -/
theorem abs_sub_roundTo_le_abs_sub {x y : α} (hy : OnGrid u y) :
    |x - roundTo u x| ≤ |x - y| := by
  obtain ⟨n, rfl⟩ := hy
  have hmul : |x / u - n| * u = |x - n * u| := by
    rw [← abs_of_pos hu, ← abs_mul, abs_of_pos hu, sub_mul, div_mul_cancel₀ _ hu.ne']
  rw [abs_sub_roundTo hu, ← hmul]
  exact mul_le_mul_of_nonneg_right (abs_sub_roundHalfEven_le_abs_sub _ n) hu.le

end Numeric
end TradingSystem
