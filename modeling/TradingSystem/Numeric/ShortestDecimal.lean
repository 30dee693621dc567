import TradingSystem.Numeric.BinaryFloat

/-!
# Shortest decimals

The decimal printed for a float: on the coarsest power-of-ten grid some multiple
of which rounds to the float, the multiple nearest to it.

* `IsShortestDecimal fmt x d` — that choice stated without an algorithm; at most
  one `d` satisfies it (`IsShortestDecimal.unique`).
* `BinaryFormat.shortest` — the algorithm, trying one more digit at a time.
* `isShortestDecimal_shortest` — the algorithm finds the solution, so it reads
  back as the float it was printed for (`round_shortest`).

The decimals that read back as `x` form a convex set around `x`. A multiple of
`10^k` in it therefore forces the neighbour of `x` on the same side into it,
which is why `decimalAt` needs to look at the two neighbours only.
-/

namespace TradingSystem
namespace Numeric

variable (fmt : BinaryFormat)

theorem onGrid_ten_zpow {e f : ℤ} (h : e ≤ f) : OnGrid ((10 : ℚ) ^ e) (10 ^ f) := by
  obtain ⟨n, rfl⟩ := Int.le.dest h
  refine ⟨10 ^ n, ?_⟩
  rw [zpow_add₀ (by norm_num), zpow_natCast]
  push_cast
  ring

theorem ten_zpow_pos (k : ℤ) : (0 : ℚ) < 10 ^ k := zpow_pos (by norm_num) k

/-- `d` is a multiple of `10^k` that reads back as `x`. -/
def ReadsBackAt (x : ℚ) (k : ℤ) (d : ℚ) : Prop := OnGrid ((10 : ℚ) ^ k) d ∧ fmt.round d = x

/-- **The shortest decimal of a float.** On some grid `10^k`, `d` reads back as
`x`; nothing on a coarser grid does; nothing on this grid that reads back is
nearer to `x`, and `d` has an even last digit when another is as near. -/
structure IsShortestDecimalAt (x : ℚ) (k : ℤ) (d : ℚ) : Prop where
  /-- `d` is on the grid and reads back. -/
  readsBack : ReadsBackAt fmt x k d
  /-- No coarser grid has a decimal that reads back. -/
  coarsest : ∀ k' d', k < k' → ¬ ReadsBackAt fmt x k' d'
  /-- `d` is a nearest one on its grid. -/
  nearest : ∀ d', ReadsBackAt fmt x k d' → |d - x| ≤ |d' - x|
  /-- Ties go to the even digit. -/
  even_of_tie : ∀ d', ReadsBackAt fmt x k d' → |d - x| = |d' - x| → d' ≠ d →
    ∃ n : ℤ, Even n ∧ d = n * 10 ^ k

/-- `d` is the shortest decimal of `x`, on whichever grid that is. -/
def IsShortestDecimal (x d : ℚ) : Prop := ∃ k, IsShortestDecimalAt fmt x k d

variable {fmt}

private theorem IsShortestDecimalAt.le_of_le {x : ℚ} {k : ℤ} {d d' : ℚ}
    (h : IsShortestDecimalAt fmt x k d) (h' : IsShortestDecimalAt fmt x k d')
    (heq : |d - x| = |d' - x|) : d' ≤ d := by
  by_contra hlt
  have hlt : d < d' := not_le.1 hlt
  obtain ⟨a, ha, rfl⟩ := h.even_of_tie d' h'.readsBack heq hlt.ne'
  obtain ⟨b, hb, rfl⟩ := h'.even_of_tie _ h.readsBack heq.symm hlt.ne
  have hpos := ten_zpow_pos k
  have hab : a < b := by exact_mod_cast (mul_lt_mul_iff_of_pos_right hpos).1 hlt
  -- two even digits leave room for an odd one between them, which is nearer
  have hgap : a + 2 ≤ b := by
    obtain ⟨m, rfl⟩ := ha
    obtain ⟨n, rfl⟩ := hb
    omega
  have hle : (((a : ℤ) : ℚ) + 2) * 10 ^ k ≤ b * 10 ^ k :=
    mul_le_mul_of_nonneg_right (by exact_mod_cast hgap) hpos.le
  have hmid : ReadsBackAt fmt x k (((a + 1 : ℤ) : ℚ) * 10 ^ k) := by
    refine ⟨⟨a + 1, rfl⟩, fmt.round_eq_of_between ?_ ?_ h.readsBack.2 h'.readsBack.2⟩ <;>
      push_cast <;> linarith
  have hnear := h.nearest _ hmid
  push_cast at hnear
  -- `d` and `d'` are on either side of `x`
  have hsplit : (a : ℚ) * 10 ^ k - x = -(b * 10 ^ k - x) := by
    rcases abs_eq_abs.1 heq with h1 | h1
    · linarith
    · exact h1
  have h1 : |(a : ℚ) * 10 ^ k - x| = x - a * 10 ^ k := by
    rw [abs_of_nonpos (by linarith)]; ring
  have h2 : |((a : ℚ) + 1) * 10 ^ k - x| < x - a * 10 ^ k :=
    abs_lt.2 ⟨by linarith, by linarith⟩
  linarith

/-- A float has at most one shortest decimal. -/
theorem IsShortestDecimal.unique {x d d' : ℚ} (h : IsShortestDecimal fmt x d)
    (h' : IsShortestDecimal fmt x d') : d = d' := by
  obtain ⟨k, h⟩ := h
  obtain ⟨k', h'⟩ := h'
  obtain rfl : k = k' := by
    rcases lt_trichotomy k k' with hlt | heq | hgt
    · exact absurd h'.readsBack (h.coarsest k' d' hlt)
    · exact heq
    · exact absurd h.readsBack (h'.coarsest k d hgt)
  have heq : |d - x| = |d' - x| :=
    le_antisymm (h.nearest d' h'.readsBack) (h'.nearest d h.readsBack)
  exact le_antisymm (h'.le_of_le h heq.symm) (h.le_of_le h' heq)

/-! ### The algorithm -/

namespace BinaryFormat

variable (fmt)

/-- The decimal on the grid `10^k` to print for `x`, if one reads back: the
nearest multiple, or the other neighbour when the nearest does not read back
(just above a power of two the floats below are twice as dense). -/
def decimalAt (x : ℚ) (k : ℤ) : Option ℚ :=
  let u : ℚ := 10 ^ k
  if fmt.round (roundTo u x) = x then some (roundTo u x)
  else if fmt.round (⌊x / u⌋ * u) = x then some (⌊x / u⌋ * u)
  else if fmt.round (⌈x / u⌉ * u) = x then some (⌈x / u⌉ * u)
  else none

/-- The grids to try, coarsest first: one above the leading digit of `x`, then
one more digit at a time. -/
def decimalGrids (x : ℚ) : List ℤ :=
  (List.range (fmt.decimalDigits + 2)).map fun n : ℕ => Int.log 10 |x| + 1 - n

/-- The shortest decimal that reads back as `x`. -/
def shortest (x : ℚ) : ℚ :=
  if x = 0 then 0 else ((fmt.decimalGrids x).findSome? (fmt.decimalAt x)).getD x

end BinaryFormat

theorem decimalAt_readsBack {x : ℚ} {k : ℤ} {d : ℚ} (h : fmt.decimalAt x k = some d) :
    ReadsBackAt fmt x k d := by
  unfold BinaryFormat.decimalAt at h
  simp only at h
  split_ifs at h with h1 h2 h3
  · cases h
    exact ⟨onGrid_roundTo _ _, h1⟩
  · cases h
    exact ⟨⟨_, rfl⟩, h2⟩
  · cases h
    exact ⟨⟨_, rfl⟩, h3⟩

private theorem floor_mul_le {x : ℚ} (k : ℤ) : ⌊x / 10 ^ k⌋ * (10 : ℚ) ^ k ≤ x := by
  rw [← le_div_iff₀ (ten_zpow_pos k)]
  exact Int.floor_le _

private theorem le_ceil_mul {x : ℚ} (k : ℤ) : x ≤ ⌈x / 10 ^ k⌉ * (10 : ℚ) ^ k := by
  rw [← div_le_iff₀ (ten_zpow_pos k)]
  exact Int.le_ceil _

/-- A decimal at or below `x` lies at or below the lower neighbour. -/
private theorem le_floor_mul {x d : ℚ} {k : ℤ} (hd : OnGrid ((10 : ℚ) ^ k) d) (h : d ≤ x) :
    d ≤ ⌊x / 10 ^ k⌋ * (10 : ℚ) ^ k := by
  obtain ⟨n, rfl⟩ := hd
  have hn : n ≤ ⌊x / 10 ^ k⌋ := Int.le_floor.2 ((le_div_iff₀ (ten_zpow_pos k)).2 h)
  exact mul_le_mul_of_nonneg_right (by exact_mod_cast hn) (ten_zpow_pos k).le

private theorem ceil_mul_le {x d : ℚ} {k : ℤ} (hd : OnGrid ((10 : ℚ) ^ k) d) (h : x ≤ d) :
    ⌈x / 10 ^ k⌉ * (10 : ℚ) ^ k ≤ d := by
  obtain ⟨n, rfl⟩ := hd
  have hn : ⌈x / 10 ^ k⌉ ≤ n := Int.ceil_le.2 ((div_le_iff₀ (ten_zpow_pos k)).2 h)
  exact mul_le_mul_of_nonneg_right (by exact_mod_cast hn) (ten_zpow_pos k).le

section ReadBack

variable {x : ℚ} (hx : fmt.round x = x)
include hx

/-- If anything on the grid reads back, one of the two neighbours does. -/
private theorem neighbour_readsBack {k : ℤ} {d : ℚ} (h : ReadsBackAt fmt x k d) :
    (d ≤ x ∧ fmt.round (⌊x / 10 ^ k⌋ * (10 : ℚ) ^ k) = x) ∨
      (x ≤ d ∧ fmt.round (⌈x / 10 ^ k⌉ * (10 : ℚ) ^ k) = x) := by
  rcases le_total d x with hle | hle
  · exact Or.inl ⟨hle, fmt.round_eq_of_between (le_floor_mul h.1 hle) (floor_mul_le k) h.2 hx⟩
  · exact Or.inr ⟨hle, fmt.round_eq_of_between (le_ceil_mul k) (ceil_mul_le h.1 hle) hx h.2⟩

theorem decimalAt_isSome {k : ℤ} {d : ℚ} (h : ReadsBackAt fmt x k d) :
    ∃ d', fmt.decimalAt x k = some d' := by
  unfold BinaryFormat.decimalAt
  simp only
  split_ifs with h1 h2 h3
  · exact ⟨_, rfl⟩
  · exact ⟨_, rfl⟩
  · exact ⟨_, rfl⟩
  · exact absurd (neighbour_readsBack hx h) (by tauto)

/-- `decimalAt` picks a nearest decimal on its grid, even on a tie. -/
theorem decimalAt_nearest {k : ℤ} {d : ℚ} (h : fmt.decimalAt x k = some d) {d' : ℚ}
    (h' : ReadsBackAt fmt x k d') :
    |d - x| ≤ |d' - x| ∧ (|d - x| = |d' - x| → d' ≠ d → ∃ n : ℤ, Even n ∧ d = n * 10 ^ k) := by
  have hu := ten_zpow_pos k
  unfold BinaryFormat.decimalAt at h
  simp only at h
  split_ifs at h with h1 h2 h3
  · cases h
    have hle := abs_sub_roundTo_le_abs_sub hu h'.1 (x := x)
    rw [abs_sub_comm x, abs_sub_comm x] at hle
    refine ⟨hle, fun htie hne => ?_⟩
    refine ⟨roundHalfEven (x / 10 ^ k), ?_, rfl⟩
    rcases isHalfEven_roundHalfEven (x / (10 : ℚ) ^ k) with hlt | ⟨_, heven⟩
    · -- strictly inside the half quantum the nearest multiple is unique
      exfalso
      refine hne (roundTo_eq_of_abs_lt hu h'.1 ?_).symm
      rw [abs_sub_comm x, ← htie, abs_sub_comm, abs_sub_roundTo hu]
      linarith [mul_lt_mul_of_pos_right hlt hu]
    · exact heven
  · cases h
    -- the nearest multiple fails, so nothing at or above `x` reads back
    have hside : d' ≤ x := by
      by_contra hgt
      refine h1 (fmt.round_eq_of_between ?_ ?_ h2 h'.2)
      · exact le_roundTo_of_le hu ⟨_, rfl⟩ (floor_mul_le k)
      · exact roundTo_le_of_le hu h'.1 (not_le.1 hgt).le
    have hle := le_floor_mul h'.1 hside
    have hfl := floor_mul_le (x := x) k
    rw [abs_of_nonpos (by linarith), abs_of_nonpos (by linarith)]
    exact ⟨by linarith, fun htie hne => absurd (by linarith) hne⟩
  · cases h
    have hside : x ≤ d' := by
      by_contra hgt
      exact h2 (fmt.round_eq_of_between (le_floor_mul h'.1 (not_le.1 hgt).le) (floor_mul_le k)
        h'.2 hx)
    have hle := ceil_mul_le h'.1 hside
    have hce := le_ceil_mul (x := x) k
    rw [abs_of_nonneg (by linarith), abs_of_nonneg (by linarith)]
    exact ⟨by linarith, fun htie hne => absurd (by linarith) hne⟩

/-- The finest grid tried always has a decimal that reads back. -/
theorem readsBackAt_finest (h0 : x ≠ 0) :
    ReadsBackAt fmt x (Int.log 10 |x| - fmt.decimalDigits)
      (roundTo (10 ^ (Int.log 10 |x| - fmt.decimalDigits)) x) := by
  refine ⟨onGrid_roundTo _ _, fmt.round_eq_of_abs_sub_lt hx ?_⟩
  set u : ℚ := 10 ^ (Int.log 10 |x| - fmt.decimalDigits) with hu
  have hu0 : 0 < u := ten_zpow_pos _
  have herr : |roundTo u x - x| ≤ u / 2 := by
    rw [abs_sub_comm]
    exact abs_sub_roundTo_le hu0 x
  have hlead : u * 10 ^ fmt.decimalDigits ≤ |x| := by
    have h := Int.zpow_log_le_self (b := 10) (by norm_num) (abs_pos.2 h0)
    rw [hu, ← zpow_natCast, ← zpow_add₀ (by norm_num), sub_add_cancel]
    exact_mod_cast h
  have hdig := mul_lt_mul_of_pos_left fmt.digits_suffice hu0
  calc |roundTo u x - x| * 2 ^ (fmt.precision + 1)
      ≤ u / 2 * 2 ^ (fmt.precision + 1) := mul_le_mul_of_nonneg_right herr (by positivity)
    _ = u * 2 ^ fmt.precision := by ring
    _ < |x| := by linarith

/-- Nothing coarser than the first grid tried reads back: such a decimal is
zero or at least twice the float. -/
theorem not_readsBackAt_of_log_lt (h0 : x ≠ 0) {k : ℤ} {d : ℚ} (hk : Int.log 10 |x| + 1 < k) :
    ¬ ReadsBackAt fmt x k d := by
  rintro ⟨⟨n, rfl⟩, hd⟩
  -- a step of the grid is more than ten times the float
  have hxlt : 10 * |x| < 10 ^ k := by
    have h := Int.lt_zpow_succ_log_self (b := 10) (by norm_num) |x|
    push_cast at h
    calc 10 * |x| < 10 * 10 ^ (Int.log 10 |x| + 1) := by linarith
      _ = 10 ^ (1 + (Int.log 10 |x| + 1)) := (zpow_one_add₀ (by norm_num) _).symm
      _ ≤ 10 ^ k := zpow_le_zpow_right₀ (by norm_num) (by omega)
  -- twice a float is a float, and rounding is monotone
  have hdouble : fmt.round (2 * |x|) = 2 * |x| := by
    obtain ⟨m, hm, heq⟩ := fmt.round_eq_int_mul x
    have habs : 2 * |x| = ((|m| : ℤ) : ℚ) * 2 ^ (fmt.ulpExponent x + 1) := by
      rw [hx] at heq
      nth_rewrite 1 [heq]
      rw [abs_mul, abs_of_pos (zpow_pos (by norm_num : (0 : ℚ) < 2) _),
        zpow_add_one₀ (by norm_num), Int.cast_abs]
      ring
    rw [habs]
    refine fmt.round_int_mul (by have := fmt.minExponent_le_ulpExponent x; omega) ?_
    rwa [Int.cast_abs, abs_abs]
  rcases lt_trichotomy n 0 with hn | rfl | hn
  · have hle : 2 * |x| ≤ -(n * 10 ^ k) := by
      have : (n : ℚ) ≤ -1 := by exact_mod_cast Int.le_sub_one_of_lt hn
      nlinarith [abs_nonneg x, ten_zpow_pos k]
    have h := fmt.round_mono hle
    rw [hdouble, BinaryFormat.round_neg, hd] at h
    have := abs_pos.2 h0
    linarith [neg_abs_le x]
  · rw [Int.cast_zero, zero_mul, BinaryFormat.round_zero] at hd
    exact h0 hd.symm
  · have hle : 2 * |x| ≤ n * 10 ^ k := by
      have : (1 : ℚ) ≤ n := by exact_mod_cast hn
      nlinarith [abs_nonneg x, ten_zpow_pos k]
    have h := fmt.round_mono hle
    rw [hdouble, hd] at h
    have := abs_pos.2 h0
    linarith [le_abs_self x]

/-- The algorithm finds the shortest decimal. -/
theorem isShortestDecimal_shortest (h0 : x ≠ 0) : IsShortestDecimal fmt x (fmt.shortest x) := by
  unfold BinaryFormat.shortest
  rw [if_neg h0]
  cases hfind : (fmt.decimalGrids x).findSome? (fmt.decimalAt x) with
  | none =>
    -- impossible: the finest grid succeeds
    exfalso
    rw [List.findSome?_eq_none_iff] at hfind
    obtain ⟨d, hd⟩ := decimalAt_isSome hx (readsBackAt_finest hx h0)
    have hmem : Int.log 10 |x| - fmt.decimalDigits ∈ fmt.decimalGrids x :=
      List.mem_map.2 ⟨fmt.decimalDigits + 1, List.mem_range.2 (by omega), by push_cast; ring⟩
    rw [hfind _ hmem] at hd
    cases hd
  | some d =>
    rw [Option.getD_some]
    obtain ⟨before, k, after, hsplit, hk, hbefore⟩ := List.findSome?_eq_some_iff.1 hfind
    refine ⟨k, decimalAt_readsBack hk, fun k' d' hlt h' => ?_,
      fun d' h' => (decimalAt_nearest hx hk h').1, fun d' h' => (decimalAt_nearest hx hk h').2⟩
    rcases le_or_gt k' (Int.log 10 |x| + 1) with hle | hgt
    · -- a coarser grid that was tried before and found nothing
      have hmem : k' ∈ before := by
        have hlen : before.length < (fmt.decimalGrids x).length := by
          rw [hsplit]
          simp
        have hget : ∀ i (hi : i < (fmt.decimalGrids x).length),
            (fmt.decimalGrids x)[i] = Int.log 10 |x| + 1 - i := by
          intro i hi
          simp [BinaryFormat.decimalGrids]
        have hkeq : k = Int.log 10 |x| + 1 - before.length := by
          rw [← hget _ hlen]
          simp [hsplit]
        obtain ⟨i, hi⟩ := Int.le.dest hle
        have hib : i < before.length := by omega
        have hkeq' : k' = before[i] := by
          have h1 := hget i (hib.trans hlen)
          simp only [hsplit] at h1
          rw [List.getElem_append_left hib] at h1
          omega
        rw [hkeq']
        exact List.getElem_mem hib
      obtain ⟨e, he⟩ := decimalAt_isSome hx h'
      rw [hbefore k' hmem] at he
      cases he
    · exact not_readsBackAt_of_log_lt hx h0 hgt h'

theorem round_shortest : fmt.round (fmt.shortest x) = x := by
  rcases eq_or_ne x 0 with rfl | h0
  · simp [BinaryFormat.shortest]
  · obtain ⟨k, hk⟩ := isShortestDecimal_shortest hx h0
    exact hk.readsBack.2

/-- A decimal is the one printed for `x` exactly when it is the shortest. -/
theorem shortest_eq_iff (h0 : x ≠ 0) {d : ℚ} :
    fmt.shortest x = d ↔ IsShortestDecimal fmt x d :=
  ⟨fun h => h ▸ isShortestDecimal_shortest hx h0,
    fun h => (isShortestDecimal_shortest hx h0).unique h⟩

/-- If some multiple of `10^k` reads back as `x`, the printed decimal is a
multiple of `10^k`. -/
theorem onGrid_shortest {k : ℤ} {d : ℚ} (h : ReadsBackAt fmt x k d) :
    OnGrid ((10 : ℚ) ^ k) (fmt.shortest x) := by
  rcases eq_or_ne x 0 with rfl | h0
  · simp [BinaryFormat.shortest]
  · obtain ⟨k', hk'⟩ := isShortestDecimal_shortest hx h0
    have hle : k ≤ k' := not_lt.1 fun hlt => hk'.coarsest k d hlt h
    exact (onGrid_ten_zpow hle).trans hk'.readsBack.1

end ReadBack

end Numeric
end TradingSystem
