import Mathlib.Algebra.Order.Ring.Int
import Mathlib.Tactic.Ring
import Mathlib.Tactic.Linarith

/-!
# Binary search for the last integer with a property

`lastWhere` searches an interval of integers for the last one at which a property that is
never regained holds. Every round halves the interval, so a number of rounds whose power of
two exceeds its length is enough.

* `lastWhere_spec` — what the search returns: the given default where the property holds
  nowhere in the interval, and otherwise the last place where it does.
-/

namespace TradingSystem
namespace Numeric

/-- Search the integers from `low` to `high` in at most `fuel` rounds; `best` is the answer
while the property has not been seen to hold. -/
def lastWhere (holds : ℤ → Bool) : ℕ → ℤ → ℤ → ℤ → ℤ
  | 0, _, _, best => best
  | fuel + 1, low, high, best =>
    if low ≤ high then
      if holds ((low + high) / 2) then
        lastWhere holds fuel ((low + high) / 2 + 1) high ((low + high) / 2)
      else lastWhere holds fuel low ((low + high) / 2 - 1) best
    else best

/-- **The answer of a search**: the default where the property holds nowhere in the interval,
and otherwise the last place where it holds. -/
structure IsLast (holds : ℤ → Bool) (low high best answer : ℤ) : Prop where
  /-- the answer is the default or a place of the interval where the property holds -/
  answer_cases : answer = best ∨ (low ≤ answer ∧ answer ≤ high ∧ holds answer = true)
  /-- no later place of the interval has the property -/
  none_after : ∀ n, low ≤ n → n ≤ high → holds n = true →
    n ≤ answer ∧ low ≤ answer ∧ answer ≤ high ∧ holds answer = true

variable {holds : ℤ → Bool} {start low high best : ℤ}

theorem isLast_of_empty (h : high < low) : IsLast holds low high best best where
  answer_cases := Or.inl rfl
  none_after := by
    intro n hlow hhigh
    omega

/-- A round that finds the property at the middle goes on above it. -/
theorem IsLast.above {middle answer : ℤ} (hlow : low ≤ middle) (hhigh : middle ≤ high)
    (hmiddle : holds middle = true) (h : IsLast holds (middle + 1) high middle answer) :
    IsLast holds low high best answer := by
  -- whatever the upper half answers, the answer has the property
  have hanswer : low ≤ answer ∧ answer ≤ high ∧ holds answer = true := by
    rcases h.answer_cases with rfl | ⟨hge, hle, hholds⟩
    · exact ⟨hlow, hhigh, hmiddle⟩
    · exact ⟨by omega, hle, hholds⟩
  refine ⟨Or.inr hanswer, ?_⟩
  intro n _ hn hholds
  refine ⟨?_, hanswer⟩
  by_cases hcase : middle + 1 ≤ n
  · exact (h.none_after n hcase hn hholds).1
  · rcases h.answer_cases with rfl | ⟨hge, -, -⟩
    · omega
    · omega

/-- A round that does not find it goes on below the middle. -/
theorem IsLast.below {middle answer : ℤ} (hhigh : middle ≤ high)
    (hnone : ∀ n, middle ≤ n → holds n = false)
    (h : IsLast holds low (middle - 1) best answer) : IsLast holds low high best answer := by
  constructor
  · rcases h.answer_cases with heq | ⟨hge, hle, hholds⟩
    · exact Or.inl heq
    · exact Or.inr ⟨hge, by omega, hholds⟩
  · intro n hlow _ hholds
    have hn : n ≤ middle - 1 := by
      by_contra hge
      rw [hnone n (by omega)] at hholds
      cases hholds
    obtain ⟨h1, h2, h3, h4⟩ := h.none_after n hlow hn hholds
    exact ⟨h1, h2, by omega, h4⟩

/-- **The search is correct** for a property that is never regained, with enough rounds. -/
theorem lastWhere_spec (hclosed : ∀ m n, start ≤ m → m ≤ n → holds n = true → holds m = true)
    (fuel : ℕ) (hstart : start ≤ low) (hfuel : high + 1 - low < 2 ^ fuel) :
    IsLast holds low high best (lastWhere holds fuel low high best) := by
  induction fuel generalizing low high best with
  | zero =>
    unfold lastWhere
    exact isLast_of_empty (by rw [pow_zero] at hfuel; omega)
  | succ fuel ih =>
    unfold lastWhere
    rw [pow_succ] at hfuel
    by_cases hle : low ≤ high
    · rw [if_pos hle]
      have hlow : low ≤ (low + high) / 2 := by omega
      have hhigh : (low + high) / 2 ≤ high := by omega
      -- the middle decides which half holds the last index
      by_cases hmiddle : holds ((low + high) / 2) = true
      · rw [if_pos hmiddle]
        exact IsLast.above hlow hhigh hmiddle (ih (by omega) (by omega))
      · rw [if_neg hmiddle]
        refine IsLast.below hhigh ?_ (ih hstart (by omega))
        intro n hn
        by_contra hholds
        rw [Bool.not_eq_false] at hholds
        exact hmiddle (hclosed _ n (hstart.trans hlow) hn hholds)
    · rw [if_neg hle]
      exact isLast_of_empty (not_le.1 hle)

end Numeric
end TradingSystem
