import TradingSystem.Types.Position

/-!
# Funding boundaries and settlements

Funding is settled at 00:00, 08:00 and 16:00 UTC. `listedBoundaries` is the list of those
instants in a half-open span; `settleFunding` is the signed cost of one settlement.
-/

namespace TradingSystem

open Instant

/-- Whole days since the epoch. -/
def dayOf (t : ℤ) : ℤ := t / day

/-- Whether an instant is exactly a 00:00, 08:00 or 16:00 boundary. -/
def isBoundary (t : ℤ) : Bool :=
  let ofDay := t % day
  decide (ofDay / hour ∈ [0, 8, 16] ∧ ofDay % hour = 0)

/-- The boundaries in `(start, end]`, day by day. -/
def listedBoundaries (startExclusive endInclusive : ℤ) : List ℤ :=
  let days := (List.range (dayOf endInclusive - dayOf startExclusive + 1).toNat).map
    fun n : ℕ => (dayOf startExclusive + n) * day
  (days.flatMap fun start => [0, 8, 16].map fun hours : ℤ => start + hours * hour).filter
    fun boundary => startExclusive < boundary ∧ boundary ≤ endInclusive

/-- `funding.settle`: one full settlement's cost to the position, negative when
the position receives it. -/
def settleFunding (position : Position) (rate price : Decimal) : Except Fault Decimal := do
  require (0 < price) (.valueError "settlement price must be positive")
  match position.side with
  | .long => return quantizeAmount (position.quantity * price * rate * 1)
  | .short => return quantizeAmount (position.quantity * price * rate * -1)
  | .both => throw (.valueError "funding direction is ambiguous for PositionSide.BOTH")

/-- Boundaries are the multiples of eight hours. -/
theorem isBoundary_iff {t : ℤ} : isBoundary t = true ↔ t % (8 * hour) = 0 := by
  unfold isBoundary
  rw [decide_eq_true_eq]
  simp only [List.mem_cons, List.not_mem_nil, or_false, day, hour, minute, second]
  omega

/-- What is listed is a boundary inside the span. -/
theorem mem_listedBoundaries {s e b : ℤ} (hb : b ∈ listedBoundaries s e) :
    s < b ∧ b ≤ e ∧ isBoundary b = true := by
  unfold listedBoundaries at hb
  rw [List.mem_filter] at hb
  obtain ⟨hmem, hspan⟩ := hb
  rw [decide_eq_true_eq] at hspan
  refine ⟨hspan.1, hspan.2, isBoundary_iff.2 ?_⟩
  simp only [List.mem_flatMap, List.mem_map, List.mem_cons, List.not_mem_nil, or_false] at hmem
  obtain ⟨start, ⟨n, -, rfl⟩, hours, hhours, rfl⟩ := hmem
  simp only [day, hour, minute, second]
  rcases hhours with rfl | rfl | rfl <;> omega

/-- Every boundary inside a span is listed. -/
theorem mem_listedBoundaries_of {s e b : ℤ} (hsb : s < b) (hbe : b ≤ e)
    (hb : isBoundary b = true) : b ∈ listedBoundaries s e := by
  unfold listedBoundaries
  rw [isBoundary_iff] at hb
  rw [List.mem_filter, decide_eq_true_eq]
  refine ⟨?_, hsb, hbe⟩
  simp only [List.mem_flatMap, List.mem_map, List.mem_range, List.mem_cons, List.not_mem_nil,
    or_false]
  -- the day of the boundary, and its hour
  refine ⟨dayOf b * day, ⟨(dayOf b - dayOf s).toNat, ?_, ?_⟩, b % day / hour, ?_, ?_⟩ <;>
    simp only [dayOf, day, hour, minute, second] at hb ⊢ <;> omega

end TradingSystem
