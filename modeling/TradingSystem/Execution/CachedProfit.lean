import TradingSystem.Execution.Accounting
import TradingSystem.Logic.Frame
import TradingSystem.Types.PositionContext

/-!
# The cached profit of a position

`unrealized_pnl` is written by `update_price`, and by a reduction to nothing. The other
mutators change quantity and entry price and leave it. So it is the profit of the position held,
and equity the cash with that position, as long as the last call that got as far as a write was
one of the two. A mark is stored before its profit is computed, so a profit too large for the
decimal context leaves the old one.

* `Mutation.perform_of_not_admitted` — a refused call changes nothing.
* `Revalues.valued` — a mark and a reduction to nothing leave a valued position.
* `valued_mutated` — any number of calls.
-/

namespace TradingSystem
namespace Position

open Logic Numeric DecimalContext

variable {raw position : Position}

/-- A call of one of the three mutators, with its arguments. -/
inductive Mutation
  | updatePrice (price : Decimal)
  | addQuantity (quantity price : Decimal)
  | reduceQuantity (quantity : Decimal)

/-- The call; what a reduction releases is not looked at. -/
def Mutation.perform : Mutation → Program Fault Position PUnit
  | .updatePrice price => updatePriceIn defaultContext price
  | .addQuantity quantity price => addQuantityIn defaultContext quantity price
  | .reduceQuantity quantity => do
    let _ ← reduceQuantityIn defaultContext quantity

/-- The position after some calls. A call that raises is caught by whoever made it. -/
def mutated (position : Position) (mutations : List Mutation) : Position :=
  mutations.foldl (fun position mutation => finalState (mutation.perform position)) position

/-! ### Refused calls -/

/-- The value fits the decimal context at eight places. -/
def Fits (value : Decimal) : Prop := |quantizeAmount value| < contextLimit

instance (value : Decimal) : Decidable (Fits value) :=
  inferInstanceAs (Decidable (|quantizeAmount value| < contextLimit))

/-- The call gets as far as a write: its arguments pass their checks, and what is computed from
them before the first write fits. -/
def Mutation.Admitted (position : Position) : Mutation → Prop
  | .updatePrice price => Fits price ∧ 0 < quantizePrice price
  | .addQuantity quantity price =>
    (Fits quantity ∧ Fits price) ∧ (0 < quantizeAmount quantity ∧ 0 < quantizePrice price) ∧
      Fits (contextRound (position.quantity + quantizeAmount quantity)) ∧
      Fits (contextRound (position.totalCost +
        contextRound (quantizeAmount quantity * quantizePrice price)))
  | .reduceQuantity quantity =>
    Fits quantity ∧ (0 < quantizeAmount quantity ∧ quantizeAmount quantity ≤ position.quantity) ∧
      Fits (contextRound
        (contextRound (position.margin * quantizeAmount quantity) / position.quantity)) ∧
      Fits (contextRound (position.quantity - quantizeAmount quantity))

instance (position : Position) : DecidablePred (Mutation.Admitted position) := fun mutation =>
  match mutation with
  | .updatePrice _ => inferInstanceAs (Decidable (_ ∧ _))
  | .addQuantity _ _ => inferInstanceAs (Decidable ((_ ∧ _) ∧ (_ ∧ _) ∧ _ ∧ _))
  | .reduceQuantity _ => inferInstanceAs (Decidable (_ ∧ (_ ∧ _) ∧ _ ∧ _))

section Steps

variable {α : Type} {value : Decimal} {m : Decimal → Program Fault Position α}

/-- A value that fits is quantized, and the program goes on. -/
theorem quantize_bind_of_fits (h : Fits value) :
    runPure (defaultContext.quantize value) >>= m = m (quantizeAmount value) := by
  rw [quantize_of_lt h, runPure_ok_bind]

/-- A program stops where it stands at a value that does not fit. -/
theorem finalState_quantize_bind (h : ¬Fits value) :
    finalState ((runPure (defaultContext.quantize value) >>= m) position) = position := by
  rw [quantize_eq_error.2 ⟨not_lt.1 h, rfl⟩, runPure_error_bind]
  rfl

/-- A guard that fails ends a program where it stands. -/
theorem finalState_raiseUnless_bind {condition : Prop} [Decidable condition]
    {fault : Fault} {m : PUnit → Program Fault Position α} (h : ¬condition) :
    finalState ((raiseUnless condition fault >>= m) position) = position := by
  rw [raiseUnless_bind_apply_of_not h]
  rfl

end Steps

/-- A refused mark. -/
theorem finalState_updatePrice_of_not {price : Decimal}
    (h : ¬(Mutation.updatePrice price).Admitted position) :
    finalState (updatePriceIn defaultContext price position) = position := by
  unfold updatePriceIn
  by_cases hprice : Fits price
  · rw [quantize_bind_of_fits hprice]
    exact finalState_raiseUnless_bind fun hpos => h ⟨hprice, hpos⟩
  · exact finalState_quantize_bind hprice

/-- A refused increase. -/
theorem finalState_addQuantity_of_not {quantity price : Decimal}
    (h : ¬(Mutation.addQuantity quantity price).Admitted position) :
    finalState (addQuantityIn defaultContext quantity price position) = position := by
  unfold addQuantityIn
  simp only [defaultContext_round]
  by_cases hquantity : Fits quantity
  swap
  · exact finalState_quantize_bind hquantity
  rw [quantize_bind_of_fits hquantity]
  by_cases hprice : Fits price
  swap
  · exact finalState_quantize_bind hprice
  rw [quantize_bind_of_fits hprice]
  by_cases hquantity_pos : 0 < quantizeAmount quantity
  swap
  · exact finalState_raiseUnless_bind hquantity_pos
  rw [raiseUnless_bind_apply hquantity_pos]
  by_cases hprice_pos : 0 < quantizeAmount price
  swap
  · exact finalState_raiseUnless_bind hprice_pos
  rw [raiseUnless_bind_apply hprice_pos, get_bind_apply]
  by_cases hsum : Fits (contextRound (position.quantity + quantizeAmount quantity))
  swap
  · exact finalState_quantize_bind hsum
  -- only the cost is left to refuse the call
  rw [quantize_bind_of_fits hsum]
  exact finalState_quantize_bind fun hcost =>
    h ⟨⟨hquantity, hprice⟩, ⟨hquantity_pos, hprice_pos⟩, hsum, hcost⟩

/-- A refused reduction. -/
theorem finalState_reduceQuantity_of_not {quantity : Decimal}
    (h : ¬(Mutation.reduceQuantity quantity).Admitted position) :
    finalState (reduceQuantityIn defaultContext quantity position) = position := by
  unfold reduceQuantityIn
  simp only [defaultContext_round]
  by_cases hquantity : Fits quantity
  swap
  · exact finalState_quantize_bind hquantity
  rw [quantize_bind_of_fits hquantity, get_bind_apply]
  by_cases hpos : 0 < quantizeAmount quantity
  swap
  · exact finalState_raiseUnless_bind hpos
  rw [raiseUnless_bind_apply hpos]
  by_cases hle : quantizeAmount quantity ≤ position.quantity
  swap
  · exact finalState_raiseUnless_bind hle
  rw [raiseUnless_bind_apply hle]
  by_cases hreleased : Fits (contextRound
      (contextRound (position.margin * quantizeAmount quantity) / position.quantity))
  swap
  · exact finalState_quantize_bind hreleased
  -- only what is left of the quantity is left to refuse the call
  rw [quantize_bind_of_fits hreleased]
  exact finalState_quantize_bind fun hleft => h ⟨hquantity, ⟨hpos, hle⟩, hreleased, hleft⟩

/-- A reduction as a call ends where the reduction does. -/
theorem finalState_perform_reduceQuantity (quantity : Decimal) :
    finalState ((Mutation.reduceQuantity quantity).perform position) =
      finalState (reduceQuantityIn defaultContext quantity position) :=
  finalState_bind_pure (reduceQuantityIn defaultContext quantity) (fun _ => PUnit.unit) position

/-- **A refused call changes nothing.** -/
theorem Mutation.perform_of_not_admitted {mutation : Mutation} (h : ¬mutation.Admitted position) :
    finalState (mutation.perform position) = position := by
  cases mutation with
  | updatePrice price => exact finalState_updatePrice_of_not h
  | addQuantity quantity price => exact finalState_addQuantity_of_not h
  | reduceQuantity quantity =>
    rw [finalState_perform_reduceQuantity]
    exact finalState_reduceQuantity_of_not h

/-! ### The margin -/

/-- The margin is money within the decimal context. -/
def MarginFits (position : Position) : Prop :=
  IsMoney position.margin ∧ |position.margin| < contextLimit

/-- The margin fits if it did. -/
def KeepsMargin (position position' : Position) : Prop := position.MarginFits → position'.MarginFits

instance : Std.Refl KeepsMargin := ⟨fun _ h => h⟩

instance : IsTrans Position KeepsMargin := ⟨fun _ _ _ h h' => h' ∘ h⟩

/-- The constructor quantizes the margin. -/
theorem marginFits_of_postInitIn (h : raw.postInitIn defaultContext = .ok position) :
    position.MarginFits := by
  unfold postInitIn at h
  simp only [Except.bind_eq_ok, require_eq_ok] at h
  obtain ⟨_, -, _, -, _, -, _, -, _, -, margin, hmargin, _, -, _, -, _, -, _, -, _, -, _, -, _, -,
    _, -, h⟩ := h
  cases h
  obtain ⟨hfits, rfl⟩ := quantize_eq_ok.1 hmargin
  exact ⟨isMoney_quantizeAmount _, hfits⟩

/-- The check of the cost writes nothing. -/
theorem moves_checkTotalCostIn {R : Position → Position → Prop} [Std.Refl R]
    [IsTrans Position R] : Moves R (checkTotalCostIn defaultContext) :=
  Moves.bind moves_get fun _ => moves_runPure _

/-- Every call keeps the margin within the context. -/
theorem Mutation.moves_perform (mutation : Mutation) : Moves KeepsMargin mutation.perform := by
  cases mutation with
  | updatePrice price =>
    refine moves_runPure_bind fun _ _ => (moves_raiseUnless _).bind fun _ => ?_
    exact (moves_modify fun _ h => h).bind fun _ => moves_get.bind fun _ =>
      moves_runPure_bind fun _ _ => (moves_modify fun _ h => h).bind fun _ =>
      moves_checkTotalCostIn
  | addQuantity quantity price =>
    refine moves_runPure_bind fun _ _ => moves_runPure_bind fun _ _ =>
      (moves_raiseUnless _).bind fun _ => (moves_raiseUnless _).bind fun _ => ?_
    exact moves_get.bind fun _ => moves_runPure_bind fun _ _ => moves_runPure_bind fun _ _ =>
      (moves_modify fun _ h => h).bind fun _ => moves_runPure_bind fun _ _ =>
      (moves_modify fun _ h => h).bind fun _ => moves_checkTotalCostIn
  | reduceQuantity quantity =>
    refine Moves.bind ?_ fun _ => moves_pure _
    refine moves_runPure_bind fun _ _ => moves_get.bind fun _ => (moves_raiseUnless _).bind
      fun _ => (moves_raiseUnless _).bind fun _ => moves_runPure_bind fun _ _ =>
      moves_runPure_bind fun _ _ => (moves_modify fun _ h => h).bind fun _ =>
      moves_runPure_bind fun _ _ => (moves_modify fun _ h => h).bind fun _ =>
      moves_runPure_bind fun margin hmargin => ?_
    -- the one write of the margin is quantized
    obtain ⟨hfits, rfl⟩ := quantize_eq_ok.1 hmargin
    refine (moves_modify fun held _ => ?_).bind fun _ => moves_checkTotalCostIn.bind fun _ =>
      moves_pure _
    unfold MarginFits clearedWhenFlat
    split_ifs
    · exact ⟨isMoney_quantizeAmount _, hfits⟩
    · exact ⟨isMoney_quantizeAmount _, hfits⟩

/-! ### The profit of the position held -/

/-- The profit by the entry price: the signed difference between the mark and the entry, times
the quantity. -/
def ProfitByEntry (position : Position) : Prop :=
  position.unrealizedPnl = quantizeAmount (position.priceDelta position.markPrice *
    position.quantity)

/-- The profit of the position at its mark: by the entry price for futures, by the cost for
spot. -/
def profit (position : Position) : Except Fault Decimal :=
  position.profitAt defaultContext position.markPrice

/-- What the position is worth at its mark. -/
def worth (position : Position) : Except Fault Decimal :=
  match position.marketType with
  | .futures => do
    let profit ← position.profit
    defaultContext.quantize (contextRound (position.margin + profit))
  | .spot => defaultContext.quantize (contextRound (position.quantity * position.markPrice))

/-- **A valued position**: its cached profit is the profit of what is held, and equity is the cash
with what the position is worth. -/
structure Valued (position : Position) : Prop where
  unrealizedPnl_eq : position.profit = .ok position.unrealizedPnl
  recompute_eq : ∀ cash, recomputeIn defaultContext cash (some position) = do
    let worth ← position.worth
    defaultContext.quantize (contextRound (cash + worth))

/-- The two fields of the mark agree wherever a position is valued by one of them. -/
theorem valued_of_profit (hprofit : position.profit = .ok position.unrealizedPnl)
    (hprice : position.currentPrice = position.markPrice) : Valued position := by
  refine ⟨hprofit, fun cash => ?_⟩
  unfold recomputeIn positionValueIn worth
  dsimp only
  cases position.marketType with
  | futures =>
    dsimp only
    rw [hprofit]
    rfl
  | spot =>
    dsimp only
    rw [hprice]
    rfl

/-- A call that writes the profit: a mark whose profit fits, and a reduction of all that is
held. -/
def Mutation.Revalues (position : Position) : Mutation → Prop
  | .updatePrice price => ∃ profit, position.profitAt defaultContext (quantizePrice price) =
      .ok profit
  | .addQuantity _ _ => False
  | .reduceQuantity quantity => quantizeAmount quantity = position.quantity

/-- The last check of a mutator only decides whether the call raises. -/
theorem finalState_checkTotalCostIn :
    finalState (checkTotalCostIn defaultContext position) = position := by
  unfold checkTotalCostIn
  rw [get_bind_apply]
  cases position.validateTotalCostIn defaultContext <;> rfl

/-- A mark leaves a valued position if its profit fits. -/
theorem valued_of_updatePrice {price profit : Decimal}
    (h : (Mutation.updatePrice price).Admitted position)
    (hprofit : position.profitAt defaultContext (quantizeAmount price) = .ok profit) :
    Valued (finalState (updatePriceIn defaultContext price position)) := by
  have hpos : 0 < quantizeAmount price := h.2
  have hmarked : ({ position with
      currentPrice := quantizeAmount price
      markPrice := quantizeAmount price } : Position).profitAt defaultContext
        (quantizeAmount price) = .ok profit := hprofit
  unfold updatePriceIn
  rw [quantize_bind_of_fits h.1, raiseUnless_bind_apply hpos, modify_bind_apply, get_bind_apply,
    hmarked, runPure_ok_bind, modify_bind_apply, finalState_checkTotalCostIn]
  exact valued_of_profit hprofit rfl

/-- A margin within the context and the part of it that is released are less than the limit
apart. -/
theorem fits_margin_sub {margin ratio : Decimal} (hmoney : IsMoney margin)
    (hmargin : |margin| < contextLimit) (hratio : Fits ratio)
    (hsign : (0 ≤ margin ∧ 0 ≤ ratio) ∨ (margin ≤ 0 ∧ ratio ≤ 0)) :
    Fits (contextRound (margin - quantizeAmount ratio)) := by
  have hsub : IsMoney (margin - quantizeAmount ratio) := hmoney.sub (isMoney_quantizeAmount ratio)
  have hlt : |margin - quantizeAmount ratio| < contextLimit := by
    have hreleased := abs_lt.1 hratio
    have hheld := abs_lt.1 hmargin
    rw [abs_lt]
    rcases hsign with ⟨hpos, hpos'⟩ | ⟨hneg, hneg'⟩
    · have := quantizeAmount_nonneg hpos'
      exact ⟨by linarith, by linarith⟩
    · have hle : quantizeAmount ratio ≤ 0 :=
        (quantizeAmount_mono hneg').trans_eq quantizeAmount_zero
      exact ⟨by linarith, by linarith⟩
  unfold Fits
  rwa [contextRound_of_isMoney hsub hlt, hsub.quantizeAmount_eq]

/-- Rounding a released share keeps the sign of the margin. -/
theorem sign_released {margin quantity : Decimal} (hquantity : 0 < quantity) :
    (0 ≤ margin ∧ 0 ≤ contextRound (contextRound (margin * quantity) / quantity)) ∨
      (margin ≤ 0 ∧ contextRound (contextRound (margin * quantity) / quantity) ≤ 0) := by
  rcases le_total 0 margin with hmargin | hmargin
  · left
    exact ⟨hmargin, contextRound_nonneg
      (div_nonneg (contextRound_nonneg (mul_nonneg hmargin hquantity.le)) hquantity.le)⟩
  · right
    have hproduct := contextRound_nonpos (mul_nonpos_of_nonpos_of_nonneg hmargin hquantity.le)
    exact ⟨hmargin, contextRound_nonpos (div_nonpos_of_nonpos_of_nonneg hproduct hquantity.le)⟩

/-- A reduction to nothing leaves a valued position. -/
theorem valued_of_reduceQuantity {quantity : Decimal} (hmargin : position.MarginFits)
    (h : (Mutation.reduceQuantity quantity).Admitted position)
    (hall : quantizeAmount quantity = position.quantity) :
    Valued (finalState (reduceQuantityIn defaultContext quantity position)) := by
  obtain ⟨hfits, ⟨hpos, -⟩, hreleased, -⟩ := h
  rw [hall] at hpos hreleased
  have hmargin_fits := fits_margin_sub hmargin.1 hmargin.2 hreleased (sign_released hpos)
  unfold reduceQuantityIn
  simp only [defaultContext_round]
  rw [quantize_bind_of_fits hfits, get_bind_apply, hall, raiseUnless_bind_apply hpos,
    raiseUnless_bind_apply le_rfl, quantize_bind_of_fits hreleased, sub_self, contextRound_zero,
    quantize_zero, runPure_ok_bind, modify_bind_apply, zero_mul, contextRound_zero, quantize_zero,
    runPure_ok_bind, modify_bind_apply, quantize_bind_of_fits hmargin_fits, modify_bind_apply,
    finalState_bind_pure _ fun _ => _, finalState_checkTotalCostIn]
  -- nothing is held, at no price
  unfold clearedWhenFlat
  rw [if_pos rfl]
  refine valued_of_profit ?_ rfl
  unfold profit profitAt
  simp only [quantizePrice_eq, quantizeAmount_zero, sub_self, neg_zero, ite_self, mul_zero,
    defaultContext_round, contextRound_zero, quantize_zero]
  cases position.marketType <;> rfl

/-- **A call that revalues** leaves a valued position, also when it raises in the end. -/
theorem Mutation.Revalues.valued {mutation : Mutation} (h : mutation.Revalues position)
    (hmargin : position.MarginFits) (hadmitted : mutation.Admitted position) :
    Valued (finalState (mutation.perform position)) := by
  cases mutation with
  | updatePrice price =>
    obtain ⟨profit, hprofit⟩ := h
    exact valued_of_updatePrice hadmitted hprofit
  | addQuantity quantity price => exact absurd h not_false
  | reduceQuantity quantity =>
    rw [finalState_perform_reduceQuantity]
    exact valued_of_reduceQuantity hmargin hadmitted h

/-! ### Any number of calls -/

/-- The last call that got as far as a write, with the position it meets. -/
def lastAdmitted : Position → List Mutation → Option (Position × Mutation)
  | _, [] => none
  | position, mutation :: mutations =>
    (lastAdmitted (finalState (mutation.perform position)) mutations).or
      (if mutation.Admitted position then some (position, mutation) else none)

/-- Refused calls change nothing. -/
theorem mutated_of_lastAdmitted_eq_none {mutations : List Mutation}
    (h : lastAdmitted position mutations = none) : mutated position mutations = position := by
  induction mutations generalizing position with
  | nil => rfl
  | cons mutation mutations ih =>
    -- neither this call is admitted nor one after it
    obtain ⟨hrest, hrefused⟩ := Option.or_eq_none_iff.1 h
    have hadmitted : ¬mutation.Admitted position := by
      intro hadmitted
      rw [if_pos hadmitted] at hrefused
      cases hrefused
    have hsame := mutation.perform_of_not_admitted hadmitted
    change mutated (finalState (mutation.perform position)) mutations = position
    rw [hsame] at hrest ⊢
    exact ih hrest

/-- A position whose margin fits is valued after any calls the last admitted of which, if any,
revalues it. -/
theorem MarginFits.valued_after (hmargin : position.MarginFits) (mutations : List Mutation)
    (h : (lastAdmitted position mutations).elim (Valued position)
      fun last => last.2.Revalues last.1) : Valued (mutated position mutations) := by
  induction mutations generalizing position with
  | nil => exact h
  | cons mutation mutations ih =>
    change Valued (mutated (finalState (mutation.perform position)) mutations)
    unfold lastAdmitted at h
    cases hlast : lastAdmitted (finalState (mutation.perform position)) mutations with
    | some last =>
      rw [hlast, Option.some_or] at h
      refine ih (mutation.moves_perform position hmargin) ?_
      rw [hlast]
      exact h
    | none =>
      -- what follows is refused, so this call decides
      rw [hlast, Option.none_or] at h
      rw [mutated_of_lastAdmitted_eq_none hlast]
      by_cases hadmitted : mutation.Admitted position
      · rw [if_pos hadmitted] at h
        exact Mutation.Revalues.valued h hmargin hadmitted
      · rw [if_neg hadmitted] at h
        rw [mutation.perform_of_not_admitted hadmitted]
        exact h

/-- **The cached profit over a run.** A position that the constructor made is valued after any
calls the last of which that got as far as a write revalues it; without one, if it was valued at
first. -/
theorem valued_mutated (hraw : raw.postInitIn defaultContext = .ok position)
    (mutations : List Mutation)
    (h : (lastAdmitted position mutations).elim (Valued position)
      fun last => last.2.Revalues last.1) : Valued (mutated position mutations) :=
  (marginFits_of_postInitIn hraw).valued_after mutations h

/-! ### A long of two units and a spot position -/

/-- A position as it is opened, at leverage ten or without. -/
def openedLong (marketType : MarketType) (quantity price margin : Decimal) : Position where
  symbol := "BTCUSDT"
  quantity := quantity
  averagePrice := price
  totalCost := quantity * price
  currentPrice := price
  unrealizedPnl := 0
  side := .long
  marketType := marketType
  leverage := 10
  marginType := .isolated
  margin := margin
  entryPrice := price
  markPrice := price
  liquidationPrice := 0
  fundingFeeTotal := 0

/-- A mark, a refused reduction by three units, and the mark decides. -/
theorem valued_of_mark :
    Valued (mutated (openedLong .futures 2 100 20) [.updatePrice 110, .reduceQuantity 3]) := by
  have hlast : lastAdmitted (openedLong .futures 2 100 20)
      [.updatePrice 110, .reduceQuantity 3] =
        some (openedLong .futures 2 100 20, .updatePrice 110) := by
    have hmark : (Mutation.updatePrice 110).Admitted (openedLong .futures 2 100 20) := by
      decide +kernel
    have hrefused : ¬(Mutation.reduceQuantity 3).Admitted (finalState
        ((Mutation.updatePrice 110).perform (openedLong .futures 2 100 20))) := by
      decide +kernel
    unfold lastAdmitted lastAdmitted lastAdmitted
    rw [if_pos hmark, if_neg hrefused]
    rfl
  have hraw : (openedLong .futures 2 100 20).postInitIn defaultContext =
      .ok (openedLong .futures 2 100 20) := by
    decide +kernel
  refine valued_mutated hraw _ ?_
  rw [hlast]
  exact ⟨20, by decide +kernel⟩

/-- **Half a position sold** at a mark of 110: the profit of twenty stays in the record, and in
equity, where the unit that is left has ten. A spot position of three units bought at two prices
is marked by its cost, which the rounded entry price is a hundred-millionth off. And a mark of a
trillion is stored where its profit on a billion units, 21 digits, raises. -/
theorem not_profitByEntry :
    ((openedLong .futures 2 100 20).postInitIn defaultContext =
        .ok (openedLong .futures 2 100 20) ∧
      ¬ProfitByEntry (mutated (openedLong .futures 2 100 20)
        [.updatePrice 110, .reduceQuantity 1]) ∧
      recomputeIn defaultContext 0 (some (mutated (openedLong .futures 2 100 20)
        [.updatePrice 110, .reduceQuantity 1])) = .ok 30 ∧
      (mutated (openedLong .futures 2 100 20) [.updatePrice 110, .reduceQuantity 1]).worth =
        .ok 20) ∧
    ((openedLong .spot 1 1 1).postInitIn defaultContext = .ok (openedLong .spot 1 1 1) ∧
      ¬ProfitByEntry (mutated (openedLong .spot 1 1 1)
        [.addQuantity 2 (1 + 1 / 10 ^ 8), .updatePrice 2])) ∧
    (openedLong .futures (10 ^ 9) 1 (10 ^ 8)).postInitIn defaultContext =
        .ok (openedLong .futures (10 ^ 9) 1 (10 ^ 8)) ∧
      ¬ProfitByEntry (mutated (openedLong .futures (10 ^ 9) 1 (10 ^ 8))
        [.updatePrice (10 ^ 12)]) := by
  unfold ProfitByEntry
  decide +kernel

end Position
end TradingSystem
