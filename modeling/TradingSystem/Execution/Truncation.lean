import TradingSystem.Execution.FreeEntry

/-!
# When the truncation loop settles

A round of the loop prices the quantity, and keeps what the caps leave at that price. Under volume
impact a smaller sale executes at a higher price, for which the cash buys less, so that the next
round may take off more.

* `recomputed_anti` — the caps leave no less at a price that is no higher, unless the distance of
  the initial stop is wider there.
* `Falls` — rounds each of which leaves less than it started from.
* `truncation_settles` — the loop ends at an affordable fixpoint, or a round of it raises, or all
  its rounds fall while the price rises or the stop distance widens.
* `not_settles_of_sale` — a sale for which 32 rounds are not enough.
-/

namespace TradingSystem

open Logic Numeric

namespace Matcher

variable {order : Order} {costModel : BacktestCostModel} {limits : MatchLimits}
  {price price' quantity quantity' available referencePrice : Decimal} {leverage : ℕ}
  {gapFilled : Bool}

/-! ### The cash cap -/

/-- What the search answers is its default or passed the test. -/
theorem affordableUnits_eq_ok {affordable : ℤ → Except Fault Bool} {fuel : ℕ}
    {low high best units : ℤ} (h : affordableUnits affordable fuel low high best = .ok units) :
    units = best ∨ affordable units = .ok true := by
  induction fuel generalizing low high best with
  | zero =>
    cases h
    exact Or.inl rfl
  | succ fuel ih =>
    unfold affordableUnits at h
    split at h
    · simp only [Except.bind_eq_ok] at h
      obtain ⟨fits, hfits, h⟩ := h
      cases fits with
      | false => exact ih h
      | true =>
        rcases ih h with rfl | hunits
        · exact Or.inr hfits
        · exact Or.inr hunits
    · cases h
      exact Or.inl rfl

/-- A search that finds a quantity has been able to charge the fee. -/
theorem exists_fee_of_affordable
    (h : affordableEntryQuantity order price quantity available costModel leverage =
      .ok quantity') (hne : quantity' ≠ 0) :
    costModel.fee order.symbol = .ok costModel.feeRate := by
  unfold affordableEntryQuantity at h
  simp only [Except.bind_eq_ok] at h
  obtain ⟨units, hunits, h⟩ := h
  cases h
  have hzero : units ≠ 0 := by
    rintro rfl
    exact hne (by rw [Int.cast_zero, mul_zero])
  have htest := (affordableUnits_eq_ok hunits).resolve_left hzero
  rw [if_neg hzero] at htest
  simp only [Except.bind_eq_ok] at htest
  obtain ⟨requirement, hrequirement, -⟩ := htest
  unfold entryCashRequirement at hrequirement
  simp only [Except.bind_eq_ok] at hrequirement
  obtain ⟨rate, hrate, -⟩ := hrequirement
  rw [hrate, (fee_eq_ok hrate).1]

/-- What the search finds, in units. -/
theorem affordable_units_of_ne (hprice : 0 ≤ price)
    (h : affordableEntryQuantity order price quantity available costModel leverage =
      .ok quantity') (hne : quantity' ≠ 0) :
    ∃ units : ℤ, quantity' = qAmount * units ∧ 0 < units ∧ units ≤ upperUnits quantity ∧
      cashRequirement price quantity' costModel.feeRate leverage ≤ available ∧
      costModel.fee order.symbol = .ok costModel.feeRate := by
  have hfee := exists_fee_of_affordable h hne
  obtain ⟨units, hunits, hlast⟩ : ∃ units : ℤ, affordableEntryQuantity order price quantity
      available costModel leverage = .ok (qAmount * units) ∧
    IsLast (fitsUnits price available costModel.feeRate leverage) 0 (upperUnits quantity) 0 units :=
      affordableEntryQuantity_units hprice hfee
  rw [hunits] at h
  cases h
  have hzero : units ≠ 0 := by
    rintro rfl
    exact hne (by rw [Int.cast_zero, mul_zero])
  obtain ⟨hlow, hhigh, hfits⟩ := hlast.answer_cases.resolve_left hzero
  have hpos : 0 < units := lt_of_le_of_ne hlow (Ne.symm hzero)
  exact ⟨units, rfl, hpos, hhigh, (fitsUnits_of_pos hpos).1 hfits, hfee⟩

/-- The search finds no less up to a larger maximum at a price that is no higher. -/
theorem affordableEntryQuantity_anti {found found' : Decimal} (hprice : 0 ≤ price')
    (hle : price' ≤ price) (hquantity : quantity ≤ quantity')
    (h : affordableEntryQuantity order price quantity available costModel leverage = .ok found)
    (h' : affordableEntryQuantity order price' quantity' available costModel leverage =
      .ok found') : found ≤ found' := by
  have hnonneg : 0 ≤ found' := by
    by_cases hzero : found' = 0
    · exact hzero.ge
    · obtain ⟨units, rfl, hpos, -⟩ := affordable_units_of_ne hprice h' hzero
      exact mul_nonneg qAmount_pos.le (by exact_mod_cast hpos.le)
  by_cases hzero : found = 0
  · rw [hzero]
    exact hnonneg
  obtain ⟨units, rfl, hpos, hupper, hrequirement, hfee⟩ :=
    affordable_units_of_ne (hprice.trans hle) h hzero
  obtain ⟨units', hunits', hlast⟩ : ∃ units' : ℤ, affordableEntryQuantity order price' quantity'
      available costModel leverage = .ok (qAmount * units') ∧ IsLast (fitsUnits price' available
        costModel.feeRate leverage) 0 (upperUnits quantity') 0 units' :=
    affordableEntryQuantity_units hprice hfee
  rw [h'] at hunits'
  cases hunits'
  -- the units fit at the lower price too
  have hfits : fitsUnits price' available costModel.feeRate leverage units = true := by
    rw [fitsUnits_of_pos hpos]
    refine le_trans ?_ hrequirement
    have hamount : 0 ≤ qAmount * (units : ℚ) :=
      mul_nonneg qAmount_pos.le (by exact_mod_cast hpos.le)
    have hnotional : quantizeAmount (price' * (qAmount * units)) ≤
        quantizeAmount (price * (qAmount * units)) :=
      quantizeAmount_mono (mul_le_mul_of_nonneg_right hle hamount)
    exact cashRequirement_notional_mono costModel.feeRate_nonneg hnotional
  have hupper' : units ≤ upperUnits quantity' :=
    (le_upperUnits_iff hpos).2 (((le_upperUnits_iff hpos).1 hupper).trans hquantity)
  refine mul_le_mul_of_nonneg_left ?_ qAmount_pos.le
  exact_mod_cast (hlast.none_after units hpos.le hupper' hfits).1

/-! ### The two caps -/

/-- How far the initial stop is from the reference price. -/
def stopDistanceAt (order : Order) (price : Decimal) : Option Decimal :=
  order.stopPrice.map fun stop => |referenceOf order price - stop|

/-- Moving from one price to another widens the distance of the initial stop. -/
def Widens (order : Order) (price price' : Decimal) : Prop :=
  ∃ stop, order.stopPrice = some stop ∧
    |referenceOf order price - stop| < |referenceOf order price' - stop|

/-- Re-anchoring measures the distance, which is not zero. -/
theorem reanchoredStop_eq_ok {anchored : Option (Decimal × Decimal)}
    (h : reanchoredStop order price = .ok anchored) :
    anchored.map Prod.fst = stopDistanceAt order price ∧
      ∀ distance ∈ stopDistanceAt order price, 0 < distance := by
  unfold reanchoredStop at h
  unfold stopDistanceAt
  cases hstop : order.stopPrice with
  | none =>
    rw [hstop] at h
    cases h
    exact ⟨rfl, nofun⟩
  | some stop =>
    rw [hstop] at h
    simp only [Except.bind_eq_ok, require_eq_ok] at h
    obtain ⟨-, hne, h⟩ := h
    -- the stop keeps its distance on the side of the position
    refine ⟨?_, ?_⟩
    · cases hside : order.positionSide with
      | long =>
        rw [hside] at h
        cases h
        rfl
      | short =>
        rw [hside] at h
        cases h
        rfl
      | both =>
        rw [hside] at h
        cases h
    · intro distance hdistance
      cases hdistance
      -- a stop at the price is refused
      exact lt_of_le_of_ne (abs_nonneg _) (Ne.symm hne)

/-- The risk budget leaves no less where the stop is no farther. -/
theorem riskCapped_anti {riskBudget : Option Decimal} {capped capped' : Decimal}
    (hpos : ∀ distance ∈ stopDistanceAt order price', 0 < distance)
    (hnarrow : ¬Widens order price price')
    (h : riskCapped quantity riskBudget (stopDistanceAt order price) = .ok capped)
    (h' : riskCapped quantity riskBudget (stopDistanceAt order price') = .ok capped') :
    capped ≤ capped' := by
  unfold riskCapped at h h'
  cases riskBudget with
  | none =>
    cases h
    cases h'
    exact le_rfl
  | some budget =>
    simp only [Except.bind_eq_ok, require_eq_ok] at h h'
    obtain ⟨-, hbudget, h⟩ := h
    obtain ⟨-, -, h'⟩ := h'
    unfold stopDistanceAt at h h' hpos
    cases hstop : order.stopPrice with
    | none =>
      rw [hstop] at h
      cases h
    | some stop =>
      rw [hstop] at h h' hpos
      cases h
      cases h'
      -- without a wider stop the same budget buys no less
      have hle : |referenceOf order price' - stop| ≤ |referenceOf order price - stop| := by
        by_contra hlt
        exact hnarrow ⟨stop, hstop, not_le.1 hlt⟩
      refine min_le_min_left _ (quantizeAmount_mono ?_)
      exact div_le_div_of_nonneg_left hbudget.le (hpos _ rfl) hle

/-- The cash leaves no less of a larger quantity at a price that is no higher. -/
theorem marginCapped_anti {cash : Option Decimal} {capped capped' : Decimal} (hprice : 0 ≤ price')
    (hle : price' ≤ price) (hquantity : quantity ≤ quantity')
    (h : marginCapped order price quantity cash costModel leverage = .ok capped)
    (h' : marginCapped order price' quantity' cash costModel leverage = .ok capped') :
    capped ≤ capped' := by
  unfold marginCapped at h h'
  cases cash with
  | none =>
    cases h
    cases h'
    exact hquantity
  | some cash =>
    simp only [Except.bind_eq_ok] at h h'
    obtain ⟨-, -, found, hfound, h⟩ := h
    obtain ⟨-, -, found', hfound', h'⟩ := h'
    cases h
    cases h'
    exact min_le_min hquantity (affordableEntryQuantity_anti hprice hle hquantity hfound hfound')

/-- What a pass computes, step by step. -/
theorem recomputeQtyAndStop_eq_ok {recomputed : Decimal × Option Decimal}
    (h : recomputeQtyAndStop order price limits costModel = .ok recomputed) :
    0 < price ∧ (∀ distance ∈ stopDistanceAt order price, 0 < distance) ∧
      ∃ risked capped, riskCapped order.remainingQuantity limits.riskBudget
          (stopDistanceAt order price) = .ok risked ∧
        marginCapped order price risked limits.availableMargin costModel limits.leverage =
          .ok capped ∧
        recomputed.1 = quantizeAmount capped := by
  unfold recomputeQtyAndStop at h
  simp only [Except.bind_eq_ok, require_eq_ok] at h
  obtain ⟨-, hprice, -, -, anchored, hanchored, risked, hrisked, capped, hcapped, h⟩ := h
  cases h
  obtain ⟨hdistance, hpos⟩ := reanchoredStop_eq_ok hanchored
  rw [hdistance] at hrisked
  exact ⟨hprice, hpos, risked, capped, hrisked, hcapped, rfl⟩

/-- **The caps are antitone**: they leave no less at a price that is no higher, unless the
distance of the initial stop is wider there. -/
theorem recomputed_anti {recomputed recomputed' : Decimal × Option Decimal}
    (hle : price' ≤ price) (hnarrow : ¬Widens order price price')
    (h : recomputeQtyAndStop order price limits costModel = .ok recomputed)
    (h' : recomputeQtyAndStop order price' limits costModel = .ok recomputed') :
    recomputed.1 ≤ recomputed'.1 := by
  obtain ⟨-, -, risked, capped, hrisked, hcapped, heq⟩ := recomputeQtyAndStop_eq_ok h
  obtain ⟨hprice', hpos', risked', capped', hrisked', hcapped', heq'⟩ :=
    recomputeQtyAndStop_eq_ok h'
  rw [heq, heq']
  apply quantizeAmount_mono
  exact marginCapped_anti hprice'.le hle (riskCapped_anti hpos' hnarrow hrisked hrisked') hcapped
    hcapped'

/-- A positive quantity within what the caps leave fits the cash, and its fee is charged. -/
theorem requirement_le_of_le_recomputed {recomputed : Decimal × Option Decimal} {cash : Decimal}
    (h : recomputeQtyAndStop order price limits costModel = .ok recomputed)
    (hcash : limits.availableMargin = some cash) (hpos : 0 < quantity)
    (hle : quantity ≤ recomputed.1) :
    cashRequirement price quantity costModel.feeRate limits.leverage ≤ cash ∧
      costModel.fee order.symbol = .ok costModel.feeRate := by
  obtain ⟨hprice, -, risked, capped, -, hcapped, heq⟩ := recomputeQtyAndStop_eq_ok h
  unfold marginCapped at hcapped
  rw [hcash] at hcapped
  simp only [Except.bind_eq_ok] at hcapped
  obtain ⟨-, -, found, hfound, hcapped⟩ := hcapped
  cases hcapped
  have hrounded : quantity ≤ quantizeAmount found :=
    hle.trans (heq.le.trans (quantizeAmount_mono (min_le_right _ _)))
  have hne : found ≠ 0 := by
    rintro rfl
    rw [quantizeAmount_zero] at hrounded
    exact absurd hpos (not_lt.2 hrounded)
  obtain ⟨units, rfl, -, -, hrequirement, hfee⟩ := affordable_units_of_ne hprice.le hfound hne
  -- what the search finds is on the grid
  rw [IsMoney.quantizeAmount_eq ⟨units, mul_comm _ _⟩] at hrounded
  exact ⟨(cashRequirement_mono hprice.le costModel.feeRate_nonneg hrounded).trans hrequirement,
    hfee⟩

/-! ### Rounds -/

/-- **Falling rounds.** Each of them prices a quantity, and the caps leave less of it at that
price. -/
structure Falls (order : Order) (referencePrice : Decimal) (gapFilled : Bool)
    (limits : MatchLimits) (costModel : BacktestCostModel) (rounds : ℕ)
    (quantities prices : ℕ → Decimal) : Prop where
  priced : ∀ n < rounds, ∃ execution,
    executionPrice order referencePrice (quantities n) costModel gapFilled = .ok execution ∧
      execution.price = prices n
  capped : ∀ n < rounds, ∃ recomputed,
    recomputeQtyAndStop order (prices n) limits costModel = .ok recomputed ∧
      recomputed.1 = quantities (n + 1)
  less : ∀ n < rounds, quantities (n + 1) < quantities n

/-- No rounds. -/
theorem Falls.zero (quantities prices : ℕ → Decimal) :
    Falls order referencePrice gapFilled limits costModel 0 quantities prices :=
  ⟨nofun, nofun, nofun⟩

/-- A round before the others. -/
theorem Falls.cons {rounds : ℕ} {quantities prices : ℕ → Decimal} {execution : ExecutionPrice}
    {recomputed : Decimal × Option Decimal}
    (h : Falls order referencePrice gapFilled limits costModel rounds quantities prices)
    (hpriced : executionPrice order referencePrice quantity costModel gapFilled = .ok execution)
    (hcapped : recomputeQtyAndStop order execution.price limits costModel = .ok recomputed)
    (hstart : recomputed.1 = quantities 0) (hless : recomputed.1 < quantity) :
    Falls order referencePrice gapFilled limits costModel (rounds + 1)
      (fun n => Nat.casesOn n quantity quantities) (fun n => Nat.casesOn n execution.price prices)
    where
  -- the round in front is the one at hand, the others move up by one
  priced := by
    intro n hn
    cases n with
    | zero => exact ⟨execution, hpriced, rfl⟩
    | succ n => exact h.priced n (Nat.lt_of_succ_lt_succ hn)
  capped := by
    intro n hn
    cases n with
    | zero => exact ⟨recomputed, hcapped, hstart⟩
    | succ n => exact h.capped n (Nat.lt_of_succ_lt_succ hn)
  less := by
    intro n hn
    cases n with
    | zero => exact lt_of_eq_of_lt hstart.symm hless
    | succ n => exact h.less n (Nat.lt_of_succ_lt_succ hn)

/-- **Between two falling rounds** the price rises, or the distance of the initial stop
widens. -/
theorem Falls.rises {rounds : ℕ} {quantities prices : ℕ → Decimal}
    (h : Falls order referencePrice gapFilled limits costModel rounds quantities prices) {n : ℕ}
    (hn : n + 1 < rounds) :
    prices n < prices (n + 1) ∨ Widens order (prices n) (prices (n + 1)) := by
  by_contra hsteady
  rw [not_or, not_lt] at hsteady
  obtain ⟨recomputed, hcapped, heq⟩ := h.capped n (Nat.lt_of_succ_lt hn)
  obtain ⟨recomputed', hcapped', heq'⟩ := h.capped (n + 1) hn
  have hle := recomputed_anti hsteady.1 hsteady.2 hcapped hcapped'
  rw [heq, heq'] at hle
  exact absurd (h.less (n + 1) hn) (not_lt.2 hle)

/-- **How the loop raises**: a round raises after falling rounds, or all of them fall. -/
theorem truncateQuantity_eq_error {rounds : ℕ} {fault : Fault}
    (h : truncateQuantity order referencePrice gapFilled limits costModel rounds quantity =
      .error fault) :
    ∃ n quantities prices, quantities 0 = quantity ∧
      Falls order referencePrice gapFilled limits costModel n quantities prices ∧
      (n = rounds ∧ fault = .runtimeError "fee-aware quantity truncation did not converge" ∨
        n < rounds ∧ recomputedAt order referencePrice (quantities n) gapFilled limits
          costModel = .error fault) := by
  -- on the rounds left: this one raises, ends the loop, or falls
  induction rounds generalizing quantity with
  | zero =>
    cases h
    exact ⟨0, fun _ => quantity, fun _ => 0, rfl, Falls.zero _ _, Or.inl ⟨rfl, rfl⟩⟩
  | succ rounds ih =>
    unfold truncateQuantity at h
    rw [Except.bind_eq_error] at h
    rcases h with hraises | ⟨pass, hpass, h⟩
    · exact ⟨0, fun _ => quantity, fun _ => 0, rfl, Falls.zero _ _,
        Or.inr ⟨Nat.succ_pos _, hraises⟩⟩
    · split at h
      · cases h
      · next hne =>
        obtain ⟨n, quantities, prices, hstart, hfalls, hend⟩ := ih h
        unfold recomputedAt at hpass
        simp only [Except.bind_eq_ok] at hpass
        obtain ⟨execution, hpriced, recomputed, hcapped, hpass⟩ := hpass
        cases hpass
        have hless : recomputed.1 < quantity := by
          by_contra hge
          exact hne (min_eq_left (not_lt.1 hge))
        have hleft : min quantity recomputed.1 = recomputed.1 := min_eq_right hless.le
        refine ⟨n + 1, _, _, rfl, hfalls.cons hpriced hcapped
          (hleft.symm.trans hstart.symm) hless, ?_⟩
        rcases hend with ⟨rfl, hfault⟩ | ⟨hn, hraises⟩
        · exact Or.inl ⟨rfl, hfault⟩
        · exact Or.inr ⟨Nat.succ_lt_succ hn, hraises⟩

/-! ### The loop -/

/-- The execution price does not look at the stop, nor at the order's own quantity. -/
theorem executionPrice_truncatedOrder (result : Decimal × Option Decimal) :
    executionPrice (truncatedOrder order result.1 result.2) referencePrice quantity costModel
      gapFilled = executionPrice order referencePrice quantity costModel gapFilled := by
  unfold executionPrice Order.postInit
  simp only [bind_assoc, pure_bind]
  rfl

/-- **A settled quantity**: a fixpoint of one pass, no larger than what remains, which fits the
cash at the price it executes at. -/
structure Settled (order : Order) (referencePrice : Decimal) (gapFilled : Bool)
    (limits : MatchLimits) (costModel : BacktestCostModel) (result : Decimal × Option Decimal) :
    Prop where
  fixpoint : recomputedAt order referencePrice result.1 gapFilled limits costModel = .ok result
  le_remaining : result.1 ≤ order.remainingQuantity
  affordable : 0 < result.1 → ∀ cash, limits.availableMargin = some cash → ∃ final,
    executionPrice (truncatedOrder order result.1 result.2) referencePrice result.1 costModel
        gapFilled = .ok final ∧
      Affordable (truncatedOrder order result.1 result.2) final.price result.1 cash costModel
        limits.leverage
  /-- the check after the loop does not raise -/
  checked : 0 < result.1 → checkAffordable (truncatedOrder order result.1 result.2) referencePrice
    result.1 gapFilled limits.availableMargin costModel limits.leverage = .ok ()

/-- The price of a fixpoint is the final price, and its requirement fits. -/
theorem exists_affordable_of_fixpoint {result : Decimal × Option Decimal} {cash : Decimal}
    (h : recomputedAt order referencePrice result.1 gapFilled limits costModel = .ok result)
    (hcash : limits.availableMargin = some cash) (hpos : 0 < result.1) :
    ∃ final, executionPrice (truncatedOrder order result.1 result.2) referencePrice result.1
        costModel gapFilled = .ok final ∧
      ∃ requirement, entryCashRequirement (truncatedOrder order result.1 result.2) final.price
        result.1 costModel limits.leverage = .ok requirement ∧ requirement ≤ cash := by
  unfold recomputedAt at h
  simp only [Except.bind_eq_ok] at h
  obtain ⟨execution, hpriced, recomputed, hcapped, h⟩ := h
  have hle : result.1 ≤ recomputed.1 := by
    have heq : min result.1 recomputed.1 = result.1 := congrArg Prod.fst (Except.ok.inj h)
    exact min_eq_left_iff.1 heq
  obtain ⟨hprice, -⟩ := recomputeQtyAndStop_eq_ok hcapped
  obtain ⟨hfits, hfee⟩ := requirement_le_of_le_recomputed hcapped hcash hpos hle
  exact ⟨execution, (executionPrice_truncatedOrder result).trans hpriced, _,
    entryCashRequirement_of_nonneg hfee (mul_nonneg hprice.le hpos.le), hfits⟩

/-- **What the loop ends with is settled.** -/
theorem settled_of_ok {rounds : ℕ} {result : Decimal × Option Decimal}
    (h : truncateQuantity order referencePrice gapFilled limits costModel rounds
      order.remainingQuantity = .ok result) :
    Settled order referencePrice gapFilled limits costModel result := by
  obtain ⟨hfix, hle⟩ := truncateQuantity_eq_ok h
  refine ⟨hfix, hle, ?_, ?_⟩
  · intro hpos cash hcash
    exact exists_affordable_of_fixpoint hfix hcash hpos
  · intro hpos
    unfold checkAffordable
    cases hcash : limits.availableMargin with
    | none => rfl
    | some cash =>
      obtain ⟨final, hfinal, requirement, hrequirement, hfits⟩ :=
        exists_affordable_of_fixpoint hfix hcash hpos
      simp only [Except.bind_eq_ok, require_eq_ok]
      exact ⟨final, hfinal, requirement, hrequirement, hfits⟩

/-- **The loop settles, or rises to its limit.** It ends with a settled quantity; or a round
raises on what the rounds before have left; or all rounds fall, with the price rising or the
distance of the initial stop widening between any two of them. -/
theorem truncation_settles (order : Order) (referencePrice : Decimal) (gapFilled : Bool)
    (limits : MatchLimits) (costModel : BacktestCostModel) :
    (∀ result, truncateQuantity order referencePrice gapFilled (effectiveLimits order limits)
        costModel truncationRounds order.remainingQuantity = .ok result →
      Settled order referencePrice gapFilled (effectiveLimits order limits) costModel result) ∧
    (∀ fault, truncateQuantity order referencePrice gapFilled (effectiveLimits order limits)
        costModel truncationRounds order.remainingQuantity = .error fault →
      ∃ rounds quantities prices, quantities 0 = order.remainingQuantity ∧
        Falls order referencePrice gapFilled (effectiveLimits order limits) costModel rounds
          quantities prices ∧
        (∀ n, n + 1 < rounds → prices n < prices (n + 1) ∨
          Widens order (prices n) (prices (n + 1))) ∧
        (rounds = truncationRounds ∧
            fault = .runtimeError "fee-aware quantity truncation did not converge" ∨
          rounds < truncationRounds ∧ recomputedAt order referencePrice (quantities rounds)
            gapFilled (effectiveLimits order limits) costModel = .error fault)) := by
  refine ⟨fun result h => settled_of_ok h, ?_⟩
  intro fault h
  obtain ⟨rounds, quantities, prices, hstart, hfalls, hend⟩ := truncateQuantity_eq_error h
  exact ⟨rounds, quantities, prices, hstart, hfalls, fun n hn => hfalls.rises hn, hend⟩

/-! ### A sale that does not settle -/

/-- At the price of some units, fewer units fit the cash, and one more of them does not. -/
def fallsTo (order : Order) (referencePrice cash : Decimal) (costModel : BacktestCostModel)
    (leverage : ℕ) (units units' : ℤ) : Bool :=
  decide (0 < units' ∧ units' < units) &&
    returnsWith (executionPrice order referencePrice (qAmount * units) costModel false)
      fun execution =>
        decide (cashRequirement execution.price (qAmount * units') costModel.feeRate leverage ≤
          cash ∧ cash < cashRequirement execution.price (qAmount * (units' + 1 : ℤ))
            costModel.feeRate leverage)

/-- The round that such a pair describes, for an order without a stop. -/
theorem recomputedAt_of_fallsTo {cash : Decimal} {units units' : ℤ} (hstop : order.stopPrice = none)
    (hsymbol : order.symbol ≠ "") (hleverage : 0 < leverage) (hcash : 0 ≤ cash)
    (hremaining : qAmount * units ≤ order.remainingQuantity)
    (h : fallsTo order referencePrice cash costModel leverage units units' = true) :
    recomputedAt order referencePrice (qAmount * units) false ⟨none, some cash, leverage⟩
      costModel = .ok (qAmount * units', none) := by
  unfold fallsTo at h
  rw [Bool.and_eq_true, decide_eq_true_eq] at h
  obtain ⟨⟨hpos, hless⟩, hreturns⟩ := h
  obtain ⟨execution, hpriced, htest⟩ := exists_of_returnsWith hreturns
  rw [decide_eq_true_eq] at htest
  have hprice := (executionPrice_eq_ok hpriced).2.2.1
  have hfee : costModel.fee order.symbol = .ok costModel.feeRate := by
    unfold BacktestCostModel.fee
    rw [Except.bind_eq_ok]
    exact ⟨⟨⟩, require_eq_ok.2 hsymbol, rfl⟩
  have hle : qAmount * (units' : ℚ) ≤ order.remainingQuantity := by
    refine le_trans (mul_le_mul_of_nonneg_left ?_ qAmount_pos.le) hremaining
    exact_mod_cast hless.le
  -- the search ends at the last units that fit
  obtain ⟨found, hfound, hlast⟩ : ∃ found : ℤ, affordableEntryQuantity order execution.price
      order.remainingQuantity cash costModel leverage = .ok (qAmount * found) ∧
    IsLast (fitsUnits execution.price cash costModel.feeRate leverage) 0
      (upperUnits order.remainingQuantity) 0 found := affordableEntryQuantity_units hprice.le hfee
  have hunits := hlast.none_after units' hpos.le ((le_upperUnits_iff hpos).2 hle)
    ((fitsUnits_of_pos hpos).2 htest.1)
  have heq : found = units' := by
    by_contra hne
    have habove : units' + 1 ≤ found := by omega
    have hfits := fitsUnits_closed hprice.le costModel.feeRate_nonneg (by omega) habove
      hunits.2.2.2
    rw [fitsUnits_of_pos (by omega)] at hfits
    exact absurd htest.2 (not_lt.2 hfits)
  subst heq
  have hmoney : IsMoney (qAmount * (found : ℚ)) := ⟨found, mul_comm _ _⟩
  have hrecompute : recomputeQtyAndStop order execution.price ⟨none, some cash, leverage⟩
      costModel = .ok (qAmount * found, none) := by
    unfold recomputeQtyAndStop reanchoredStop riskCapped marginCapped
    rw [hstop]
    simp only [Except.bind_eq_ok, require_eq_ok]
    refine ⟨⟨⟩, hprice, ⟨⟩, hleverage, none, rfl, _, rfl, _, ⟨⟨⟩, hcash, _, hfound, rfl⟩, ?_⟩
    rw [min_eq_right hle, hmoney.quantizeAmount_eq]
    rfl
  unfold recomputedAt
  simp only [Except.bind_eq_ok]
  refine ⟨execution, hpriced, _, hrecompute, ?_⟩
  rw [min_eq_right (mul_le_mul_of_nonneg_left (by exact_mod_cast hless.le) qAmount_pos.le)]
  rfl

/-- As many falling rounds as the loop has leave it without a fixpoint. -/
theorem truncateQuantity_of_falls {cash : Decimal} {units : ℤ} {rounds : List ℤ}
    (hstop : order.stopPrice = none) (hsymbol : order.symbol ≠ "") (hleverage : 0 < leverage)
    (hcash : 0 ≤ cash) (hremaining : qAmount * units ≤ order.remainingQuantity)
    (h : List.IsChain (fun units units' =>
      fallsTo order referencePrice cash costModel leverage units units' = true) (units :: rounds)) :
    truncateQuantity order referencePrice false ⟨none, some cash, leverage⟩ costModel
        rounds.length (qAmount * units) =
      .error (.runtimeError "fee-aware quantity truncation did not converge") := by
  induction rounds generalizing units with
  | nil => rfl
  | cons units' rounds ih =>
    rw [List.isChain_cons_cons] at h
    have hless : units' < units := by
      have hfalls := h.1
      unfold fallsTo at hfalls
      rw [Bool.and_eq_true, decide_eq_true_eq] at hfalls
      exact hfalls.1.2
    -- the round gives less than it was given, so the loop goes on
    have hlt : qAmount * (units' : ℚ) < qAmount * units :=
      mul_lt_mul_of_pos_left (by exact_mod_cast hless) qAmount_pos
    rw [List.length_cons]
    unfold truncateQuantity
    rw [recomputedAt_of_fallsTo hstop hsymbol hleverage hcash hremaining h.1]
    change (if qAmount * (units' : ℚ) = qAmount * units then _ else _) = _
    rw [if_neg hlt.ne]
    exact ih (hlt.le.trans hremaining) h.2

/-- No fees, and an impact of one for the whole liquidity of six millionths. -/
def impactOverrides : CostOverrides :=
  { freeOverrides 0 with
    spreadRate := some 0
    impactCoefficient := some 1
    liquidity := some (6 / 10 ^ 6) }

theorem impactOverrides_valid : impactOverrides.values.Valid :=
  { freeOverrides_valid (le_refl 0) with
    spreadRate_nonneg := le_rfl
    impactCoefficient_nonneg := by norm_num [impactOverrides, CostOverrides.values]
    liquidity_pos := by
      intro liquidity hliquidity
      cases hliquidity
      norm_num }

/-- The cost model of the volume impact. -/
def impactCosts : BacktestCostModel where
  params := impactOverrides.values
  marketType := .futures
  useStandardSlippage := true
  valid := impactOverrides_valid

/-- A market order to sell 315 units of the quantum. -/
def smallSale : Order :=
  { coinOrder with side := .sell, quantity := 315 / 10 ^ 8, positionSide := .short }

/-- The rounds leave one unit less each. -/
def smallSaleRounds : List ℤ := (List.range 32).map fun n => 314 - (n : ℤ)

theorem smallSaleRounds_fall : List.IsChain (fun units units' =>
    fallsTo smallSale 100 (1495 / 10 ^ 7) impactCosts 1 units units' = true)
      (315 :: smallSaleRounds) := by
  decide +kernel

/-- **About half the liquidity**, sold at a price of one hundred: it executes at about one half
of that, which is a little more than the cash allows; a little less executes a little higher, and
so on for 32 rounds. -/
theorem not_settles_of_sale :
    truncateQuantity smallSale 100 false ⟨none, some (1495 / 10 ^ 7), 1⟩ impactCosts
        truncationRounds smallSale.remainingQuantity =
      .error (.runtimeError "fee-aware quantity truncation did not converge") := by
  have hquantity : smallSale.remainingQuantity = qAmount * (315 : ℤ) := by decide +kernel
  rw [hquantity]
  exact truncateQuantity_of_falls rfl (by decide) one_pos (by norm_num) hquantity.ge
    smallSaleRounds_fall

end Matcher
end TradingSystem
