import TradingSystem.Execution.MarginConservation
import TradingSystem.Execution.Matcher

/-!
# The liquidation level under funding

A settlement changes the margin of a position and reprices its liquidation from the margin that
is left, never below zero. The resolution of triggers reads a price of zero as "not set" and
takes the price of the original leverage in its place.

* `levelAt`, `leverageLevel` — the price of a margin and the price of a leverage.
* `Held` — a futures position from its opening through any settlements. The engine neither
  increases a position nor reduces it in part.
* `Honours` — one settlement: margin added does not bring the level in force closer to the
  market, margin removed does not take it away.
* `honoursAll_iff` — the settlements of a sequence honour the margin exactly when none of them
  crosses between a price of zero and a price below the one of the leverage.
* `not_honoursAll_of_credits` — two credits, the second of which brings the level back.
-/

namespace TradingSystem

open Logic Numeric

namespace Matcher

/-! ### Levels that may be unset -/

/-- A level, or another one where it is not positive. -/
def orElseLevel (fallback level : Decimal) : Decimal := if level ≤ 0 then fallback else level

/-- The two levels are both set, both unset, or the one that is set is not below the other
one's replacement. -/
def Uncrossed (fallback level level' : Decimal) : Prop :=
  (level = 0 → level' ≠ 0 → fallback ≤ level') ∧ (level' = 0 → level ≠ 0 → fallback ≤ level)

theorem Uncrossed.symm {fallback level level' : Decimal} (h : Uncrossed fallback level level') :
    Uncrossed fallback level' level := ⟨h.2, h.1⟩

theorem uncrossed_comm {fallback level level' : Decimal} :
    Uncrossed fallback level level' ↔ Uncrossed fallback level' level :=
  ⟨Uncrossed.symm, Uncrossed.symm⟩

/-- **Replacing an unset level** keeps an order of levels exactly when it is not crossed. -/
theorem orElseLevel_le_iff {fallback level level' : Decimal} (hlevel : 0 ≤ level)
    (h : level ≤ level') :
    orElseLevel fallback level ≤ orElseLevel fallback level' ↔
      Uncrossed fallback level level' := by
  unfold orElseLevel Uncrossed
  by_cases hzero : level = 0
  · subst hzero
    rw [if_pos le_rfl]
    by_cases hzero' : level' = 0
    · subst hzero'
      simp
    · rw [if_neg (not_le.2 (lt_of_le_of_ne h (Ne.symm hzero')))]
      simp [hzero']
  · -- a set level is below set levels only
    have hpos : 0 < level := lt_of_le_of_ne hlevel (Ne.symm hzero)
    have hpos' : 0 < level' := hpos.trans_le h
    rw [if_neg (not_le.2 hpos), if_neg (not_le.2 hpos')]
    simp [h, hzero, hpos'.ne']

/-! ### The price of a margin -/

variable {position position' : Position} {mmr margin margin' cost level : Decimal}
  {costModel : BacktestCostModel} {side : PositionSide}

/-- The liquidation price a position has with a margin. -/
def levelAt (position : Position) (mmr margin : Decimal) : Decimal :=
  let fraction := contextRound (margin / (position.quantity * position.entryPrice))
  quantizePrice (max 0 (liquidationResult position.entryPrice fraction mmr position.side))

/-- The liquidation price of a leverage. -/
def leverageLevel (entry : Decimal) (leverage : ℕ) (mmr : Decimal) (side : PositionSide) :
    Decimal :=
  quantizePrice (liquidationResult entry (contextRound (1 / leverage)) mmr side)

theorem liquidationPriceFromMargin_eq_ok
    (h : liquidationPriceFromMargin position mmr = .ok level) :
    level = levelAt position mmr position.margin := by
  unfold liquidationPriceFromMargin at h
  simp only [Except.bind_eq_ok, require_eq_ok] at h
  obtain ⟨-, -, -, -, -, -, h⟩ := h
  unfold levelAt
  cases hside : position.side with
  | long =>
    rw [hside] at h
    cases h
    rfl
  | short =>
    rw [hside] at h
    cases h
    rfl
  | both =>
    rw [hside] at h
    cases h

theorem liquidationPrice_eq_ok {entry : Decimal} {leverage : ℕ}
    (h : liquidationPrice entry leverage mmr side = .ok level) :
    level = leverageLevel entry leverage mmr side ∧ 0 < entry ∧ 0 < leverage ∧ 0 ≤ mmr ∧
      mmr < 1 ∧ side ≠ .both := by
  unfold liquidationPrice at h
  simp only [Except.bind_eq_ok, require_eq_ok] at h
  obtain ⟨-, hentry, -, hleverage, -, ⟨hmmr, hlt⟩, h⟩ := h
  unfold leverageLevel
  cases side with
  | long =>
    cases h
    exact ⟨rfl, hentry, hleverage, hmmr, hlt, by decide⟩
  | short =>
    cases h
    exact ⟨rfl, hentry, hleverage, hmmr, hlt, by decide⟩
  | both => cases h

theorem levelAt_nonneg : 0 ≤ levelAt position mmr margin :=
  quantizeAmount_nonneg (le_max_left _ _)

/-- A level that is no closer to the market, which is above a long and below a short. -/
def Farther (side : PositionSide) (level level' : Decimal) : Prop :=
  if side = .long then level' ≤ level else level ≤ level'

/-- A larger fraction of margin, a farther level: the roundings of the context are monotone. -/
theorem liquidationResult_farther {entry fraction fraction' : Decimal} (hentry : 0 ≤ entry)
    (h : fraction ≤ fraction') :
    Farther side (liquidationResult entry fraction mmr side)
      (liquidationResult entry fraction' mmr side) := by
  unfold Farther liquidationResult
  by_cases hside : side = .long
  · simp only [hside, if_true]
    have hterm : contextRound (1 - fraction') ≤ contextRound (1 - fraction) :=
      contextRound_mono (by linarith)
    have hsum := contextRound_mono (add_le_add_left hterm mmr)
    exact contextRound_mono (mul_le_mul_of_nonneg_left hsum hentry)
  · simp only [hside, if_false]
    have hterm : contextRound (1 + fraction) ≤ contextRound (1 + fraction') :=
      contextRound_mono (by linarith)
    have hsum := contextRound_mono (sub_le_sub_right hterm mmr)
    exact contextRound_mono (mul_le_mul_of_nonneg_left hsum hentry)

/-- **More margin, a farther level**, before a zero is replaced. -/
theorem levelAt_farther (hquantity : 0 < position.quantity) (hentry : 0 < position.entryPrice)
    (h : margin ≤ margin') :
    Farther position.side (levelAt position mmr margin) (levelAt position mmr margin') := by
  have hfraction : margin / (position.quantity * position.entryPrice) ≤
      margin' / (position.quantity * position.entryPrice) :=
    div_le_div_of_nonneg_right h (mul_pos hquantity hentry).le
  have hresult : Farther position.side
      (liquidationResult position.entryPrice
        (contextRound (margin / (position.quantity * position.entryPrice))) mmr position.side)
      (liquidationResult position.entryPrice
        (contextRound (margin' / (position.quantity * position.entryPrice))) mmr position.side) :=
    liquidationResult_farther hentry.le (contextRound_mono hfraction)
  unfold Farther at hresult ⊢
  unfold levelAt
  split_ifs at hresult ⊢
  · exact quantizeAmount_mono (max_le_max le_rfl hresult)
  · exact quantizeAmount_mono (max_le_max le_rfl hresult)

/-- Replacing unset levels keeps the distance of two levels exactly when they do not cross. -/
theorem farther_orElseLevel_iff {fallback level' : Decimal} (hlevel : 0 ≤ level)
    (hlevel' : 0 ≤ level') (h : Farther side level level') :
    Farther side (orElseLevel fallback level) (orElseLevel fallback level') ↔
      Uncrossed fallback level level' := by
  unfold Farther at h ⊢
  by_cases hside : side = .long
  · rw [if_pos hside] at h ⊢
    rw [orElseLevel_le_iff hlevel' h]
    exact uncrossed_comm
  · rw [if_neg hside] at h ⊢
    exact orElseLevel_le_iff hlevel h

/-- The level of a leverage is never below zero. -/
theorem liquidationResult_nonneg {entry fraction : Decimal} (hentry : 0 ≤ entry)
    (hfraction : 0 ≤ fraction) (hle : fraction ≤ 1) (hmmr : 0 ≤ mmr) (hlt : mmr < 1) :
    0 ≤ liquidationResult entry fraction mmr side := by
  unfold liquidationResult
  by_cases hside : side = .long
  · simp only [hside, if_true]
    have hterm : 0 ≤ contextRound (1 - fraction) := contextRound_nonneg (by linarith)
    exact contextRound_nonneg (mul_nonneg hentry (contextRound_nonneg (by linarith)))
  · simp only [hside, if_false]
    -- one and the fraction stay at least one
    have hterm : contextRound 1 ≤ contextRound (1 + fraction) := contextRound_mono (by linarith)
    rw [contextRound_one] at hterm
    exact contextRound_nonneg (mul_nonneg hentry (contextRound_nonneg (by linarith)))

/-- The price of a leverage is the price of the exact margin at that leverage. -/
theorem levelAt_exact {leverage : ℕ} (hquantity : 0 < position.quantity)
    (hentry : 0 < position.entryPrice) (hleverage : 0 < leverage) (hmmr : 0 ≤ mmr)
    (hlt : mmr < 1) :
    levelAt position mmr (position.quantity * position.entryPrice / leverage) =
      leverageLevel position.entryPrice leverage mmr position.side := by
  have hcast : (1 : ℚ) ≤ leverage := by exact_mod_cast hleverage
  have hterm : (1 : ℚ) / leverage ≤ 1 := by
    rw [div_le_one (zero_lt_one.trans_le hcast)]
    exact hcast
  have hterm' : (0 : ℚ) ≤ 1 / leverage := by positivity
  -- the margin at entry is the notional over the leverage
  have hfraction : position.quantity * position.entryPrice / leverage /
      (position.quantity * position.entryPrice) = 1 / leverage := by
    rw [div_right_comm, div_self (mul_pos hquantity hentry).ne']
  have hrounded : contextRound (1 / leverage) ≤ 1 :=
    (contextRound_mono hterm).trans_eq contextRound_one
  unfold levelAt leverageLevel
  dsimp only
  rw [hfraction, max_eq_right]
  exact liquidationResult_nonneg hentry.le (contextRound_nonneg hterm') hrounded hmmr hlt

/-! ### Positions under funding -/

/-- A futures position as the engine holds it: opened at the price of its leverage, then any
settlements of funding. -/
inductive Held (mmr : Decimal) : Position → Prop
  | opened {fill : Fill} {leverage : ℕ} {level : Decimal} {position : Position}
      (entry : liquidationPrice fill.price leverage mmr fill.positionSide = .ok level)
      (open_eq : (PositionBook.openedPosition fill leverage .isolated .futures level).postInit =
        .ok position) : Held mmr position
  | settled {cost : Decimal} {position position' : Position}
      {result : FundingMarginResult} (held : Held mmr position)
      (run : PositionBook.chargeFunding cost mmr position = .ok result position') :
      Held mmr position'

/-- What a settlement takes from the margin, or adds to it where it is negative. -/
def appliedCost (position : Position) (cost : Decimal) : Decimal :=
  if 0 < quantizeAmount cost then min (quantizeAmount cost) position.margin
  else quantizeAmount cost

/-- The margin a settlement leaves. -/
def marginAfter (position : Position) (cost : Decimal) : Decimal :=
  quantizeAmount (position.margin - appliedCost position cost)

/-- The record with any liquidation price passes its constructor. -/
def Reprices (position : Position) : Prop :=
  ∀ level, ∃ repriced, { position with liquidationPrice := level }.postInit =
    (.ok repriced : Except Fault Position)

/-- **What a held position keeps**: its stored price is that of its margin, or that of its
leverage, from which the margin it has then differs by less than a unit. -/
structure Priced (mmr : Decimal) (position : Position) : Prop where
  marketType_eq : position.marketType = .futures
  marginType_eq : position.marginType = .isolated
  quantity_pos : 0 < position.quantity
  entryPrice_pos : 0 < position.entryPrice
  margin_money : IsMoney position.margin
  margin_nonneg : 0 ≤ position.margin
  reprices : Reprices position
  /-- The price of the original leverage can be computed. -/
  original : liquidationPrice position.entryPrice position.leverage mmr position.side =
    .ok (leverageLevel position.entryPrice position.leverage mmr position.side)
  stored : position.liquidationPrice = levelAt position mmr position.margin ∨
    position.liquidationPrice =
        levelAt position mmr (position.quantity * position.entryPrice / position.leverage) ∧
      |position.margin - position.quantity * position.entryPrice / position.leverage| ≤ qAmount

theorem liquidationPrice_of_eq_ok {entry : Decimal} {leverage : ℕ}
    (h : liquidationPrice entry leverage mmr side = .ok level) :
    liquidationPrice entry leverage mmr side = .ok (leverageLevel entry leverage mmr side) := by
  rw [← (liquidationPrice_eq_ok h).1]
  exact h

/-- The margin of a fresh position, within a unit of the exact one. -/
theorem abs_margin_sub_le {notional : Decimal} {leverage : ℕ} (hleverage : 0 < leverage) :
    |quantizeAmount (quantizeAmount notional / leverage) - notional / leverage| ≤ qAmount := by
  have hcast : (1 : ℚ) ≤ leverage := by exact_mod_cast hleverage
  have hmargin := abs_sub_quantizeAmount_le (quantizeAmount notional / leverage)
  have hnotional : |quantizeAmount notional / leverage - notional / leverage| ≤ qAmount / 2 := by
    rw [← sub_div, abs_div, abs_of_pos (zero_lt_one.trans_le hcast), abs_sub_comm]
    calc |notional - quantizeAmount notional| / leverage
        ≤ |notional - quantizeAmount notional| := div_le_self (abs_nonneg _) hcast
      _ ≤ qAmount / 2 := abs_sub_quantizeAmount_le _
  rw [abs_sub_comm] at hmargin
  calc |quantizeAmount (quantizeAmount notional / leverage) - notional / leverage|
      ≤ |quantizeAmount (quantizeAmount notional / leverage) - quantizeAmount notional / leverage|
          + |quantizeAmount notional / leverage - notional / leverage| := abs_sub_le _ _ _
    _ ≤ qAmount / 2 + qAmount / 2 := add_le_add hmargin hnotional
    _ = qAmount := add_halves _

/-- The constructor runs again on what it returned, at any liquidation price. -/
theorem reprices_of_postInit (h : position.postInit = .ok position') : Reprices position' := by
  intro level
  obtain ⟨hfields, hquantity, hleverage, hmargin⟩ := Position.postInit_eq_ok h
  have hcost : position'.validateTotalCost = .ok ⟨⟩ := by
    unfold Position.postInit at h
    simp only [Except.bind_eq_ok] at h
    obtain ⟨-, -, -, -, -, -, _, hcost, h⟩ := h
    cases h
    exact hcost
  unfold Position.postInit
  simp only [Except.bind_eq_ok, require_eq_ok, quantizePrice_eq]
  refine ⟨_, ⟨⟩, ?_, ⟨⟩, hleverage, ⟨⟩, ?_, ⟨⟩, ?_, rfl⟩
  · exact quantizeAmount_nonneg hquantity
  · exact quantizeAmount_nonneg hmargin
  · rw [hfields] at hcost ⊢
    unfold Position.validateTotalCost at hcost ⊢
    simp only [quantizeAmount_quantizeAmount]
    exact hcost

theorem priced_of_opened {fill : Fill} {leverage : ℕ}
    (hentry : liquidationPrice fill.price leverage mmr fill.positionSide = .ok level)
    (h : (PositionBook.openedPosition fill leverage .isolated .futures level).postInit =
      .ok position) : Priced mmr position := by
  obtain ⟨hlevel, -, hleverage, hmmr, hlt, -⟩ := liquidationPrice_eq_ok hentry
  have hreprices := reprices_of_postInit h
  obtain ⟨hfields, -, -, hnonneg⟩ := Position.postInit_eq_ok h
  -- the fields of the new position are those of the fill, already on the grid
  have hprice := fill.isMoney_price.quantizeAmount_eq
  have hquantity : position.quantity = fill.quantity := by
    rw [hfields]
    exact fill.isMoney_quantity.quantizeAmount_eq
  have hentryPrice : position.entryPrice = fill.price := by
    rw [hfields]
    exact hprice
  have hside : position.side = fill.positionSide := by rw [hfields]; rfl
  have hlever : position.leverage = leverage := by rw [hfields]; rfl
  have hmargin : position.margin =
      quantizeAmount (quantizeAmount (fill.quantity * fill.price) / leverage) := by
    rw [hfields]
    exact quantizeAmount_quantizeAmount _
  -- the level is rounded twice, and the second time nothing changes
  have hstored : position.liquidationPrice = leverageLevel fill.price leverage mmr
      fill.positionSide := by
    have hmoney : IsMoney (leverageLevel fill.price leverage mmr fill.positionSide) :=
      isMoney_quantizeAmount _
    rw [hfields]
    change quantizeAmount (quantizeAmount level) = _
    rw [hlevel, hmoney.quantizeAmount_eq, hmoney.quantizeAmount_eq]
  have hpos : 0 < position.quantity := hquantity ▸ fill.quantity_pos
  have hentryPos : 0 < position.entryPrice := hentryPrice ▸ fill.price_pos
  refine ⟨?_, ?_, hpos, hentryPos, ?_, hnonneg, hreprices, ?_, Or.inr ⟨?_, ?_⟩⟩
  · rw [hfields]
    rfl
  · rw [hfields]
    rfl
  · rw [hmargin]
    exact isMoney_quantizeAmount _
  · rw [hentryPrice, hlever, hside]
    exact liquidationPrice_of_eq_ok hentry
  · rw [levelAt_exact hpos hentryPos (hlever ▸ hleverage) hmmr hlt, hstored, hentryPrice, hlever,
      hside]
  · rw [hmargin, hquantity, hentryPrice, hlever]
    exact abs_margin_sub_le hleverage

/-! ### Settlements -/

/-- What a settlement leaves: the margin of the cost, repriced, and all else as it was. -/
theorem chargeFunding_reprices {result : FundingMarginResult}
    (h : PositionBook.chargeFunding cost mmr position = .ok result position') :
    position' = { position with
      margin := marginAfter position cost
      fundingFeeTotal := position'.fundingFeeTotal
      liquidationPrice := levelAt position mmr (marginAfter position cost) } := by
  obtain ⟨-, -, level, hfields, hlevel, -, happlied, -⟩ := PositionBook.chargeFunding_eq_ok h
  have hmargin : quantizeAmount (position.margin - result.appliedCost) =
      marginAfter position cost := by
    rw [happlied]
    rfl
  have hrepriced := liquidationPriceFromMargin_eq_ok hlevel
  rw [hmargin] at hfields hrepriced
  rw [hfields, hrepriced]
  rfl

/-- **A settlement keeps what is known of a position**, and its price is then that of its
margin. -/
theorem Priced.settled (h : Priced mmr position) {result : FundingMarginResult}
    (hrun : PositionBook.chargeFunding cost mmr position = .ok result position') :
    Priced mmr position' := by
  have hfields := chargeFunding_reprices hrun
  obtain ⟨-, -, -, -, -, hmargin, -⟩ := PositionBook.chargeFunding_eq_ok hrun
  have hreprices : Reprices position' := by
    intro level
    obtain ⟨repriced, hrepriced⟩ := h.reprices level
    -- only the margin is checked anew
    unfold Position.postInit at hrepriced ⊢
    simp only [Except.bind_eq_ok, require_eq_ok] at hrepriced ⊢
    obtain ⟨-, hquantity, -, hleverage, -, -, _, hcost, -⟩ := hrepriced
    rw [hfields] at hmargin ⊢
    exact ⟨_, ⟨⟩, hquantity, ⟨⟩, hleverage, ⟨⟩, quantizeAmount_nonneg hmargin, ⟨⟩, hcost, rfl⟩
  have hlevel : position'.liquidationPrice = levelAt position' mmr position'.margin := by
    rw [hfields]
    rfl
  refine ⟨?_, ?_, ?_, ?_, ?_, hmargin, hreprices, ?_, Or.inl hlevel⟩
  · rw [hfields]
    exact h.marketType_eq
  · rw [hfields]
    exact h.marginType_eq
  · rw [hfields]
    exact h.quantity_pos
  · rw [hfields]
    exact h.entryPrice_pos
  · rw [hfields]
    exact isMoney_quantizeAmount _
  · rw [hfields]
    exact h.original

theorem Held.priced (h : Held mmr position) : Priced mmr position := by
  induction h with
  | opened entry open_eq => exact priced_of_opened entry open_eq
  | settled _ run ih => exact ih.settled run

/-- Every settlement is accepted: a debit takes no more than the margin. -/
theorem Priced.exists_settled (h : Priced mmr position) (cost : Decimal) :
    ∃ result position', PositionBook.chargeFunding cost mmr position = .ok result position' := by
  obtain ⟨-, -, -, hmmr, hlt, hside⟩ := liquidationPrice_eq_ok h.original
  -- a debit takes what is there at most, so the margin stays nonnegative
  have hmargin : 0 ≤ marginAfter position cost := by
    unfold marginAfter appliedCost
    apply quantizeAmount_nonneg
    by_cases hdebit : 0 < quantizeAmount cost
    · rw [if_pos hdebit]
      linarith [min_le_right (quantizeAmount cost) position.margin]
    · rw [if_neg hdebit]
      linarith [h.margin_nonneg]
  -- and a level can be computed for it
  have hlevel : ∃ level, liquidationPriceFromMargin { position with
      margin := marginAfter position cost
      fundingFeeTotal := quantizeAmount (position.fundingFeeTotal + appliedCost position cost) }
      mmr = .ok level := by
    unfold liquidationPriceFromMargin
    simp only [Except.bind_eq_ok, require_eq_ok]
    cases hdirection : position.side with
    | long => exact ⟨_, ⟨⟩, ⟨hmmr, hlt⟩, ⟨⟩, ⟨h.quantity_pos, h.entryPrice_pos⟩, ⟨⟩, hmargin, rfl⟩
    | short => exact ⟨_, ⟨⟩, ⟨hmmr, hlt⟩, ⟨⟩, ⟨h.quantity_pos, h.entryPrice_pos⟩, ⟨⟩, hmargin, rfl⟩
    | both => exact absurd hdirection hside
  obtain ⟨level, hlevel⟩ := hlevel
  refine ⟨⟨quantizeAmount cost, appliedCost position cost,
    decide (0 < quantizeAmount cost ∧ marginAfter position cost = 0)⟩, { position with
      margin := marginAfter position cost
      fundingFeeTotal := quantizeAmount (position.fundingFeeTotal + appliedCost position cost)
      liquidationPrice := level }, ?_⟩
  unfold PositionBook.chargeFunding
  simp only [bind_eq_ok, get_bind_apply, set_apply, raiseUnless_eq_ok, runPure_eq_ok, pure_apply,
    EStateM.Result.ok.injEq]
  exact ⟨⟨⟩, _, ⟨h.marketType_eq, rfl⟩, ⟨⟩, _, ⟨h.marginType_eq, rfl⟩, ⟨⟩, _, ⟨⟨⟩, rfl⟩, ⟨⟩, _,
    ⟨hmargin, rfl⟩, ⟨⟩, _, ⟨⟨⟩, rfl⟩, level, _, ⟨hlevel, rfl⟩, ⟨⟩, _, ⟨⟨⟩, rfl⟩, rfl, rfl⟩

/-- The level in force is the stored price, or the one of the leverage in place of a zero. -/
theorem Priced.liquidationLevel_eq (h : Priced mmr position)
    (hmmr : costModel.maintenanceMarginRate = mmr) :
    liquidationLevel position costModel = .ok (orElseLevel
      (leverageLevel position.entryPrice position.leverage mmr position.side)
      position.liquidationPrice) := by
  unfold liquidationLevel orElseLevel
  by_cases hunset : position.liquidationPrice ≤ 0
  · rw [if_pos hunset, if_pos hunset, hmmr, h.original]
    obtain ⟨repriced, hrepriced⟩ := h.reprices
      (leverageLevel position.entryPrice position.leverage mmr position.side)
    simp only [Except.bind_eq_ok]
    exact ⟨_, rfl, repriced, hrepriced, rfl⟩
  · rw [if_neg hunset, if_neg hunset]

/-- The stored price of a position is nonnegative. -/
theorem Priced.stored_nonneg (h : Priced mmr position) : 0 ≤ position.liquidationPrice := by
  rcases h.stored with hstored | ⟨hstored, -⟩
  · rw [hstored]
    exact levelAt_nonneg
  · rw [hstored]
    exact levelAt_nonneg

/-- **More margin, a price that is no closer**: the stored price against the price of another
margin. -/
theorem Priced.farther_of_lt (h : Priced mmr position) (hmoney : IsMoney margin)
    (hlt : position.margin < margin) :
    Farther position.side position.liquidationPrice (levelAt position mmr margin) := by
  rcases h.stored with hstored | ⟨hstored, hclose⟩
  · rw [hstored]
    exact levelAt_farther h.quantity_pos h.entryPrice_pos hlt.le
  · -- another margin is at least a unit larger, and so larger than the exact one
    rw [hstored]
    apply levelAt_farther h.quantity_pos h.entryPrice_pos
    have hunit : position.margin + qAmount ≤ margin := by
      have hstep := (hmoney.sub h.margin_money).qAmount_le (sub_pos.2 hlt)
      linarith
    linarith [(abs_le.1 hclose).1]

/-- **Less margin, a price that is no farther.** -/
theorem Priced.farther_of_gt (h : Priced mmr position) (hmoney : IsMoney margin)
    (hlt : margin < position.margin) :
    Farther position.side (levelAt position mmr margin) position.liquidationPrice := by
  rcases h.stored with hstored | ⟨hstored, hclose⟩
  · rw [hstored]
    exact levelAt_farther h.quantity_pos h.entryPrice_pos hlt.le
  · rw [hstored]
    apply levelAt_farther h.quantity_pos h.entryPrice_pos
    have hunit : margin + qAmount ≤ position.margin := by
      have hstep := (h.margin_money.sub hmoney).qAmount_le (sub_pos.2 hlt)
      linarith
    linarith [(abs_le.1 hclose).2]

/-- A settlement that leaves the margin as it is does not cross. -/
theorem Priced.uncrossed_of_eq (h : Priced mmr position) :
    Uncrossed (leverageLevel position.entryPrice position.leverage mmr position.side)
      position.liquidationPrice (levelAt position mmr position.margin) := by
  obtain ⟨-, -, hleverage, hmmr, hlt, -⟩ := liquidationPrice_eq_ok h.original
  rcases h.stored with hstored | ⟨hstored, -⟩
  · rw [← hstored]
    exact ⟨fun hzero hne => absurd hzero hne, fun hzero hne => absurd hzero hne⟩
  · -- the stored price is the one of the leverage
    rw [levelAt_exact h.quantity_pos h.entryPrice_pos hleverage hmmr hlt] at hstored
    rw [← hstored]
    refine ⟨?_, fun _ _ => le_rfl⟩
    intro hzero _
    rw [hzero]
    exact levelAt_nonneg

/-! ### Honouring the margin -/

/-- Between two records of a position, a larger margin does not come with a closer level in
force, nor a smaller one with a farther level. -/
def Honours (costModel : BacktestCostModel) (position position' : Position) : Prop :=
  ∃ level level', liquidationLevel position costModel = .ok level ∧
    liquidationLevel position' costModel = .ok level' ∧
    (position.margin < position'.margin → Farther position.side level level') ∧
    (position'.margin < position.margin → Farther position.side level' level)

/-- The settlement does not cross: of the stored price and the price of the margin it leaves,
not exactly one is zero, or the other is not below the price of the leverage. -/
def SettlesUncrossed (mmr : Decimal) (position : Position) (cost : Decimal) : Prop :=
  Uncrossed (leverageLevel position.entryPrice position.leverage mmr position.side)
    position.liquidationPrice (levelAt position mmr (marginAfter position cost))

/-- **One settlement honours the margin exactly when it does not cross.** -/
theorem Priced.honours_iff (h : Priced mmr position) {result : FundingMarginResult}
    (hmmr : costModel.maintenanceMarginRate = mmr)
    (hrun : PositionBook.chargeFunding cost mmr position = .ok result position') :
    Honours costModel position position' ↔ SettlesUncrossed mmr position cost := by
  have hfields := chargeFunding_reprices hrun
  have hlevel := h.liquidationLevel_eq hmmr
  have hlevel' := (h.settled hrun).liquidationLevel_eq hmmr
  have hmargin : position'.margin = marginAfter position cost := by rw [hfields]
  have hprice : position'.liquidationPrice = levelAt position mmr (marginAfter position cost) := by
    rw [hfields]
  have hsame : leverageLevel position'.entryPrice position'.leverage mmr position'.side =
      leverageLevel position.entryPrice position.leverage mmr position.side := by rw [hfields]
  rw [hsame, hprice] at hlevel'
  have hmoney : IsMoney (marginAfter position cost) := isMoney_quantizeAmount _
  unfold Honours SettlesUncrossed
  rw [hlevel, hlevel', hmargin]
  simp only [Except.ok.injEq, exists_and_left, exists_eq_left']
  -- which way the level moves follows the margin
  rcases lt_trichotomy position.margin (marginAfter position cost) with hlt | heq | hgt
  · -- margin is added
    rw [← farther_orElseLevel_iff h.stored_nonneg levelAt_nonneg (h.farther_of_lt hmoney hlt)]
    simp only [hlt, hlt.not_gt, forall_const, IsEmpty.forall_iff, and_true]
  · -- the margin stays
    rw [← heq]
    simp only [lt_irrefl, IsEmpty.forall_iff, and_self, true_iff]
    exact h.uncrossed_of_eq
  · -- margin is removed
    rw [uncrossed_comm,
      ← farther_orElseLevel_iff levelAt_nonneg h.stored_nonneg (h.farther_of_gt hmoney hgt)]
    simp only [hgt, hgt.not_gt, forall_const, IsEmpty.forall_iff, true_and]

/-- Every settlement of a sequence honours the margin. -/
def HonoursAll (costModel : BacktestCostModel) : List Decimal → Position → Prop
  | [], _ => True
  | cost :: rest, position => ∀ result position',
      PositionBook.chargeFunding cost costModel.maintenanceMarginRate position =
        .ok result position' →
      Honours costModel position position' ∧ HonoursAll costModel rest position'

/-- No settlement of a sequence crosses. -/
def NeverCrosses (costModel : BacktestCostModel) : List Decimal → Position → Prop
  | [], _ => True
  | cost :: rest, position => ∀ result position',
      PositionBook.chargeFunding cost costModel.maintenanceMarginRate position =
        .ok result position' →
      SettlesUncrossed costModel.maintenanceMarginRate position cost ∧
        NeverCrosses costModel rest position'

/-- **The liquidation level is monotone in the margin** along a sequence of settlements exactly
when no settlement of it crosses: a larger margin never comes with a closer level in force, nor a
smaller one with a farther level. -/
theorem honoursAll_iff (costs : List Decimal)
    (h : Held costModel.maintenanceMarginRate position) :
    HonoursAll costModel costs position ↔ NeverCrosses costModel costs position := by
  induction costs generalizing position with
  | nil => exact Iff.rfl
  | cons cost rest ih =>
    unfold HonoursAll NeverCrosses
    constructor
    · intro hall result position' hrun
      obtain ⟨hhonours, hrest⟩ := hall result position' hrun
      exact ⟨(h.priced.honours_iff rfl hrun).1 hhonours, (ih (h.settled hrun)).1 hrest⟩
    · intro hall result position' hrun
      obtain ⟨huncrossed, hrest⟩ := hall result position' hrun
      exact ⟨(h.priced.honours_iff rfl hrun).2 huncrossed, (ih (h.settled hrun)).2 hrest⟩

/-! ### A long of one unit at leverage two -/

/-- One unit at a hundred, at leverage two. -/
def hundredLong : Position where
  symbol := "BTCUSDT"
  quantity := 1
  averagePrice := 100
  totalCost := 100
  currentPrice := 100
  unrealizedPnl := 0
  side := .long
  marketType := .futures
  leverage := 2
  marginType := .isolated
  margin := 50
  entryPrice := 100
  markPrice := 100
  liquidationPrice := 504 / 10
  fundingFeeTotal := 0

theorem held_hundredLong :
    Held (BacktestCostModel.standard .futures).maintenanceMarginRate hundredLong :=
  .opened (show liquidationPrice
      (PositionBook.wholeFill false 1 100 (Nat.succ_pos _) (Nat.succ_pos _)).price 2
      (BacktestCostModel.standard .futures).maintenanceMarginRate .long = .ok (504 / 10) by
    decide +kernel) (by decide +kernel)

/-- A debit of ten does not cross. -/
theorem honoursAll_of_debit :
    HonoursAll (BacktestCostModel.standard .futures) [10] hundredLong :=
  (honoursAll_iff [10] held_hundredLong).2 fun _ _ _ =>
    ⟨⟨fun hzero => absurd hzero (by norm_num [hundredLong]),
      fun hzero => absurd hzero (by decide +kernel)⟩,
      trivial⟩

/-- The position once forty have been credited. -/
def creditedLong : Position :=
  { hundredLong with margin := 90, liquidationPrice := 104 / 10, fundingFeeTotal := -40 }

/-- **Two credits** of forty and twenty: the first moves the level to 10.4, the second moves it
back to 50.4, since the price of a margin of 110 is zero. -/
theorem not_honoursAll_of_credits :
    Held (BacktestCostModel.standard .futures).maintenanceMarginRate hundredLong ∧
      ¬HonoursAll (BacktestCostModel.standard .futures) [-40, -20] hundredLong := by
  refine ⟨held_hundredLong, ?_⟩
  intro hall
  obtain ⟨result, position, hrun, hcredited⟩ := exists_of_endsWith
    (show endsWith (PositionBook.chargeFunding (-40)
      (BacktestCostModel.standard .futures).maintenanceMarginRate hundredLong) (fun _ position =>
        decide (position = creditedLong)) = true by decide +kernel)
  obtain ⟨-, hrest⟩ := hall result position hrun
  rw [of_decide_eq_true hcredited] at hrest
  obtain ⟨result', position', hrun', htest⟩ := exists_of_endsWith
    (show endsWith (PositionBook.chargeFunding (-20)
      (BacktestCostModel.standard .futures).maintenanceMarginRate creditedLong) (fun _ position =>
        decide (position.margin = 110 ∧ liquidationLevel position
          (BacktestCostModel.standard .futures) = .ok (504 / 10))) = true by decide +kernel)
  obtain ⟨hmargin, hreturned⟩ := of_decide_eq_true htest
  obtain ⟨⟨level, level', hlevel, hlevel', hadded, -⟩, -⟩ := hrest result' position' hrun'
  -- margin was added, and yet the level moved toward the price
  have hbefore : liquidationLevel creditedLong (BacktestCostModel.standard .futures) =
      .ok (104 / 10) := by decide +kernel
  rw [hbefore] at hlevel
  rw [hreturned] at hlevel'
  cases hlevel
  cases hlevel'
  have hcloser : (504 / 10 : ℚ) ≤ 104 / 10 := hadded (by rw [hmargin]; norm_num [creditedLong])
  norm_num at hcloser

end Matcher
end TradingSystem
