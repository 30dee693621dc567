import TradingSystem.Data.FirstLeast
import TradingSystem.Execution.FundedLevel
import TradingSystem.Execution.SpotLiquidation

/-!
# Which bar closes a position, and why

The resolution of triggers sorts the bars, skips those that do not open after the entry, and
closes the position in the first one that reaches a level. What the levels mean is stated here
without the order in which the code tries them.

* `Reaches` — a bar reaches some level of the position.
* `Chosen` — the reason and the level an exit must have, by precedence.
* `resolveTriggers_outcome` — the outcome is that of the exit in the earliest bar that reaches a
  level, and no exit exactly when no bar does.
* `resolveTriggers_raises` — a position without a direction, and an exit that slippage leaves
  without a price.
-/

namespace TradingSystem

open Logic Numeric

namespace Matcher

variable {position : Position} {costModel : BacktestCostModel} {protection : Protection}
  {candle : Candle} {candles : List Candle} {entryTime : Option ℤ} {level stopPrice : Decimal}
  {side : PositionSide} {reason : ExitReason} {trigger : Decimal}

/-! ### Levels and bars -/

/-- A bar trades at a level on the losing side, or at a worse price: by its range or its open. -/
def ReachesAdverse (side : PositionSide) (candle : Candle) (level : Decimal) : Prop :=
  if side = .long then toDecimal candle.low ≤ level ∨ toDecimal candle.open ≤ level
  else level ≤ toDecimal candle.high ∨ level ≤ toDecimal candle.open

/-- A bar trades at a level on the winning side, or at a better price. -/
def ReachesFavourable (side : PositionSide) (candle : Candle) (level : Decimal) : Prop :=
  if side = .long then level ≤ toDecimal candle.high ∨ level ≤ toDecimal candle.open
  else toDecimal candle.low ≤ level ∨ toDecimal candle.open ≤ level

/-- A stop that lies strictly beyond a liquidation level, on the losing side. -/
def StrictlyBeyond (side : PositionSide) (stopPrice level : Decimal) : Prop :=
  if side = .long then stopPrice < level else level < stopPrice

/-- A price that is no better for the position than a level. -/
def NoBetter (side : PositionSide) (price level : Decimal) : Prop :=
  if side = .long then price ≤ level else level ≤ price

/-- The bar opens after the entry. -/
def Eligible (entryTime : Option ℤ) (candle : Candle) : Prop :=
  ∀ entry ∈ entryTime, entry < candle.openTime

/-- The bar reaches the stop, the liquidation level or the target. -/
def Reaches (side : PositionSide) (protection : Protection) (level : Decimal) (candle : Candle) :
    Prop :=
  (∃ stopPrice ∈ protection.stopPrice, ReachesAdverse side candle stopPrice) ∨
    ReachesAdverse side candle level ∨
    ∃ takeProfitPrice ∈ protection.takeProfitPrice, ReachesFavourable side candle takeProfitPrice

/-- **The exit a bar must have**: the level it names is the one of its reason and is reached, a
stop or a liquidation comes before a target, and of a stop and a liquidation the liquidation is
chosen exactly for a stop strictly beyond its level. -/
structure Chosen (side : PositionSide) (protection : Protection) (level : Decimal)
    (candle : Candle) (reason : ExitReason) (trigger : Decimal) : Prop where
  named : (reason = .stopLoss ∧ protection.stopPrice = some trigger ∧
      ReachesAdverse side candle trigger) ∨
    (reason = .liquidation ∧ trigger = level ∧ ReachesAdverse side candle trigger) ∨
    (reason = .takeProfit ∧ protection.takeProfitPrice = some trigger ∧
      ReachesFavourable side candle trigger)
  adverse_first : (∃ stopPrice ∈ protection.stopPrice, ReachesAdverse side candle stopPrice) ∨
    ReachesAdverse side candle level → reason ≠ .takeProfit
  liquidation_iff : ∀ stopPrice ∈ protection.stopPrice, ReachesAdverse side candle stopPrice →
    ReachesAdverse side candle level →
    (reason = .liquidation ↔ StrictlyBeyond side stopPrice level)

/-- The open lies within the range, so it reaches no more than the range does. -/
theorem reachesAdverse_iff : ReachesAdverse side candle level ↔
    if side = .long then toDecimal candle.low ≤ level else level ≤ toDecimal candle.high := by
  unfold ReachesAdverse
  by_cases hlong : side = .long
  · rw [if_pos hlong, if_pos hlong]
    refine ⟨?_, Or.inl⟩
    rintro (hlow | hopen)
    · exact hlow
    · exact (toDecimal_mono candle.low_le_open).trans hopen
  · rw [if_neg hlong, if_neg hlong]
    refine ⟨?_, Or.inl⟩
    rintro (hhigh | hopen)
    · exact hhigh
    · exact hopen.trans (toDecimal_mono candle.open_le_high)

theorem reachesFavourable_iff : ReachesFavourable side candle level ↔
    if side = .long then level ≤ toDecimal candle.high else toDecimal candle.low ≤ level := by
  unfold ReachesFavourable
  by_cases hlong : side = .long
  · rw [if_pos hlong, if_pos hlong]
    refine ⟨?_, Or.inl⟩
    rintro (hhigh | hopen)
    · exact hhigh
    · exact hopen.trans (toDecimal_mono candle.open_le_high)
  · rw [if_neg hlong, if_neg hlong]
    refine ⟨?_, Or.inl⟩
    rintro (hlow | hopen)
    · exact hlow
    · exact (toDecimal_mono candle.low_le_open).trans hopen

/-- The tests of the code, as what they mean. -/
theorem stopHit_iff : stopHit side candle stopPrice = true ↔
    ReachesAdverse side candle stopPrice := by
  rw [reachesAdverse_iff]
  unfold stopHit
  by_cases hlong : side = .long
  · rw [if_pos hlong, if_pos hlong, decide_eq_true_eq]
  · rw [if_neg hlong, if_neg hlong, decide_eq_true_eq]

theorem takeHit_iff : takeHit side candle level = true ↔ ReachesFavourable side candle level := by
  rw [reachesFavourable_iff]
  unfold takeHit
  by_cases hlong : side = .long
  · rw [if_pos hlong, if_pos hlong, decide_eq_true_eq]
  · rw [if_neg hlong, if_neg hlong, decide_eq_true_eq]

theorem invalidStop_iff : invalidStop side level stopPrice = true ↔
    StrictlyBeyond side stopPrice level := by
  unfold invalidStop StrictlyBeyond
  by_cases hlong : side = .long
  · rw [if_pos hlong, if_pos hlong, decide_eq_true_eq]
  · rw [if_neg hlong, if_neg hlong, decide_eq_true_eq]

/-- The liquidation test of a position with a direction. -/
theorem liquidationTriggered_eq (hside : side ≠ .both) :
    liquidationTriggered side level (adverseExtreme side candle) =
      .ok (stopHit side candle level) := by
  cases side with
  | long => rfl
  | short => rfl
  | both => exact absurd rfl hside

/-! ### The exit of one bar -/

/-- **The precedence of the code is the one that is asked for.** -/
theorem chosen_of_triggerOf
    (h : triggerOf side candle protection level (stopHit side candle level) =
      some (reason, trigger)) : Chosen side protection level candle reason trigger := by
  unfold triggerOf at h
  -- the stop is looked at first, then the liquidation level, and then the target
  cases hstop : protection.stopPrice.filter (stopHit side candle) with
  | some stopPrice =>
    rw [hstop] at h
    obtain ⟨hmem, hhit⟩ := Option.filter_eq_some_iff.1 hstop
    have hreached := stopHit_iff.1 hhit
    simp only at h
    by_cases hliquidated : (stopHit side candle level && invalidStop side level stopPrice) = true
    · -- the stop is beyond a level that is reached
      rw [if_pos hliquidated] at h
      cases h
      rw [Bool.and_eq_true] at hliquidated
      refine ⟨Or.inr (Or.inl ⟨rfl, rfl, stopHit_iff.1 hliquidated.1⟩), fun _ => nofun, ?_⟩
      intro other hother _ _
      rw [hmem] at hother
      cases hother
      exact ⟨fun _ => invalidStop_iff.1 hliquidated.2, fun _ => rfl⟩
    · rw [if_neg hliquidated] at h
      cases h
      refine ⟨Or.inl ⟨rfl, hmem, hreached⟩, fun _ => nofun, ?_⟩
      intro other hother _ hlevel
      rw [hmem] at hother
      cases hother
      refine ⟨nofun, fun hbeyond => ?_⟩
      exact absurd (by rw [stopHit_iff.2 hlevel, invalidStop_iff.2 hbeyond]; rfl) hliquidated
  | none =>
    rw [hstop] at h
    have hunreached : ∀ stopPrice ∈ protection.stopPrice,
        ¬ReachesAdverse side candle stopPrice := by
      intro stopPrice hmem hreached
      exact absurd (stopHit_iff.2 hreached) (Option.filter_eq_none_iff.1 hstop stopPrice hmem)
    simp only at h
    by_cases hlevel : stopHit side candle level = true
    · rw [if_pos hlevel] at h
      cases h
      exact ⟨Or.inr (Or.inl ⟨rfl, rfl, stopHit_iff.1 hlevel⟩), fun _ => nofun,
        fun stopPrice hmem hreached => absurd hreached (hunreached stopPrice hmem)⟩
    · rw [if_neg hlevel] at h
      rw [Option.map_eq_some_iff] at h
      obtain ⟨takeProfitPrice, htake, h⟩ := h
      cases h
      obtain ⟨hmem, hhit⟩ := Option.filter_eq_some_iff.1 htake
      refine ⟨Or.inr (Or.inr ⟨rfl, hmem, takeHit_iff.1 hhit⟩), ?_, fun stopPrice hmem hreached =>
        absurd hreached (hunreached stopPrice hmem)⟩
      rintro (⟨stopPrice, hmem, hreached⟩ | hreached)
      · exact absurd hreached (hunreached stopPrice hmem)
      · exact absurd (stopHit_iff.2 hreached) hlevel

/-- A bar has an exit exactly when it reaches a level. -/
theorem triggerOf_isSome_iff :
    (triggerOf side candle protection level (stopHit side candle level)).isSome = true ↔
      Reaches side protection level candle := by
  constructor
  · intro h
    obtain ⟨⟨reason, trigger⟩, htrigger⟩ := Option.isSome_iff_exists.1 h
    rcases (chosen_of_triggerOf htrigger).named with ⟨-, hmem, hreached⟩ | ⟨-, rfl, hreached⟩ |
      ⟨-, hmem, hreached⟩
    · exact Or.inl ⟨trigger, hmem, hreached⟩
    · exact Or.inr (Or.inl hreached)
    · exact Or.inr (Or.inr ⟨trigger, hmem, hreached⟩)
  · intro hreaches
    unfold triggerOf
    cases hstop : protection.stopPrice.filter (stopHit side candle) with
    | some stopPrice =>
      simp only
      split <;> rfl
    | none =>
      simp only
      -- no stop is hit: the liquidation level comes before the take profit
      by_cases hlevel : stopHit side candle level = true
      · rw [if_pos hlevel]
        rfl
      · rw [if_neg hlevel, Option.isSome_map, Option.isSome_iff_exists]
        rcases hreaches with ⟨stopPrice, hmem, hreached⟩ | hreached |
          ⟨takeProfitPrice, hmem, hreached⟩
        · exact absurd (stopHit_iff.2 hreached) (Option.filter_eq_none_iff.1 hstop stopPrice hmem)
        · exact absurd (stopHit_iff.2 hreached) hlevel
        · exact ⟨takeProfitPrice, Option.filter_eq_some_iff.2 ⟨hmem, takeHit_iff.2 hreached⟩⟩

/-- A stop or a liquidation is referred to its level or a worse open, a target to its level or a
better open. -/
theorem protectionReference_bound (candle : Candle) (reason : ExitReason) (trigger : Decimal)
    (hside : side ≠ .both) :
    if reason = .takeProfit then
      NoBetter side trigger (protectionReference side candle trigger reason).1
    else NoBetter side (protectionReference side candle trigger reason).1 trigger := by
  cases side with
  | long =>
    cases reason with
    | takeProfit => exact le_max_left _ _
    | liquidation => exact le_rfl
    | stopLoss => exact min_le_left _ _
    | _ => exact min_le_left _ _
  | short =>
    cases reason with
    | takeProfit => exact min_le_left _ _
    | liquidation => exact le_rfl
    | stopLoss => exact le_max_left _ _
    | _ => exact le_max_left _ _
  | both => exact absurd rfl hside

/-! ### The exit of a list of bars -/

instance (entryTime : Option ℤ) (candle : Candle) : Decidable (Eligible entryTime candle) :=
  inferInstanceAs (Decidable (∀ entry ∈ entryTime, entry < candle.openTime))

instance (side : PositionSide) (protection : Protection) (level : Decimal) (candle : Candle) :
    Decidable (Reaches side protection level candle) :=
  decidable_of_iff _ triggerOf_isSome_iff

/-- A bar that closes the position: it opens after the entry and reaches a level. -/
def closes (side : PositionSide) (protection : Protection) (level : Decimal)
    (entryTime : Option ℤ) (candle : Candle) : Bool :=
  decide (Eligible entryTime candle ∧ Reaches side protection level candle)

theorem closes_iff : closes side protection level entryTime candle = true ↔
    Eligible entryTime candle ∧ Reaches side protection level candle := decide_eq_true_iff

/-- The exit at a level of a bar. -/
def exitAt (position : Position) (candle : Candle) (costModel : BacktestCostModel)
    (reason : ExitReason) (trigger : Decimal) : Except Fault Fill :=
  fillSynthetic position candle.openTime reason
    (protectionReference position.side candle trigger reason).1 candle.closeTime costModel
    (protectionReference position.side candle trigger reason).2

/-- **What a bar does**: nothing when it reaches no level, else the exit of its choice. -/
theorem resolveCandle_outcome (protection : Protection) (candle : Candle)
    (hside : position.side ≠ .both)
    (hlevel : liquidationLevel position costModel = .ok level) :
    (¬Reaches position.side protection level candle ∧
      resolveCandle position candle costModel protection = .ok none) ∨
    Reaches position.side protection level candle ∧ ∃ reason trigger,
      Chosen position.side protection level candle reason trigger ∧
        resolveCandle position candle costModel protection =
          (exitAt position candle costModel reason trigger).map some := by
  -- the code chooses a trigger and fills at it; the two are taken apart here
  have hcandle : resolveCandle position candle costModel protection =
      (triggerOf position.side candle protection level
        (stopHit position.side candle level)).elim (.ok none) fun choice =>
          (exitAt position candle costModel choice.1 choice.2).map some := by
    unfold resolveCandle exitAt
    rw [hlevel]
    change (liquidationTriggered position.side level (adverseExtreme position.side candle) >>=
      fun liquidationHit => _) = _
    rw [liquidationTriggered_eq hside]
    dsimp only [bind, Except.bind]
    cases triggerOf position.side candle protection level (stopHit position.side candle level) with
    | none => rfl
    | some choice =>
      dsimp only [Option.elim_some]
      cases fillSynthetic position candle.openTime choice.1
        (protectionReference position.side candle choice.2 choice.1).1 candle.closeTime costModel
        (protectionReference position.side candle choice.2 choice.1).2 <;> rfl
  cases htrigger : triggerOf position.side candle protection level
      (stopHit position.side candle level) with
  | none =>
    rw [htrigger] at hcandle
    refine Or.inl ⟨?_, hcandle⟩
    rw [← triggerOf_isSome_iff, htrigger]
    exact Bool.false_ne_true
  | some choice =>
    rw [htrigger] at hcandle
    refine Or.inr ⟨?_, choice.1, choice.2, chosen_of_triggerOf htrigger, hcandle⟩
    rw [← triggerOf_isSome_iff, htrigger]
    rfl

/-- What follows from the bar that closes the position, if there is one. -/
def resolveFound (position : Position) (costModel : BacktestCostModel) (protection : Protection) :
    Option Candle → Except Fault (Option Fill)
  | none => .ok none
  | some candle => resolveCandle position candle costModel protection

/-- The loop over sorted bars stops at the first one that closes the position. -/
theorem resolveSorted_eq (hside : position.side ≠ .both)
    (hlevel : liquidationLevel position costModel = .ok level) :
    resolveSorted position costModel protection entryTime candles =
      resolveFound position costModel protection
        (candles.find? (closes position.side protection level entryTime)) := by
  -- on the bars left: one is skipped, does nothing, or ends the loop
  induction candles with
  | nil => rfl
  | cons candle rest ih =>
    unfold resolveSorted
    rw [List.find?_cons]
    by_cases hskip : ∃ entry ∈ entryTime, candle.openTime ≤ entry
    · -- the bar is skipped
      have hopen : closes position.side protection level entryTime candle = false := by
        rw [Bool.eq_false_iff, Ne, closes_iff]
        rintro ⟨heligible, -⟩
        obtain ⟨entry, hentry, hle⟩ := hskip
        exact absurd (heligible entry hentry) (not_lt.2 hle)
      rw [if_pos hskip, hopen]
      exact ih
    · have heligible : Eligible entryTime candle := by
        intro entry hentry
        by_contra hle
        exact hskip ⟨entry, hentry, not_lt.1 hle⟩
      rw [if_neg hskip]
      rcases resolveCandle_outcome protection candle hside hlevel with
        ⟨hnot, hnone⟩ | ⟨hreaches, reason, trigger, -, hexit⟩
      · have hopen : closes position.side protection level entryTime candle = false := by
          rw [Bool.eq_false_iff, Ne, closes_iff]
          exact fun hboth => hnot hboth.2
        rw [hnone, hopen]
        exact ih
      · have hcloses : closes position.side protection level entryTime candle = true :=
          closes_iff.2 ⟨heligible, hreaches⟩
        rw [hcloses]
        change _ = resolveCandle position candle costModel protection
        rw [hexit]
        cases exitAt position candle costModel reason trigger <;> rfl

/-- The outcome of resolving the triggers of a position over some bars. -/
structure IsOutcome (position : Position) (costModel : BacktestCostModel)
    (protection : Protection) (entryTime : Option ℤ) (candles : List Candle) (level : Decimal)
    (outcome : Except Fault (Option Fill)) : Prop where
  /-- There is no exit exactly when no bar after the entry reaches a level. -/
  none_iff : outcome = .ok none ↔ ∀ candle ∈ candles, Eligible entryTime candle →
    ¬Reaches position.side protection level candle
  /-- Else the outcome is that of the exit in the earliest such bar. -/
  earliest : (∃ candle ∈ candles, Eligible entryTime candle ∧
      Reaches position.side protection level candle) → ∃ candle reason trigger,
    candles.IsFirstLeast Candle.openTime (closes position.side protection level entryTime) candle ∧
    Chosen position.side protection level candle reason trigger ∧
    outcome = (exitAt position candle costModel reason trigger).map some
  /-- The reference price of a fill is no better than a stop or a liquidation level, and no worse
  than a target. -/
  reference : ∀ fill, outcome = .ok (some fill) → ∃ candle reason trigger,
    candles.IsFirstLeast Candle.openTime (closes position.side protection level entryTime) candle ∧
    Chosen position.side protection level candle reason trigger ∧
    fill.exitReason = some reason ∧
    if reason = .takeProfit then NoBetter position.side (quantizePrice trigger) fill.referencePrice
    else NoBetter position.side fill.referencePrice (quantizePrice trigger)

theorem NoBetter.quantizePrice {price : Decimal} (h : NoBetter side price level) :
    NoBetter side (TradingSystem.quantizePrice price) (TradingSystem.quantizePrice level) := by
  unfold NoBetter at h ⊢
  by_cases hlong : side = .long
  · rw [if_pos hlong] at h ⊢
    exact quantizeAmount_mono h
  · rw [if_neg hlong] at h ⊢
    exact quantizeAmount_mono h

/-- The fill of an exit keeps its reason and its reference price. -/
theorem exitAt_eq_ok {fill : Fill}
    (h : exitAt position candle costModel reason trigger = .ok fill) :
    fill.exitReason = some reason ∧ fill.referencePrice =
      quantizePrice (protectionReference position.side candle trigger reason).1 := by
  unfold exitAt fillSynthetic at h
  rw [Except.bind_eq_ok] at h
  obtain ⟨order, -, h⟩ := h
  split at h
  · next hrun =>
    cases h
    have hexecution := fillOrder_eq_ok hrun
    exact ⟨hexecution.exitReason_eq, hexecution.referencePrice_eq⟩
  · cases h

/-- **Trigger resolution.** For every position with a direction, list of bars in any order, stop
and target, and the liquidation level in force: no exit exactly when no bar after the entry
reaches a level, and else the exit of the earliest one, by precedence, at a price that is not in
the position's favour. -/
theorem resolveTriggers_outcome (hside : position.side ≠ .both)
    (hlevel : liquidationLevel position costModel = .ok level) :
    IsOutcome position costModel protection entryTime candles level
      (resolveTriggers position candles costModel protection entryTime) := by
  -- the loop over the sorted bars is a search for the first one that closes
  have hresolve : resolveTriggers position candles costModel protection entryTime =
      resolveFound position costModel protection
        ((candles.insertionSort (List.keyLE Candle.openTime)).find?
          (closes position.side protection level entryTime)) := by
    rw [← resolveSorted_eq hside hlevel]
    unfold resolveTriggers
    rw [require, if_pos hside]
    rfl
  cases hfound : (candles.insertionSort (List.keyLE Candle.openTime)).find?
      (closes position.side protection level entryTime) with
  | none =>
    rw [hfound] at hresolve
    have hnone : ∀ candle ∈ candles, Eligible entryTime candle →
        ¬Reaches position.side protection level candle := by
      intro candle hmem heligible hreaches
      have hopen := List.find?_insertionSort_eq_none.1 hfound candle hmem
      rw [closes_iff.2 ⟨heligible, hreaches⟩] at hopen
      cases hopen
    refine ⟨⟨fun _ => hnone, fun _ => hresolve⟩, ?_, ?_⟩
    · rintro ⟨candle, hmem, heligible, hreaches⟩
      exact absurd hreaches (hnone candle hmem heligible)
    · intro fill hfill
      rw [hresolve] at hfill
      cases hfill
  | some candle =>
    rw [hfound] at hresolve
    have hfirst := List.find?_insertionSort_eq_some.1 hfound
    have hcloses := closes_iff.1 (List.find?_some hfound)
    have hmem := (List.mem_insertionSort _).1 (List.mem_of_find?_eq_some hfound)
    -- the bar that was found reaches a level, so it has an exit
    rcases resolveCandle_outcome protection candle hside hlevel with
      ⟨hnot, -⟩ | ⟨-, reason, trigger, hchosen, hexit⟩
    · exact absurd hcloses.2 hnot
    change _ = resolveCandle position candle costModel protection at hresolve
    rw [hexit] at hresolve
    refine ⟨⟨?_, ?_⟩, fun _ => ⟨candle, reason, trigger, hfirst, hchosen, hresolve⟩, ?_⟩
    · intro hnone
      rw [hresolve] at hnone
      cases hrun : exitAt position candle costModel reason trigger with
      | ok fill =>
        rw [hrun] at hnone
        cases hnone
      | error fault =>
        rw [hrun] at hnone
        cases hnone
    · intro hnone
      exact absurd hcloses.2 (hnone candle hmem hcloses.1)
    · intro fill hfill
      rw [hresolve] at hfill
      cases hrun : exitAt position candle costModel reason trigger with
      | error fault =>
        rw [hrun] at hfill
        cases hfill
      | ok filled =>
        rw [hrun] at hfill
        cases hfill
        obtain ⟨hreason, hreference⟩ := exitAt_eq_ok hrun
        refine ⟨candle, reason, trigger, hfirst, hchosen, hreason, ?_⟩
        have hbound := protectionReference_bound candle reason trigger hside
        rw [hreference]
        by_cases htarget : reason = .takeProfit
        · rw [if_pos htarget] at hbound ⊢
          exact hbound.quantizePrice
        · rw [if_neg htarget] at hbound ⊢
          exact hbound.quantizePrice

/-! ### A long from a hundred -/

/-- A bar at ninety, and a stop at ninety-eight. -/
theorem resolveTriggers_outcome_of_fallen :
    IsOutcome hundredLong (.standard .futures) ⟨some 98, some 110⟩ none [fallenBar] (504 / 10)
      (resolveTriggers hundredLong [fallenBar] (.standard .futures) ⟨some 98, some 110⟩ none) :=
  resolveTriggers_outcome (show hundredLong.side ≠ .both by decide) (by decide +kernel)

/-- The overrides of an exit that costs its whole notional. -/
def wholeSlippage : CostOverrides := { exitSlippageRate := some 1 }

theorem wholeSlippage_valid : wholeSlippage.values.Valid :=
  CostValues.valid_of_validate (by decide +kernel)

/-- The costs under which an exit is worth nothing. -/
def wholeSlippageCosts : BacktestCostModel where
  params := wholeSlippage.values
  marketType := .futures
  useStandardSlippage := false
  valid := wholeSlippage_valid

theorem exists_error_of_returnsWith {α : Type} {outcome : Except Fault α}
    (h : returnsWith outcome (fun _ => true) = false) : ∃ fault, outcome = .error fault := by
  cases outcome with
  | ok a => cases h
  | error fault => exact ⟨fault, rfl⟩

/-- **Neither a fill nor none**: the triggers of a position without a direction, of a position
whose unset level cannot be computed, and an exit in a bar that reaches the stop, which slippage
leaves without a positive price. -/
theorem resolveTriggers_raises :
    (∃ fault, resolveTriggers { hundredLong with side := .both } [fallenBar] (.standard .futures)
      ⟨some 80, none⟩ none = .error fault) ∧
    (∃ fault, resolveTriggers { hundredLong with liquidationPrice := 0, entryPrice := 0 }
      [fallenBar] (.standard .futures) ⟨some 98, none⟩ none = .error fault) ∧
    Reaches hundredLong.side ⟨some 98, none⟩ (504 / 10) fallenBar ∧
    ∃ fault, resolveTriggers hundredLong [fallenBar] wholeSlippageCosts ⟨some 98, none⟩ none =
      .error fault :=
  ⟨exists_error_of_returnsWith (by decide +kernel), exists_error_of_returnsWith (by decide +kernel),
    by decide +kernel, exists_error_of_returnsWith (by decide +kernel)⟩

end Matcher
end TradingSystem
