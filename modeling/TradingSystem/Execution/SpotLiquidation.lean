import TradingSystem.Execution.Matching
import TradingSystem.Execution.MarginConservation
import Mathlib.Algebra.Order.Archimedean.Basic

/-!
# Spot positions and liquidation

A spot position is opened with the liquidation price zero. The resolution of triggers reads
a zero as "not set" and computes the level of a leveraged position in its place, so a spot
position has a liquidation level like any other.

* `NeverLiquidated` — no list of bars closes the position by a liquidation.
* `Sheltered` — a stop on the safe side of the computed level is set, or an exit at the
  level cannot be filled.
* `neverLiquidated_iff_sheltered` — that is exactly when a spot position is safe.
* `not_neverLiquidated_of_ten_times` — a spot long at leverage ten that is liquidated.
-/

namespace TradingSystem

open Numeric Logic

namespace Matcher

/-- A position as a spot entry of the engine opens it, at any leverage. -/
def IsSpotEntry (position : Position) : Prop :=
  ∃ fill leverage, (PositionBook.openedPosition fill leverage .isolated .spot 0).postInit =
    .ok position

/-- **Spot positions are never liquidated**: whatever bars follow, the exit of the position
has another reason. -/
def NeverLiquidated (position : Position) (costModel : BacktestCostModel)
    (protection : Protection) : Prop :=
  ∀ candles entryTime fill,
    resolveTriggers position candles costModel protection entryTime = .ok (some fill) →
      fill.exitReason ≠ some .liquidation

/-- The position has a stop that is not beyond the level its leverage gives, or an exit at
that level has no fill, as when the level is zero. -/
def Sheltered (position : Position) (costModel : BacktestCostModel) (protection : Protection) :
    Prop :=
  ∀ level, liquidationLevel position costModel = .ok level →
    (∃ stopPrice ∈ protection.stopPrice, invalidStop position.side level stopPrice = false) ∨
      ∀ (candle : Candle) (gapFilled : Bool) (fill : Fill),
        fillSynthetic position candle.openTime .liquidation level candle.closeTime costModel
          gapFilled ≠ .ok fill

variable {position : Position} {costModel : BacktestCostModel} {protection : Protection}
  {candle : Candle} {fill : Fill}

/-! ### The exit of a list of bars -/

/-- An exit comes from one of the bars. -/
theorem resolveSorted_eq_ok {candles : List Candle} {entryTime : Option ℤ}
    (h : resolveSorted position costModel protection entryTime candles = .ok (some fill)) :
    ∃ candle ∈ candles, IsTrigger position costModel protection candle fill := by
  induction candles with
  | nil => cases h
  | cons candle rest ih =>
    unfold resolveSorted at h
    split at h
    · obtain ⟨other, hmem, htrigger⟩ := ih h
      exact ⟨other, List.mem_cons_of_mem _ hmem, htrigger⟩
    · rw [Except.bind_eq_ok] at h
      obtain ⟨resolved, hresolved, h⟩ := h
      cases resolved with
      | none =>
        obtain ⟨other, hmem, htrigger⟩ := ih h
        exact ⟨other, List.mem_cons_of_mem _ hmem, htrigger⟩
      | some filled =>
        cases h
        exact ⟨candle, List.mem_cons_self, resolveCandle_eq_ok hresolved⟩

/-- What one bar after the entry triggers is the exit. -/
theorem resolveTriggers_single (hside : position.side ≠ .both)
    (h : resolveCandle position candle costModel protection = .ok (some fill)) :
    resolveTriggers position [candle] costModel protection none = .ok (some fill) := by
  unfold resolveTriggers
  rw [require, if_pos hside]
  change resolveSorted position costModel protection none [candle] = .ok (some fill)
  unfold resolveSorted
  rw [if_neg (by simp), h]
  rfl

/-! ### Liquidations -/

/-- A bar that reaches the level reaches a stop before it. -/
theorem stopHit_of_liquidationTriggered {level stopPrice : Decimal}
    (hit : liquidationTriggered position.side level (adverseExtreme position.side candle) =
      .ok true)
    (hvalid : invalidStop position.side level stopPrice = false) :
    stopHit position.side candle stopPrice = true := by
  unfold liquidationTriggered at hit
  unfold invalidStop at hvalid
  unfold stopHit
  unfold adverseExtreme at hit
  cases hside : position.side with
  | long =>
    simp only [hside, if_true, Except.ok.injEq, decide_eq_true_eq, decide_eq_false_iff_not,
      not_lt] at hit hvalid ⊢
    exact hit.trans hvalid
  | short =>
    simp only [hside, reduceCtorEq, if_false, Except.ok.injEq, decide_eq_true_eq,
      decide_eq_false_iff_not, not_lt] at hit hvalid ⊢
    exact hvalid.trans hit
  | both =>
    rw [hside] at hit
    cases hit

/-- **When a bar liquidates**: it reaches the level, and no stop on the safe side of the
level is set. -/
theorem triggerOf_eq_liquidation {level triggerLevel : Decimal} {liquidationHit : Bool}
    (hit : liquidationTriggered position.side level (adverseExtreme position.side candle) =
      .ok liquidationHit)
    (h : triggerOf position.side candle protection level liquidationHit =
      some (.liquidation, triggerLevel)) :
    triggerLevel = level ∧
      ∀ stopPrice ∈ protection.stopPrice, invalidStop position.side level stopPrice = true := by
  cases hhit : liquidationHit with
  | false =>
    -- without the level only a stop or a target is left
    subst hhit
    unfold triggerOf at h
    cases hstop : protection.stopPrice.filter (stopHit position.side candle) <;>
      simp [hstop] at h
  | true =>
    subst hhit
    refine ⟨?_, ?_⟩
    · unfold triggerOf at h
      cases hstop : protection.stopPrice.filter (stopHit position.side candle) with
      | none => simpa [hstop, eq_comm] using h
      | some stopPrice =>
        cases hinvalid : invalidStop position.side level stopPrice <;>
          simp [hstop, hinvalid] at h
        exact h.symm
    · intro stopPrice hmem
      by_contra hvalid
      rw [Bool.not_eq_true] at hvalid
      have hstop := stopHit_of_liquidationTriggered hit hvalid
      unfold triggerOf at h
      rw [Option.mem_def] at hmem
      rw [hmem, Option.filter_some, if_pos hstop] at h
      simp [hvalid] at h

theorem triggerOf_of_hit {level : Decimal}
    (h : ∀ stopPrice ∈ protection.stopPrice, invalidStop position.side level stopPrice = true) :
    triggerOf position.side candle protection level true = some (.liquidation, level) := by
  unfold triggerOf
  cases hstop : protection.stopPrice.filter (stopHit position.side candle) with
  | none => rfl
  | some stopPrice =>
    have hmem : stopPrice ∈ protection.stopPrice := (Option.filter_eq_some_iff.1 hstop).1
    simp [h stopPrice hmem]

/-! ### Bars that reach a level -/

/-- A float too small to be a price at eight decimals. -/
def dust : Binary64 := Binary64.ofRat (1 / 10 ^ 12)

theorem dust_values : (Binary64.zero < dust ∧ dust.val ≤ 1) ∧ toDecimal dust = 0 := by
  decide +kernel

theorem dust_pos : Binary64.zero < dust := dust_values.1.1

theorem toDecimal_dust : toDecimal dust = 0 := dust_values.2

/-- Floats reach any price. -/
theorem exists_le_toDecimal (level : Decimal) :
    ∃ price : Binary64, level ≤ toDecimal price ∧ dust ≤ price := by
  obtain ⟨n, hn⟩ := pow_unbounded_of_one_lt (max level 1 + 1) (one_lt_two (α := ℚ))
  have hpower : ∀ k : ℕ, binary64.round ((2 : ℚ) ^ k) = 2 ^ k := by
    intro k
    have h := binary64.round_int_mul (n := 1) (e := k) (by simp [binary64])
      (by norm_num [binary64])
    simpa using h
  -- the printed digits of a power of two are not below the power before it
  have hrepr : (2 : ℚ) ^ n ≤ (Binary64.ofRat (2 ^ (n + 1))).repr := by
    by_contra hlt
    have hle := binary64.round_mono (not_le.1 hlt).le
    rw [Binary64.repr, round_shortest (Binary64.ofRat _).rounded, hpower, Binary64.ofRat_val,
      hpower, pow_succ] at hle
    have hpos : (0 : ℚ) < 2 ^ n := pow_pos two_pos n
    linarith
  refine ⟨Binary64.ofRat (2 ^ (n + 1)), ?_, ?_⟩
  · have hround := abs_sub_quantizeAmount_le (Binary64.ofRat (2 ^ (n + 1))).repr
    have hquantum : qAmount / 2 ≤ 1 := by norm_num [qAmount]
    have hlevel := le_max_left level 1
    change level ≤ quantizeAmount _
    linarith [(abs_le.1 hround).2]
  · rw [Binary64.le_def, Binary64.ofRat_val, hpower]
    have hone : (1 : ℚ) ≤ 2 ^ (n + 1) := one_le_pow₀ one_le_two
    exact dust_values.1.2.trans hone

/-- A bar that spans every price from dust to a peak, and opens at one of the two. -/
def spanningBar (candle : Candle) (peak : Binary64) (opensAtPeak : Bool) (h : dust ≤ peak) :
    Candle where
  symbol := candle.symbol
  timeframe := candle.timeframe
  openTime := candle.openTime
  closeTime := candle.closeTime
  «open» := if opensAtPeak then peak else dust
  high := peak
  low := dust
  close := dust
  closeTime_eq := candle.closeTime_eq
  open_pos := by
    cases opensAtPeak with
    | false => exact dust_pos
    | true => exact lt_of_lt_of_le (show Binary64.zero.val < dust.val from dust_pos) h
  low_pos := dust_pos
  close_pos := dust_pos
  open_le_high := by
    cases opensAtPeak with
    | false => exact h
    | true => exact le_refl peak.val
  close_le_high := h
  low_le_open := by
    cases opensAtPeak with
    | false => exact le_refl dust.val
    | true => exact h
  low_le_close := le_refl dust.val

/-- **A level that can be filled is reached by some bar**: the bar spans the level, and opens
on the side of it that the fill needs. -/
theorem exists_liquidation {level : Decimal} {gapFilled : Bool} (hside : position.side ≠ .both)
    (hlevel : liquidationLevel position costModel = .ok level)
    (hstop : ∀ stopPrice ∈ protection.stopPrice, invalidStop position.side level stopPrice = true)
    (hpos : 0 < level)
    (hfill : fillSynthetic position candle.openTime .liquidation level candle.closeTime costModel
      gapFilled = .ok fill) :
    ∃ bar, resolveTriggers position [bar] costModel protection none = .ok (some fill) := by
  obtain ⟨peak, hpeak, hdust⟩ := exists_le_toDecimal (level + 1)
  have hbelow : level < toDecimal peak := by linarith
  obtain ⟨opensAtPeak, hreference⟩ : ∃ opensAtPeak,
      protectionReference position.side (spanningBar candle peak opensAtPeak hdust) level
        .liquidation = (level, gapFilled) := by
    cases hlong : position.side with
    | long =>
      -- a long gaps through its level when the bar opens below it
      refine ⟨!gapFilled, ?_⟩
      cases gapFilled with
      | false =>
        simp only [protectionReference, spanningBar, Bool.not_false, if_true, Prod.mk.injEq,
          true_and, decide_eq_false_iff_not, not_lt]
        exact hbelow.le
      | true =>
        simp only [protectionReference, spanningBar, Bool.not_true, Bool.false_eq_true, if_false,
          toDecimal_dust, Prod.mk.injEq, true_and, decide_eq_true_eq]
        exact hpos
    | short =>
      refine ⟨gapFilled, ?_⟩
      cases gapFilled with
      | false =>
        simp only [protectionReference, spanningBar, Bool.false_eq_true, if_false,
          toDecimal_dust, Prod.mk.injEq, true_and, decide_eq_false_iff_not, not_lt]
        exact hpos.le
      | true =>
        simp only [protectionReference, spanningBar, if_true, Prod.mk.injEq, true_and,
          decide_eq_true_eq]
        exact hbelow
    | both => exact absurd hlong hside
  set bar := spanningBar candle peak opensAtPeak hdust with hbar
  have hit : liquidationTriggered position.side level (adverseExtreme position.side bar) =
      .ok true := by
    have hlow : toDecimal bar.low = 0 := toDecimal_dust
    have hhigh : bar.high = peak := rfl
    cases hlong : position.side with
    | long =>
      simp only [liquidationTriggered, adverseExtreme, if_true, hlow, hpos.le, decide_true]
    | short =>
      simp only [liquidationTriggered, adverseExtreme, reduceCtorEq, if_false, hhigh, hbelow.le,
        decide_true]
    | both => exact absurd hlong hside
  refine ⟨bar, resolveTriggers_single hside ?_⟩
  have hopen : bar.openTime = candle.openTime := rfl
  have hclose : bar.closeTime = candle.closeTime := rfl
  unfold resolveCandle
  simp only [bind, Except.bind, hlevel, hit, triggerOf_of_hit hstop, hreference, hopen, hclose,
    hfill]
  rfl

/-- A spot entry of no direction has no level. -/
theorem IsSpotEntry.side_ne_both (hspot : IsSpotEntry position) {level : Decimal}
    (hlevel : liquidationLevel position costModel = .ok level) : position.side ≠ .both := by
  intro hboth
  obtain ⟨entry, leverage, hopened⟩ := hspot
  obtain ⟨hfields, -⟩ := Position.postInit_eq_ok hopened
  have hunset : position.liquidationPrice ≤ 0 := by
    rw [hfields]
    exact (quantizeAmount_quantizeAmount 0).trans quantizeAmount_zero |>.le
  unfold liquidationLevel liquidationPrice at hlevel
  rw [if_pos hunset, hboth] at hlevel
  simp only [Except.bind_eq_ok] at hlevel
  obtain ⟨_, ⟨_, -, _, -, _, -, hthrow⟩, -⟩ := hlevel
  cases hthrow

/-- **Spot positions are safe exactly when they are sheltered.** A level of zero is read as none
that is set, and one is computed from the leverage. No list of later candles liquidates the
position if and only if a stop comes before that level, or nothing is filled there, or there is
none. -/
theorem neverLiquidated_iff_sheltered (position : Position) (costModel : BacktestCostModel)
    (protection : Protection) (hspot : IsSpotEntry position) :
    NeverLiquidated position costModel protection ↔ Sheltered position costModel protection := by
  have hquantity : IsMoney position.quantity := by
    obtain ⟨entry, leverage, hopened⟩ := hspot
    obtain ⟨hfields, -⟩ := Position.postInit_eq_ok hopened
    rw [hfields]
    exact isMoney_quantizeAmount _
  constructor
  · intro hnever level hlevel
    by_contra hexposed
    rw [not_or] at hexposed
    obtain ⟨hstop, hfilled⟩ := hexposed
    simp only [not_forall, not_not] at hfilled
    obtain ⟨candle, gapFilled, fill, hfill⟩ := hfilled
    obtain ⟨order, -, hexecution, -⟩ := fillSynthetic_eq_ok hquantity hfill
    -- a fill has a positive reference price, so the level is positive
    have hpos : 0 < level := by
      have hreference := fill.referencePrice_pos
      rw [hexecution.referencePrice_eq, quantizeAmount_pos_iff] at hreference
      exact lt_trans (half_pos qAmount_pos) hreference
    obtain ⟨bar, hexit⟩ := exists_liquidation (hspot.side_ne_both hlevel) hlevel
      (fun stopPrice hmem => by
        by_contra hvalid
        exact hstop ⟨stopPrice, hmem, Bool.not_eq_true _ ▸ hvalid⟩) hpos hfill
    exact hnever _ _ _ hexit hexecution.exitReason_eq
  · intro hsheltered candles entryTime fill hexit hliquidation
    unfold resolveTriggers at hexit
    rw [Except.bind_eq_ok] at hexit
    obtain ⟨_, -, hexit⟩ := hexit
    obtain ⟨candle, -, htrigger⟩ := resolveSorted_eq_ok hexit
    obtain ⟨level, hit, reason, triggerLevel, hlevel, hhit, htriggered, hfill⟩ := htrigger.trigger
    obtain ⟨order, -, hexecution, -⟩ := fillSynthetic_eq_ok hquantity hfill
    rw [hexecution.exitReason_eq] at hliquidation
    cases hliquidation
    obtain ⟨rfl, hstop⟩ := triggerOf_eq_liquidation hhit htriggered
    rcases hsheltered _ hlevel with ⟨stopPrice, hmem, hvalid⟩ | hunfilled
    · rw [hstop stopPrice hmem] at hvalid
      cases hvalid
    · have hreference : (protectionReference position.side candle triggerLevel .liquidation).1 =
          triggerLevel := by
        cases position.side <;> rfl
      rw [hreference] at hfill
      exact hunfilled _ _ _ hfill

/-! ### A spot long at leverage ten -/

/-- One unit bought on the spot market at one hundred, by a signal of leverage ten. -/
def tenTimesSpot : Position where
  symbol := "BTCUSDT"
  quantity := 1
  averagePrice := 100
  totalCost := 100
  currentPrice := 100
  unrealizedPnl := 0
  side := .long
  marketType := .spot
  leverage := 10
  marginType := .isolated
  margin := 100
  entryPrice := 100
  markPrice := 100
  liquidationPrice := 0
  fundingFeeTotal := 0

theorem isSpotEntry_tenTimesSpot : IsSpotEntry tenTimesSpot :=
  ⟨PositionBook.wholeFill false 1 100 (Nat.succ_pos _) (Nat.succ_pos _), 10, by decide +kernel⟩

/-- The level of a futures position at leverage ten and the default maintenance margin. -/
theorem liquidationLevel_tenTimesSpot :
    liquidationLevel tenTimesSpot (.standard .spot) = .ok (904 / 10) := by decide +kernel

/-- A stop at ninety-five shelters it. -/
theorem neverLiquidated_of_stop_at_ninety_five :
    NeverLiquidated tenTimesSpot (.standard .spot) ⟨some 95, none⟩ := by
  refine (neverLiquidated_iff_sheltered _ _ _ isSpotEntry_tenTimesSpot).2 ?_
  intro level hlevel
  rw [liquidationLevel_tenTimesSpot] at hlevel
  cases hlevel
  exact Or.inl ⟨95, rfl, by norm_num [invalidStop, tenTimesSpot]⟩

theorem fallen_pos : Binary64.zero < Binary64.ofRat 90 :=
  Binary64.zero_lt_ofRat (by norm_num)

/-- The next hour, ten percent below the entry. -/
def fallenBar : Candle :=
  Candle.flat "BTCUSDT" ⟨1, .hours, Nat.one_pos⟩ 0 (Binary64.ofRat 90) fallen_pos

/-- Without a stop the position is liquidated, though nothing was borrowed. -/
theorem not_neverLiquidated_of_ten_times :
    IsSpotEntry tenTimesSpot ∧ ¬NeverLiquidated tenTimesSpot (.standard .spot) ⟨none, none⟩ := by
  refine ⟨isSpotEntry_tenTimesSpot, fun hnever => ?_⟩
  obtain ⟨exit, hexit, htest⟩ := exists_of_returnsWith
    (show returnsWith (resolveTriggers tenTimesSpot [fallenBar] (.standard .spot) ⟨none, none⟩ none)
      (Option.any fun fill => decide (fill.exitReason = some .liquidation)) = true by
        decide +kernel)
  cases exit with
  | none => cases htest
  | some fill => exact hnever _ _ _ hexit (of_decide_eq_true htest)

end Matcher
end TradingSystem
