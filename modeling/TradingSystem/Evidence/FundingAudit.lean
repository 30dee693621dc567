import TradingSystem.Engine.FundingRun
import TradingSystem.Engine.Simulation
import TradingSystem.Evidence.Schema
import TradingSystem.Logic.MapM
import Mathlib.Data.Finset.Sort

/-!
# The funding audit

The audit reads the stored TRADE and FUNDING_SETTLEMENT rows, recomputes the boundaries of
every trade from its entry and exit and compares: their instants, the sum of the payments, and
the payments short of the theoretical amount. `fundingFailures_eq_nil` says that it reports
nothing where every trade is settled once; `settledOnce_of_missesNoBoundary` is the statement
about whole runs.
-/

namespace TradingSystem

open Numeric Logic Engine

/-! ### Stored settlements -/

/-- A stored FUNDING_SETTLEMENT row. -/
structure StoredFunding where
  settlementId : ℕ
  tradeId : ℕ
  settledAt : ℤ
  symbol : String
  positionSide : PositionSide
  fundingRate : Binary64
  rateSource : FundingRateSource
  settlePrice : ℤ
  settlePriceSource : SettlePriceSource
  positionNotional : ℤ
  paymentAmount : ℤ
  theoreticalPaymentAmount : ℤ
deriving DecidableEq

/-- The normalization of a FUNDING_SETTLEMENT row. -/
def FundingRow.store (row : FundingRow) : Except Fault StoredFunding := do
  let settlePrice ← scaleDecimal row.settlePrice
  let positionNotional ← scaleDecimal row.positionNotional
  let paymentAmount ← scaleDecimal row.paymentAmount
  let theoreticalPaymentAmount ← scaleDecimal row.theoreticalPaymentAmount
  return {
    settlementId := row.settlementId
    tradeId := row.tradeId
    settledAt := wholeMilliseconds row.settledAt
    symbol := row.symbol
    positionSide := row.positionSide
    fundingRate := row.fundingRate
    rateSource := row.rateSource
    settlePrice := settlePrice
    settlePriceSource := row.settlePriceSource
    positionNotional := positionNotional
    paymentAmount := paymentAmount
    theoreticalPaymentAmount := theoreticalPaymentAmount }

/-- What the audit reads of a stored settlement is what was recorded. -/
theorem FundingRow.store_eq_ok {row : FundingRow} {stored : StoredFunding}
    (h : row.store = .ok stored) :
    stored.tradeId = row.tradeId ∧ stored.settledAt = wholeMilliseconds row.settledAt ∧
      row.paymentAmount = stored.paymentAmount * qAmount ∧
      row.theoreticalPaymentAmount = stored.theoreticalPaymentAmount * qAmount := by
  unfold FundingRow.store at h
  simp only [Except.bind_eq_ok] at h
  obtain ⟨_, -, _, -, _, hpayment, _, htheoretical, h⟩ := h
  cases h
  exact ⟨rfl, rfl, (scaleDecimal_eq_ok.1 hpayment).1, (scaleDecimal_eq_ok.1 htheoretical).1⟩

/-- What the audit reads of a stored trade is what was recorded. -/
theorem TradeRow.store_reads {row : TradeRow} {stored : StoredTrade} (h : row.store = .ok stored) :
    stored.tradeId = row.tradeId ∧ stored.marketType = row.trade.marketType ∧
      stored.entryTime = wholeMilliseconds row.trade.entryTime ∧
      stored.exitTime = wholeMilliseconds row.trade.exitTime ∧
      row.trade.fundingCost = stored.fundingCost * qAmount ∧
      stored.liquidated = row.trade.liquidated := by
  unfold TradeRow.store at h
  simp only [Except.bind_eq_ok] at h
  obtain ⟨_, -, _, -, _, -, _, -, _, -, _, -, _, -, _, -, _, hfunding, _, -, _, -, h⟩ := h
  cases h
  exact ⟨rfl, rfl, rfl, rfl, (scaleDecimal_eq_ok.1 hfunding).1, rfl⟩

/-! ### The audit -/

inductive FundingReason
  | boundaryCountOrTimestamp | paymentSignIdentity | isolatedMarginCap
deriving DecidableEq

/-- A finding of the audit. -/
structure FundingFailure where
  tradeId : ℕ
  reasons : List FundingReason
  expectedBoundaries : List ℤ
  actualBoundaries : List ℤ
  fundingCost : ℤ
  negativePaymentTotal : ℤ
  invalidCappedBoundaries : List ℤ
deriving DecidableEq

/-- The boundaries a trade has to settle, as `boundaries_between` lists them. A stored millisecond
is the instant `datetime.fromtimestamp(value / 1000)` gives back. -/
def expectedBoundaries (trade : StoredTrade) : Except Fault (Finset ℤ) :=
  if trade.marketType = .futures then do
    require (trade.entryTime * Instant.millisecond ≤ trade.exitTime * Instant.millisecond)
      (.valueError "funding boundary interval end must not precede start")
    let boundaries := listedBoundaries (trade.entryTime * Instant.millisecond)
      (trade.exitTime * Instant.millisecond)
    return (boundaries.map wholeMilliseconds).toFinset
  else return ∅

/-- The boundaries whose payment is beyond the theoretical one, or short of it without a
liquidation in the next millisecond. -/
def invalidCaps (trade : StoredTrade) (rows : List StoredFunding) : List ℤ :=
  (rows.filter fun row => |row.theoreticalPaymentAmount| < |row.paymentAmount| ∨
    (row.paymentAmount ≠ row.theoreticalPaymentAmount ∧
      (trade.liquidated = false ∨ trade.exitTime ≠ row.settledAt + 1))).map (·.settledAt)

/-- What is wrong with the settlements of a trade. -/
def fundingReasons (trade : StoredTrade) (expected : Finset ℤ) (rows : List StoredFunding) :
    List FundingReason :=
  (if (rows.map (·.settledAt)).toFinset ≠ expected ∨ rows.length ≠ expected.card then
    [.boundaryCountOrTimestamp] else []) ++
  (if -(rows.map (·.paymentAmount)).sum ≠ trade.fundingCost then [.paymentSignIdentity] else []) ++
  (if invalidCaps trade rows ≠ [] then [.isolatedMarginCap] else [])

/-- The audit of one trade. Every stored trade is completed, so its exit and funding are
there. -/
def auditFunding (settlements : List StoredFunding) (trade : StoredTrade) :
    Except Fault (Option FundingFailure) := do
  let expected ← expectedBoundaries trade
  let rows := settlements.filter fun row => row.tradeId = trade.tradeId
  let reasons := fundingReasons trade expected rows
  if reasons = [] then return none
  else return some {
    tradeId := trade.tradeId
    reasons := reasons
    expectedBoundaries := expected.sort
    actualBoundaries := (rows.map (·.settledAt)).toFinset.sort
    fundingCost := trade.fundingCost
    negativePaymentTotal := -(rows.map (·.paymentAmount)).sum
    invalidCappedBoundaries := invalidCaps trade rows }

/-- `ORDER BY trade_id, settled_at`. -/
def StoredFunding.le (row row' : StoredFunding) : Bool :=
  decide (row.tradeId < row'.tradeId ∨
    (row.tradeId = row'.tradeId ∧ row.settledAt ≤ row'.settledAt))

def fundingFailures (trades : List StoredTrade) (settlements : List StoredFunding) :
    Except Fault (List FundingFailure) := do
  let findings ← (trades.mergeSort fun trade trade' => trade.tradeId ≤ trade'.tradeId).mapM
    (auditFunding (settlements.mergeSort StoredFunding.le))
  return findings.reduceOption

/-! ### What it accepts -/

variable {row : TradeRow} {trade : StoredTrade} {recorded : List FundingRow}
  {rows : List StoredFunding}

/-- The recorded milliseconds of boundaries tell them apart. -/
theorem wholeMilliseconds_injOn {b c : ℤ} (hb : isBoundary b = true) (hc : isBoundary c = true)
    (h : wholeMilliseconds b = wholeMilliseconds c) : b = c := by
  rw [← wholeMilliseconds_mul (wholeMillisecond_of_isBoundary hb), h,
    wholeMilliseconds_mul (wholeMillisecond_of_isBoundary hc)]

/-- The stored instants are those of the recorded settlements. -/
theorem settledAt_stored
    (hrows : List.Forall₂ (fun row stored => FundingRow.store row = .ok stored) recorded rows) :
    rows.map (·.settledAt) = (recorded.map (·.settledAt)).map wholeMilliseconds := by
  induction hrows with
  | nil => rfl
  | cons hstore _ ih =>
    rw [List.map_cons, List.map_cons, List.map_cons, ih, (FundingRow.store_eq_ok hstore).2.1]

/-- One stored row for each expected boundary. -/
theorem length_settled (hsettled : SettledOnce row recorded)
    (hrows : List.Forall₂ (fun row stored => FundingRow.store row = .ok stored) recorded rows) :
    rows.length = (rows.map (·.settledAt)).toFinset.card := by
  have hnodup : (rows.map (·.settledAt)).Nodup := by
    rw [settledAt_stored hrows]
    refine List.Nodup.map_on (fun b hb c hc heq => ?_) hsettled.nodup
    exact wholeMilliseconds_injOn ((hsettled.mem_iff b).1 hb).2.1 ((hsettled.mem_iff c).1 hc).2.1
      heq
  rw [List.toFinset_card_of_nodup hnodup, List.length_map]

section Settled

variable (hsettled : SettledOnce row recorded) (hrow : row.store = .ok trade)
  (hrows : List.Forall₂ (fun row stored => FundingRow.store row = .ok stored) recorded rows)
include hsettled hrow hrows

/-- The expected boundaries are the settled ones. -/
theorem expectedBoundaries_settled (hentry : WholeMillisecond row.trade.entryTime)
    (hexit : WholeMillisecond row.trade.exitTime)
    (hspan : row.trade.entryTime ≤ row.trade.exitTime) :
    expectedBoundaries trade = .ok (rows.map (·.settledAt)).toFinset := by
  obtain ⟨-, hmarket, hentered, hexited, -⟩ := TradeRow.store_reads hrow
  rw [settledAt_stored hrows]
  unfold expectedBoundaries
  rw [hmarket, hentered, hexited, wholeMilliseconds_mul hentry, wholeMilliseconds_mul hexit]
  by_cases hfutures : row.trade.marketType = .futures
  · rw [if_pos hfutures]
    rw [require, if_pos hspan]
    -- both list the boundaries after the entry and up to the exit
    have hlist : ∀ b, b ∈ listedBoundaries row.trade.entryTime row.trade.exitTime ↔
        b ∈ recorded.map (·.settledAt) := by
      intro b
      rw [hsettled.mem_iff]
      constructor
      · intro hmem
        obtain ⟨hafter, hbefore, hb⟩ := mem_listedBoundaries hmem
        exact ⟨hfutures, hb, hafter, hbefore⟩
      · rintro ⟨-, hb, hafter, hbefore⟩
        exact mem_listedBoundaries_of hafter hbefore hb
    refine congrArg Except.ok (Finset.ext fun millis => ?_)
    simp only [List.mem_toFinset, List.mem_map (f := wholeMilliseconds), hlist]
  · rw [if_neg hfutures]
    have hempty : recorded.map (·.settledAt) = [] := by
      rw [List.eq_nil_iff_forall_not_mem]
      exact fun b hb => hfutures ((hsettled.mem_iff b).1 hb).1
    rw [hempty]
    rfl

/-- The funding of the trade is what the stored payments cost. -/
theorem fundingCost_settled : -(rows.map (·.paymentAmount)).sum = trade.fundingCost := by
  have hsum : (recorded.map (·.paymentAmount)).sum =
      ((rows.map (·.paymentAmount)).sum : ℤ) * qAmount := by
    clear hsettled hrow
    induction hrows with
    | nil => simp
    | cons hstore _ ih =>
      rw [List.map_cons, List.map_cons, List.sum_cons, List.sum_cons, ih,
        (FundingRow.store_eq_ok hstore).2.2.1]
      push_cast
      ring
  obtain ⟨-, -, -, -, hfunding, -⟩ := TradeRow.store_reads hrow
  have hcost := hsettled.fundingCost_eq
  rw [hfunding, hsum, ← neg_mul] at hcost
  have hunits := mul_right_cancel₀ qAmount_pos.ne' hcost
  exact_mod_cast hunits.symm

/-- Payments short of the theoretical ones are those of liquidations. -/
theorem invalidCaps_settled : invalidCaps trade rows = [] := by
  obtain ⟨-, -, -, hexited, -, hliquidated⟩ := TradeRow.store_reads hrow
  unfold invalidCaps
  rw [List.map_eq_nil_iff, List.filter_eq_nil_iff]
  intro stored hstored
  rw [decide_eq_true_eq]
  -- the recorded row of the stored one
  obtain ⟨settlement, hsettlement, hstore⟩ : ∃ settlement ∈ recorded,
      FundingRow.store settlement = .ok stored := by
    clear hsettled hrow
    induction hrows with
    | nil => cases hstored
    | cons hfirst _ ih =>
      rcases List.mem_cons.1 hstored with rfl | hmem
      · exact ⟨_, List.mem_cons_self .., hfirst⟩
      · obtain ⟨settlement, hmem', hstore⟩ := ih hmem
        exact ⟨settlement, List.mem_cons_of_mem _ hmem', hstore⟩
  obtain ⟨-, hat, hpayment, htheoretical⟩ := FundingRow.store_eq_ok hstore
  obtain ⟨hle, hshort⟩ := hsettled.paid settlement hsettlement
  rw [hpayment, htheoretical] at hle hshort
  rintro (hlt | ⟨hne, hreason⟩)
  · rw [abs_mul, abs_mul, mul_le_mul_iff_left₀ (abs_pos.2 qAmount_pos.ne')] at hle
    have hunits : |stored.paymentAmount| ≤ |stored.theoreticalPaymentAmount| := by
      exact_mod_cast hle
    omega
  · obtain ⟨hliquidation, hnext⟩ := hshort fun heq =>
      hne (by exact_mod_cast mul_right_cancel₀ qAmount_pos.ne' heq)
    have hb : isBoundary settlement.settledAt = true :=
      ((hsettled.mem_iff _).1 (List.mem_map_of_mem hsettlement)).2.1
    have hwhole := wholeMillisecond_of_isBoundary hb
    have hmillis := wholeMilliseconds_mul hwhole
    have hmillis' := wholeMilliseconds_mul (hwhole.add wholeMillisecond_millisecond)
    rw [hliquidated, hliquidation, hexited, hnext, hat] at hreason
    refine hreason.elim (by simp) fun hfar => hfar ?_
    simp only [Instant.millisecond] at hmillis hmillis' ⊢
    omega

/-- **A trade that is settled once** passes the audit. -/
theorem fundingReasons_settled :
    fundingReasons trade (rows.map (·.settledAt)).toFinset rows = [] := by
  unfold fundingReasons
  rw [if_neg, if_neg, if_neg]
  · rfl
  · exact not_not_intro (invalidCaps_settled hsettled hrow hrows)
  · exact not_not_intro (fundingCost_settled hsettled hrow hrows)
  · rintro (hne | hne)
    · exact hne rfl
    · exact hne (length_settled hsettled hrows)

end Settled

/-- **The audit reports nothing** where every trade is settled once. -/
theorem fundingFailures_eq_nil {tradeRows : List TradeRow} {fundingRows : List FundingRow}
    {trades : List StoredTrade} {settlements : List StoredFunding}
    (htrades : tradeRows.mapM TradeRow.store = .ok trades)
    (hsettlements : fundingRows.mapM FundingRow.store = .ok settlements)
    (hsettled : ∀ row ∈ tradeRows,
      SettledOnce row (fundingRows.filter fun settlement => settlement.tradeId = row.tradeId))
    (htimes : ∀ row ∈ tradeRows, WholeMillisecond row.trade.entryTime ∧
      WholeMillisecond row.trade.exitTime ∧ row.trade.entryTime ≤ row.trade.exitTime) :
    fundingFailures trades settlements = .ok [] := by
  have haudit : ∀ trade ∈ trades.mergeSort fun trade trade' => trade.tradeId ≤ trade'.tradeId,
      auditFunding (settlements.mergeSort StoredFunding.le) trade = .ok none := by
    intro trade htrade
    obtain ⟨row, hmem, hrow⟩ := (mem_of_mapM htrades).1 ((List.mergeSort_perm ..).mem_iff.1 htrade)
    obtain ⟨hentry, hexit, hspan⟩ := htimes row hmem
    have hid := (TradeRow.store_reads hrow).1
    -- the rows of the trade, as they are recorded and as the query orders them
    have hstored : List.Forall₂ (fun row stored => FundingRow.store row = .ok stored)
        (fundingRows.filter fun settlement => settlement.tradeId = row.tradeId)
        (settlements.filter fun settlement => settlement.tradeId = trade.tradeId) := by
      refine List.rel_filter (fun settlement stored hstore => ?_) (forall₂_of_mapM hsettlements)
      change decide (settlement.tradeId = row.tradeId) = true ↔
        decide (stored.tradeId = trade.tradeId) = true
      rw [decide_eq_true_eq, decide_eq_true_eq, (FundingRow.store_eq_ok hstore).1, hid]
    have hordered := ((List.mergeSort_perm settlements StoredFunding.le).filter
      fun settlement => decide (settlement.tradeId = trade.tradeId)).symm
    obtain ⟨recorded, hperm, hrows⟩ : ∃ recorded,
        (fundingRows.filter fun settlement => settlement.tradeId = row.tradeId).Perm recorded ∧
        List.Forall₂ (fun row stored => FundingRow.store row = .ok stored) recorded
          ((settlements.mergeSort StoredFunding.le).filter
            fun settlement => settlement.tradeId = trade.tradeId) := by
      have hcomp : Relation.Comp (List.Forall₂ fun row stored => FundingRow.store row = .ok stored)
          List.Perm _ _ := ⟨_, hstored, hordered⟩
      rw [List.forall₂_comp_perm_eq_perm_comp_forall₂] at hcomp
      exact hcomp
    have hpaid := (hsettled row hmem).perm hperm
    unfold auditFunding
    rw [expectedBoundaries_settled hpaid hrow hrows hentry hexit hspan]
    change (if fundingReasons trade _ _ = [] then _ else _) = _
    rw [if_pos (fundingReasons_settled hpaid hrow hrows)]
    rfl
  obtain ⟨findings, hfindings⟩ := exists_mapM fun trade htrade => ⟨_, haudit trade htrade⟩
  unfold fundingFailures
  rw [hfindings]
  refine congrArg Except.ok (List.filterMap_eq_nil_iff.2 fun finding hfinding => ?_)
  obtain ⟨trade, htrade, hresult⟩ := (mem_of_mapM hfindings).1 hfinding
  rw [haudit trade htrade] at hresult
  cases hresult
  rfl

/-! ### Whole runs -/

namespace Engine

variable {input : RunInput} {state : RunState}

/-- The TRADE rows of the evidence. -/
def tradeRow? : EvidenceRecord → Option TradeRow
  | .trade row => some row
  | _ => none

theorem mem_tradeRows {records : List EvidenceRecord} {row : TradeRow} :
    row ∈ records.filterMap tradeRow? ↔ .trade row ∈ records := by
  rw [List.mem_filterMap]
  constructor
  · rintro ⟨record, hrecord, hrow⟩
    cases record <;> cases hrow
    exact hrecord
  · exact fun h => ⟨.trade row, h, rfl⟩

/-- The funding of the evidence: every completed futures trade has exactly one settlement at
each boundary between its entry and its exit, at the exit included, and no other; its funding
is what they cost; and the audit of the stored rows reports nothing. -/
structure FundingSettled (records : List EvidenceRecord) : Prop where
  exactlyOnce : ∀ row, .trade row ∈ records → row.trade.marketType = .futures → ∀ t,
    ((settlementsOf records row.tradeId).map (·.settledAt)).count t =
      if isBoundary t = true ∧ row.trade.entryTime < t ∧ t ≤ row.trade.exitTime then 1 else 0
  fundingCost_eq : ∀ row, .trade row ∈ records → row.trade.marketType = .futures →
    row.trade.fundingCost = -((settlementsOf records row.tradeId).map (·.paymentAmount)).sum
  audited : ∀ trades settlements, (records.filterMap tradeRow?).mapM TradeRow.store = .ok trades →
    (records.filterMap fundingRow?).mapM FundingRow.store = .ok settlements →
      fundingFailures trades settlements = .ok []

/-- **Funding is settled once** in every state of a run that misses no boundary: each completed
futures trade has one settlement for every boundary after its entry and up to its exit, its
funding cost is what they paid, and the audit of the stored rows finds nothing. -/
theorem fundingSettled_of_missesNoBoundary
    (h : (system input).ReachableVia (MissesNoBoundary input) state) :
    FundingSettled state.2.records := by
  obtain ⟨t, hfunded⟩ := funded_of_reachableVia h
  obtain ⟨held, hcoherent, -⟩ := inv_of_reachable h.reachable
  refine ⟨fun row hrow hfutures b => ?_,
    fun row hrow _ => (hfunded.settledOnce row hrow).fundingCost_eq,
    fun trades settlements htrades hsettlements => ?_⟩
  · have hsettled := hfunded.settledOnce row hrow
    have hmem := hsettled.mem_iff b
    split_ifs with hinside
    · exact List.count_eq_one_of_mem hsettled.nodup (hmem.2 ⟨hfutures, hinside⟩)
    · exact List.count_eq_zero_of_not_mem fun hb => hinside (hmem.1 hb).2
  · refine fundingFailures_eq_nil htrades hsettlements
      (fun row hrow => hfunded.settledOnce row (mem_tradeRows.1 hrow)) fun row hrow => ?_
    -- a recorded trade is the one of an exit after its entry
    obtain ⟨active, exitFill, _, trade, rfl, htrade, hactive, hlater, hwhole⟩ :=
      hcoherent.genuine _ (mem_tradeRows.1 hrow)
    obtain ⟨-, hentry, hexit, -⟩ := completedTrade_takes htrade
    change WholeMillisecond trade.entryTime ∧ WholeMillisecond trade.exitTime ∧
      trade.entryTime ≤ trade.exitTime
    rw [hentry, hexit]
    exact ⟨hactive.wholeMillisecond, hwhole, hlater.le⟩

/-! ### A gap that a remainder crosses -/

/-- A run at its end whose completed trade misses a boundary. -/
def endsUnsettled (t : ℤ) (state : RunState) : Bool :=
  match state.1 with
  | .finished => (state.2.records.filterMap tradeRow?).any fun row =>
    decide (row.trade.marketType = .futures ∧ isBoundary t = true ∧ row.trade.entryTime < t ∧
      t ≤ row.trade.exitTime ∧
      ((settlementsOf state.2.records row.tradeId).map (·.settledAt)).count t = 0)
  | _ => false

theorem not_fundingSettled_of_endsUnsettled {t : ℤ} (h : endsUnsettled t state = true) :
    ¬FundingSettled state.2.records := by
  unfold endsUnsettled at h
  split at h
  · obtain ⟨row, hrow, hmiss⟩ := List.any_eq_true.1 h
    obtain ⟨hfutures, hb, hafter, hbefore, hnone⟩ := of_decide_eq_true hmiss
    intro hsettled
    have hone := hsettled.exactlyOnce row (mem_tradeRows.1 hrow) hfutures t
    rw [if_pos ⟨hb, hafter, hbefore⟩, hnone] at hone
    cases hone
  · cases h

theorem riskOfOnePercent_isValid : (SizingMethod.riskBased onePercent).Valid := by decide +kernel

def priceOfOne : Price := ⟨Binary64.ofRat 1, oneDollar_pos⟩

def priceOfTwo : Price := ⟨Binary64.ofRat 2, twoDollars_pos⟩

theorem unleveraged_pos : ∀ value ∈ (none : Option ℕ), 0 < value := by simp

/-- Enter at the first bar, with a stop one dollar away. -/
def enterOnly (requested : Binary64) : ℕ → StrategyAnswer
  | 0 => .signal (hourlySignal .futures priceOfTwo (some priceOfOne) none none (some requested)
      unleveraged_pos)
  | _ => .nothing

/-- An hourly futures market at two dollars with a bar at each of these hours. -/
def fundingRun (initialCapital : Decimal) (requested : Binary64) (hours : List ℕ)
    (hcapital : 0 < initialCapital) (hhours : (hours.map fun hour => (hour, priceOfTwo)).Pairwise
      fun left right => left.1 < right.1) : RunInput :=
  hourly .futures initialCapital (.riskBased onePercent) (hours.map fun hour => (hour, priceOfTwo))
    (enterOnly requested) hcapital riskOfOnePercent_isValid hhours

/-- No bar follows a gap or ends a millisecond before a boundary. -/
def avoidsBoundaries (state : RunState) : Bool :=
  match state.1 with
  | .carrying bar _ => !isBoundary (bar.candle.openTime + Instant.millisecond)
  | .afterClose ⟨_, candle, []⟩ => !isBoundary (candle.closeTime + Instant.millisecond)
  | .afterClose ⟨_, candle, next :: _⟩ => decide (next.openTime = candle.closeTime)
  | _ => true

theorem missesNoBoundary_of_avoids (h : avoidsBoundaries state = true) :
    MissesNoBoundary input state := by
  obtain ⟨phase, s⟩ := state
  intro _ position _
  cases phase with
  | carrying bar orders =>
    cases orders with
    | nil => trivial
    | cons pending orders => exact fun _ _ => by simpa [avoidsBoundaries] using h
  | afterClose bar =>
    obtain ⟨index, candle, rest⟩ := bar
    cases rest with
    | nil => exact fun _ => by simpa [avoidsBoundaries] using h
    | cons next rest => exact fun hgap => absurd (by simpa [avoidsBoundaries] using h) hgap
  | _ => trivial

/-- A hundred units held from seven to nine pay at eight. -/
theorem fundingSettled_of_hundred_units : ∃ state : RunState,
    (state.2.records.filterMap fundingRow?).length = 1 ∧
      (state.2.records.filterMap tradeRow?).length = 1 ∧ FundingSettled state.2.records := by
  obtain ⟨state, hstate, htest⟩ := exists_of_simulated
    (fundingRun 100000 (Binary64.ofRat 100) [6, 7, 8] (by norm_num) (by decide)) avoidsBoundaries 20
    (fun state => decide ((state.2.records.filterMap fundingRow?).length = 1 ∧
      (state.2.records.filterMap tradeRow?).length = 1)) (by decide +kernel)
  obtain ⟨hfunding, htrades⟩ := of_decide_eq_true htest
  exact ⟨state, hfunding, htrades, fundingSettled_of_missesNoBoundary
    (reachableVia_of_simulated (fun _ => missesNoBoundary_of_avoids) hstate)⟩

/-- 67108864.00000002 units entered at two are closed at three, for want of bars until ten. Their
float leaves a unit of `10^(-8)` that crosses the boundary at eight unpaid and is closed at
eleven. -/
theorem not_fundingSettled_of_remainder : ∃ state : RunState,
    (system (fundingRun (6710886400 + 2 / 1000000) (Binary64.ofRat 70000000) [1, 2, 10]
      (by norm_num) (by decide))).Reachable state ∧ ¬FundingSettled state.2.records := by
  obtain ⟨state, hstate, htest⟩ := exists_of_simulated
    (fundingRun (6710886400 + 2 / 1000000) (Binary64.ofRat 70000000) [1, 2, 10] (by norm_num)
      (by decide)) (fun _ => true) 19 (endsUnsettled (8 * Instant.hour)) (by decide +kernel)
  exact ⟨state, reachable_of_simulated hstate, not_fundingSettled_of_endsUnsettled htest⟩

end Engine
end TradingSystem
