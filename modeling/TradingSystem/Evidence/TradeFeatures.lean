import TradingSystem.Engine.JournalRun
import TradingSystem.Engine.EquityCurve
import TradingSystem.Engine.Lookahead
import TradingSystem.Evidence.FundingAudit

/-!
# The features of a trade

A trade is recorded with four rows of indicator values: at its entry, at its exit and at its two
extremes. The values are those of the board at these moments, and a trade can only be open when
the board has a value for each series (`Ready`).

* `Featured` — what holds of the feature rows and of the open trade, in every state.
* `tradeFeatureFailures_of_reachable` — when the audit of the features finds nothing.
-/

namespace TradingSystem

open Numeric Logic Engine

/-! ### The check -/

/-- The TRADE_FEATURE_SNAPSHOT rows of the evidence. -/
def featureRow? : EvidenceRecord → Option FeatureRow
  | .feature row => some row
  | _ => none

theorem mem_featureRows {records : List EvidenceRecord} {row : FeatureRow} :
    row ∈ records.filterMap featureRow? ↔ .feature row ∈ records := by
  rw [List.mem_filterMap]
  constructor
  · rintro ⟨record, hrecord, hrow⟩
    cases record <;> cases hrow
    exact hrecord
  · exact fun h => ⟨.feature row, h, rfl⟩

/-- What the check finds about one trade. -/
def tradeFeatureFailure (rows : List FeatureRow) (tradeId : ℕ) : Option String :=
  let own := rows.filter fun row => row.tradeId = tradeId
  if (own.map (·.phase)).toFinset ≠ {.entry, .exit, .mae, .mfe} ∨ own.length ≠ 4 then
    some ("trade_feature_phases:" ++ toString tradeId)
  else if ∃ row ∈ own, row.features = [] then some ("empty_trade_features:" ++ toString tradeId)
  else none

def tradeFeatureFailures (trades : List TradeRow) (rows : List FeatureRow) : List String :=
  ((trades.map (·.tradeId)).mergeSort fun left right => decide (left ≤ right)).filterMap
    (tradeFeatureFailure rows)

theorem tradeFeatureFailures_eq_nil {trades : List TradeRow} {rows : List FeatureRow} :
    tradeFeatureFailures trades rows = [] ↔
      ∀ trade ∈ trades, tradeFeatureFailure rows trade.tradeId = none := by
  unfold tradeFeatureFailures
  rw [List.filterMap_eq_nil_iff]
  constructor
  · exact fun h trade htrade => h _ (List.mem_mergeSort.2 (List.mem_map_of_mem htrade))
  · intro h tradeId htradeId
    obtain ⟨trade, htrade, rfl⟩ := List.mem_map.1 (List.mem_mergeSort.1 htradeId)
    exact h trade htrade

/-- With one row for each phase only the values can be missing. -/
theorem tradeFeatureFailure_eq_none {rows : List FeatureRow} {tradeId : ℕ}
    (hnodup : ((rows.filter fun row => row.tradeId = tradeId).map (·.phase)).Nodup)
    (hphases : ∀ phase, ∃ row ∈ rows, row.tradeId = tradeId ∧ row.phase = phase) :
    tradeFeatureFailure rows tradeId = none ↔
      ∀ row ∈ rows, row.tradeId = tradeId → row.features ≠ [] := by
  have hall : ((rows.filter fun row => row.tradeId = tradeId).map (·.phase)).toFinset =
      {.entry, .exit, .mae, .mfe} := by
    ext phase
    rw [List.mem_toFinset, List.mem_map]
    refine ⟨fun _ => by cases phase <;> simp, fun _ => ?_⟩
    obtain ⟨row, hrow, hown, hphase⟩ := hphases phase
    exact ⟨row, List.mem_filter.2 ⟨hrow, by simpa using hown⟩, hphase⟩
  -- four different phases are four rows
  have hlength : (rows.filter fun row => row.tradeId = tradeId).length = 4 := by
    have hcard := List.toFinset_card_of_nodup hnodup
    rw [hall, List.length_map] at hcard
    exact hcard.symm
  unfold tradeFeatureFailure
  dsimp only
  rw [if_neg (by rw [not_or, not_not, not_not]; exact ⟨hall, hlength⟩)]
  split
  · next hempty =>
    obtain ⟨row, hrow, hnil⟩ := hempty
    rw [List.mem_filter, decide_eq_true_eq] at hrow
    exact ⟨fun h => (by cases h), fun h => absurd hnil (h row hrow.1 hrow.2)⟩
  · next hfull =>
    refine ⟨fun _ row hrow hown hnil => hfull ⟨row, ?_, hnil⟩, fun _ => rfl⟩
    rw [List.mem_filter, decide_eq_true_eq]
    exact ⟨hrow, hown⟩

namespace Engine

variable {input : RunInput} {s s' : EngineState} {fill : Fill} {candle : Candle}

/-! ### Values for each series -/

/-- Values for each series of the run, in their order. -/
def Complete (input : RunInput) (features : Features) : Prop :=
  features.map Prod.fst = input.series.specs.map (·.key)

/-- A board with a value for each series. -/
def Ready (input : RunInput) (board : SeriesBoard) : Prop :=
  Complete input (board.features input.series.specs)

theorem ready_of_values {board : SeriesBoard}
    (h : ∀ spec ∈ input.series.specs, ∃ value, board.values spec.key = some value) :
    Ready input board := by
  unfold Ready Complete SeriesBoard.features
  generalize input.series.specs = specs at h
  induction specs with
  | nil => rfl
  | cons spec specs ih =>
    rw [List.forall_mem_cons] at h
    obtain ⟨value, hvalue⟩ := h.1
    rw [List.filterMap_cons, hvalue, Option.map_some, List.map_cons, List.map_cons, ih h.2]

theorem values_of_snapshots {board : SeriesBoard} {specs : List ResolvedSeriesSpec}
    {rows : List EvidenceRecord} (h : List.Forall₂ (IsSnapshot board) specs rows) :
    ∀ spec ∈ specs, ∃ value, board.values spec.key = some value := by
  induction h with
  | nil => simp
  | cons hrow _ ih =>
    obtain ⟨row, source, -, -, hvalue, -⟩ := hrow
    exact List.forall_mem_cons.2 ⟨⟨row.value, hvalue⟩, ih⟩

/-- Values recorded with an open trade. -/
structure Described (input : RunInput) (active : ActiveTrade) : Prop where
  entry : Complete input active.entryFeatures
  mae : ∀ excursion ∈ active.mae, Complete input excursion.features
  mfe : ∀ excursion ∈ active.mfe, Complete input excursion.features

/-- Values at an extreme, or those at the entry. -/
theorem complete_featuresOr {extreme : Option Excursion} {fallback : Features}
    (hextreme : ∀ excursion ∈ extreme, Complete input excursion.features)
    (hfallback : Complete input fallback) :
    Complete input (featuresOr ((extreme.map (·.features)).getD []) fallback) := by
  unfold featuresOr
  split
  · exact hfallback
  · next hne =>
    cases extreme with
    | none => exact absurd rfl hne
    | some excursion => exact hextreme excursion rfl

/-- The four rows of a trade have values for each series. -/
theorem Described.featureRows {active : ActiveTrade} {exitFeatures : Features}
    (h : Described input active) (hexit : Complete input exitFeatures) :
    ∀ item ∈ featureRows active fill exitFeatures, Complete input item.2.2.1 := by
  intro item hitem
  unfold Engine.featureRows at hitem
  simp only [List.mem_cons, List.not_mem_nil, or_false] at hitem
  rcases hitem with rfl | rfl | rfl | rfl
  · exact h.entry
  · exact hexit
  · exact complete_featuresOr h.mae h.entry
  · exact complete_featuresOr h.mfe h.entry

/-- An extreme takes its values from before or from the board. -/
theorem complete_extremum {better : Decimal → Decimal → Bool} {current : Option Excursion}
    {pnl : Decimal} {ts : ℤ} {features : Features} {r0 : Option Decimal}
    (hcurrent : ∀ excursion ∈ current, Complete input excursion.features)
    (hfeatures : Complete input features) :
    ∀ excursion ∈ extremum better current pnl ts features r0,
      Complete input excursion.features := by
  intro excursion hmem
  unfold extremum at hmem
  split at hmem
  · next before =>
    split at hmem
    · cases hmem
      exact hfeatures
    · exact hcurrent excursion hmem
  · cases hmem
    exact hfeatures

theorem Described.tracked {active : ActiveTrade} {position : Position} {features : Features}
    (h : Described input active) (hfeatures : Complete input features) :
    Described input (tracked candle position features active) := by
  unfold Engine.tracked
  split
  · exact h
  · refine ⟨h.entry, fun excursion hmem => ?_, fun excursion hmem => ?_⟩
    · dsimp only at hmem
      exact complete_extremum h.mae hfeatures excursion hmem
    · dsimp only at hmem
      exact complete_extremum h.mfe hfeatures excursion hmem

/-! ### What every state keeps -/

/-- **Features in every state.** Rows have values for each series, a completed trade has its four
rows, and where a trade is open the board is ready. -/
structure Featured (input : RunInput) (s : EngineState) : Prop where
  rows : ∀ row, .feature row ∈ s.records → Complete input row.features
  phases : ∀ row, .trade row ∈ s.records → ∀ phase,
    ∃ feature, .feature feature ∈ s.records ∧ feature.tradeId = row.tradeId ∧ feature.phase = phase
  active : ∀ active ∈ s.activeTrade, Ready input s.board ∧ Described input active

/-- **A step of trading** leaves board and queue alone and keeps the features. -/
structure Attends (input : RunInput) (s s' : EngineState) : Prop where
  board_eq : s'.board = s.board
  pending_eq : s'.pending = s.pending
  featured : Featured input s → Featured input s'

theorem Attends.refl (s : EngineState) : Attends input s s := ⟨rfl, rfl, id⟩

theorem Attends.trans {s'' : EngineState} (h : Attends input s s') (h' : Attends input s' s'') :
    Attends input s s'' :=
  ⟨h'.board_eq.trans h.board_eq, h'.pending_eq.trans h.pending_eq,
    fun hs => h'.featured (h.featured hs)⟩

theorem Attends.waiting (h : Attends input s s') : s'.pending ≠ [] → s.pending ≠ [] := by
  rw [h.pending_eq]
  exact id

/-- A row that is neither a trade nor a feature. -/
def Plain : EvidenceRecord → Prop
  | .trade _ | .feature _ => False
  | _ => True

theorem Featured.append (h : Featured input s) (rows : List EvidenceRecord)
    (hrecords : s'.records = s.records ++ rows) (hrows : ∀ row ∈ rows, Plain row)
    (hactive : ∀ active ∈ s'.activeTrade, Ready input s'.board ∧ Described input active) :
    Featured input s' := by
  refine ⟨fun row hrow => ?_, fun row hrow phase => ?_, hactive⟩
  · rw [hrecords, List.mem_append] at hrow
    exact h.rows row (hrow.resolve_right fun hnew => hrows _ hnew)
  · rw [hrecords, List.mem_append] at hrow
    obtain ⟨feature, hfeature, hown⟩ :=
      h.phases row (hrow.resolve_right fun hnew => hrows _ hnew) phase
    refine ⟨feature, ?_, hown⟩
    rw [hrecords]
    exact List.mem_append_left _ hfeature

theorem Attends.of_logs {rows : List EvidenceRecord} (h : Logs rows s s')
    (hrows : ∀ row ∈ rows, Plain row) : Attends input s s' := by
  refine ⟨h.board_eq, h.pending_eq,
    fun hs => hs.append _ h.records_eq hrows fun active hactive => ?_⟩
  rw [h.activeTrade_eq] at hactive
  rw [h.board_eq]
  exact hs.active active hactive

theorem Attends.of_counters (h : Logs [] s s') : Attends input s s' := .of_logs h (by simp)

/-- The open trade may change, its values stay those of the board. -/
theorem Attends.of_active (hboard : s'.board = s.board) (hpending : s'.pending = s.pending)
    (hrecords : s'.records = s.records)
    (hactive : ∀ active' ∈ s'.activeTrade, ∃ active ∈ s.activeTrade, Ready input s.board →
      Described input active → Described input active') : Attends input s s' := by
  refine ⟨hboard, hpending, fun hs => hs.append [] (by rw [hrecords, List.append_nil])
    (by simp) fun active' hactive' => ?_⟩
  obtain ⟨active, hmem, hdescribed⟩ := hactive active' hactive'
  obtain ⟨hready, hbefore⟩ := hs.active active hmem
  rw [hboard]
  exact ⟨hready, hdescribed hready hbefore⟩

/-- **A completed trade** gets its four rows. -/
theorem Featured.complete {active : ActiveTrade} {exitExecutionId : ℕ} {trade : Trade}
    {features : List EvidenceRecord} (h : Featured input s) (hactive : active ∈ s.activeTrade)
    (hfeatures : List.Forall₂ (IsFeatureRow active.tradeId)
      (featureRows (ActiveTrade.addCosts active fill) fill
        (s.board.features input.series.specs)) features)
    (hrecords : s'.records = s.records ++
      completionRows (ActiveTrade.addCosts active fill) exitExecutionId trade features)
    (hnone : s'.activeTrade = none) : Featured input s' := by
  obtain ⟨hready, hdescribed⟩ := h.active active hactive
  have hcosts : Described input (ActiveTrade.addCosts active fill) :=
    ⟨hdescribed.entry, hdescribed.mae, hdescribed.mfe⟩
  have hcomplete := (List.forall₂_and_left _ _).2 ⟨hcosts.featureRows hready, hfeatures⟩
  have hnew : ∀ row, .feature row ∈ features → Complete input row.features := by
    intro row hrow
    refine forall_of_forall₂ (P := fun record => ∀ row, record = .feature row →
      Complete input row.features) hcomplete ?_ _ hrow row rfl
    rintro item _ ⟨hitem, row', rfl, -, -, -, hsame⟩ row hrow
    cases hrow
    rw [hsame]
    exact hitem
  -- among the new rows only the features are features, and only the trade is a trade
  have hrows : ∀ record ∈ completionRows (ActiveTrade.addCosts active fill) exitExecutionId trade
      features,
      record = .trade (tradeRow (ActiveTrade.addCosts active fill) exitExecutionId trade) ∨
        record ∈ features ∨ Plain record := by
    intro record hrecord
    unfold completionRows at hrecord
    simp only [List.mem_cons, List.mem_append, List.mem_map] at hrecord
    rcases hrecord with rfl | ((⟨_, -, rfl⟩ | ⟨_, -, rfl⟩) | ⟨_, -, rfl⟩) | hrecord
    · exact Or.inl rfl
    · exact Or.inr (Or.inr trivial)
    · exact Or.inr (Or.inr trivial)
    · exact Or.inr (Or.inr trivial)
    · exact Or.inr (Or.inl hrecord)
  have hmem : ∀ record ∈ features, record ∈ s'.records := by
    intro record hrecord
    rw [hrecords]
    refine List.mem_append_right _ ?_
    unfold completionRows
    exact List.mem_cons_of_mem _ (List.mem_append_right _ hrecord)
  have hphase : ∀ phase, ∃ feature : FeatureRow, .feature feature ∈ features ∧
      feature.tradeId = active.tradeId ∧ feature.phase = phase := by
    unfold featureRows at hfeatures
    simp only [List.forall₂_cons_left_iff, List.forall₂_nil_left_iff] at hfeatures
    obtain ⟨_, _, ⟨entry, rfl, hentry, hentry', -⟩, ⟨_, _, ⟨exit, rfl, hexit, hexit', -⟩,
      ⟨_, _, ⟨mae, rfl, hmae, hmae', -⟩, ⟨_, _, ⟨mfe, rfl, hmfe, hmfe', -⟩, rfl, rfl⟩, rfl⟩, rfl⟩,
      rfl⟩ := hfeatures
    intro phase
    cases phase with
    | entry => exact ⟨entry, by simp, hentry, hentry'⟩
    | exit => exact ⟨exit, by simp, hexit, hexit'⟩
    | mae => exact ⟨mae, by simp, hmae, hmae'⟩
    | mfe => exact ⟨mfe, by simp, hmfe, hmfe'⟩
  have hold : ∀ record ∈ s.records, record ∈ s'.records := by
    intro record hrecord
    rw [hrecords]
    exact List.mem_append_left _ hrecord
  refine ⟨fun row hrow => ?_, fun row hrow phase => ?_, fun _ hactive' => ?_⟩
  · rw [hrecords, List.mem_append] at hrow
    rcases hrow with hrow | hrow
    · exact h.rows row hrow
    · rcases hrows _ hrow with heq | hrow | hplain
      · cases heq
      · exact hnew row hrow
      · exact hplain.elim
  · rw [hrecords, List.mem_append] at hrow
    rcases hrow with hrow | hrow
    · obtain ⟨feature, hfeature, hown⟩ := h.phases row hrow phase
      exact ⟨feature, hold _ hfeature, hown⟩
    · rcases hrows _ hrow with heq | hrow | hplain
      · cases heq
        obtain ⟨feature, hfeature, hown⟩ := hphase phase
        exact ⟨feature, hmem _ hfeature, hown⟩
      · obtain ⟨feature, heq⟩ := forall_of_forall₂ (P := fun record => ∃ feature, record =
          .feature feature) hfeatures (fun _ _ hrow => ⟨hrow.choose, hrow.choose_spec.1⟩) _ hrow
        cases heq
      · exact hplain.elim
  · rw [hnone] at hactive'
    cases hactive'

/-! ### Fills -/

/-- **A fill** keeps the features; one that may open a trade needs a board that is ready. -/
theorem applyFill_attends {decisionId : Option ℕ} {signal : Option TradingSignal}
    {candidateId : Option ℕ} (hready : s.activeTrade = none → Ready input s.board)
    (h : applyFill input fill decisionId signal candidateId s = .ok ⟨⟩ s') :
    Attends input s s' := by
  obtain ⟨held, executionId, s₁, -, hexecution, h⟩ := applyFill_eq_ok h
  have hfirst : Attends input s s₁ := .of_logs hexecution (by simp [Plain])
  rw [← hexecution.activeTrade_eq, ← hexecution.board_eq] at hready
  refine hfirst.trans ?_
  cases hreduce : fill.reduceOnly with
  | true =>
    rw [hreduce, if_pos rfl] at h
    obtain ⟨_, active, cash, _, book, _, -, hactive, -, -, -, -,
      ⟨_, -, rfl⟩ | ⟨-, trade, features, -, hfeatures, hlogs⟩⟩ := applyExit_eq_ok hreduce h
    · refine .of_active rfl rfl rfl fun active' hactive' => ?_
      cases hactive'
      exact ⟨active, hactive, fun _ hbefore => ⟨hbefore.entry, hbefore.mae, hbefore.mfe⟩⟩
    · exact ⟨hlogs.board_eq, hlogs.pending_eq, fun hs => hs.complete hactive hfeatures
        hlogs.records_eq hlogs.activeTrade_eq⟩
  | false =>
    rw [hreduce, if_neg Bool.false_ne_true] at h
    obtain ⟨_, book, _, -, -, -, -, -, ⟨active, hactive, rfl⟩ |
      ⟨hactive, origin, tradeId, -, hlogs⟩⟩ := applyEntry_eq_ok h.2
    · refine .of_active rfl rfl rfl fun active' hactive' => ?_
      cases hactive'
      exact ⟨active, hactive, fun _ hbefore => ⟨hbefore.entry, hbefore.mae, hbefore.mfe⟩⟩
    · -- a new trade takes the values of the board, and has no extremes yet
      refine ⟨hlogs.board_eq, hlogs.pending_eq, fun hs => ?_⟩
      refine hs.append [] hlogs.records_eq (by simp) fun active' hactive' => ?_
      rw [hlogs.activeTrade_eq] at hactive'
      cases hactive'
      rw [hlogs.board_eq]
      exact ⟨hready hactive, hready hactive, by simp [startedTrade], by simp [startedTrade]⟩

theorem closeAtTerminal_attends {last : Candle} {position : Position} {reason : ExitReason}
    {decisionId : Option ℕ} (hactive : s.activeTrade.isSome = true)
    (h : closeAtTerminal input last position reason decisionId s = .ok ⟨⟩ s') :
    Attends input s s' := by
  obtain ⟨_, _, fill, s₁, -, -, hlogs, hfill⟩ := closeAtTerminal_eq_ok h
  refine Attends.trans (.of_counters hlogs) (applyFill_attends (fun hnone => ?_) hfill)
  rw [hlogs.activeTrade_eq] at hnone
  rw [hnone] at hactive
  cases hactive

/-! ### The open of a bar -/

theorem settleAtBoundary_attends {boundary : ℤ}
    (h : settleAtBoundary input boundary s = .ok ⟨⟩ s') : Attends input s s' := by
  rcases settleAtBoundary_eq_ok h with ⟨rfl, -⟩ | ⟨position, active, -, -, -, hactive, -, -, h⟩
  · exact .refl _
  · obtain ⟨price, cost, held, result, charged, row, s₁, -, -, -, -, -, hlogs, h⟩ := settle_eq_ok h
    have hcharged : Attends input s (settled s position charged active boundary row result) := by
      refine .of_active rfl rfl rfl fun active' hactive' => ?_
      cases hactive'
      exact ⟨active, hactive, fun _ hbefore => ⟨hbefore.entry, hbefore.mae, hbefore.mfe⟩⟩
    have hsettled : Attends input s s₁ := hcharged.trans (.of_counters hlogs)
    cases hexhausted : result.exhausted with
    | false =>
      rw [hexhausted, if_neg Bool.false_ne_true] at h
      rw [h]
      exact hsettled
    | true =>
      rw [hexhausted, if_pos rfl] at h
      obtain ⟨remaining, -, h⟩ := h
      obtain ⟨decision, s₂, fill, hdecision, -, -, hfill⟩ := liquidateExhausted_eq_ok h
      refine hsettled.trans (Attends.trans (.of_logs hdecision (by simp [Plain]))
        (applyFill_attends (fun hnone => ?_) hfill))
      -- the trade that was charged is open
      rw [hdecision.activeTrade_eq, hlogs.activeTrade_eq] at hnone
      cases hnone

theorem executePending_attends {pending : PendingOrder} (hready : Ready input s.board)
    (h : executePending input candle pending s = .ok ⟨⟩ s') : Attends input s s' := by
  obtain ⟨_, _, fill, s₁, -, -, -, hlogs, -, hfill⟩ := executePending_eq_ok h
  refine Attends.trans (.of_counters hlogs) (applyFill_attends (fun _ => ?_) hfill)
  rw [hlogs.board_eq]
  exact hready

/-- Extremes take their values from the board. -/
theorem withTracking_attends {position : Position} :
    Attends input s (withTracking input candle position s) := by
  refine .of_active rfl rfl rfl fun active' hactive' => ?_
  change active' ∈ s.activeTrade.map _ at hactive'
  rw [Option.mem_map] at hactive'
  obtain ⟨active, hmem, rfl⟩ := hactive'
  exact ⟨active, hmem, fun hready hbefore => hbefore.tracked hready⟩

theorem protect_attends {held : Option Position} (hheld : positionOf input s.book = .ok held)
    (hactive : s.activeTrade.isSome = held.isSome)
    (h : protect input candle s = .ok ⟨⟩ s') : Attends input s s' := by
  obtain ⟨held', hheld', ⟨rfl, -⟩ | ⟨position, fill, row, s₁, hposition, -, hlogs, hfill⟩⟩ :=
    protect_eq_ok h
  · exact .refl _
  · refine withTracking_attends.trans (Attends.trans (.of_logs hlogs (by simp [Plain]))
      (applyFill_attends (fun hnone => ?_) hfill))
    -- a position is held, so a trade is open
    rw [hheld] at hheld'
    cases hheld'
    rw [hlogs.activeTrade_eq] at hnone
    change s.activeTrade.map _ = none at hnone
    rw [Option.map_eq_none_iff] at hnone
    rw [hnone, hposition] at hactive
    cases hactive

/-! ### The close of a bar, gaps and the end -/

/-- Marking a position prices it and tracks the extremes of its trade. -/
theorem markPosition_attends {mark : Decimal}
    (h : markPosition input candle mark s = .ok ⟨⟩ s') : Attends input s s' := by
  unfold markPosition at h
  simp only [bind_eq_ok, currentPosition_eq_ok] at h
  obtain ⟨held, _, ⟨-, rfl⟩, h⟩ := h
  cases held with
  | none =>
    cases h
    exact .refl _
  | some position =>
    simp only [bind_eq_ok, onBook_eq_ok, currentPosition_eq_ok] at h
    obtain ⟨_, _, ⟨book, -, rfl⟩, after, _, ⟨-, rfl⟩, h⟩ := h
    -- a mark leaves the trade and its features alone
    have hbook : Attends input s { s with book := book } :=
      .of_active rfl rfl rfl fun active hactive => ⟨active, hactive, fun _ hbefore => hbefore⟩
    refine hbook.trans ?_
    cases after with
    | none =>
      cases h
      exact .refl _
    | some after =>
      simp only [Option.toList_some, forEach_cons, forEach_nil, bind_eq_ok, pure_apply,
        EStateM.Result.ok.injEq] at h
      obtain ⟨_, _, htrack, -, rfl⟩ := h
      rw [trackExcursions_eq_ok htrack]
      exact withTracking_attends

theorem recordPosition_attends {mark : Decimal}
    (h : recordPosition input candle mark s = .ok ⟨⟩ s') : Attends input s s' := by
  obtain ⟨held, hheld⟩ := positionOf_of_recordPosition h
  obtain ⟨row, -, ⟨active, -, hactive, hlogs⟩ | ⟨-, hlogs⟩⟩ := recordPosition_eq_ok hheld h
  · have hbuffered : Attends input s
        { s with activeTrade := some (ActiveTrade.addPosition active row) } := by
      refine .of_active rfl rfl rfl fun active' hactive' => ?_
      cases hactive'
      exact ⟨active, hactive, fun _ hbefore => ⟨hbefore.entry, hbefore.mae, hbefore.mfe⟩⟩
    exact hbuffered.trans (.of_counters hlogs)
  · exact .of_logs hlogs (by simp [Plain])

/-- A row of the equity table and its point of the curve. -/
theorem attends_point {row : PortfolioRow} {ts : ℤ} {equity : Decimal}
    (h : Logs [.portfolio row] (withPoint s ts equity) s') : Attends input s s' := by
  have hpoint : Attends input s (withPoint s ts equity) :=
    .of_active rfl rfl rfl fun active hactive => ⟨active, hactive, fun _ hbefore => hbefore⟩
  exact hpoint.trans (.of_logs h (by simp [Plain]))

theorem betweenBars_attends {next : Candle} {held : Option Position}
    (hheld : positionOf input s.book = .ok held) (hactive : s.activeTrade.isSome = held.isSome)
    (h : betweenBars input candle next s = .ok ⟨⟩ s') : Attends input s s' := by
  unfold betweenBars at h
  split at h
  · obtain ⟨held', -, hheld', ⟨-, rfl⟩ | ⟨position, row, s₁, s₂, count, hposition, hlogs, hclose,
      rfl⟩⟩ := closeAtDataGap_eq_ok h
    · exact .refl _
    · rw [hheld] at hheld'
      cases hheld'
      rw [hposition, Option.isSome_some, ← hlogs.activeTrade_eq] at hactive
      have hcount : Attends input s₂ { s₂ with dataGapExitCount := count } :=
        .of_active rfl rfl rfl fun active hactive => ⟨active, hactive, fun _ hbefore => hbefore⟩
      exact Attends.trans (.of_logs hlogs (by simp [Plain]))
        ((closeAtTerminal_attends hactive hclose).trans hcount)
  · cases h
    exact .refl _

theorem finalize_attends {last : Candle} {held : Option Position}
    (hheld : positionOf input s.book = .ok held) (hactive : s.activeTrade.isSome = held.isSome)
    (h : finalize input last s = .ok ⟨⟩ s') : Attends input s s' := by
  obtain ⟨held', s₁, hheld', hterminal, hclose⟩ := finalize_eq_ok h
  obtain ⟨_, _, hlogs⟩ := recordTerminalEquity_run hterminal
  refine Attends.trans ?_ (attends_point hlogs)
  rcases hclose with ⟨-, rfl⟩ | ⟨position, hposition, hclose⟩
  · exact .refl _
  · rw [hheld] at hheld'
    cases hheld'
    rw [hposition] at hactive
    exact closeAtTerminal_attends hactive hclose

/-- After its first bar a board is ready, and stays so. -/
theorem updateIndicators_featured (hs : Featured input s)
    (h : updateIndicators input candle s = .ok ⟨⟩ s') :
    Featured input s' ∧ Ready input s'.board := by
  obtain ⟨board, rows, -, hrows, hlogs⟩ := updateIndicators_eq_ok h
  have hready : Ready input s'.board := by
    rw [hlogs.board_eq]
    exact ready_of_values (values_of_snapshots hrows)
  have hplain : ∀ row ∈ rows, Plain row := forall_of_forall₂ hrows fun _ _ hrow => by
    obtain ⟨_, _, rfl, -⟩ := hrow
    trivial
  refine ⟨hs.append _ hlogs.records_eq hplain fun active hactive => ⟨hready, ?_⟩, hready⟩
  rw [hlogs.activeTrade_eq] at hactive
  exact (hs.active active hactive).2

theorem stepClose_featured {answer : StrategyAnswer} (hs : Featured input s)
    (h : stepClose input candle answer s = .ok ⟨⟩ s') :
    Featured input s' ∧ Ready input s'.board := by
  unfold stepClose markGrid at h
  simp only [bind_eq_ok] at h
  obtain ⟨_, s₁, hupdate, _, s₄, ⟨_, s₂, hmark, _, s₃, hposition, hportfolio⟩, hanswer⟩ := h
  obtain ⟨h₁, hready⟩ := updateIndicators_featured hs hupdate
  obtain ⟨_, held, hheld, hlogs⟩ := recordPortfolio_run hportfolio
  have hmarked : Attends input s₁ s₄ :=
    (markPosition_attends hmark).trans ((recordPosition_attends hposition).trans
      (attends_point hlogs))
  have hheld' : positionOf input s₄.book = .ok held := by
    rw [hlogs.book_eq]
    exact hheld
  obtain ⟨orders, -, rows, hrows, hnotes⟩ := handleAnswer_eq_ok hheld' hanswer
  -- the answer queues orders and records clerical rows
  have hplain : ∀ row ∈ rows, Plain row := by
    intro row hrow
    have hclerical := hrows row hrow
    cases row <;> trivial
  have h₄ := hmarked.featured h₁
  refine ⟨h₄.append _ hnotes.records_eq hplain fun active hactive => ?_, ?_⟩
  · rw [hnotes.activeTrade_eq] at hactive
    rw [hnotes.board_eq]
    exact h₄.active active hactive
  · rw [hnotes.board_eq]
    show Ready input s₄.board
    rw [hmarked.board_eq]
    exact hready

/-! ### Runs -/

variable {state state' : RunState} {phase phase' : Phase}

/-- **The invariant.** The features are kept, and where an order waits the board is ready. -/
structure FeaturesKept (input : RunInput) (state : RunState) : Prop where
  featured : Featured input state.2
  ready : waitingOrders state ≠ [] → Ready input state.2.board

/-- A step of trading after which no other orders wait. -/
theorem FeaturesKept.attends (h : FeaturesKept input (phase, s)) (hattends : Attends input s s')
    (hwaiting : waitingOrders (phase', s') ≠ [] → waitingOrders (phase, s) ≠ []) :
    FeaturesKept input (phase', s') := by
  refine ⟨hattends.featured h.featured, fun hne => ?_⟩
  show Ready input s'.board
  rw [hattends.board_eq]
  exact h.ready (hwaiting hne)

theorem featuresKept_of_isStart (h : IsStart input state) : FeaturesKept input state := by
  obtain ⟨cash, first, rest, -, -, hphase, hprepare⟩ := h
  obtain ⟨phase, s⟩ := state
  cases hphase
  obtain ⟨board, rows, hrows, ⟨sequence, hstate⟩, -⟩ := prepare_eq_ok hprepare
  have hrecords : s.records = rows := congrArg EngineState.records hstate
  have hactive : s.activeTrade = none := congrArg EngineState.activeTrade hstate
  have hpending : s.pending = [] := congrArg EngineState.pending hstate
  -- nothing is recorded but definitions
  have hdefinition : ∀ row ∈ s.records, ∃ definition, row = .indicatorDefinition definition := by
    rw [hrecords]
    exact hrows
  refine ⟨⟨fun row hrow => ?_, fun row hrow => ?_, fun active hmem => ?_⟩, fun hne => ?_⟩
  · obtain ⟨definition, heq⟩ := hdefinition _ hrow
    cases heq
  · obtain ⟨definition, heq⟩ := hdefinition _ hrow
    cases heq
  · change active ∈ s.activeTrade at hmem
    rw [hactive] at hmem
    cases hmem
  · exact absurd hpending hne

/-- **One step.** -/
theorem featuresKept_step (hinv : Inv input False state) (h : FeaturesKept input state)
    (hstep : (system input).step state state') : FeaturesKept input state' := by
  obtain ⟨phase, s⟩ := state
  obtain ⟨phase', s'⟩ := state'
  obtain ⟨held, hcoherent, -⟩ := hinv
  have hheld : positionOf input s.book = .ok held := hcoherent.files.positionOf_eq
  have hopen : s.activeTrade.isSome = held.isSome := hcoherent.activeTrade_isSome
  cases phaseStep_of_stepPhase hstep with
  | @beforeOpen bar s s₁ hrun =>
    have hsettled := settleAtBoundary_attends hrun
    -- the queue becomes the orders of the bar
    refine ⟨(hsettled.featured h.featured).append [] (List.append_nil _).symm (by simp)
      (hsettled.featured h.featured).active, fun hne => ?_⟩
    show Ready input s₁.board
    rw [hsettled.board_eq]
    refine h.ready fun hnil => hne ?_
    show s₁.pending = []
    rw [hsettled.pending_eq]
    exact hnil
  | carried =>
    refine h.attends (.refl _) fun hne hnil => hne ?_
    exact (List.append_nil _).symm.trans hnil
  | @carrying bar pending orders s s' hrun =>
    have hwaiting : waitingOrders (.carrying bar (pending :: orders), s) ≠ [] := by
      show s.pending ++ pending :: orders ≠ []
      simp
    exact h.attends (executePending_attends (h.ready hwaiting) hrun) fun _ => hwaiting
  | settled => exact h.attends (.refl _) id
  | settling hrun =>
    have hattends : Attends input _ _ := settleAtBoundary_attends hrun
    exact h.attends hattends hattends.waiting
  | protecting hrun =>
    have hattends := protect_attends hheld hopen hrun
    exact h.attends hattends hattends.waiting
  | beforeClose hrun =>
    obtain ⟨hfeatured, hready⟩ := stepClose_featured h.featured hrun
    exact ⟨hfeatured, fun _ => hready⟩
  | finalize hrun =>
    have hattends := finalize_attends hheld hopen hrun
    exact h.attends hattends hattends.waiting
  | betweenBars hrun =>
    have hattends := betweenBars_attends hheld hopen hrun
    exact h.attends hattends hattends.waiting

open TransitionSystem

/-- **Every state of every run** keeps the features. -/
theorem featuresKept_of_reachable (h : (system input).Reachable state) :
    FeaturesKept input state := by
  have hboth := h.invariant (I := fun state => Inv input False state ∧ FeaturesKept input state)
    (fun _ hstart => ⟨inv_of_isStart hstart, featuresKept_of_isStart hstart⟩)
    (fun _ _ hinv hstep => ⟨inv_step hinv.1 (by simp) hstep, featuresKept_step hinv.1 hinv.2 hstep⟩)
  exact hboth.2

/-! ### The audit -/

/-- The phases of a trade are recorded once, where no key is used twice. -/
theorem phases_nodup {records : List EvidenceRecord} (h : (records.flatMap (·.keys)).Nodup)
    (tradeId : ℕ) :
    (((records.filterMap featureRow?).filter fun row => row.tradeId = tradeId).map
      (·.phase)).Nodup := by
  -- the keys of the feature rows are among those of all rows
  have hsublist : ((records.filterMap featureRow?).map fun row =>
      EvidenceKey.phase row.tradeId row.phase).Sublist (records.flatMap (·.keys)) := by
    clear h
    induction records with
    | nil => exact .slnil
    | cons record records ih =>
      rw [List.flatMap_cons]
      cases record with
      | feature row => exact (ih.cons_cons _).trans (List.sublist_cons_self _ _)
      | _ => exact ih.trans (List.sublist_append_right _ _)
  have hkeys := (h.sublist hsublist).sublist
    ((List.filter_sublist (p := fun row : FeatureRow => decide (row.tradeId = tradeId))).map _)
  refine List.Nodup.of_map (EvidenceKey.phase tradeId) ?_
  rw [List.map_map]
  convert hkeys using 1
  refine List.map_congr_left fun row hrow => ?_
  rw [List.mem_filter, decide_eq_true_eq] at hrow
  rw [hrow.2]
  rfl

/-- **The audit of the features** finds nothing exactly when no trade has been completed or the
run has a series. -/
theorem tradeFeatureFailures_of_reachable (hkeys : SeriesBoard.KeysDistinct input.series)
    (h : (system input).Reachable state) :
    tradeFeatureFailures (state.2.records.filterMap tradeRow?)
        (state.2.records.filterMap featureRow?) = [] ↔
      state.2.records.filterMap tradeRow? = [] ∨ input.series.specs ≠ [] := by
  obtain ⟨hrows, hphases, -⟩ := (featuresKept_of_reachable h).featured
  have hunique := (audited_of_reachable hkeys h).inOrder.journal.kept.keysOf_nodup
  have hphases' : ∀ trade ∈ state.2.records.filterMap tradeRow?, ∀ phase,
      ∃ row ∈ state.2.records.filterMap featureRow?,
        row.tradeId = trade.tradeId ∧ row.phase = phase := by
    intro trade htrade phase
    obtain ⟨row, hrow, hown⟩ := hphases trade (mem_tradeRows.1 htrade) phase
    exact ⟨row, mem_featureRows.2 hrow, hown⟩
  -- a row has a value for each series, so it is empty when there is none
  have hempty : ∀ row ∈ state.2.records.filterMap featureRow?,
      (row.features = [] ↔ input.series.specs = []) := by
    intro row hrow
    have hcomplete := hrows row (mem_featureRows.1 hrow)
    unfold Complete at hcomplete
    rw [← List.map_eq_nil_iff (f := Prod.fst), hcomplete, List.map_eq_nil_iff]
  rw [tradeFeatureFailures_eq_nil]
  constructor
  · intro hall
    by_cases hnil : state.2.records.filterMap tradeRow? = []
    · exact Or.inl hnil
    · right
      obtain ⟨trade, htrade⟩ := List.exists_mem_of_ne_nil _ hnil
      have hnone := (tradeFeatureFailure_eq_none (phases_nodup hunique _)
        (hphases' trade htrade)).1 (hall trade htrade)
      obtain ⟨row, hrow, hown, -⟩ := hphases' trade htrade .entry
      exact fun hseries => hnone row hrow hown ((hempty row hrow).2 hseries)
  · rintro (hnil | hspecs) trade htrade
    · rw [hnil] at htrade
      cases htrade
    · exact (tradeFeatureFailure_eq_none (phases_nodup hunique _) (hphases' trade htrade)).2
        fun row hrow _ hvalues => hspecs ((hempty row hrow).1 hvalues)

/-- Four hours at two dollars, with a series that counts the bars. -/
def countedRun : RunInput :=
  { twoDollarRun 100000 (Binary64.ofRat 100) hundredThousand_pos with
    series := {
      symbol := "BTCUSDT"
      timeframe := oneHour
      start := 0
      specs := [barCount]
      warmup := fun _ => 0
      histories := fun _ => []
      references := fun _ => [] } }

theorem tradeFeatureFailures_of_four_hours : ∃ state : RunState, endedWithTrade state = true ∧
    tradeFeatureFailures (state.2.records.filterMap tradeRow?)
      (state.2.records.filterMap featureRow?) = [] := by
  obtain ⟨state, hstate, hended⟩ := exists_of_simulated countedRun (fun _ => true) 26
    endedWithTrade (by decide +kernel)
  have hkeys : SeriesBoard.KeysDistinct countedRun.series := List.nodup_singleton _
  exact ⟨state, hended, (tradeFeatureFailures_of_reachable hkeys
    (reachable_of_simulated hstate)).2 (Or.inr (List.cons_ne_nil _ _))⟩

end Engine
end TradingSystem
