import TradingSystem.Numeric.Binary64

/-!
# The tables of the evidence hash

Every evidence file has the same tables. Of a table the hash owns all columns but the
identifiers of the run and a few that say when or under which name it was recorded, and all
rows but one kind: the result of comparing the run with an earlier one.

* `Cell`, `Row`, `Store` — what a file holds.
* `Table`, `hashTables` — the tables in the order of the hash, with their columns.
* `Store.Satisfies` — what the schema promises of a file.
-/

namespace TradingSystem
namespace EvidenceHash

open Numeric

/-! ### Cells -/

/-- The types of the columns. -/
inductive ColumnType
  | text
  | integer
  | real
deriving DecidableEq

/-- What a cell holds. A zero with a sign is a REAL of its own. -/
inductive Cell
  | null
  | integer (value : ℤ)
  | real (value : Binary64)
  | negativeZero
  | text (value : String)
deriving DecidableEq

/-- A STRICT table takes only values of the column's type, or none. -/
inductive Cell.HasType : Cell → ColumnType → Prop
  | null {type : ColumnType} : HasType .null type
  | integer (value : ℤ) : HasType (.integer value) .integer
  | real (value : Binary64) : HasType (.real value) .real
  | negativeZero : HasType .negativeZero .real
  | text (value : String) : HasType (.text value) .text

/-- The type of a cell's value. -/
def Cell.type : Cell → Option ColumnType
  | .null => none
  | .integer _ => some .integer
  | .real _ => some .real
  | .negativeZero => some .real
  | .text _ => some .text

theorem Cell.hasType_iff {cell : Cell} {type : ColumnType} :
    cell.HasType type ↔ cell.type = none ∨ cell.type = some type := by
  constructor
  · intro h
    cases h with
    | null => exact .inl rfl
    | integer | real | negativeZero | text => exact .inr rfl
  · rintro (h | h)
    · cases cell with
      | null => exact .null
      | integer | real | negativeZero | text => cases h
    · cases cell with
      | null => cases h
      | integer value => cases h; exact .integer value
      | real value => cases h; exact .real value
      | negativeZero => cases h; exact .negativeZero
      | text value => cases h; exact .text value

instance (cell : Cell) (type : ColumnType) : Decidable (cell.HasType type) :=
  decidable_of_iff _ Cell.hasType_iff.symm

/-- A row gives the cell of each column. -/
abbrev Row := String → Cell

/-- The rows of each table, as they were inserted. -/
abbrev Store := String → List Row

/-! ### Tables -/

structure Column where
  name : String
  type : ColumnType

def text (name : String) : Column := ⟨name, .text⟩

def integer (name : String) : Column := ⟨name, .integer⟩

def real (name : String) : Column := ⟨name, .real⟩

/-- A table with its primary key, its ENTITY_SORT_KEYS, its HASH_EXCLUDED_COLUMNS and the
rows that its HASH_EXCLUDED_ROWS leave. -/
structure Table where
  name : String
  columns : List Column
  primaryKey : String
  sortKeys : List String
  hashExcluded : List String := []
  hashRows : Row → Bool := fun _ => true

/-- `HASH_GLOBAL_EXCLUDED_COLUMNS`. -/
def hashGlobalExcluded : List String := ["run_id", "backtest_run_id"]

/-- The columns that the hash owns. -/
def Table.hashColumns (table : Table) : List Column :=
  table.columns.filter fun column =>
    column.name ∉ hashGlobalExcluded ∧ column.name ∉ table.hashExcluded

def backtestRunLocal : Table where
  name := "BACKTEST_RUN_LOCAL"
  columns :=
    [text "run_id", integer "run_seq", text "run_name", text "strategy_id", text "strategy_name",
     text "strategy_version", text "params_json", text "submitted_money_management_json",
     text "money_management_json", text "resolved_indicators_json", text "params_schema_version",
     text "symbol", text "exchange", text "timeframe", text "market_type", integer "period_start",
     integer "period_end", integer "warmup_start", integer "warmup_candles", text "indicator_mode",
     text "trigger_feed", text "fill_timing", integer "initial_capital", text "sizing_method",
     real "risk_per_trade", real "position_size_pct", integer "framework_compliant",
     text "cost_values_json", text "data_quality_criteria_json", integer "seed",
     text "engine_version", text "core_lib_version", text "config_hash", text "profile_ref",
     text "strategy_profile_json", text "envelope_status_declared", text "prereg_json",
     text "eval_decision_json", text "evidence_schema_version", integer "created_at"]
  primaryKey := "run_id"
  sortKeys := ["run_id"]
  hashExcluded := ["run_seq", "run_name", "submitted_money_management_json", "prereg_json",
    "created_at"]

def sourceDataSnapshot : Table where
  name := "SOURCE_DATA_SNAPSHOT"
  columns :=
    [integer "snapshot_id", text "run_id", text "source_kind", text "source_ref", text "symbol",
     text "exchange", text "timeframe", text "resampled_from", integer "range_start",
     integer "range_end", integer "row_count", integer "gap_count", integer "fallback_used",
     integer "fallback_count", text "content_hash", text "note"]
  primaryKey := "snapshot_id"
  sortKeys := ["source_kind", "symbol", "timeframe", "snapshot_id"]

def indicatorDefinition : Table where
  name := "INDICATOR_DEFINITION"
  columns :=
    [text "indicator_key", text "run_id", text "indicator_name", text "params_json",
     text "impl_version", text "series_kind", text "category", text "impl_note",
     integer "min_history", text "computation_mode", text "enabled_reason"]
  primaryKey := "indicator_key"
  sortKeys := ["indicator_key"]

def indicatorSnapshot : Table where
  name := "INDICATOR_SNAPSHOT"
  columns :=
    [integer "snapshot_seq", text "run_id", text "indicator_key", integer "feature_ts",
     integer "candle_open_time", integer "candle_close_time", real "value", text "value_json",
     integer "is_warmup"]
  primaryKey := "snapshot_seq"
  sortKeys := ["feature_ts", "indicator_key", "snapshot_seq"]

def signal : Table where
  name := "SIGNAL"
  columns :=
    [integer "signal_id", text "run_id", integer "decision_ts", integer "feature_ts",
     integer "candle_open_time", integer "candle_close_time", text "symbol", real "price",
     real "confidence", real "stop_loss", real "take_profit", text "market_type",
     integer "leverage", text "reason", text "metadata_json", text "derived_intent",
     text "derived_side", integer "is_warmup"]
  primaryKey := "signal_id"
  sortKeys := ["decision_ts", "signal_id"]

def decision : Table where
  name := "DECISION"
  columns :=
    [integer "decision_id", text "run_id", integer "signal_id", integer "decision_ts",
     text "action", text "skip_reason", text "intended_side", real "intended_qty",
     real "stop_price", real "take_profit_price", real "risk_amount", real "stop_distance",
     text "sizing_method", integer "framework_compliant", integer "planned_execution_ts"]
  primaryKey := "decision_id"
  sortKeys := ["decision_ts", "decision_id"]

def execution : Table where
  name := "EXECUTION"
  columns :=
    [integer "execution_id", text "run_id", integer "decision_id", text "order_id",
     integer "execution_ts", integer "trigger_subcandle_ts", text "symbol", text "side",
     text "position_side", text "order_type", integer "reference_price", integer "price",
     integer "quantity", integer "notional", integer "fee", integer "slippage", text "liquidity",
     integer "reduce_only", text "exit_reason", integer "gap_filled", integer "qty_truncated"]
  primaryKey := "execution_id"
  sortKeys := ["execution_ts", "execution_id"]

def fundingSettlement : Table where
  name := "FUNDING_SETTLEMENT"
  columns :=
    [integer "settlement_id", text "run_id", integer "trade_id", integer "settled_at",
     text "symbol", text "position_side", real "funding_rate", text "rate_source",
     integer "settle_price", text "settle_price_source", integer "position_notional",
     integer "payment_amount", integer "theoretical_payment_amount"]
  primaryKey := "settlement_id"
  sortKeys := ["settled_at", "settlement_id"]

def trade : Table where
  name := "TRADE"
  columns :=
    [integer "trade_id", text "run_id", text "backtest_run_id", text "source_type", text "symbol",
     text "side", text "market_type", integer "entry_execution_id", integer "exit_execution_id",
     integer "entry_price", integer "entry_quantity", integer "entry_time", integer "exit_price",
     integer "exit_quantity", integer "exit_time", text "exit_reason", integer "gross_pnl",
     integer "total_fee", integer "slippage", integer "liquidation_penalty",
     integer "funding_cost", integer "net_pnl", real "return_pct", integer "r0", real "r_multiple",
     integer "leverage", integer "liquidated", text "strategy_id", text "strategy_name",
     integer "hold_duration_seconds", real "signal_confidence", text "reason"]
  primaryKey := "trade_id"
  sortKeys := ["entry_time", "trade_id"]

def position : Table where
  name := "POSITION"
  columns :=
    [integer "position_seq", text "run_id", integer "trade_id", integer "ts", text "symbol",
     text "side", integer "quantity", integer "average_price", integer "total_cost",
     integer "current_price", integer "mark_price", text "mark_price_source",
     integer "unrealized_pnl", integer "leverage", text "margin_type", integer "margin",
     integer "entry_price", integer "liquidation_price", integer "funding_fee_total"]
  primaryKey := "position_seq"
  sortKeys := ["ts", "position_seq"]

def portfolioPnl : Table where
  name := "PORTFOLIO_PNL"
  columns :=
    [integer "equity_seq", text "run_id", integer "ts", integer "cash_balance",
     integer "position_value", integer "total_equity", integer "intrabar_low_equity",
     integer "realized_pnl_cum", integer "unrealized_pnl", integer "fee_cum",
     integer "slippage_cum", integer "funding_cum", integer "peak_equity", real "drawdown_pct",
     integer "open_positions"]
  primaryKey := "equity_seq"
  sortKeys := ["ts", "equity_seq"]

def outcomeBucket : Table where
  name := "OUTCOME_BUCKET"
  columns :=
    [integer "bucket_id", text "run_id", text "subject_kind", integer "subject_id",
     text "bucket_name", text "bucket_value", real "r_multiple", text "note"]
  primaryKey := "bucket_id"
  sortKeys := ["subject_kind", "subject_id", "bucket_name", "bucket_id"]

def integrityCheck : Table where
  name := "INTEGRITY_CHECK"
  columns :=
    [integer "check_id", text "run_id", text "check_name", integer "passed", text "detail_json",
     text "sample_ref", integer "checked_at"]
  primaryKey := "check_id"
  sortKeys := ["check_name", "check_id"]
  hashExcluded := ["checked_at"]
  -- `check_name <> 'deterministic'`
  hashRows row := row "check_name" ≠ .null ∧ row "check_name" ≠ .text "deterministic"

def chartSummary : Table where
  name := "CHART_SUMMARY"
  columns :=
    [integer "summary_seq", text "run_id", text "series_name", integer "bucket_ts", real "value",
     text "payload_json"]
  primaryKey := "summary_seq"
  sortKeys := ["series_name", "bucket_ts", "summary_seq"]

def candidateEvent : Table where
  name := "CANDIDATE_EVENT"
  columns :=
    [integer "candidate_id", text "run_id", integer "ts", text "symbol", text "trigger_rule",
     text "passed_filters_json", text "blocked_by", text "would_be_side", integer "would_be_qty",
     integer "realized", integer "linked_trade_id"]
  primaryKey := "candidate_id"
  sortKeys := ["ts", "candidate_id"]

def tradeFeatureSnapshot : Table where
  name := "TRADE_FEATURE_SNAPSHOT"
  columns :=
    [integer "tfs_id", text "run_id", integer "trade_id", text "phase", integer "ts",
     text "features_json", text "regime_tag", real "excursion_r"]
  primaryKey := "tfs_id"
  sortKeys := ["trade_id", "phase", "tfs_id"]

def conditionSignature : Table where
  name := "CONDITION_SIGNATURE"
  columns :=
    [text "signature_key", text "run_id", text "taxonomy_version", text "definition_json",
     text "subject_kind", integer "sample_count"]
  primaryKey := "signature_key"
  sortKeys := ["signature_key"]

def conditionalExpectancy : Table where
  name := "CONDITIONAL_EXPECTANCY"
  columns :=
    [integer "ce_id", text "run_id", text "signature_key", integer "sample_count",
     real "win_rate", real "payoff", real "expectancy_r", real "pf", real "ci_low", real "ci_high",
     integer "is_significant"]
  primaryKey := "ce_id"
  sortKeys := ["signature_key", "ce_id"]

def missedOpportunity : Table where
  name := "MISSED_OPPORTUNITY"
  columns :=
    [integer "miss_id", text "run_id", integer "ts", text "symbol", text "source_rule",
     text "missing_reason", real "potential_r", real "potential_move_pct",
     integer "nearest_candidate_id"]
  primaryKey := "miss_id"
  sortKeys := ["ts", "miss_id"]

def drawdownRunupEpisode : Table where
  name := "DRAWDOWN_RUNUP_EPISODE"
  columns :=
    [integer "episode_id", text "run_id", text "kind", integer "start_ts", integer "end_ts",
     integer "recovery_ts", integer "peak_equity", integer "trough_equity", real "depth_pct",
     integer "duration_seconds", integer "trade_count", text "contributing_trades_json"]
  primaryKey := "episode_id"
  sortKeys := ["kind", "start_ts", "episode_id"]

/-- `HASH_TABLES`: in the order of their names. -/
def hashTables : List Table :=
  [backtestRunLocal, candidateEvent, chartSummary, conditionalExpectancy, conditionSignature,
   decision, drawdownRunupEpisode, execution, fundingSettlement, indicatorDefinition,
   indicatorSnapshot, integrityCheck, missedOpportunity, outcomeBucket, portfolioPnl,
   position, signal, sourceDataSnapshot, trade, tradeFeatureSnapshot]

/-! ### The schema -/

/-- What the schema promises of a file, as far as the hash depends on it. -/
structure Store.Satisfies (store : Store) : Prop where
  /-- Tables are STRICT. -/
  typed : ∀ table ∈ hashTables, ∀ row ∈ store table.name, ∀ column ∈ table.columns,
    (row column.name).HasType column.type
  /-- Primary keys are unique. -/
  keyed : ∀ table ∈ hashTables, ((store table.name).map fun row => row table.primaryKey).Nodup
  /-- The trigger `backtest_run_local_single_row`. -/
  single : (store backtestRunLocal.name).length ≤ 1

/-- What the proofs read off the definition of a table. The run's table is apart: its sort key
is the identifier of the run, which the hash does not own. -/
structure Table.WellFormed (table : Table) : Prop where
  two_le : 2 ≤ table.hashColumns.length
  key_mem : ∃ column ∈ table.columns, column.name = table.primaryKey ∧ column.type ≠ .real
  key_sorted : table.primaryKey ∈ table.sortKeys
  sorted_owned : table.name = backtestRunLocal.name ∨
    ∀ name ∈ table.sortKeys, name ∈ table.hashColumns.map (·.name)

theorem wellFormed_of_mem : ∀ table ∈ hashTables, table.WellFormed := by
  have hshape : ∀ table ∈ hashTables, 2 ≤ table.hashColumns.length ∧
      (∃ column ∈ table.columns, column.name = table.primaryKey ∧ column.type ≠ .real) ∧
      table.primaryKey ∈ table.sortKeys ∧ (table.name = backtestRunLocal.name ∨
        ∀ name ∈ table.sortKeys, name ∈ table.hashColumns.map (·.name)) := by
    decide +kernel
  intro table htable
  obtain ⟨htwo, hkey, hsorted, howned⟩ := hshape table htable
  exact ⟨htwo, hkey, hsorted, howned⟩

end EvidenceHash
end TradingSystem
