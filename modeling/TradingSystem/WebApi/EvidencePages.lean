import TradingSystem.Data.KeysetPages
import TradingSystem.Logic.MapM
import TradingSystem.Logic.Program
import TradingSystem.Numeric.Binary64

/-!
# Pages of an Evidence table

`EvidenceRepository._collection`: the rows of a table that lie behind the cursor and pass the
filters, one page at a time, and how many rows pass the filters at all. The rows are read from a
STRICT SQLite table whose cursor column is its `INTEGER PRIMARY KEY`.

* `SqlValue`, `Clause.holds` — a column's value and a comparison with it.
* `Step.restore`, `Query.restore` — how a row is restored for the answer, over the reader of JSON
  texts and the models of the answers.
* `Query`, `Query.collection` — one endpoint's query, and a page of it.
* `Query.walk_of_restored` — following `next_after_seq` hands out every matching row once.
-/

namespace TradingSystem
namespace WebApi
namespace Evidence

open Data Numeric

/-! ### Values and comparisons -/

/-- A value of a STRICT column. -/
inductive SqlValue
  | null
  | integer (value : ℤ)
  | real (value : Binary64)
  | text (value : String)
deriving DecidableEq

namespace SqlValue

def number : SqlValue → Option ℚ
  | .integer value => some value
  | .real value => some value.val
  | _ => none

/-- `left = right`: not true of `NULL`. -/
def eq (left right : SqlValue) : Bool :=
  match left, right with
  | .text left, .text right => left = right
  | left, right =>
    -- An integer and a real are compared by their values.
    match left.number, right.number with
    | some left, some right => left = right
    | _, _ => false

/-- `left <= right`: not true of `NULL`, and a number lies before a text. -/
def le (left right : SqlValue) : Bool :=
  match left, right with
  | .text left, .text right => left ≤ right
  | left, .text _ => left.number.isSome
  | left, right =>
    match left.number, right.number with
    | some left, some right => left ≤ right
    | _, _ => false

/-- `left < right`. -/
def lt (left right : SqlValue) : Bool := left.le right && !left.eq right

@[simp] theorem lt_integer (left right : ℤ) :
    (SqlValue.integer left).lt (.integer right) = decide (left < right) := by
  rw [Bool.eq_iff_iff, decide_eq_true_eq, lt_iff_le_and_ne]
  simp [lt, le, eq, number]

end SqlValue

/-- A row, by the name of its columns. -/
abbrev Row := String → SqlValue

/-- `int(row[column])` of a key column. -/
def seq (column : String) (row : Row) : ℤ :=
  match row column with
  | .integer value => value
  | _ => 0

inductive Op
  | eq | ge | le
deriving DecidableEq

/-- A filter's clause `column op ?`. -/
structure Clause where
  column : String
  op : Op

def Clause.holds (clause : Clause) (row : Row) (value : SqlValue) : Bool :=
  match clause.op with
  | .eq => (row clause.column).eq value
  | .ge => value.le (row clause.column)
  | .le => (row clause.column).le value

/-! ### Restoring a row -/

/-- What `json.loads` raises: its own error for a text that is no JSON, a plain `ValueError` for an
integer of too many digits, and `RecursionError` for values nested too deeply. -/
inductive LoadsFailure
  | jsonDecodeError | valueError | recursionError
deriving DecidableEq

/-- `json.loads`: the value of a text, or what it raises. How deep a value may be nested is up to
the interpreter, and a lone surrogate is a value of it; nothing below depends on either. -/
abbrev Loads (ι : Type) := String → Except LoadsFailure ι

/-- Why a page is not answered. `unavailable` is `EvidenceUnavailableError`; the others are what
the standard library and the model of the answer raise. -/
inductive Failure
  | unavailable (reason : String)
  | valueError
  | recursionError
  | typeError
  | outOfRange
  | invalid (field : String)
deriving DecidableEq

/-- A value of the answer: a column as it is stored, a decimal's text by its value, an instant in
microseconds, a flag, or the value of a JSON text. -/
inductive Restored (ι : Type)
  | stored (value : SqlValue)
  | decimal (value : ℚ)
  | instant (micros : ℤ)
  | flag (value : Bool)
  | json (value : ι)

def DECIMAL_SCALE : ℚ := 10 ^ 8

section Restore

variable {ι : Type}

def decimalString : SqlValue → Except Failure (Restored ι)
  | .integer value => .ok (.decimal (value / DECIMAL_SCALE))
  | _ => .error .typeError

/-- `datetime.fromtimestamp(seconds, tz=UTC)`: the fraction is scaled and rounded to
microseconds, and the year lies between 1 and 9999. -/
def fromtimestamp (seconds : Binary64) : Except Failure ℤ :=
  let whole := seconds.val.num.tdiv seconds.val.den
  let fraction := Binary64.ofRat (seconds.val - whole)
  let micros := whole * 10 ^ 6 + roundHalfEven (fraction.mul (Binary64.ofRat (10 ^ 6))).val
  if -62135596800 * 10 ^ 6 ≤ micros ∧ micros < 253402300800 * 10 ^ 6 then .ok micros
  else .error .outOfRange

def iso8601 : SqlValue → Except Failure (Restored ι)
  | .integer value => (fromtimestamp (Binary64.ofRat (value / 1000))).map .instant
  | _ => .error .typeError

/-- `_json_value`: only the error for a text that is no JSON is caught. -/
def jsonValue (loads : Loads ι) : SqlValue → Except Failure (Restored ι)
  | .null => .ok (.stored .null)
  | .text value =>
    match loads value with
    | .ok loaded => .ok (.json loaded)
    | .error .jsonDecodeError => .error (.unavailable "evidence_payload_invalid")
    | .error .valueError => .error .valueError
    | .error .recursionError => .error .recursionError
  | _ => .error .typeError

def boolean : SqlValue → Restored ι
  | .null => .flag false
  | .integer value => .flag (value ≠ 0)
  | .real value => .flag (value.val ≠ 0)
  | .text value => .flag (value ≠ "")

/-- What a decoder does to a column; `OrNone` leaves `None` alone. -/
inductive Step
  | decimal | decimalOrNone | instant | instantOrNone | json | boolean
deriving DecidableEq

def Step.restore (loads : Loads ι) : Step → SqlValue → Except Failure (Restored ι)
  | .decimal, value => decimalString value
  | .decimalOrNone, value => if value = .null then .ok (.stored .null) else decimalString value
  | .instant, value => iso8601 value
  | .instantOrNone, value => if value = .null then .ok (.stored .null) else iso8601 value
  | .json, value => jsonValue loads value
  | .boolean, value => .ok (Evidence.boolean value)

/-- A decoder: the columns it replaces, in order; the others stay. -/
def decode (loads : Loads ι) (steps : List (String × Step)) (row : Row) :
    Except Failure (String → Restored ι) :=
  steps.foldlM (fun restored step => do
    let value ← step.2.restore loads (row step.1)
    pure (Function.update restored step.1 value)) fun column => .stored (row column)

end Restore

/-! ### A query and its pages -/

/-- The models of the answers' rows. -/
inductive Model
  | trade | execution | fundingSettlement | equityPoint | chartSummary | position
  | integrityCheck | outcomeBucket | drawdownEpisode | tradeFeature | candidateEvent | signal
  | decision | indicatorSnapshot | missedOpportunity | conditionalExpectancy | finding
deriving DecidableEq

/-- The arguments of `_collection`: the rows of the table with its joins, the cursor column with
an integer of its own in every row, the filters with their values, the decoder and the model. -/
structure Query where
  cursorColumn : String
  rows : List Row
  integral : ∀ row ∈ rows, ∃ value, row cursorColumn = .integer value
  unique : (rows.map (seq cursorColumn)).Nodup
  filters : List (Clause × Option SqlValue)
  decoder : List (String × Step)
  model : Model

structure CursorPage where
  limit : ℕ
  afterSeq : ℤ
  nextAfterSeq : Option ℤ
  total : ℕ
  hasMore : Bool
deriving DecidableEq

structure EvidenceCollection (δ : Type) where
  data : List δ
  page : CursorPage

/-- The row passes every filter that has a value. -/
def passes (filters : List (Clause × Option SqlValue)) (row : Row) : Bool :=
  filters.all fun filter =>
    match filter.2 with
    | none => true
    | some value => filter.1.holds row value

/-- `_where`: the cursor's clause, and the filters that have a value. -/
def whereClause (filters : List (Clause × Option SqlValue)) (cursorColumn : String)
    (afterSeq : ℤ) (row : Row) : Bool :=
  (SqlValue.integer afterSeq).lt (row cursorColumn) && passes filters row

namespace Query

variable {ι δ : Type} (loads : Loads ι)
  (modelValidate : Model → (String → Restored ι) → Except Failure δ)

/-- `model.model_validate(decoder(dict(row)))`. -/
def restore (query : Query) (row : Row) : Except Failure δ :=
  decode loads query.decoder row >>= modelValidate query.model

def collection (query : Query) (limit : ℕ) (afterSeq : ℤ) :
    Except Failure (EvidenceCollection δ) := do
  let total := (query.rows.filter (whereClause query.filters query.cursorColumn 0)).length
  let rows := (sortBy (seq query.cursorColumn)
    (query.rows.filter (whereClause query.filters query.cursorColumn afterSeq))).take (limit + 1)
  let selected := rows.take limit
  let data ← selected.mapM (query.restore loads modelValidate)
  pure ⟨data, limit, afterSeq, selected.getLast?.map (seq query.cursorColumn), total,
    limit < rows.length⟩

/-- Starting without a cursor and following `next_after_seq` while `has_more` is true, for at most
`fuel` pages. -/
def walk (query : Query) (limit fuel : ℕ) : Except Failure (Option (List (EvidenceCollection δ))) :=
  KeysetPages.follow (query.collection loads modelValidate limit) (·.page.nextAfterSeq)
    (·.page.hasMore) fuel 0

/-- The rows a walk is to hand out: those with a positive sequence number that pass the filters,
in increasing order. -/
def matching (query : Query) : List Row :=
  KeysetPages.above (seq query.cursorColumn) (query.rows.filter (passes query.filters)) 0

variable {loads modelValidate} {query : Query} {limit : ℕ}

/-- The rows of the `SELECT` are those above the cursor that pass the filters. -/
theorem sortBy_filter_whereClause (afterSeq : ℤ) :
    sortBy (seq query.cursorColumn)
      (query.rows.filter (whereClause query.filters query.cursorColumn afterSeq)) =
    KeysetPages.above (seq query.cursorColumn) (query.rows.filter (passes query.filters))
      afterSeq := by
  rw [KeysetPages.above, List.filter_filter]
  congr 1
  refine List.filter_congr fun row hrow => ?_
  -- The cursor column holds an integer, so SQL compares it as one.
  obtain ⟨value, hvalue⟩ := query.integral row hrow
  rw [whereClause, hvalue, SqlValue.lt_integer, seq, hvalue]

theorem mem_matching {row : Row} : row ∈ query.matching ↔
    row ∈ query.rows ∧ passes query.filters row = true ∧ 0 < seq query.cursorColumn row := by
  rw [matching, KeysetPages.mem_above, List.mem_filter, and_assoc]

theorem unique_passes : ((query.rows.filter (passes query.filters)).map
    (seq query.cursorColumn)).Nodup :=
  query.unique.sublist (List.filter_sublist.map _)

theorem pairwise_matching : query.matching.Pairwise fun left right =>
    seq query.cursorColumn left < seq query.cursorColumn right :=
  KeysetPages.pairwise_above unique_passes 0

/-- The total is the number of matching rows, whatever the page. -/
theorem length_matching :
    (query.rows.filter (whereClause query.filters query.cursorColumn 0)).length =
      query.matching.length := by
  rw [matching, ← sortBy_filter_whereClause, (perm_sortBy _ _).length_eq]

theorem total_collection {afterSeq : ℤ} {page : EvidenceCollection δ}
    (h : query.collection loads modelValidate limit afterSeq = .ok page) :
    page.page.total = query.matching.length := by
  simp only [collection, length_matching] at h
  obtain ⟨data, -, hpage⟩ := Logic.Except.bind_eq_ok.1 h
  cases hpage
  rfl

/-- The query asks for one row more than the page holds. -/
theorem take_selected (rows : List Row) (limit : ℕ) :
    (rows.take (limit + 1)).take limit = rows.take limit := by
  rw [List.take_take, Nat.min_eq_left (Nat.le_succ limit)]

/-- A page of `_collection` holds the first rows above its cursor. -/
theorem pages_collection (query : Query) (limit : ℕ) :
    KeysetPages.Pages (seq query.cursorColumn) (query.rows.filter (passes query.filters))
      (query.restore loads modelValidate) (query.collection loads modelValidate limit)
      (·.page.nextAfterSeq) (·.page.hasMore) (·.data) limit where
  ok {cursor found} h := by
    simp only [collection, sortBy_filter_whereClause, take_selected]
    rw [h]
    refine ⟨_, rfl, rfl, rfl, ?_⟩
    -- The row too many was read exactly when more rows than the limit lie above the cursor.
    simp only [decide_eq_true_eq, List.length_take]
    omega
  error {cursor failure} h := by
    simp only [collection, sortBy_filter_whereClause, take_selected]
    rw [h]
    rfl

/-- **A walk hands out every matching row once**, in increasing order, and as many rows as every
page's total, when the matching rows can be restored. -/
theorem walk_of_restored (hlimit : 1 ≤ limit) {fuel : ℕ} (hfuel : query.matching.length < fuel)
    {data : List δ} (h : query.matching.mapM (query.restore loads modelValidate) = .ok data) :
    ∃ pages, query.walk loads modelValidate limit fuel = .ok (some pages) ∧
      pages.flatMap (·.data) = data ∧ ∀ page ∈ pages, page.page.total = data.length := by
  obtain ⟨pages, hwalk, hdata⟩ :=
    KeysetPages.follow_of_fetch (pages_collection query limit) unique_passes hlimit hfuel h
  refine ⟨pages, hwalk, hdata, fun page hpage => ?_⟩
  -- The total does not depend on the cursor.
  obtain ⟨cursor, hpage⟩ := KeysetPages.fetched_of_follow _ _ _ hwalk page hpage
  rw [total_collection hpage]
  exact (Logic.forall₂_of_mapM h).length_eq

/-- A matching row that cannot be restored ends the walk with its failure. -/
theorem walk_error (hlimit : 1 ≤ limit) {fuel : ℕ} (hfuel : query.matching.length < fuel)
    {failure : Failure}
    (h : query.matching.mapM (query.restore loads modelValidate) = .error failure) :
    query.walk loads modelValidate limit fuel = .error failure :=
  KeysetPages.follow_of_fetch_error (pages_collection query limit) unique_passes hlimit hfuel h

end Query

end Evidence
end WebApi
end TradingSystem
