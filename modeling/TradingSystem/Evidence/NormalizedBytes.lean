import TradingSystem.Data.Separated
import TradingSystem.Evidence.CanonicalJson
import TradingSystem.Evidence.HashTables
import Mathlib.Data.List.Lex
import Mathlib.Data.Prod.Lex
import Mathlib.Data.String.Basic

/-!
# The bytes of the evidence hash

The hash-owned cells of all tables as one text: cells behind cells, rows behind rows and
tables behind tables, each level with a separator of its own.

* `serializeValue`, `normalizedBytes` — the encoding.
* `hashOwned` — the rows of a table as the hash sees them.
* `Store.Separable` — texts without separators that are not the marker of NULL.
* `hashOwned_perm`, `normalizedBytes_congr` — the two directions.
* `normalizedBytes_eq_iff` — equal bytes are equal rows, in whatever order they came.

Every level is read back by splitting at its separator, which no part contains. The order of
the rows is lost because the keys they are sorted by are hash-owned and end with the primary
key; the run's own table, whose key is not, has one row.
-/

namespace TradingSystem
namespace EvidenceHash

open Numeric Data CanonicalJson

/-! ### The encoding -/

/-- `_GS`. -/
def groupSeparator : Char := Char.ofNat 0x1d

/-- `_RS`. -/
def recordSeparator : Char := Char.ofNat 0x1e

/-- `_US`. -/
def unitSeparator : Char := Char.ofNat 0x1f

/-- `_NUL`, for a cell without a value. -/
def nul : Char := Char.ofNat 0

def separators : List Char := [groupSeparator, recordSeparator, unitSeparator]

/-- `_serialize_value`. REALs are written as canonical JSON writes them. -/
def serializeValue : Cell → List Char
  | .null => [nul]
  | .integer value => Json.renderInt value
  | .real value => (number value.repr).render
  | .negativeZero => ['-', '0', '.', '0']
  | .text value => value.toList

/-- The place of a cell in `ORDER BY`: no value first, then the numbers, then the texts. -/
def Cell.key : Cell → ℕ ×ₗ ℚ ×ₗ String
  | .null => toLex (0, toLex (0, ""))
  | .integer value => toLex (1, toLex (value, ""))
  | .real value => toLex (1, toLex (value.val, ""))
  | .negativeZero => toLex (1, toLex (0, ""))
  | .text value => toLex (2, toLex (0, value))

def Table.rowKey (table : Table) (row : Row) : List (ℕ ×ₗ ℚ ×ₗ String) :=
  table.sortKeys.map fun name => (row name).key

/-- The cells of a row that the hash owns. -/
def Table.hashRow (table : Table) (row : Row) : List Cell :=
  table.hashColumns.map fun column => row column.name

/-- The rows of the `SELECT`, in its order. -/
def selected (table : Table) (store : Store) : List Row :=
  sortBy table.rowKey ((store table.name).filter table.hashRows)

def serializeRow (cells : List Cell) : List Char :=
  [unitSeparator].intercalate (cells.map serializeValue)

def serializeTable (table : Table) (store : Store) : List Char :=
  [recordSeparator].intercalate (((selected table store).map table.hashRow).map serializeRow)

def normalizedText (store : Store) : List Char :=
  [groupSeparator].intercalate (hashTables.map fun table => serializeTable table store)

def normalizedBytes (store : Store) : ByteArray :=
  (String.ofList (normalizedText store)).toByteArray

/-! ### What the hash owns -/

/-- The rows of a table as the hash sees them, in the order they were inserted. -/
def hashOwned (table : Table) (store : Store) : List (List Cell) :=
  ((store table.name).filter table.hashRows).map table.hashRow

/-- A text that the encoding can tell from its own marks. -/
def Cell.Clean : Cell → Prop
  | .text value => value.toList ≠ [nul] ∧ value.toList.all fun c => c ∉ separators
  | _ => True

instance (cell : Cell) : Decidable cell.Clean :=
  match cell with
  | .text value =>
    inferInstanceAs (Decidable
      (value.toList ≠ [nul] ∧ value.toList.all fun c => c ∉ separators))
  | .null | .integer _ | .real _ | .negativeZero => instDecidableTrue

/-- No hash-owned text contains a separator or is the marker of NULL. Of a table only the rows that
the `SELECT` reads count. -/
def Store.Separable (store : Store) : Prop :=
  ∀ table ∈ hashTables, ∀ row ∈ (store table.name).filter table.hashRows,
    ∀ column ∈ table.hashColumns, (row column.name).Clean

/-! ### Cells -/

section Cells

variable {cell other : Cell} {type : ColumnType} {c : Char} {x y : Binary64}

/-- What a number is written with. -/
def NumberText (text : List Char) : Prop := ∀ c ∈ text, c.isDigit ∨ c = '-' ∨ c = '.'

theorem numberText_toDigits (n : ℕ) : NumberText (Nat.toDigits 10 n) := fun c hc =>
  .inl (Json.isDigit_toDigits n c hc)

theorem numberText_renderInt (value : ℤ) : NumberText (Json.renderInt value) := by
  cases value with
  | ofNat n => exact numberText_toDigits n
  | negSucc n =>
    intro c hc
    obtain rfl | hc := List.mem_cons.1 hc
    · exact .inr (.inl rfl)
    · exact numberText_toDigits (n + 1) c hc

theorem numberText_signText (negative : Bool) : NumberText (Json.signText negative) := by
  intro c hc
  cases negative with
  | false => exact absurd hc List.not_mem_nil
  | true => exact .inr (.inl (List.mem_singleton.1 hc))

theorem numberText_number {q : ℚ} : NumberText (number q).render := by
  unfold number
  split
  · exact numberText_renderInt q.num
  · intro c hc
    rw [Json.render, String.toList_ofList, plainText] at hc
    simp only [List.mem_append, List.mem_cons] at hc
    obtain hc | hc | rfl | hc := hc
    · exact numberText_signText _ c hc
    · exact numberText_toDigits _ c hc
    · exact .inr (.inr rfl)
    · exact .inl (isDigit_fixedDigits _ _ c hc)

/-- Digits, signs and points are no marks of the encoding. -/
theorem not_mark_of_numberText {text : List Char} (h : NumberText text) (hc : c ∈ text) :
    c ≠ nul ∧ c ∉ separators := by
  have hmarks : ∀ mark ∈ nul :: separators, ¬(mark.isDigit ∨ mark = '-' ∨ mark = '.') := by
    intro mark hmark
    simp only [separators, List.mem_cons, List.not_mem_nil, or_false] at hmark
    obtain rfl | rfl | rfl | rfl := hmark <;> decide
  refine ⟨fun hnul => ?_, fun hmem => ?_⟩
  · exact hmarks c (hnul ▸ List.mem_cons_self ..) (h c hc)
  · exact hmarks c (List.mem_cons_of_mem _ hmem) (h c hc)

/-- What is written for a value is a text without marks or a number. -/
theorem numberText_serializeValue (h : cell.HasType type) (hnull : cell ≠ .null) :
    (∃ value, cell = .text value) ∨ NumberText (serializeValue cell) := by
  cases h with
  | null => exact absurd rfl hnull
  | integer value => exact .inr (numberText_renderInt value)
  | real value => exact .inr numberText_number
  | negativeZero =>
    refine .inr fun c hc => ?_
    simp only [serializeValue, List.mem_cons, List.not_mem_nil, or_false] at hc
    obtain rfl | rfl | rfl | rfl := hc <;> decide
  | text value => exact .inl ⟨value, rfl⟩

theorem serializeValue_ne_nul (h : cell.HasType type) (hclean : cell.Clean)
    (hnull : cell ≠ .null) : serializeValue cell ≠ [nul] := by
  obtain ⟨value, rfl⟩ | hnumber := numberText_serializeValue h hnull
  · exact hclean.1
  · intro heq
    rw [heq] at hnumber
    exact (not_mark_of_numberText hnumber (List.mem_singleton_self nul)).1 rfl

theorem not_mem_separators (h : cell.HasType type) (hclean : cell.Clean)
    (hc : c ∈ serializeValue cell) : c ∉ separators := by
  by_cases hnull : cell = .null
  · rw [hnull] at hc
    rw [List.mem_singleton.1 hc]
    decide
  obtain ⟨value, rfl⟩ | hnumber := numberText_serializeValue h hnull
  · exact of_decide_eq_true (List.all_eq_true.1 hclean.2 c hc)
  · exact (not_mark_of_numberText hnumber hc).2

theorem renderInt_injective {m n : ℤ} (h : Json.renderInt m = Json.renderInt n) : m = n := by
  have hread := Json.scanNumber_renderInt m Json.ends_nil
  rw [h, Json.scanNumber_renderInt n Json.ends_nil] at hread
  cases hread
  rfl

/-- A REAL is determined by its text. -/
theorem render_repr_injective (h : (number x.repr).render = (number y.repr).render) : x = y := by
  have hnumber := (written_number (isDecimal_repr x)).render_injective
    (written_number (isDecimal_repr y)) h
  have hrepr := number_injective (isDecimal_repr x) (isDecimal_repr y) hnumber
  rw [← Binary64.ofRat_repr x, hrepr, Binary64.ofRat_repr]

/-- Zero with a sign has a text of its own. -/
theorem render_repr_ne_negativeZero : (number x.repr).render ≠ ['-', '0', '.', '0'] := by
  intro h
  have hwritten : (Json.float "-0.0").Written := Accepted.written .negativeZero
  have hnumber : number x.repr = .float "-0.0" :=
    (written_number (isDecimal_repr x)).render_injective hwritten h
  unfold number at hnumber
  split at hnumber
  · cases hnumber
  · next hden =>
    have htext : plainText x.repr = ['-', '0', '.', '0'] :=
      String.ofList_injective (Json.float.inj hnumber)
    have hvalue := literalValue_plainText (isDecimal_repr x)
    rw [htext, literalValue_negativeZero] at hvalue
    rw [← hvalue] at hden
    exact hden rfl

/-- **A cell of a column is determined by its text.** -/
theorem serializeValue_injective (h : cell.HasType type) (h' : other.HasType type)
    (hclean : cell.Clean) (hclean' : other.Clean)
    (heq : serializeValue cell = serializeValue other) : cell = other := by
  -- NULL is written as no other value is
  by_cases hnull : cell = .null
  · by_contra hne
    rw [hnull] at heq hne
    exact serializeValue_ne_nul h' hclean' (Ne.symm hne) heq.symm
  by_cases hnull' : other = .null
  · rw [hnull'] at heq
    exact absurd heq (serializeValue_ne_nul h hclean hnull)
  -- values of one type are written apart
  cases h with
  | null => exact absurd rfl hnull
  | integer m =>
    cases h' with
    | null => exact absurd rfl hnull'
    | integer n => exact congrArg Cell.integer (renderInt_injective heq)
  | real x =>
    cases h' with
    | null => exact absurd rfl hnull'
    | real y => exact congrArg Cell.real (render_repr_injective heq)
    | negativeZero => exact absurd heq render_repr_ne_negativeZero
  | negativeZero =>
    cases h' with
    | null => exact absurd rfl hnull'
    | real y => exact absurd heq.symm render_repr_ne_negativeZero
    | negativeZero => rfl
  | text value =>
    cases h' with
    | null => exact absurd rfl hnull'
    | text value' => exact congrArg Cell.text (String.toList_injective heq)

/-- A cell that is no REAL has a place of its own. -/
theorem key_injective (h : cell.HasType type) (h' : other.HasType type) (hreal : type ≠ .real)
    (heq : cell.key = other.key) : cell = other := by
  -- a key tells the type of a value, then the value
  cases h with
  | null =>
    cases h' with
    | null => rfl
    | integer n => simp [Cell.key] at heq
    | real y => exact absurd rfl hreal
    | negativeZero => exact absurd rfl hreal
    | text value => simp [Cell.key] at heq
  | integer m =>
    cases h' with
    | null => simp [Cell.key] at heq
    | integer n =>
      simp only [Cell.key, toLex_inj, Prod.mk.injEq, Int.cast_inj] at heq
      rw [heq.2.1]
  | real x => exact absurd rfl hreal
  | negativeZero => exact absurd rfl hreal
  | text value =>
    cases h' with
    | null => simp [Cell.key] at heq
    | text value' =>
      simp only [Cell.key, toLex_inj, Prod.mk.injEq] at heq
      rw [heq.2.2]

end Cells

/-! ### Rows -/

section Rows

variable {table : Table} {row other : Row} {c : Char}

/-- What is known of the rows of a file. -/
structure Table.Holds (table : Table) (row : Row) : Prop where
  typed : ∀ column ∈ table.columns, (row column.name).HasType column.type
  clean : ∀ column ∈ table.hashColumns, (row column.name).Clean

theorem Table.Holds.hasType (h : table.Holds row) {column : Column}
    (hcolumn : column ∈ table.hashColumns) : (row column.name).HasType column.type :=
  h.typed column (List.mem_filter.1 hcolumn).1

theorem not_mem_serializeRow (h : table.Holds row)
    (hc : c ∈ serializeRow (table.hashRow row)) : c ≠ groupSeparator ∧ c ≠ recordSeparator := by
  obtain rfl | ⟨part, hpart, hc⟩ := mem_intercalate hc
  · decide
  obtain ⟨cell, hcell, rfl⟩ := List.mem_map.1 hpart
  obtain ⟨column, hcolumn, rfl⟩ := List.mem_map.1 hcell
  have hnone := not_mem_separators (h.hasType hcolumn) (h.clean column hcolumn) hc
  constructor
  · rintro rfl
    exact hnone (by decide)
  · rintro rfl
    exact hnone (by decide)

theorem serializeRow_ne_nil (h : table.WellFormed) : serializeRow (table.hashRow row) ≠ [] := by
  apply intercalate_ne_nil
  rw [List.length_map, Table.hashRow, List.length_map]
  exact h.two_le

/-- **The hash-owned cells of a row** are determined by its text. -/
theorem hashRow_eq (hwf : table.WellFormed) (h : table.Holds row) (h' : table.Holds other)
    (heq : serializeRow (table.hashRow row) = serializeRow (table.hashRow other)) :
    table.hashRow row = table.hashRow other := by
  have hunit : ∀ {row : Row}, table.Holds row →
      ∀ part ∈ (table.hashRow row).map serializeValue, unitSeparator ∉ part := by
    intro row hrow part hpart hmem
    obtain ⟨cell, hcell, rfl⟩ := List.mem_map.1 hpart
    obtain ⟨column, hcolumn, rfl⟩ := List.mem_map.1 hcell
    exact not_mem_separators (hrow.hasType hcolumn) (hrow.clean column hcolumn) hmem (by decide)
  have hne : ∀ row : Row, (table.hashRow row).map serializeValue ≠ [] := by
    intro row hnil
    have hlength := congrArg List.length hnil
    rw [List.length_map, Table.hashRow, List.length_map, List.length_nil] at hlength
    have htwo := hwf.two_le
    omega
  have hparts := intercalate_injective (hunit h) (hunit h') (hne row) (hne other) heq
  rw [Table.hashRow, Table.hashRow, List.map_map, List.map_map, List.map_inj_left] at hparts
  apply List.map_congr_left
  intro column hcolumn
  exact serializeValue_injective (h.hasType hcolumn) (h'.hasType hcolumn)
    (h.clean column hcolumn) (h'.clean column hcolumn) (hparts column hcolumn)

/-- Rows are sorted by hash-owned cells. -/
theorem rowKey_eq (howned : ∀ name ∈ table.sortKeys, name ∈ table.hashColumns.map (·.name))
    (h : table.hashRow row = table.hashRow other) : table.rowKey row = table.rowKey other := by
  rw [Table.hashRow, Table.hashRow, List.map_inj_left] at h
  apply List.map_congr_left
  intro name hname
  obtain ⟨column, hcolumn, rfl⟩ := List.mem_map.1 (howned name hname)
  rw [h column hcolumn]

/-- Rows with one place in the order have one primary key. -/
theorem primaryKey_eq (hwf : table.WellFormed) (h : table.Holds row) (h' : table.Holds other)
    (heq : table.rowKey row = table.rowKey other) :
    row table.primaryKey = other table.primaryKey := by
  obtain ⟨column, hcolumn, hname, hreal⟩ := hwf.key_mem
  rw [Table.rowKey, Table.rowKey, List.map_inj_left] at heq
  have hkey := heq _ hwf.key_sorted
  rw [← hname] at hkey ⊢
  exact key_injective (h.typed column hcolumn) (h'.typed column hcolumn) hreal hkey

end Rows

/-! ### Tables -/

section Tables

variable {table : Table} {store other : Store} {row : Row} {c : Char}

theorem holds_of_mem (h : store.Satisfies) (hclean : store.Separable) (htable : table ∈ hashTables)
    (hrow : row ∈ (store table.name).filter table.hashRows) : table.Holds row :=
  ⟨h.typed table htable row (List.mem_filter.1 hrow).1, hclean table htable row hrow⟩

theorem mem_of_mem_selected (h : row ∈ selected table store) :
    row ∈ (store table.name).filter table.hashRows :=
  (perm_sortBy _ _).mem_iff.1 h

theorem not_mem_serializeTable (h : store.Satisfies) (hclean : store.Separable)
    (htable : table ∈ hashTables) : groupSeparator ∉ serializeTable table store := by
  intro hmem
  obtain hrecord | ⟨part, hpart, hmem⟩ := mem_intercalate hmem
  · exact absurd hrecord (by decide)
  rw [List.map_map] at hpart
  obtain ⟨row, hrow, rfl⟩ := List.mem_map.1 hpart
  exact (not_mem_serializeRow (holds_of_mem h hclean htable (mem_of_mem_selected hrow)) hmem).1 rfl

/-- **The hash-owned rows of a table** are determined by its text. -/
theorem map_hashRow_eq (h : store.Satisfies) (h' : other.Satisfies) (hclean : store.Separable)
    (hclean' : other.Separable) (htable : table ∈ hashTables)
    (heq : serializeTable table store = serializeTable table other) :
    (selected table store).map table.hashRow = (selected table other).map table.hashRow := by
  have hwf := wellFormed_of_mem table htable
  -- no row's text holds the separator or is empty, so the join can be cut again
  have hparts : ∀ {store : Store}, store.Satisfies → store.Separable →
      ∀ part ∈ ((selected table store).map table.hashRow).map serializeRow,
        recordSeparator ∉ part ∧ part ≠ [] := by
    intro store hstore hseparable part hpart
    rw [List.map_map] at hpart
    obtain ⟨row, hrow, rfl⟩ := List.mem_map.1 hpart
    have hholds := holds_of_mem hstore hseparable htable (mem_of_mem_selected hrow)
    exact ⟨fun hmem => (not_mem_serializeRow hholds hmem).2 rfl, serializeRow_ne_nil hwf⟩
  have htexts := intercalate_injective_of_ne_nil
    (fun part hpart => (hparts h hclean part hpart).1)
    (fun part hpart => (hparts h' hclean' part hpart).1)
    (fun part hpart => (hparts h hclean part hpart).2)
    (fun part hpart => (hparts h' hclean' part hpart).2) heq
  -- equal texts are texts of equal rows
  refine map_eq_of_injOn ?_ htexts
  intro cells hcells cells' hcells' htext
  obtain ⟨row, hrow, rfl⟩ := List.mem_map.1 hcells
  obtain ⟨row', hrow', rfl⟩ := List.mem_map.1 hcells'
  exact hashRow_eq hwf (holds_of_mem h hclean htable (mem_of_mem_selected hrow))
    (holds_of_mem h' hclean' htable (mem_of_mem_selected hrow')) htext

/-- The rows are selected in one order, whatever order they were inserted in. -/
theorem selected_eq (h : store.Satisfies) (hclean : store.Separable) (htable : table ∈ hashTables)
    (hperm : (hashOwned table store).Perm (hashOwned table other)) :
    (selected table store).map table.hashRow = (selected table other).map table.hashRow := by
  have hwf := wellFormed_of_mem table htable
  obtain hname | howned := hwf.sorted_owned
  · -- the run's own table
    refine map_sortBy_eq_of_length_le_one (List.length_filter_le .. |>.trans ?_) hperm
    rw [hname]
    exact h.single
  · refine map_sortBy_eq (fun row other => rowKey_eq howned) ?_ hperm
    intro row hrow row' hrow' hkey
    have hmem := (List.mem_filter.1 hrow).1
    have hmem' := (List.mem_filter.1 hrow').1
    exact List.inj_on_of_nodup_map (h.keyed table htable) hmem hmem'
      (primaryKey_eq hwf (holds_of_mem h hclean htable hrow)
        (holds_of_mem h hclean htable hrow') hkey)

/-- **Equal bytes** are equal hash-owned rows. -/
theorem hashOwned_perm (h : store.Satisfies) (h' : other.Satisfies) (hclean : store.Separable)
    (hclean' : other.Separable) (heq : normalizedBytes store = normalizedBytes other)
    (htable : table ∈ hashTables) : (hashOwned table store).Perm (hashOwned table other) := by
  have htext : normalizedText store = normalizedText other :=
    String.ofList_injective (String.toByteArray_inj.1 heq)
  have hgroup : ∀ {store : Store}, store.Satisfies → store.Separable →
      ∀ part ∈ hashTables.map fun table => serializeTable table store,
        groupSeparator ∉ part := by
    intro store hstore hseparable part hpart
    obtain ⟨table, htable, rfl⟩ := List.mem_map.1 hpart
    exact not_mem_serializeTable hstore hseparable htable
  have hne : ∀ store : Store, (hashTables.map fun table => serializeTable table store) ≠ [] :=
    fun store => List.cons_ne_nil _ _
  have htables := intercalate_injective (hgroup h hclean) (hgroup h' hclean') (hne store)
    (hne other) htext
  rw [List.map_inj_left] at htables
  have hrows := map_hashRow_eq h h' hclean hclean' htable (htables table htable)
  calc (hashOwned table store).Perm ((selected table store).map table.hashRow) :=
        ((perm_sortBy _ _).map _).symm
    _ = (selected table other).map table.hashRow := hrows
    _ |>.Perm (hashOwned table other) := (perm_sortBy _ _).map _

/-- **Equal hash-owned rows** are equal bytes. -/
theorem normalizedBytes_congr (h : store.Satisfies) (hclean : store.Separable)
    (hperm : ∀ table ∈ hashTables, (hashOwned table store).Perm (hashOwned table other)) :
    normalizedBytes store = normalizedBytes other := by
  have htables : (hashTables.map fun table => serializeTable table store) =
      hashTables.map fun table => serializeTable table other := by
    apply List.map_congr_left
    intro table htable
    unfold serializeTable
    rw [selected_eq h hclean htable (hperm table htable)]
  unfold normalizedBytes normalizedText
  rw [htables]

/-- **The bytes of two files are equal** exactly when the files hold the same hash-owned rows; so
are their hashes, unless two different texts of bytes collide. -/
theorem normalizedBytes_eq_iff (h : store.Satisfies) (h' : other.Satisfies)
    (hclean : store.Separable) (hclean' : other.Separable) :
    (normalizedBytes store = normalizedBytes other ↔
      ∀ table ∈ hashTables, (hashOwned table store).Perm (hashOwned table other)) ∧
    ∀ sha256 : ByteArray → String,
      (sha256 (normalizedBytes store) = sha256 (normalizedBytes other) →
        normalizedBytes store = normalizedBytes other) →
      (sha256 (normalizedBytes store) = sha256 (normalizedBytes other) ↔
        ∀ table ∈ hashTables, (hashOwned table store).Perm (hashOwned table other)) := by
  have hiff : normalizedBytes store = normalizedBytes other ↔
      ∀ table ∈ hashTables, (hashOwned table store).Perm (hashOwned table other) :=
    ⟨fun heq _ => hashOwned_perm h h' hclean hclean' heq, normalizedBytes_congr h hclean⟩
  refine ⟨hiff, fun sha256 hcollision => ?_⟩
  rw [← hiff]
  exact ⟨hcollision, congrArg sha256⟩

end Tables

/-! ### Files of one run -/

section Files

/-- A row with values in some of its columns. -/
def rowOf (cells : List (String × Cell)) : Row := fun name => (cells.lookup name).getD .null

/-- The row of a run that risks one percent of 1000 a trade. -/
def run : Row := rowOf
  [("run_id", .text "run"), ("run_seq", .integer 1), ("run_name", .text "run"),
   ("strategy_id", .text "trend"), ("strategy_name", .text "trend"),
   ("strategy_version", .text "1"), ("params_json", .text "\x7b\x7d"),
   ("submitted_money_management_json", .text "\x7b\x7d"),
   ("money_management_json", .text "\x7b\x7d"), ("resolved_indicators_json", .text "[]"),
   ("params_schema_version", .text "1"), ("symbol", .text "BTCUSDT"),
   ("exchange", .text "binance"), ("timeframe", .text "1h"), ("market_type", .text "spot"),
   ("period_start", .integer 0), ("period_end", .integer 3600000), ("warmup_candles", .integer 0),
   ("indicator_mode", .text "auto"), ("trigger_feed", .text "tf_candle"),
   ("fill_timing", .text "next_bar"), ("initial_capital", .integer 100000000000),
   ("sizing_method", .text "risk_based"), ("risk_per_trade", .real (Binary64.ofRat (1 / 100))),
   ("framework_compliant", .integer 1), ("cost_values_json", .text "\x7b\x7d"),
   ("data_quality_criteria_json", .text "\x7b\x7d"), ("seed", .integer 0),
   ("engine_version", .text "1"), ("core_lib_version", .text "1"),
   ("config_hash", .text (String.ofList (List.replicate 64 'a'))),
   ("evidence_schema_version", .text "1"), ("created_at", .integer 0)]

/-- The comparison with an earlier run. -/
def deterministic : Row := rowOf
  [("check_id", .integer 1), ("run_id", .text "run"), ("check_name", .text "deterministic"),
   ("passed", .integer 1), ("checked_at", .integer 0)]

/-- A point of the equity curve. -/
def equityPoint (seq : ℤ) (value : ℚ) : Row := rowOf
  [("summary_seq", .integer seq), ("run_id", .text "run"), ("series_name", .text "equity"),
   ("bucket_ts", .integer seq), ("value", .real (Binary64.ofRat value))]

def equityPoints : List Row := [equityPoint 1 1000, equityPoint 2 990]

/-- A file of that run. -/
def file (checks points : List Row) : Store := fun name =>
  if name = backtestRunLocal.name then [run]
  else if name = integrityCheck.name then checks
  else if name = chartSummary.name then points
  else []

theorem file_valid : ∀ checks ∈ [[], [deterministic]],
    ∀ points ∈ [[], equityPoints, equityPoints.reverse],
      (file checks points).Satisfies ∧ (file checks points).Separable := by
  have hvalid : ∀ checks ∈ [[], [deterministic]],
      ∀ points ∈ [[], equityPoints, equityPoints.reverse],
        (∀ table ∈ hashTables, (∀ row ∈ file checks points table.name,
            ∀ column ∈ table.columns, (row column.name).HasType column.type) ∧
          ((file checks points table.name).map fun row => row table.primaryKey).Nodup ∧
          ∀ row ∈ file checks points table.name, ∀ column ∈ table.hashColumns,
            (row column.name).Clean) ∧
        (file checks points backtestRunLocal.name).length ≤ 1 := by
    decide +kernel
  intro checks hchecks points hpoints
  obtain ⟨htables, hsingle⟩ := hvalid checks hchecks points hpoints
  have htyped := fun table htable => (htables table htable).1
  have hkeyed := fun table htable => (htables table htable).2.1
  exact ⟨⟨htyped, hkeyed, hsingle⟩, fun table htable row hrow =>
    (htables table htable).2.2 row (List.mem_filter.1 hrow).1⟩

theorem hashOwned_reverse (table : Table) :
    (hashOwned table (file [] equityPoints)).Perm
      (hashOwned table (file [] equityPoints.reverse)) := by
  refine (List.Perm.filter _ ?_).map _
  unfold file
  split_ifs
  · exact List.Perm.refl _
  · exact List.Perm.refl _
  · exact (List.reverse_perm _).symm
  · exact List.Perm.refl _

/-- Points inserted in the opposite order leave the same bytes. -/
theorem normalizedBytes_reverse :
    normalizedBytes (file [] equityPoints) = normalizedBytes (file [] equityPoints.reverse) := by
  have hvalid := file_valid [] (by simp) equityPoints (by simp)
  have hreverse := file_valid [] (by simp) equityPoints.reverse (by simp)
  exact (normalizedBytes_eq_iff hvalid.1 hreverse.1 hvalid.2 hreverse.2).1.2
    fun table _ => hashOwned_reverse table

/-- **The comparison with an earlier run** leaves no bytes: a file with it has other rows and
the same bytes. -/
theorem normalizedBytes_deterministic :
    ∃ store other : Store, (store.Satisfies ∧ store.Separable) ∧
      (other.Satisfies ∧ other.Separable) ∧ normalizedBytes store = normalizedBytes other ∧
      ∃ table ∈ hashTables, ¬((store table.name).map table.hashRow).Perm
        ((other table.name).map table.hashRow) := by
  have hwithout := file_valid [] (by simp) [] (by simp)
  have hwith := file_valid [deterministic] (by simp) [] (by simp)
  have hmem : integrityCheck ∈ hashTables := by simp [hashTables]
  -- the two files differ in a row that no hash reads
  have hexcluded : ∀ table ∈ hashTables, table.name = integrityCheck.name →
      table.hashRows deterministic = false := by decide
  refine ⟨file [] [], file [deterministic] [], hwithout, hwith, ?_, integrityCheck, hmem, ?_⟩
  · refine normalizedBytes_congr hwithout.1 hwithout.2 fun table htable => ?_
    have hrows : (file [] [] table.name).filter table.hashRows =
        (file [deterministic] [] table.name).filter table.hashRows := by
      by_cases hname : table.name = integrityCheck.name
      · rw [hname]
        show _ = [deterministic].filter table.hashRows
        rw [List.filter_cons_of_neg (by simp [hexcluded table htable hname])]
        rfl
      · unfold file
        rw [if_neg hname, if_neg hname]
    unfold hashOwned
    rw [hrows]
  · intro hperm
    exact absurd hperm.length_eq (by decide)

end Files

end EvidenceHash
end TradingSystem
