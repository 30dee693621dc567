import TradingSystem.Types.Candle
import TradingSystem.Logic.Program

/-!
# Historical backfill

Both backfills of the collector page through an exchange with a cursor: ask for rows from
the cursor on, check the page, write its rows of the range and move the cursor past the
last row. `Series` says what the candle and the funding backfill differ in, `Series.advance`
is one round of the loop, and an environment answers every round as it likes.

* `Laws` — what holds after every round.
* `laws_after` — it does, whatever exchange and repository answer.
* `ends_after` — the loop ends after at most as many pages as the range has steps.
* `completes_of_valid` — over valid pages it ends without an error.
* `backfill_exact` — all of it, for candles and for funding.
-/

namespace TradingSystem
namespace Collector

open Logic

/-! ### Rows -/

/-- A configured symbol of an exchange. -/
structure Symbol where
  value : String
  exchange : String
deriving DecidableEq

/-- A confirmed one-minute futures candle. -/
structure Candle where
  symbol : String
  exchange : String
  timeframe : String
  openTime : ℤ
  openPrice : Decimal
  high : Decimal
  low : Decimal
  close : Decimal
  volume : Decimal
  quoteVolume : Option Decimal
  tradeCount : Option ℕ
  timeframe_eq : timeframe = "1m"
  openTime_aligned : openTime % Instant.minute = 0
  symbol_ne : symbol ≠ ""
  exchange_ne : exchange ≠ ""
  prices_pos : 0 < openPrice ∧ 0 < high ∧ 0 < low ∧ 0 < close
  high_ge : max openPrice close ≤ high
  low_le : low ≤ min openPrice close
  volume_nonneg : 0 ≤ volume
  quoteVolume_nonneg : ∀ quote ∈ quoteVolume, 0 ≤ quote

/-- An observed funding settlement; a mark that is not positive is dropped. -/
structure FundingRate where
  symbol : String
  exchange : String
  time : ℤ
  fundingRate : Decimal
  markPrice : Option Decimal
  symbol_ne : symbol ≠ ""
  exchange_ne : exchange ≠ ""
  markPrice_pos : ∀ mark ∈ markPrice, 0 < mark

/-! ### The loop -/

/-- What the two backfills differ in: the time of a row, the step past the last row, the
check of a page and the error of a page that does not advance. -/
structure Series (ρ : Type) where
  time : ρ → ℤ
  step : ℤ
  validatePage : ℤ → List ρ → Except Fault Unit
  stuck : Fault

def validatedRange (start stop : ℤ) : Except Fault Unit :=
  require (start < stop) (.valueError "start must precede end")

/-- How far the loop is. -/
inductive Status
  | running
  | completed
  | raised (fault : Fault)
deriving DecidableEq

/-- An answered page and the cursor it was asked from. -/
structure Page (ρ : Type) where
  since : ℤ
  rows : List ρ

/-- The variables of the loop, the pages it went through and the batches it wrote. -/
structure Progress (ρ : Type) where
  status : Status
  cursor : ℤ
  pageCount : ℕ
  fetchedCount : ℕ
  persistedCount : ℕ
  pages : List (Page ρ)
  batches : List (List ρ)

/-- An exchange and a repository: what each answers in a round. -/
structure Environment (ρ : Type) where
  fetchPage : ℕ → ℤ → Except Fault (List ρ)
  upsertBatch : ℕ → List ρ → Except Fault Unit

namespace Series

variable {ρ : Type} (series : Series ρ)

/-- The rows of a page that are in the range. -/
def inRange (start stop : ℤ) (page : List ρ) : List ρ :=
  page.filter fun row => start ≤ series.time row ∧ series.time row < stop

/-- The batches after those of one page: an empty one is not written. -/
def batchesOf (rows : List ρ) : List (List ρ) := if rows.isEmpty then [] else [rows]

/-- The rest of a round, after the batch is written. -/
def passed (start stop : ℤ) (page : List ρ) (last : ρ) (progress : Progress ρ) : Progress ρ :=
  let rows := series.inRange start stop page
  let next := series.time last + series.step
  { progress with
    status := if next ≤ progress.cursor then .raised series.stuck else .running
    cursor := if next ≤ progress.cursor then progress.cursor else next
    pageCount := progress.pageCount + 1
    fetchedCount := progress.fetchedCount + page.length
    persistedCount := progress.persistedCount + rows.length
    pages := progress.pages ++ [⟨progress.cursor, page⟩]
    batches := progress.batches ++ batchesOf rows }

/-- What the loop does with an answered page. -/
def handle (start stop : ℤ) (upsert : List ρ → Except Fault Unit) (progress : Progress ρ)
    (page : List ρ) : Progress ρ :=
  match series.validatePage progress.cursor page with
  | .error fault => { progress with status := .raised fault }
  | .ok _ =>
    match page.getLast? with
    | none => { progress with status := .completed }
    | some last =>
      match (if (series.inRange start stop page).isEmpty then .ok ()
        else upsert (series.inRange start stop page)) with
      | .error fault => { progress with status := .raised fault }
      | .ok _ => series.passed start stop page last progress

/-- One round of the loop. -/
def advance (start stop : ℤ) (environment : Environment ρ) (progress : Progress ρ) :
    Progress ρ :=
  if progress.status ≠ .running then progress
  else if stop ≤ progress.cursor then { progress with status := .completed }
  else
    match environment.fetchPage progress.pageCount progress.cursor with
    | .error fault => { progress with status := .raised fault }
    | .ok page =>
    series.handle start stop (environment.upsertBatch progress.pageCount) progress page

/-- The loop before its first round, or what the checks of the range raise. -/
def begin (checked : Except Fault Unit) (start : ℤ) : Progress ρ where
  status :=
    match checked with
    | .ok _ => .running
    | .error fault => .raised fault
  cursor := start
  pageCount := 0
  fetchedCount := 0
  persistedCount := 0
  pages := []
  batches := []

/-- The loop after some rounds. -/
def after (checked : Except Fault Unit) (start stop : ℤ) (environment : Environment ρ) :
    ℕ → Progress ρ
  | 0 => begin checked start
  | n + 1 => series.advance start stop environment (after checked start stop environment n)

end Series

/-! ### The two backfills -/

/-- `require_strictly_increasing`, and the same check of funding rows. -/
def requireStrictlyIncreasing {ρ : Type} (time : ρ → ℤ) (message : String) (page : List ρ) :
    Except Fault Unit :=
  (page.zip page.tail).forM fun pair => require (time pair.1 < time pair.2) (.valueError message)

namespace HistoricalBackfill

def validatePage (symbol : Symbol) (cursor : ℤ) (page : List Candle) : Except Fault Unit := do
  requireStrictlyIncreasing Candle.openTime
    "completed candle open_time must be strictly increasing" page
  page.forM fun candle => do
    require (candle.symbol = symbol.value ∧ candle.exchange = symbol.exchange ∧
      candle.timeframe = "1m")
      (.valueError "exchange response crossed the configured candle series")
    require (cursor ≤ candle.openTime)
      (.valueError "OHLCV backfill page contains a row before since")

/-- Candles, a minute apart. -/
def series (symbol : Symbol) : Series Candle where
  time := Candle.openTime
  step := Instant.minute
  validatePage := validatePage symbol
  stuck := .valueError "OHLCV backfill page did not advance the since cursor"

/-- The checks of `HistoricalBackfill.run`. -/
def checkRange (start stop : ℤ) : Except Fault Unit := do
  validatedRange start stop
  require (start % Instant.minute = 0 ∧ stop % Instant.minute = 0)
    (.valueError "OHLCV backfill range must align to UTC minute boundaries")

/-- `HistoricalBackfill.run`, after some rounds. -/
def run (symbol : Symbol) (start stop : ℤ) (environment : Environment Candle) (rounds : ℕ) :
    Progress Candle :=
  (series symbol).after (checkRange start stop) start stop environment rounds

end HistoricalBackfill

namespace FundingBackfill

def validatePage (symbol : Symbol) (cursor : ℤ) (page : List FundingRate) : Except Fault Unit := do
  requireStrictlyIncreasing FundingRate.time "funding times must be strictly increasing" page
  page.forM fun rate => do
    require (rate.symbol = symbol.value ∧ rate.exchange = symbol.exchange)
      (.valueError "exchange response crossed the configured funding series")
    require (cursor ≤ rate.time) (.valueError "funding backfill page contains a row before since")

/-- Settlements, a millisecond apart at least. -/
def series (symbol : Symbol) : Series FundingRate where
  time := FundingRate.time
  step := Instant.millisecond
  validatePage := validatePage symbol
  stuck := .valueError "funding backfill page did not advance the since cursor"

/-- `FundingBackfill.run`, after some rounds. -/
def run (symbol : Symbol) (start stop : ℤ) (environment : Environment FundingRate) (rounds : ℕ) :
    Progress FundingRate :=
  (series symbol).after (validatedRange start stop) start stop environment rounds

end FundingBackfill

/-! ### What a round does -/

namespace Series

variable {ρ : Type} {series : Series ρ} {start stop : ℤ} {environment : Environment ρ}
  {progress : Progress ρ} {checked : Except Fault Unit}

/-- Why the loop leaves its cursor where it is: the range is done, the exchange shows nothing
from the cursor on, or a port or a check raises. -/
inductive Stops (series : Series ρ) (stop : ℤ) (environment : Environment ρ)
    (progress : Progress ρ) : Status → Prop
  | done : stop ≤ progress.cursor → Stops series stop environment progress .completed
  | nothing : environment.fetchPage progress.pageCount progress.cursor = .ok [] →
    Stops series stop environment progress .completed
  | exchange {fault : Fault} :
    environment.fetchPage progress.pageCount progress.cursor = .error fault →
    Stops series stop environment progress (.raised fault)
  | page {fault : Fault} {page : List ρ} :
    environment.fetchPage progress.pageCount progress.cursor = .ok page →
    series.validatePage progress.cursor page = .error fault →
    Stops series stop environment progress (.raised fault)
  | repository {fault : Fault} {rows : List ρ} :
    environment.upsertBatch progress.pageCount rows = .error fault →
    Stops series stop environment progress (.raised fault)

/-- **One round** does nothing after the end, ends the loop, or passes a page. -/
theorem advance_cases (series : Series ρ) (start stop : ℤ) (environment : Environment ρ)
    (progress : Progress ρ) :
    (progress.status ≠ .running ∧
      series.advance start stop environment progress = progress) ∨
    (progress.status = .running ∧ ∃ status, Stops series stop environment progress status ∧
      series.advance start stop environment progress = { progress with status := status }) ∨
    (progress.status = .running ∧ progress.cursor < stop ∧ ∃ page last,
      environment.fetchPage progress.pageCount progress.cursor = .ok page ∧
      series.validatePage progress.cursor page = .ok () ∧ page.getLast? = some last ∧
      series.advance start stop environment progress =
        series.passed start stop page last progress) := by
  -- the branches of one round, in the order in which the loop can leave it
  unfold advance
  by_cases hrunning : progress.status = .running
  · right
    rw [if_neg (by simpa using hrunning)]
    by_cases hdone : stop ≤ progress.cursor
    · rw [if_pos hdone]
      exact Or.inl ⟨hrunning, _, .done hdone, rfl⟩
    · rw [if_neg hdone]
      cases hfetch : environment.fetchPage progress.pageCount progress.cursor with
      | error fault => exact Or.inl ⟨hrunning, _, .exchange hfetch, rfl⟩
      | ok page =>
        simp only [handle]
        cases hvalid : series.validatePage progress.cursor page with
        | error fault => exact Or.inl ⟨hrunning, _, .page hfetch hvalid, rfl⟩
        | ok u =>
          cases hlast : page.getLast? with
          | none =>
            rw [List.getLast?_eq_none_iff] at hlast
            exact Or.inl ⟨hrunning, _, .nothing (hlast ▸ hfetch), rfl⟩
          | some last =>
            -- a page outside the range is passed without a write
            by_cases hempty : (series.inRange start stop page).isEmpty
            · right
              refine ⟨hrunning, not_le.1 hdone, page, last, rfl, hvalid, hlast, ?_⟩
              simp only [hempty, if_true]
            · cases hupsert : environment.upsertBatch progress.pageCount
                  (series.inRange start stop page) with
              | error fault =>
                left
                refine ⟨hrunning, _, .repository hupsert, ?_⟩
                simp only [hempty, Bool.false_eq_true, if_false]
              | ok u =>
                right
                refine ⟨hrunning, not_le.1 hdone, page, last, rfl, hvalid, hlast, ?_⟩
                simp only [hempty, Bool.false_eq_true, if_false]
  · left
    exact ⟨hrunning, if_pos hrunning⟩

/-! ### The laws -/

/-- What the loop relies on: its step is positive and its check of a page is strict. -/
structure Checked (series : Series ρ) : Prop where
  step_pos : 0 < series.step
  increasing : ∀ cursor page, series.validatePage cursor page = .ok () →
    page.Pairwise fun row row' => series.time row < series.time row'
  since_le : ∀ cursor page, series.validatePage cursor page = .ok () →
    ∀ row ∈ page, cursor ≤ series.time row

/-- All rows the exchange returned. -/
def Progress.rows (progress : Progress ρ) : List ρ := progress.pages.flatMap Page.rows

/-- **The laws of the loop.** -/
structure Laws (series : Series ρ) (start stop : ℤ) (environment : Environment ρ)
    (progress : Progress ρ) : Prop where
  /-- the pages are the answers of the exchange, in turn -/
  answered : ∀ index page, progress.pages[index]? = some page →
    environment.fetchPage index page.since = .ok page.rows
  /-- every returned row of the range is written exactly once, and no other row -/
  written : progress.batches.flatten = series.inRange start stop (Progress.rows progress)
  /-- in increasing time order -/
  increasing : (Progress.rows progress).Pairwise fun row row' => series.time row < series.time row'
  /-- the cursor starts at the start and gains a step with every page -/
  advancing : (progress.pages.map Page.since ++ [progress.cursor]).Pairwise
    fun cursor cursor' => cursor + series.step ≤ cursor'
  from_start : (progress.pages.map Page.since ++ [progress.cursor]).head? = some start
  /-- the cursor is past every row -/
  passed : ∀ row ∈ Progress.rows progress, series.time row + series.step ≤ progress.cursor
  /-- a position of the rows' grid without a row was passed because of a later row -/
  hole : ∀ instant, start ≤ instant → instant < progress.cursor →
    (∀ row ∈ Progress.rows progress, series.time row ≠ instant ∧
      series.step ∣ series.time row - instant) →
    ∃ page ∈ progress.pages, page.since ≤ instant ∧ ∃ row ∈ page.rows, instant < series.time row
  pageCount_eq : progress.pageCount = progress.pages.length
  fetchedCount_eq : progress.fetchedCount = (Progress.rows progress).length
  persistedCount_eq : progress.persistedCount = progress.batches.flatten.length

theorem laws_begin (series : Series ρ) (start stop : ℤ) (environment : Environment ρ)
    (checked : Except Fault Unit) : Laws series start stop environment (begin checked start) where
  answered := by
    intro index page h
    cases h
  written := rfl
  increasing := .nil
  advancing := List.pairwise_singleton ..
  from_start := rfl
  passed := nofun
  hole := by
    intro instant hle hlt _
    exact absurd hlt (not_lt.2 hle)
  pageCount_eq := rfl
  fetchedCount_eq := rfl
  persistedCount_eq := rfl

/-- The laws do not depend on the status. -/
theorem Laws.withStatus (h : Laws series start stop environment progress) (status : Status) :
    Laws series start stop environment { progress with status := status } :=
  ⟨h.answered, h.written, h.increasing, h.advancing, h.from_start, h.passed, h.hole,
    h.pageCount_eq, h.fetchedCount_eq, h.persistedCount_eq⟩

theorem flatten_batchesOf (rows : List ρ) : (batchesOf rows).flatten = rows := by
  unfold batchesOf
  split
  · next h => exact (List.isEmpty_iff.1 h).symm
  · exact List.flatten_singleton ..

section Passed

variable {page : List ρ} {last : ρ}

/-- The last row of a checked page is its latest. -/
theorem time_le_of_getLast?
    (hpage : page.Pairwise fun row row' => series.time row < series.time row')
    (hlast : page.getLast? = some last) {row : ρ} (hrow : row ∈ page) :
    series.time row ≤ series.time last := by
  obtain ⟨init, rfl⟩ := List.getLast?_eq_some_iff.1 hlast
  rw [List.mem_append, List.mem_singleton] at hrow
  rcases hrow with hinit | rfl
  · exact ((List.pairwise_append.1 hpage).2.2 row hinit last (List.mem_singleton.2 rfl)).le
  · exact le_rfl

/-- A checked page moves the cursor by a step at least. -/
theorem Checked.cursor_add_step_le (hchecked : Checked series)
    (hvalid : series.validatePage progress.cursor page = .ok ())
    (hlast : page.getLast? = some last) :
    progress.cursor + series.step ≤ series.time last + series.step :=
  add_le_add_left (hchecked.since_le _ _ hvalid last (List.mem_of_getLast? hlast)) _

/-- So the loop goes on behind it. -/
theorem Checked.passed_eq (hchecked : Checked series)
    (hvalid : series.validatePage progress.cursor page = .ok ())
    (hlast : page.getLast? = some last) :
    (series.passed start stop page last progress).status = .running ∧
      (series.passed start stop page last progress).cursor = series.time last + series.step := by
  have hmoves := hchecked.cursor_add_step_le hvalid hlast
  have hstep := hchecked.step_pos
  have hnot : ¬series.time last + series.step ≤ progress.cursor := by omega
  unfold Series.passed
  exact ⟨if_neg hnot, if_neg hnot⟩

theorem rows_passed : Progress.rows (series.passed start stop page last progress) =
    Progress.rows progress ++ page := by
  unfold Progress.rows Series.passed
  simp

/-- **A passed page keeps the laws.** -/
theorem Laws.pass (hchecked : Checked series) (h : Laws series start stop environment progress)
    (hfetch : environment.fetchPage progress.pageCount progress.cursor = .ok page)
    (hvalid : series.validatePage progress.cursor page = .ok ())
    (hlast : page.getLast? = some last) :
    Laws series start stop environment (series.passed start stop page last progress) := by
  have hpage := hchecked.increasing _ _ hvalid
  have hsince := hchecked.since_le _ _ hvalid
  have hmoves := hchecked.cursor_add_step_le hvalid hlast
  have hstep := hchecked.step_pos
  have hcursor : (series.passed start stop page last progress).cursor =
      series.time last + series.step := (hchecked.passed_eq hvalid hlast).2
  have hpages : (series.passed start stop page last progress).pages =
      progress.pages ++ [⟨progress.cursor, page⟩] := rfl
  -- one case for each law; only the last page and the cursor behind it are new
  constructor
  case answered =>
    intro index answer hanswer
    rw [hpages, List.getElem?_append] at hanswer
    split at hanswer
    · exact h.answered index answer hanswer
    · rename_i hindex
      rw [List.getElem?_singleton] at hanswer
      split at hanswer
      · cases hanswer
        -- the new answer has the number of the page just fetched
        have heq : index = progress.pageCount := by
          rw [h.pageCount_eq]
          omega
        rw [heq]
        exact hfetch
      · cases hanswer
  case written =>
    rw [rows_passed]
    change (progress.batches ++ batchesOf _).flatten = _
    rw [List.flatten_append, flatten_batchesOf, h.written]
    exact (List.filter_append ..).symm
  case increasing =>
    rw [rows_passed, List.pairwise_append]
    refine ⟨h.increasing, hpage, ?_⟩
    intro row hrow row' hrow'
    have hbefore := h.passed row hrow
    have hafter := hsince row' hrow'
    omega
  case advancing =>
    rw [hpages, hcursor, List.map_append, List.map_singleton, List.pairwise_append]
    refine ⟨h.advancing, List.pairwise_singleton .., ?_⟩
    intro cursor hmem cursor' hmem'
    rw [List.mem_singleton] at hmem'
    rw [List.mem_append, List.mem_singleton] at hmem
    rcases hmem with hearlier | rfl
    · have hpairs := (List.pairwise_append.1 h.advancing).2.2 cursor hearlier progress.cursor
        (List.mem_singleton.2 rfl)
      omega
    · change progress.cursor + series.step ≤ cursor'
      omega
  case from_start =>
    rw [hpages, List.map_append, List.map_singleton, List.head?_append, h.from_start]
    rfl
  case passed =>
    rw [rows_passed, hcursor]
    intro row hrow
    rcases List.mem_append.1 hrow with hearlier | hnew
    · have hbefore := h.passed row hearlier
      omega
    · have hle := time_le_of_getLast? hpage hlast hnew
      omega
  case hole =>
    rw [rows_passed, hcursor, hpages]
    intro instant hle hlt hgrid
    by_cases hearlier : instant < progress.cursor
    · obtain ⟨answer, hanswer, hrest⟩ := h.hole instant hle hearlier fun row hrow =>
        hgrid row (List.mem_append_left _ hrow)
      exact ⟨answer, List.mem_append_left _ hanswer, hrest⟩
    · -- on the grid nothing lies between the last row and the new cursor
      have hmem := List.mem_of_getLast? hlast
      obtain ⟨hne, k, hk⟩ := hgrid last (List.mem_append_right _ hmem)
      refine ⟨⟨progress.cursor, page⟩, List.mem_append_right _ (List.mem_singleton.2 rfl),
        not_lt.1 hearlier, last, hmem, ?_⟩
      by_contra hnot
      have hneg : series.step * k < 0 := by
        rw [← hk]
        omega
      have hk' : k ≤ -1 := by
        by_contra hpos
        exact absurd hneg (not_lt.2 (mul_nonneg hstep.le (by omega)))
      have hbound : series.step * k ≤ series.step * (-1) := mul_le_mul_of_nonneg_left hk' hstep.le
      omega
  case pageCount_eq =>
    rw [hpages, List.length_append, List.length_singleton, ← h.pageCount_eq]
    rfl
  case fetchedCount_eq =>
    rw [rows_passed, List.length_append, ← h.fetchedCount_eq]
    rfl
  case persistedCount_eq =>
    change _ = (progress.batches ++ batchesOf _).flatten.length
    rw [List.flatten_append, flatten_batchesOf, List.length_append, ← h.persistedCount_eq]
    rfl

end Passed

/-- **The laws hold after every round**, whatever the ports answer. -/
theorem laws_after (hchecked : Checked series) (checked : Except Fault Unit) (start stop : ℤ)
    (environment : Environment ρ) (rounds : ℕ) :
    Laws series start stop environment (series.after checked start stop environment rounds) := by
  induction rounds with
  | zero => exact laws_begin ..
  | succ n ih =>
    change Laws _ _ _ _ (series.advance start stop environment _)
    rcases advance_cases series start stop environment
        (series.after checked start stop environment n) with
      ⟨-, heq⟩ | ⟨-, status, -, heq⟩ | ⟨-, -, page, last, hfetch, hvalid, hlast, heq⟩
    · rw [heq]
      exact ih
    · rw [heq]
      exact ih.withStatus status
    · rw [heq]
      exact ih.pass hchecked hfetch hvalid hlast

/-! ### The end of the loop -/

/-- A loop that still runs has passed a page in every round. -/
theorem pageCount_of_running {rounds : ℕ}
    (h : (series.after checked start stop environment rounds).status = .running) :
    (series.after checked start stop environment rounds).pageCount = rounds := by
  induction rounds with
  | zero => rfl
  | succ n ih =>
    change (series.advance start stop environment _).status = _ at h
    change (series.advance start stop environment _).pageCount = _
    rcases advance_cases series start stop environment
        (series.after checked start stop environment n) with
      ⟨hstatus, heq⟩ | ⟨-, status, hstops, heq⟩ | ⟨hrunning, -, page, last, -, -, -, heq⟩
    · rw [heq] at h
      exact absurd h hstatus
    · rw [heq] at h
      change status = _ at h
      rw [h] at hstops
      cases hstops
    · rw [heq]
      exact congrArg (· + 1) (ih hrunning)

/-- Cursors that gain a step each are as many steps ahead. -/
theorem start_add_le {cursors : List ℤ} {step cursor : ℤ}
    (h : (cursors ++ [cursor]).Pairwise fun c c' => c + step ≤ c')
    (hstart : (cursors ++ [cursor]).head? = some start) :
    start + cursors.length * step ≤ cursor := by
  induction cursors generalizing start with
  | nil =>
    cases hstart
    simp
  | cons first rest ih =>
    cases hstart
    rw [List.cons_append, List.pairwise_cons] at h
    cases hrest : rest ++ [cursor] with
    | nil => simp at hrest
    | cons second others =>
      have hsecond := h.1 second (by rw [hrest]; exact List.mem_cons_self)
      have hih := ih h.2 (by rw [hrest]; rfl)
      rw [List.length_cons]
      push_cast
      linarith

/-- **The loop ends** when it has had as many rounds as the range has steps, and one more. -/
theorem ends_after (hchecked : Checked series) {rounds : ℕ}
    (h : stop ≤ start + rounds * series.step) :
    (series.after checked start stop environment (rounds + 1)).status ≠ .running := by
  intro hstatus
  change (series.advance start stop environment _).status = _ at hstatus
  rcases advance_cases series start stop environment
      (series.after checked start stop environment rounds) with
    ⟨hne, heq⟩ | ⟨-, status, hstops, heq⟩ | ⟨hrunning, hcursor, -⟩
  · rw [heq] at hstatus
    exact hne hstatus
  · rw [heq] at hstatus
    change status = _ at hstatus
    rw [hstatus] at hstops
    cases hstops
  · have hlaws := laws_after hchecked checked start stop environment rounds
    have hahead := start_add_le hlaws.advancing hlaws.from_start
    rw [List.length_map, ← hlaws.pageCount_eq, pageCount_of_running hrunning] at hahead
    omega

/-- Why the loop has ended. -/
theorem ended_after (hchecked : Checked series) {rounds : ℕ} {status : Status}
    (h : (series.after checked start stop environment rounds).status = status)
    (hended : status ≠ .running) :
    (∃ fault, checked = .error fault ∧ status = .raised fault) ∨
      Stops series stop environment (series.after checked start stop environment rounds)
        status := by
  induction rounds with
  | zero =>
    -- before the first round only a refused range ends the loop
    left
    cases checked with
    | ok u => exact absurd h.symm hended
    | error fault => exact ⟨fault, rfl, h.symm⟩
  | succ n ih =>
    change (series.advance start stop environment _).status = _ at h
    change _ ∨ Stops _ _ _ (series.advance start stop environment _) _
    rcases advance_cases series start stop environment
        (series.after checked start stop environment n) with
      ⟨-, heq⟩ | ⟨-, other, hstops, heq⟩ | ⟨-, -, page, last, -, hvalid, hlast, heq⟩
    · rw [heq] at h ⊢
      exact ih h
    · rw [heq] at h ⊢
      cases h
      right
      -- what stopped the loop is still there, as it left the cursor alone
      cases hstops with
      | done hdone => exact .done hdone
      | nothing hnothing => exact .nothing hnothing
      | exchange hexchange => exact .exchange hexchange
      | page hfetch hpage => exact .page hfetch hpage
      | repository hrepository => exact .repository hrepository
    · rw [heq, (hchecked.passed_eq hvalid hlast).1] at h
      exact absurd h.symm hended

/-- An environment that answers with checked pages and writes every batch. -/
structure Answers (series : Series ρ) (environment : Environment ρ) : Prop where
  page : ∀ round since, ∃ page, environment.fetchPage round since = .ok page ∧
    series.validatePage since page = .ok ()
  upsert : ∀ round rows, environment.upsertBatch round rows = .ok ()

/-- **Over checked pages the loop completes**: the range is done, or the exchange shows
nothing more. -/
theorem completes_of_answers (hchecked : Checked series) (hrange : checked = .ok ())
    (hanswers : Answers series environment) {rounds : ℕ}
    (h : stop ≤ start + rounds * series.step) :
    (series.after checked start stop environment (rounds + 1)).status = .completed := by
  have hends : (series.after checked start stop environment (rounds + 1)).status ≠ .running :=
    ends_after hchecked h
  rcases ended_after hchecked rfl hends with ⟨fault, hfault, -⟩ | hstops
  · rw [hrange] at hfault
    cases hfault
  · generalize (series.after checked start stop environment (rounds + 1)).status = status at hstops
    -- of the ways to stop, only the good ones are left
    cases hstops with
    | done => rfl
    | nothing => rfl
    | exchange hexchange =>
      obtain ⟨page, hpage, -⟩ := hanswers.page (series.after checked start stop environment
        (rounds + 1)).pageCount (series.after checked start stop environment (rounds + 1)).cursor
      rw [hpage] at hexchange
      cases hexchange
    | page hfetch hinvalid =>
      obtain ⟨page, hpage, hvalid⟩ := hanswers.page (series.after checked start stop environment
        (rounds + 1)).pageCount (series.after checked start stop environment (rounds + 1)).cursor
      rw [hpage] at hfetch
      cases hfetch
      rw [hvalid] at hinvalid
      cases hinvalid
    | repository hrepository =>
      rw [hanswers.upsert] at hrepository
      cases hrepository

/-- Everything about one backfill: the laws after every round, an end after as many rounds as
the range has steps and one more, its reason, and completion over checked pages. -/
structure Exact (series : Series ρ) (checked : Except Fault Unit) (start stop : ℤ)
    (run : Environment ρ → ℕ → Progress ρ) : Prop where
  laws : ∀ environment rounds, Laws series start stop environment (run environment rounds)
  ends : ∀ environment (rounds : ℕ), stop ≤ start + rounds * series.step →
    (run environment (rounds + 1)).status ≠ .running
  reason : ∀ environment rounds status, (run environment rounds).status = status →
    status ≠ .running → (∃ fault, checked = .error fault ∧ status = .raised fault) ∨
      Stops series stop environment (run environment rounds) status
  completes : checked = .ok () → ∀ environment, Answers series environment →
    ∀ rounds : ℕ, stop ≤ start + rounds * series.step →
      (run environment (rounds + 1)).status = .completed

theorem Checked.exact (hchecked : Checked series) (checked : Except Fault Unit) (start stop : ℤ) :
    Exact series checked start stop (series.after checked start stop) :=
  ⟨laws_after hchecked checked start stop, fun _ _ => ends_after hchecked,
    fun _ _ _ => ended_after hchecked, fun hrange _ hanswers _ =>
      completes_of_answers hchecked hrange hanswers⟩

end Series

/-! ### Both series are checked -/

theorem forM_eq_ok {α : Type} {items : List α} {check : α → Except Fault Unit} :
    items.forM check = .ok () ↔ ∀ item ∈ items, check item = .ok () := by
  induction items with
  | nil => exact ⟨fun _ => nofun, fun _ => rfl⟩
  | cons item rest ih =>
    change (check item >>= fun _ => rest.forM check) = .ok () ↔ _
    rw [Except.bind_eq_ok, List.forall_mem_cons]
    constructor
    · rintro ⟨⟨⟩, hitem, hrest⟩
      exact ⟨hitem, ih.1 hrest⟩
    · rintro ⟨hitem, hrest⟩
      exact ⟨(), hitem, ih.2 hrest⟩

/-- Neighbours in order are all in order. -/
theorem requireStrictlyIncreasing_eq_ok {ρ : Type} {time : ρ → ℤ} {message : String}
    {page : List ρ} : requireStrictlyIncreasing time message page = .ok () ↔
      page.Pairwise fun row row' => time row < time row' := by
  unfold requireStrictlyIncreasing
  rw [forM_eq_ok]
  induction page with
  | nil => exact ⟨fun _ => .nil, fun _ => nofun⟩
  | cons first rest ih =>
    cases rest with
    | nil => exact ⟨fun _ => List.pairwise_singleton .., fun _ => nofun⟩
    | cons second others =>
      rw [List.tail_cons, List.zip_cons_cons, List.forall_mem_cons, require_eq_ok]
      rw [List.tail_cons] at ih
      rw [ih]
      -- the check compares neighbours, and the order is transitive
      constructor
      · rintro ⟨hfirst, hrest⟩
        refine List.pairwise_cons.2 ⟨?_, hrest⟩
        intro row hrow
        rcases List.mem_cons.1 hrow with rfl | hother
        · exact hfirst
        · exact hfirst.trans ((List.pairwise_cons.1 hrest).1 row hother)
      · intro hall
        obtain ⟨hfirst, hrest⟩ := List.pairwise_cons.1 hall
        exact ⟨hfirst second List.mem_cons_self, hrest⟩

/-- Two checks of a page: its rows are in order, and each passes checks that end with the one
against the cursor. -/
theorem rows_checked {ρ : Type} {time : ρ → ℤ} {cursor : ℤ} {page : List ρ}
    {order range : String} {own : ρ → Except Fault Unit}
    (h : (do
      requireStrictlyIncreasing time order page
      page.forM fun row => do
        own row
        require (cursor ≤ time row) (.valueError range) : Except Fault Unit) = .ok ()) :
    (page.Pairwise fun row row' => time row < time row') ∧ ∀ row ∈ page, cursor ≤ time row := by
  rw [Except.bind_eq_ok] at h
  obtain ⟨⟨⟩, hincreasing, hrows⟩ := h
  refine ⟨requireStrictlyIncreasing_eq_ok.1 hincreasing, ?_⟩
  intro row hrow
  have hcheck := forM_eq_ok.1 hrows row hrow
  rw [Except.bind_eq_ok] at hcheck
  obtain ⟨-, -, hsince⟩ := hcheck
  exact require_eq_ok.1 hsince

theorem HistoricalBackfill.checked_series (symbol : Symbol) :
    Series.Checked (series symbol) where
  step_pos := by
    change (0 : ℤ) < Instant.minute
    decide
  increasing := by
    intro cursor page h
    exact (rows_checked h).1
  since_le := by
    intro cursor page h
    exact (rows_checked h).2

theorem FundingBackfill.checked_series (symbol : Symbol) : Series.Checked (series symbol) where
  step_pos := by
    change (0 : ℤ) < Instant.millisecond
    decide
  increasing := by
    intro cursor page h
    exact (rows_checked h).1
  since_le := by
    intro cursor page h
    exact (rows_checked h).2

/-- **Both backfills are complete and exact, and end**, for every range. What is stored obeys the
laws after every round, the rounds end and for a reason, and they complete over a source that
answers. -/
theorem backfill_exact (symbol : Symbol) (start stop : ℤ) :
    Series.Exact (HistoricalBackfill.series symbol) (HistoricalBackfill.checkRange start stop)
      start stop (HistoricalBackfill.run symbol start stop) ∧
    Series.Exact (FundingBackfill.series symbol) (validatedRange start stop) start stop
      (FundingBackfill.run symbol start stop) :=
  ⟨(HistoricalBackfill.checked_series symbol).exact ..,
    (FundingBackfill.checked_series symbol).exact ..⟩

end Collector
end TradingSystem
