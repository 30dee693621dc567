import TradingSystem.Collector.Backfill
import TradingSystem.Streaming.Transducer

/-!
# Gap detection

A round of the collector fetches the last completed candles, keeps those after the newest
persisted one, reports the minutes that are missing between them and writes them. The windows of
two rounds may overlap, and a fetch, a read or a write may fail.

* `detectGaps_exact` — the ranges are in order and hold exactly the missing minutes.
* `collectOnce_step` — what one round does to the persisted series, and where its ranges lie.
* `gapDetection_exact` — over any rounds the series stays increasing and no missing minute is
  reported twice.
-/

namespace TradingSystem
namespace Collector

open Logic Streaming

/-! ### Ranges of missing minutes -/

/-- A missing range of minutes. -/
structure CandleGap where
  expectedOpenTime : ℤ
  observedOpenTime : ℤ
  missingCandles : ℤ
  observed_gt : expectedOpenTime < observedOpenTime
  missing_pos : 1 ≤ missingCandles

/-- The checks of a new `CandleGap`. -/
def CandleGap.create (expectedOpenTime observedOpenTime missingCandles : ℤ) :
    Except Fault CandleGap :=
  if hobserved : expectedOpenTime < observedOpenTime then
    if hmissing : 1 ≤ missingCandles then
      .ok ⟨expectedOpenTime, observedOpenTime, missingCandles, hobserved, hmissing⟩
    else .error (.valueError "a gap must contain at least one missing candle")
  else .error (.valueError "gap end must follow its expected start")

def detectGaps : Option ℤ → List Candle → Except Fault (List CandleGap)
  | _, [] => .ok []
  | none, candle :: rest => detectGaps (some candle.openTime) rest
  | some previous, candle :: rest => do
    let expected := previous + Instant.minute
    let reported ←
      if expected < candle.openTime then do
        let gap ← CandleGap.create expected candle.openTime
          ((candle.openTime - expected) / Instant.minute)
        pure [gap]
      else pure []
    let gaps ← detectGaps (some candle.openTime) rest
    return reported ++ gaps

/-! ### A round -/

/-- What a repository does with a batch: it returns, or it raises and has kept the batch or not. -/
inductive Write
  | returned
  | raised (fault : Fault) (kept : Bool)

/-- What an exchange and a repository answer in a round. -/
structure Round where
  fetchCompletedCandles : Except Fault (List Candle)
  latestOpenTime : Except Fault Unit
  upsertBatch : Write

structure IngestionResult where
  fetchedCompletedCount : ℕ
  persistedCount : ℕ
  staleCount : ℕ
  gaps : List CandleGap

/-- How a round ended, and the gaps it logged. -/
structure Outcome where
  result : Except Fault IngestionResult
  logged : List CandleGap

def validateSeriesIdentity (symbol : Symbol) (candles : List Candle) : Except Fault Unit :=
  candles.forM fun candle =>
    require (candle.symbol = symbol.value ∧ candle.exchange = symbol.exchange ∧
      candle.timeframe = "1m")
      (.valueError "exchange response crossed the configured candle series")

/-- The newest open time of the persisted series. -/
def latestOpenTime (table : List Candle) : Option ℤ := (table.map Candle.openTime).max?

/-- A row that is written: a row of the same open time is replaced. -/
def upsert (table : List Candle) (candle : Candle) : List Candle :=
  if table.any fun row => row.openTime = candle.openTime then
    table.map fun row => if row.openTime = candle.openTime then candle else row
  else table ++ [candle]

def upsertBatch (table candles : List Candle) : List Candle := candles.foldl upsert table

/-- The checks of a fetched batch. -/
def checkBatch (symbol : Symbol) (round : Round) : Except Fault (List Candle) := do
  let completed ← round.fetchCompletedCandles
  validateSeriesIdentity symbol completed
  requireStrictlyIncreasing Candle.openTime
    "completed candle open_time must be strictly increasing" completed
  round.latestOpenTime
  return completed

/-- The candles that are newer than the newest persisted one. -/
def newCandles (latest : Option ℤ) (completed : List Candle) : List Candle :=
  completed.filter fun candle =>
    match latest with
    | none => true
    | some latest => latest < candle.openTime

def collectOnce (symbol : Symbol) (table : List Candle) (round : Round) :
    List Candle × Outcome :=
  match checkBatch symbol round with
  | .error fault => (table, ⟨.error fault, []⟩)
  | .ok completed =>
    let latest := latestOpenTime table
    let fresh := newCandles latest completed
    match detectGaps latest fresh with
    | .error fault => (table, ⟨.error fault, []⟩)
    | .ok gaps =>
      let result : IngestionResult :=
        { fetchedCompletedCount := completed.length
          persistedCount := fresh.length
          staleCount := completed.length - fresh.length
          gaps := gaps }
      if fresh.isEmpty then (table, ⟨.ok result, gaps⟩)
      else
        match round.upsertBatch with
        | .returned => (upsertBatch table fresh, ⟨.ok result, gaps⟩)
        | .raised fault kept =>
          (if kept then upsertBatch table fresh else table, ⟨.error fault, gaps⟩)

/-! ### The missing minutes -/

/-- The open times of some candles are in order. -/
def Increasing (candles : List Candle) : Prop :=
  candles.Pairwise fun candle candle' => candle.openTime < candle'.openTime

/-- A minute between two of some times that is none of them. -/
def Missing (times : List ℤ) (minute : ℤ) : Prop :=
  minute % Instant.minute = 0 ∧ (∃ time ∈ times, time < minute) ∧
    (∃ time ∈ times, minute < time) ∧ minute ∉ times

/-- A minute is in a range. -/
def CandleGap.Covers (gap : CandleGap) (minute : ℤ) : Prop :=
  minute % Instant.minute = 0 ∧ gap.expectedOpenTime ≤ minute ∧ minute < gap.observedOpenTime

/-- A minute is in one of the ranges. -/
def Reports (gaps : List CandleGap) (minute : ℤ) : Prop := ∃ gap ∈ gaps, gap.Covers minute

/-- Exact ranges for some candles after a time. -/
structure ExactGaps (previous : Option ℤ) (candles : List Candle) (gaps : List CandleGap) :
    Prop where
  ordered : gaps.Pairwise fun gap gap' => gap.observedOpenTime < gap'.expectedOpenTime
  reports : ∀ minute, Reports gaps minute ↔
    Missing (previous.toList ++ candles.map Candle.openTime) minute
  counted : ∀ gap ∈ gaps,
    gap.observedOpenTime = gap.expectedOpenTime + gap.missingCandles * Instant.minute

/-- Between two minutes lie those from the one after the first on. -/
theorem between_iff {previous next minute : ℤ} (hprevious : previous % Instant.minute = 0)
    (hminute : minute % Instant.minute = 0) :
    previous < minute ∧ minute < next ↔ previous + Instant.minute ≤ minute ∧ minute < next := by
  simp only [Instant.minute, Instant.second] at *
  omega

/-- A minute missing of some times lies between the first two, or is missing of the rest. -/
theorem missing_cons {first second : ℤ} (rest : List ℤ) (hlt : first < second)
    (hrest : ∀ time ∈ rest, second < time) (minute : ℤ) :
    Missing (first :: second :: rest) minute ↔
      (minute % Instant.minute = 0 ∧ first < minute ∧ minute < second) ∨
        Missing (second :: rest) minute := by
  simp only [Missing, List.exists_mem_cons_iff]
  simp only [List.mem_cons, not_or]
  constructor
  · rintro ⟨hminute, hbefore, hafter, -, hsecond, hnot⟩
    by_cases hle : minute < second
    · refine .inl ⟨hminute, ?_, hle⟩
      rcases hbefore with hfirst | hsecond | ⟨time, htime, hlater⟩
      · exact hfirst
      · omega
      · have := hrest time htime
        omega
    · -- past the second time the first one is no longer needed as a bound
      refine .inr ⟨hminute, .inl (by omega), ?_, hsecond, hnot⟩
      rcases hafter with hfirst | hafter
      · omega
      · exact hafter
  · rintro (⟨hminute, hfirst, hsecond⟩ | ⟨hminute, hbefore, hafter, hsecond, hnot⟩)
    · refine ⟨hminute, .inl hfirst, .inr (.inl hsecond), by omega, by omega, ?_⟩
      intro hmem
      have := hrest minute hmem
      omega
    · refine ⟨hminute, .inr hbefore, .inr hafter, ?_, hsecond, hnot⟩
      rcases hbefore with hlater | ⟨time, htime, hlater⟩
      · omega
      · have := hrest time htime
        omega

theorem reports_append (gaps gaps' : List CandleGap) (minute : ℤ) :
    Reports (gaps ++ gaps') minute ↔ Reports gaps minute ∨ Reports gaps' minute := by
  simp only [Reports, List.mem_append, or_and_right, exists_or]

/-- The range before a candle. -/
theorem create_ok {previous next : ℤ} (hprevious : previous % Instant.minute = 0)
    (hnext : next % Instant.minute = 0) (h : previous + Instant.minute < next) :
    ∃ gap, CandleGap.create (previous + Instant.minute) next
        ((next - (previous + Instant.minute)) / Instant.minute) = .ok gap ∧
      gap.expectedOpenTime = previous + Instant.minute ∧ gap.observedOpenTime = next ∧
      next = previous + Instant.minute + gap.missingCandles * Instant.minute := by
  have hcount : 1 ≤ (next - (previous + Instant.minute)) / Instant.minute := by
    simp only [Instant.minute, Instant.second] at *
    omega
  refine ⟨_, by rw [CandleGap.create, dif_pos h, dif_pos hcount], rfl, rfl, ?_⟩
  simp only [Instant.minute, Instant.second] at *
  omega

section FirstCandle

variable {previous : ℤ} {candle : Candle} {rest : List Candle} {gaps : List CandleGap}
  (hprevious : previous % Instant.minute = 0)
  (hfirst : ∀ other ∈ rest, candle.openTime < other.openTime)
  (hexact : ExactGaps (some candle.openTime) rest gaps)

include hprevious hfirst hexact

/-- A range before the first candle joins those of the rest. -/
theorem ExactGaps.cons {gap : CandleGap} (hlt : previous < candle.openTime)
    (hexpected : gap.expectedOpenTime = previous + Instant.minute)
    (hobserved : gap.observedOpenTime = candle.openTime)
    (hcount : candle.openTime =
      previous + Instant.minute + gap.missingCandles * Instant.minute)
    (hlater : ∀ other ∈ gaps, gap.observedOpenTime < other.expectedOpenTime) :
    ExactGaps (some previous) (candle :: rest) (gap :: gaps) := by
  have hmissing (minute : ℤ) :=
    missing_cons (rest.map Candle.openTime) hlt (by simpa using hfirst) minute
  refine ⟨List.pairwise_cons.2 ⟨hlater, hexact.ordered⟩, ?_, ?_⟩
  · intro minute
    have hreports := reports_append [gap] gaps minute
    rw [List.singleton_append] at hreports
    rw [hreports, hexact.reports minute, List.map_cons, Option.toList_some,
      Option.toList_some, List.singleton_append, List.singleton_append, hmissing]
    apply or_congr_left
    simp only [Reports, List.mem_singleton, exists_eq_left, CandleGap.Covers, hexpected,
      hobserved]
    exact and_congr_right fun hminute => (between_iff hprevious hminute).symm
  · intro other hother
    rcases List.mem_cons.1 hother with rfl | hother
    · rw [hexpected, hobserved, hcount]
    · exact hexact.counted other hother

/-- Where the first candle is the next minute, nothing lies before it. -/
theorem ExactGaps.skip (hlt : previous < candle.openTime)
    (hgap : ¬ previous + Instant.minute < candle.openTime) :
    ExactGaps (some previous) (candle :: rest) gaps := by
  have hmissing (minute : ℤ) :=
    missing_cons (rest.map Candle.openTime) hlt (by simpa using hfirst) minute
  refine ⟨hexact.ordered, ?_, hexact.counted⟩
  intro minute
  rw [hexact.reports minute, List.map_cons, Option.toList_some, Option.toList_some,
    List.singleton_append, List.singleton_append, hmissing, or_iff_right]
  rintro ⟨hminute, hbetween⟩
  have := (between_iff hprevious hminute).1 hbetween
  omega

end FirstCandle

/-- After a time, the ranges are exact and begin after it. -/
theorem detectGaps_some {previous : ℤ} {candles : List Candle}
    (hprevious : previous % Instant.minute = 0) (hincreasing : Increasing candles)
    (hafter : ∀ candle ∈ candles, previous < candle.openTime) :
    ∃ gaps, detectGaps (some previous) candles = .ok gaps ∧
      ExactGaps (some previous) candles gaps ∧
      ∀ gap ∈ gaps, previous + Instant.minute ≤ gap.expectedOpenTime := by
  -- on the candles, for every time before them
  induction candles generalizing previous with
  | nil =>
    refine ⟨[], rfl, ⟨.nil, fun minute => ?_, by simp⟩, by simp⟩
    simp only [Reports, Missing, Option.toList_some, List.map_nil, List.append_nil,
      List.mem_singleton, List.not_mem_nil, false_and, exists_false, false_iff]
    rintro ⟨-, ⟨_, rfl, hbefore⟩, ⟨_, rfl, hafter⟩, -⟩
    omega
  | cons candle rest ih =>
    obtain ⟨hfirst, hrest⟩ := List.pairwise_cons.1 hincreasing
    have hlt := hafter candle (by simp)
    have haligned := candle.openTime_aligned
    obtain ⟨gaps, hgaps, hexact, hbegin⟩ := ih haligned hrest hfirst
    rw [detectGaps]
    by_cases hgap : previous + Instant.minute < candle.openTime
    · -- a range before this candle, and those of the rest begin after it
      obtain ⟨gap, hcreate, hexpected, hobserved, hcount⟩ := create_ok hprevious haligned hgap
      have hlater : ∀ other ∈ gaps, gap.observedOpenTime < other.expectedOpenTime := by
        intro other hother
        have := hbegin other hother
        simp only [Instant.minute, Instant.second] at *
        omega
      refine ⟨gap :: gaps, ?_,
        ExactGaps.cons hprevious hfirst hexact hlt hexpected hobserved hcount hlater, ?_⟩
      · rw [if_pos hgap, hcreate, hgaps]
        rfl
      · intro other hother
        rcases List.mem_cons.1 hother with rfl | hother
        · rw [hexpected]
        · have := hlater other hother
          omega
    · -- the next minute: nothing lies between the two times
      refine ⟨gaps, ?_, ExactGaps.skip hprevious hfirst hexact hlt hgap, ?_⟩
      · rw [if_neg hgap, hgaps]
        rfl
      · intro other hother
        have := hbegin other hother
        omega

/-- **The ranges are exact.** After any earlier candle, or after none, the ranges between candles
in order are made without an error, follow each other without touching, and hold exactly the
missing minutes, as many as each says. -/
theorem detectGaps_exact (previous : Option ℤ) (candles : List Candle)
    (hprevious : ∀ time ∈ previous, time % Instant.minute = 0) (hincreasing : Increasing candles)
    (hafter : ∀ time ∈ previous, ∀ candle ∈ candles, time < candle.openTime) :
    ∃ gaps, detectGaps previous candles = .ok gaps ∧ ExactGaps previous candles gaps := by
  cases previous with
  | some previous =>
    obtain ⟨gaps, hgaps, hexact, -⟩ :=
      detectGaps_some (hprevious previous rfl) hincreasing (hafter previous rfl)
    exact ⟨gaps, hgaps, hexact⟩
  | none =>
    cases candles with
    | nil => exact ⟨[], rfl, .nil, by simp [Reports, Missing], by simp⟩
    | cons candle rest =>
      obtain ⟨hfirst, hrest⟩ := List.pairwise_cons.1 hincreasing
      obtain ⟨gaps, hgaps, hexact, -⟩ :=
        detectGaps_some candle.openTime_aligned hrest hfirst
      exact ⟨gaps, hgaps, hexact.ordered, hexact.reports, hexact.counted⟩

/-! ### One round -/

/-- The open times of some candles. -/
def openTimes (candles : List Candle) : List ℤ := candles.map Candle.openTime

theorem upsert_new {table : List Candle} {candle : Candle}
    (h : ∀ row ∈ table, row.openTime < candle.openTime) :
    upsert table candle = table ++ [candle] := by
  rw [upsert, if_neg]
  simp only [List.any_eq_true, decide_eq_true_eq, not_exists, not_and]
  intro row hrow heq
  have := h row hrow
  omega

/-- Candles in order that are newer than the persisted ones are appended. -/
theorem upsertBatch_new {table candles : List Candle} (hincreasing : Increasing candles)
    (h : ∀ row ∈ table, ∀ candle ∈ candles, row.openTime < candle.openTime) :
    upsertBatch table candles = table ++ candles := by
  induction candles generalizing table with
  | nil => simp [upsertBatch]
  | cons candle rest ih =>
    obtain ⟨hfirst, hrest⟩ := List.pairwise_cons.1 hincreasing
    have hnext : ∀ row ∈ table ++ [candle], ∀ other ∈ rest, row.openTime < other.openTime := by
      intro row hrow other hother
      rcases List.mem_append.1 hrow with hrow | hrow
      · exact h row hrow other (by simp [hother])
      · rw [List.mem_singleton.1 hrow]
        exact hfirst other hother
    have hrec := ih hrest hnext
    rw [upsertBatch] at hrec
    rw [upsertBatch, List.foldl_cons, upsert_new fun row hrow => h row hrow candle (by simp),
      hrec, List.append_assoc, List.singleton_append]

theorem latestOpenTime_eq_some {table : List Candle} {latest : ℤ}
    (h : latestOpenTime table = some latest) :
    latest ∈ openTimes table ∧ ∀ time ∈ openTimes table, time ≤ latest :=
  List.max?_eq_some_iff.1 h

theorem latestOpenTime_eq_none {table : List Candle} (h : latestOpenTime table = none) :
    table = [] := by
  simpa [latestOpenTime, List.max?_eq_none_iff] using h

/-- The candles kept are newer than every persisted one. -/
theorem newCandles_later {table completed : List Candle} :
    ∀ row ∈ table, ∀ candle ∈ newCandles (latestOpenTime table) completed,
      row.openTime < candle.openTime := by
  intro row hrow candle hcandle
  cases hlatest : latestOpenTime table with
  | none =>
    rw [latestOpenTime_eq_none hlatest] at hrow
    simp at hrow
  | some latest =>
    rw [hlatest, newCandles, List.mem_filter] at hcandle
    have hle := (latestOpenTime_eq_some hlatest).2 row.openTime (List.mem_map_of_mem hrow)
    have hlt : latest < candle.openTime := by simpa using hcandle.2
    omega

/-- The minutes missing of a longer series were missing, or are missing after its newest time. -/
theorem missing_append {table fresh : List Candle}
    (hlater : ∀ row ∈ table, ∀ candle ∈ fresh, row.openTime < candle.openTime) (minute : ℤ) :
    Missing (openTimes (table ++ fresh)) minute ↔ Missing (openTimes table) minute ∨
      Missing ((latestOpenTime table).toList ++ openTimes fresh) minute := by
  have hsplit : openTimes (table ++ fresh) = openTimes table ++ openTimes fresh := by
    simp [openTimes]
  have horder : ∀ time ∈ openTimes table, ∀ time' ∈ openTimes fresh, time < time' := by
    simpa [openTimes] using hlater
  rw [hsplit]
  cases hlatest : latestOpenTime table with
  | none =>
    rw [latestOpenTime_eq_none hlatest]
    simp [Missing, openTimes]
  | some latest =>
    obtain ⟨hmem, hmax⟩ := latestOpenTime_eq_some hlatest
    simp only [Missing, List.mem_append, Option.toList_some, List.mem_singleton, not_or]
    constructor
    · rintro ⟨hminute, ⟨before, hbefore, hbeforelt⟩, ⟨next, hnext, hnextlt⟩, hnot, hnot'⟩
      -- the newest time of the table separates the two kinds of missing minutes
      by_cases hle : minute ≤ latest
      · refine .inl ⟨hminute, ⟨before, ?_, hbeforelt⟩, ⟨latest, hmem, ?_⟩, hnot⟩
        · refine hbefore.resolve_right fun hfresh => ?_
          have := horder latest hmem before hfresh
          omega
        · refine lt_of_le_of_ne hle ?_
          rintro rfl
          exact hnot hmem
      · refine .inr ⟨hminute, ⟨latest, .inl rfl, by omega⟩, ⟨next, .inr ?_, hnextlt⟩, ?_, hnot'⟩
        · refine hnext.resolve_left fun htable => ?_
          have := hmax next htable
          omega
        · omega
    · rintro (⟨hminute, ⟨before, hbefore, hbeforelt⟩, ⟨next, hnext, hnextlt⟩, hnot⟩ |
        ⟨hminute, ⟨before, hbefore, hbeforelt⟩, ⟨next, hnext, hnextlt⟩, hnot, hnot'⟩)
      · refine ⟨hminute, ⟨before, .inl hbefore, hbeforelt⟩, ⟨next, .inl hnext, hnextlt⟩, hnot, ?_⟩
        intro hfresh
        have := horder next hnext minute hfresh
        omega
      · have hlt : latest < minute := by
          rcases hbefore with rfl | hfresh
          · exact hbeforelt
          · have := horder latest hmem before hfresh
            omega
        refine ⟨hminute, ⟨latest, .inl hmem, hlt⟩, ⟨next, ?_, hnextlt⟩, ?_, hnot'⟩
        · rcases hnext with rfl | hfresh
          · exact .inl hmem
          · exact .inr hfresh
        · intro htable
          have := hmax minute htable
          omega

/-- What a round does: the series is only appended to, ranges lie after it, and what is missing
afterwards was missing or has been logged. A round that returns has reported what it logged. -/
structure RoundLaws (table table' : List Candle) (outcome : Outcome) : Prop where
  increasing : Increasing table'
  extended : table <+: table'
  ordered : outcome.logged.Pairwise fun gap gap' => gap.observedOpenTime < gap'.expectedOpenTime
  later : ∀ minute, Reports outcome.logged minute → ∀ row ∈ table, row.openTime < minute
  found : ∀ minute, Missing (openTimes table') minute →
    Missing (openTimes table) minute ∨ Reports outcome.logged minute
  returned : ∀ result, outcome.result = .ok result → result.gaps = outcome.logged ∧
    ∀ minute, Reports outcome.logged minute → Missing (openTimes table') minute

/-- A round that logs nothing and writes nothing. -/
theorem RoundLaws.refused {table : List Candle} (h : Increasing table) (fault : Fault) :
    RoundLaws table table ⟨.error fault, []⟩ where
  increasing := h
  extended := List.prefix_refl _
  ordered := .nil
  later := by simp [Reports]
  found := fun _ => .inl
  returned := by simp

theorem checkBatch_increasing {symbol : Symbol} {round : Round} {completed : List Candle}
    (h : checkBatch symbol round = .ok completed) : Increasing completed := by
  rw [checkBatch] at h
  simp only [Except.bind_eq_ok] at h
  obtain ⟨fetched, -, -, -, ⟨⟩, hincreasing, -, -, hok⟩ := h
  cases hok
  exact requireStrictlyIncreasing_eq_ok.1 hincreasing

section Fresh

variable {table fresh : List Candle} {gaps : List CandleGap} (h : Increasing table)
  (hlater : ∀ row ∈ table, ∀ candle ∈ fresh, row.openTime < candle.openTime)
  (hexact : ExactGaps (latestOpenTime table) fresh gaps)

include hlater hexact

/-- A range begins after the newest persisted candle. -/
theorem reports_later (minute : ℤ) (hreport : Reports gaps minute) :
    ∀ row ∈ table, row.openTime < minute := by
  intro row hrow
  obtain ⟨-, ⟨before, hbefore, hlt⟩, -, -⟩ := (hexact.reports minute).1 hreport
  rcases List.mem_append.1 hbefore with hbefore | hbefore
  · have hle := (latestOpenTime_eq_some (Option.mem_toList.1 hbefore)).2 row.openTime
      (List.mem_map_of_mem hrow)
    omega
  · obtain ⟨candle, hcandle, rfl⟩ := List.mem_map.1 hbefore
    have := hlater row hrow candle hcandle
    omega

include h

/-- A round whose write took place, whatever it answered. -/
theorem RoundLaws.written (hincreasing : Increasing fresh)
    (result : Except Fault IngestionResult)
    (hresult : ∀ ingested, result = .ok ingested → ingested.gaps = gaps) :
    RoundLaws table (table ++ fresh) ⟨result, gaps⟩ where
  increasing := List.pairwise_append.2 ⟨h, hincreasing, hlater⟩
  extended := List.prefix_append ..
  ordered := hexact.ordered
  later := reports_later hlater hexact
  found minute hminute :=
    ((missing_append hlater minute).1 hminute).imp id (hexact.reports minute).2
  returned ingested hingested := ⟨hresult ingested hingested, fun minute hminute =>
    (missing_append hlater minute).2 (.inr ((hexact.reports minute).1 hminute))⟩

/-- A round whose write failed without keeping the batch. -/
theorem RoundLaws.lost (fault : Fault) : RoundLaws table table ⟨.error fault, gaps⟩ where
  increasing := h
  extended := List.prefix_refl _
  ordered := hexact.ordered
  later := reports_later hlater hexact
  found := fun _ => .inl
  returned := by simp

end Fresh

/-- The ranges before the candles that are kept are exact. -/
theorem detectGaps_fresh {table fresh : List Candle} (hincreasing : Increasing fresh)
    (hlater : ∀ row ∈ table, ∀ candle ∈ fresh, row.openTime < candle.openTime) :
    ∃ gaps, detectGaps (latestOpenTime table) fresh = .ok gaps ∧
      ExactGaps (latestOpenTime table) fresh gaps := by
  refine detectGaps_exact (latestOpenTime table) fresh ?_ hincreasing ?_
  · intro latest hlatest
    obtain ⟨row, -, rfl⟩ := List.mem_map.1 (latestOpenTime_eq_some hlatest).1
    exact row.openTime_aligned
  · intro latest hlatest candle hcandle
    obtain ⟨row, hrow, rfl⟩ := List.mem_map.1 (latestOpenTime_eq_some hlatest).1
    exact hlater row hrow candle hcandle

/-- Every round obeys the laws. -/
theorem collectOnce_step (symbol : Symbol) {table : List Candle} (h : Increasing table)
    (round : Round) :
    RoundLaws table (collectOnce symbol table round).1 (collectOnce symbol table round).2 := by
  rw [collectOnce]
  cases hbatch : checkBatch symbol round with
  | error fault => exact .refused h fault
  | ok completed =>
    have hcompleted := checkBatch_increasing hbatch
    set fresh := newCandles (latestOpenTime table) completed with hfresh
    have hincreasing : Increasing fresh := hcompleted.filter _
    have hlater : ∀ row ∈ table, ∀ candle ∈ fresh, row.openTime < candle.openTime :=
      newCandles_later
    obtain ⟨gaps, hgaps, hexact⟩ := detectGaps_fresh hincreasing hlater
    -- the new rows come after the stored ones, so a write is an append
    have hbatchWritten := upsertBatch_new hincreasing hlater
    simp only [← hfresh, hgaps]
    split
    · -- nothing to write: the empty batch has been appended
      rename_i hempty
      have hwhole := RoundLaws.written h hlater hexact hincreasing (.ok
        { fetchedCompletedCount := completed.length
          persistedCount := fresh.length
          staleCount := completed.length - fresh.length
          gaps := gaps }) (by rintro _ ⟨⟩; rfl)
      rw [List.isEmpty_iff.1 hempty, List.append_nil] at hwhole
      rw [List.isEmpty_iff.1 hempty]
      exact hwhole
    · cases hwrite : round.upsertBatch with
      | returned =>
        simp only [hbatchWritten]
        exact .written h hlater hexact hincreasing _ (by rintro _ ⟨⟩; rfl)
      | raised fault kept =>
        cases kept with
        | true =>
          simp only [hbatchWritten]
          exact .written h hlater hexact hincreasing _ (by rintro _ ⟨⟩)
        | false => exact .lost h hlater hexact fault

/-! ### Rounds -/

/-- The outcomes of some rounds, one after the other. -/
def rounds (symbol : Symbol) (table : List Candle) (answers : List Round) : List Outcome :=
  outputs (collectOnce symbol) table answers

/-- The persisted series after some rounds. -/
def persisted (symbol : Symbol) (table : List Candle) (answers : List Round) : List Candle :=
  final (collectOnce symbol) table answers

/-- Rounds only append to the series, and log what they add that is missing. -/
theorem persisted_laws (symbol : Symbol) {table : List Candle} (h : Increasing table)
    (answers : List Round) :
    Increasing (persisted symbol table answers) ∧ table <+: persisted symbol table answers ∧
      ∀ minute, Missing (openTimes (persisted symbol table answers)) minute →
        Missing (openTimes table) minute ∨
          ∃ outcome ∈ rounds symbol table answers, Reports outcome.logged minute := by
  induction answers generalizing table with
  | nil => exact ⟨h, List.prefix_refl _, fun _ => .inl⟩
  | cons round rest ih =>
    have hstep := collectOnce_step symbol h round
    obtain ⟨hincreasing, hextended, hfound⟩ := ih hstep.increasing
    refine ⟨hincreasing, hstep.extended.trans hextended, fun minute hminute => ?_⟩
    rcases hfound minute hminute with hbefore | ⟨outcome, houtcome, hreports⟩
    · exact (hstep.found minute hbefore).imp id fun hreports =>
        ⟨_, List.mem_cons_self, hreports⟩
    · exact .inr ⟨outcome, List.mem_cons_of_mem _ houtcome, hreports⟩

/-- The ranges of later rounds lie after every candle persisted before. -/
theorem rounds_later (symbol : Symbol) {table before : List Candle} (h : Increasing table)
    (hbefore : before <+: table) (answers : List Round) :
    ∀ outcome ∈ rounds symbol table answers, ∀ minute, Reports outcome.logged minute →
      ∀ row ∈ before, row.openTime < minute :=
  forall_mem_outputs (fun table => Increasing table ∧ before <+: table) (fun _ => True) _
    (fun _ round hstate _ =>
      have hstep := collectOnce_step symbol hstate.1 round
      ⟨⟨hstep.increasing, hstate.2.trans hstep.extended⟩, fun minute hminute row hrow =>
        hstep.later minute hminute row (hstate.2.subset hrow)⟩)
    ⟨h, hbefore⟩ (fun _ _ => trivial)

/-- A minute that a round has reported is not logged by a later one. -/
theorem rounds_once (symbol : Symbol) {table : List Candle} (h : Increasing table)
    (answers : List Round) :
    (rounds symbol table answers).Pairwise fun outcome later =>
      ∀ result, outcome.result = .ok result → ∀ minute, Reports result.gaps minute →
        ¬ Reports later.logged minute := by
  induction answers generalizing table with
  | nil => exact .nil
  | cons round rest ih =>
    have hstep := collectOnce_step symbol h round
    refine List.pairwise_cons.2 ⟨fun later hmem result hresult minute hreports hagain => ?_,
      ih hstep.increasing⟩
    obtain ⟨hgaps, hreported⟩ := hstep.returned result hresult
    rw [hgaps] at hreports
    obtain ⟨-, -, ⟨time, htime, hlt⟩, -⟩ := hreported minute hreports
    obtain ⟨row, hrow, rfl⟩ := List.mem_map.1 htime
    have := rounds_later symbol hstep.increasing (List.prefix_refl _) rest later hmem minute
      hagain row hrow
    omega

/-- **Gap detection is exact.** The ranges of some candles in order after any earlier one, or
after none, are made without an error, follow each other without touching and hold exactly the
minutes missing between the earlier candle and the last one. Over any rounds on an increasing
series, whatever each of them fetches and whichever reads and writes fail, the series stays
increasing and is only appended to, a minute missing of what was appended has been logged, and a
minute that a round has reported is logged by no later one. -/
theorem gapDetection_exact (symbol : Symbol) (previous : Option Candle) (candles : List Candle)
    (hincreasing : Increasing candles)
    (hafter : ∀ candle' ∈ previous, ∀ candle ∈ candles, candle'.openTime < candle.openTime)
    (table : List Candle) (htable : Increasing table) (answers : List Round) :
    (∃ gaps, detectGaps (previous.map Candle.openTime) candles = .ok gaps ∧
      ExactGaps (previous.map Candle.openTime) candles gaps) ∧
    (Increasing (persisted symbol table answers) ∧ table <+: persisted symbol table answers ∧
      ∀ minute, Missing (openTimes (persisted symbol table answers)) minute →
        Missing (openTimes table) minute ∨
          ∃ outcome ∈ rounds symbol table answers, Reports outcome.logged minute) ∧
    (∀ outcome ∈ rounds symbol table answers,
      (outcome.logged.Pairwise fun gap gap' => gap.observedOpenTime < gap'.expectedOpenTime) ∧
        ∀ result, outcome.result = .ok result → result.gaps = outcome.logged) ∧
    (rounds symbol table answers).Pairwise fun outcome later =>
      ∀ result, outcome.result = .ok result → ∀ minute, Reports result.gaps minute →
        ¬ Reports later.logged minute := by
  refine ⟨detectGaps_exact _ candles ?_ hincreasing ?_, persisted_laws symbol htable answers,
    ?_, rounds_once symbol htable answers⟩
  · intro time htime
    obtain ⟨candle, -, rfl⟩ := Option.map_eq_some_iff.1 htime
    exact candle.openTime_aligned
  · -- the previous candle is before all of them
    intro time htime candle hcandle
    obtain ⟨earlier, hearlier, rfl⟩ := Option.map_eq_some_iff.1 htime
    exact hafter earlier hearlier candle hcandle
  · -- what a round logs follows from the series it starts with
    exact forall_mem_outputs Increasing (fun _ => True) _
      (fun _ round hstate _ =>
        have hstep := collectOnce_step symbol hstate round
        ⟨hstep.increasing, hstep.ordered, fun result hresult => (hstep.returned result hresult).1⟩)
      htable (fun _ _ => trivial)

theorem no_volume : (0 : ℚ) ≤ 0 := le_rfl

/-- A candle of some minute. -/
def flatCandle (minutes : ℤ) : Candle where
  symbol := "BTC/USDT"
  exchange := "binance"
  timeframe := "1m"
  openTime := minutes * Instant.minute
  openPrice := 1
  high := 1
  low := 1
  close := 1
  volume := 0
  quoteVolume := none
  tradeCount := none
  timeframe_eq := rfl
  openTime_aligned := Int.mul_emod_left ..
  symbol_ne := by decide
  exchange_ne := by decide
  prices_pos := by norm_num
  high_ge := by norm_num
  low_le := by norm_num
  volume_nonneg := no_volume
  quoteVolume_nonneg := by simp

/-- Two overlapping rounds over a missing minute. -/
theorem gapDetection_exact_overlap :
    (rounds ⟨"BTC/USDT", "binance"⟩ [flatCandle 0]
      [⟨.ok [flatCandle 0, flatCandle 2], .ok (), .returned⟩,
        ⟨.ok [flatCandle 2, flatCandle 3], .ok (), .returned⟩]).Pairwise fun outcome later =>
      ∀ result, outcome.result = .ok result → ∀ minute, Reports result.gaps minute →
        ¬ Reports later.logged minute :=
  (gapDetection_exact ⟨"BTC/USDT", "binance"⟩ (some (flatCandle 0)) [flatCandle 2]
    (List.pairwise_singleton ..) (by simp [flatCandle]; decide) [flatCandle 0]
    (List.pairwise_singleton ..) _).2.2.2

end Collector
end TradingSystem
