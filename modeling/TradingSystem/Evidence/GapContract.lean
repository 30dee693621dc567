import TradingSystem.Data.Json
import TradingSystem.Data.Runs
import TradingSystem.Logic.Program
import TradingSystem.Numeric.Binary64
import TradingSystem.Types.Clock

/-!
# The gap contract of a snapshot

Which buckets of a snapshot have no candle, told apart by what is missing of their minutes,
as a note of canonical JSON. `buildOhlcvGapContract` derives the contract from the candles,
`OhlcvGapContract.encode` writes the note and `decodeOhlcvGapContract` reads it back and
checks it.

* `WellFormed` — what the decoder asks of a contract.
* `wellFormed_of_build` — the builder provides it, whatever candles and minute gaps it is
  given.
* `decode_encode` — the note of a well-formed contract is read back as the contract.
* `decodeRanges_rangesValue` — the ranges of a note are read back as the timestamps.
* `gapContract_round_trip` — the contract of every accepted snapshot survives its note.
-/

namespace TradingSystem
namespace OhlcvGaps

open Numeric Data Logic

/-! ### Time -/

/-- `_TIMEFRAME_MS`. -/
def unitMilliseconds : TimeframeUnit → ℤ
  | .minutes => 60000
  | .hours => 3600000
  | .days => 86400000

/-- `_MINUTE_MS`. -/
def minuteMilliseconds : ℤ := 60000

def timeframeMilliseconds (timeframe : Timeframe) : ℤ :=
  unitMilliseconds timeframe.unit * timeframe.count

/-- `range(start, stop, step)`. -/
def rangeStep (start stop step : ℤ) : List ℤ :=
  (List.range ((stop - start + step - 1) / step).toNat).map fun index : ℕ => start + index * step

/-! ### The contract and its note -/

def ohlcvGapContract : String := "ohlcv-gap-v2"

structure OhlcvGapContract where
  timeframeMs : ℤ
  normalGapCloseTimes : List ℤ
  partialBucketCloseTimes : List ℤ
  evaluationGridGapCloseTimes : List ℤ
  originValidationStatus : String
  originMinuteRowCount : ℤ
  originTimestampHash : String
deriving DecidableEq, Repr

/-- The item of a run: its first timestamp and its length. -/
def rangeItem (run : ℤ × ℕ) : Json := .arr [.int run.1, .int run.2]

/-- `_encode_ranges`: the runs of the timestamps at the distance of one candle. -/
def encodeRanges (values : List ℤ) (duration : ℤ) : Json :=
  .arr ((Runs.encode duration values).map rangeItem)

namespace OhlcvGapContract

variable (contract : OhlcvGapContract)

def normalGapCount : ℤ := contract.normalGapCloseTimes.length

def partialBucketCount : ℤ := contract.partialBucketCloseTimes.length

def evaluationGridGapCount : ℤ := contract.evaluationGridGapCloseTimes.length

/-- The members of the note. -/
def members : List (String × Json) :=
  [("contract", .str ohlcvGapContract),
    ("timeframe_ms", .int contract.timeframeMs),
    ("normal_gap_count", .int contract.normalGapCount),
    ("normal_gap_ranges", encodeRanges contract.normalGapCloseTimes contract.timeframeMs),
    ("partial_bucket_count", .int contract.partialBucketCount),
    ("partial_bucket_ranges",
      encodeRanges contract.partialBucketCloseTimes contract.timeframeMs),
    ("evaluation_grid_gap_count", .int contract.evaluationGridGapCount),
    ("evaluation_grid_gap_ranges",
      encodeRanges contract.evaluationGridGapCloseTimes contract.timeframeMs),
    ("origin_validation_status", .str contract.originValidationStatus),
    ("origin_minute_row_count", .int contract.originMinuteRowCount),
    ("origin_timestamp_hash", .str contract.originTimestampHash)]

def encode : String := Json.canonicalJson (.obj contract.members)

end OhlcvGapContract

/-! ### Building a contract -/

/-- A SHA-256 hash in lowercase hexadecimal digits. -/
def IsOriginHash (hash : String) : Prop :=
  hash.length = 64 ∧ ∀ c ∈ hash.toList, c ∈ "0123456789abcdef".toList

instance (hash : String) : Decidable (IsOriginHash hash) :=
  @instDecidableAnd _ _ (Nat.decEq _ _) (List.decidableBAll _ _)

/-- The loop over the candles: their close times, on the grid of the range and none
twice. -/
def gatherCloseTimes (timeframe : Timeframe) (rangeStart rangeEnd : ℤ) :
    List Candle → List ℤ → Except Fault (List ℤ)
  | [], actual => .ok actual
  | candle :: candles, actual => do
      require (candle.timeframe = timeframe)
        (.valueError "OHLCV snapshot contains a different timeframe")
      let closeTime := epochMilliseconds candle.closeTime
      require (rangeStart < closeTime ∧ closeTime ≤ rangeEnd)
        (.valueError "OHLCV snapshot candle falls outside its declared range")
      require ((closeTime - rangeStart) % timeframeMilliseconds timeframe = 0)
        (.valueError "OHLCV snapshot candle is off the declared grid")
      require (closeTime ∉ actual)
        (.valueError "OHLCV snapshot contains a duplicate close time")
      gatherCloseTimes timeframe rangeStart rangeEnd candles (closeTime :: actual)

/-- How many minutes of a bucket are minute gaps. -/
def missingMinutes (minuteGaps : List ℤ) (duration closeTime : ℤ) : ℕ :=
  (List.range (duration / minuteMilliseconds).toNat).countP fun offset =>
    closeTime - duration + (offset + 1) * minuteMilliseconds ∈ minuteGaps

/-- The loop over the omitted buckets: those without a minute and those with only some. -/
def classify (minuteGaps : List ℤ) (duration : ℤ) : List ℤ → Except Fault (List ℤ × List ℤ)
  | [] => .ok ([], [])
  | closeTime :: omitted => do
      let missing := missingMinutes minuteGaps duration closeTime
      require (missing = duration / minuteMilliseconds ∨ missing ≠ 0)
        (.valueError "resampler omitted a bucket whose complete 1m origin exists")
      let (normal, partials) ← classify minuteGaps duration omitted
      return if missing = duration / minuteMilliseconds then (closeTime :: normal, partials)
        else (normal, closeTime :: partials)

/-- Normal gaps and partial buckets among the omitted ones. A minute has no parts. -/
def classifyOmitted (minuteGapCloseTimes : Option (List ℤ)) (duration : ℤ) (omitted : List ℤ) :
    Except Fault (List ℤ × List ℤ) :=
  if duration = minuteMilliseconds then .ok (omitted, [])
  else match minuteGapCloseTimes with
    | none => .error (.valueError "resampled OHLCV gaps require the 1m gap contract")
    | some minuteGaps => classify minuteGaps duration omitted

/-- The check of a range: it is a positive number of candles long. -/
def requireAligned (name : String) (duration startMs endMs : ℤ) : Except Fault Unit :=
  require (0 < endMs - startMs ∧ (endMs - startMs) % duration = 0)
    (.valueError ("OHLCV " ++ name ++ " range must align to its timeframe"))

def buildOhlcvGapContract (candles : List Candle) (timeframe : Timeframe)
    (rangeStart rangeEnd evaluationStart evaluationEnd : ℤ)
    (minuteGapCloseTimes : Option (List ℤ)) (originValidationStatus : String)
    (originMinuteRowCount : ℤ) (originTimestampHash : String) :
    Except Fault OhlcvGapContract := do
  let duration := timeframeMilliseconds timeframe
  let rangeStartMs := epochMilliseconds rangeStart
  let rangeEndMs := epochMilliseconds rangeEnd
  let evaluationStartMs := epochMilliseconds evaluationStart
  let evaluationEndMs := epochMilliseconds evaluationEnd
  requireAligned "snapshot" duration rangeStartMs rangeEndMs
  requireAligned "evaluation" duration evaluationStartMs evaluationEndMs
  require (rangeStartMs ≤ evaluationStartMs ∧ evaluationEndMs ≤ rangeEndMs)
    (.valueError "OHLCV snapshot range must cover the evaluation range")
  require (originValidationStatus = "verified")
    (.valueError "OHLCV origin must be independently verified")
  require (0 ≤ originMinuteRowCount)
    (.valueError "origin minute row count must be non-negative")
  require (IsOriginHash originTimestampHash)
    (.valueError "verified origin requires a lowercase SHA-256 timestamp hash")
  let actual ← gatherCloseTimes timeframe rangeStartMs rangeEndMs candles []
  let omitted := (rangeStep (rangeStartMs + duration) (rangeEndMs + 1) duration).filter (· ∉ actual)
  let (normalGaps, partialBuckets) ← classifyOmitted minuteGapCloseTimes duration omitted
  let evaluationOmitted := omitted.filter fun closeTime =>
    evaluationStartMs < closeTime ∧ closeTime ≤ evaluationEndMs
  return {
    timeframeMs := duration
    normalGapCloseTimes := normalGaps
    partialBucketCloseTimes := partialBuckets
    evaluationGridGapCloseTimes := evaluationOmitted
    originValidationStatus := originValidationStatus
    originMinuteRowCount := originMinuteRowCount
    originTimestampHash := originTimestampHash }

/-! ### Reading a note -/

def noteKeys : List String :=
  ["contract", "timeframe_ms", "normal_gap_count", "normal_gap_ranges", "partial_bucket_count",
    "partial_bucket_ranges", "evaluation_grid_gap_count", "evaluation_grid_gap_ranges",
    "origin_validation_status", "origin_minute_row_count", "origin_timestamp_hash"]

/-- `_strict_int`: a float and a boolean are no integers. -/
def strictInt (name : String) : Json → Except Fault ℤ
  | .int value => .ok value
  | _ => .error (.valueError (name ++ " must be an integer"))

/-- The timestamps of one item of a range list. -/
def decodeRange (name : String) (duration : ℤ) (index : ℕ) : Json → Except Fault (List ℤ)
  | .arr [first, count] => do
      let label := name ++ "[" ++ toString index ++ "]"
      let first ← strictInt (label ++ "[0]") first
      let count ← strictInt (label ++ "[1]") count
      require (0 < count) (.valueError (label ++ " count must be positive"))
      return (List.range count.toNat).map fun offset : ℕ => first + offset * duration
  | _ => .error (.valueError (name ++ "[" ++ toString index ++ "]" ++
      " must be [first_timestamp, count]"))

/-- The loop over the items of a range list. -/
def decodeItems (name : String) (duration : ℤ) : ℕ → List Json → Except Fault (List ℤ)
  | _, [] => .ok []
  | index, item :: items => do
      let values ← decodeRange name duration index item
      let rest ← decodeItems name duration (index + 1) items
      return values ++ rest

def decodeRanges (value : Json) (name : String) (duration : ℤ) : Except Fault (List ℤ) :=
  match value with
  | .arr items => do
      let result ← decodeItems name duration 0 items
      require (result.IsChain (· < ·))
        (.valueError (name ++ " must encode strictly increasing timestamps"))
      return result
  | _ => .error (.valueError (name ++ " must be an array"))

/-- The origin hash of a note. -/
def originHash : Json → Except Fault String
  | .str hash => do
      require (IsOriginHash hash) (.valueError "origin timestamp hash must be lowercase SHA-256")
      return hash
  | _ => .error (.valueError "origin timestamp hash must be lowercase SHA-256")

/-- The checks of a note that is a JSON object with the expected names. -/
def decodeMembers (note : String) (raw : List (String × Json)) :
    Except Fault OhlcvGapContract := do
  let field := Json.field raw
  require ((field "contract").isStr ohlcvGapContract)
    (.valueError "OHLCV gap note has an unsupported contract")
  let duration ← strictInt "timeframe_ms" (field "timeframe_ms")
  require (0 < duration ∧ duration % minuteMilliseconds = 0)
    (.valueError "timeframe_ms must be a positive whole minute")
  let normal ← decodeRanges (field "normal_gap_ranges") "normal_gap_ranges" duration
  let partials ← decodeRanges (field "partial_bucket_ranges") "partial_bucket_ranges" duration
  let evaluation ←
    decodeRanges (field "evaluation_grid_gap_ranges") "evaluation_grid_gap_ranges" duration
  let normalCount ← strictInt "normal_gap_count" (field "normal_gap_count")
  require (normalCount = normal.length)
    (.valueError "OHLCV normal gap count does not match its ranges")
  let partialCount ← strictInt "partial_bucket_count" (field "partial_bucket_count")
  require (partialCount = partials.length)
    (.valueError "OHLCV partial bucket count does not match its ranges")
  let evaluationCount ← strictInt "evaluation_grid_gap_count" (field "evaluation_grid_gap_count")
  require (evaluationCount = evaluation.length)
    (.valueError "OHLCV evaluation gap count does not match its ranges")
  require (∀ closeTime ∈ normal, closeTime ∉ partials)
    (.valueError "normal and partial OHLCV gaps must be disjoint")
  require (∀ closeTime ∈ evaluation, closeTime ∈ normal ∨ closeTime ∈ partials)
    (.valueError "evaluation gaps must be classified snapshot gaps")
  require ((field "origin_validation_status").isStr "verified")
    (.valueError "OHLCV origin must be independently verified")
  let rowCount ← strictInt "origin_minute_row_count" (field "origin_minute_row_count")
  let hash ← originHash (field "origin_timestamp_hash")
  let contract : OhlcvGapContract :=
    ⟨duration, normal, partials, evaluation, "verified", rowCount, hash⟩
  require (0 ≤ rowCount) (.valueError "invalid origin verification facts")
  require (contract.encode = note) (.valueError "OHLCV gap note must use canonical JSON")
  return contract

def decodeOhlcvGapContract (note : String) : Except Fault OhlcvGapContract :=
  match Json.loads note with
  | none => .error (.valueError "OHLCV gap note must be valid JSON")
  | some (.obj raw) => do
      require ((∀ name ∈ raw.map Prod.fst, name ∈ noteKeys) ∧
          ∀ name ∈ noteKeys, name ∈ raw.map Prod.fst)
        (.valueError "OHLCV gap note has an unexpected shape")
      decodeMembers note raw
  | some _ => .error (.valueError "OHLCV gap note has an unexpected shape")

/-! ### Ranges -/

theorem expandRun_eq (duration : ℤ) (run : ℤ × ℕ) :
    Runs.expandRun duration run =
      (List.range run.2).map fun offset : ℕ => run.1 + offset * duration := by
  unfold Runs.expandRun
  exact List.map_congr_left fun offset _ => by rw [nsmul_eq_mul]

theorem decodeRange_rangeItem {run : ℤ × ℕ} (hpos : 0 < run.2) (name : String) (duration : ℤ)
    (index : ℕ) :
    decodeRange name duration index (rangeItem run) = .ok (Runs.expandRun duration run) := by
  have hcount : (0 : ℤ) < run.2 := by exact_mod_cast hpos
  rw [expandRun_eq]
  show (require (0 < (run.2 : ℤ)) _ >>= fun _ => _) = _
  rw [require, if_pos hcount]
  rfl

theorem decodeItems_map (name : String) (duration : ℤ) (runs : List (ℤ × ℕ))
    (hpos : ∀ run ∈ runs, 0 < run.2) :
    ∀ index, decodeItems name duration index (runs.map rangeItem) =
      .ok (Runs.expand duration runs) := by
  induction runs with
  | nil =>
    intro index
    rfl
  | cons run runs ih =>
    intro index
    obtain ⟨hrun, hruns⟩ := List.forall_mem_cons.1 hpos
    rw [List.map_cons, decodeItems, decodeRange_rangeItem hrun]
    show (decodeItems name duration (index + 1) (runs.map rangeItem) >>= fun _ => _) = _
    rw [ih hruns (index + 1)]
    rfl

/-- Ranges are decoded as their expansion, which has to increase. -/
theorem decodeRanges_of_runs {runs : List (ℤ × ℕ)} {duration : ℤ}
    (hpos : ∀ run ∈ runs, 0 < run.2) (hincreasing : (Runs.expand duration runs).Pairwise (· < ·))
    (name : String) :
    decodeRanges (.arr (runs.map rangeItem)) name duration = .ok (Runs.expand duration runs) := by
  have hchain : (Runs.expand duration runs).IsChain (· < ·) :=
    List.isChain_iff_pairwise.2 hincreasing
  rw [decodeRanges, decodeItems_map name duration runs hpos]
  show (require _ _ >>= fun _ => _) = _
  rw [require, if_pos hchain]
  rfl

/-- **The ranges of a list of timestamps** are decoded as the list. -/
theorem decodeRanges_encodeRanges {values : List ℤ} (h : values.Pairwise (· < ·)) (name : String)
    (duration : ℤ) : decodeRanges (encodeRanges values duration) name duration = .ok values := by
  have hexpand : Runs.expand duration (Runs.encode duration values) = values :=
    Runs.expand_encode values
  have hmaximal : Runs.Maximal duration (Runs.encode duration values) :=
    Runs.maximal_encode values
  have hdecode := decodeRanges_of_runs hmaximal.count_pos (by rw [hexpand]; exact h) name
  rw [hexpand] at hdecode
  exact hdecode

/-- **The other way round**: ranges that decode, and of which none begins where the one before
it ends, are the ranges of what they decode to. -/
theorem encodeRanges_of_decodeRanges {runs : List (ℤ × ℕ)} {values : List ℤ} {name : String}
    {duration : ℤ} (hmaximal : Runs.Maximal duration runs)
    (h : decodeRanges (.arr (runs.map rangeItem)) name duration = .ok values) :
    encodeRanges values duration = .arr (runs.map rangeItem) := by
  have hitems := decodeItems_map name duration runs hmaximal.count_pos 0
  rw [decodeRanges] at h
  obtain ⟨result, hresult, h⟩ := Except.bind_eq_ok.1 h
  obtain ⟨-, -, h⟩ := Except.bind_eq_ok.1 h
  rw [hitems] at hresult
  cases hresult
  cases h
  rw [encodeRanges, Runs.encode_expand hmaximal]

/-! ### Reading back a note -/

/-- **What the decoder asks of a contract.** -/
structure WellFormed (contract : OhlcvGapContract) : Prop where
  duration_pos : 0 < contract.timeframeMs
  whole_minutes : contract.timeframeMs % minuteMilliseconds = 0
  normal_increasing : contract.normalGapCloseTimes.Pairwise (· < ·)
  partial_increasing : contract.partialBucketCloseTimes.Pairwise (· < ·)
  evaluation_increasing : contract.evaluationGridGapCloseTimes.Pairwise (· < ·)
  disjoint : ∀ closeTime ∈ contract.normalGapCloseTimes,
    closeTime ∉ contract.partialBucketCloseTimes
  classified : ∀ closeTime ∈ contract.evaluationGridGapCloseTimes,
    closeTime ∈ contract.normalGapCloseTimes ∨ closeTime ∈ contract.partialBucketCloseTimes
  verified : contract.originValidationStatus = "verified"
  rowCount_nonneg : 0 ≤ contract.originMinuteRowCount
  isOriginHash : IsOriginHash contract.originTimestampHash

theorem plain_encodeRanges (values : List ℤ) (duration : ℤ) :
    (encodeRanges values duration).Plain := by
  refine .arr fun item hitem => ?_
  obtain ⟨run, -, rfl⟩ := List.mem_map.1 hitem
  refine .arr fun value hvalue => ?_
  obtain rfl | hvalue := List.mem_cons.1 hvalue
  · exact .int _
  · rw [List.mem_singleton.1 hvalue]
    exact .int _

theorem sorted_encodeRanges (values : List ℤ) (duration : ℤ) :
    (encodeRanges values duration).sorted = encodeRanges values duration := by
  rw [encodeRanges, Json.sorted, Json.sortedItems_eq_map, List.map_map]
  rfl

namespace OhlcvGapContract

variable (contract : OhlcvGapContract)

theorem names_members : contract.members.map Prod.fst = noteKeys := rfl

theorem nodup_names_members : (contract.members.map Prod.fst).Nodup := by
  rw [names_members]
  decide

theorem plain_members : (Json.obj contract.members).Plain := by
  refine .obj contract.nodup_names_members fun member hmember => ?_
  simp only [members, List.mem_cons, List.not_mem_nil, or_false] at hmember
  obtain rfl | rfl | rfl | rfl | rfl | rfl | rfl | rfl | rfl | rfl | rfl := hmember
  case inr.inr.inr.inl | inr.inr.inr.inr.inr.inl | inr.inr.inr.inr.inr.inr.inr.inl =>
    exact plain_encodeRanges _ _
  case inl | inr.inr.inr.inr.inr.inr.inr.inr.inl | inr.inr.inr.inr.inr.inr.inr.inr.inr.inr =>
    exact .str _
  all_goals exact .int _

/-- A member of the note, by its place among the members. -/
theorem field_members {name : String} {value : Json} (index : ℕ)
    (h : contract.members[index]? = some (name, value)) :
    Json.field (Json.sortedMembers contract.members) name = value.sorted :=
  Json.field_sortedMembers contract.nodup_names_members (List.mem_of_getElem? h)

theorem mem_names_sortedMembers {name : String} :
    name ∈ (Json.sortedMembers contract.members).map Prod.fst ↔ name ∈ noteKeys := by
  rw [(Json.perm_names_sortedMembers contract.members).mem_iff, names_members]

end OhlcvGapContract

theorem isStr_str (text : String) : Json.isStr text (.str text) = true := decide_eq_true rfl

/-- The members of the note of a well-formed contract pass all checks. -/
theorem decodeMembers_sortedMembers {contract : OhlcvGapContract} (h : WellFormed contract) :
    decodeMembers contract.encode (Json.sortedMembers contract.members) = .ok contract := by
  have hrange : ∀ values, values.Pairwise (· < ·) → ∀ name,
      decodeRanges (encodeRanges values contract.timeframeMs).sorted name contract.timeframeMs =
        .ok values := by
    intro values hvalues name
    rw [sorted_encodeRanges]
    exact decodeRanges_encodeRanges hvalues name contract.timeframeMs
  have hstatus : Json.isStr "verified" (.str contract.originValidationStatus) = true := by
    rw [h.verified]
    exact isStr_str _
  have hhash : originHash (.str contract.originTimestampHash) =
      .ok contract.originTimestampHash := by
    show (require _ _ >>= fun _ => _) = _
    rw [require, if_pos h.isOriginHash]
    rfl
  -- the decoder writes the one status it accepts
  have hcontract : (⟨contract.timeframeMs, contract.normalGapCloseTimes,
      contract.partialBucketCloseTimes, contract.evaluationGridGapCloseTimes, "verified",
      contract.originMinuteRowCount, contract.originTimestampHash⟩ : OhlcvGapContract) =
        contract := by
    rw [← h.verified]
  simp only [decodeMembers, contract.field_members 0 rfl, contract.field_members 1 rfl,
    contract.field_members 2 rfl, contract.field_members 3 rfl, contract.field_members 4 rfl,
    contract.field_members 5 rfl, contract.field_members 6 rfl, contract.field_members 7 rfl,
    contract.field_members 8 rfl, contract.field_members 9 rfl, contract.field_members 10 rfl,
    Json.sorted_int, Json.sorted_str, Except.bind_eq_ok, require_eq_ok]
  refine ⟨(), isStr_str _, _, rfl, (), ⟨h.duration_pos, h.whole_minutes⟩,
    _, hrange _ h.normal_increasing _, _, hrange _ h.partial_increasing _,
    _, hrange _ h.evaluation_increasing _, _, rfl, (), rfl, _, rfl, (), rfl, _, rfl, (), rfl,
    (), h.disjoint, (), h.classified, (), hstatus, _, rfl, _, hhash, (), h.rowCount_nonneg, (),
    ?_, ?_⟩
  · rw [hcontract]
  · exact congrArg Except.ok hcontract

/-- **The note of a well-formed contract is read back.** -/
theorem decode_encode {contract : OhlcvGapContract} (h : WellFormed contract) :
    decodeOhlcvGapContract contract.encode = .ok contract := by
  have hnames : (∀ name ∈ (Json.sortedMembers contract.members).map Prod.fst, name ∈ noteKeys) ∧
      ∀ name ∈ noteKeys, name ∈ (Json.sortedMembers contract.members).map Prod.fst :=
    ⟨fun _ hname => contract.mem_names_sortedMembers.1 hname,
      fun _ hname => contract.mem_names_sortedMembers.2 hname⟩
  have hloads : Json.loads contract.encode = some (.obj (Json.sortedMembers contract.members)) :=
    Json.loads_canonicalJson contract.plain_members
  rw [decodeOhlcvGapContract, hloads]
  exact Except.bind_eq_ok.2 ⟨(), require_eq_ok.2 hnames, decodeMembers_sortedMembers h⟩

/-! ### The contracts that are built -/

theorem timeframeMilliseconds_pos (timeframe : Timeframe) :
    0 < timeframeMilliseconds timeframe := by
  have hunit : 0 < unitMilliseconds timeframe.unit := by
    cases timeframe.unit <;> decide
  exact mul_pos hunit (by exact_mod_cast timeframe.count_pos)

/-- Every timeframe is a whole number of minutes. -/
theorem timeframeMilliseconds_emod (timeframe : Timeframe) :
    timeframeMilliseconds timeframe % minuteMilliseconds = 0 := by
  have hunit : minuteMilliseconds ∣ unitMilliseconds timeframe.unit := by
    cases timeframe.unit <;> decide
  exact Int.emod_eq_zero_of_dvd (hunit.mul_right _)

/-- The duration of a timeframe on the source's clock. -/
theorem duration_eq_milliseconds (timeframe : Timeframe) :
    timeframe.duration = timeframeMilliseconds timeframe * Instant.millisecond := by
  have hunit : timeframe.unit.duration =
      unitMilliseconds timeframe.unit * Instant.millisecond := by
    cases timeframe.unit <;> rfl
  rw [Timeframe.duration, hunit, timeframeMilliseconds]
  ring

theorem rangeStep_increasing {start stop step : ℤ} (h : 0 < step) :
    (rangeStep start stop step).Pairwise (· < ·) := by
  rw [rangeStep, List.pairwise_map]
  refine List.pairwise_lt_range.imp ?_
  intro left right hlt
  have hcast : (left : ℤ) < right := by exact_mod_cast hlt
  have hmul := mul_lt_mul_of_pos_right hcast h
  omega

/-- **What the loop over the omitted buckets returns**: two parts of the omitted buckets, in
their order, the one of those without a minute and the one of the others. -/
structure Classified (minuteGaps : List ℤ) (duration : ℤ) (omitted normal partials : List ℤ) :
    Prop where
  normal_sublist : normal.Sublist omitted
  partials_sublist : partials.Sublist omitted
  normal_missing : ∀ closeTime ∈ normal,
    missingMinutes minuteGaps duration closeTime = duration / minuteMilliseconds
  partials_missing : ∀ closeTime ∈ partials,
    missingMinutes minuteGaps duration closeTime ≠ duration / minuteMilliseconds
  covers : ∀ closeTime ∈ omitted, closeTime ∈ normal ∨ closeTime ∈ partials

theorem classified_of_classify {minuteGaps : List ℤ} {duration : ℤ} {omitted : List ℤ} :
    ∀ {normal partials}, classify minuteGaps duration omitted = .ok (normal, partials) →
      Classified minuteGaps duration omitted normal partials := by
  induction omitted with
  | nil =>
    intro normal partials h
    cases h
    exact ⟨.slnil, .slnil, nofun, nofun, nofun⟩
  | cons closeTime omitted ih =>
    intro normal partials h
    rw [classify] at h
    simp only [Except.bind_eq_ok, require_eq_ok] at h
    obtain ⟨-, -, ⟨normal', partials'⟩, hrest, h⟩ := h
    have hclassified := ih hrest
    by_cases hall : missingMinutes minuteGaps duration closeTime = duration / minuteMilliseconds
    · -- the bucket lost all its minutes
      rw [if_pos hall] at h
      cases h
      exact {
        normal_sublist := hclassified.normal_sublist.cons_cons closeTime
        partials_sublist := hclassified.partials_sublist.cons closeTime
        normal_missing := List.forall_mem_cons.2 ⟨hall, hclassified.normal_missing⟩
        partials_missing := hclassified.partials_missing
        covers := by
          intro other hother
          obtain rfl | hother := List.mem_cons.1 hother
          · exact Or.inl List.mem_cons_self
          · exact (hclassified.covers other hother).imp (List.mem_cons_of_mem _) id }
    · rw [if_neg hall] at h
      cases h
      exact {
        normal_sublist := hclassified.normal_sublist.cons closeTime
        partials_sublist := hclassified.partials_sublist.cons_cons closeTime
        normal_missing := hclassified.normal_missing
        partials_missing := List.forall_mem_cons.2 ⟨hall, hclassified.partials_missing⟩
        covers := by
          intro other hother
          obtain rfl | hother := List.mem_cons.1 hother
          · exact Or.inr List.mem_cons_self
          · exact (hclassified.covers other hother).imp id (List.mem_cons_of_mem _) }

/-- Both classifications split the omitted buckets. -/
theorem split_of_classifyOmitted {minuteGapCloseTimes : Option (List ℤ)} {duration : ℤ}
    {omitted normal partials : List ℤ}
    (h : classifyOmitted minuteGapCloseTimes duration omitted = .ok (normal, partials)) :
    normal.Sublist omitted ∧ partials.Sublist omitted ∧
      (∀ closeTime ∈ normal, closeTime ∉ partials) ∧
      ∀ closeTime ∈ omitted, closeTime ∈ normal ∨ closeTime ∈ partials := by
  unfold classifyOmitted at h
  by_cases hminute : duration = minuteMilliseconds
  · rw [if_pos hminute] at h
    cases h
    exact ⟨List.Sublist.refl _, List.nil_sublist _, fun _ _ => List.not_mem_nil,
      fun _ hmem => Or.inl hmem⟩
  · rw [if_neg hminute] at h
    cases minuteGapCloseTimes with
    | none => cases h
    | some minuteGaps =>
      have hclassified := classified_of_classify h
      refine ⟨hclassified.normal_sublist, hclassified.partials_sublist, ?_, hclassified.covers⟩
      intro closeTime hnormal hpartial
      exact hclassified.partials_missing closeTime hpartial
        (hclassified.normal_missing closeTime hnormal)

section Build

variable {candles : List Candle} {timeframe : Timeframe}
  {rangeStart rangeEnd evaluationStart evaluationEnd : ℤ} {minuteGapCloseTimes : Option (List ℤ)}
  {originValidationStatus : String} {originMinuteRowCount : ℤ} {originTimestampHash : String}
  {contract : OhlcvGapContract}

/-- **Every contract that is built is well formed.** -/
theorem wellFormed_of_build
    (h : buildOhlcvGapContract candles timeframe rangeStart rangeEnd evaluationStart evaluationEnd
      minuteGapCloseTimes originValidationStatus originMinuteRowCount originTimestampHash =
        .ok contract) : WellFormed contract := by
  simp only [buildOhlcvGapContract, Except.bind_eq_ok, require_eq_ok] at h
  obtain ⟨-, -, -, -, -, -, -, hstatus, -, hcount, -, hhash, actual, -, ⟨normal, partials⟩,
    hclassify, h⟩ := h
  cases h
  have hduration := timeframeMilliseconds_pos timeframe
  obtain ⟨hnormal, hpartials, hdisjoint, hcovers⟩ := split_of_classifyOmitted hclassify
  -- the omitted buckets are a part of the grid, in its order
  have hgrid := @rangeStep_increasing (epochMilliseconds rangeStart +
    timeframeMilliseconds timeframe) (epochMilliseconds rangeEnd + 1) _ hduration
  have homitted := hgrid.filter fun closeTime => decide (closeTime ∉ actual)
  exact {
    duration_pos := hduration
    whole_minutes := timeframeMilliseconds_emod timeframe
    normal_increasing := homitted.sublist hnormal
    partial_increasing := homitted.sublist hpartials
    evaluation_increasing := homitted.filter _
    disjoint := hdisjoint
    classified := fun closeTime hmem => hcovers closeTime (List.mem_filter.1 hmem).1
    verified := hstatus
    rowCount_nonneg := hcount
    isOriginHash := hhash }

/-- **The round trip of the gap contract.** The note of every contract that is built is read
back as that contract; the ranges of its three lists are decoded as the lists, and every list
of ranges that decodes, and in which no range begins where the one before it ends, is the
encoding of what it decodes to. -/
theorem gapContract_round_trip
    (h : buildOhlcvGapContract candles timeframe rangeStart rangeEnd evaluationStart evaluationEnd
      minuteGapCloseTimes originValidationStatus originMinuteRowCount originTimestampHash =
        .ok contract) :
    decodeOhlcvGapContract contract.encode = .ok contract ∧
      (∀ values ∈ [contract.normalGapCloseTimes, contract.partialBucketCloseTimes,
          contract.evaluationGridGapCloseTimes], ∀ name,
        decodeRanges (encodeRanges values contract.timeframeMs) name contract.timeframeMs =
          .ok values) ∧
      ∀ runs name values, Runs.Maximal contract.timeframeMs runs →
        decodeRanges (.arr (runs.map rangeItem)) name contract.timeframeMs = .ok values →
          encodeRanges values contract.timeframeMs = .arr (runs.map rangeItem) := by
  have hwellFormed := wellFormed_of_build h
  refine ⟨decode_encode hwellFormed, ?_, fun runs name values => encodeRanges_of_decodeRanges⟩
  intro values hvalues name
  have hincreasing : values.Pairwise (· < ·) := by
    simp only [List.mem_cons, List.not_mem_nil, or_false] at hvalues
    obtain rfl | rfl | rfl := hvalues
    · exact hwellFormed.normal_increasing
    · exact hwellFormed.partial_increasing
    · exact hwellFormed.evaluation_increasing
  exact decodeRanges_encodeRanges hincreasing name contract.timeframeMs

end Build

/-! ### A snapshot with gaps at both ends -/

theorem hundred_pos : Binary64.zero < Binary64.ofRat 100 :=
  Binary64.zero_lt_ofRat (by norm_num)

def hourly : Timeframe := ⟨1, .hours, Nat.one_pos⟩

/-- The only candle of a snapshot of four hours, the third one. -/
def thirdHour : Candle :=
  Candle.flat "BTCUSDT" hourly (2 * Instant.hour) (Binary64.ofRat 100) hundred_pos

/-- All minutes of the first and the last hour and one of the second. -/
def missingCloseTimes : List ℤ :=
  ((List.range 61) ++ (List.range 60).map (· + 180)).map fun minute : ℕ =>
    (minute + 1) * minuteMilliseconds

def someHash : String := "0123456789abcdef0123456789abcdef0123456789abcdef0123456789abcdef"

/-- The contract of that snapshot: normal gaps at both ends, a partial bucket next to the
first of them. -/
def fourHours : OhlcvGapContract :=
  ⟨3600000, [3600000, 14400000], [7200000], [3600000, 7200000, 14400000], "verified", 120, someHash⟩

/-- The minutes that are missing, by their number. -/
theorem mem_missingCloseTimes (minute : ℕ) :
    ((minute : ℤ) + 1) * minuteMilliseconds ∈ missingCloseTimes ↔
      minute < 61 ∨ 180 ≤ minute ∧ minute < 240 := by
  have hinj : Function.Injective fun minute : ℕ => ((minute : ℤ) + 1) * minuteMilliseconds := by
    intro minute minute' heq
    have hsucc := mul_right_cancel₀ (show minuteMilliseconds ≠ 0 by decide) heq
    exact_mod_cast add_right_cancel hsucc
  unfold missingCloseTimes
  rw [List.mem_map_of_injective hinj, List.mem_append, List.mem_map, List.mem_range]
  refine or_congr_right ⟨?_, fun hminute => ⟨minute - 180, ?_, by omega⟩⟩
  · rintro ⟨offset, hoffset, rfl⟩
    have := List.mem_range.1 hoffset
    omega
  · exact List.mem_range.2 (by omega)

/-- The missing minutes of an hour of the snapshot. -/
theorem missingMinutes_fourHours (hour : ℕ) :
    missingMinutes missingCloseTimes 3600000 ((hour + 1) * 3600000) =
      (List.range 60).countP fun offset =>
        hour * 60 + offset < 61 ∨ 180 ≤ hour * 60 + offset ∧ hour * 60 + offset < 240 := by
  have hminute : ∀ offset : ℕ,
      (hour + 1 : ℤ) * 3600000 - 3600000 + (offset + 1) * minuteMilliseconds =
        ((hour * 60 + offset : ℕ) + 1) * minuteMilliseconds := by
    intro offset
    unfold minuteMilliseconds
    push_cast
    ring
  unfold missingMinutes
  rw [bind_pure_comp, List.map_eq_map, List.countP_map]
  refine List.countP_congr fun offset _ => ?_
  rw [Function.comp_apply, hminute, decide_eq_true_iff, decide_eq_true_iff]
  exact mem_missingCloseTimes _

theorem classify_fourHours :
    classify missingCloseTimes 3600000 [3600000, 7200000, 14400000] =
      .ok ([3600000, 14400000], [7200000]) := by
  have hfirst : missingMinutes missingCloseTimes 3600000 3600000 = 60 :=
    (missingMinutes_fourHours 0).trans (by decide)
  have hsecond : missingMinutes missingCloseTimes 3600000 7200000 = 1 :=
    (missingMinutes_fourHours 1).trans (by decide)
  have hlast : missingMinutes missingCloseTimes 3600000 14400000 = 60 :=
    (missingMinutes_fourHours 3).trans (by decide)
  unfold classify classify classify classify
  rw [hfirst, hsecond, hlast]
  rfl

theorem build_fourHours :
    buildOhlcvGapContract [thirdHour] hourly 0 (4 * Instant.hour) 0 (4 * Instant.hour)
      (some missingCloseTimes) "verified" 120 someHash = .ok fourHours := by
  have hend : epochMilliseconds (4 * Instant.hour) = 14400000 := by decide +kernel
  have hactual : gatherCloseTimes hourly 0 14400000 [thirdHour] [] = .ok [10800000] := by
    decide +kernel
  have homitted : (rangeStep 3600000 14400001 3600000).filter (· ∉ [10800000]) =
      [3600000, 7200000, 14400000] := by decide
  have hhash : IsOriginHash someHash := by decide +kernel
  have hstart : epochMilliseconds 0 = 0 := by decide +kernel
  have hduration : timeframeMilliseconds hourly = 3600000 := rfl
  have hclassify : classifyOmitted (some missingCloseTimes) 3600000
      [3600000, 7200000, 14400000] = .ok ([3600000, 14400000], [7200000]) :=
    classify_fourHours
  simp only [buildOhlcvGapContract, requireAligned, Except.bind_eq_ok, require_eq_ok, hstart,
    hend, hduration]
  refine ⟨⟨⟩, by decide, ⟨⟩, by decide, ⟨⟩, by decide, ⟨⟩, trivial, ⟨⟩, by decide, ⟨⟩, hhash, _,
    hactual,
    _, (congrArg _ homitted).trans hclassify, ?_⟩
  rfl

/-- The note of that snapshot is read back. -/
theorem gapContract_round_trip_of_four_hours :
    decodeOhlcvGapContract fourHours.encode = .ok fourHours :=
  (gapContract_round_trip build_fourHours).1

end OhlcvGaps
end TradingSystem
