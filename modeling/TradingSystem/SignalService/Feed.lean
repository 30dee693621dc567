import TradingSystem.Series.Board
import Mathlib.Data.List.Sort

/-!
# Confirmed candles of the signal service

The reads a live session makes: all confirmed candles of a stream up to a boundary, and
those opening at or after a cursor. `SignalDataFeed` is the port; its reads may raise.
`Store` is a database of confirmed candles and `Store.feed` the port it implements.

* `readStream` — a read, sorted and validated.
* `Store.readStream_feed` — a store is read without an error.
* `AgreeUpTo` — two stores with the same candles up to an instant.
-/

namespace TradingSystem

open Logic

/-- The text of a timeframe. -/
def Timeframe.text (timeframe : Timeframe) : String :=
  toString timeframe.count ++
    match timeframe.unit with
    | .minutes => "m"
    | .hours => "h"
    | .days => "d"

namespace SignalService

/-- A symbol and a timeframe. -/
abbrev CandleStream := String × Timeframe

/-- The reads of confirmed candles: all of a stream up to a boundary, and those opening
at or after a cursor. -/
structure SignalDataFeed where
  candles : String → Timeframe → ℤ → Except Fault (List Candle)
  candlesAfter : String → Timeframe → ℤ → ℤ → Except Fault (List Candle)

/-- `sorted(…, key=lambda candle: candle.open_time)`. -/
def sortedByOpen (candles : List Candle) : List Candle :=
  candles.insertionSort fun left right => left.openTime ≤ right.openTime

def assertFinalized (candle : Candle) (decisionTime : ℤ) : Except Fault Unit :=
  require (candle.closeTime ≤ decisionTime) (.valueError "candle closes after decision time")

/-- The candles of a read are final and belong to the stream. -/
def validateEach (stream : CandleStream) (boundary : ℤ) (outside : String) :
    List Candle → Except Fault Unit
  | [] => .ok ()
  | candle :: rest => do
    assertFinalized candle boundary
    require (candle.symbol = stream.1 ∧ candle.timeframe = stream.2) (.valueError outside)
    validateEach stream boundary outside rest

/-- `_validate_sequence` and `_validate_series_sequence`, which differ in the text for a
candle outside the stream. -/
def validateSequence (stream : CandleStream) (boundary : ℤ) (outside : String)
    (candles : List Candle) : Except Fault Unit := do
  require (∀ pair ∈ candles.zip candles.tail, pair.1.openTime < pair.2.openTime)
    (.valueError "DataFeed candles must have strictly increasing open_time")
  require (∀ pair ∈ candles.zip candles.tail, pair.1.closeTime ≤ pair.2.openTime)
    (.valueError "DataFeed candles must not overlap")
  validateEach stream boundary outside candles

/-- The text of `_validate_sequence`. -/
def outsideConfigured : String := "DataFeed returned a candle outside the configured series"

/-- The text of `_validate_series_sequence`. -/
def outsideRequested : String := "DataFeed returned a candle outside the requested series"

/-- `_confirmed_history` and `_series_history`. -/
def readStream (feed : SignalDataFeed) (stream : CandleStream) (boundary : ℤ)
    (outside : String) : Except Fault (List Candle) := do
  let candles ← feed.candles stream.1 stream.2 boundary
  let history := sortedByOpen candles
  validateSequence stream boundary outside history
  return history

/-- The validated reads past a cursor. -/
def readStreamAfter (feed : SignalDataFeed) (stream : CandleStream) (after boundary : ℤ)
    (outside : String) : Except Fault (List Candle) := do
  let candles ← feed.candlesAfter stream.1 stream.2 after boundary
  let fresh := sortedByOpen candles
  validateSequence stream boundary outside fresh
  return fresh

/-! ### Stores -/

/-- **A database of confirmed candles.** The candles of a stream follow each other. -/
structure Store where
  candles : CandleStream → List Candle
  stream_eq : ∀ stream, ∀ candle ∈ candles stream,
    candle.symbol = stream.1 ∧ candle.timeframe = stream.2
  ordered : ∀ stream, (candles stream).Pairwise fun left right =>
    left.closeTime ≤ right.openTime

namespace Store

variable (store : Store)

/-- The candles closed by an instant. -/
def closedBy (stream : CandleStream) (boundary : ℤ) : List Candle :=
  (store.candles stream).filter fun candle => candle.closeTime ≤ boundary

/-- The candles that open at or after a cursor and are closed by an instant. -/
def closedAfter (stream : CandleStream) (after boundary : ℤ) : List Candle :=
  if boundary ≤ after then [] else
    (store.candles stream).filter fun candle =>
      after ≤ candle.openTime ∧ candle.closeTime ≤ boundary

/-- The feed of a store: complete candles only, and an empty read when the cursor has
reached the boundary. -/
def feed : SignalDataFeed where
  candles symbol timeframe upTo := .ok (store.closedBy (symbol, timeframe) upTo)
  candlesAfter symbol timeframe after upTo :=
    .ok (store.closedAfter (symbol, timeframe) after upTo)

variable {store} {stream : CandleStream} {boundary after : ℤ} {candle : Candle}

theorem mem_closedBy :
    candle ∈ store.closedBy stream boundary ↔
      candle ∈ store.candles stream ∧ candle.closeTime ≤ boundary := by
  unfold closedBy
  rw [List.mem_filter, decide_eq_true_eq]

theorem mem_closedAfter :
    candle ∈ store.closedAfter stream after boundary ↔
      candle ∈ store.candles stream ∧ after ≤ candle.openTime ∧ candle.closeTime ≤ boundary := by
  unfold closedAfter
  split
  · next hle =>
    have := candle.openTime_lt_closeTime
    constructor
    · intro h
      cases h
    · rintro ⟨-, h₁, h₂⟩
      omega
  · rw [List.mem_filter, decide_eq_true_eq]

theorem closedBy_ordered :
    (store.closedBy stream boundary).Pairwise fun left right =>
      left.closeTime ≤ right.openTime :=
  (store.ordered stream).filter _

theorem closedAfter_ordered :
    (store.closedAfter stream after boundary).Pairwise fun left right =>
      left.closeTime ≤ right.openTime := by
  unfold closedAfter
  split
  · exact List.Pairwise.nil
  · exact (store.ordered stream).filter _

end Store

/-! ### Reading a store -/

section Reads

variable {stream : CandleStream} {boundary : ℤ} {outside : String} {candles : List Candle}

/-- Candles that follow each other are sorted. -/
theorem sortedByOpen_eq_self
    (h : candles.Pairwise fun left right => left.closeTime ≤ right.openTime) :
    sortedByOpen candles = candles := by
  apply List.Pairwise.insertionSort_eq
  refine h.imp fun {left right} hle => ?_
  have := left.openTime_lt_closeTime
  omega

theorem rel_of_mem_zip_tail {R : Candle → Candle → Prop} (h : candles.Pairwise R) :
    ∀ pair ∈ candles.zip candles.tail, R pair.1 pair.2 := by
  induction candles with
  | nil => simp
  | cons first rest ih =>
    intro pair hmem
    cases rest with
    | nil => simp at hmem
    | cons second rest =>
      rw [List.pairwise_cons] at h
      rw [List.tail_cons, List.zip_cons_cons, List.mem_cons] at hmem
      rcases hmem with rfl | hmem
      · exact h.1 second (List.mem_cons_self ..)
      · exact ih h.2 pair hmem

theorem validateEach_eq_ok
    (hstream : ∀ candle ∈ candles, candle.symbol = stream.1 ∧ candle.timeframe = stream.2)
    (hfinal : ∀ candle ∈ candles, candle.closeTime ≤ boundary) :
    validateEach stream boundary outside candles = .ok () := by
  induction candles with
  | nil => rfl
  | cons candle rest ih =>
    have hfirst : assertFinalized candle boundary = .ok () :=
      require_eq_ok.2 (hfinal candle (List.mem_cons_self ..))
    have hown : require (candle.symbol = stream.1 ∧ candle.timeframe = stream.2)
        (.valueError outside) = .ok () :=
      require_eq_ok.2 (hstream candle (List.mem_cons_self ..))
    unfold validateEach
    rw [hfirst, hown]
    exact ih (fun c hc => hstream c (List.mem_cons_of_mem _ hc))
      (fun c hc => hfinal c (List.mem_cons_of_mem _ hc))

/-- Final candles of the stream that follow each other pass the validation. -/
theorem validateSequence_eq_ok
    (hordered : candles.Pairwise fun left right => left.closeTime ≤ right.openTime)
    (hstream : ∀ candle ∈ candles, candle.symbol = stream.1 ∧ candle.timeframe = stream.2)
    (hfinal : ∀ candle ∈ candles, candle.closeTime ≤ boundary) :
    validateSequence stream boundary outside candles = .ok () := by
  have hoverlap := rel_of_mem_zip_tail hordered
  have hincreasing : ∀ pair ∈ candles.zip candles.tail, pair.1.openTime < pair.2.openTime := by
    intro pair hmem
    have := hoverlap pair hmem
    have := pair.1.openTime_lt_closeTime
    omega
  unfold validateSequence
  rw [(require_eq_ok (u := ())).2 hincreasing, (require_eq_ok (u := ())).2 hoverlap]
  exact validateEach_eq_ok hstream hfinal

/-- **Reading a store.** The read returns the candles closed by the boundary. -/
theorem Store.readStream_feed {store : Store} :
    readStream store.feed stream boundary outside = .ok (store.closedBy stream boundary) := by
  have hsorted : sortedByOpen (store.closedBy stream boundary) = _ :=
    sortedByOpen_eq_self closedBy_ordered
  have hvalid : validateSequence stream boundary outside (store.closedBy stream boundary) =
      .ok () :=
    validateSequence_eq_ok closedBy_ordered
      (fun candle hmem => store.stream_eq stream candle (mem_closedBy.1 hmem).1)
      (fun candle hmem => (mem_closedBy.1 hmem).2)
  change (do
    validateSequence stream boundary outside (sortedByOpen (store.closedBy stream boundary))
    return sortedByOpen (store.closedBy stream boundary) : Except Fault (List Candle)) = _
  rw [hsorted, hvalid]
  rfl

/-- Reading a store past a cursor. -/
theorem Store.readStreamAfter_feed {store : Store} {after : ℤ} :
    readStreamAfter store.feed stream after boundary outside =
      .ok (store.closedAfter stream after boundary) := by
  have hsorted : sortedByOpen (store.closedAfter stream after boundary) = _ :=
    sortedByOpen_eq_self closedAfter_ordered
  have hvalid : validateSequence stream boundary outside
      (store.closedAfter stream after boundary) = .ok () :=
    validateSequence_eq_ok closedAfter_ordered
      (fun candle hmem => store.stream_eq stream candle (mem_closedAfter.1 hmem).1)
      (fun candle hmem => (mem_closedAfter.1 hmem).2.2)
  change (do
    validateSequence stream boundary outside
      (sortedByOpen (store.closedAfter stream after boundary))
    return sortedByOpen (store.closedAfter stream after boundary) :
      Except Fault (List Candle)) = _
  rw [hsorted, hvalid]
  rfl

end Reads

/-! ### Stores that agree up to an instant -/

/-- Two stores hold the same candles up to an instant. -/
def AgreeUpTo (instant : ℤ) (store store' : Store) : Prop :=
  ∀ stream, store.closedBy stream instant = store'.closedBy stream instant

namespace AgreeUpTo

variable {store store' : Store} {instant boundary after : ℤ} {stream : CandleStream}
  {candle : Candle}

theorem symm (h : AgreeUpTo instant store store') : AgreeUpTo instant store' store :=
  fun stream => (h stream).symm

theorem mem_iff (h : AgreeUpTo instant store store') (hle : candle.closeTime ≤ instant) :
    candle ∈ store.candles stream ↔ candle ∈ store'.candles stream := by
  have hmem : candle ∈ store.closedBy stream instant ↔
      candle ∈ store.candles stream ∧ candle.closeTime ≤ instant := Store.mem_closedBy
  have hmem' : candle ∈ store'.closedBy stream instant ↔
      candle ∈ store'.candles stream ∧ candle.closeTime ≤ instant := Store.mem_closedBy
  rw [h stream] at hmem
  simp only [hle, and_true] at hmem hmem'
  exact hmem.symm.trans hmem'

theorem closedBy_closedBy (store : Store) (hle : boundary ≤ instant) :
    store.closedBy stream boundary =
      (store.closedBy stream instant).filter fun candle => candle.closeTime ≤ boundary := by
  unfold Store.closedBy
  rw [List.filter_filter]
  apply List.filter_congr
  intro candle _
  by_cases hclosed : candle.closeTime ≤ boundary
  · have : candle.closeTime ≤ instant := by omega
    simp [hclosed, this]
  · simp [hclosed]

/-- Reads up to an earlier instant agree. -/
theorem closedBy_eq (h : AgreeUpTo instant store store') (hle : boundary ≤ instant) :
    store.closedBy stream boundary = store'.closedBy stream boundary := by
  rw [closedBy_closedBy store hle, closedBy_closedBy store' hle, h stream]

theorem mono (h : AgreeUpTo instant store store') (hle : boundary ≤ instant) :
    AgreeUpTo boundary store store' := fun _ => h.closedBy_eq hle

theorem closedAfter_eq (h : AgreeUpTo instant store store') (hle : boundary ≤ instant) :
    store.closedAfter stream after boundary = store'.closedAfter stream after boundary := by
  have hsplit : ∀ s : Store, s.closedAfter stream after boundary =
      if boundary ≤ after then [] else
        (s.closedBy stream boundary).filter fun candle => after ≤ candle.openTime := by
    intro s
    unfold Store.closedAfter Store.closedBy
    rw [List.filter_filter]
    simp only [Bool.decide_and]
  rw [hsplit, hsplit, h.closedBy_eq hle]

end AgreeUpTo

end SignalService
end TradingSystem
