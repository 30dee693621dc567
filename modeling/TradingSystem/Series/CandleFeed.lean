import TradingSystem.Wallet.Resample
import TradingSystem.Logic.Program
import Mathlib.Data.List.Sort

/-!
# The candle reads of a run

A run reads its candles from the stored candles of one minute. A read is bounded above by
the end of the run, and below by a floor when one is set; the minutes in between are grouped
into buckets of the timeframe, and the complete buckets become candles.

This is the read on an exact clock, with the prices of a bar only. `Resampling.Resample` has the
function with all its columns and errors, `Resampling.CandleReads` that both read the same bars.

* `candles` — a read, with or without a floor.
* `mem_candles`, `candles_ordered` — what is read, and in which order.
* `candles_since` — a read with a floor is the read without one, from the floor on.
-/

namespace TradingSystem
namespace CandleFeed

open Logic Wallet

/-- The rows of `_CANDLES_SQL`, and with a floor those of `_CANDLES_SINCE_SQL`. -/
def sourceRows (store : MinuteStore) (floor : Option ℤ) (symbol : String) (upTo : ℤ) :
    MinuteStore :=
  store.filter fun minute =>
    minute.symbol = symbol ∧ minute.timeframe = Timeframe.oneMinute ∧
      (∀ bound ∈ floor, bound ≤ minute.openTime) ∧ minute.openTime < upTo

def bucketStart (time duration : ℤ) : ℤ := time - time % duration

/-- The bucket starts from the first to the latest. -/
def buckets (first latest duration : ℤ) : List ℤ :=
  (List.range ((latest - first) / duration + 1).toNat).map fun k : ℕ => first + (k : ℤ) * duration

/-- `resample_confirmed_ohlcv`: the candles of the complete buckets. -/
def resample (rows : MinuteStore) (symbol : String) (timeframe : Timeframe) (boundary : ℤ) :
    Except Fault (List Candle) := do
  require (rows.map (·.openTime)).Nodup (.valueError "duplicate 1m source candle")
  match (rows.map fun row => bucketStart row.openTime timeframe.duration).min? with
  | none => return []
  | some first =>
    let latest := bucketStart (boundary - timeframe.duration) timeframe.duration
    return (buckets first latest timeframe.duration).filterMap
      (confirmedCandle rows symbol timeframe)

/-- `BacktestDataFeed.candles` under a history floor. -/
def candles (store : MinuteStore) (floor : Option ℤ) (symbol : String) (timeframe : Timeframe)
    (upTo : ℤ) : Except Fault (List Candle) :=
  resample (sourceRows store floor symbol upTo) symbol timeframe upTo

/-! ### Buckets -/

section Buckets

variable {rows : MinuteStore} {symbol : String} {timeframe : Timeframe} {boundary : ℤ}
  {result : List Candle} {candle : Candle} {time duration : ℤ}

theorem bucketStart_le (hpos : 0 < duration) : bucketStart time duration ≤ time := by
  have := Int.emod_nonneg time hpos.ne'
  unfold bucketStart
  omega

theorem dvd_bucketStart : duration ∣ bucketStart time duration := Int.dvd_self_sub_emod

/-- A bucket start is the start of its own bucket. -/
theorem bucketStart_eq_self (h : time % duration = 0) : bucketStart time duration = time := by
  unfold bucketStart
  rw [h, sub_zero]

/-- A multiple of the duration is at most the bucket start of any later instant. -/
theorem le_bucketStart (hpos : 0 < duration) {later : ℤ} (h : time % duration = 0)
    (hle : time ≤ later) : time ≤ bucketStart later duration := by
  unfold bucketStart
  have hsplit := Int.emod_add_mul_ediv later duration
  obtain ⟨k, rfl⟩ := Int.dvd_of_emod_eq_zero h
  have hk : k ≤ later / duration := by
    rw [Int.le_ediv_iff_mul_le hpos, mul_comm]
    exact hle
  have := mul_le_mul_of_nonneg_left hk hpos.le
  linarith

/-- The bucket starts are the multiples between the first and the latest. -/
theorem mem_buckets (hpos : 0 < duration) {first latest : ℤ} (hfirst : duration ∣ first) :
    time ∈ buckets first latest duration ↔
      time % duration = 0 ∧ first ≤ time ∧ time ≤ bucketStart latest duration := by
  unfold buckets
  rw [List.mem_map]
  constructor
  · rintro ⟨k, hk, rfl⟩
    rw [List.mem_range] at hk
    have hk' : (k : ℤ) ≤ (latest - first) / duration := by omega
    rw [Int.le_ediv_iff_mul_le hpos] at hk'
    have hdvd : (first + k * duration) % duration = 0 :=
      Int.emod_eq_zero_of_dvd (hfirst.add (Dvd.intro_left _ rfl))
    have hnonneg : 0 ≤ (k : ℤ) * duration := by positivity
    refine ⟨hdvd, by linarith, le_bucketStart hpos hdvd (by linarith)⟩
  · rintro ⟨hmul, hle, hlatest⟩
    -- both are multiples of the duration, and their quotients are counted
    obtain ⟨q, rfl⟩ := hfirst
    obtain ⟨r, rfl⟩ := Int.dvd_of_emod_eq_zero hmul
    have hqr : q ≤ r := le_of_mul_le_mul_left hle hpos
    have hlater := hlatest.trans (bucketStart_le hpos)
    have hquot : r - q ≤ (latest - duration * q) / duration := by
      rw [Int.le_ediv_iff_mul_le hpos]
      linarith
    refine ⟨(r - q).toNat, List.mem_range.2 (by omega), ?_⟩
    rw [Int.toNat_of_nonneg (by omega)]
    ring

/-- The minutes of a bucket. -/
theorem mem_bucketTimes {openTime : ℤ} : time ∈ bucketTimes timeframe openTime ↔
    ∃ k < (timeframe.duration / Instant.minute).toNat,
      openTime + (k : ℤ) * Instant.minute = time := by
  unfold bucketTimes
  simp [List.mem_flatMap, eq_comm]

/-- The first minute of a bucket is one of its minutes, and every minute comes at or
after it. -/
theorem mem_bucketTimes_self (timeframe : Timeframe) (openTime : ℤ) :
    openTime ∈ bucketTimes timeframe openTime := by
  have hcount : 1 ≤ timeframe.duration / Instant.minute := by
    rw [Int.le_ediv_iff_mul_le (by decide)]
    have := timeframe.minute_le_duration
    omega
  exact mem_bucketTimes.2 ⟨0, by omega, by simp⟩

theorem le_of_mem_bucketTimes {openTime : ℤ} (h : time ∈ bucketTimes timeframe openTime) :
    openTime ≤ time := by
  obtain ⟨k, -, rfl⟩ := mem_bucketTimes.1 h
  have : 0 ≤ (k : ℤ) * Instant.minute := mul_nonneg (by positivity) (by decide)
  linarith

/-- A list is mapped through when each of its elements is. -/
theorem mapM_eq_none {α β : Type} {f : α → Option β} {l : List α} {a : α} (ha : a ∈ l)
    (hnone : f a = none) : l.mapM f = none := by
  induction l with
  | nil => cases ha
  | cons b l ih =>
    rw [List.mapM_cons]
    rcases List.mem_cons.1 ha with rfl | ha
    · rw [hnone]
      rfl
    · rw [ih ha]
      cases f b <;> rfl

theorem mapM_option_congr {α β : Type} {f g : α → Option β} {l : List α}
    (h : ∀ a ∈ l, f a = g a) : l.mapM f = l.mapM g := by
  induction l with
  | nil => rfl
  | cons a l ih =>
    rw [List.mapM_cons, List.mapM_cons, h a (List.mem_cons_self ..),
      ih fun b hb => h b (List.mem_cons_of_mem _ hb)]

/-- A confirmed candle starts at a multiple of its duration, with a stored minute. -/
theorem exists_row_of_confirmed
    (h : confirmedCandle rows symbol timeframe time = some candle) :
    time % timeframe.duration = 0 ∧ ∃ row ∈ rows, row.openTime = time := by
  unfold confirmedCandle at h
  split at h
  · next hmul =>
    refine ⟨hmul.1, ?_⟩
    cases hfirst : minuteAt rows symbol time with
    | none =>
      rw [mapM_eq_none (mem_bucketTimes_self timeframe time) hfirst] at h
      cases h
    | some row =>
      have hfound := List.find?_some hfirst
      rw [decide_eq_true_eq] at hfound
      exact ⟨row, List.mem_of_find?_eq_some hfirst, hfound.2.2⟩
  · cases h

/-- **What a read holds**: the confirmed candles that close by the boundary. -/
theorem mem_resample (h : resample rows symbol timeframe boundary = .ok result) :
    candle ∈ result ↔
      confirmedCandle rows symbol timeframe candle.openTime = some candle ∧
        candle.closeTime ≤ boundary := by
  have hpos := timeframe.duration_pos
  unfold resample at h
  rw [Except.bind_eq_ok] at h
  obtain ⟨-, -, h⟩ := h
  -- a confirmed candle has a row, so its bucket is not before the first one
  cases hmin : (rows.map fun row => bucketStart row.openTime timeframe.duration).min? with
  | none =>
    rw [hmin] at h
    cases h
    rw [List.min?_eq_none_iff, List.map_eq_nil_iff] at hmin
    constructor
    · intro hmem
      cases hmem
    · rintro ⟨hconfirmed, -⟩
      obtain ⟨-, row, hrow, -⟩ := exists_row_of_confirmed hconfirmed
      rw [hmin] at hrow
      cases hrow
  | some first =>
    rw [hmin] at h
    cases h
    rw [List.min?_eq_some_iff] at hmin
    obtain ⟨hfirst, hleast⟩ := hmin
    have hdvd : timeframe.duration ∣ first := by
      obtain ⟨row, -, rfl⟩ := List.mem_map.1 hfirst
      exact dvd_bucketStart
    have hlatest : bucketStart (bucketStart (boundary - timeframe.duration) timeframe.duration)
        timeframe.duration = bucketStart (boundary - timeframe.duration) timeframe.duration :=
      bucketStart_eq_self (Int.emod_eq_zero_of_dvd dvd_bucketStart)
    rw [List.mem_filterMap]
    constructor
    · rintro ⟨time, htime, hconfirmed⟩
      rw [mem_buckets hpos hdvd, hlatest] at htime
      obtain ⟨-, -, hopen, hclose⟩ := confirmedCandle_eq_some hconfirmed
      have hle := htime.2.2.trans (bucketStart_le hpos)
      refine ⟨by rw [hopen]; exact hconfirmed, by rw [hclose]; linarith⟩
    · rintro ⟨hconfirmed, hclose⟩
      obtain ⟨hmul, row, hrow, heq⟩ := exists_row_of_confirmed hconfirmed
      obtain ⟨-, -, -, hclose'⟩ := confirmedCandle_eq_some hconfirmed
      refine ⟨candle.openTime, ?_, hconfirmed⟩
      rw [mem_buckets hpos hdvd, hlatest]
      refine ⟨hmul, ?_, le_bucketStart hpos hmul (by linarith)⟩
      have hbucket := hleast _ (List.mem_map_of_mem hrow)
      rw [heq, bucketStart_eq_self hmul] at hbucket
      exact hbucket

theorem buckets_pairwise (timeframe : Timeframe) (first latest : ℤ) :
    (buckets first latest timeframe.duration).Pairwise (· < ·) := by
  unfold buckets
  refine List.pairwise_map.2 (List.pairwise_lt_range.imp ?_)
  intro j k hjk
  have hcast : (j : ℤ) < k := by exact_mod_cast hjk
  have := mul_lt_mul_of_pos_right hcast timeframe.duration_pos
  linarith

/-- Candles are read in the order in which they open. -/
theorem resample_ordered (h : resample rows symbol timeframe boundary = .ok result) :
    result.Pairwise fun left right => left.openTime < right.openTime := by
  unfold resample at h
  rw [Except.bind_eq_ok] at h
  obtain ⟨-, -, h⟩ := h
  cases hmin : (rows.map fun row => bucketStart row.openTime timeframe.duration).min? with
  | none =>
    rw [hmin] at h
    cases h
    exact List.Pairwise.nil
  | some first =>
    rw [hmin] at h
    cases h
    refine (buckets_pairwise timeframe first _).filterMap _ ?_
    intro s t hst left hleft right hright
    obtain ⟨-, -, hs, -⟩ := confirmedCandle_eq_some hleft
    obtain ⟨-, -, ht, -⟩ := confirmedCandle_eq_some hright
    rw [hs, ht]
    exact hst

end Buckets

/-! ### The floor -/

section Floor

variable {store : MinuteStore} {symbol : String} {timeframe : Timeframe} {floor upTo : ℤ}
  {all since : List Candle} {candle : Candle}

/-- Above the floor the same minutes are stored. -/
theorem minuteAt_sourceRows_of_le {time : ℤ} (h : floor ≤ time) :
    minuteAt (sourceRows store (some floor) symbol upTo) symbol time =
      minuteAt (sourceRows store none symbol upTo) symbol time := by
  unfold minuteAt sourceRows
  rw [List.find?_filter, List.find?_filter]
  congr 1
  ext minute : 1
  by_cases heq : minute.openTime = time
  · simp [heq, h]
  · simp [heq]

/-- Below the floor no minute is read. -/
theorem minuteAt_sourceRows_of_lt {time : ℤ} (h : time < floor) :
    minuteAt (sourceRows store (some floor) symbol upTo) symbol time = none := by
  unfold minuteAt sourceRows
  rw [List.find?_filter, List.find?_eq_none]
  intro minute _
  by_cases heq : minute.openTime = time
  · simp [heq, h]
  · simp [heq]

/-- A bucket behind the floor holds the same minutes. -/
theorem onMinutes_sourceRows_of_le {time : ℤ} (h : floor ≤ time) :
    OnMinutes (sourceRows store (some floor) symbol upTo) symbol timeframe time ↔
      OnMinutes (sourceRows store none symbol upTo) symbol timeframe time := by
  unfold OnMinutes sourceRows
  refine forall_congr' fun minute => ?_
  simp only [List.mem_filter, decide_eq_true_eq]
  constructor
  · rintro hall ⟨hmem, hsymbol, hminute, -, hupTo⟩ hin
    refine hall ⟨hmem, hsymbol, hminute, ?_, hupTo⟩ hin
    rintro _ ⟨⟩
    exact h.trans hin.2.2.1
  · rintro hall ⟨hmem, hsymbol, hminute, -, hupTo⟩ hin
    exact hall ⟨hmem, hsymbol, hminute, nofun, hupTo⟩ hin

/-- **The floor keeps the buckets behind it and drops the ones before**, also the one it
cuts through. -/
theorem confirmed_since {time : ℤ} :
    confirmedCandle (sourceRows store (some floor) symbol upTo) symbol timeframe time =
      if floor ≤ time then
        confirmedCandle (sourceRows store none symbol upTo) symbol timeframe time
      else none := by
  unfold confirmedCandle
  by_cases hle : floor ≤ time
  · rw [if_pos hle, mapM_option_congr fun t ht =>
      minuteAt_sourceRows_of_le (hle.trans (le_of_mem_bucketTimes ht))]
    simp only [onMinutes_sourceRows_of_le hle]
  · rw [if_neg hle, mapM_eq_none (mem_bucketTimes_self timeframe time)
      (minuteAt_sourceRows_of_lt (not_le.1 hle)), Option.bind_none, ite_self]

theorem mem_candles {bound : Option ℤ} {result : List Candle}
    (h : candles store bound symbol timeframe upTo = .ok result) :
    candle ∈ result ↔
      confirmedCandle (sourceRows store bound symbol upTo) symbol timeframe candle.openTime =
          some candle ∧ candle.closeTime ≤ upTo := mem_resample h

theorem candles_ordered {bound : Option ℤ} {result : List Candle}
    (h : candles store bound symbol timeframe upTo = .ok result) :
    result.Pairwise fun left right => left.openTime < right.openTime := resample_ordered h

/-- The candles of a read are those of its stream. -/
theorem stream_of_mem_candles {bound : Option ℤ} {result : List Candle}
    (h : candles store bound symbol timeframe upTo = .ok result) (hmem : candle ∈ result) :
    candle.symbol = symbol ∧ candle.timeframe = timeframe := by
  obtain ⟨hsymbol, htimeframe, -⟩ := confirmedCandle_eq_some ((mem_candles h).1 hmem).1
  exact ⟨hsymbol, htimeframe⟩

/-- **A read with a floor** is the read without one, from the floor on. -/
theorem candles_since (h : candles store none symbol timeframe upTo = .ok all)
    (h' : candles store (some floor) symbol timeframe upTo = .ok since) :
    since = all.filter fun candle => floor ≤ candle.openTime := by
  have hirrefl : Std.Irrefl fun left right : Candle => left.openTime < right.openTime :=
    ⟨fun candle => lt_irrefl candle.openTime⟩
  refine (candles_ordered h').eq_of_mem_iff ((candles_ordered h).filter _) ?_
  intro candle
  rw [List.mem_filter, mem_candles h, mem_candles h', confirmed_since, decide_eq_true_eq]
  by_cases hle : floor ≤ candle.openTime
  · rw [if_pos hle]
    exact ⟨fun hmem => ⟨hmem, hle⟩, fun hmem => hmem.1⟩
  · rw [if_neg hle]
    constructor
    · rintro ⟨hnone, -⟩
      cases hnone
    · rintro ⟨-, hle'⟩
      exact absurd hle' hle

end Floor

end CandleFeed
end TradingSystem
