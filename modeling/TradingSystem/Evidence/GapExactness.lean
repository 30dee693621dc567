import TradingSystem.Evidence.GapContract

/-!
# What a gap contract says of its snapshot

A contract that is built from a snapshot lists, in their order, exactly the closes of the grid
without a candle. Together with the candles they fill the range, a close is a partial bucket
exactly when some but not all of its minutes are missing, and the evaluation list is what of
them lies in the evaluation range.

* `gathered_of_gatherCloseTimes` — what the loop over the candles lets pass.
* `Gathered.length_add` — the gathered closes and the omitted ones are the grid.
* `missing_of_classify` — no omitted bucket has all its minutes.
* `exact_of_build` — the contract as a whole.
-/

namespace TradingSystem
namespace OhlcvGaps

open Numeric Data Logic

/-! ### The grid -/

/-- A close of the grid of a range: after the start, up to the end, and whole candles after the
start. -/
def IsGridClose (rangeStart rangeEnd duration closeTime : ℤ) : Prop :=
  (rangeStart < closeTime ∧ closeTime ≤ rangeEnd) ∧ (closeTime - rangeStart) % duration = 0

/-- The closes of the grid, as the source enumerates them. -/
def gridCloses (rangeStart rangeEnd duration : ℤ) : List ℤ :=
  rangeStep (rangeStart + duration) (rangeEnd + 1) duration

section Grid

variable {rangeStart rangeEnd duration closeTime : ℤ}

theorem gridCloses_eq :
    gridCloses rangeStart rangeEnd duration =
      (List.range ((rangeEnd - rangeStart) / duration).toNat).map
        fun index : ℕ => rangeStart + (index + 1) * duration := by
  -- the end is counted in, and a candle after the start is the first
  have hsteps : (rangeEnd + 1 - (rangeStart + duration) + duration - 1) / duration =
      (rangeEnd - rangeStart) / duration := by
    congr 1
    ring
  unfold gridCloses rangeStep
  rw [hsteps]
  refine List.map_congr_left fun index _ => ?_
  ring

theorem mem_gridCloses (hpos : 0 < duration) (hdvd : (rangeEnd - rangeStart) % duration = 0) :
    closeTime ∈ gridCloses rangeStart rangeEnd duration ↔
      IsGridClose rangeStart rangeEnd duration closeTime := by
  obtain ⟨count, hcount⟩ := Int.dvd_of_emod_eq_zero hdvd
  rw [gridCloses_eq, List.mem_map]
  constructor
  · rintro ⟨index, hindex, rfl⟩
    have hlt : (index : ℤ) < (rangeEnd - rangeStart) / duration := by
      have := List.mem_range.1 hindex
      omega
    rw [hcount, Int.mul_ediv_cancel_left _ hpos.ne'] at hlt
    have hfirst : 0 < ((index : ℤ) + 1) * duration := mul_pos (by omega) hpos
    have hlast : ((index : ℤ) + 1) * duration ≤ count * duration :=
      mul_le_mul_of_nonneg_right hlt hpos.le
    -- the last step of the grid is the end of the range
    have hend : rangeEnd = rangeStart + count * duration := by
      rw [mul_comm count, ← hcount]
      ring
    refine ⟨⟨by omega, by omega⟩, ?_⟩
    rw [add_sub_cancel_left]
    exact Int.mul_emod_left _ _
  · rintro ⟨⟨hafter, hbefore⟩, halign⟩
    obtain ⟨steps, hsteps⟩ := Int.dvd_of_emod_eq_zero halign
    -- a close lies a whole number of steps behind the start
    have hsteps_pos : 0 < steps := by
      have : 0 < duration * steps := by omega
      exact pos_of_mul_pos_right this hpos.le
    have hsteps_le : steps ≤ count := by
      have hmul : duration * steps ≤ duration * count := by omega
      exact le_of_mul_le_mul_left hmul hpos
    refine ⟨(steps - 1).toNat, ?_, ?_⟩
    · rw [List.mem_range, hcount, Int.mul_ediv_cancel_left _ hpos.ne']
      omega
    · have hcast : (((steps - 1).toNat : ℤ) + 1) = steps := by omega
      rw [hcast, mul_comm, ← hsteps]
      ring

theorem length_gridCloses :
    (gridCloses rangeStart rangeEnd duration).length =
      ((rangeEnd - rangeStart) / duration).toNat := by
  rw [gridCloses_eq, List.length_map, List.length_range]

end Grid

/-! ### The candles of the snapshot -/

/-- The close of a candle on the clock of the contract. -/
def closeMilliseconds (candle : Candle) : ℤ := epochMilliseconds candle.closeTime

/-- **What the loop over the candles lets pass**: the closes are those of the candles, each on
the grid, and none twice. -/
structure Gathered (timeframe : Timeframe) (rangeStart rangeEnd : ℤ) (candles : List Candle)
    (actual : List ℤ) : Prop where
  length_eq : actual.length = candles.length
  mem_iff : ∀ closeTime, closeTime ∈ actual ↔
    ∃ candle ∈ candles, closeMilliseconds candle = closeTime
  onGrid : ∀ closeTime ∈ actual,
    IsGridClose rangeStart rangeEnd (timeframeMilliseconds timeframe) closeTime
  nodup : actual.Nodup

section Gather

variable {timeframe : Timeframe} {rangeStart rangeEnd : ℤ} {candles : List Candle}
  {actual : List ℤ}

theorem gathered_of_gatherCloseTimes_append {seen : List Candle} {gathered : List ℤ}
    (hseen : Gathered timeframe rangeStart rangeEnd seen gathered)
    (h : gatherCloseTimes timeframe rangeStart rangeEnd candles gathered = .ok actual) :
    Gathered timeframe rangeStart rangeEnd (seen ++ candles) actual := by
  induction candles generalizing seen gathered with
  | nil =>
    cases h
    rw [List.append_nil]
    exact hseen
  | cons candle candles ih =>
    rw [gatherCloseTimes] at h
    simp only [Except.bind_eq_ok, require_eq_ok] at h
    obtain ⟨-, -, -, hrange, -, halign, -, hfresh, h⟩ := h
    -- the candle joins those seen
    rw [List.append_cons]
    have hnext : Gathered timeframe rangeStart rangeEnd (seen ++ [candle])
        (epochMilliseconds candle.closeTime :: gathered) := by
      refine ⟨?_, fun closeTime => ?_, ?_, List.nodup_cons.2 ⟨hfresh, hseen.nodup⟩⟩
      · rw [List.length_cons, List.length_append, hseen.length_eq]
        rfl
      · rw [List.mem_cons, hseen.mem_iff, or_comm, eq_comm]
        simp only [List.mem_append, List.mem_singleton, or_and_right, exists_or, exists_eq_left]
        rfl
      · exact List.forall_mem_cons.2 ⟨⟨hrange, halign⟩, hseen.onGrid⟩
    exact ih hnext h

theorem gathered_of_gatherCloseTimes
    (h : gatherCloseTimes timeframe rangeStart rangeEnd candles [] = .ok actual) :
    Gathered timeframe rangeStart rangeEnd candles actual := by
  have hnone : Gathered timeframe rangeStart rangeEnd [] [] :=
    ⟨rfl, fun closeTime => by simp, fun _ hmem => absurd hmem List.not_mem_nil, List.nodup_nil⟩
  exact gathered_of_gatherCloseTimes_append hnone h

/-- The candles and the omitted closes are together as many as the closes of the grid. -/
theorem Gathered.length_add (h : Gathered timeframe rangeStart rangeEnd candles actual)
    (hdvd : (rangeEnd - rangeStart) % timeframeMilliseconds timeframe = 0) :
    candles.length + ((gridCloses rangeStart rangeEnd (timeframeMilliseconds timeframe)).filter
      (· ∉ actual)).length =
        (gridCloses rangeStart rangeEnd (timeframeMilliseconds timeframe)).length := by
  have hpos := timeframeMilliseconds_pos timeframe
  have hgrid : (gridCloses rangeStart rangeEnd (timeframeMilliseconds timeframe)).Nodup :=
    (rangeStep_increasing hpos).imp ne_of_lt
  -- the closes of the candles are the closes of the grid that are not omitted
  have hpresent : actual.Perm ((gridCloses rangeStart rangeEnd
      (timeframeMilliseconds timeframe)).filter (· ∈ actual)) := by
    refine (List.perm_ext_iff_of_nodup h.nodup (hgrid.filter _)).2 fun closeTime => ?_
    rw [List.mem_filter, decide_eq_true_iff, mem_gridCloses hpos hdvd]
    exact ⟨fun hmem => ⟨h.onGrid closeTime hmem, hmem⟩, And.right⟩
  have hsplit := List.length_eq_length_filter_add (l := gridCloses rangeStart rangeEnd
    (timeframeMilliseconds timeframe)) (fun closeTime => decide (closeTime ∈ actual))
  rw [← h.length_eq, hpresent.length_eq, hsplit]
  -- what is not present is omitted
  congr 2
  refine List.filter_congr fun closeTime _ => ?_
  rw [decide_not]

end Gather

/-! ### The minutes of a bucket -/

/-- A minute of the bucket that closes at an instant, by its own close. -/
def IsMinuteOf (duration closeTime minute : ℤ) : Prop :=
  IsGridClose (closeTime - duration) closeTime minuteMilliseconds minute

section Minutes

variable {minuteGaps : List ℤ} {duration closeTime : ℤ}

theorem missingMinutes_eq :
    missingMinutes minuteGaps duration closeTime =
      ((gridCloses (closeTime - duration) closeTime minuteMilliseconds).filter
        (· ∈ minuteGaps)).length := by
  have hspan : closeTime - (closeTime - duration) = duration := by ring
  unfold missingMinutes
  rw [gridCloses_eq, hspan, List.filter_map, List.length_map,
    ← List.countP_eq_length_filter, bind_pure_comp, List.map_eq_map, List.countP_map]
  rfl

/-- All minutes are missing exactly when the count says so. -/
theorem missingMinutes_eq_all (hpos : 0 < duration) (hdvd : duration % minuteMilliseconds = 0) :
    (missingMinutes minuteGaps duration closeTime : ℤ) = duration / minuteMilliseconds ↔
      ∀ minute, IsMinuteOf duration closeTime minute → minute ∈ minuteGaps := by
  have hspan : closeTime - (closeTime - duration) = duration := by ring
  have hlength := @length_gridCloses (closeTime - duration) closeTime minuteMilliseconds
  rw [hspan] at hlength
  have hnonneg : 0 ≤ duration / minuteMilliseconds := Int.ediv_nonneg hpos.le (by decide)
  have hcount : duration / minuteMilliseconds =
      (gridCloses (closeTime - duration) closeTime minuteMilliseconds).length := by
    rw [hlength, Int.toNat_of_nonneg hnonneg]
  rw [hcount, Nat.cast_inj, missingMinutes_eq, List.length_filter_eq_length_iff]
  refine forall_congr' fun minute => ?_
  rw [mem_gridCloses (by decide) (by rwa [hspan]), decide_eq_true_iff]
  rfl

/-- No minute is missing exactly when the count is zero. -/
theorem missingMinutes_ne_zero (hdvd : duration % minuteMilliseconds = 0) :
    missingMinutes minuteGaps duration closeTime ≠ 0 ↔
      ∃ minute, IsMinuteOf duration closeTime minute ∧ minute ∈ minuteGaps := by
  have hspan : closeTime - (closeTime - duration) = duration := by ring
  rw [missingMinutes_eq, ← Nat.pos_iff_ne_zero, List.length_pos_iff_exists_mem]
  refine exists_congr fun minute => ?_
  rw [List.mem_filter, mem_gridCloses (by decide) (by rwa [hspan]), decide_eq_true_iff]
  rfl

end Minutes

/-- Every omitted bucket lacks a minute. -/
theorem missing_of_classify {minuteGaps : List ℤ} {duration : ℤ} {omitted : List ℤ} :
    ∀ {normal partials}, classify minuteGaps duration omitted = .ok (normal, partials) →
      ∀ closeTime ∈ omitted, missingMinutes minuteGaps duration closeTime =
        duration / minuteMilliseconds ∨ missingMinutes minuteGaps duration closeTime ≠ 0 := by
  induction omitted with
  | nil => exact fun _ _ hmem => absurd hmem List.not_mem_nil
  | cons closeTime omitted ih =>
    intro normal partials h
    rw [classify] at h
    simp only [Except.bind_eq_ok, require_eq_ok] at h
    obtain ⟨-, hmissing, classified, hrest, -⟩ := h
    exact List.forall_mem_cons.2 ⟨hmissing, ih hrest⟩

/-! ### The two kinds of gaps -/

section Classified

variable {minuteGapCloseTimes : Option (List ℤ)} {duration closeTime : ℤ}
  {omitted normal partials : List ℤ}

/-- A gap is of one of the two kinds. -/
theorem mem_classified_iff
    (h : classifyOmitted minuteGapCloseTimes duration omitted = .ok (normal, partials)) :
    closeTime ∈ normal ∨ closeTime ∈ partials ↔ closeTime ∈ omitted := by
  obtain ⟨hnormal, hpartials, -, hcovers⟩ := split_of_classifyOmitted h
  refine ⟨?_, hcovers closeTime⟩
  rintro (hmem | hmem)
  · exact hnormal.subset hmem
  · exact hpartials.subset hmem

/-- Together the two kinds are the omitted closes, each once. -/
theorem perm_of_classifyOmitted
    (h : classifyOmitted minuteGapCloseTimes duration omitted = .ok (normal, partials))
    (hnodup : omitted.Nodup) : (normal ++ partials).Perm omitted := by
  obtain ⟨hnormal, hpartials, hdisjoint, -⟩ := split_of_classifyOmitted h
  refine (List.perm_ext_iff_of_nodup ?_ hnodup).2 fun closeTime => ?_
  · exact List.nodup_append'.2 ⟨hnormal.nodup hnodup, hpartials.nodup hnodup,
      fun closeTime hmem hmem' => hdisjoint closeTime hmem hmem'⟩
  · rw [List.mem_append, mem_classified_iff h]

/-- The two kinds of gaps, when the candles are minutes: a missing minute has no minute. -/
theorem partial_iff_of_minutes {omitted : List ℤ} {closeTime : ℤ} (hmem : closeTime ∈ omitted) :
    closeTime ∈ ([] : List ℤ) ↔
      (∃ minute, IsMinuteOf minuteMilliseconds closeTime minute ∧ minute ∉ omitted) ∧
      ∃ minute, IsMinuteOf minuteMilliseconds closeTime minute ∧ minute ∈ omitted := by
  refine ⟨fun hnil => absurd hnil List.not_mem_nil, ?_⟩
  rintro ⟨⟨minute, ⟨⟨hafter, hbefore⟩, halign⟩, hexists⟩, -⟩
  -- the bucket has one minute, which is the bucket
  have hminute : minute = closeTime := by
    unfold minuteMilliseconds at hafter halign
    omega
  rw [hminute] at hexists
  exact absurd hmem hexists

/-- The two kinds, when the candles are longer: a bucket is partial exactly when some but not all
of its minutes are missing. -/
theorem partial_iff_of_classify {minuteGaps : List ℤ} (hpos : 0 < duration)
    (hminutes : duration % minuteMilliseconds = 0)
    (h : classify minuteGaps duration omitted = .ok (normal, partials))
    (hcovers : ∀ closeTime ∈ omitted, closeTime ∈ normal ∨ closeTime ∈ partials)
    (hmem : closeTime ∈ omitted) :
    closeTime ∈ partials ↔
      (∃ minute, IsMinuteOf duration closeTime minute ∧ minute ∉ minuteGaps) ∧
      ∃ minute, IsMinuteOf duration closeTime minute ∧ minute ∈ minuteGaps := by
  have hclassified := classified_of_classify h
  have hall := @missingMinutes_eq_all minuteGaps _ closeTime hpos hminutes
  have hsome := @missingMinutes_ne_zero minuteGaps _ closeTime hminutes
  constructor
  · -- a partial bucket lacks some minute, but not all
    intro hpartial
    have hnotAll := hclassified.partials_missing closeTime hpartial
    have hmissing := (missing_of_classify h closeTime hmem).resolve_left hnotAll
    rw [Ne, hall, not_forall] at hnotAll
    obtain ⟨minute, hminuteOf⟩ := hnotAll
    rw [Classical.not_imp] at hminuteOf
    exact ⟨⟨minute, hminuteOf⟩, hsome.1 hmissing⟩
  · -- a normal gap would lack every minute
    rintro ⟨⟨minute, hminuteOf, hexists⟩, -⟩
    refine (hcovers closeTime hmem).resolve_left fun hnormal => hexists ?_
    exact hall.1 (hclassified.normal_missing closeTime hnormal) minute hminuteOf

end Classified

/-! ### The contract -/

section Exact

variable {candles : List Candle} {timeframe : Timeframe}
  {rangeStart rangeEnd evaluationStart evaluationEnd : ℤ} {minuteGapCloseTimes : Option (List ℤ)}
  {originValidationStatus : String} {originMinuteRowCount : ℤ} {originTimestampHash : String}
  {contract : OhlcvGapContract}

/-- A close at which the contract reports a gap. -/
def OhlcvGapContract.IsGap (contract : OhlcvGapContract) (closeTime : ℤ) : Prop :=
  closeTime ∈ contract.normalGapCloseTimes ∨ closeTime ∈ contract.partialBucketCloseTimes

/-- The minutes that are missing: those of the minute contract, or the gaps themselves where
the candles are minutes. -/
def OhlcvGapContract.minuteGaps (contract : OhlcvGapContract)
    (minuteGapCloseTimes : Option (List ℤ)) : List ℤ :=
  if contract.timeframeMs = minuteMilliseconds then contract.normalGapCloseTimes
  else minuteGapCloseTimes.getD []

/-- **A contract describes exactly the missing candles** of its snapshot. Instants are on the
clock of the contract. -/
structure Exact (candles : List Candle) (rangeStart rangeEnd evaluationStart evaluationEnd : ℤ)
    (minuteGapCloseTimes : Option (List ℤ)) (contract : OhlcvGapContract) : Prop where
  /-- each list of gaps is ordered, and no gap is of both kinds -/
  normal_increasing : contract.normalGapCloseTimes.Pairwise (· < ·)
  partial_increasing : contract.partialBucketCloseTimes.Pairwise (· < ·)
  disjoint : ∀ closeTime ∈ contract.normalGapCloseTimes,
    closeTime ∉ contract.partialBucketCloseTimes
  /-- the gaps are the closes of the grid at which no candle closes -/
  covers : ∀ closeTime, contract.IsGap closeTime ↔
    IsGridClose rangeStart rangeEnd contract.timeframeMs closeTime ∧
      ∀ candle ∈ candles, closeMilliseconds candle ≠ closeTime
  /-- candles and gaps fill the range -/
  count : (candles.length : ℤ) + (contract.normalGapCloseTimes.length +
    contract.partialBucketCloseTimes.length) = (rangeEnd - rangeStart) / contract.timeframeMs
  /-- a gap is a partial bucket exactly when some but not all of its minutes exist -/
  partial_iff : ∀ closeTime, contract.IsGap closeTime →
    (closeTime ∈ contract.partialBucketCloseTimes ↔
      (∃ minute, IsMinuteOf contract.timeframeMs closeTime minute ∧
        minute ∉ contract.minuteGaps minuteGapCloseTimes) ∧
      ∃ minute, IsMinuteOf contract.timeframeMs closeTime minute ∧
        minute ∈ contract.minuteGaps minuteGapCloseTimes)
  /-- the evaluation list is the gaps of the evaluation range, in order -/
  evaluation_increasing : contract.evaluationGridGapCloseTimes.Pairwise (· < ·)
  evaluation_iff : ∀ closeTime, closeTime ∈ contract.evaluationGridGapCloseTimes ↔
    contract.IsGap closeTime ∧ evaluationStart < closeTime ∧ closeTime ≤ evaluationEnd

/-- **Every contract that is built is exact**: its two kinds of gaps are the closes of the grid
without a candle, a gap is partial exactly when some but not all of its minutes exist, and the
gaps of the evaluation are those within it. -/
theorem exact_of_build
    (h : buildOhlcvGapContract candles timeframe rangeStart rangeEnd evaluationStart evaluationEnd
      minuteGapCloseTimes originValidationStatus originMinuteRowCount originTimestampHash =
        .ok contract) :
    Exact candles (epochMilliseconds rangeStart) (epochMilliseconds rangeEnd)
      (epochMilliseconds evaluationStart) (epochMilliseconds evaluationEnd) minuteGapCloseTimes
      contract := by
  have hwellFormed := wellFormed_of_build h
  simp only [buildOhlcvGapContract, requireAligned, Except.bind_eq_ok, require_eq_ok] at h
  obtain ⟨-, ⟨hspan, hdvd⟩, -, -, -, -, -, -, -, -, -, -, actual, hgather, ⟨normal, partials⟩,
    hclassify, h⟩ := h
  cases h
  have hpos := timeframeMilliseconds_pos timeframe
  have hminutes := timeframeMilliseconds_emod timeframe
  have hgathered := gathered_of_gatherCloseTimes hgather
  change classifyOmitted minuteGapCloseTimes (timeframeMilliseconds timeframe)
    ((gridCloses (epochMilliseconds rangeStart) (epochMilliseconds rangeEnd)
      (timeframeMilliseconds timeframe)).filter (· ∉ actual)) = _ at hclassify
  have homitted : ∀ closeTime, closeTime ∈ normal ∨ closeTime ∈ partials ↔ _ :=
    fun _ => mem_classified_iff hclassify
  -- the order and the disjointness are those of every well-formed contract
  refine {
    normal_increasing := hwellFormed.normal_increasing
    partial_increasing := hwellFormed.partial_increasing
    disjoint := hwellFormed.disjoint
    covers := ?_
    count := ?_
    partial_iff := ?_
    evaluation_increasing := hwellFormed.evaluation_increasing
    evaluation_iff := ?_ }
  · intro closeTime
    unfold OhlcvGapContract.IsGap
    rw [homitted, List.mem_filter, mem_gridCloses hpos hdvd, decide_eq_true_iff,
      hgathered.mem_iff, not_exists]
    refine and_congr_right fun _ => forall_congr' fun candle => ?_
    rw [not_and]
  · -- the gaps are as many as the omitted closes
    have hgrid : (gridCloses (epochMilliseconds rangeStart) (epochMilliseconds rangeEnd)
        (timeframeMilliseconds timeframe)).Nodup := (rangeStep_increasing hpos).imp ne_of_lt
    have hperm := perm_of_classifyOmitted hclassify (hgrid.filter _)
    have hlength := hgathered.length_add hdvd
    rw [← hperm.length_eq, List.length_append, length_gridCloses] at hlength
    have hnonneg := Int.ediv_nonneg hspan.le hpos.le
    change (candles.length : ℤ) + (normal.length + partials.length) =
      (epochMilliseconds rangeEnd - epochMilliseconds rangeStart) / timeframeMilliseconds timeframe
    omega
  · intro closeTime hgap
    have hmem := (homitted closeTime).1 hgap
    have hcovers := fun closeTime => (homitted closeTime).2
    unfold OhlcvGapContract.minuteGaps
    unfold classifyOmitted at hclassify
    dsimp only
    by_cases hminute : timeframeMilliseconds timeframe = minuteMilliseconds
    · -- minutes are not classified
      rw [if_pos hminute] at hclassify ⊢
      cases hclassify
      rw [hminute] at hmem ⊢
      exact partial_iff_of_minutes hmem
    · rw [if_neg hminute] at hclassify ⊢
      cases minuteGapCloseTimes with
      | none => cases hclassify
      | some minuteGaps => exact partial_iff_of_classify hpos hminutes hclassify hcovers hmem
  · intro closeTime
    unfold OhlcvGapContract.IsGap
    rw [homitted]
    -- the evaluation gaps are filtered out of the same two lists
    change closeTime ∈ List.filter _ (List.filter _ _) ↔ _
    rw [List.mem_filter, decide_eq_true_iff]
    rfl

/-- The snapshot of four hours. -/
theorem exact_of_four_hours :
    Exact [thirdHour] (epochMilliseconds 0) (epochMilliseconds (4 * Instant.hour))
      (epochMilliseconds 0) (epochMilliseconds (4 * Instant.hour)) (some missingCloseTimes)
      fourHours :=
  exact_of_build build_fourHours

end Exact

end OhlcvGaps
end TradingSystem
