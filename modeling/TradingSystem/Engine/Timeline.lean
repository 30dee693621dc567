import TradingSystem.Engine.Run

/-!
# The timeline of a run

The instants of a run: candles of the history last one timeframe each and start on whole
milliseconds, the bars of the evaluation follow each other in the history, and the next
bar of the history is, when it is contiguous, the next bar of the evaluation.
-/

namespace TradingSystem

open Numeric Logic

/-! ### Whole milliseconds -/

theorem WholeMillisecond.add {s t : ℤ} (hs : WholeMillisecond s) (ht : WholeMillisecond t) :
    WholeMillisecond (s + t) := by
  unfold WholeMillisecond at *
  simp only [Instant.millisecond] at *
  omega

theorem wholeMillisecond_millisecond : WholeMillisecond Instant.millisecond :=
  Int.emod_self

theorem wholeMillisecond_duration (timeframe : Timeframe) :
    WholeMillisecond timeframe.duration := by
  unfold WholeMillisecond Timeframe.duration TimeframeUnit.duration
  cases timeframe.unit <;>
    simp only [Instant.minute, Instant.hour, Instant.day, Instant.second, Instant.millisecond] <;>
    omega

/-- A later whole millisecond is at least one millisecond later. -/
theorem WholeMillisecond.add_le {s t : ℤ} (hs : WholeMillisecond s) (ht : WholeMillisecond t)
    (h : s < t) : s + Instant.millisecond ≤ t := by
  unfold WholeMillisecond at *
  simp only [Instant.millisecond] at *
  omega

/-- Recorded milliseconds tell whole milliseconds apart. -/
theorem WholeMillisecond.wholeMilliseconds_lt {s t : ℤ} (hs : WholeMillisecond s)
    (ht : WholeMillisecond t) (h : s < t) : wholeMilliseconds s < wholeMilliseconds t := by
  have hs' := wholeMilliseconds_mul hs
  have ht' := wholeMilliseconds_mul ht
  simp only [Instant.millisecond] at hs' ht'
  omega

theorem wholeMillisecond_of_isBoundary {t : ℤ} (h : isBoundary t = true) : WholeMillisecond t := by
  rw [isBoundary_iff] at h
  simp only [Instant.hour, Instant.minute, Instant.second] at h
  unfold WholeMillisecond
  simp only [Instant.millisecond]
  omega

namespace Engine

variable {input : RunInput} {candle next : Candle} {rest : List Candle}

/-! ### Candles of the history -/

theorem history_closeTime (h : candle ∈ input.history) :
    candle.closeTime = candle.openTime + input.config.timeframe.duration := by
  rw [candle.closeTime_eq, (input.history_symbol candle h).2]

theorem wholeMillisecond_closeTime (h : candle ∈ input.history) :
    WholeMillisecond candle.closeTime := by
  rw [history_closeTime h]
  exact (input.history_milliseconds candle h).add (wholeMillisecond_duration _)

theorem mem_evaluation : candle ∈ input.evaluation ↔
    candle ∈ input.history ∧ input.config.start ≤ candle.openTime ∧
      candle.closeTime ≤ input.config.stop := by
  unfold RunInput.evaluation
  rw [List.mem_filter, decide_eq_true_eq]

theorem evaluation_increasing : Increasing input.evaluation :=
  input.history_increasing.filter _

/-! ### The next bar -/

/-- A contiguous next bar is the earliest candle of the history after this one. -/
theorem nextBar_contiguous (h : nextBar input candle = .ok (.contiguous next)) :
    candle ∈ input.history ∧ next ∈ input.history ∧ next.openTime = candle.closeTime ∧
      ∀ other ∈ input.history, candle.openTime < other.openTime →
        next.openTime ≤ other.openTime := by
  unfold nextBar nextCandle at h
  rw [Except.bind_eq_ok] at h
  obtain ⟨successor, hsuccessor, h⟩ := h
  -- the successor is read behind the candle in the history
  have hsplit := List.takeWhile_append_dropWhile (p := fun other => decide (other ≠ candle))
    (l := input.history)
  cases hdrop : input.history.dropWhile fun other => decide (other ≠ candle) with
  | nil =>
    rw [hdrop] at hsuccessor
    cases hsuccessor
  | cons head tail =>
    rw [hdrop] at hsuccessor hsplit
    cases hsuccessor
    have hhead : head = candle := by
      have hne := List.head?_dropWhile_not (fun other => decide (other ≠ candle)) input.history
      rw [hdrop] at hne
      simpa using hne
    subst hhead
    cases tail with
    | nil => cases h
    | cons follower post =>
      simp only [List.head?_cons] at h
      by_cases hopen : follower.openTime = head.closeTime
      · rw [if_pos hopen] at h
        cases h
        -- the history is increasing on both sides of the candle
        have hincreasing := input.history_increasing
        rw [← hsplit]
        rw [← hsplit] at hincreasing
        unfold Increasing at hincreasing
        rw [List.pairwise_append] at hincreasing
        obtain ⟨-, hsuffix, hcross⟩ := hincreasing
        refine ⟨by simp, by simp, hopen, ?_⟩
        intro other hother hafter
        rw [List.mem_append] at hother
        rcases hother with hother | hother
        · -- what comes before this candle opens before it
          have := hcross other hother head (List.mem_cons_self ..)
          omega
        · rw [List.pairwise_cons, List.pairwise_cons] at hsuffix
          rcases List.mem_cons.1 hother with rfl | hother
          · omega
          rcases List.mem_cons.1 hother with rfl | hother
          · exact le_rfl
          · exact (hsuffix.2.1 other hother).le
      · rw [if_neg hopen] at h
        cases h

/-! ### Bars of the evaluation -/

/-- The candle of a bar and those after it are the rest of the evaluation. -/
def OnEvaluation (input : RunInput) (bar : Bar) : Prop :=
  bar.candle :: bar.rest <:+ input.evaluation

variable {bar : Bar}

theorem OnEvaluation.mem (h : OnEvaluation input bar) : bar.candle ∈ input.evaluation :=
  h.subset (List.mem_cons_self ..)

theorem OnEvaluation.mem_history (h : OnEvaluation input bar) : bar.candle ∈ input.history :=
  (mem_evaluation.1 h.mem).1

theorem OnEvaluation.tail {index : ℕ} (h : OnEvaluation input ⟨index, candle, next :: rest⟩) :
    OnEvaluation input ⟨index + 1, next, rest⟩ :=
  (List.suffix_cons candle (next :: rest)).trans h

/-- The bars of the evaluation follow each other. -/
theorem OnEvaluation.openTime_lt {index : ℕ}
    (h : OnEvaluation input ⟨index, candle, next :: rest⟩) : candle.openTime < next.openTime := by
  have hevaluation : Increasing input.evaluation := evaluation_increasing
  have hincreasing := hevaluation.sublist h.sublist
  rw [List.pairwise_cons] at hincreasing
  exact hincreasing.1 next (List.mem_cons_self ..)

/-- **The next bar.** When the history continues without a gap, so does the evaluation. -/
theorem OnEvaluation.contiguous {index : ℕ} {follower : Candle}
    (h : OnEvaluation input ⟨index, candle, next :: rest⟩)
    (hfollower : nextBar input candle = .ok (.contiguous follower)) :
    next.openTime = candle.closeTime := by
  obtain ⟨hcandle, hmem, hopen, hfirst⟩ := nextBar_contiguous hfollower
  have hlt := h.openTime_lt
  have hnext : next ∈ input.history ∧ input.config.start ≤ next.openTime ∧
      next.closeTime ≤ input.config.stop := mem_evaluation.1 h.tail.mem
  have hle := hfirst next hnext.1 hlt
  -- the follower lies between two candles of the evaluation, so it is one of them
  have hfollowerMem : follower ∈ input.evaluation := by
    rw [mem_evaluation]
    have hstart : input.config.start ≤ candle.openTime := (mem_evaluation.1 h.mem).2.1
    have hclose := candle.openTime_lt_closeTime
    have hstop := hnext.2.2
    rw [history_closeTime hnext.1] at hstop
    refine ⟨hmem, by omega, ?_⟩
    rw [history_closeTime hmem]
    omega
  have hge : next.openTime ≤ follower.openTime := by
    obtain ⟨before, hbefore⟩ := h
    simp only at hbefore
    have hincreasing : Increasing input.evaluation := evaluation_increasing
    rw [← hbefore] at hfollowerMem hincreasing
    unfold Increasing at hincreasing
    rw [List.pairwise_append, List.pairwise_cons, List.pairwise_cons] at hincreasing
    obtain ⟨-, ⟨-, htail, -⟩, hcross⟩ := hincreasing
    have hclose := candle.openTime_lt_closeTime
    rw [List.mem_append] at hfollowerMem
    rcases hfollowerMem with hmem | hmem
    · have := hcross follower hmem candle (List.mem_cons_self ..)
      omega
    rcases List.mem_cons.1 hmem with rfl | hmem
    · omega
    rcases List.mem_cons.1 hmem with rfl | hmem
    · exact le_rfl
    · exact (htail follower hmem).le
  omega

end Engine
end TradingSystem
