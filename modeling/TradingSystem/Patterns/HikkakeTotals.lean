import TradingSystem.Patterns.CandleAverage
import TradingSystem.Patterns.HikkakeHistory

/-!
# How long a moving total remembers

The near average is a total of doubles that every range enters and leaves. Where no sum on the way
rounds, what has left leaves no trace, and the declared history of the patterns suffices. Where one
does, the trace stays for good, and a judge that compares with the average may find it.

* `Unrounded` — ranges whose totals do not round.
* `judgesAlike_of_unrounded` — on such ranges older candles change no judgement.
* `declaredHistory_suffices` — what the declared history of each pattern is enough for.
* `not_same_of_swings` — thirteen candles, of which the last is judged by a trace of the first.
-/

namespace TradingSystem
namespace Patterns

open Streaming Numeric TalibHikkakeState

/-! ### Totals that do not round -/

/-- Ranges that are multiples of one power of two, and below `2 ^ 50` of them: no total of six of
them rounds. -/
def Unrounded (candles : List Candle) : Prop :=
  ∃ e : ℤ, -1074 ≤ e ∧ ∀ candle ∈ candles,
    ∃ n : ℕ, n < 2 ^ 50 ∧ (nearAveraging.range candle).val = n * 2 ^ e

/-- Values on the grid of a power of two, below `2 ^ 50` of its steps. -/
def OnSteps (e : ℤ) (values : List Binary64) : Prop :=
  ∀ value ∈ values, ∃ n : ℕ, n < 2 ^ 50 ∧ value.val = n * 2 ^ e

section Totals

variable {e : ℤ} {values : List Binary64} {target : ℕ}

/-- The values as the exact numbers they are. -/
def exactly (values : List Binary64) : List ℚ := values.map Binary64.val

theorem round_steps (he : -1074 ≤ e) {n : ℤ} (hn : |n| ≤ 2 ^ 53) :
    binary64.round (n * 2 ^ e) = n * 2 ^ e :=
  binary64.round_int_mul he (by exact_mod_cast hn)

/-- A sum of a few values lies on the grid, and is a few times as large. -/
theorem sum_onSteps {window : List Binary64} (h : OnSteps e window) :
    ∃ n : ℕ, n ≤ window.length * 2 ^ 50 ∧ (exactly window).sum = n * 2 ^ e := by
  induction window with
  | nil => exact ⟨0, Nat.zero_le _, by simp [exactly]⟩
  | cons value window ih =>
    obtain ⟨n, hn, hsum⟩ := ih fun other hother => h other (List.mem_cons_of_mem _ hother)
    obtain ⟨m, hm, hvalue⟩ := h value (List.mem_cons_self ..)
    refine ⟨m + n, ?_, ?_⟩
    · rw [List.length_cons, Nat.succ_mul]
      omega
    · rw [exactly, List.map_cons, List.sum_cons, hvalue, ← exactly, hsum]
      push_cast
      ring

/-- The sum of a window. -/
theorem sumBefore_onSteps (h : OnSteps e values) (target : ℕ) :
    ∃ n : ℕ, n ≤ 5 * 2 ^ 50 ∧ sumBefore 5 (exactly values) target = n * 2 ^ e := by
  have hwindow : OnSteps e ((values.take target).drop (target - 5)) := fun value hvalue =>
    h value (List.mem_of_mem_take (List.mem_of_mem_drop hvalue))
  obtain ⟨n, hn, hsum⟩ := sum_onSteps hwindow
  have hlength : ((values.take target).drop (target - 5)).length ≤ 5 := by
    rw [List.length_drop, List.length_take]
    omega
  refine ⟨n, hn.trans (Nat.mul_le_mul_right _ hlength), ?_⟩
  rw [sumBefore, exactly, ← List.map_take, ← List.map_drop]
  exact hsum

/-- **A total that does not round** is the sum of its window. -/
theorem movingTotal_val (he : -1074 ≤ e) (h : OnSteps e values) (htarget : target ≤ values.length) :
    (nearAveraging.movingTotal values target).val = sumBefore 5 (exactly values) target := by
  have hlength : (exactly values).length = values.length := by simp [exactly]
  have hperiod : nearAveraging.avgPeriod ≠ 0 := by decide
  induction target with
  | zero => rw [sumBefore, List.take_zero, List.drop_nil]; rfl
  | succ target ih =>
    have hlt : target < values.length := htarget
    obtain ⟨total, htotal, hsum⟩ := sumBefore_onSteps h (target + 1)
    have hnext := sumBefore_succ 5 (exactly values) (show target < _ by omega)
    have hvalue : (exactly values)[target] = values[target].val := by simp [exactly]
    -- the next sum lies on the grid, so the last addition does not round
    have hexact : binary64.round (sumBefore 5 (exactly values) (target + 1)) =
        sumBefore 5 (exactly values) (target + 1) := by
      rw [hsum]
      exact round_steps he (n := total) (by rw [Nat.abs_cast]; exact_mod_cast by omega)
    rw [Averaging.movingTotal]
    by_cases hfull : 5 ≤ target
    · obtain ⟨m, hm, hadded⟩ := h values[target] (List.getElem_mem hlt)
      obtain ⟨n, hn, hremoved⟩ := h values[target - 5] (List.getElem_mem (by omega))
      -- neither does the difference of the value that enters and the one that leaves
      have hdifference : (values[target].sub values[target - 5]).val =
          values[target].val - values[target - 5].val := by
        have hsteps : values[target].val - values[target - 5].val = ((m - n : ℤ) : ℚ) * 2 ^ e := by
          rw [hadded, hremoved]
          push_cast
          ring
        show binary64.round (values[target].val - values[target - 5].val) = _
        rw [hsteps]
        exact round_steps he (by rw [abs_le]; constructor <;> omega)
      rw [if_pos hfull, List.getD_eq_getElem?_getD, List.getElem?_eq_getElem (by omega),
        Option.getD_some, hvalue, ← ih hlt.le] at hnext
      rw [Averaging.gainAt_full hperiod hlt hfull]
      show binary64.round ((nearAveraging.movingTotal values target).val +
        (values[target].sub values[target - 5]).val) = _
      rw [hdifference]
      have hremovedVal : (exactly values)[target - 5] = values[target - 5].val := by simp [exactly]
      rw [hremovedVal] at hnext
      rw [← hnext, hexact]
    · rw [if_neg hfull, sub_zero, hvalue, ← ih hlt.le] at hnext
      rw [Averaging.gainAt_filling hperiod hlt hfull]
      show binary64.round ((nearAveraging.movingTotal values target).val + values[target].val) = _
      rw [← hnext, hexact]

end Totals

/-- The sum before a place does not read values of more than a period ago. -/
theorem sumBefore_append {older values : List ℚ} {period target : ℕ} (h : period ≤ target) :
    sumBefore period (older ++ values) (older.length + target) =
      sumBefore period values target := by
  rw [sumBefore, sumBefore, List.take_length_add_append, Nat.add_sub_assoc h,
    List.drop_length_add_append]

/-- Neither does a total that does not round. -/
theorem movingTotal_append_of_unrounded {older candles : List Candle} {target : ℕ}
    (h : Unrounded (older ++ candles)) (hfull : 5 ≤ target) (htarget : target ≤ candles.length) :
    nearAveraging.movingTotal ((older ++ candles).map nearAveraging.range)
        (older.length + target) =
      nearAveraging.movingTotal (candles.map nearAveraging.range) target := by
  obtain ⟨e, he, hsteps⟩ := h
  have hwhole : OnSteps e ((older ++ candles).map nearAveraging.range) :=
    List.forall_mem_map.2 hsteps
  have hpart : OnSteps e (candles.map nearAveraging.range) :=
    List.forall_mem_map.2 fun candle hcandle => hsteps candle (List.mem_append_right _ hcandle)
  apply Binary64.ext
  rw [movingTotal_val he hwhole (by simpa using htarget),
    movingTotal_val he hpart (by simpa using htarget), exactly, exactly, List.map_append,
    List.map_append]
  have holder : older.length = ((older.map nearAveraging.range).map Binary64.val).length := by simp
  rw [holder, sumBefore_append hfull]

theorem nearAt_append {older candles : List Candle} (h : Unrounded (older ++ candles))
    (hlt : 7 < candles.length) :
    patHikkakeModified.nearAt (older ++ candles) = patHikkakeModified.nearAt candles := by
  have hlast : (older ++ candles).length - 1 = older.length + (candles.length - 1) := by
    rw [List.length_append]
    omega
  have hoffset : older.length + (candles.length - 1) - nearOffset =
      older.length + (candles.length - 1 - nearOffset) := by
    simp only [nearOffset]
    omega
  have htarget : candles.length - 1 - nearOffset < candles.length := by
    simp only [nearOffset]
    omega
  have htotal := movingTotal_append_of_unrounded h
    (show 5 ≤ candles.length - 1 - nearOffset by simp only [nearOffset]; omega) htarget.le
  have hready : nearAveraging.avgPeriod + nearOffset ≤ candles.length - 1 :=
    show 7 ≤ candles.length - 1 by omega
  show nearAveraging.valueAt nearOffset (older ++ candles) ((older ++ candles).length - 1) =
    nearAveraging.valueAt nearOffset candles (candles.length - 1)
  rw [Averaging.valueAt, Averaging.valueAt, hlast, hoffset, htotal,
    List.getElem?_append_right (by omega), Nat.add_sub_cancel_left, if_pos hready,
    if_pos (by omega)]

/-- **On unrounded ranges** the bars are judged alike. -/
theorem judgesAlike_of_unrounded {older candles : List Candle}
    (h : Unrounded (older ++ candles)) : JudgesAlike patHikkakeModified older candles := by
  intro count hstart hcount
  have hlt : 7 < (candles.take count).length := by
    rw [List.length_take]
    exact lt_min hstart (hstart.trans_le hcount)
  refine judged_append_of_nearAt hlt (nearAt_append ?_ hlt)
  obtain ⟨e, he, hsteps⟩ := h
  -- fewer candles have no other ranges
  refine ⟨e, he, fun candle hcandle => hsteps candle ?_⟩
  rcases List.mem_append.1 hcandle with hcandle | hcandle
  · exact List.mem_append_left _ hcandle
  · exact List.mem_append_right _ (List.mem_of_mem_take hcandle)

/-! ### Candles in tenths -/

/-- Ten and some tenths. -/
def tenths (n : ℕ) : Binary64 := .ofRat (10 + n / 10)

theorem tenths_pos (n : ℕ) : Binary64.zero < tenths n := by
  have hnonneg : (0 : ℚ) ≤ n / 10 := by positivity
  exact Binary64.zero_lt_ofRat (by linarith)

theorem tenths_mono {m n : ℕ} (h : m ≤ n) : tenths m ≤ tenths n := by
  have hcast : (m : ℚ) ≤ n := by exact_mod_cast h
  exact binary64.round_mono (by linarith)

/-- A candle of a minute that opens at its low, closes above it and is higher still. -/
def swing (minute low close high : ℕ) : Candle where
  symbol := "BTCUSDT"
  timeframe := .oneMinute
  openTime := minute * Instant.minute
  closeTime := minute * Instant.minute + Timeframe.oneMinute.duration
  «open» := tenths low
  high := tenths (low + close + high)
  low := tenths low
  close := tenths (low + close)
  closeTime_eq := rfl
  open_pos := tenths_pos _
  low_pos := tenths_pos _
  close_pos := tenths_pos _
  open_le_high := tenths_mono (Nat.le_add_right_of_le (Nat.le_add_right _ _))
  close_le_high := tenths_mono (Nat.le_add_right _ _)
  low_le_open := tenths_mono le_rfl
  low_le_close := tenths_mono (Nat.le_add_right _ _)

/-! ### The declared history -/

/-- What the declared history of a pattern is enough for. Fed with the whole sequence, a state
gives the integers of the batch function, each a signal, a confirmed one or zero; what it reads of
the bars before a pattern is in its buffer. Seeded with the history alone it gives the later bars
the same integers as long as the bars are judged alike, which they are where no near average is
used, or where its totals do not round. -/
structure Suffices (port : HikkakePort) (older history later : List Candle) : Prop where
  whole : ∃ values, IntegersOf port (older ++ history ++ later) values
  inside : ∀ candles state, TalibHikkakeState.seed port candles = .ok state →
    state.Reads candles.length →
      state.candles = candles ∧ 0 < state.patternIdx ∧ state.patternIdx - 1 < candles.length
  same : JudgesAlike port older (history ++ later) →
    ∃ state values integers, TalibHikkakeState.seed port history = .ok state ∧
      state.run port later = .ok (integers.map some) ∧
      IntegersOf port (older ++ history ++ later) values ∧
      values.drop (older ++ history).length = integers
  alike : port.usesNearAverage = false ∨ Unrounded (older ++ history ++ later) →
    JudgesAlike port older (history ++ later)

theorem judgesAlike_of_mem {port : HikkakePort} (hport : port ∈ talibHikkakePatterns)
    {older bars : List Candle} (h : port.usesNearAverage = false ∨ Unrounded (older ++ bars)) :
    JudgesAlike port older bars := by
  rcases List.mem_cons.1 hport with rfl | hport
  · exact judgesAlike_patHikkake older bars
  · rcases List.mem_cons.1 hport with rfl | hport
    · exact judgesAlike_of_unrounded (h.resolve_left (by decide))
    · exact absurd hport List.not_mem_nil

/-- **The declared history suffices**, for each of the two patterns, any older candles, any history
at least as long as declared and any later bars. -/
theorem declaredHistory_suffices {port : HikkakePort} (hport : port ∈ talibHikkakePatterns)
    (older history later : List Candle) (hlength : port.minHistory ≤ history.length) :
    Suffices port older history later where
  whole := ⟨_, integersOf (looksBack_of_mem hport) (older ++ history ++ later)⟩
  inside _ _ := inside_of_reads (looksBack_of_mem hport)
  same := same_integers (looksBack_of_mem hport) older history later hlength
  alike h := judgesAlike_of_mem hport (by rwa [← List.append_assoc])

/-- Eleven candles of one price, between an older one and a later one. -/
theorem declaredHistory_suffices_of_eleven :
    patHikkakeModified ∈ talibHikkakePatterns ∧
      patHikkakeModified.minHistory ≤ (List.replicate 11 (swing 1 0 0 0)).length ∧
      Suffices patHikkakeModified [swing 0 0 0 2] (.replicate 11 (swing 1 0 0 0))
        [swing 12 0 0 0] :=
  ⟨List.mem_cons_of_mem _ (List.mem_cons_self ..), by decide,
    declaredHistory_suffices (List.mem_cons_of_mem _ (List.mem_cons_self ..)) _ _ _ (by decide)⟩

/-! ### Thirteen candles -/

/-- As many candles as the modified pattern asks for. -/
def swings : List Candle :=
  [swing 1 0 0 24, swing 2 0 0 5, swing 3 0 0 9, swing 4 0 0 9, swing 5 0 0 23, swing 6 0 0 10,
    swing 7 0 0 17, swing 8 0 0 3, swing 9 0 0 22, swing 10 1 3 17, swing 11 2 0 18]

theorem eq_ok_of_toOption {α : Type} {result : Except Fault α} {value : α}
    (h : result.toOption = some value) : result = .ok value := by
  cases result with
  | error fault => cases h
  | ok found => exact congrArg Except.ok (Option.some.inj h)

/-- **A trace of an old range.** After a candle between 10 and 29.1 the modified pattern gives the
last of these bars zero; seeded with the history after that candle it gives 100. -/
theorem not_same_of_swings :
    patHikkakeModified.minHistory = swings.length ∧
      (∃ values, computeIntegers patHikkakeModified
          (swing 0 0 0 191 :: swings ++ [swing 12 1 0 18]) = .ok values ∧
        values.drop 12 = [0]) ∧
      ∃ state, TalibHikkakeState.seed patHikkakeModified swings = .ok state ∧
        state.run patHikkakeModified [swing 12 1 0 18] = .ok [some 100] := by
  have hwhole : (computeIntegers patHikkakeModified
      (swing 0 0 0 191 :: swings ++ [swing 12 1 0 18])).toOption = some (List.replicate 13 0) := by
    decide +kernel
  have hpart : ((TalibHikkakeState.seed patHikkakeModified swings).toOption.bind fun state =>
      (state.run patHikkakeModified [swing 12 1 0 18]).toOption) = some [some 100] := by
    decide +kernel
  obtain ⟨state, hseed, hrun⟩ := Option.bind_eq_some_iff.1 hpart
  exact ⟨rfl, ⟨_, eq_ok_of_toOption hwhole, rfl⟩, state, eq_ok_of_toOption hseed,
    eq_ok_of_toOption hrun⟩

end Patterns
end TradingSystem
