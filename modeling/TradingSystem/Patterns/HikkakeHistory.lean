import TradingSystem.Patterns.Hikkake

/-!
# What the Hikkake patterns remember

The history declared for a pattern must outlast every memory of what came before it. A judge
looks back over no more bars than pass before it first judges, and a remembered pattern is
confirmed within three bars; the declared history is both together. What it does not outlast is
the near average: its moving total carries the rounding of every range it was ever given.

* `remember`, `recollect` — one bar without the buffers, over the candles so far.
* `Forgets`, `Forgets.step` — what two runs have in common when one of them began later.
* `updateInteger_recalling` — the state with its buffers takes the same steps.
* `JudgesAlike` — the bars are judged as with the older candles before them.
* `integersOf` — the batch and the streamed integers agree, and are signals or confirmed ones.
* `same_integers` — from its declared history on a state gives the integers of the whole sequence,
  as long as the bars are judged alike.
* `inside_of_reads` — the bar before a remembered pattern is in the buffer.
-/

namespace TradingSystem
namespace Patterns

open Streaming Numeric

/-! ### The memory without the buffers -/

/-- The remembered pattern: the bar it was found at, and its sign. -/
structure HikkakeMemory where
  idx : ℕ
  result : ℤ

namespace HikkakePort

variable (port : HikkakePort)

/-- The near average at the last of some candles. -/
def nearAt (candles : List Candle) : Option Binary64 :=
  if port.usesNearAverage then
    TalibHikkakeState.nearAveraging.valueAt TalibHikkakeState.nearOffset candles
      (candles.length - 1)
  else none

/-- What the judge says of the last of some candles. -/
def judged (candles : List Candle) : Except Fault ℤ :=
  port.judge candles ((candles.length - 1 : ℕ) : ℤ) (port.nearAt candles)

/-- The judgement, where there is one. -/
def judgement (candles : List Candle) : ℤ := (port.judged candles).toOption.getD 0

end HikkakePort

/-- Whether the last candle confirms what is remembered. -/
def HikkakeMemory.confirmedBy (memory : HikkakeMemory) (candles : List Candle) : Bool :=
  match candles[memory.idx - 1]?, candles.getLast? with
  | some before, some current =>
    decide (candles.length - 1 ≤ memory.idx + confirmationBars ∧
      (0 < memory.result ∧ before.high < current.close ∨
        memory.result < 0 ∧ current.close < before.low))
  | _, _ => false

/-- What a pattern's confirmation gives. -/
def confirmed (result : ℤ) : ℤ := result + matchMagnitude * (if 0 < result then 1 else -1)

/-- One bar, over the candles up to it: the memory after it and its integer. -/
def remember (port : HikkakePort) (candles : List Candle) (memory : HikkakeMemory) :
    HikkakeMemory × ℤ :=
  if port.transitionStart < candles.length then
    if port.judgement candles ≠ 0 then
      (⟨candles.length - 1, port.judgement candles⟩, port.judgement candles)
    else if memory.confirmedBy candles then (⟨0, memory.result⟩, confirmed memory.result)
    else (memory, 0)
  else (memory, 0)

/-- One bar, over the candles before it. -/
def recollect (port : HikkakePort) (state : List Candle × HikkakeMemory) (candle : Candle) :
    (List Candle × HikkakeMemory) × Option ℤ :=
  let candles := state.1 ++ [candle]
  ((candles, (remember port candles state.2).1),
    if port.lookback ≤ state.1.length then some (remember port candles state.2).2 else none)

/-- The history and the memory of a fresh state. -/
def unread : List Candle × HikkakeMemory := ([], ⟨0, 0⟩)

/-- A signal of the patterns, or none. -/
def IsSignal (value : ℤ) : Prop := value = 0 ∨ value = 100 ∨ value = -100

/-- A port whose judge has the bars it reads from the transition start on. -/
structure HikkakePort.LooksBack (port : HikkakePort) : Prop where
  two_le : 2 ≤ port.transitionStart
  lookback_eq : port.lookback = port.transitionStart + confirmationBars
  judges : ∀ candles, port.transitionStart < candles.length →
    ∃ value, port.judged candles = .ok value ∧ IsSignal value

/-- Every bar that is judged from these candles on is judged alike with older ones before them. -/
def JudgesAlike (port : HikkakePort) (older candles : List Candle) : Prop :=
  ∀ count, port.transitionStart < count → count ≤ candles.length →
    port.judged (older ++ candles.take count) = port.judged (candles.take count)

/-- What holds of the memory after some bars: a remembered pattern was found by a judge, or is too
old to be confirmed. -/
structure HikkakeMemory.Held (memory : HikkakeMemory) (start seen : ℕ) : Prop where
  signal : IsSignal memory.result
  seen_or : memory.idx < seen ∨ memory.idx = 0
  found_or : memory.result = 0 ∨ start ≤ memory.idx ∨ memory.idx + confirmationBars < seen

section Memory

variable {port : HikkakePort} {candles : List Candle} {memory : HikkakeMemory}

theorem HikkakePort.LooksBack.judgement_eq (h : port.LooksBack)
    (hlength : port.transitionStart < candles.length) :
    port.judged candles = .ok (port.judgement candles) ∧ IsSignal (port.judgement candles) := by
  obtain ⟨value, hvalue, hsignal⟩ := h.judges candles hlength
  have heq : port.judgement candles = value := by rw [HikkakePort.judgement, hvalue]; rfl
  rw [heq]
  exact ⟨hvalue, hsignal⟩

/-- A memory that is too old, or empty, is not confirmed. -/
theorem HikkakeMemory.not_confirmedBy (h : memory.result = 0 ∨
    memory.idx + confirmationBars < candles.length - 1) : memory.confirmedBy candles = false := by
  rw [HikkakeMemory.confirmedBy]
  split
  · rw [decide_eq_false_iff_not]
    rintro ⟨hle, hcrossed⟩
    rcases h with hzero | hlt
    -- no close lies beyond a bar that no pattern is remembered for
    · rw [hzero] at hcrossed
      simp at hcrossed
    · omega
  · rfl

/-- One bar keeps what holds of the memory. -/
theorem HikkakeMemory.Held.remember (h : port.LooksBack) {seen : ℕ}
    (hlength : candles.length = seen + 1) (hheld : memory.Held port.transitionStart seen) :
    (Patterns.remember port candles memory).1.Held port.transitionStart (seen + 1) := by
  have htwo := h.two_le
  obtain ⟨hsignal, hseen, hfound⟩ := hheld
  have hkept : memory.Held port.transitionStart (seen + 1) := by
    refine ⟨hsignal, ?_, ?_⟩
    · omega
    · rcases hfound with hzero | hle | hlt
      · exact .inl hzero
      · exact .inr (.inl hle)
      · exact .inr (.inr (by omega))
  -- the three branches of a bar: a new pattern, a confirmation, and neither
  rw [Patterns.remember]
  split
  · rename_i hstart
    split
    · refine ⟨(h.judgement_eq hstart).2, ?_, ?_⟩
      · exact .inl (by simp only; omega)
      · exact .inr (.inl (by simp only; omega))
    · split
      · rename_i hconfirmed
        refine ⟨hsignal, .inr rfl, ?_⟩
        -- a confirmed pattern was found two bars in or later, so three bars have passed
        rcases hfound with hzero | hle | hlt
        · exact .inl hzero
        · right; right
          simp only [confirmationBars]
          omega
        · rw [HikkakeMemory.not_confirmedBy (.inr (by omega))] at hconfirmed
          exact absurd hconfirmed (by decide)
      · exact hkept
  · exact hkept

/-- What two memories have in common when the second one began `older` bars later: they remember
the same pattern, or what the first one remembers is from before the second was judging, and the
second has nothing that could be confirmed. -/
def Forgets (older start seen : ℕ) (whole part : HikkakeMemory) : Prop :=
  (start ≤ part.idx ∧ part.idx < seen ∧ whole.idx = older + part.idx ∧
      whole.result = part.result) ∨
    (whole.idx < older + start ∧ (part.result = 0 ∨ part.idx + confirmationBars < seen))

/-- The bars that a pattern remembered by both is confirmed with are the same. -/
theorem confirmedBy_append {older : List Candle} {whole part : HikkakeMemory}
    (hidx : whole.idx = older.length + part.idx) (hresult : whole.result = part.result)
    (hpos : 0 < part.idx) (hcandles : candles ≠ []) :
    whole.confirmedBy (older ++ candles) = part.confirmedBy candles := by
  have hlength : 0 < candles.length := List.length_pos_iff.2 hcandles
  -- a confirmation reads the bar before the pattern and the last one
  have hbefore : (older ++ candles)[whole.idx - 1]? = candles[part.idx - 1]? := by
    rw [List.getElem?_append_right (by omega)]
    congr 1
    omega
  have hlast : (older ++ candles).getLast? = candles.getLast? := by
    rw [List.getLast?_append, List.getLast?_eq_some_getLast hcandles, Option.some_or]
  have hbound : (older ++ candles).length - 1 ≤ whole.idx + confirmationBars ↔
      candles.length - 1 ≤ part.idx + confirmationBars := by
    rw [List.length_append]
    omega
  rw [HikkakeMemory.confirmedBy, HikkakeMemory.confirmedBy, hbefore, hlast, hresult]
  simp only [hbound]

/-- **One bar** keeps what two memories have in common, and once the three bars of a confirmation
have passed it gives the same integer. -/
theorem Forgets.step (h : port.LooksBack) {older : List Candle} {seen : ℕ}
    {whole part : HikkakeMemory}
    (hforgets : Forgets older.length port.transitionStart seen whole part)
    (hlength : candles.length = seen + 1)
    (halike : port.transitionStart < candles.length →
      port.judged (older ++ candles) = port.judged candles) :
    Forgets older.length port.transitionStart (seen + 1) (remember port (older ++ candles) whole).1
        (remember port candles part).1 ∧
      (port.lookback ≤ seen →
        (remember port (older ++ candles) whole).2 = (remember port candles part).2) := by
  have htwo := h.two_le
  have hlookback := h.lookback_eq
  simp only [confirmationBars] at hlookback
  have hne : candles ≠ [] := by
    rintro rfl
    simp at hlength
  have hlength' : (older ++ candles).length = older.length + seen + 1 := by
    rw [List.length_append, hlength]
    rfl
  by_cases hstart : port.transitionStart < candles.length
  · have hjudgement : port.judgement (older ++ candles) = port.judgement candles := by
      rw [HikkakePort.judgement, HikkakePort.judgement, halike hstart]
    have hstart' : port.transitionStart < (older ++ candles).length := by omega
    rw [remember, remember, if_pos hstart, if_pos hstart', hjudgement]
    by_cases hfound : port.judgement candles ≠ 0
    · -- a new pattern is remembered by both
      rw [if_pos hfound, if_pos hfound]
      refine ⟨.inl ⟨?_, ?_, ?_, rfl⟩, fun _ => rfl⟩ <;> simp only <;> omega
    · rw [if_neg hfound, if_neg hfound]
      -- both remember one pattern, or the second run has nothing to confirm
      rcases hforgets with ⟨hle, hlt, hidx, hresult⟩ | ⟨hold, hnone⟩
      · have hconfirmed : whole.confirmedBy (older ++ candles) = part.confirmedBy candles :=
          confirmedBy_append hidx hresult (by omega) hne
        rw [hconfirmed, hresult]
        split
        · refine ⟨.inr ⟨?_, .inr ?_⟩, fun _ => rfl⟩ <;> simp only [confirmationBars] <;> omega
        · exact ⟨.inl ⟨hle, Nat.lt_succ_of_lt hlt, hidx, hresult⟩, fun _ => rfl⟩
      · have hpart : part.confirmedBy candles = false :=
          HikkakeMemory.not_confirmedBy (hnone.imp_right fun hlt => by omega)
        have hkept : part.result = 0 ∨ part.idx + confirmationBars < seen + 1 :=
          hnone.imp_right fun hlt => by omega
        rw [hpart, if_neg Bool.false_ne_true]
        split
        · -- an old pattern is confirmed: only within the bars that the second run does not show
          rename_i hconfirmed
          refine ⟨.inr ⟨?_, hkept⟩, fun hshown => ?_⟩
          · simp only
            omega
          · rw [HikkakeMemory.not_confirmedBy (.inr (by
              simp only [confirmationBars]
              omega))] at hconfirmed
            exact absurd hconfirmed Bool.false_ne_true
        · exact ⟨.inr ⟨hold, hkept⟩, fun _ => rfl⟩
  · -- the second run is not judging yet
    rw [remember, remember, if_neg hstart]
    have hforgets' : whole.idx < older.length + port.transitionStart ∧
        (part.result = 0 ∨ part.idx + confirmationBars < seen + 1) := by
      rcases hforgets with ⟨hle, hlt, -⟩ | ⟨hold, hnone⟩
      · omega
      · exact ⟨hold, hnone.imp_right fun hlt => by omega⟩
    refine ⟨.inr ⟨?_, hforgets'.2⟩, fun hshown => by omega⟩
    split
    · split
      · simp only
        omega
      · split
        · simp only
          omega
        · exact hforgets'.1
    · exact hforgets'.1

/-! ### The runs -/

/-- The candles that a run has recalled. -/
theorem fst_final_recollect (state : List Candle × HikkakeMemory) (later : List Candle) :
    (final (recollect port) state later).1 = state.1 ++ later := by
  induction later generalizing state with
  | nil => rw [final_nil, List.append_nil]
  | cons candle later ih =>
    rw [final_cons, ih, recollect, List.append_assoc, List.singleton_append]

/-- A fresh memory remembers nothing. -/
theorem held_unread : unread.2.Held port.transitionStart unread.1.length :=
  ⟨.inl rfl, .inr rfl, .inl rfl⟩

theorem held_recollect (h : port.LooksBack) {state : List Candle × HikkakeMemory}
    (hheld : state.2.Held port.transitionStart state.1.length) (candle : Candle) :
    (recollect port state candle).1.2.Held port.transitionStart
      (recollect port state candle).1.1.length := by
  have hlength : (state.1 ++ [candle]).length = state.1.length + 1 := by simp
  rw [recollect, hlength]
  exact hheld.remember h hlength

/-- After any candles it holds of the memory. -/
theorem held_final (h : port.LooksBack) (seen : List Candle) :
    (final (recollect port) unread seen).2.Held port.transitionStart seen.length := by
  have hseen : (final (recollect port) unread seen).1 = seen := fst_final_recollect unread seen
  suffices hheld : (final (recollect port) unread seen).2.Held port.transitionStart
      (final (recollect port) unread seen).1.length by rwa [hseen] at hheld
  clear hseen
  induction seen using List.reverseRecOn with
  | nil => exact held_unread
  | append_singleton seen candle ih =>
    rw [final_concat]
    exact held_recollect h ih candle

/-- The last of some candles is among those judged alike. -/
theorem JudgesAlike.of_append {older seen later : List Candle}
    (h : JudgesAlike port older (seen ++ later)) : JudgesAlike port older seen := by
  intro count hstart hcount
  have hjudged := h count hstart (by rw [List.length_append]; omega)
  rwa [List.take_append_of_le_length hcount] at hjudged

theorem JudgesAlike.whole {older seen : List Candle} (h : JudgesAlike port older seen)
    (hstart : port.transitionStart < seen.length) :
    port.judged (older ++ seen) = port.judged seen := by
  have hjudged := h seen.length hstart le_rfl
  rwa [List.take_length] at hjudged

/-- A run over everything, and one that began later, after the same candles. -/
theorem forgets_final (h : port.LooksBack) (older seen : List Candle)
    (halike : JudgesAlike port older seen) :
    Forgets older.length port.transitionStart seen.length
      (final (recollect port) unread (older ++ seen)).2 (final (recollect port) unread seen).2 := by
  -- on the candles both have seen
  induction seen using List.reverseRecOn with
  | nil =>
    have htwo := h.two_le
    have hheld := (held_final h older).seen_or
    rw [List.append_nil]
    exact .inr ⟨by omega, .inl rfl⟩
  | append_singleton seen candle ih =>
    have hwhole : (final (recollect port) unread (older ++ seen)).1 = unread.1 ++ (older ++ seen) :=
      fst_final_recollect unread (older ++ seen)
    have hpart : (final (recollect port) unread seen).1 = unread.1 ++ seen :=
      fst_final_recollect unread seen
    have hlength : (seen ++ [candle]).length = seen.length + 1 := by simp
    have hstep := ((ih halike.of_append).step h hlength halike.whole).1
    rw [← List.append_assoc, final_concat, final_concat, recollect, recollect, hwhole, hpart,
      List.length_append, List.length_singleton]
    simpa [unread] using hstep

/-- The next bar gets the same integer from both. -/
theorem snd_recollect_append (h : port.LooksBack) (older seen : List Candle) (candle : Candle)
    (hseen : port.lookback ≤ seen.length)
    (halike : JudgesAlike port older (seen ++ [candle])) :
    (recollect port (final (recollect port) unread (older ++ seen)) candle).2 =
      (recollect port (final (recollect port) unread seen) candle).2 := by
  have hwhole : (final (recollect port) unread (older ++ seen)).1 = older ++ seen :=
    fst_final_recollect unread (older ++ seen)
  have hpart : (final (recollect port) unread seen).1 = seen := fst_final_recollect unread seen
  have hlength : (seen ++ [candle]).length = seen.length + 1 := by simp
  have hshown := ((forgets_final h older seen halike.of_append).step h hlength halike.whole).2 hseen
  have hwhole' : port.lookback ≤ (older ++ seen).length := by
    rw [List.length_append]
    omega
  rw [recollect, recollect, hwhole, hpart, if_pos hseen, if_pos hwhole', List.append_assoc, hshown]

/-- **Later bars** get the same integers from both. -/
theorem outputs_recall_append (h : port.LooksBack) (older seen later : List Candle)
    (hseen : port.lookback ≤ seen.length) (halike : JudgesAlike port older (seen ++ later)) :
    outputs (recollect port) (final (recollect port) unread (older ++ seen)) later =
      outputs (recollect port) (final (recollect port) unread seen) later := by
  -- after each later bar both have seen one bar more
  induction later generalizing seen with
  | nil => rfl
  | cons candle later ih =>
    have hassoc : seen ++ candle :: later = seen ++ [candle] ++ later := by simp
    rw [hassoc] at halike
    have hnext := ih (seen ++ [candle]) (by rw [List.length_append]; omega) halike
    rw [← List.append_assoc, final_concat, final_concat] at hnext
    rw [outputs_cons, outputs_cons, hnext,
      snd_recollect_append h older seen candle hseen halike.of_append]

/-- Every integer is a signal, or a confirmed one. -/
theorem remember_value (h : port.LooksBack) (hsignal : IsSignal memory.result) :
    (remember port candles memory).2 ∈ [-200, -100, 0, 100, 200] := by
  rw [remember]
  split
  · rename_i hstart
    split
    · rcases (h.judgement_eq hstart).2 with hvalue | hvalue | hvalue <;> rw [hvalue] <;> simp
    · split
      · rename_i hconfirmed
        -- a confirmation doubles the signal that is remembered
        rcases hsignal with hzero | hvalue | hvalue
        · rw [HikkakeMemory.not_confirmedBy (.inl hzero)] at hconfirmed
          exact absurd hconfirmed Bool.false_ne_true
        · rw [hvalue]
          simp [confirmed, matchMagnitude]
        · rw [hvalue]
          simp [confirmed, matchMagnitude]
      · simp
  · simp

end Memory

/-! ### The state with its buffers -/

namespace TalibHikkakeState

variable {port : HikkakePort}

/-- The near average's state after some candles. -/
def nearAfter (port : HikkakePort) (candles : List Candle) : CandleAverageState Candle Binary64 :=
  if port.usesNearAverage then CandleAverageState.after nearAveraging nearOffset candles
  else .new nearAveraging

/-- The state that has recalled some candles. -/
def recalling (port : HikkakePort) (state : List Candle × HikkakeMemory)
    (currentInteger : Option ℤ) : TalibHikkakeState where
  seen := state.1.length
  candles := state.1
  nearAverage := nearAfter port state.1
  patternIdx := state.2.idx
  patternResult := state.2.result
  currentInteger := currentInteger

theorem recalling_unread : recalling port unread none = new := by
  simp only [recalling, nearAfter, unread, new, CandleAverageState.after_nil, ite_self,
    List.length_nil]

theorem updateNear_recalling (state : List Candle × HikkakeMemory) (current : Option ℤ)
    (candle : Candle) :
    updateNear port (recalling port state current) candle =
      .ok (nearAfter port (state.1 ++ [candle]), port.nearAt (state.1 ++ [candle])) := by
  by_cases hnear : port.usesNearAverage = true
  · simp only [updateNear, recalling, nearAfter, HikkakePort.nearAt, if_pos hnear,
      CandleAverageState.update_after, List.length_append, List.length_singleton,
      Nat.add_sub_cancel]
  · simp only [updateNear, recalling, nearAfter, HikkakePort.nearAt, if_neg hnear]

/-- The bar before a remembered pattern is in the buffer when it is read. -/
theorem confirms_eq {state : TalibHikkakeState} {memory : HikkakeMemory} {seen : List Candle}
    {candle : Candle} {start : ℕ} (hstart : 2 ≤ start) (hheld : memory.Held start seen.length)
    (hcandles : state.candles = seen ++ [candle]) (hidx : state.patternIdx = memory.idx)
    (hresult : state.patternResult = memory.result) :
    state.confirms seen.length candle = .ok (memory.confirmedBy (seen ++ [candle])) := by
  have hlast : (seen ++ [candle]).getLast? = some candle := List.getLast?_concat
  have hbound : (seen ++ [candle]).length - 1 = seen.length := by simp
  rw [confirms, hidx, hresult, hcandles]
  by_cases hle : seen.length ≤ memory.idx + confirmationBars
  · rw [if_pos hle]
    by_cases hzero : memory.result = 0
    · rw [HikkakeMemory.not_confirmedBy (.inl hzero), hzero, if_neg (lt_irrefl _),
        if_neg (lt_irrefl _)]
      rfl
    · have hfound : start ≤ memory.idx := by
        rcases hheld.found_or with h | h | h
        · exact absurd h hzero
        · exact h
        · omega
      have hlt : memory.idx - 1 < (seen ++ [candle]).length := by
        have := hheld.seen_or
        rw [List.length_append]
        omega
      have hitem : item (seen ++ [candle]) ((memory.idx : ℤ) - 1) =
          .ok (seen ++ [candle])[memory.idx - 1] := @item_sub Candle _ memory.idx 1 (by omega) hlt
      rw [HikkakeMemory.confirmedBy, List.getElem?_eq_getElem hlt, hlast, hitem, hbound]
      -- a bullish pattern is confirmed above its bar, a bearish one below
      by_cases hpos : 0 < memory.result
      · simp [hpos, hle, not_lt.2 hpos.le]
      · have hneg : memory.result < 0 := by omega
        simp [hpos, hneg, hle]
  · rw [if_neg hle, HikkakeMemory.not_confirmedBy (.inr (by rw [hbound]; omega))]
    rfl

/-- One bar is judged, and confirmed, as without the buffers. -/
theorem advance_eq (h : port.LooksBack) {state : TalibHikkakeState} {memory : HikkakeMemory}
    {seen : List Candle} {candle : Candle}
    (hheld : memory.Held port.transitionStart seen.length)
    (hstart : port.transitionStart ≤ seen.length) (hcandles : state.candles = seen ++ [candle])
    (hidx : state.patternIdx = memory.idx) (hresult : state.patternResult = memory.result) :
    advance port state seen.length (port.nearAt (seen ++ [candle])) =
      .ok ({ state with
        patternIdx := (remember port (seen ++ [candle]) memory).1.idx
        patternResult := (remember port (seen ++ [candle]) memory).1.result },
        (remember port (seen ++ [candle]) memory).2) := by
  have hbound : (seen ++ [candle]).length - 1 = seen.length := by simp
  have hlt : port.transitionStart < (seen ++ [candle]).length := by
    rw [List.length_append, List.length_singleton]
    omega
  have hjudged : port.judge (seen ++ [candle]) seen.length (port.nearAt (seen ++ [candle])) =
      .ok (port.judgement (seen ++ [candle])) := by
    have := (h.judgement_eq hlt).1
    rwa [HikkakePort.judged, hbound] at this
  have hcurrent : item (seen ++ [candle]) (seen.length : ℤ) = .ok candle := by
    rw [item_eq (by simp)]
    simp
  have hconfirms := confirms_eq h.two_le hheld hcandles hidx hresult
  rw [advance, hcandles, hjudged, remember, if_pos hlt]
  simp only [bind, Except.bind]
  -- a pattern that the judge finds replaces the remembered one
  by_cases hfound : port.judgement (seen ++ [candle]) ≠ 0
  · rw [if_pos hfound, if_pos hfound, hbound]
    rfl
  · rw [if_neg hfound, if_neg hfound, hcurrent]
    simp only [hconfirms]
    cases memory.confirmedBy (seen ++ [candle])
    · simp only [Bool.false_eq_true, if_false, ← hidx, ← hresult, ← hcandles]
      rfl
    · simp only [if_true, ← hresult]
      rfl

/-- **One update** reaches the state that has recalled one candle more. -/
theorem updateInteger_recalling (h : port.LooksBack) {state : List Candle × HikkakeMemory}
    (hheld : state.2.Held port.transitionStart state.1.length) (current : Option ℤ)
    (candle : Candle) :
    updateInteger port (recalling port state current) candle =
      .ok (recalling port (recollect port state candle).1 (recollect port state candle).2,
        (recollect port state candle).2) := by
  rw [updateInteger, updateNear_recalling]
  simp only [bind, Except.bind]
  -- before the transition start a bar is only stored
  by_cases hstart : port.transitionStart ≤ state.1.length
  · have hadvance (counted : TalibHikkakeState) (hcandles : counted.candles = state.1 ++ [candle])
        (hidx : counted.patternIdx = state.2.idx)
        (hresult : counted.patternResult = state.2.result) :=
      advance_eq h hheld hstart hcandles hidx hresult
    rw [if_pos (show port.transitionStart ≤ (recalling port state current).seen from hstart)]
    simp only [recalling]
    rw [hadvance _ rfl rfl rfl]
    simp only [pure, Except.pure, recollect, List.length_append, List.length_singleton]
    rfl
  · have hkept : remember port (state.1 ++ [candle]) state.2 = (state.2, 0) := by
      rw [remember, if_neg]
      rw [List.length_append, List.length_singleton]
      omega
    rw [if_neg (show ¬ port.transitionStart ≤ (recalling port state current).seen from hstart)]
    simp only [pure, Except.pure, recollect, recalling, hkept, List.length_append,
      List.length_singleton]
    rfl

/-- Later bars, as without the buffers. -/
theorem run_recalling (h : port.LooksBack) {state : List Candle × HikkakeMemory}
    (hheld : state.2.Held port.transitionStart state.1.length) (current : Option ℤ)
    (later : List Candle) :
    run port (recalling port state current) later = .ok (outputs (recollect port) state later) := by
  rw [run]
  induction later generalizing state current with
  | nil => rfl
  | cons candle later ih =>
    rw [outputsM, updateInteger_recalling h hheld]
    simp only [bind, Except.bind, ih (held_recollect h hheld candle)]
    rfl

/-- A seeded state has recalled its candles. -/
theorem seed_eq (h : port.LooksBack) (candles : List Candle) :
    ∃ current, seed port candles =
      .ok (recalling port (final (recollect port) unread candles) current) := by
  induction candles using List.reverseRecOn with
  | nil => exact ⟨none, congrArg Except.ok recalling_unread.symm⟩
  | append_singleton candles candle ih =>
    obtain ⟨current, hseed⟩ := ih
    have hheld := held_final h candles
    have hlength : (final (recollect port) unread candles).1.length = candles.length := by
      rw [fst_final_recollect]
      rfl
    rw [seed] at hseed ⊢
    -- a seed is a run of which the integers are dropped
    rw [List.foldlM_append, hseed, final_concat]
    simp only [bind, Except.bind, List.foldlM_cons, List.foldlM_nil,
      updateInteger_recalling h (hlength ▸ hheld)]
    exact ⟨_, rfl⟩

end TalibHikkakeState

/-! ### The two judges -/

/-- A candle that is still there when older ones come before it. -/
theorem item_append {older candles : List Candle} {index : ℤ} {x : ℤ}
    (hx : index = older.length + x) (hnonneg : 0 ≤ x) :
    item (older ++ candles) index = item candles x := by
  have hindex : ¬ index < 0 := by omega
  have htoNat : index.toNat = older.length + x.toNat := by omega
  -- no index is negative, so none is counted from the end
  rw [item, item, if_neg (not_lt.2 hnonneg), if_neg hindex, htoNat,
    List.getElem?_append_right (by omega), Nat.add_sub_cancel_left]
  simp only [hindex, not_lt.2 hnonneg, if_false]

theorem exists_item {candles : List Candle} {index offset : ℕ} (hle : offset ≤ index)
    (h : index < candles.length) : ∃ candle, item candles ((index : ℤ) - offset) = .ok candle :=
  ⟨_, item_sub hle (by omega)⟩

theorem isSignal_match (condition : Prop) [Decidable condition] :
    IsSignal (matchMagnitude * if condition then 1 else -1) := by
  split
  · exact .inr (.inl rfl)
  · exact .inr (.inr rfl)

/-- The last index of some candles, when older ones come before them. -/
theorem lastIndex_append (older : List Candle) {candles : List Candle} (h : 0 < candles.length) :
    (((older ++ candles).length - 1 : ℕ) : ℤ) = older.length + ((candles.length - 1 : ℕ) : ℤ) := by
  rw [List.length_append]
  omega

theorem patHikkake_looksBack : patHikkake.LooksBack where
  two_le := le_rfl
  lookback_eq := rfl
  judges candles hlength := by
    have hlt : 2 < candles.length := hlength
    obtain ⟨first, hfirst⟩ : ∃ candle, item candles (((candles.length - 1 : ℕ) : ℤ) - 2) =
        .ok candle := exists_item (show 2 ≤ candles.length - 1 by omega) (by omega)
    obtain ⟨second, hsecond⟩ : ∃ candle, item candles (((candles.length - 1 : ℕ) : ℤ) - 1) =
        .ok candle := exists_item (show 1 ≤ candles.length - 1 by omega) (by omega)
    obtain ⟨third, hthird⟩ : ∃ candle, item candles ((candles.length - 1 : ℕ) : ℤ) =
        .ok candle := ⟨_, item_eq (show candles.length - 1 < candles.length by omega)⟩
    simp only [HikkakePort.judged, patHikkake, hikkake, hfirst, hsecond, hthird, bind, Except.bind]
    split
    · exact ⟨_, rfl, isSignal_match _⟩
    · exact ⟨_, rfl, .inl rfl⟩

/-- Without a near average the judge reads the last three bars alone. -/
theorem judgesAlike_patHikkake (older candles : List Candle) :
    JudgesAlike patHikkake older candles := by
  intro count hstart hcount
  have hlt : 2 < (candles.take count).length := by
    rw [List.length_take]
    exact lt_min hstart (hstart.trans_le hcount)
  generalize candles.take count = bars at hlt
  -- every index is counted from the end, so older candles shift none of them
  have hlast := lastIndex_append older (show 0 < bars.length by omega)
  have hfirst : item (older ++ bars) (older.length + ((bars.length - 1 : ℕ) : ℤ) - 2) =
      item bars (((bars.length - 1 : ℕ) : ℤ) - 2) := item_append (by ring) (by omega)
  have hsecond : item (older ++ bars) (older.length + ((bars.length - 1 : ℕ) : ℤ) - 1) =
      item bars (((bars.length - 1 : ℕ) : ℤ) - 1) := item_append (by ring) (by omega)
  have hthird : item (older ++ bars) (older.length + ((bars.length - 1 : ℕ) : ℤ)) =
      item bars ((bars.length - 1 : ℕ) : ℤ) := item_append rfl (by omega)
  simp only [HikkakePort.judged, patHikkake, hikkake, hlast, hfirst, hsecond, hthird]

theorem exists_nearAt {candles : List Candle}
    (hlength : patHikkakeModified.transitionStart < candles.length) :
    ∃ average, patHikkakeModified.nearAt candles = some average := by
  have hlt : 7 < candles.length := hlength
  have hready : TalibHikkakeState.nearAveraging.avgPeriod + TalibHikkakeState.nearOffset ≤
      candles.length - 1 := show 7 ≤ candles.length - 1 by omega
  exact ⟨_, Averaging.valueAt_eq hready (by omega)⟩

theorem patHikkakeModified_looksBack : patHikkakeModified.LooksBack where
  two_le := by decide
  lookback_eq := rfl
  judges candles hlength := by
    have hlt : 7 < candles.length := hlength
    obtain ⟨average, haverage⟩ := exists_nearAt hlength
    obtain ⟨first, hfirst⟩ : ∃ candle, item candles (((candles.length - 1 : ℕ) : ℤ) - 3) =
        .ok candle := exists_item (show 3 ≤ candles.length - 1 by omega) (by omega)
    obtain ⟨second, hsecond⟩ : ∃ candle, item candles (((candles.length - 1 : ℕ) : ℤ) - 2) =
        .ok candle := exists_item (show 2 ≤ candles.length - 1 by omega) (by omega)
    obtain ⟨third, hthird⟩ : ∃ candle, item candles (((candles.length - 1 : ℕ) : ℤ) - 1) =
        .ok candle := exists_item (show 1 ≤ candles.length - 1 by omega) (by omega)
    obtain ⟨fourth, hfourth⟩ : ∃ candle, item candles ((candles.length - 1 : ℕ) : ℤ) =
        .ok candle := ⟨_, item_eq (show candles.length - 1 < candles.length by omega)⟩
    rw [HikkakePort.judged, haverage]
    simp only [patHikkakeModified, hikkakeModified, hfirst, hsecond, hthird, hfourth, bind,
      Except.bind]
    split
    · exact ⟨_, rfl, isSignal_match _⟩
    · exact ⟨_, rfl, .inl rfl⟩

/-- With equal near averages the judge reads the last four bars alone. -/
theorem judged_append_of_nearAt {older candles : List Candle} (hlt : 7 < candles.length)
    (hnear : patHikkakeModified.nearAt (older ++ candles) = patHikkakeModified.nearAt candles) :
    patHikkakeModified.judged (older ++ candles) = patHikkakeModified.judged candles := by
  have hlast := lastIndex_append older (show 0 < candles.length by omega)
  have hfirst : item (older ++ candles) (older.length + ((candles.length - 1 : ℕ) : ℤ) - 3) =
      item candles (((candles.length - 1 : ℕ) : ℤ) - 3) := item_append (by ring) (by omega)
  have hsecond : item (older ++ candles) (older.length + ((candles.length - 1 : ℕ) : ℤ) - 2) =
      item candles (((candles.length - 1 : ℕ) : ℤ) - 2) := item_append (by ring) (by omega)
  have hthird : item (older ++ candles) (older.length + ((candles.length - 1 : ℕ) : ℤ) - 1) =
      item candles (((candles.length - 1 : ℕ) : ℤ) - 1) := item_append (by ring) (by omega)
  have hfourth : item (older ++ candles) (older.length + ((candles.length - 1 : ℕ) : ℤ)) =
      item candles ((candles.length - 1 : ℕ) : ℤ) := item_append rfl (by omega)
  rw [HikkakePort.judged, HikkakePort.judged, hnear]
  simp only [patHikkakeModified, hikkakeModified, hlast, hfirst, hsecond, hthird, hfourth]

theorem looksBack_of_mem {port : HikkakePort} (h : port ∈ talibHikkakePatterns) :
    port.LooksBack := by
  rcases List.mem_cons.1 h with rfl | h
  · exact patHikkake_looksBack
  · rcases List.mem_cons.1 h with rfl | h
    · exact patHikkakeModified_looksBack
    · exact absurd h List.not_mem_nil

/-! ### The declared history -/

/-- What the integers of a whole sequence are. -/
structure IntegersOf (port : HikkakePort) (candles : List Candle) (values : List ℤ) : Prop where
  batch : computeIntegers port candles = .ok values
  streamed : TalibHikkakeState.new.run port candles = .ok (values.mapIdx fun index value =>
    if port.lookback ≤ index then some value else none)
  signals : ∀ value ∈ values, value ∈ [-200, -100, 0, 100, 200]

/-- A bar at an index may read the bar before the remembered pattern. -/
def TalibHikkakeState.Reads (state : TalibHikkakeState) (index : ℕ) : Prop :=
  index ≤ state.patternIdx + confirmationBars ∧ state.patternResult ≠ 0

section Declared

variable {port : HikkakePort} (h : port.LooksBack)

include h

theorem outputs_unread_mem (candles : List Candle) :
    ∀ shown ∈ outputs (recollect port) unread candles,
      shown.getD 0 ∈ [-200, -100, 0, 100, 200] := by
  refine forall_mem_outputs
    (fun state => state.2.Held port.transitionStart state.1.length) (fun _ => True) _ ?_ ?_
    (fun _ _ => trivial)
  · intro state candle hheld _
    refine ⟨held_recollect h hheld candle, ?_⟩
    rw [recollect]
    split
    · exact remember_value h hheld.signal
    · -- a bar before the lookback shows nothing
      simp
  · exact held_unread

omit h in
/-- A bar is shown from the lookback on. -/
theorem outputs_unread_shown (candles : List Candle) :
    outputs (recollect port) unread candles =
      ((outputs (recollect port) unread candles).map fun shown => shown.getD 0).mapIdx
        fun index value => if port.lookback ≤ index then some value else none := by
  apply List.ext_getElem (by simp)
  intro i hi hi'
  -- the state before a bar holds the candles before it
  have hlength : (final (recollect port) unread (candles.take i)).1.length = i := by
    rw [fst_final_recollect]
    simp only [unread, List.nil_append, List.length_take]
    rw [length_outputs] at hi
    omega
  rw [List.getElem_mapIdx, List.getElem_map, getElem_outputs]
  simp only [recollect, hlength]
  split
  · rfl
  · rfl

omit h in
theorem validateValues_ok {values : List ℤ} {index : ℕ}
    (hallowed : ∀ value ∈ values, value ∈ talibRawAllowedValues)
    (hwarm : ∀ i (hi : i < values.length), index + i < port.lookback → values[i] = 0) :
    validateValues port index values = .ok () := by
  induction values generalizing index with
  | nil => rfl
  | cons value values ih =>
    have hrest : validateValues port (index + 1) values = .ok () :=
      ih (fun other hother => hallowed other (by simp [hother]))
        (fun i hi hlt => hwarm (i + 1) (by simpa using hi) (by omega))
    -- the first value is warm-up, or it may be anything allowed
    have hfirst : port.lookback ≤ index ∨ value = 0 := by
      by_contra hcon
      push Not at hcon
      exact hcon.2 (hwarm 0 (by simp) hcon.1)
    rw [validateValues, require, require, if_pos (hallowed value (by simp)), if_pos hfirst]
    exact hrest

theorem integersOf (candles : List Candle) :
    IntegersOf port candles
      ((outputs (recollect port) unread candles).map fun shown => shown.getD 0) := by
  have hmem : ∀ value ∈ (outputs (recollect port) unread candles).map fun shown => shown.getD 0,
      value ∈ [-200, -100, 0, 100, 200] := by
    intro value hvalue
    obtain ⟨shown, hshown, rfl⟩ := List.mem_map.1 hvalue
    exact outputs_unread_mem h candles shown hshown
  -- the fresh state is the one that has recalled nothing
  have hrun : TalibHikkakeState.new.run port candles =
      .ok (outputs (recollect port) unread candles) := by
    rw [← TalibHikkakeState.recalling_unread]
    exact TalibHikkakeState.run_recalling h held_unread none candles
  refine ⟨?_, ?_, hmem⟩
  · rw [computeIntegers, hrun]
    have hvalid : validateValues port 0 ((outputs (recollect port) unread candles).map
        fun shown => shown.getD 0) = .ok () := by
      refine validateValues_ok (fun value hvalue => ?_) (fun i hi hlt => ?_)
      · have hsub : [-200, -100, 0, 100, 200] ⊆ talibRawAllowedValues := by decide
        exact hsub (hmem value hvalue)
      · have hshown : outputs (recollect port) unread candles = _ := outputs_unread_shown candles
        rw [List.getElem_map]
        have hi' : i < (outputs (recollect port) unread candles).length := by simpa using hi
        have : (outputs (recollect port) unread candles)[i] = none := by
          rw [List.getElem_of_eq hshown, List.getElem_mapIdx, if_neg (by omega)]
        rw [this]
        rfl
    simp only [bind, Except.bind, validateTalibRawIntegerSeries, hvalid, require, List.length_map,
      length_outputs, if_pos]
    rfl
  · rw [hrun, ← outputs_unread_shown]

/-- The bar before a remembered pattern is in the buffer. -/
theorem inside_of_reads {candles : List Candle} {state : TalibHikkakeState}
    (hseed : TalibHikkakeState.seed port candles = .ok state)
    (hreads : state.Reads candles.length) :
    state.candles = candles ∧ 0 < state.patternIdx ∧ state.patternIdx - 1 < candles.length := by
  obtain ⟨current, hseed'⟩ := TalibHikkakeState.seed_eq h candles
  rw [hseed'] at hseed
  cases hseed
  have hheld := held_final h candles
  have htwo := h.two_le
  obtain ⟨hle, hne⟩ := hreads
  simp only [TalibHikkakeState.recalling, fst_final_recollect] at hle hne ⊢
  -- a pattern too old for the bar is not read
  have hfound : port.transitionStart ≤ (final (recollect port) unread candles).2.idx := by
    rcases hheld.found_or with hzero | hfound | hold
    · exact absurd hzero hne
    · exact hfound
    · omega
  have hseen := hheld.seen_or
  exact ⟨rfl, by omega, by omega⟩

omit h in
/-- After its declared history every bar is shown. -/
theorem outputs_shown {state : List Candle × HikkakeMemory} {later : List Candle}
    (hstate : port.lookback ≤ state.1.length) :
    outputs (recollect port) state later =
      ((outputs (recollect port) state later).map fun shown => shown.getD 0).map some := by
  induction later generalizing state with
  | nil => rfl
  | cons candle later ih =>
    have hnext : port.lookback ≤ (recollect port state candle).1.1.length := by
      rw [recollect, List.length_append]
      omega
    have hfirst : (recollect port state candle).2 =
        some ((recollect port state candle).2.getD 0) := by
      simp only [recollect, if_pos hstate, Option.getD_some]
    rw [outputs_cons, List.map_cons, List.map_cons, ← hfirst, ← ih hnext]

theorem same_integers (older history later : List Candle)
    (hlength : port.minHistory ≤ history.length)
    (halike : JudgesAlike port older (history ++ later)) :
    ∃ state values integers, TalibHikkakeState.seed port history = .ok state ∧
      state.run port later = .ok (integers.map some) ∧
      IntegersOf port (older ++ history ++ later) values ∧
      values.drop (older ++ history).length = integers := by
  have hlookback : port.lookback ≤ history.length := Nat.le_of_succ_le hlength
  obtain ⟨current, hseed⟩ := TalibHikkakeState.seed_eq h history
  have hfst : (final (recollect port) unread history).1 = history :=
    fst_final_recollect unread history
  have hheld : (final (recollect port) unread history).2.Held port.transitionStart
      (final (recollect port) unread history).1.length := by
    rw [hfst]
    exact held_final h history
  have hrun := TalibHikkakeState.run_recalling h hheld current later
  have hlater := outputs_recall_append h older history later hlookback halike
  refine ⟨_, _, _, hseed, ?_, integersOf h (older ++ history ++ later), rfl⟩
  -- the outputs of the whole sequence end with those of the later bars
  rw [hrun, outputs_append, List.map_append, List.drop_left' (by simp), hlater]
  exact congrArg Except.ok (outputs_shown (by rw [hfst]; exact hlookback))

end Declared

end Patterns
end TradingSystem
