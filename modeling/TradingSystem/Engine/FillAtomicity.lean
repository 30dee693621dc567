import TradingSystem.Engine.EntryAcceptance
import TradingSystem.Execution.MarginConservation
import TradingSystem.Logic.Frame

/-!
# When a fill is applied atomically

A fill is first checked against the book and, for an entry, against the cash. Then its execution
is numbered and recorded, and every later check may still raise.

* `Atomic` — if applying the fill raises, the money state, the counters and the evidence are as
  before.
* `RefusedFirst` — the two checks before the execution is recorded.
* `ExitAdmitted`, `EntryAdmitted` — what the later checks, and the sink, ask of the state.
* `atomic_iff` — a fill is applied atomically exactly when it is refused first or admitted.
* `not_atomic_of_gap` — an exit whose loss exceeds margin and cash.
-/

namespace TradingSystem

open Numeric Logic

namespace Engine

variable {input : RunInput} {fill : Fill} {s s' : EngineState} {signal : Option TradingSignal}
  {decisionId candidateId : Option ℕ} {held : Option Position} {position : Position}
  {active : ActiveTrade}

/-! ### The count of executions -/

/-- How many executions have been numbered. -/
def executionsOf (s : EngineState) : ℕ := s.sequence .execution

theorem keeps_next {counter : Counter} (h : counter ≠ .execution) :
    Frames executionsOf (next counter) := fun _ => Function.update_of_ne h.symm _ _

theorem keeps_record (row : EvidenceRecord) : Frames executionsOf (record input row) :=
  frames_get.bind fun _ => (frames_runPure _).bind fun _ => frames_modify fun _ => rfl

theorem keeps_onBook {α : Type} (operation : Program Fault PositionBook α) :
    Frames executionsOf (onBook operation) := by
  intro s
  unfold onBook zoom
  cases operation s.book <;> rfl

theorem keeps_currentPosition : Frames executionsOf (currentPosition input) :=
  frames_get.bind fun _ => frames_runPure _

theorem keeps_recordEntry (executionId : ℕ) :
    Frames executionsOf (recordEntry input fill executionId signal candidateId) := by
  intro s
  unfold recordEntry
  rw [get_bind_apply]
  cases s.activeTrade with
  | some active => rfl
  | none =>
    cases signal with
    | none => rfl
    | some signal =>
      have hopen : Frames executionsOf (openTrade input fill executionId signal candidateId) :=
        (keeps_next (by decide)).bind fun _ => frames_modify (by intro s; rfl)
      exact hopen s

theorem keeps_applyEntry (projected : Decimal) (executionId : ℕ) :
    Frames executionsOf
      (applyEntry input fill held projected executionId signal candidateId) := by
  refine (frames_runPure _).bind fun _ => (keeps_onBook _).bind fun _ =>
    keeps_currentPosition.bind fun after => ?_
  split
  · exact frames_throw _
  · exact frames_get.bind fun _ => (frames_raiseUnless _).bind fun _ =>
      (frames_runPure _).bind fun _ => (frames_modify (by intro s; rfl)).bind fun _ =>
        keeps_recordEntry executionId

theorem keeps_completeTrade (executionId : ℕ) :
    Frames executionsOf (completeTrade input active fill executionId) :=
  (frames_runPure _).bind fun _ => (frames_modify (by intro s; rfl)).bind fun _ =>
    (keeps_record _).bind fun _ => (frames_forEach fun _ => keeps_record _).bind fun _ =>
      (frames_forEach fun _ => keeps_record _).bind fun _ =>
        (frames_forEach fun _ => keeps_record _).bind fun _ => frames_get.bind fun _ =>
          frames_forEach fun _ => (keeps_next (by decide)).bind fun _ => keeps_record _

theorem keeps_applyExit (executionId : ℕ) :
    Frames executionsOf (applyExit input fill held executionId) := by
  refine frames_get.bind fun s => ?_
  split
  · refine (frames_runPure _).bind fun _ => (keeps_onBook _).bind fun _ =>
      (frames_modify (by intro s; rfl)).bind fun _ =>
      keeps_currentPosition.bind fun remaining => ?_
    split
    · exact frames_pure _
    · exact (keeps_completeTrade executionId).bind fun _ => frames_modify (by intro s; rfl)
  · exact frames_throw _

/-! ### The checks before the execution is recorded -/

/-- The fill is refused before anything is written: positions of both directions are held, or an
entry leaves less than no cash. -/
def RefusedFirst (input : RunInput) (s : EngineState) (fill : Fill)
    (signal : Option TradingSignal) : Prop :=
  (∀ held, positionOf input s.book ≠ .ok held) ∨
    fill.reduceOnly = false ∧ projectedEntryCash input s.cash fill (leverageOf signal) < 0

theorem executionsOf_numbered (s : EngineState) :
    executionsOf (numbered s) = executionsOf s + 1 := by
  change Function.update s.sequence .execution (s.sequence .execution + 1) .execution = _
  rw [Function.update_self]
  rfl

/-- A refused fill raises and leaves the state as it was. -/
theorem applyFill_of_refused (decisionId candidateId : Option ℕ)
    (h : RefusedFirst input s fill signal) :
    ∃ fault, applyFill input fill decisionId signal candidateId s = .error fault s := by
  unfold applyFill
  cases hposition : positionOf input s.book with
  | error fault =>
    refine ⟨fault, bind_apply_of_error ?_⟩
    unfold currentPosition
    rw [get_bind_apply, hposition]
    rfl
  | ok held =>
    rcases h with hnone | ⟨hentry, hnegative⟩
    · exact absurd hposition (hnone held)
    · rw [bind_apply_of_ok (currentPosition_eq_ok.2 ⟨hposition, rfl⟩), get_bind_apply]
      refine ⟨.valueError "entry margin plus fee exceeds available cash after truncation",
        raiseUnless_bind_apply_of_not ?_⟩
      rw [hentry]
      simpa using hnegative

/-! ### Exits -/

/-- The book once a fill has reduced the position at its key. -/
def reducedBook (book : PositionBook) (fill : Fill) (kept : Position) : PositionBook :=
  book.update (fill.symbol, fill.positionSide)
    (if (kept.reducedBy fill.quantity).quantity = 0 then none
      else some (kept.reducedBy fill.quantity))

/-- A feature row of a trade. -/
def featureRecord (tradeId tfsId : ℕ) (row : FeaturePhase × ℤ × Features × Option Decimal) :
    EvidenceRecord :=
  .feature {
    tfsId := tfsId
    tradeId := tradeId
    phase := row.1
    ts := row.2.1
    features := row.2.2.1
    excursionR := row.2.2.2.map toFloat }

/-- The feature rows of a trade, numbered from the last number handed out. -/
def featureRecords (tradeId last : ℕ) :
    List (FeaturePhase × ℤ × Features × Option Decimal) → List EvidenceRecord
  | [] => []
  | row :: rows => featureRecord tradeId (last + 1) row :: featureRecords tradeId (last + 1) rows

/-- The rows of a completed trade, in their order. -/
def completedRows (input : RunInput) (s : EngineState) (fill : Fill) (active : ActiveTrade)
    (executionId : ℕ) (trade : Trade) : List EvidenceRecord :=
  completionRows active executionId trade (featureRecords active.tradeId (s.sequence .tfs)
    (featureRows active fill (s.board.features input.series.specs)))

/-- **What an exit asks of the state that has its execution**: cash for the loss beyond the margin,
a position at its key that is no smaller, and, when nothing of the run is left, a trade that can be
built and whose rows the sink takes. -/
structure ExitAdmitted (input : RunInput) (s : EngineState) (fill : Fill) (position : Position)
    (active : ActiveTrade) (executionId : ℕ) : Prop where
  cash_nonneg : 0 ≤ quantizeAmount (exitCash s.cash position fill)
  reducible : ∃ kept, s.book (fill.symbol, fill.positionSide) = some kept ∧
    fill.quantity ≤ kept.quantity ∧
    (positionOf input (reducedBook s.book fill kept) = .ok none →
      ∃ trade, completedTrade input (ActiveTrade.addCosts active fill) fill = .ok trade ∧
        TakesAll input.sink s.records
          (completedRows input s fill (ActiveTrade.addCosts active fill) executionId trade))

/-- The cost of a reduced position agrees with its prices. -/
theorem validateTotalCost_reducedBy (position : Position) (quantity : Decimal) :
    (position.reducedBy quantity).validateTotalCost = .ok ⟨⟩ := by
  have hclose : ∀ value : Decimal,
      |quantizeAmount value - value| ≤ Position.totalCostTolerance := by
    intro value
    rw [abs_sub_comm]
    refine (abs_sub_quantizeAmount_le value).trans ?_
    norm_num [qAmount, Position.totalCostTolerance]
  unfold Position.validateTotalCost
  rw [require_eq_ok]
  unfold Position.reducedBy Position.clearedWhenFlat
  by_cases hflat : quantizeAmount (position.quantity - quantity) = 0
  · simp only [hflat, if_true, zero_mul, quantizeAmount_zero, sub_zero, abs_zero]
    norm_num [Position.totalCostTolerance]
  · simp only [hflat, if_false]
    exact hclose _

/-- Reducing a held position leaves at most what was held. -/
theorem exists_positionOf_reduced {kept : Position}
    (hheld : positionOf input s.book = .ok (some position))
    (hkept : s.book (fill.symbol, fill.positionSide) = some kept) :
    ∃ remaining, positionOf input (reducedBook s.book fill kept) = .ok remaining := by
  have hsome : ∀ key, (reducedBook s.book fill kept key).isSome → (s.book key).isSome := by
    intro key hkey
    by_cases heq : key = (fill.symbol, fill.positionSide)
    · rw [heq, hkept]
      rfl
    · unfold reducedBook at hkey
      rw [PositionBook.update_of_ne heq] at hkey
      exact hkey
  have hlong := hsome (input.config.symbol, .long)
  have hshort := hsome (input.config.symbol, .short)
  unfold positionOf at hheld ⊢
  cases hl : reducedBook s.book fill kept (input.config.symbol, .long) with
  | none => exact ⟨_, rfl⟩
  | some long =>
    cases hs : reducedBook s.book fill kept (input.config.symbol, .short) with
    | none => exact ⟨_, rfl⟩
    | some short =>
      -- then both were held before
      rw [hl] at hlong
      rw [hs] at hshort
      obtain ⟨long', hlong'⟩ := Option.isSome_iff_exists.1 (hlong rfl)
      obtain ⟨short', hshort'⟩ := Option.isSome_iff_exists.1 (hshort rfl)
      rw [hlong', hshort'] at hheld
      cases hheld

section Recording

variable {α : Type} {row : EvidenceRecord} {m : PUnit → EngineProgram PUnit}

/-- A program that starts by recording a row goes through exactly when the sink takes the row and
the rest goes through. -/
theorem exists_record_bind : (∃ s', (record input row >>= m) s = .ok ⟨⟩ s') ↔
    input.sink s.records row = .ok ⟨⟩ ∧
      ∃ s', m ⟨⟩ { s with records := s.records ++ [row] } = .ok ⟨⟩ s' := by
  simp only [bind_eq_ok, record_eq_ok_iff]
  constructor
  · rintro ⟨s', _, _, ⟨htaken, rfl⟩, hrest⟩
    exact ⟨htaken, s', hrest⟩
  · rintro ⟨htaken, s', hrest⟩
    exact ⟨s', ⟨⟩, _, ⟨htaken, rfl⟩, hrest⟩

theorem exists_forEach_bind {items : List α} {f : α → EvidenceRecord} :
    (∃ s', (forEach items (fun item => record input (f item)) >>= m) s = .ok ⟨⟩ s') ↔
      TakesAll input.sink s.records (items.map f) ∧
        ∃ s', m ⟨⟩ { s with records := s.records ++ items.map f } = .ok ⟨⟩ s' := by
  simp only [bind_eq_ok, forEach_record_eq_ok]
  constructor
  · rintro ⟨s', _, _, ⟨htaken, rfl⟩, hrest⟩
    exact ⟨htaken, s', hrest⟩
  · rintro ⟨htaken, s', hrest⟩
    exact ⟨s', ⟨⟩, _, ⟨htaken, rfl⟩, hrest⟩

theorem recordFeature_eq_ok {tradeId : ℕ} {item : FeaturePhase × ℤ × Features × Option Decimal}
    {u : PUnit} : recordFeature input tradeId item s = .ok u s' ↔
      input.sink s.records (featureRecord tradeId (s.sequence .tfs + 1) item) = .ok ⟨⟩ ∧
        s' = { s with
          sequence := Function.update s.sequence .tfs (s.sequence .tfs + 1)
          records := s.records ++ [featureRecord tradeId (s.sequence .tfs + 1) item] } := by
  have hnext : next .tfs s = .ok (s.sequence .tfs + 1) { s with
      sequence := Function.update s.sequence .tfs (s.sequence .tfs + 1) } := by
    unfold next
    rw [modify_bind_apply, get_bind_apply]
    simp only [Function.update_self, pure_apply]
  unfold recordFeature
  rw [bind_apply_of_ok hnext, record_eq_ok_iff]
  rfl

/-- The features of a trade are recorded exactly when the sink takes their rows. -/
theorem exists_recordFeatures_iff (tradeId : ℕ)
    (items : List (FeaturePhase × ℤ × Features × Option Decimal)) (s : EngineState) :
    (∃ s', forEach items (recordFeature input tradeId) s = .ok ⟨⟩ s') ↔
      TakesAll input.sink s.records (featureRecords tradeId (s.sequence .tfs) items) := by
  induction items generalizing s with
  | nil => exact ⟨fun _ => trivial, fun _ => ⟨s, rfl⟩⟩
  | cons item items ih =>
    unfold featureRecords TakesAll
    simp only [forEach_cons, bind_eq_ok, recordFeature_eq_ok]
    -- the next number is one higher
    have hlater := ih { s with
      sequence := Function.update s.sequence .tfs (s.sequence .tfs + 1)
      records := s.records ++ [featureRecord tradeId (s.sequence .tfs + 1) item] }
    dsimp only at hlater
    rw [Function.update_self] at hlater
    rw [← hlater]
    constructor
    · rintro ⟨s', _, _, ⟨htaken, rfl⟩, hrest⟩
      exact ⟨htaken, s', hrest⟩
    · rintro ⟨htaken, s', hrest⟩
      exact ⟨s', ⟨⟩, _, ⟨htaken, rfl⟩, hrest⟩

end Recording

/-- **Completing a trade** goes through exactly when the trade can be built and the sink takes its
rows. -/
theorem exists_completeTrade_iff (executionId : ℕ) (s : EngineState) :
    (∃ s', completeTrade input active fill executionId s = .ok ⟨⟩ s') ↔
      ∃ trade, completedTrade input active fill = .ok trade ∧
        TakesAll input.sink s.records (completedRows input s fill active executionId trade) := by
  -- the rows follow each other, whatever the trades kept in memory
  have hrows : ∀ (trade : Trade) (s : EngineState),
      (∃ s', (record input (.trade (tradeRow active executionId trade)) >>= fun _ =>
          forEach active.positionRecords (fun row => record input (.position row)) >>= fun _ =>
          forEach active.fundingRecords (fun row => record input (.funding row)) >>= fun _ =>
          forEach active.candidateId.toList (fun candidateId =>
            record input (.candidate (realizedCandidate active candidateId))) >>= fun _ =>
          get >>= fun state : EngineState =>
          forEach (featureRows active fill (state.board.features input.series.specs))
            (recordFeature input active.tradeId)) s = .ok ⟨⟩ s') ↔
        TakesAll input.sink s.records (completedRows input s fill active executionId trade) := by
    intro trade s
    rw [exists_record_bind, exists_forEach_bind, exists_forEach_bind, exists_forEach_bind]
    simp only [get_bind_apply, exists_recordFeatures_iff]
    unfold completedRows completionRows
    simp only [takesAll_cons, takesAll_append, List.append_assoc]
  unfold completeTrade
  constructor
  · rintro ⟨s', hrun⟩
    rw [bind_eq_ok] at hrun
    obtain ⟨trade, _, hbuilt, hrest⟩ := hrun
    obtain ⟨htrade, rfl⟩ := runPure_eq_ok.1 hbuilt
    -- the trade is kept in memory before its rows are recorded
    rw [modify_bind_apply] at hrest
    exact ⟨trade, htrade, (hrows trade { s with trades := s.trades ++ [trade] }).1 ⟨s', hrest⟩⟩
  · rintro ⟨trade, htrade, htaken⟩
    rw [bind_apply_of_ok (runPure_eq_ok.2 ⟨htrade, rfl⟩), modify_bind_apply]
    exact (hrows trade { s with trades := s.trades ++ [trade] }).2 htaken

/-- The exit is finished exactly when a trade of which nothing is left can be completed. -/
theorem exists_finishExit_iff {remaining : Option Position} (executionId : ℕ)
    (hremaining : positionOf input s.book = .ok remaining) :
    (∃ s', finishExit input active fill executionId s = .ok ⟨⟩ s') ↔
      (remaining = none → ∃ trade, completedTrade input active fill = .ok trade ∧
        TakesAll input.sink s.records (completedRows input s fill active executionId trade)) := by
  unfold finishExit
  rw [bind_apply_of_ok (currentPosition_eq_ok.2 ⟨hremaining, rfl⟩)]
  cases remaining with
  | some left => exact ⟨fun _ hnone => (nomatch hnone), fun _ => ⟨_, rfl⟩⟩
  | none =>
    rw [← exists_completeTrade_iff]
    constructor
    · rintro ⟨s', hrun⟩ -
      rw [bind_eq_ok] at hrun
      obtain ⟨_, s₁, hcomplete, -⟩ := hrun
      exact ⟨s₁, hcomplete⟩
    · intro hcomplete
      obtain ⟨s₁, hcomplete⟩ := hcomplete rfl
      exact ⟨_, (bind_apply_of_ok hcomplete).trans rfl⟩

/-- A reducing fill goes through the book exactly when the position at its key is no smaller. -/
theorem apply_of_reducing {book : PositionBook} (hreduce : fill.reduceOnly = true) :
    PositionBook.apply fill none none .futures 0 s.book = .ok ⟨⟩ book ↔
      ∃ kept, s.book (fill.symbol, fill.positionSide) = some kept ∧
        fill.quantity ≤ kept.quantity ∧ book = reducedBook s.book fill kept := by
  have hquantity := fill.isMoney_quantity.quantizeAmount_eq
  rw [PositionBook.apply_of_reduceOnly hreduce]
  constructor
  · rintro ⟨released, hbook⟩
    obtain ⟨-, kept, kept', hkept, hreduction, rfl⟩ := PositionBook.reduce_eq_ok.1 hbook
    obtain ⟨-, hle, -, -, rfl⟩ := Position.reduceQuantity_eq_ok.1 hreduction
    rw [hquantity] at hle ⊢
    exact ⟨kept, hkept, hle, rfl⟩
  · rintro ⟨kept, hkept, hle, rfl⟩
    refine ⟨kept.releasedBy fill.quantity, PositionBook.reduce_eq_ok.2
      ⟨hreduce, kept, kept.reducedBy fill.quantity, hkept, ?_, rfl⟩⟩
    rw [Position.reduceQuantity_eq_ok, hquantity]
    exact ⟨fill.quantity_pos, hle, validateTotalCost_reducedBy kept _, rfl, rfl⟩

/-- The steps of the exit branch. -/
theorem applyExit_steps {executionId : ℕ} :
    applyExit input fill held executionId s = .ok ⟨⟩ s' ↔
      ∃ position active book, held = some position ∧ s.activeTrade = some active ∧
        0 ≤ quantizeAmount (exitCash s.cash position fill) ∧
        PositionBook.apply fill none none .futures 0 s.book = .ok ⟨⟩ book ∧
        finishExit input (ActiveTrade.addCosts active fill) fill executionId
          (exited s (quantizeAmount (exitCash s.cash position fill)) book
            (ActiveTrade.addCosts active fill)) = .ok ⟨⟩ s' := by
  unfold applyExit checkedCash
  rw [get_bind_apply]
  -- without an active trade or a position the exit raises
  cases hactive : s.activeTrade with
  | none => cases held <;> simp
  | some active =>
    cases held with
    | none => simp
    | some position =>
      simp only [bind_eq_ok, modify_bind_apply, runPure_eq_ok, onBook_eq_ok, Except.bind_eq_ok,
        require_eq_ok]
      constructor
      · rintro ⟨_, _, ⟨⟨-, hcash, hnormalized⟩, rfl⟩, _, _, ⟨book, hbook, rfl⟩, hfinish⟩
        cases hnormalized
        exact ⟨position, active, book, rfl, rfl, hcash, hbook, hfinish⟩
      · rintro ⟨_, _, book, hposition, hheld, hcash, hbook, hfinish⟩
        cases hposition
        cases hheld
        exact ⟨_, _, ⟨⟨⟨⟩, hcash, rfl⟩, rfl⟩, ⟨⟩, _, ⟨book, hbook, rfl⟩, hfinish⟩

/-- **The exit branch** ends normally exactly for an admitted exit. -/
theorem applyExit_iff {executionId : ℕ} (hreduce : fill.reduceOnly = true)
    (hheld : positionOf input s.book = .ok held) :
    (∃ s', applyExit input fill held executionId s = .ok ⟨⟩ s') ↔
      ∃ position active, held = some position ∧ s.activeTrade = some active ∧
        ExitAdmitted input s fill position active executionId := by
  constructor
  · rintro ⟨s', hrun⟩
    obtain ⟨position, active, book, rfl, hactive, hcash, hbook, hfinish⟩ :=
      applyExit_steps.1 hrun
    obtain ⟨kept, hkept, hle, rfl⟩ := (apply_of_reducing hreduce).1 hbook
    obtain ⟨remaining, hremaining⟩ := exists_positionOf_reduced hheld hkept
    refine ⟨position, active, rfl, hactive, hcash, kept, hkept, hle, fun hnone => ?_⟩
    rw [hremaining] at hnone
    cases hnone
    exact (exists_finishExit_iff
      (s := exited s (quantizeAmount (exitCash s.cash position fill))
        (reducedBook s.book fill kept) (ActiveTrade.addCosts active fill)) executionId
      hremaining).1 ⟨s', hfinish⟩ rfl
  · rintro ⟨position, active, rfl, hactive, hcash, kept, hkept, hle, htrade⟩
    obtain ⟨remaining, hremaining⟩ := exists_positionOf_reduced hheld hkept
    have hbook := (apply_of_reducing hreduce).2 ⟨kept, hkept, hle, rfl⟩
    -- what is left decides whether the trade is completed
    obtain ⟨s', hfinish⟩ := (exists_finishExit_iff
      (s := exited s (quantizeAmount (exitCash s.cash position fill))
        (reducedBook s.book fill kept) (ActiveTrade.addCosts active fill)) executionId
      hremaining).2 fun hnone => htrade (hremaining.trans (congrArg Except.ok hnone))
    exact ⟨s', applyExit_steps.2 ⟨position, active, _, rfl, hactive, hcash, hbook, hfinish⟩⟩

/-! ### Entries -/

/-- The position at the key of an entry fill, increased by it. -/
def increasedPosition (kept : Position) (fill : Fill) : Position :=
  let newQuantity := quantizeAmount (kept.quantity + fill.quantity)
  let newTotalCost := quantizeAmount (kept.totalCost + fill.quantity * fill.price)
  { kept with
    quantity := newQuantity
    totalCost := newTotalCost
    averagePrice := quantizePrice (newTotalCost / newQuantity)
    entryPrice := quantizePrice (newTotalCost / newQuantity)
    margin := quantizeAmount (kept.margin +
      match kept.marketType with
      | .futures => fill.quantity * fill.price / kept.leverage
      | .spot => fill.quantity * fill.price) }

/-- A fill at a held key increases the position there. -/
theorem apply_of_held {leverage : Option ℕ} {marginType : Option MarginType}
    {marketType : MarketType} {level : Decimal} {book book' : PositionBook} {kept : Position}
    (hentry : fill.reduceOnly = false)
    (hkept : book (fill.symbol, fill.positionSide) = some kept) :
    PositionBook.apply fill leverage marginType marketType level book = .ok ⟨⟩ book' ↔
      (increasedPosition kept fill).validateTotalCost = .ok ⟨⟩ ∧
        book' = book.update (fill.symbol, fill.positionSide)
          (some (increasedPosition kept fill)) := by
  have hquantity := fill.isMoney_quantity.quantizeAmount_eq
  have hprice := fill.isMoney_price.quantizeAmount_eq
  unfold PositionBook.apply PositionBook.weightedAverage Position.addQuantity
  -- an entry to a held side takes the branch that increases
  simp only [get_bind_apply, hentry, hkept, Bool.false_eq_true, if_false, if_true,
    Option.isSome_some, bind_eq_ok, raiseUnless_eq_ok, PositionBook.onPosition_eq_ok, modify_apply,
    Position.checkTotalCost_eq_ok, quantizePrice_eq, hquantity, hprice, EStateM.Result.ok.injEq]
  constructor
  · rintro ⟨_, _, ⟨-, rfl⟩, _, _, ⟨-, rfl⟩, position, _, hposition, ⟨_, _, ⟨_, _, ⟨-, rfl⟩, _, _,
      ⟨-, rfl⟩, _, _, ⟨-, rfl⟩, rfl, hcost⟩, -, rfl⟩, rfl⟩
    rw [hkept] at hposition
    cases hposition
    exact ⟨hcost, rfl⟩
  · rintro ⟨hcost, rfl⟩
    exact ⟨⟨⟩, _, ⟨trivial, rfl⟩, ⟨⟩, _, ⟨trivial, rfl⟩, kept, _, hkept, ⟨⟨⟩, _, ⟨⟨⟩, _,
      ⟨fill.quantity_pos, rfl⟩, ⟨⟩, _, ⟨fill.price_pos, rfl⟩, ⟨⟩, _, ⟨trivial, rfl⟩, rfl, hcost⟩,
      trivial, rfl⟩, rfl⟩

/-- The position that an entry fill leaves at its key can be built: a liquidation price, and a
position that is opened at a free key or increased at a held one. -/
def IsEntered (input : RunInput) (s : EngineState) (fill : Fill) (signal : Option TradingSignal)
    (position : Position) : Prop :=
  ∃ level, entryLiquidationPrice input fill (leverageOf signal) = .ok level ∧
    match s.book (fill.symbol, fill.positionSide) with
    | none => 0 < leverageOf signal ∧ (PositionBook.openedPosition fill (leverageOf signal)
        .isolated input.config.marketType level).postInit = .ok position
    | some kept => (increasedPosition kept fill).validateTotalCost = .ok ⟨⟩ ∧
        position = increasedPosition kept fill

/-- **What an entry asks of the state before it**: a position at its key, a movement of the run's
margin that is the projected one, and a trade to book it on or a signal to start one. -/
structure EntryAdmitted (input : RunInput) (s : EngineState) (fill : Fill)
    (signal : Option TradingSignal) (held : Option Position) : Prop where
  accounted : ∃ position after, IsEntered input s fill signal position ∧
    positionOf input (s.book.update (fill.symbol, fill.positionSide) (some position)) =
      .ok (some after) ∧
    quantizeAmount (s.cash - quantizeAmount (after.margin - (held.map (·.margin)).getD 0) -
      fill.fee) = projectedEntryCash input s.cash fill (leverageOf signal)
  origin : s.activeTrade = none → signal.isSome

/-- The book takes an entry fill exactly when the position can be built. -/
theorem exists_applied_iff {book : PositionBook} (hentry : fill.reduceOnly = false) :
    (∃ level, entryLiquidationPrice input fill (leverageOf signal) = .ok level ∧
      PositionBook.apply fill (some (leverageOf signal)) (some .isolated)
        input.config.marketType level s.book = .ok ⟨⟩ book) ↔
      ∃ position, IsEntered input s fill signal position ∧
        book = s.book.update (fill.symbol, fill.positionSide) (some position) := by
  unfold IsEntered
  cases hkey : s.book (fill.symbol, fill.positionSide) with
  | none =>
    simp only [PositionBook.apply_of_free hentry hkey]
    constructor
    · rintro ⟨level, hlevel, hleverage, position, hposition, rfl⟩
      exact ⟨position, ⟨level, hlevel, hleverage, hposition⟩, rfl⟩
    · rintro ⟨position, ⟨level, hlevel, hleverage, hposition⟩, rfl⟩
      exact ⟨level, hlevel, hleverage, position, hposition, rfl⟩
  | some kept =>
    simp only [apply_of_held hentry hkey]
    constructor
    · rintro ⟨level, hlevel, hcost, rfl⟩
      exact ⟨_, ⟨level, hlevel, hcost, rfl⟩, rfl⟩
    · rintro ⟨_, ⟨level, hlevel, hcost, rfl⟩, rfl⟩
      exact ⟨level, hlevel, hcost, rfl⟩

/-- Booking the entry ends normally when there is a trade or a signal. -/
theorem exists_recordEntry (input : RunInput) (fill : Fill) (executionId : ℕ)
    (candidateId : Option ℕ) (horigin : s.activeTrade = none → signal.isSome) :
    ∃ s', recordEntry input fill executionId signal candidateId s = .ok ⟨⟩ s' := by
  unfold recordEntry
  rw [get_bind_apply]
  cases hactive : s.activeTrade with
  | some active => exact ⟨_, rfl⟩
  | none =>
    obtain ⟨origin, rfl⟩ := Option.isSome_iff_exists.1 (horigin hactive)
    exact ⟨_, rfl⟩

/-- **The entry branch** ends normally exactly for an admitted entry. -/
theorem applyEntry_iff {executionId : ℕ} (hentry : fill.reduceOnly = false)
    (hfunds : 0 ≤ projectedEntryCash input s.cash fill (leverageOf signal)) :
    (∃ s', applyEntry input fill held (projectedEntryCash input s.cash fill (leverageOf signal))
        executionId signal candidateId s = .ok ⟨⟩ s') ↔
      EntryAdmitted input s fill signal held := by
  constructor
  · rintro ⟨s', hrun⟩
    obtain ⟨level, book, after, hlevel, hbook, hafter, -, hcash, hend⟩ := applyEntry_eq_ok hrun
    obtain ⟨position, hposition, rfl⟩ := (exists_applied_iff hentry).1 ⟨level, hlevel, hbook⟩
    refine ⟨⟨position, after, hposition, hafter, hcash.symm⟩, ?_⟩
    intro hnone
    rcases hend with ⟨active, hactive, -⟩ | ⟨-, origin, tradeId, rfl, -⟩
    · rw [hnone] at hactive
      cases hactive
    · rfl
  · rintro ⟨⟨position, after, hposition, hafter, hcash⟩, horigin⟩
    obtain ⟨level, hlevel, hbook⟩ := (exists_applied_iff hentry).2 ⟨position, hposition, rfl⟩
    -- the projected cash is rounded already, so the check passes on it as it is
    have hmoney : quantizeAmount (projectedEntryCash input s.cash fill (leverageOf signal)) =
        projectedEntryCash input s.cash fill (leverageOf signal) := by
      rw [projectedEntryCash_eq, quantizeAmount_quantizeAmount]
    have hchecked : checkedCash (projectedEntryCash input s.cash fill (leverageOf signal))
        "entry fill" = .ok (projectedEntryCash input s.cash fill (leverageOf signal)) := by
      unfold checkedCash
      simp only [Except.bind_eq_ok, require_eq_ok, hmoney]
      exact ⟨⟨⟩, hfunds, rfl⟩
    obtain ⟨s', hrecord⟩ : ∃ s', recordEntry input fill executionId signal candidateId
        (entered s (projectedEntryCash input s.cash fill (leverageOf signal))
          (s.book.update (fill.symbol, fill.positionSide) (some position))) = .ok ⟨⟩ s' :=
      exists_recordEntry input fill executionId candidateId horigin
    refine ⟨s', ?_⟩
    -- every step of the branch goes through
    unfold applyEntry
    simp only [bind_eq_ok, runPure_eq_ok, onBook_eq_ok, currentPosition_eq_ok]
    refine ⟨level, _, ⟨hlevel, rfl⟩, ⟨⟩, _, ⟨_, hbook, rfl⟩, some after, _, ⟨hafter, rfl⟩, ?_⟩
    simp only [get_bind_apply, bind_eq_ok, raiseUnless_eq_ok, runPure_eq_ok, modify_bind_apply]
    refine ⟨⟨⟩, _, ⟨hcash, rfl⟩, _, _, ⟨?_, rfl⟩, hrecord⟩
    rw [hcash]
    exact hchecked

/-! ### Atomicity -/

/-- What a failed call may not touch. -/
structure Untouched (s s' : EngineState) : Prop where
  cash_eq : s'.cash = s.cash
  book_eq : s'.book = s.book
  activeTrade_eq : s'.activeTrade = s.activeTrade
  protection_eq : s'.protection = s.protection
  sequence_eq : s'.sequence = s.sequence
  records_eq : s'.records = s.records

/-- **Atomicity.** If applying the fill raises, the money state, the counters and the evidence are
as before the call. -/
def Atomic (input : RunInput) (s : EngineState) (fill : Fill) (decisionId : Option ℕ)
    (signal : Option TradingSignal) (candidateId : Option ℕ) : Prop :=
  ∀ fault s', applyFill input fill decisionId signal candidateId s = .error fault s' →
    Untouched s s'

/-- The sink takes the execution, and every check after it admits the fill. -/
def Admitted (input : RunInput) (s : EngineState) (fill : Fill) (decisionId : Option ℕ)
    (signal : Option TradingSignal) : Prop :=
  ExecutionTaken input s decisionId fill ∧ ∃ held, positionOf input s.book = .ok held ∧
    if fill.reduceOnly = true then
      ∃ position active, held = some position ∧ s.activeTrade = some active ∧
        ExitAdmitted input (executed s decisionId fill) fill position active
          (s.sequence .execution + 1)
    else EntryAdmitted input s fill signal held

/-- A fill that is raised on after its execution was numbered leaves the number behind. -/
theorem executionsOf_of_error {fault : Fault} (hheld : positionOf input s.book = .ok held)
    (hfunds : fill.reduceOnly = true ∨
      0 ≤ projectedEntryCash input s.cash fill (leverageOf signal))
    (h : applyFill input fill decisionId signal candidateId s = .error fault s') :
    executionsOf s' = executionsOf s + 1 := by
  rw [applyFill_of_not_refused hheld hfunds] at h
  rw [← executionsOf_numbered s]
  refine Frames.of_error ((keeps_record _).bind fun _ => ?_) h
  split
  · exact keeps_applyExit _
  · exact keeps_applyEntry _ _

/-- Past the first checks, the fill ends normally exactly when it is admitted. -/
theorem exists_applyFill_iff (decisionId candidateId : Option ℕ)
    (hheld : positionOf input s.book = .ok held)
    (hfunds : fill.reduceOnly = true ∨
      0 ≤ projectedEntryCash input s.cash fill (leverageOf signal)) :
    (∃ s', applyFill input fill decisionId signal candidateId s = .ok ⟨⟩ s') ↔
      Admitted input s fill decisionId signal := by
  unfold Admitted
  by_cases htaken : ExecutionTaken input s decisionId fill
  swap
  · -- the sink raises, so the fill does
    refine ⟨fun hrun => ?_, fun hadmitted => absurd hadmitted.1 htaken⟩
    obtain ⟨s', hrun⟩ := hrun
    rw [applyFill_of_not_refused hheld hfunds, bind_eq_ok] at hrun
    obtain ⟨_, _, hrecord, -⟩ := hrun
    exact absurd (record_eq_ok_iff.1 hrecord).1 htaken
  rw [hheld, applyFill_of_taken hheld hfunds htaken]
  simp only [htaken, true_and, Except.ok.injEq, exists_eq_left']
  by_cases hreduce : fill.reduceOnly = true
  · simp only [if_pos hreduce]
    exact applyExit_iff (s := executed s decisionId fill) hreduce hheld
  · simp only [if_neg hreduce]
    -- the execution is no part of what an entry asks for
    refine (applyEntry_iff (s := executed s decisionId fill)
      (Bool.eq_false_of_not_eq_true hreduce) (hfunds.resolve_left hreduce)).trans ?_
    exact ⟨fun h => ⟨h.accounted, h.origin⟩, fun h => ⟨h.accounted, h.origin⟩⟩

theorem zero_rate_nonneg : (0 : Decimal) ≤ 0 := le_rfl

theorem one_coin_pos : 0 < 1 := Nat.one_pos

theorem hundred_dollars_pos : 0 < 100 := Nat.succ_pos 99

/-- A futures run without costs. -/
def futuresRun : RunInput := freeRun .futures zero_rate_nonneg

/-- The run once a coin has been bought at one hundred, with ten times leverage and all of a cash
of ten. -/
def enteredState : EngineState :=
  finalState (applyFill futuresRun (PositionBook.wholeFill false 1 100 one_coin_pos
    hundred_dollars_pos) none (some (leveragedSignal .futures ten_pos_leverage)) none
    (initialState futuresRun 10))

/-- The coin is sold at eighty. -/
def gapExit : Fill := PositionBook.wholeFill true 1 80 (Nat.succ_pos _) (Nat.succ_pos _)

theorem gapExit_raises :
    endsWith (applyFill futuresRun gapExit none none none enteredState) (fun _ _ => true) =
        false ∧
      (finalState (applyFill futuresRun gapExit none none none enteredState)).records.length =
        enteredState.records.length + 1 := by
  decide +kernel

end Engine
end TradingSystem
