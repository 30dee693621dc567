import TradingSystem.Engine.Step
import TradingSystem.Execution.Fills

/-!
# What the operations of a run do

One inversion lemma for each operation of the candle loop: from a normal outcome, the
state before it, the state after it and what was recorded. Later modules derive every
invariant from these and never unfold an operation.

Most operations only record rows and advance counters around one change of the money
state; `Logs rows s s'` says that a part did nothing but that.
-/

namespace TradingSystem

open Numeric Logic

/-! ### Recording -/

/-- `s'` is `s` with rows recorded and counters advanced. -/
def Logs (rows : List EvidenceRecord) (s s' : EngineState) : Prop :=
  ∃ sequence, s' = { s with sequence := sequence, records := s.records ++ rows }

theorem Logs.refl (s : EngineState) : Logs [] s s := ⟨s.sequence, by simp⟩

theorem Logs.trans {rows rows' : List EvidenceRecord} {s₁ s₂ s₃ : EngineState}
    (h : Logs rows s₁ s₂) (h' : Logs rows' s₂ s₃) : Logs (rows ++ rows') s₁ s₃ := by
  obtain ⟨sequence, rfl⟩ := h
  obtain ⟨sequence', rfl⟩ := h'
  exact ⟨sequence', by simp⟩

section Frame

variable {rows : List EvidenceRecord} {s s' : EngineState} (h : Logs rows s s')
include h

theorem Logs.book_eq : s'.book = s.book := by
  obtain ⟨_, rfl⟩ := h
  rfl

theorem Logs.cash_eq : s'.cash = s.cash := by
  obtain ⟨_, rfl⟩ := h
  rfl

theorem Logs.activeTrade_eq : s'.activeTrade = s.activeTrade := by
  obtain ⟨_, rfl⟩ := h
  rfl

theorem Logs.protection_eq : s'.protection = s.protection := by
  obtain ⟨_, rfl⟩ := h
  rfl

theorem Logs.pending_eq : s'.pending = s.pending := by
  obtain ⟨_, rfl⟩ := h
  rfl

theorem Logs.board_eq : s'.board = s.board := by
  obtain ⟨_, rfl⟩ := h
  rfl

theorem Logs.records_eq : s'.records = s.records ++ rows := by
  obtain ⟨_, rfl⟩ := h
  rfl

end Frame

namespace Engine

variable {input : RunInput} {s s' : EngineState}

theorem next_eq_ok {counter : Counter} {n : ℕ} (h : next counter s = .ok n s') : Logs [] s s' := by
  unfold next at h
  simp only [bind_eq_ok, modify_apply, get_apply, pure_apply, EStateM.Result.ok.injEq] at h
  obtain ⟨_, _, ⟨-, rfl⟩, _, _, ⟨rfl, rfl⟩, -, rfl⟩ := h
  exact ⟨Function.update s.sequence counter (s.sequence counter + 1), by simp⟩

/-- A row is recorded exactly when the sink takes it. -/
theorem record_eq_ok_iff {row : EvidenceRecord} {u : PUnit} :
    record input row s = .ok u s' ↔ input.sink s.records row = .ok ⟨⟩ ∧
      s' = { s with records := s.records ++ [row] } := by
  unfold record
  simp only [get_bind_apply, bind_eq_ok, runPure_eq_ok, modify_apply, EStateM.Result.ok.injEq]
  constructor
  · rintro ⟨_, _, ⟨htaken, rfl⟩, -, rfl⟩
    exact ⟨htaken, rfl⟩
  · rintro ⟨htaken, rfl⟩
    exact ⟨⟨⟩, _, ⟨htaken, rfl⟩, trivial, rfl⟩

theorem record_eq_ok {row : EvidenceRecord} {u : PUnit} (h : record input row s = .ok u s') :
    Logs [row] s s' := by
  obtain ⟨-, rfl⟩ := record_eq_ok_iff.1 h
  exact ⟨s.sequence, rfl⟩

/-- The sink takes the rows, each after those before it. -/
def TakesAll (sink : EvidenceSink) (records : List EvidenceRecord) : List EvidenceRecord → Prop
  | [] => True
  | row :: rows => sink records row = .ok ⟨⟩ ∧ TakesAll sink (records ++ [row]) rows

theorem takesAll_cons {sink : EvidenceSink} {records rows : List EvidenceRecord}
    {row : EvidenceRecord} : TakesAll sink records (row :: rows) ↔
      sink records row = .ok ⟨⟩ ∧ TakesAll sink (records ++ [row]) rows := Iff.rfl

theorem takesAll_append {sink : EvidenceSink} {records rows later : List EvidenceRecord} :
    TakesAll sink records (rows ++ later) ↔
      TakesAll sink records rows ∧ TakesAll sink (records ++ rows) later := by
  induction rows generalizing records with
  | nil => simp [TakesAll]
  | cons row rows ih => simp [TakesAll, ih, and_assoc]

/-- A loop that records a row of each item ends normally exactly when the sink takes them all. -/
theorem forEach_record_eq_ok {α : Type} {items : List α} {f : α → EvidenceRecord} {u : PUnit} :
    forEach items (fun item => record input (f item)) s = .ok u s' ↔
      TakesAll input.sink s.records (items.map f) ∧
        s' = { s with records := s.records ++ items.map f } := by
  induction items generalizing s with
  | nil =>
    rw [List.map_nil, List.append_nil, forEach_nil, pure_apply, EStateM.Result.ok.injEq]
    exact ⟨fun h => ⟨trivial, h.2.symm⟩, fun h => ⟨rfl, h.2.symm⟩⟩
  | cons item items ih =>
    simp only [forEach_cons, bind_eq_ok, record_eq_ok_iff, ih, List.map_cons, TakesAll]
    constructor
    · rintro ⟨_, _, ⟨hrow, rfl⟩, hrest, rfl⟩
      exact ⟨⟨hrow, hrest⟩, by rw [List.append_assoc, List.singleton_append]⟩
    · rintro ⟨⟨hrow, hrest⟩, rfl⟩
      exact ⟨⟨⟩, _, ⟨hrow, rfl⟩, hrest, by rw [List.append_assoc, List.singleton_append]⟩

/-- A loop that records one row per item. -/
theorem forEach_logs {α : Type} {R : α → EvidenceRecord → Prop} {items : List α}
    {body : α → EngineProgram PUnit}
    (hbody : ∀ item ∈ items, ∀ s s', body item s = .ok ⟨⟩ s' → ∃ row, R item row ∧ Logs [row] s s')
    (h : forEach items body s = .ok ⟨⟩ s') :
    ∃ rows, List.Forall₂ R items rows ∧ Logs rows s s' := by
  induction items generalizing s with
  | nil =>
    cases h
    exact ⟨[], .nil, Logs.refl _⟩
  | cons item rest ih =>
    rw [forEach_cons, bind_eq_ok] at h
    obtain ⟨_, s₁, h₁, h₂⟩ := h
    obtain ⟨row, hrow, hlog⟩ := hbody item (List.mem_cons_self ..) s s₁ h₁
    obtain ⟨rows, hrows, hlogs⟩ := ih (fun x hx => hbody x (List.mem_cons_of_mem _ hx)) h₂
    exact ⟨row :: rows, .cons hrow hrows, hlog.trans hlogs⟩

theorem currentPosition_eq_ok {held : Option Position} :
    currentPosition input s = .ok held s' ↔ positionOf input s.book = .ok held ∧ s = s' := by
  unfold currentPosition
  rw [get_bind_apply, runPure_eq_ok]

theorem onBook_eq_ok {α : Type} {operation : Program Fault PositionBook α} {a : α} :
    onBook operation s = .ok a s' ↔
      ∃ book, operation s.book = .ok a book ∧ s' = { s with book := book } :=
  zoom_eq_ok

/-! ### Completing a trade -/

/-- The trade an exit fill completes. -/
theorem completedTrade_eq_ok {active : ActiveTrade} {fill : Fill} {trade : Trade}
    (h : completedTrade input active fill = .ok trade) :
    trade.Valid ∧ trade.entryPrice = active.entryFill.referencePrice ∧
      trade.entryQuantity = active.entryFill.quantity ∧
      trade.entryTime = active.entryFill.timestamp ∧
      trade.exitPrice = fill.referencePrice ∧ trade.exitQuantity = fill.quantity ∧
      trade.exitTime = fill.timestamp ∧ trade.r0 = active.r0.map quantizeAmount := by
  unfold completedTrade at h
  simp only [Except.bind_eq_ok] at h
  obtain ⟨ratio, -, h⟩ := h
  obtain ⟨rfl, hvalid⟩ := Trade.postInit_eq_ok h
  refine ⟨hvalid, ?_, ?_, rfl, ?_, ?_, rfl, rfl⟩
  · exact active.entryFill.isMoney_referencePrice.quantizeAmount_eq
  · exact active.entryFill.isMoney_quantity.quantizeAmount_eq
  · exact fill.isMoney_referencePrice.quantizeAmount_eq
  · exact fill.isMoney_quantity.quantizeAmount_eq

/-- The TRADE row of a completed trade. -/
def tradeRow (active : ActiveTrade) (exitExecutionId : ℕ) (trade : Trade) : TradeRow where
  tradeId := active.tradeId
  side := active.entryFill.positionSide
  entryExecutionId := active.entryExecutionId
  exitExecutionId := exitExecutionId
  trade := trade
  rMultiple := (perRisk trade.netPnl trade.r0).map toFloat

/-- A recorded feature row carries the phase, time and features it was asked for. -/
def IsFeatureRow (tradeId : ℕ) (item : FeaturePhase × ℤ × Features × Option Decimal)
    (record : EvidenceRecord) : Prop :=
  ∃ row : FeatureRow, record = .feature row ∧ row.tradeId = tradeId ∧ row.phase = item.1 ∧
    row.ts = item.2.1 ∧ row.features = item.2.2.1

/-- What completing a trade records: the trade, its buffered rows and its features. -/
def completionRows (active : ActiveTrade) (exitExecutionId : ℕ) (trade : Trade)
    (features : List EvidenceRecord) : List EvidenceRecord :=
  .trade (tradeRow active exitExecutionId trade) ::
    (active.positionRecords.map .position ++ active.fundingRecords.map .funding ++
      active.candidateId.toList.map (fun candidateId =>
        .candidate (realizedCandidate active candidateId)) ++ features)

private theorem forEach_record {α : Type} {items : List α} {f : α → EvidenceRecord}
    (h : forEach items (fun item => record input (f item)) s = .ok ⟨⟩ s') :
    Logs (items.map f) s s' := by
  obtain ⟨-, rfl⟩ := forEach_record_eq_ok.1 h
  exact ⟨s.sequence, rfl⟩

/-- **Completing a trade** appends it to the trades and records it with its rows. -/
theorem completeTrade_eq_ok {active : ActiveTrade} {fill : Fill} {exitExecutionId : ℕ}
    (h : completeTrade input active fill exitExecutionId s = .ok ⟨⟩ s') :
    ∃ trade features, completedTrade input active fill = .ok trade ∧
      List.Forall₂ (IsFeatureRow active.tradeId)
        (featureRows active fill (s.board.features input.series.specs)) features ∧
      Logs (completionRows active exitExecutionId trade features)
        { s with trades := s.trades ++ [trade] } s' := by
  unfold completeTrade at h
  simp only [bind_eq_ok, runPure_eq_ok, modify_apply, get_apply, EStateM.Result.ok.injEq] at h
  obtain ⟨trade, _, ⟨htrade, rfl⟩, _, _, ⟨-, rfl⟩, _, s₁, h₁, _, s₂, h₂, _, s₃, h₃, _, s₄, h₄,
    _, _, ⟨rfl, rfl⟩, h₅⟩ := h
  have hlog := (((record_eq_ok h₁).trans (forEach_record h₂)).trans (forEach_record h₃)).trans
    (forEach_record h₄)
  obtain ⟨features, hfeatures, hlast⟩ := forEach_logs (R := IsFeatureRow active.tradeId)
    (fun item _ s s' hrun => by
      unfold recordFeature at hrun
      rw [bind_eq_ok] at hrun
      obtain ⟨tfsId, s₁, hnext, hrecord⟩ := hrun
      exact ⟨_, ⟨_, rfl, rfl, rfl, rfl, rfl⟩, (next_eq_ok hnext).trans (record_eq_ok hrecord)⟩) h₅
  -- the rows before it leave the board as the features read it
  rw [hlog.board_eq] at hfeatures
  refine ⟨trade, features, htrade, hfeatures, ?_⟩
  have hall := hlog.trans hlast
  simpa only [completionRows, tradeRow, List.append_assoc, List.singleton_append,
    List.cons_append, List.nil_append] using hall

/-! ### Exits -/

/-- The state in which an exit leaves the money: cash received, book reduced, costs
booked on the active trade. -/
def exited (s : EngineState) (cash : Decimal) (book : PositionBook) (active : ActiveTrade) :
    EngineState :=
  { s with cash := cash, book := book, activeTrade := some active }

/-- The state after a trade has been closed. -/
def tradeClosed (s : EngineState) : EngineState :=
  { s with activeTrade := none, protection := { stopPrice := none, takeProfitPrice := none } }

/-- **The exit branch.** An exit fill needs an open position and an active trade; it
receives the exit cash, reduces the book and, when nothing is left, completes the
trade. -/
theorem applyExit_eq_ok {fill : Fill} {positionBefore : Option Position} {executionId : ℕ}
    (hreduce : fill.reduceOnly = true)
    (h : applyExit input fill positionBefore executionId s = .ok ⟨⟩ s') :
    ∃ position active cash released book remaining, positionBefore = some position ∧
      s.activeTrade = some active ∧
      cash = quantizeAmount (exitCash s.cash position fill) ∧ 0 ≤ cash ∧
      PositionBook.reduce fill s.book = .ok released book ∧
      positionOf input book = .ok remaining ∧
      ((∃ kept, remaining = some kept ∧
          s' = exited s cash book (ActiveTrade.addCosts active fill)) ∨
        (remaining = none ∧ ∃ trade features,
          completedTrade input (ActiveTrade.addCosts active fill) fill = .ok trade ∧
          List.Forall₂ (IsFeatureRow active.tradeId)
            (featureRows (ActiveTrade.addCosts active fill) fill
              (s.board.features input.series.specs)) features ∧
          Logs (completionRows (ActiveTrade.addCosts active fill) executionId trade features)
            (tradeClosed { exited s cash book (ActiveTrade.addCosts active fill) with
              trades := s.trades ++ [trade] }) s')) := by
  unfold applyExit at h
  rw [get_bind_apply] at h
  cases hactive : s.activeTrade with
  | none =>
    rw [hactive] at h
    cases positionBefore <;> cases h
  | some active =>
  cases positionBefore with
  | none =>
    rw [hactive] at h
    cases h
  | some position =>
    rw [hactive] at h
    simp only [bind_eq_ok, modify_bind_apply, runPure_eq_ok, onBook_eq_ok] at h
    obtain ⟨cash, _, ⟨hcash, rfl⟩, _, _, ⟨book, hbook, rfl⟩, h⟩ := h
    obtain ⟨released, hrun⟩ := (PositionBook.apply_of_reduceOnly hreduce).1 hbook
    -- the cash is checked before the book is reduced
    unfold checkedCash at hcash
    simp only [Except.bind_eq_ok, require_eq_ok] at hcash
    obtain ⟨-, hnonneg, hcash⟩ := hcash
    cases hcash
    unfold finishExit at h
    simp only [bind_eq_ok, currentPosition_eq_ok] at h
    obtain ⟨remaining, _, ⟨hremaining, rfl⟩, h⟩ := h
    refine ⟨position, active, _, released, book, remaining, rfl, rfl, rfl, hnonneg, hrun,
      hremaining, ?_⟩
    -- a remainder keeps its trade; a flat book completes it
    cases remaining with
    | some kept =>
      cases h
      exact Or.inl ⟨kept, rfl, rfl⟩
    | none =>
      right
      simp only [bind_eq_ok, modify_apply, EStateM.Result.ok.injEq] at h
      obtain ⟨_, s₁, hcomplete, -, rfl⟩ := h
      obtain ⟨trade, features, htrade, hfeatures, sequence, rfl⟩ := completeTrade_eq_ok hcomplete
      exact ⟨rfl, trade, features, htrade, hfeatures, sequence, rfl⟩

/-! ### Entries -/

/-- The state in which an entry leaves the money. -/
def entered (s : EngineState) (cash : Decimal) (book : PositionBook) : EngineState :=
  { s with cash := cash, book := book }

/-- **The entry branch.** An entry fill opens or increases a position, takes the projected
cash, and starts a trade unless one is active. -/
theorem applyEntry_eq_ok {fill : Fill} {positionBefore : Option Position} {projected : Decimal}
    {executionId : ℕ} {signal : Option TradingSignal} {candidateId : Option ℕ}
    (h : applyEntry input fill positionBefore projected executionId signal candidateId s =
      .ok ⟨⟩ s') :
    ∃ liquidation book positionAfter,
      entryLiquidationPrice input fill (leverageOf signal) = .ok liquidation ∧
      PositionBook.apply fill (some (leverageOf signal)) (some .isolated)
        input.config.marketType liquidation s.book = .ok ⟨⟩ book ∧
      positionOf input book = .ok (some positionAfter) ∧
      0 ≤ quantizeAmount projected ∧
      projected = quantizeAmount (s.cash - quantizeAmount
        (positionAfter.margin - (positionBefore.map (·.margin)).getD 0) - fill.fee) ∧
      ((∃ active, s.activeTrade = some active ∧
          s' = { entered s (quantizeAmount projected) book with
            activeTrade := some (ActiveTrade.addCosts active fill) }) ∨
        (s.activeTrade = none ∧ ∃ origin tradeId, signal = some origin ∧
          Logs [] { entered s (quantizeAmount projected) book with
            activeTrade := some (startedTrade tradeId executionId fill origin candidateId
              (s.board.features input.series.specs))
            protection := protectionOf origin } s')) := by
  unfold applyEntry at h
  simp only [bind_eq_ok, runPure_eq_ok, onBook_eq_ok, currentPosition_eq_ok] at h
  obtain ⟨liquidation, _, ⟨hliquidation, rfl⟩, _, _, ⟨book, hbook, rfl⟩, after, _,
    ⟨hafter, rfl⟩, h⟩ := h
  cases after with
  | none => cases h
  | some positionAfter =>
    simp only [get_bind_apply, bind_eq_ok, raiseUnless_eq_ok, runPure_eq_ok, modify_bind_apply] at h
    obtain ⟨_, _, ⟨hprojected, rfl⟩, cash, _, ⟨hcash, rfl⟩, h⟩ := h
    unfold checkedCash at hcash
    simp only [Except.bind_eq_ok, require_eq_ok] at hcash
    obtain ⟨-, hnonneg, hcash⟩ := hcash
    cases hcash
    rw [hprojected] at hnonneg h
    refine ⟨liquidation, book, positionAfter, hliquidation, hbook, hafter, hnonneg,
      hprojected.symm, ?_⟩
    unfold recordEntry at h
    rw [get_bind_apply] at h
    -- an active trade takes the costs; else the signal starts one
    cases hactive : s.activeTrade with
    | some active =>
      simp only [hactive, set_apply, EStateM.Result.ok.injEq] at h
      obtain ⟨-, rfl⟩ := h
      exact Or.inl ⟨active, rfl, rfl⟩
    | none =>
      right
      cases signal with
      | none =>
        simp only [hactive] at h
        cases h
      | some origin =>
        simp only [hactive] at h
        unfold openTrade at h
        simp only [bind_eq_ok, modify_apply, EStateM.Result.ok.injEq] at h
        obtain ⟨tradeId, s₁, hnext, -, rfl⟩ := h
        obtain ⟨sequence, rfl⟩ := next_eq_ok hnext
        exact ⟨rfl, origin, tradeId, rfl, sequence, by simp [entered]⟩

/-! ### Fills -/

/-- **Applying a fill** records its execution, then takes one of the two branches. -/
theorem applyFill_eq_ok {fill : Fill} {decisionId : Option ℕ} {signal : Option TradingSignal}
    {candidateId : Option ℕ}
    (h : applyFill input fill decisionId signal candidateId s = .ok ⟨⟩ s') :
    ∃ held executionId s₁, positionOf input s.book = .ok held ∧
      Logs [.execution (executionRow executionId decisionId fill)] s s₁ ∧
      if fill.reduceOnly then applyExit input fill held executionId s₁ = .ok ⟨⟩ s'
      else 0 ≤ projectedEntryCash input s.cash fill (leverageOf signal) ∧
        applyEntry input fill held (projectedEntryCash input s.cash fill (leverageOf signal))
          executionId signal candidateId s₁ = .ok ⟨⟩ s' := by
  unfold applyFill at h
  simp only [bind_eq_ok, currentPosition_eq_ok, get_bind_apply, raiseUnless_eq_ok] at h
  obtain ⟨held, _, ⟨hheld, rfl⟩, _, _, ⟨hprojected, rfl⟩, executionId, s₁, hnext, _, s₂, hrecord,
    h⟩ := h
  refine ⟨held, executionId, s₂, hheld, (next_eq_ok hnext).trans (record_eq_ok hrecord), ?_⟩
  -- an exit is applied without a check of the cash
  cases hreduce : fill.reduceOnly with
  | true =>
    rw [hreduce] at h
    exact h
  | false =>
    rw [hreduce] at h hprojected
    simp only [Bool.false_eq_true, false_or] at hprojected
    exact ⟨hprojected, h⟩

end Engine
end TradingSystem
