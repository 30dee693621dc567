import TradingSystem.Wallet.Ledger
import TradingSystem.Wallet.Ordering
import TradingSystem.Logic.Frame

/-!
# The wallet in memory and in its database

A wallet service holds its cash, its position and its open risk in memory and writes every
committed signal to a repository. `Service.runOnce` is one call over any repository;
`Database.repository` is the one over `wallet_db`, where a transaction is committed or
rolled back as a whole.

* `runOnce_atomic` — the memory changes exactly when the repository has stored the
  execution, and then it is what was stored.
* `accounted_of_reachable` — the accounting of every reachable memory.
* `stepAtomicity` — both.
-/

namespace TradingSystem
namespace Wallet

open Numeric Logic
open EStateM (Result)

/-! ### One call of the service -/

/-- The port of the wallet's database: each method answers, or raises. -/
structure Repository (σ : Type) where
  store : WalletExecution → Program Fault σ Bool
  recordConsumption : ℕ → SignalConsumptionStatus → ℤ → Program Fault σ Bool

/-- A wallet service: its memory, the outcome of its latest call and its repository. -/
structure Service (σ : Type) where
  memory : WalletState
  lastOutcome : Option SignalConsumptionStatus
  repository : σ

namespace Service

variable {σ : Type}

/-- Call a method of the repository. -/
def onRepository {α : Type} (method : Program Fault σ α) : Program Fault (Service σ) α :=
  zoom Service.repository (fun repository service => { service with repository := repository })
    method

/-- Note the outcome of a call. -/
def setOutcome (status : Option SignalConsumptionStatus) : Program Fault (Service σ) PUnit :=
  modify fun service => { service with lastOutcome := status }

/-- Give a signal a receipt without an execution. -/
def recordReceipt (repository : Repository σ) (message : PaperSignal)
    (status : SignalConsumptionStatus) : Program Fault (Service σ) (Option WalletExecution) := do
  let _ ← onRepository (repository.recordConsumption message.signalId status
    message.executionCandle.closeTime)
  setOutcome (some status)
  return none

/-- Store an execution, and only then take over the wallet it leads to. -/
def commit (repository : Repository σ) (message : PaperSignal) (execution : WalletExecution)
    (memory : WalletState) : Program Fault (Service σ) (Option WalletExecution) := do
  let stored ← onRepository (repository.store execution)
  if stored = true then do
    modify fun service => { service with memory := memory, lastOutcome := some .filled }
    return some execution
  else recordReceipt repository message .skipped

/-- What `run_once` does with the answer of `process`. -/
def conclude (repository : Repository σ) (message : PaperSignal) :
    Except WalletFault (WalletExecution × WalletState) →
      Program Fault (Service σ) (Option WalletExecution)
  | .error (.raised fault) => throw fault
  | .error (.rejected _) => recordReceipt repository message .rejected
  | .ok (execution, memory) => commit repository message execution memory

/-- `run_once`, for what the queue delivers. -/
def runOnce (config : WalletConfig) (repository : Repository σ)
    (received : Except Fault (Option PaperSignal)) :
    Program Fault (Service σ) (Option WalletExecution) := do
  setOutcome none
  let message ← runPure received
  match message with
  | none => return none
  | some message => do
    let service ← get
    conclude repository message (process config service.memory message)

end Service

/-! ### The wallet's database -/

/-- The balance row of a wallet. -/
structure AccountRow where
  cashBalance : Decimal
  totalEquity : Decimal
  updatedAt : ℤ

/-- The rows of one wallet. The position rows have the primary key of a position book. -/
structure Database where
  consumption : List (ℕ × SignalConsumptionStatus × ℤ)
  fills : List (ℕ × Fill)
  positions : PositionBook
  snapshots : List (ℕ × AccountingSnapshot)
  account : Option AccountRow

/-- What makes the database give up a transaction: a failed check of a row, a lost
connection. -/
structure Refusal where
  transaction : Database → WalletExecution → Option Fault
  receipt : Database → ℕ → Option Fault

namespace Database

/-- The tables as they are created. -/
def empty : Database := ⟨[], [], PositionBook.empty, [], none⟩

/-- `_INSERT_CONSUMPTION`: nothing where the signal has a receipt. -/
def insertConsumption (signalId : ℕ) (status : SignalConsumptionStatus) (consumedAt : ℤ)
    (database : Database) : Option Database :=
  if database.consumption.any fun row => row.1 = signalId then none
  else some { database with
    consumption := database.consumption ++ [(signalId, status, consumedAt)] }

/-- `_INSERT_FILL`: nothing where the signal has a fill of that leg. -/
def insertFill (signalId : ℕ) (database : Database) (fill : Fill) : Option Database :=
  if database.fills.any fun row => row.1 = signalId ∧ row.2.reduceOnly = fill.reduceOnly then none
  else some { database with fills := database.fills ++ [(signalId, fill)] }

/-- `_DELETE_POSITIONS`: the rows of a symbol, in either direction. -/
def deletePositions (symbol : String) (database : Database) : Database :=
  { database with
    positions := (database.positions.update (symbol, .long) none).update (symbol, .short) none }

def insertPosition (position : Option Position) (database : Database) : Database :=
  match position with
  | none => database
  | some position => { database with
      positions := database.positions.update (position.symbol, position.side) (some position) }

/-- `_INSERT_ACCOUNTING`: nothing where the signal has a snapshot. -/
def insertAccounting (signalId : ℕ) (accounting : AccountingSnapshot) (database : Database) :
    Option Database :=
  if database.snapshots.any fun row => row.1 = signalId then none
  else some { database with snapshots := database.snapshots ++ [(signalId, accounting)] }

def upsertAccount (accounting : AccountingSnapshot) (database : Database) : Database :=
  { database with account := some {
      cashBalance := accounting.cashBalance
      totalEquity := accounting.totalEquity
      updatedAt := accounting.occurredAt } }

/-- The rows a transaction leads to, unless an insertion finds its row there already. -/
def rowsAfter (execution : WalletExecution) (database : Database) : Option Database := do
  let consumed ← database.insertConsumption execution.signalId .filled
    execution.accounting.occurredAt
  let filled ← execution.fills.foldlM (insertFill execution.signalId) consumed
  let positioned := (filled.deletePositions execution.symbol).insertPosition execution.position
  let accounted ← positioned.insertAccounting execution.signalId execution.accounting
  return accounted.upsertAccount execution.accounting

/-- `store`: all rows of an execution or none of them. -/
def store (refusal : Refusal) (execution : WalletExecution) : Program Fault Database Bool :=
  fun database =>
    match refusal.transaction database execution with
    | some fault => .error fault database
    | none =>
      match database.rowsAfter execution with
      | none => .ok false database
      | some database' => .ok true database'

/-- The transaction of a receipt. -/
def insertReceipt (refusal : Refusal) (signalId : ℕ) (status : SignalConsumptionStatus)
    (consumedAt : ℤ) : Program Fault Database Bool :=
  fun database =>
    match refusal.receipt database signalId with
    | some fault => .error fault database
    | none =>
      match database.insertConsumption signalId status consumedAt with
      | none => .ok false database
      | some database' => .ok true database'

/-- `record_consumption`: a receipt without rows of a ledger. -/
def recordConsumption (refusal : Refusal) (signalId : ℕ) (status : SignalConsumptionStatus)
    (consumedAt : ℤ) : Program Fault Database Bool := do
  runPure (require (status ≠ .filled)
    (.valueError "filled consumption must be committed with its ledger"))
  insertReceipt refusal signalId status consumedAt

/-- `PostgresWalletRepository`. -/
def repository (refusal : Refusal) : Repository Database where
  store := store refusal
  recordConsumption := recordConsumption refusal

end Database

variable {σ : Type} {config : WalletConfig} {repository : Repository σ} {message : PaperSignal}
  {service : Service σ} {received : Except Fault (Option PaperSignal)} {cash : Decimal}

/-! ### Atomicity of a call -/

/-- What a call without a commit may do to the repository: give receipts, and try to store
what the repository does not take. -/
inductive Untouched (repository : Repository σ) : σ → σ → Prop
  | refl (s : σ) : Untouched repository s s
  | receipt {s s' : σ} (signalId : ℕ) (status : SignalConsumptionStatus) (consumedAt : ℤ) :
    Untouched repository s s' → Untouched repository s
      (finalState (repository.recordConsumption signalId status consumedAt s'))
  | refused {s s' : σ} (execution : WalletExecution) : Untouched repository s s' →
    (∀ stored, repository.store execution s' ≠ .ok true stored) →
    Untouched repository s (finalState (repository.store execution s'))

/-- A call that leaves cash, position and open risk exactly as before. -/
structure Quiet (repository : Repository σ) (service : Service σ)
    (outcome : Result Fault (Service σ) (Option WalletExecution)) : Prop where
  memory_eq : (finalState outcome).memory = service.memory
  lastOutcome_ne : (finalState outcome).lastOutcome ≠ some .filled
  returns_nothing : ∀ execution service', outcome ≠ .ok (some execution) service'
  untouched : Untouched repository service.repository (finalState outcome).repository

/-- **A call is atomic.** Unless its outcome is `filled`, it is quiet. When it is, the
repository has stored an execution, and the memory is what it says. -/
structure Atomic (config : WalletConfig) (repository : Repository σ) (service : Service σ)
    (outcome : Result Fault (Service σ) (Option WalletExecution)) : Prop where
  unchanged : (finalState outcome).lastOutcome ≠ some .filled → Quiet repository service outcome
  committed : (finalState outcome).lastOutcome = some .filled →
    ∃ message execution stored, outcome = .ok (some execution) (finalState outcome) ∧
      repository.store execution service.repository = .ok true stored ∧
      (finalState outcome).repository = stored ∧
      process config service.memory message = .ok (execution, (finalState outcome).memory) ∧
      IsCommitted config message execution service.memory (finalState outcome).memory

theorem Quiet.atomic {outcome : Result Fault (Service σ) (Option WalletExecution)}
    (h : Quiet repository service outcome) : Atomic config repository service outcome :=
  ⟨fun _ => h, fun heq => absurd heq h.lastOutcome_ne⟩

theorem Quiet.of_none {service' : Service σ} (hmemory : service'.memory = service.memory)
    (houtcome : service'.lastOutcome ≠ some .filled)
    (huntouched : Untouched repository service.repository service'.repository) :
    Quiet repository service (.ok none service') := by
  refine ⟨hmemory, houtcome, ?_, huntouched⟩
  intro execution service'' heq
  injection heq with hresult
  cases hresult

theorem Quiet.of_error {fault : Fault} {service' : Service σ}
    (hmemory : service'.memory = service.memory) (houtcome : service'.lastOutcome ≠ some .filled)
    (huntouched : Untouched repository service.repository service'.repository) :
    Quiet repository service (.error fault service') := by
  refine ⟨hmemory, houtcome, ?_, huntouched⟩
  intro execution service'' heq
  cases heq

/-- What a method of the repository leaves is the service with the repository it leaves. -/
theorem onRepository_eq_ok {α : Type} {method : Program Fault σ α} {a : α}
    {service' : Service σ} : Service.onRepository method service = .ok a service' ↔
      ∃ stored, method service.repository = .ok a stored ∧
        service' = { service with repository := stored } := zoom_eq_ok

theorem onRepository_eq_error {α : Type} {method : Program Fault σ α} {fault : Fault}
    {service' : Service σ} : Service.onRepository method service = .error fault service' ↔
      ∃ stored, method service.repository = .error fault stored ∧
        service' = { service with repository := stored } := zoom_eq_error

/-- A receipt without an execution is quiet. -/
theorem recordReceipt_quiet {status : SignalConsumptionStatus} {before : σ} (h : status ≠ .filled)
    (hbefore : service.lastOutcome ≠ some .filled)
    (huntouched : Untouched repository before service.repository) :
    Quiet repository { service with repository := before }
      (Service.recordReceipt repository message status service) := by
  unfold Service.recordReceipt
  cases hrun : repository.recordConsumption message.signalId status
      message.executionCandle.closeTime service.repository with
  | ok answer stored =>
    have hcall : Service.onRepository (repository.recordConsumption message.signalId status
        message.executionCandle.closeTime) service =
          .ok answer { service with repository := stored } :=
      onRepository_eq_ok.2 ⟨stored, hrun, rfl⟩
    -- a receipt writes no ledger row, also where it fails
    have hreceipt := huntouched.receipt message.signalId status message.executionCandle.closeTime
    rw [hrun] at hreceipt
    change Untouched repository before stored at hreceipt
    rw [bind_apply_of_ok hcall]
    exact Quiet.of_none rfl (fun heq => h (Option.some.inj heq)) hreceipt
  | error fault stored =>
    have hcall : Service.onRepository (repository.recordConsumption message.signalId status
        message.executionCandle.closeTime) service =
          .error fault { service with repository := stored } :=
      onRepository_eq_error.2 ⟨stored, hrun, rfl⟩
    have hreceipt := huntouched.receipt message.signalId status message.executionCandle.closeTime
    rw [hrun] at hreceipt
    change Untouched repository before stored at hreceipt
    rw [bind_apply_of_error hcall]
    exact Quiet.of_error rfl hbefore hreceipt

/-- A commit is quiet or follows a stored execution. -/
theorem commit_cases (repository : Repository σ) (message : PaperSignal)
    (execution : WalletExecution) (memory : WalletState) (service : Service σ)
    (hbefore : service.lastOutcome ≠ some .filled) :
    Quiet repository service (Service.commit repository message execution memory service) ∨
    ∃ stored, repository.store execution service.repository = .ok true stored ∧
      Service.commit repository message execution memory service =
        .ok (some execution) ⟨memory, some .filled, stored⟩ := by
  unfold Service.commit
  have hstart : Untouched repository service.repository service.repository := Untouched.refl _
  -- the store raises, refuses, or commits; only the last one moves the memory
  cases hstore : repository.store execution service.repository with
  | error fault stored =>
    have hcall : Service.onRepository (repository.store execution) service =
        .error fault { service with repository := stored } :=
      onRepository_eq_error.2 ⟨stored, hstore, rfl⟩
    have hrefused := hstart.refused execution (by simp [hstore])
    rw [hstore] at hrefused
    change Untouched repository service.repository stored at hrefused
    rw [bind_apply_of_error hcall]
    exact Or.inl (Quiet.of_error rfl hbefore hrefused)
  | ok answer stored =>
    have hcall : Service.onRepository (repository.store execution) service =
        .ok answer { service with repository := stored } :=
      onRepository_eq_ok.2 ⟨stored, hstore, rfl⟩
    rw [bind_apply_of_ok hcall]
    cases answer with
    | false =>
      have hrefused := hstart.refused execution (by simp [hstore])
      rw [hstore] at hrefused
      change Untouched repository service.repository stored at hrefused
      have hquiet : Quiet repository { ({ service with repository := stored } : Service σ) with
          repository := service.repository } (Service.recordReceipt repository message .skipped
            { service with repository := stored }) := recordReceipt_quiet nofun hbefore hrefused
      exact Or.inl hquiet
    | true => exact Or.inr ⟨stored, rfl, rfl⟩

/-- **Every call is atomic**, whatever the queue delivers and the repository answers. -/
theorem runOnce_atomic (config : WalletConfig) (repository : Repository σ) (service : Service σ)
    (received : Except Fault (Option PaperSignal)) :
    Atomic config repository service (Service.runOnce config repository received service) := by
  have hstart : Untouched repository service.repository service.repository := Untouched.refl _
  cases received with
  | error fault => exact Quiet.atomic (Quiet.of_error rfl nofun hstart)
  | ok received =>
    cases received with
    | none => exact Quiet.atomic (Quiet.of_none rfl nofun hstart)
    | some message =>
      change Atomic config repository service (Service.conclude repository message
        (process config service.memory message) { service with lastOutcome := none })
      cases hprocess : process config service.memory message with
      | error fault =>
        cases fault with
        | raised fault => exact Quiet.atomic (Quiet.of_error rfl nofun hstart)
        | rejected code =>
          -- a rejected signal leaves a receipt only
          have hquiet := @recordReceipt_quiet σ repository message
            { service with lastOutcome := none } .rejected service.repository nofun nofun hstart
          exact Quiet.atomic ⟨hquiet.memory_eq, hquiet.lastOutcome_ne, hquiet.returns_nothing,
            hquiet.untouched⟩
      | ok answer =>
        obtain ⟨execution, memory⟩ := answer
        -- an execution is committed whole or not at all
        obtain ⟨_, _, -, -, -, -, hcommitted⟩ := process_eq_ok hprocess
        rcases commit_cases repository message execution memory
            { service with lastOutcome := none } nofun with hquiet | ⟨stored, hstore, heq⟩
        · exact Quiet.atomic ⟨hquiet.memory_eq, hquiet.lastOutcome_ne, hquiet.returns_nothing,
            hquiet.untouched⟩
        · change Atomic config repository service (Service.commit repository message execution
            memory { service with lastOutcome := none })
          rw [heq]
          exact ⟨fun h => absurd rfl h, fun _ =>
            ⟨message, execution, stored, rfl, hstore, rfl, hprocess, hcommitted⟩⟩

/-! ### Reachable memories -/

/-- The memory of a new service: `__init__`. -/
def start (initialCash : Decimal) : Except Fault WalletState := do
  require (0 < quantizeAmount initialCash) (.valueError "initial_cash must be positive")
  return {
    cash := quantizeAmount initialCash
    position := none
    openRisk := none
    killSwitchEngaged := false }

/-- A service and the last execution it has returned. -/
structure Reported (σ : Type) where
  service : Service σ
  execution : Option WalletExecution

/-- The last execution after a call. -/
def lastExecution (before : Option WalletExecution)
    (outcome : Result Fault (Service σ) (Option WalletExecution)) : Option WalletExecution :=
  match outcome with
  | .ok (some execution) _ => some execution
  | .ok none _ => before
  | .error _ _ => before

/-- The uses of a service: calls for whatever the queue delivers, and the kill switch. -/
inductive Use (config : WalletConfig) (repository : Repository σ) :
    Reported σ → Reported σ → Prop
  | run {state : Reported σ} (received : Except Fault (Option PaperSignal)) :
    Use config repository state {
      service := finalState (Service.runOnce config repository received state.service)
      execution := lastExecution state.execution
        (Service.runOnce config repository received state.service) }
  | engageKillSwitch {state : Reported σ} :
    Use config repository state { state with
      service := { state.service with
        memory := { state.service.memory with killSwitchEngaged := true } } }

/-- The runs of one service over a repository. -/
def uses (config : WalletConfig) (repository : Repository σ) : TransitionSystem (Reported σ) where
  init state := (∃ initialCash, start initialCash = .ok state.service.memory) ∧
    state.service.lastOutcome = none ∧ state.execution = none
  step := Use config repository

/-- **The accounting of a memory**: cash is not negative, at most one position is open, and
cash plus its value is the equity, which is what the last execution reported. -/
structure Accounted (state : Reported σ) : Prop where
  cash_money : IsMoney state.service.memory.cash
  cash_nonneg : 0 ≤ state.service.memory.cash
  onePosition : ∀ key key', (bookOf state.service.memory.position key).isSome →
    (bookOf state.service.memory.position key').isSome → key = key'
  equity : recompute state.service.memory.cash state.service.memory.position =
    state.service.memory.cash + positionValue state.service.memory.position
  reported : ∀ execution ∈ state.execution,
    execution.accounting.totalEquity =
        state.service.memory.cash + positionValue state.service.memory.position ∧
      execution.accounting.cashBalance = state.service.memory.cash ∧
      execution.position = state.service.memory.position

theorem isMoney_positionValue (position : Option Position) : IsMoney (positionValue position) := by
  unfold positionValue
  split
  · exact isMoney_quantizeAmount _
  · split <;> exact isMoney_quantizeAmount _

/-- Equity is exact: both terms are money. -/
theorem recompute_eq_add (h : IsMoney cash) (position : Option Position) :
    recompute cash position = cash + positionValue position :=
  (h.add (isMoney_positionValue position)).quantizeAmount_eq

/-- The book of a wallet holds one position at most. -/
theorem bookOf_unique {current : Option Position} {key key' : PositionKey}
    (h : (bookOf current key).isSome) (h' : (bookOf current key').isSome) : key = key' := by
  cases current with
  | none => cases h
  | some position =>
    have hkey : ∀ {other : PositionKey}, (bookOf (some position) other).isSome →
        other = (position.symbol, position.side) := by
      intro other hother
      by_contra hne
      rw [bookOf_of_ne hne] at hother
      cases hother
    exact (hkey h).trans (hkey h').symm

theorem accounted_of_money {state : Reported σ} (hmoney : IsMoney state.service.memory.cash)
    (hnonneg : 0 ≤ state.service.memory.cash)
    (hreported : ∀ execution ∈ state.execution,
      execution.accounting.totalEquity =
          state.service.memory.cash + positionValue state.service.memory.position ∧
        execution.accounting.cashBalance = state.service.memory.cash ∧
        execution.position = state.service.memory.position) : Accounted state :=
  ⟨hmoney, hnonneg, fun _ _ => bookOf_unique, recompute_eq_add hmoney _, hreported⟩

/-- A quiet call reports no execution. -/
theorem Quiet.lastExecution {before : Option WalletExecution}
    {outcome : Result Fault (Service σ) (Option WalletExecution)}
    (h : Quiet repository service outcome) : lastExecution before outcome = before := by
  cases outcome with
  | ok result service' =>
    cases result with
    | none => rfl
    | some execution => exact absurd rfl (h.returns_nothing execution service')
  | error fault service' => rfl

/-- **Every reachable memory is accounted for.** -/
theorem accounted_of_reachable {state : Reported σ}
    (h : (uses config repository).Reachable state) : Accounted state := by
  refine h.invariant ?_ ?_
  · rintro state ⟨⟨initialCash, hstart⟩, -, hnone⟩
    unfold start at hstart
    simp only [Except.bind_eq_ok, require_eq_ok] at hstart
    obtain ⟨-, hpos, hmemory⟩ := hstart
    cases hmemory' : state.service.memory with
    | mk cash position openRisk killSwitch =>
      rw [hmemory'] at hmemory
      cases hmemory
      refine accounted_of_money ?_ ?_ ?_
      · rw [hmemory']
        exact isMoney_quantizeAmount _
      · rw [hmemory']
        exact hpos.le
      · rw [hnone]
        simp
  · intro state state' hinv hstep
    cases hstep with
    | engageKillSwitch => exact ⟨hinv.cash_money, hinv.cash_nonneg, hinv.onePosition, hinv.equity,
        hinv.reported⟩
    | run received =>
      have hatomic := runOnce_atomic config repository state.service received
      -- a filled run moves to the memory it stored, any other keeps it
      by_cases hfilled : (finalState (Service.runOnce config repository received
          state.service)).lastOutcome = some .filled
      · obtain ⟨message, execution, stored, houtcome, -, -, -, hcommitted⟩ :=
          hatomic.committed hfilled
        refine accounted_of_money hcommitted.cash_money hcommitted.cash_nonneg ?_
        intro reported hreported
        change reported ∈ lastExecution state.execution _ at hreported
        rw [houtcome] at hreported
        cases hreported
        refine ⟨?_, hcommitted.cash_eq, hcommitted.position_eq⟩
        rw [hcommitted.equity_eq, recompute_eq_add hcommitted.cash_money]
      · have hquiet := hatomic.unchanged hfilled
        have hmemory := hquiet.memory_eq
        refine accounted_of_money ?_ ?_ ?_
        · rw [hmemory]
          exact hinv.cash_money
        · rw [hmemory]
          exact hinv.cash_nonneg
        · change ∀ execution ∈ lastExecution state.execution _, _
          rw [hquiet.lastExecution, hmemory]
          exact hinv.reported

/-- **Wallet step atomicity**, for every repository: every call is atomic, and every
reachable memory is accounted for. -/
theorem stepAtomicity (config : WalletConfig) (repository : Repository σ) :
    (∀ service received, Atomic config repository service
      (Service.runOnce config repository received service)) ∧
    ∀ state, (uses config repository).Reachable state → Accounted state :=
  ⟨runOnce_atomic config repository, fun _ => accounted_of_reachable⟩

/-- A database that gives up nothing. -/
def Refusal.never : Refusal := ⟨fun _ _ => none, fun _ _ => none⟩

/-- The long entry of the first minute, to be executed in the second. -/
def entryMessage : PaperSignal where
  walletId := "paper"
  signalId := 1
  decisionCandle := minuteOf 0
  executionCandle := minuteOf 1
  signal := firstEntry.signal
  intent := .enter
  side := some .long

/-- A new wallet with ten thousand over an empty database. -/
def newService : Service Database where
  memory := {
    cash := 10000
    position := none
    openRisk := none
    killSwitchEngaged := false }
  lastOutcome := none
  repository := Database.empty

/-- The wallet after the first entry. -/
def enteredService : Service Database :=
  finalState (Service.runOnce paperWallet (Database.repository Refusal.never)
    (.ok (some entryMessage)) newService)

theorem enteredService_lastOutcome : enteredService.lastOutcome = some .filled := by decide +kernel

theorem start_tenThousand : start 10000 = .ok newService.memory := by
  have hmoney : IsMoney (10000 : Decimal) := ⟨1000000000000, by norm_num [qAmount]⟩
  unfold start
  rw [hmoney.quantizeAmount_eq]
  rfl

/-- The first entry is committed, and the wallet that holds it is accounted for. -/
theorem stepAtomicity_of_first_entry :
    enteredService.lastOutcome = some .filled ∧
    Accounted ⟨enteredService, lastExecution none (Service.runOnce paperWallet
      (Database.repository Refusal.never) (.ok (some entryMessage)) newService)⟩ := by
  refine ⟨enteredService_lastOutcome, (stepAtomicity paperWallet
    (Database.repository Refusal.never)).2 _ ?_⟩
  have hinit : (uses paperWallet (Database.repository Refusal.never)).Reachable
      ⟨newService, none⟩ := .init ⟨⟨10000, start_tenThousand⟩, rfl, rfl⟩
  exact hinit.step (Use.run (.ok (some entryMessage)))

end Wallet
end TradingSystem
