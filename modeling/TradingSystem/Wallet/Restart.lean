import TradingSystem.Wallet.Persistence

/-!
# Restarting the wallet

A restart builds a new service over the same database, and `__init__` reads none of it:
the new memory holds the initial cash and no position. A process that ends in the middle
of a call leaves the rows of before the call or those of after it, so restarts between
calls are all there are.

* `Consistent` — the memory is what the last commit wrote.
* `Rows` — the invariant of a service that does not restart.
* `alwaysConsistent_iff_careful` — a life is consistent throughout exactly when every
  restart finds the wallet as a new one is.
* `not_alwaysConsistent_of_restart` — a restart forgets a committed position.
-/

namespace TradingSystem
namespace Wallet

open Numeric Logic
open EStateM (Result)

/-! ### Lives of a wallet -/

/-- What happens to a wallet: a call for what the queue delivers, over a database that may
give up, the kill switch, and a restart. -/
inductive Event
  | run (refusal : Refusal) (received : Except Fault (Option PaperSignal))
  | engageKillSwitch
  | restart (initialCash : Decimal) (memory : WalletState)
      (started : start initialCash = .ok memory)

/-- The service after an event. -/
def Event.apply (config : WalletConfig) (service : Service Database) : Event → Service Database
  | .run refusal received =>
    finalState (Service.runOnce config (Database.repository refusal) received service)
  | .engageKillSwitch =>
    { service with memory := { service.memory with killSwitchEngaged := true } }
  | .restart _ memory _ => ⟨memory, none, service.repository⟩

/-- **Memory and rows agree**: the balance is the account row's, where there is one, and the
position rows are those of the position in memory. -/
structure Consistent (service : Service Database) : Prop where
  account_eq : ∀ account ∈ service.repository.account, account.cashBalance = service.memory.cash
  positions_eq : service.repository.positions = bookOf service.memory.position

/-- Memory and rows agree at the start of every event and after the last. -/
def AlwaysConsistent (config : WalletConfig) (service : Service Database) : List Event → Prop
  | [] => Consistent service
  | event :: events =>
    Consistent service ∧ AlwaysConsistent config (event.apply config service) events

/-- A restart is careful when the wallet holds no position, and nothing was committed yet or
its cash is what it is restarted with. -/
def Careful (service : Service Database) : Event → Prop
  | .restart initialCash _ _ => service.memory.position = none ∧
      (service.repository.account = none ∨ service.memory.cash = quantizeAmount initialCash)
  | _ => True

/-- Every restart of a life is careful. -/
def RestartsCarefully (config : WalletConfig) (service : Service Database) : List Event → Prop
  | [] => True
  | event :: events =>
    Careful service event ∧ RestartsCarefully config (event.apply config service) events

variable {config : WalletConfig} {service : Service Database} {refusal : Refusal}
  {database database' : Database} {execution : WalletExecution}

/-! ### Rows of one transaction -/

/-- The balance and position rows of two databases are the same. -/
def SameLedger (database database' : Database) : Prop :=
  database'.account = database.account ∧ database'.positions = database.positions

theorem SameLedger.refl (database : Database) : SameLedger database database := ⟨rfl, rfl⟩

theorem SameLedger.trans {database'' : Database} (h : SameLedger database database')
    (h' : SameLedger database' database'') : SameLedger database database'' :=
  ⟨h'.1.trans h.1, h'.2.trans h.2⟩

theorem sameLedger_of_insertConsumption {signalId : ℕ} {status : SignalConsumptionStatus}
    {consumedAt : ℤ} (h : database.insertConsumption signalId status consumedAt = some database') :
    SameLedger database database' := by
  unfold Database.insertConsumption at h
  split at h
  · cases h
  · cases h
    exact SameLedger.refl _

theorem sameLedger_of_insertFill {signalId : ℕ} {fill : Fill}
    (h : Database.insertFill signalId database fill = some database') :
    SameLedger database database' := by
  unfold Database.insertFill at h
  split at h
  · cases h
  · cases h
    exact SameLedger.refl _

theorem sameLedger_of_insertFills {signalId : ℕ} {fills : List Fill} :
    ∀ {database : Database}, fills.foldlM (Database.insertFill signalId) database = some database' →
      SameLedger database database' := by
  induction fills with
  | nil =>
    intro database h
    cases h
    exact SameLedger.refl _
  | cons fill fills ih =>
    intro database h
    rw [List.foldlM_cons, Option.bind_eq_bind, Option.bind_eq_some_iff] at h
    obtain ⟨next, hnext, h⟩ := h
    exact (sameLedger_of_insertFill hnext).trans (ih h)

/-- **The rows of a stored execution**: its balance, and its position in place of the
positions of its symbol. -/
theorem rowsAfter_eq_some (h : database.rowsAfter execution = some database') :
    database'.account = some {
      cashBalance := execution.accounting.cashBalance
      totalEquity := execution.accounting.totalEquity
      updatedAt := execution.accounting.occurredAt } ∧
    database'.positions =
      ((database.deletePositions execution.symbol).insertPosition
        execution.position).positions := by
  unfold Database.rowsAfter at h
  simp only [Option.bind_eq_bind, Option.bind_eq_some_iff] at h
  obtain ⟨consumed, hconsumed, filled, hfilled, accounted, haccounted, h⟩ := h
  cases h
  refine ⟨rfl, ?_⟩
  -- consumptions and fills touch neither account nor positions
  have hledger := (sameLedger_of_insertConsumption hconsumed).trans
    (sameLedger_of_insertFills hfilled)
  have hpositions : accounted.positions =
      ((filled.deletePositions execution.symbol).insertPosition execution.position).positions := by
    unfold Database.insertAccounting at haccounted
    split at haccounted
    · cases haccounted
    · cases haccounted
      rfl
  change accounted.positions = _
  rw [hpositions]
  unfold Database.insertPosition Database.deletePositions
  cases execution.position with
  | none => rw [hledger.2]
  | some position => rw [hledger.2]

theorem store_eq_ok_true (h : Database.store refusal execution database = .ok true database') :
    database.rowsAfter execution = some database' := by
  unfold Database.store at h
  split at h
  · cases h
  · split at h
    · cases h
    · next hrows =>
      cases h
      exact hrows

/-- What is not stored leaves no row. -/
theorem store_of_refused
    (h : ∀ stored, Database.store refusal execution database ≠ .ok true stored) :
    finalState (Database.store refusal execution database) = database := by
  unfold Database.store at h ⊢
  split
  · rfl
  · split
    · rfl
    · next hrefusal _ _ hrows =>
      rw [hrefusal, hrows] at h
      exact absurd rfl (h _)

/-- A receipt is no row of the ledger. -/
theorem sameLedger_recordConsumption (refusal : Refusal) (signalId : ℕ)
    (status : SignalConsumptionStatus) (consumedAt : ℤ) (database : Database) :
    SameLedger database
      (finalState (Database.recordConsumption refusal signalId status consumedAt database)) := by
  unfold Database.recordConsumption
  by_cases hstatus : status = .filled
  · subst hstatus
    exact SameLedger.refl _
  · have hrequire : require (status ≠ .filled)
        (.valueError "filled consumption must be committed with its ledger") = .ok () :=
      require_eq_ok.2 hstatus
    rw [hrequire, bind_apply_of_ok (runPure_ok () database)]
    unfold Database.insertReceipt
    split
    · exact SameLedger.refl _
    · split
      · exact SameLedger.refl _
      · next hrows => exact sameLedger_of_insertConsumption hrows

/-- Quiet calls write no row of the ledger. -/
theorem Untouched.sameLedger (h : Untouched (Database.repository refusal) database database') :
    SameLedger database database' := by
  induction h with
  | refl => exact SameLedger.refl _
  | receipt signalId status consumedAt _ ih =>
    exact ih.trans (sameLedger_recordConsumption ..)
  | refused execution _ hrefused ih =>
    have heq := store_of_refused hrefused
    change SameLedger _ (finalState (Database.store refusal execution _))
    rw [heq]
    exact ih

/-! ### Runs without a restart -/

/-- **The invariant**: memory and rows agree, and the position is one the wallet may trade. -/
structure Rows (config : WalletConfig) (service : Service Database) : Prop where
  consistent : Consistent service
  filed : Filed config.policy service.memory.position

/-- Deleting the rows of a symbol clears the book of a position of that symbol. -/
theorem deletePositions_positions {position : Option Position} {symbol : String}
    (hpositions : database.positions = bookOf position)
    (hsymbol : ∀ held ∈ position, held.symbol = symbol)
    (hside : ∀ held ∈ position, held.side ≠ .both) :
    (database.deletePositions symbol).positions = PositionBook.empty := by
  funext key
  unfold Database.deletePositions
  rw [hpositions]
  by_cases hshort : key = (symbol, .short)
  · rw [hshort]
    exact PositionBook.update_self ..
  · refine (PositionBook.update_of_ne hshort).trans ?_
    by_cases hlong : key = (symbol, .long)
    · rw [hlong]
      exact PositionBook.update_self ..
    · refine (PositionBook.update_of_ne hlong).trans ?_
      cases position with
      | none => rfl
      | some held =>
        refine bookOf_of_ne ?_
        intro heq
        rw [hsymbol held rfl] at heq
        -- a position of the symbol lies under one of the two keys
        cases hheld : held.side with
        | long => exact hlong (by rw [heq, hheld])
        | short => exact hshort (by rw [heq, hheld])
        | both => exact hside held rfl hheld

/-- **A committed call** leaves the rows of the memory it leaves. -/
theorem Rows.committed {service' : Service Database} (h : Rows config service)
    {message : PaperSignal}
    (hstore : Database.store refusal execution service.repository = .ok true service'.repository)
    (hprocess : process config service.memory message = .ok (execution, service'.memory))
    (hcommitted : IsCommitted config message execution service.memory service'.memory) :
    Rows config service' := by
  obtain ⟨hfiled, hbefore, hafter⟩ := process_filed h.filed hprocess
  obtain ⟨haccount, hpositions⟩ := rowsAfter_eq_some (store_eq_ok_true hstore)
  refine ⟨⟨?_, ?_⟩, hfiled⟩
  · rw [haccount]
    intro account hmem
    cases hmem
    exact hcommitted.cash_eq
  · have hcleared : (service.repository.deletePositions execution.symbol).positions =
        PositionBook.empty := by
      rw [hcommitted.symbol_eq]
      exact deletePositions_positions h.consistent.positions_eq hbefore
        fun held hmem => (h.filed held hmem).2
    rw [hpositions, hcommitted.position_eq]
    cases service'.memory.position with
    | none => exact hcleared
    | some position =>
      change (Database.deletePositions _ _).positions.update _ _ = _
      rw [hcleared]
      rfl

/-- A quiet call leaves memory and rows as they are. -/
theorem Rows.of_sameLedger {service' : Service Database} (h : Rows config service)
    (hmemory : service'.memory.cash = service.memory.cash ∧
      service'.memory.position = service.memory.position)
    (hledger : SameLedger service.repository service'.repository) : Rows config service' := by
  obtain ⟨hcash, hposition⟩ := hmemory
  refine ⟨⟨?_, ?_⟩, ?_⟩
  · rw [hledger.1, hcash]
    exact h.consistent.account_eq
  · rw [hledger.2, hposition]
    exact h.consistent.positions_eq
  · rw [hposition]
    exact h.filed

/-- **Calls keep memory and rows together.** -/
theorem Rows.run (h : Rows config service) (refusal : Refusal)
    (received : Except Fault (Option PaperSignal)) :
    Rows config ((Event.run refusal received).apply config service) := by
  have hatomic := runOnce_atomic config (Database.repository refusal) service received
  by_cases hfilled : (finalState (Service.runOnce config (Database.repository refusal) received
      service)).lastOutcome = some .filled
  · obtain ⟨message, execution, stored, -, hstore, hstored, hprocess, hcommitted⟩ :=
      hatomic.committed hfilled
    rw [← hstored] at hstore
    exact h.committed hstore hprocess hcommitted
  · have hquiet := hatomic.unchanged hfilled
    have hmemory := hquiet.memory_eq
    exact h.of_sameLedger ⟨congrArg WalletState.cash hmemory,
      congrArg WalletState.position hmemory⟩ hquiet.untouched.sameLedger

/-! ### Restarts -/

theorem start_cash {initialCash : Decimal} {memory : WalletState}
    (h : start initialCash = .ok memory) :
    memory.cash = quantizeAmount initialCash ∧ memory.position = none := by
  unfold start at h
  simp only [Except.bind_eq_ok, require_eq_ok] at h
  obtain ⟨-, -, hmemory⟩ := h
  cases hmemory
  exact ⟨rfl, rfl⟩

/-- **A restart is consistent exactly when it is careful.** -/
theorem Rows.restart_iff (h : Rows config service) {initialCash : Decimal} {memory : WalletState}
    (hstart : start initialCash = .ok memory) :
    Consistent ((Event.restart initialCash memory hstart).apply config service) ↔
      Careful service (.restart initialCash memory hstart) := by
  obtain ⟨hcash, hposition⟩ := start_cash hstart
  constructor
  · intro hconsistent
    have hpositions : service.repository.positions = bookOf memory.position :=
      hconsistent.positions_eq
    refine ⟨?_, ?_⟩
    · rw [h.consistent.positions_eq, hposition] at hpositions
      cases hheld : service.memory.position with
      | none => rfl
      | some position =>
        -- the book of a position is not empty at its own key
        have hself := @bookOf_self position
        rw [hheld] at hpositions
        rw [hpositions] at hself
        cases hself
    · cases haccount : service.repository.account with
      | none => exact Or.inl rfl
      | some account =>
        have hmem : account ∈ service.repository.account := by rw [haccount]; rfl
        exact Or.inr ((h.consistent.account_eq account hmem).symm.trans
          ((hconsistent.account_eq account hmem).trans hcash))
  · rintro ⟨hflat, hcareful⟩
    refine ⟨?_, ?_⟩
    · intro account hmem
      change account ∈ service.repository.account at hmem
      change account.cashBalance = memory.cash
      rcases hcareful with hnone | heq
      · rw [hnone] at hmem
        cases hmem
      · rw [h.consistent.account_eq account hmem, heq, hcash]
    · change service.repository.positions = bookOf memory.position
      rw [h.consistent.positions_eq, hflat, hposition]

/-- An event that is careful keeps memory and rows together, and only such an event does. -/
theorem Rows.apply_iff (h : Rows config service) (event : Event) :
    (Careful service event → Rows config (event.apply config service)) ∧
      (Consistent (event.apply config service) → Careful service event) := by
  cases event with
  | run refusal received => exact ⟨fun _ => h.run refusal received, fun _ => trivial⟩
  | engageKillSwitch =>
    exact ⟨fun _ => h.of_sameLedger ⟨rfl, rfl⟩ (SameLedger.refl _), fun _ => trivial⟩
  | restart initialCash memory hstart =>
    refine ⟨fun hcareful => ⟨(h.restart_iff hstart).2 hcareful, ?_⟩, (h.restart_iff hstart).1⟩
    intro position hmem
    change position ∈ memory.position at hmem
    rw [(start_cash hstart).2] at hmem
    cases hmem

theorem alwaysConsistent_head {events : List Event}
    (h : AlwaysConsistent config service events) : Consistent service := by
  cases events with
  | nil => exact h
  | cons event events => exact h.1

/-- The induction over a life. -/
theorem Rows.alwaysConsistent_iff {events : List Event} :
    ∀ {service : Service Database}, Rows config service →
      (AlwaysConsistent config service events ↔ RestartsCarefully config service events) := by
  induction events with
  | nil => exact fun h => ⟨fun _ => trivial, fun _ => h.consistent⟩
  | cons event events ih =>
    intro service h
    obtain ⟨hkeeps, honly⟩ := h.apply_iff event
    constructor
    · rintro ⟨-, hrest⟩
      have hcareful := honly (alwaysConsistent_head hrest)
      exact ⟨hcareful, (ih (hkeeps hcareful)).1 hrest⟩
    · rintro ⟨hcareful, hrest⟩
      exact ⟨h.consistent, (ih (hkeeps hcareful)).2 hrest⟩

/-- **Restart consistency.** From a new wallet over an empty database, memory and rows agree
throughout a life exactly when every restart finds no position and the initial cash. -/
theorem alwaysConsistent_iff_careful {initialCash : Decimal} {memory : WalletState}
    (hstart : start initialCash = .ok memory) (events : List Event) :
    AlwaysConsistent config ⟨memory, none, Database.empty⟩ events ↔
      RestartsCarefully config ⟨memory, none, Database.empty⟩ events := by
  have hposition := (start_cash hstart).2
  have hrows : Rows config ⟨memory, none, Database.empty⟩ := by
    refine ⟨⟨nofun, ?_⟩, ?_⟩
    · change PositionBook.empty = bookOf memory.position
      rw [hposition]
      rfl
    · intro position hmem
      change position ∈ memory.position at hmem
      rw [hposition] at hmem
      cases hmem
  exact hrows.alwaysConsistent_iff

/-- Without a restart the wallet that enters is consistent throughout. -/
theorem alwaysConsistent_of_entry : AlwaysConsistent paperWallet newService
    [.run Refusal.never (.ok (some entryMessage))] :=
  (alwaysConsistent_iff_careful start_tenThousand
    [.run Refusal.never (.ok (some entryMessage))]).2 ⟨trivial, trivial⟩

/-- **A restart forgets a position.** The wallet that enters and restarts holds nothing in
memory while its position row is there. -/
theorem not_alwaysConsistent_of_restart :
    ¬∀ (initialCash : Decimal) (memory : WalletState), start initialCash = .ok memory →
      ∀ events, AlwaysConsistent paperWallet ⟨memory, none, Database.empty⟩ events := by
  intro h
  have hlife := h 10000 newService.memory start_tenThousand
    [.run Refusal.never (.ok (some entryMessage)),
      .restart 10000 newService.memory start_tenThousand]
  have hrow : (enteredService.repository.positions ("BTCUSDT", .long)).isSome = true := by
    decide +kernel
  have hpositions : enteredService.repository.positions = bookOf none :=
    hlife.2.2.positions_eq
  rw [hpositions] at hrow
  cases hrow

end Wallet
end TradingSystem
