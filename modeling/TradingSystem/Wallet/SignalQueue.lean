import TradingSystem.Wallet.Resample
import TradingSystem.Wallet.Service
import TradingSystem.Logic.Transition

/-!
# The signal queue of a wallet

Three writers share three stores. The signal service inserts immutable signal rows, the
market data arrives minute by minute, and the wallet gives receipts. The wallet is the only
one that reads all three: `receive` takes the first row in the order of the ids that has no
receipt and whose execution candle is confirmed, and `runOnce` processes it.

* `system` — the interleavings of the three writers.
* `receive_eq_ok` — what the queue delivers.
* `RunOnce` — what a call of `runOnce` can do to the stores.
-/

namespace TradingSystem
namespace Wallet

open Logic

/-- A stored paper signal. Its symbol and its time are those of the signal. -/
@[ext] structure SignalRow where
  signalId : ℕ
  strategyId : String
  timeframe : Timeframe
  candleOpenTime : ℤ
  candleCloseTime : ℤ
  signal : TradingSignal
  intent : PaperIntent
  side : Option PositionSide
  signalId_pos : 0 < signalId
  candle_times : candleOpenTime < candleCloseTime
  signal_time : signal.timestamp ≤ candleCloseTime

instance : DecidableEq SignalRow := fun _ _ => decidable_of_iff' _ SignalRow.ext_iff

namespace SignalRow

def signalTime (row : SignalRow) : ℤ := row.signal.timestamp

/-- Rows of one strategy and symbol. -/
def SameMarket (row row' : SignalRow) : Prop :=
  row.strategyId = row'.strategyId ∧ row.signal.symbol = row'.signal.symbol

/-- One row is the older signal of the same strategy and symbol. -/
def Older (row row' : SignalRow) : Prop :=
  row.SameMarket row' ∧ row.signalTime < row'.signalTime

end SignalRow

/-- A terminal receipt. -/
structure Receipt where
  signalId : ℕ
  status : SignalConsumptionStatus
  consumedAt : ℤ
deriving DecidableEq

/-- The three stores and the wallet. Receipts are listed in the order of their commits. -/
structure World where
  signals : List SignalRow
  minutes : MinuteStore
  receipts : List Receipt
  wallet : WalletState

/-- Whether a signal has a receipt. -/
def World.consumed (world : World) (signalId : ℕ) : Prop :=
  ∃ receipt ∈ world.receipts, receipt.signalId = signalId

instance (world : World) (signalId : ℕ) : Decidable (world.consumed signalId) :=
  inferInstanceAs (Decidable (∃ receipt ∈ world.receipts, receipt.signalId = signalId))

/-! ### Receiving -/

/-- The decision candle of a row and the one after it, when both are confirmed. -/
def confirmedPair (minutes : MinuteStore) (row : SignalRow) : Option (Candle × Candle) := do
  let decision ← confirmedCandle minutes row.signal.symbol row.timeframe row.candleOpenTime
  let execution ← confirmedCandle minutes row.signal.symbol row.timeframe row.candleCloseTime
  if decision.closeTime = row.candleCloseTime then some (decision, execution) else none

/-- `_assemble`: the message of a row, or nothing while its candles are incomplete. -/
def assemble (config : WalletConfig) (minutes : MinuteStore) (row : SignalRow) :
    Except Fault (Option PaperSignal) :=
  match confirmedPair minutes row with
  | none => .ok none
  | some (decision, execution) => do
    let message ← {
      walletId := config.walletId
      signalId := row.signalId
      decisionCandle := decision
      executionCandle := execution
      signal := row.signal
      intent := row.intent
      side := row.side : PaperSignal }.postInit
    return some message

/-- The scan of `receive` over the rows in the order of their ids. -/
def scan (config : WalletConfig) (world : World) :
    List SignalRow → Except Fault (Option (SignalRow × PaperSignal))
  | [] => .ok none
  | row :: rows =>
    if world.consumed row.signalId then scan config world rows
    else do
      match ← assemble config world.minutes row with
      | some message => return some (row, message)
      | none => scan config world rows

/-- `receive`: the first ready, unconsumed signal, with its row. Reading in batches does not
change which one it is. -/
def receive (config : WalletConfig) (world : World) :
    Except Fault (Option (SignalRow × PaperSignal)) :=
  scan config world (world.signals.insertionSort fun row row' => row.signalId ≤ row'.signalId)

/-- Whether a row's candles are confirmed. -/
def Ready (minutes : MinuteStore) (row : SignalRow) : Prop :=
  (confirmedPair minutes row).isSome

instance (minutes : MinuteStore) (row : SignalRow) : Decidable (Ready minutes row) :=
  inferInstanceAs (Decidable ((confirmedPair minutes row).isSome = true))

theorem not_ready_of_assemble {config : WalletConfig} {minutes : MinuteStore} {row : SignalRow}
    (h : assemble config minutes row = .ok none) : ¬Ready minutes row := by
  unfold assemble at h
  unfold Ready
  cases hpair : confirmedPair minutes row with
  | none => simp
  | some pair =>
    rw [hpair] at h
    obtain ⟨decision, execution⟩ := pair
    dsimp only at h
    rw [Except.bind_eq_ok] at h
    obtain ⟨message, -, h⟩ := h
    cases h

theorem assemble_eq_some {config : WalletConfig} {minutes : MinuteStore} {row : SignalRow}
    {message : PaperSignal} (h : assemble config minutes row = .ok (some message)) :
    Ready minutes row ∧ message.signalId = row.signalId := by
  unfold assemble at h
  unfold Ready
  cases hpair : confirmedPair minutes row with
  | none =>
    rw [hpair] at h
    cases h
  | some pair =>
    rw [hpair] at h
    obtain ⟨decision, execution⟩ := pair
    dsimp only at h
    rw [Except.bind_eq_ok] at h
    obtain ⟨message', hmessage, h⟩ := h
    cases h
    refine ⟨rfl, ?_⟩
    unfold PaperSignal.postInit at hmessage
    simp only [Except.bind_eq_ok, require_eq_ok] at hmessage
    obtain ⟨-, -, -, -, -, -, -, -, -, -, -, -, -, -, -, -, hmessage⟩ := hmessage
    cases hmessage
    rfl

/-- The scan delivers the first row that is ready and has no receipt. -/
theorem scan_eq_some {config : WalletConfig} {world : World} {rows : List SignalRow}
    {row : SignalRow} {message : PaperSignal}
    (h : scan config world rows = .ok (some (row, message))) :
    ∃ before after, rows = before ++ row :: after ∧ ¬world.consumed row.signalId ∧
      Ready world.minutes row ∧ message.signalId = row.signalId ∧
      ∀ earlier ∈ before, world.consumed earlier.signalId ∨ ¬Ready world.minutes earlier := by
  -- on the rows: one is skipped for its receipt, for its candles, or delivered
  induction rows with
  | nil => cases h
  | cons first rows ih =>
    unfold scan at h
    by_cases hconsumed : world.consumed first.signalId
    · rw [if_pos hconsumed] at h
      obtain ⟨before, after, rfl, hrow, hready, hid, hbefore⟩ := ih h
      refine ⟨first :: before, after, rfl, hrow, hready, hid, ?_⟩
      intro earlier hmem
      rcases List.mem_cons.1 hmem with rfl | hmem
      · exact Or.inl hconsumed
      · exact hbefore earlier hmem
    · rw [if_neg hconsumed, Except.bind_eq_ok] at h
      obtain ⟨assembled, hassemble, h⟩ := h
      cases assembled with
      | none =>
        obtain ⟨before, after, rfl, hrow, hready, hid, hbefore⟩ := ih h
        refine ⟨first :: before, after, rfl, hrow, hready, hid, ?_⟩
        intro earlier hmem
        rcases List.mem_cons.1 hmem with rfl | hmem
        · exact Or.inr (not_ready_of_assemble hassemble)
        · exact hbefore earlier hmem
      | some found =>
        cases h
        obtain ⟨hready, hid⟩ := assemble_eq_some hassemble
        exact ⟨[], rows, rfl, hconsumed, hready, hid, by simp⟩

/-- The order of the ids is total. -/
instance : Std.Total fun row row' : SignalRow => row.signalId ≤ row'.signalId :=
  ⟨fun row row' => le_total row.signalId row'.signalId⟩

instance : IsTrans SignalRow fun row row' => row.signalId ≤ row'.signalId :=
  ⟨fun _ _ _ h h' => h.trans h'⟩

/-- **What the queue delivers**: a stored row without a receipt whose candles are confirmed,
while every row of a smaller id has a receipt or is not ready. -/
theorem receive_eq_ok {config : WalletConfig} {world : World} {row : SignalRow}
    {message : PaperSignal} (h : receive config world = .ok (some (row, message))) :
    row ∈ world.signals ∧ ¬world.consumed row.signalId ∧ Ready world.minutes row ∧
      message.signalId = row.signalId ∧
      ∀ earlier ∈ world.signals, earlier.signalId < row.signalId →
        world.consumed earlier.signalId ∨ ¬Ready world.minutes earlier := by
  obtain ⟨before, after, hrows, hconsumed, hready, hid, hbefore⟩ := scan_eq_some h
  have hmem : ∀ r, r ∈ world.signals ↔ r ∈ before ++ row :: after := by
    intro r
    rw [← hrows, List.mem_insertionSort]
  have hsorted : (before ++ row :: after).Pairwise fun r r' => r.signalId ≤ r'.signalId := by
    rw [← hrows]
    exact List.pairwise_insertionSort _ _
  refine ⟨(hmem row).2 (by simp), hconsumed, hready, hid, ?_⟩
  intro earlier hstored hlt
  rcases List.mem_append.1 ((hmem earlier).1 hstored) with hin | hin
  · exact hbefore earlier hin
  · rw [List.pairwise_append] at hsorted
    rcases List.mem_cons.1 hin with rfl | hin
    · omega
    · have := (List.pairwise_cons.1 hsorted.2.1).1 earlier hin
      omega

/-! ### Running the wallet once -/

/-- Give a signal its receipt. -/
def World.giveReceipt (world : World) (signalId : ℕ) (status : SignalConsumptionStatus)
    (consumedAt : ℤ) : World :=
  { world with receipts := world.receipts ++ [⟨signalId, status, consumedAt⟩] }

/-- `store` and `record_consumption` on a signal without a receipt; one that has a receipt
keeps it, and its execution is not committed. -/
def World.settle (world : World) (message : PaperSignal)
    (answer : Except WalletFault (WalletExecution × WalletState)) : Except Fault World :=
  match answer with
  | .error (.raised fault) => .error fault
  | .error (.rejected _) =>
    .ok (if world.consumed message.signalId then world
      else world.giveReceipt message.signalId .rejected message.executionCandle.closeTime)
  | .ok (execution, wallet) =>
    .ok (if world.consumed message.signalId then world
      else { world.giveReceipt message.signalId .filled execution.accounting.occurredAt with
        wallet := wallet })

/-- `run_once`: receive one signal and give it its receipt. -/
def runOnce (config : WalletConfig) (world : World) : Except Fault World := do
  match ← receive config world with
  | none => return world
  | some (_, message) => world.settle message (process config world.wallet message)

/-! ### The interleavings -/

/-- One step of one of the three writers. -/
inductive Step (config : WalletConfig) : World → World → Prop
  /-- The signal service stores a signal under a fresh id. -/
  | insert {world : World} (row : SignalRow) :
    (∀ stored ∈ world.signals, stored.signalId ≠ row.signalId) →
      Step config world { world with signals := world.signals ++ [row] }
  /-- A candle of one minute arrives. -/
  | arrive {world : World} (minute : Candle) :
    Step config world { world with minutes := world.minutes ++ [minute] }
  /-- The wallet runs once without raising. -/
  | execute {world world' : World} :
    runOnce config world = .ok world' → Step config world world'

/-- The system of a wallet that starts without signals or receipts. -/
def system (config : WalletConfig) : TransitionSystem World where
  init world := world.signals = [] ∧ world.receipts = []
  step := Step config

variable {config : WalletConfig} {world world' : World}

/-- **What a run of the wallet does**: nothing, or one more receipt, for the row the queue
delivered. -/
theorem runOnce_eq_ok (h : runOnce config world = .ok world') :
    world' = world ∨ ∃ row message receipt, receive config world = .ok (some (row, message)) ∧
      receipt.signalId = row.signalId ∧ world'.signals = world.signals ∧
      world'.receipts = world.receipts ++ [receipt] := by
  unfold runOnce at h
  rw [Except.bind_eq_ok] at h
  obtain ⟨received, hreceive, h⟩ := h
  cases received with
  | none =>
    cases h
    exact Or.inl rfl
  | some found =>
    obtain ⟨row, message⟩ := found
    obtain ⟨-, hfresh, -, hid, -⟩ := receive_eq_ok hreceive
    dsimp only at h
    right
    rw [← hid] at hfresh
    -- a rejection and an execution both end with a receipt
    cases hprocess : process config world.wallet message with
    | error fault =>
      rw [hprocess] at h
      cases fault with
      | raised fault => cases h
      | rejected code =>
        unfold World.settle at h
        dsimp only at h
        rw [if_neg hfresh] at h
        cases h
        exact ⟨row, message, _, hreceive, hid, rfl, rfl⟩
    | ok answer =>
      obtain ⟨execution, wallet⟩ := answer
      rw [hprocess] at h
      unfold World.settle at h
      dsimp only at h
      rw [if_neg hfresh] at h
      cases h
      exact ⟨row, message, _, hreceive, hid, rfl, rfl⟩

end Wallet
end TradingSystem
