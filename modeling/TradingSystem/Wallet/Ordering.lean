import TradingSystem.Wallet.SignalQueue
import Mathlib.Tactic.NormNum

/-!
# The order of paper executions

The queue serves the ids in order and skips what is not ready, so a signal whose execution
candle arrives late is overtaken. Executions are in the order of the signal times when
nothing is overtaken: in orderly runs.

* `Orderly` — the steps of orderly runs.
* `OrderInv` — what orderly runs keep: nothing that has no receipt is older than something
  that has one.
* `executedInOrder_of_orderly` — orderly runs execute in order.
* `not_executedInOrder_of_late_candle` — a run that does not.
-/

namespace TradingSystem
namespace Wallet

open Numeric Logic

/-- **Executions are committed in signal order**: a signal that is executed is not older than
one of its strategy and symbol that has its receipt already. -/
def ExecutedInOrder (world : World) : Prop :=
  world.receipts.Pairwise fun earlier later => later.status = .filled →
    ∀ row ∈ world.signals, ∀ row' ∈ world.signals, row.signalId = earlier.signalId →
      row'.signalId = later.signalId → ¬row'.Older row

/-- Nothing is overtaken now: a ready signal waits behind the older ones of its strategy and
symbol, which are ready too and come first in the queue. -/
def InTurn (world : World) : Prop :=
  ∀ row ∈ world.signals, ¬world.consumed row.signalId → Ready world.minutes row →
    ∀ older ∈ world.signals, older.Older row → ¬world.consumed older.signalId →
      Ready world.minutes older ∧ older.signalId < row.signalId

/-- No signal is stored after a newer one of its strategy and symbol got its receipt. -/
def StoredInTime (world world' : World) : Prop :=
  ∀ row ∈ world'.signals, row ∉ world.signals →
    ∀ stored ∈ world.signals, world.consumed stored.signalId → ¬row.Older stored

/-- The steps that overtake nothing. -/
def Orderly (config : WalletConfig) : TransitionSystem World where
  init := (system config).init
  step world world' := (system config).step world world' ∧ InTurn world ∧
    StoredInTime world world'

/-- What orderly runs keep. -/
structure OrderInv (world : World) : Prop where
  /-- An id names one signal. -/
  ids_unique : ∀ row ∈ world.signals, ∀ row' ∈ world.signals,
    row.signalId = row'.signalId → row = row'
  /-- Receipts are for stored signals. -/
  receipts_stored : ∀ receipt ∈ world.receipts, ∃ row ∈ world.signals,
    row.signalId = receipt.signalId
  /-- What has no receipt is not older than what has one. -/
  waiting_newer : ∀ row ∈ world.signals, ∀ stored ∈ world.signals,
    ¬world.consumed row.signalId → world.consumed stored.signalId → ¬row.Older stored
  /-- The executions are in order. -/
  inOrder : ExecutedInOrder world

variable {config : WalletConfig} {world world' : World}

/-- A signal under a fresh id has no receipt. -/
theorem OrderInv.not_consumed (h : OrderInv world) {row : SignalRow}
    (hfresh : ∀ stored ∈ world.signals, stored.signalId ≠ row.signalId) :
    ¬world.consumed row.signalId := by
  rintro ⟨receipt, hmem, hid⟩
  obtain ⟨stored, hstored, heq⟩ := h.receipts_stored receipt hmem
  exact hfresh stored hstored (heq.trans hid)

theorem OrderInv.insert (h : OrderInv world) {row : SignalRow}
    (hfresh : ∀ stored ∈ world.signals, stored.signalId ≠ row.signalId)
    (hintime : StoredInTime world { world with signals := world.signals ++ [row] }) :
    OrderInv { world with signals := world.signals ++ [row] } := by
  have hnew : ¬world.consumed row.signalId := h.not_consumed hfresh
  -- the new row has no receipt, so what is kept about receipts is about older rows
  have hcases : ∀ r ∈ world.signals ++ [row], r ∈ world.signals ∨ r = row := by
    intro r hr
    rcases List.mem_append.1 hr with hr | hr
    · exact Or.inl hr
    · exact Or.inr (List.mem_singleton.1 hr)
  refine ⟨?_, ?_, ?_, ?_⟩
  · intro r hr r' hr' hid
    rcases hcases r hr with hold | rfl
    · rcases hcases r' hr' with hold' | rfl
      · exact h.ids_unique r hold r' hold' hid
      · exact absurd hid (hfresh r hold)
    · rcases hcases r' hr' with hold' | rfl
      · exact absurd hid.symm (hfresh r' hold')
      · rfl
  · intro receipt hmem
    obtain ⟨stored, hstored, hid⟩ := h.receipts_stored receipt hmem
    exact ⟨stored, List.mem_append_left _ hstored, hid⟩
  · intro r hr stored hstored hwaiting hconsumed
    change ¬world.consumed r.signalId at hwaiting
    change world.consumed stored.signalId at hconsumed
    rcases hcases stored hstored with hold | rfl
    · rcases hcases r hr with hr | rfl
      · exact h.waiting_newer r hr stored hold hwaiting hconsumed
      · refine hintime r (List.mem_append_right _ (List.mem_singleton_self _)) ?_ stored hold
          hconsumed
        intro hmem
        exact hfresh r hmem rfl
    · exact absurd hconsumed hnew
  · refine h.inOrder.imp_of_mem fun {earlier later} hearlier hlater hkept => ?_
    intro hfilled r hr r' hr' hid hid'
    have hold : ∀ receipt ∈ world.receipts, ∀ s ∈ world.signals ++ [row],
        s.signalId = receipt.signalId → s ∈ world.signals := by
      intro receipt hmem s hs heq
      rcases hcases s hs with hs | rfl
      · exact hs
      · exact absurd ⟨receipt, hmem, heq.symm⟩ hnew
    exact hkept hfilled r (hold earlier hearlier r hr hid) r' (hold later hlater r' hr' hid') hid
      hid'

theorem OrderInv.arrive (h : OrderInv world) (minute : Candle) :
    OrderInv { world with minutes := world.minutes ++ [minute] } :=
  ⟨h.ids_unique, h.receipts_stored, h.waiting_newer, h.inOrder⟩

/-- The wallet gives one more receipt, for a signal that is in turn. -/
theorem OrderInv.execute (h : OrderInv world) (hturn : InTurn world)
    (hrun : runOnce config world = .ok world') : OrderInv world' := by
  rcases runOnce_eq_ok hrun with rfl | ⟨row, message, receipt, hreceive, hid, hsignals, hreceipts⟩
  · exact h
  obtain ⟨hstored, hfresh, hready, -, hfirst⟩ := receive_eq_ok hreceive
  -- every older signal of the market has its receipt
  have hnewest : ∀ older ∈ world.signals, older.Older row → world.consumed older.signalId := by
    intro older holder hlt
    by_contra hwaiting
    obtain ⟨hready', hid'⟩ := hturn row hstored hfresh hready older holder hlt hwaiting
    rcases hfirst older holder hid' with hconsumed | hnot
    · exact hwaiting hconsumed
    · exact hnot hready'
  have hconsumed : ∀ id, world'.consumed id ↔ world.consumed id ∨ id = row.signalId := by
    intro id
    unfold World.consumed
    rw [hreceipts]
    constructor
    · rintro ⟨r, hr, heq⟩
      rcases List.mem_append.1 hr with hr | hr
      · exact Or.inl ⟨r, hr, heq⟩
      · rw [List.mem_singleton.1 hr, hid] at heq
        exact Or.inr heq.symm
    · rintro (⟨r, hr, heq⟩ | heq)
      · exact ⟨r, List.mem_append_left _ hr, heq⟩
      · exact ⟨receipt, List.mem_append_right _ (List.mem_singleton_self _), hid.trans heq.symm⟩
  refine ⟨?_, ?_, ?_, ?_⟩
  · rw [hsignals]
    exact h.ids_unique
  · rw [hsignals, hreceipts]
    intro r hr
    rcases List.mem_append.1 hr with hr | hr
    · exact h.receipts_stored r hr
    · rw [List.mem_singleton.1 hr]
      exact ⟨row, hstored, hid.symm⟩
  · rw [hsignals]
    intro waiting hwaiting stored hstored' hnot hyes
    rw [hconsumed, not_or] at hnot
    rcases (hconsumed _).1 hyes with hyes | heq
    · exact h.waiting_newer waiting hwaiting stored hstored' hnot.1 hyes
    · rw [h.ids_unique stored hstored' row hstored heq]
      intro holder
      exact hnot.1 (hnewest waiting hwaiting holder)
  · unfold ExecutedInOrder
    rw [hsignals, hreceipts, List.pairwise_append]
    refine ⟨h.inOrder, List.pairwise_singleton _ _, ?_⟩
    intro earlier hearlier later hlater _ r hr r' hr' hrid hrid'
    rw [List.mem_singleton.1 hlater, hid] at hrid'
    rw [h.ids_unique r' hr' row hstored hrid']
    exact h.waiting_newer row hstored r hr hfresh ⟨earlier, hearlier, hrid.symm⟩

/-- **Orderly runs keep the order.** -/
theorem orderInv_of_orderly (h : (Orderly config).Reachable world) : OrderInv world := by
  refine TransitionSystem.Reachable.invariant ?_ ?_ h
  · rintro start ⟨hsignals, hreceipts⟩
    refine ⟨?_, ?_, ?_, ?_⟩
    · rw [hsignals]
      intro row hrow
      cases hrow
    · rw [hreceipts]
      intro receipt hreceipt
      cases hreceipt
    · rw [hsignals]
      intro row hrow
      cases hrow
    · unfold ExecutedInOrder
      rw [hreceipts]
      exact List.Pairwise.nil
  · rintro before next hinv ⟨hstep, hturn, hintime⟩
    cases hstep with
    | insert row hfresh => exact hinv.insert hfresh hintime
    | arrive minute => exact hinv.arrive minute
    | execute hrun => exact hinv.execute hturn hrun

/-- **Orderly runs execute in order.** Where no signal is stored behind a newer one that has its
receipt, and a signal is ready only when the older ones of its strategy and symbol are, no signal
is executed after a newer one has got a terminal receipt. -/
theorem executedInOrder_of_orderly (h : (Orderly config).Reachable world) :
    ExecutedInOrder world :=
  (orderInv_of_orderly h).inOrder

/-! ### Two signals of one minute -/

instance (row row' : SignalRow) : Decidable (row.Older row') :=
  inferInstanceAs (Decidable ((row.strategyId = row'.strategyId ∧
    row.signal.symbol = row'.signal.symbol) ∧ row.signalTime < row'.signalTime))

instance (world : World) : Decidable (ExecutedInOrder world) :=
  inferInstanceAs (Decidable (world.receipts.Pairwise fun earlier later =>
    later.status = .filled → ∀ row ∈ world.signals, ∀ row' ∈ world.signals,
      row.signalId = earlier.signalId → row'.signalId = later.signalId → ¬row'.Older row))

instance (world : World) : Decidable (InTurn world) :=
  inferInstanceAs (Decidable (∀ row ∈ world.signals, ¬world.consumed row.signalId →
    Ready world.minutes row → ∀ older ∈ world.signals, older.Older row →
      ¬world.consumed older.signalId →
        Ready world.minutes older ∧ older.signalId < row.signalId))

/-- A wallet with the default limits and rates. -/
def paperWallet : WalletConfig where
  walletId := "paper"
  policy := {
    allowedSymbols := ["BTCUSDT"]
    riskPerTrade := onePercent
    maxOrderQuantity := Binary64.ofRat 1000000
    maxOrderNotional := Binary64.ofRat 100000000
    singleMarketLimit := onePercent
    correlationGroupLimit := Binary64.ofRat (2 / 100)
    singleDirectionLimit := Binary64.ofRat (2 / 100)
    allowedSymbols_ne := by decide
    riskPerTrade_pos := by decide +kernel
    riskPerTrade_le := by decide +kernel }
  rates := {
    takerFeeRate := 5 / 10000
    entrySlippageRate := 5 / 10000
    exitSlippageRate := 1 / 10000
    fundingFallbackRate := 1 / 10000
    maintenanceMarginRate := 4 / 1000
    gapMultiplier := 2
    takerFeeRate_nonneg := by norm_num
    entrySlippageRate_nonneg := by norm_num
    exitSlippageRate_nonneg := by norm_num
    fundingFallbackRate_nonneg := by norm_num
    maintenanceMarginRate_nonneg := by norm_num
    one_le_gapMultiplier := by norm_num }
  walletId_ne := by decide

theorem hundred_pos : Binary64.zero < Binary64.ofRat 100 :=
  Binary64.zero_lt_ofRat (by norm_num)

/-- A market that stays at 100. -/
def minuteOf (k : ℕ) : Candle :=
  Candle.flat "BTCUSDT" Timeframe.oneMinute (k * Instant.minute) (Binary64.ofRat 100) hundred_pos

theorem one_nonneg : Binary64.zero ≤ Binary64.ofRat 1 :=
  (Binary64.lt_def.1 (Binary64.zero_lt_ofRat le_rfl)).le

theorem one_le_one : Binary64.ofRat 1 ≤ Binary64.ofRat 1 := le_refl (Binary64.ofRat 1).val

theorem ninety_pos : ∀ level ∈ some (Binary64.ofRat 90), Binary64.zero < level := by
  intro level hlevel
  cases hlevel
  decide +kernel

theorem no_target_pos : ∀ level ∈ (none : Option Binary64), Binary64.zero < level := nofun

theorem no_leverage_pos : ∀ value ∈ (none : Option ℕ), 0 < value := nofun

/-- A signal at the close of minute `k`. -/
def minuteSignal (signalId k : ℕ) (intent : PaperIntent) (side : Option PositionSide)
    (signalId_pos : 0 < signalId) : SignalRow where
  signalId := signalId
  strategyId := "watch"
  timeframe := Timeframe.oneMinute
  candleOpenTime := k * Instant.minute
  candleCloseTime := k * Instant.minute + Instant.minute
  signal := {
    symbol := "BTCUSDT"
    timestamp := k * Instant.minute + Instant.minute
    confidence := Binary64.ofRat 1
    price := Binary64.ofRat 100
    stopLoss := some (Binary64.ofRat 90)
    takeProfit := none
    marketType := .futures
    leverage := none
    reason := ""
    requestedQuantity := none
    confidence_nonneg := one_nonneg
    confidence_le_one := one_le_one
    price_pos := hundred_pos
    stopLoss_pos := ninety_pos
    takeProfit_pos := no_target_pos
    leverage_pos := no_leverage_pos }
  intent := intent
  side := side
  signalId_pos := signalId_pos
  candle_times := by
    have : (0 : ℤ) < Instant.minute := by decide
    omega
  signal_time := le_refl _

/-- The stores before anything happened. -/
def emptyWorld : World := ⟨[], [], [], ⟨10000, none, none, false⟩⟩

/-- The stores after the wallet ran, or as they were if it raised. -/
def afterRun (config : WalletConfig) (world : World) : World :=
  match runOnce config world with
  | .ok world' => world'
  | .error _ => world

theorem runOnce_eq_afterRun (h : returnsWith (runOnce config world) (fun _ => true) = true) :
    runOnce config world = .ok (afterRun config world) := by
  unfold afterRun
  obtain ⟨world', hrun, -⟩ := exists_of_returnsWith h
  rw [hrun]

/-- Both signals are stored and some minutes have arrived. -/
def stored (first second : SignalRow) (minutes : List ℕ) : World :=
  { emptyWorld with signals := [first, second], minutes := minutes.map minuteOf }

def firstEntry : SignalRow := minuteSignal 1 0 .enter (some .long) Nat.one_pos

def laterExit : SignalRow := minuteSignal 2 1 .exit none Nat.two_pos

/-- A stored signal stays stored in time while nothing new is stored. -/
theorem storedInTime_of_eq (h : world'.signals = world.signals) : StoredInTime world world' := by
  intro row hmem hnew
  rw [h] at hmem
  exact absurd hmem hnew

/-- Before the first receipt every signal is stored in time. -/
theorem storedInTime_of_nil (h : world.receipts = []) : StoredInTime world world' := by
  rintro row - - stored - ⟨receipt, hmem, -⟩
  rw [h] at hmem
  cases hmem

/-- A run keeps the stored signals. -/
theorem afterRun_signals (config : WalletConfig) (world : World) :
    (afterRun config world).signals = world.signals := by
  unfold afterRun
  split
  · next world' hrun =>
    rcases runOnce_eq_ok hrun with rfl | ⟨_, _, _, -, -, hsignals, -⟩
    · rfl
    · exact hsignals
  · rfl

/-- The entry of the first minute and the exit of the second are executed in order. -/
theorem executedInOrder_of_two_minutes :
    ExecutedInOrder (afterRun paperWallet (afterRun paperWallet
      (stored firstEntry laterExit [0, 1, 2]))) := by
  have hempty : (Orderly paperWallet).Reachable emptyWorld :=
    TransitionSystem.Reachable.init ⟨rfl, rfl⟩
  -- the two signals are stored first
  have hinsert : Step paperWallet emptyWorld { emptyWorld with signals := [firstEntry] } :=
    Step.insert firstEntry (by intro row hrow; cases hrow)
  have hfirst : (Orderly paperWallet).Reachable { emptyWorld with signals := [firstEntry] } :=
    hempty.step ⟨hinsert, by decide +kernel, storedInTime_of_nil rfl⟩
  have hinsert' : Step paperWallet { emptyWorld with signals := [firstEntry] }
      (stored firstEntry laterExit []) := Step.insert laterExit (by decide +kernel)
  have hsecond : (Orderly paperWallet).Reachable (stored firstEntry laterExit []) :=
    hfirst.step ⟨hinsert', by decide +kernel, storedInTime_of_nil rfl⟩
  -- then the minutes arrive one by one
  have harrive : ∀ minutes k, InTurn (stored firstEntry laterExit minutes) →
      (Orderly paperWallet).Reachable (stored firstEntry laterExit minutes) →
      (Orderly paperWallet).Reachable (stored firstEntry laterExit (minutes ++ [k])) := by
    intro minutes k hturn hreach
    have hstep : Step paperWallet (stored firstEntry laterExit minutes)
        { stored firstEntry laterExit minutes with
          minutes := (stored firstEntry laterExit minutes).minutes ++ [minuteOf k] } :=
      Step.arrive (minuteOf k)
    have heq : stored firstEntry laterExit (minutes ++ [k]) =
        { stored firstEntry laterExit minutes with
          minutes := (stored firstEntry laterExit minutes).minutes ++ [minuteOf k] } := by
      unfold stored
      rw [List.map_append]
      rfl
    rw [heq]
    exact hreach.step ⟨hstep, hturn, storedInTime_of_eq rfl⟩
  have hstored : (Orderly paperWallet).Reachable (stored firstEntry laterExit [0, 1, 2]) :=
    harrive [0, 1] 2 (by decide +kernel)
      (harrive [0] 1 (by decide +kernel) (harrive [] 0 (by decide +kernel) hsecond))
  -- and the wallet runs twice
  have hran : (Orderly paperWallet).Reachable
      (afterRun paperWallet (stored firstEntry laterExit [0, 1, 2])) :=
    hstored.step ⟨Step.execute (runOnce_eq_afterRun (by decide +kernel)), by decide +kernel,
      storedInTime_of_eq (afterRun_signals _ _)⟩
  have hagain : (Orderly paperWallet).Reachable (afterRun paperWallet
      (afterRun paperWallet (stored firstEntry laterExit [0, 1, 2]))) :=
    hran.step ⟨Step.execute (runOnce_eq_afterRun (by decide +kernel)), by decide +kernel,
      storedInTime_of_eq (afterRun_signals _ _)⟩
  exact executedInOrder_of_orderly hagain

/-- The exit of the first minute, and an entry of the third. -/
def earlyExit : SignalRow := minuteSignal 1 0 .exit none Nat.one_pos

def laterEntry : SignalRow := minuteSignal 2 2 .enter (some .long) Nat.two_pos

/-- The run in which minute 1 arrives after the later entry was executed. -/
def overtaken : World :=
  let world := afterRun paperWallet (stored earlyExit laterEntry [0, 2, 3])
  afterRun paperWallet { world with minutes := world.minutes ++ [minuteOf 1] }

/-- When its candle arrives late, the older exit is executed after the newer entry. -/
theorem not_executedInOrder_of_late_candle :
    (system paperWallet).Reachable overtaken ∧ ¬ExecutedInOrder overtaken := by
  refine ⟨?_, by decide +kernel⟩
  have hempty : (system paperWallet).Reachable emptyWorld :=
    TransitionSystem.Reachable.init ⟨rfl, rfl⟩
  have hfirst := hempty.step (Step.insert earlyExit (by intro row hrow; cases hrow))
  have hsecond := hfirst.step (Step.insert laterEntry (by decide +kernel))
  have hstored : (system paperWallet).Reachable (stored earlyExit laterEntry [0, 2, 3]) :=
    ((hsecond.step (Step.arrive (minuteOf 0))).step (Step.arrive (minuteOf 2))).step
      (Step.arrive (minuteOf 3))
  have hran : (system paperWallet).Reachable
      (afterRun paperWallet (stored earlyExit laterEntry [0, 2, 3])) :=
    hstored.step (Step.execute (runOnce_eq_afterRun (by decide +kernel)))
  exact (hran.step (Step.arrive (minuteOf 1))).step
    (Step.execute (runOnce_eq_afterRun (by decide +kernel)))

end Wallet
end TradingSystem
