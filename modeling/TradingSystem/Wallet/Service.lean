import TradingSystem.Execution.Broker
import TradingSystem.Execution.PositionBook
import TradingSystem.Execution.Accounting
import TradingSystem.Sizing.Sizing

/-!
# The paper wallet

`process` simulates one paper signal on the wallet's cash and position: guards, sizing, a
next-candle fill by the shared matcher, the position book and the accounting identity. It
answers with the execution to commit and the wallet after it, or fails.

There are two kinds of failure. A `rejected` signal was refused on purpose, and the service
gives it a receipt. Whatever else is `raised` leaves `process` as it is.
-/

namespace TradingSystem
namespace Wallet

open Numeric Logic

/-! ### Signals -/

/-- The action the signal service derived. -/
inductive PaperIntent
  | enter | reverse | exit
deriving DecidableEq, Repr

/-- What became of a signal. -/
inductive SignalConsumptionStatus
  | filled | rejected | skipped
deriving DecidableEq, Repr

/-- One finalized decision and its next candle. The mode is always paper. -/
structure PaperSignal where
  walletId : String
  signalId : ℕ
  decisionCandle : Candle
  executionCandle : Candle
  signal : TradingSignal
  intent : PaperIntent
  side : Option PositionSide
deriving DecidableEq

/-- The constructor's checks. -/
def PaperSignal.postInit (message : PaperSignal) : Except Fault PaperSignal := do
  require (message.walletId ≠ "") (.valueError "wallet_id and signal_id must not be empty")
  require (message.intent ≠ .exit → message.side.isSome)
    (.valueError "entry and reversal signals require a directional side")
  require (message.intent = .exit → message.side = none)
    (.valueError "exit signals must not propose a new side")
  require (message.signal.symbol = message.decisionCandle.symbol)
    (.valueError "signal symbol must match the decision candle")
  require (message.executionCandle.symbol = message.decisionCandle.symbol)
    (.valueError "decision and execution candles must share a symbol")
  require (message.executionCandle.timeframe = message.decisionCandle.timeframe)
    (.valueError "decision and execution candles must share a timeframe")
  require (message.executionCandle.openTime = message.decisionCandle.closeTime)
    (.valueError "paper execution requires the contiguous next candle")
  require (message.signal.timestamp ≤ message.decisionCandle.closeTime)
    (.valueError "feature_ts must not be later than decision_ts")
  return message

/-- Why a signal was not executed. -/
inductive WalletFault
  | rejected (code : String)
  | raised (fault : Fault)
deriving DecidableEq, Repr

/-- Run a shared calculation; what it raises is not a rejection. -/
def raising {α : Type} : Except Fault α → Except WalletFault α
  | .ok a => .ok a
  | .error fault => .error (.raised fault)

/-- Run a method of a mutable object. -/
def onObject {α σ : Type} (method : Program Fault σ α) (object : σ) : Except WalletFault (α × σ) :=
  match method object with
  | .ok a object' => .ok (a, object')
  | .error fault _ => .error (.raised fault)

/-- `raise RiskRejected(code)` unless the condition holds. -/
def rejectUnless (condition : Prop) [Decidable condition] (code : String) :
    Except WalletFault Unit :=
  if condition then .ok () else .error (.rejected code)

/-! ### The risk guard -/

/-- The float limits of a wallet. -/
structure RiskPolicy where
  allowedSymbols : List String
  riskPerTrade : Binary64
  maxOrderQuantity : Binary64
  maxOrderNotional : Binary64
  singleMarketLimit : Binary64
  correlationGroupLimit : Binary64
  singleDirectionLimit : Binary64
  allowedSymbols_ne : allowedSymbols ≠ []
  riskPerTrade_pos : Binary64.zero < riskPerTrade
  riskPerTrade_le : riskPerTrade ≤ onePercent

/-- The risk of an open position: its symbol, side and fraction of the equity. -/
abbrev OpenRisk := String × PositionSide × Binary64

/-- `str.upper`, for the letters of ticker symbols. -/
def upper (symbol : String) : String := String.ofList (symbol.toList.map Char.toUpper)

def validateSignal (policy : RiskPolicy) (killSwitchEngaged : Bool) (message : PaperSignal) :
    Except WalletFault Unit := do
  rejectUnless (killSwitchEngaged = false) "kill_switch"
  rejectUnless (message.signal.symbol = upper message.signal.symbol) "symbol_not_canonical"
  rejectUnless (upper message.signal.symbol ∈ policy.allowedSymbols) "symbol_not_allowed"
  rejectUnless (¬(message.signal.marketType = .spot ∧ message.side = some .short))
    "spot_short_not_supported"

/-- `one_r`: the initial risk. -/
def oneR (entry stop quantity : Binary64) : Except Fault Binary64 := do
  require (Binary64.zero < entry ∧ Binary64.zero < stop ∧ Binary64.zero < quantity)
    (.valueError "entry, stop, and quantity must be positive")
  return (entry.sub stop).abs.mul quantity

/-- `math.isclose` with a relative tolerance of `1e-12`. -/
def isClose (x y : Binary64) : Bool :=
  let tolerance := Binary64.ofRat (1 / 10 ^ 12)
  decide ((y.sub x).abs ≤ (tolerance.mul y).abs ∨ (y.sub x).abs ≤ (tolerance.mul x).abs)

def validateSizedEntry (policy : RiskPolicy) (message : PaperSignal) (quantity equity : Binary64)
    (existingRisks : List OpenRisk) : Except WalletFault Unit := do
  rejectUnless (quantity ≤ policy.maxOrderQuantity) "max_order_quantity"
  rejectUnless (quantity.mul message.signal.price ≤ policy.maxOrderNotional) "max_order_notional"
  match message.signal.stopLoss with
  | none => throw (.rejected "protective_stop_required")
  | some stop => do
    let risk ← raising (oneR message.signal.price stop quantity)
    let riskBudget := equity.mul onePercent
    rejectUnless (risk ≤ riskBudget ∨ isClose risk riskBudget = true) "one_r_limit"
    match message.side with
    | none => throw (.rejected "direction_required")
    | some side => do
      let marketRisks := existingRisks.filter fun risk =>
        upper risk.1 = upper message.signal.symbol
      let directionRisks := existingRisks.filter fun risk => risk.2.1 = side
      let candidate := policy.riskPerTrade
      let market ← raising (withinLimit (marketRisks.map (·.2.2) ++ [candidate])
        policy.singleMarketLimit)
      let group ← raising (withinLimit (existingRisks.map (·.2.2) ++ [candidate])
        policy.correlationGroupLimit)
      let direction ← raising (withinLimit (directionRisks.map (·.2.2) ++ [candidate])
        policy.singleDirectionLimit)
      rejectUnless (market = true ∧ group = true ∧ direction = true) "exposure_limit"

def validateSimulatedEntry (policy : RiskPolicy) (fill : Fill) : Except WalletFault Unit := do
  rejectUnless (toFloat fill.quantity ≤ policy.maxOrderQuantity) "max_order_quantity"
  rejectUnless (toFloat (fill.price * fill.quantity) ≤ policy.maxOrderNotional)
    "max_order_notional"

/-! ### The paper broker -/

/-- The rates of a paper wallet. -/
structure PaperCostModel where
  takerFeeRate : Decimal
  entrySlippageRate : Decimal
  exitSlippageRate : Decimal
  fundingFallbackRate : Decimal
  maintenanceMarginRate : Decimal
  gapMultiplier : Decimal
  takerFeeRate_nonneg : 0 ≤ takerFeeRate
  entrySlippageRate_nonneg : 0 ≤ entrySlippageRate
  exitSlippageRate_nonneg : 0 ≤ exitSlippageRate
  fundingFallbackRate_nonneg : 0 ≤ fundingFallbackRate
  maintenanceMarginRate_nonneg : 0 ≤ maintenanceMarginRate
  one_le_gapMultiplier : 1 ≤ gapMultiplier

/-- What the shared matcher sees of the rates: one taker fee and one entry slippage for both
markets, and no other slippage formula than the fixed rate. -/
def PaperCostModel.port (rates : PaperCostModel) (marketType : MarketType) :
    BacktestCostModel where
  params := {
    futuresMakerFeeRate := rates.takerFeeRate
    futuresTakerFeeRate := rates.takerFeeRate
    spotTakerFeeRate := rates.takerFeeRate
    maintenanceMarginRate := rates.maintenanceMarginRate
    fundingFallbackRate := rates.fundingFallbackRate
    futuresEntrySlippageRate := rates.entrySlippageRate
    spotEntrySlippageRate := rates.entrySlippageRate
    exitSlippageRate := rates.exitSlippageRate
    spreadRate := 0
    impactCoefficient := 0
    gapMultiplier := rates.gapMultiplier
    positionSizePct := 1
    liquidity := none }
  marketType := marketType
  useStandardSlippage := false
  valid := {
    futuresMakerFeeRate_nonneg := rates.takerFeeRate_nonneg
    futuresTakerFeeRate_nonneg := rates.takerFeeRate_nonneg
    spotTakerFeeRate_nonneg := rates.takerFeeRate_nonneg
    maintenanceMarginRate_nonneg := rates.maintenanceMarginRate_nonneg
    fundingFallbackRate_nonneg := rates.fundingFallbackRate_nonneg
    futuresEntrySlippageRate_nonneg := rates.entrySlippageRate_nonneg
    spotEntrySlippageRate_nonneg := rates.entrySlippageRate_nonneg
    exitSlippageRate_nonneg := rates.exitSlippageRate_nonneg
    spreadRate_nonneg := le_refl _
    impactCoefficient_nonneg := le_refl _
    one_le_gapMultiplier := rates.one_le_gapMultiplier
    positionSizePct_pos := one_pos
    positionSizePct_le_one := le_refl _
    liquidity_pos := nofun }

/-- The account a paper execution is configured with. -/
structure PaperAccount where
  equity : Decimal
  availableMargin : Decimal
  leverage : ℕ
  riskFraction : Option Binary64

/-- `configure_execution`: the checks of one next-candle execution. -/
def configureExecution (message : PaperSignal) (account : PaperAccount) : Except Fault Unit := do
  require (message.executionCandle.openTime = message.decisionCandle.closeTime)
    (.valueError "PaperBroker requires the contiguous next candle")
  require (message.executionCandle.symbol = message.decisionCandle.symbol)
    (.valueError "paper execution candles must share a symbol")
  require (message.executionCandle.timeframe = message.decisionCandle.timeframe)
    (.valueError "paper execution candles must share a timeframe")
  require (0 < account.equity ∧ 0 ≤ account.availableMargin)
    (.valueError "paper equity must be positive and available margin non-negative")
  require (0 < account.leverage) (.valueError "leverage must be a positive int")
  require (∀ fraction ∈ account.riskFraction, Binary64.zero < fraction ∧ fraction ≤ onePercent)
    (.valueError "risk_fraction must be in (0, 0.01]")

/-- `submit`: normalize a request and match it at the execution candle. -/
def submit (rates : PaperCostModel) (message : PaperSignal) (account : PaperAccount)
    (request : OrderRequest) : Except Fault Fill := do
  require (request.symbol = message.decisionCandle.symbol)
    (.valueError "paper order symbol must match the configured candle")
  let order ← normalizeOrder request (.broker message.signalId)
  let limits : Matcher.MatchLimits := {
    riskBudget := account.riskFraction.map fun fraction =>
      quantizeAmount (account.equity * toDecimal fraction)
    availableMargin :=
      if request.reduceOnly = true ∨ request.closePosition = true then none
      else some account.availableMargin
    leverage := account.leverage }
  match Matcher.matchOrder message.decisionCandle
      [message.decisionCandle, message.executionCandle] (rates.port request.marketType) .nextBar
      limits order with
  | .ok fill _ => return fill
  | .error fault _ => throw fault

/-! ### The wallet -/

/-- The committed state of a wallet. -/
structure WalletState where
  cash : Decimal
  position : Option Position
  openRisk : Option OpenRisk
  killSwitchEngaged : Bool

/-- What does not change while a wallet runs. -/
structure WalletConfig where
  walletId : String
  policy : RiskPolicy
  rates : PaperCostModel
  walletId_ne : walletId ≠ ""

/-- The accounting of a committed execution. -/
structure AccountingSnapshot where
  occurredAt : ℤ
  cashBalance : Decimal
  positionValue : Decimal
  totalEquity : Decimal
  feeTotal : Decimal
  slippageTotal : Decimal

/-- What one signal commits. -/
structure WalletExecution where
  signalId : ℕ
  symbol : String
  fills : List Fill
  position : Option Position
  accounting : AccountingSnapshot

def assertIdentity (cash currentPositionValue equity : Decimal) : Except Fault Unit :=
  require (quantizeAmount equity = quantizeAmount (cash + currentPositionValue))
    (.valueError "accounting identity violated: cash + position != equity")

def assertAccounting (cash : Decimal) (position : Option Position) : Except Fault Unit :=
  assertIdentity cash (positionValue position) (recompute cash position)

def assertTimes (message : PaperSignal) (fill : Fill) : Except Fault Unit :=
  require (message.signal.timestamp ≤ message.decisionCandle.closeTime ∧
      message.decisionCandle.closeTime < fill.timestamp)
    (.valueError "feature_ts <= decision_ts < execution_ts was violated")

/-- `_book_position`: the position of a symbol, in either direction. -/
def bookPosition (book : PositionBook) (symbol : String) : Except Fault (Option Position) := do
  require (¬((book (symbol, .long)).isSome ∧ (book (symbol, .short)).isSome))
    (.runtimeError "paper wallet cannot hold both directions")
  return (book (symbol, .long)).orElse fun _ => book (symbol, .short)

/-- `_any_position`: the one open position of the allowed symbols. -/
def anyPosition (policy : RiskPolicy) (book : PositionBook) : Except Fault (Option Position) := do
  let positions := policy.allowedSymbols.flatMap fun symbol =>
    (book (symbol, .long)).toList ++ (book (symbol, .short)).toList
  require (positions.length ≤ 1)
    (.runtimeError "paper wallet supports at most one open position")
  return positions.head?

/-- The book of a wallet's position. -/
def bookOf (position : Option Position) : PositionBook :=
  match position with
  | none => PositionBook.empty
  | some position => PositionBook.empty.update (position.symbol, position.side) (some position)

/-- `_liquidation_price`. -/
def liquidationPriceOf (rates : PaperCostModel) (fill : Fill) (leverage : ℕ)
    (marketType : MarketType) : Except WalletFault Decimal := do
  rejectUnless (fill.positionSide ≠ .both) "direction_required"
  match marketType with
  | .spot => return 0
  | .futures =>
    raising (liquidationPrice fill.price leverage rates.maintenanceMarginRate fill.positionSide)

/-- `_execute_entry`: size the entry, simulate it and open the position. -/
def executeEntry (config : WalletConfig) (message : PaperSignal) (book : PositionBook)
    (cash : Decimal) (existingRisks : List OpenRisk) :
    Except WalletFault (Fill × PositionBook × Decimal) := do
  match message.signal.stopLoss with
  | none => throw (.rejected "protective_stop_required")
  | some stop => do
    let equity := recompute cash none
    let quantity ← raising (riskSize config.policy.riskPerTrade (toFloat equity)
      (message.signal.price.sub stop).abs)
    validateSizedEntry config.policy message quantity (toFloat equity) existingRisks
    match message.side with
    | none => throw (.rejected "direction_required")
    | some side => do
      let leverage := message.signal.leverage.getD 1
      let account : PaperAccount := {
        equity := equity
        availableMargin := cash
        leverage := leverage
        riskFraction := some config.policy.riskPerTrade }
      raising (configureExecution message account)
      let request ← raising ({
        symbol := message.signal.symbol
        side := if side = .long then .buy else .sell
        orderType := .market
        quantity := quantity
        price := some message.signal.price
        stopPrice := some stop
        marketType := message.signal.marketType
        positionSide := side
        reduceOnly := false
        closePosition := false : OrderRequest }.postInit)
      let fill ← raising (submit config.rates message account request)
      raising (assertTimes message fill)
      validateSimulatedEntry config.policy fill
      let level ← liquidationPriceOf config.rates fill leverage message.signal.marketType
      let opened ← onObject (PositionBook.apply fill (some leverage) (some .isolated)
        message.signal.marketType level) book
      let position ← raising (bookPosition opened.2 message.signal.symbol)
      raising (require position.isSome
        (.runtimeError "PositionBook did not create the filled position"))
      let nextCash := quantizeAmount (cash - positionValue position - fill.fee)
      raising (require (0 ≤ nextCash) (.runtimeError "paper entry would make cash negative"))
      raising (assertAccounting nextCash position)
      return (fill, opened.2, nextCash)

/-- The order that closes a position completely. -/
def exitRequest (position : Position) : OrderRequest where
  symbol := position.symbol
  side := if position.side = .long then .sell else .buy
  orderType := .market
  quantity := toFloat position.quantity
  price := none
  stopPrice := none
  marketType := position.marketType
  positionSide := position.side
  reduceOnly := true
  closePosition := false

/-- `_execute_exit`: simulate the exit of the held position. -/
def executeExit (config : WalletConfig) (message : PaperSignal) (book : PositionBook)
    (position : Position) (cash : Decimal) :
    Except WalletFault (Fill × PositionBook × Decimal) := do
  let account : PaperAccount := {
    equity := recompute cash (some position)
    availableMargin := cash
    leverage := position.leverage
    riskFraction := none }
  raising (configureExecution message account)
  let request ← raising (exitRequest position).postInit
  let fill ← raising (submit config.rates message account request)
  raising (assertTimes message fill)
  let marked ← onObject (Position.updatePrice fill.price) position
  let equityBeforeFee := recompute cash (some marked.2)
  let reduced ← onObject (PositionBook.apply fill none none .futures 0)
    (book.update (position.symbol, position.side) (some marked.2))
  let remaining ← raising (bookPosition reduced.2 position.symbol)
  let nextCash := quantizeAmount (equityBeforeFee - fill.fee - positionValue remaining)
  raising (require (0 ≤ nextCash) (.runtimeError "paper exit would make cash negative"))
  raising (assertAccounting nextCash remaining)
  return (fill, reduced.2, nextCash)

/-- The book, cash, open risk and fills while one signal is processed. -/
structure Candidate where
  book : PositionBook
  cash : Decimal
  openRisk : Option OpenRisk
  fills : List Fill

/-- The exit part of an exit or a reversal. -/
def closePart (config : WalletConfig) (message : PaperSignal) (candidate : Candidate) :
    Except WalletFault Candidate :=
  if message.intent = .enter then .ok candidate
  else do
    let current ← raising (bookPosition candidate.book message.signal.symbol)
    match current with
    | none => throw (.rejected "position_required")
    | some current => do
      rejectUnless (¬(message.intent = .reverse ∧ message.side = some current.side))
        "reverse_requires_opposite_side"
      let closed ← executeExit config message candidate.book current candidate.cash
      return {
        book := closed.2.1
        cash := closed.2.2
        openRisk := none
        fills := candidate.fills ++ [closed.1] }

/-- The entry part of an entry or a reversal. -/
def openPart (config : WalletConfig) (message : PaperSignal) (candidate : Candidate) :
    Except WalletFault Candidate :=
  if message.intent = .exit then .ok candidate
  else do
    let held ← raising (bookPosition candidate.book message.signal.symbol)
    rejectUnless (held = none) "pyramiding_disabled"
    let any ← raising (anyPosition config.policy candidate.book)
    rejectUnless (any = none) "max_open_positions"
    let opened ← executeEntry config message candidate.book candidate.cash
      candidate.openRisk.toList
    match message.side with
    | none => throw (.raised .assertionError)
    | some side =>
      return {
        book := opened.2.1
        cash := opened.2.2
        openRisk := some (message.signal.symbol, side, config.policy.riskPerTrade)
        fills := candidate.fills ++ [opened.1] }

def snapshot (cash : Decimal) (position : Option Position) (fills : List Fill) :
    Except Fault AccountingSnapshot := do
  let totalEquity := recompute cash position
  assertIdentity cash (positionValue position) totalEquity
  match fills.getLast? with
  | none => throw (.lookupError "tuple index out of range")
  | some last => return {
      occurredAt := last.timestamp
      cashBalance := cash
      positionValue := positionValue position
      totalEquity := totalEquity
      feeTotal := quantizeAmount (fills.map (·.fee)).sum
      slippageTotal := quantizeAmount (fills.map (·.slippage)).sum }

/-- `process`, up to the repository: the execution to commit and the wallet after it. -/
def process (config : WalletConfig) (wallet : WalletState) (message : PaperSignal) :
    Except WalletFault (WalletExecution × WalletState) := do
  rejectUnless (message.walletId = config.walletId) "wallet_mismatch"
  validateSignal config.policy wallet.killSwitchEngaged message
  let closed ← closePart config message {
    book := bookOf wallet.position
    cash := wallet.cash
    openRisk := wallet.openRisk
    fills := [] }
  let final ← openPart config message closed
  let position ← raising (anyPosition config.policy final.book)
  let accounting ← raising (snapshot final.cash position final.fills)
  raising (require (∀ fill ∈ final.fills, fill.symbol = message.signal.symbol)
    (.valueError "all fills must match the execution symbol"))
  return ({
    signalId := message.signalId
    symbol := message.signal.symbol
    fills := final.fills
    position := position
    accounting := accounting },
    { wallet with cash := final.cash, position := position, openRisk := final.openRisk })

end Wallet
end TradingSystem
