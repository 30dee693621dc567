import TradingSystem.Logic.Program

/-!
# Enumerations and faults

The shared enumerations of orders, positions, markets and exits, and the
exceptions the modelled functions raise. A fault keeps the exception class and
the text of its raise site, so that two raise sites of the source stay
distinguishable.
-/

namespace TradingSystem

/-- Supported exchange order kinds. -/
inductive OrderType
  | market | limit | stopMarket | takeProfitMarket | trailingStopMarket
deriving DecidableEq, Repr

/-- Exchange order direction. -/
inductive OrderSide
  | buy | sell
deriving DecidableEq, Repr

/-- Order lifecycle state. -/
inductive OrderStatus
  | new | partiallyFilled | pendingCancel | filled | cancelled | expired | rejected | failed
deriving DecidableEq, Repr

namespace OrderStatus

/-- Whether no further state transition is possible. -/
def isTerminal : OrderStatus → Bool
  | filled | cancelled | expired | rejected | failed => true
  | new | partiallyFilled | pendingCancel => false

/-- Whether the order remains active. -/
def isActive : OrderStatus → Bool
  | new | partiallyFilled | pendingCancel => true
  | filled | cancelled | expired | rejected | failed => false

/-- The value of the status, as it appears in error texts. -/
def value : OrderStatus → String
  | new => "new"
  | partiallyFilled => "partially_filled"
  | pendingCancel => "pending_cancel"
  | filled => "filled"
  | cancelled => "cancelled"
  | expired => "expired"
  | rejected => "rejected"
  | failed => "failed"

/-- `VALID_TRANSITIONS` of the source. -/
def validTransitions : OrderStatus → List OrderStatus
  | new => [partiallyFilled, filled, pendingCancel, cancelled, rejected, expired, failed]
  | partiallyFilled => [partiallyFilled, filled, pendingCancel, cancelled, failed]
  | pendingCancel => [cancelled, filled, failed]
  | filled | cancelled | expired | rejected | failed => []

end OrderStatus

/-- Exchange position side or one-way mode. -/
inductive PositionSide
  | long | short | both
deriving DecidableEq, Repr

/-- The enumeration name of a position side. -/
def PositionSide.name : PositionSide → String
  | long => "LONG"
  | short => "SHORT"
  | both => "BOTH"

/-- Position margin isolation mode. -/
inductive MarginType
  | cross | isolated
deriving DecidableEq, Repr

/-- Trading market kind. -/
inductive MarketType
  | spot | futures
deriving DecidableEq, Repr

/-- Reason a position was closed. -/
inductive ExitReason
  | stopLoss | takeProfit | trailingStop | liquidation | signalExit | reversal | dataGap
  | endOfData
deriving DecidableEq, Repr

/-- An exception of the source: its class and the text of its raise site. -/
inductive Fault
  | valueError (message : String)
  | typeError (message : String)
  | runtimeError (message : String)
  | keyError (message : String)
  | lookupError (message : String)
  | notImplementedError (message : String)
  | overflowError (message : String)
  | integrityError (message : String)
  | assertionError
  | zeroDivision
  | invalidOperation
deriving DecidableEq, Repr

/-- `raise` in a constructor or a pure function unless the condition holds. -/
def require (condition : Prop) [Decidable condition] (fault : Fault) : Except Fault Unit :=
  if condition then .ok () else .error fault

theorem require_eq_ok {condition : Prop} [Decidable condition] {fault : Fault} {u : Unit} :
    require condition fault = .ok u ↔ condition := by
  unfold require
  split <;> simp_all

theorem require_eq_error {condition : Prop} [Decidable condition] {fault fault' : Fault} :
    require condition fault = .error fault' ↔ ¬condition ∧ fault' = fault := by
  unfold require
  split <;> simp_all [eq_comm]

@[simp] theorem require_true {fault : Fault} : require True fault = .ok () := rfl

end TradingSystem
