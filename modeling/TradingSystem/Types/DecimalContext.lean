import TradingSystem.Types.Enums
import TradingSystem.Types.Money

/-!
# Arithmetic in a decimal context

A decimal context rounds the result of every operation and holds a bounded number of digits: a
quantized value that does not fit raises. The default context has 28 digits. Most of the model
computes in a context that does neither. A function for which the default context makes a
difference is also modelled with the context as an argument, and the other model is its instance
without a limit.

* `DecimalContext` — how operations are rounded, and which quantized values fit.
* `DecimalContext.quantize`, `DecimalContext.truncate` — the two quantizers of the source.
* `defaultContext`, `exactContext` — 28 digits, and none at all.
-/

namespace TradingSystem

open Numeric

/-- How the results of operations are rounded, and which quantized values fit. -/
structure DecimalContext where
  round : Decimal → Decimal
  fits : Decimal → Bool

/-- The default context of the source: 28 digits, half to even. -/
def defaultContext : DecimalContext where
  round := contextRound
  fits value := decide (|value| < contextLimit)

/-- Exact operations without a limit. -/
def exactContext : DecimalContext where
  round value := value
  fits _ := true

/-- `_truncate_amount`, as a value: round toward zero to eight places. -/
def truncateAmount (value : Decimal) : Decimal :=
  if 0 ≤ value then ⌊value / qAmount⌋ * qAmount else ⌈value / qAmount⌉ * qAmount

namespace DecimalContext

/-- `quantize_amount` and `quantize_price`. -/
def quantize (context : DecimalContext) (value : Decimal) : Except Fault Decimal :=
  if context.fits (quantizeAmount value) then .ok (quantizeAmount value)
  else .error .invalidOperation

/-- `_truncate_amount`. -/
def truncate (context : DecimalContext) (value : Decimal) : Except Fault Decimal :=
  if context.fits (truncateAmount value) then .ok (truncateAmount value)
  else .error .invalidOperation

/-- Without a limit the quantizer is that of the amounts. -/
theorem quantize_exactContext (value : Decimal) :
    exactContext.quantize value = .ok (quantizeAmount value) := rfl

theorem truncate_exactContext (value : Decimal) :
    exactContext.truncate value = .ok (truncateAmount value) := rfl

theorem defaultContext_round (value : Decimal) : defaultContext.round value = contextRound value :=
  rfl

variable {value value' result : Decimal} {fault : Fault}

/-- A value that is returned where it fits. -/
theorem ite_eq_ok {condition : Prop} [Decidable condition] :
    (if condition then Except.ok value else Except.error fault) = .ok result ↔
      condition ∧ result = value := by
  split_ifs with h
  · simp [h, eq_comm]
  · simp [h]

theorem ite_eq_error {condition : Prop} [Decidable condition] {fault' : Fault} :
    (if condition then Except.ok value else Except.error fault) = .error fault' ↔
      ¬condition ∧ fault' = fault := by
  split_ifs with h
  · simp [h]
  · simp [h, eq_comm]

theorem quantize_eq_ok : defaultContext.quantize value = .ok result ↔
    |quantizeAmount value| < contextLimit ∧ result = quantizeAmount value :=
  ite_eq_ok.trans (and_congr_left' decide_eq_true_iff)

theorem quantize_of_lt (h : |quantizeAmount value| < contextLimit) :
    defaultContext.quantize value = .ok (quantizeAmount value) := quantize_eq_ok.2 ⟨h, rfl⟩

@[simp] theorem quantize_zero : defaultContext.quantize 0 = .ok 0 := by
  refine quantize_eq_ok.2 ⟨?_, quantizeAmount_zero.symm⟩
  rw [quantizeAmount_zero, abs_zero]
  exact contextLimit_pos

/-- The quantizer raises at the limit only. -/
theorem quantize_eq_error : defaultContext.quantize value = .error fault ↔
    contextLimit ≤ |quantizeAmount value| ∧ fault = .invalidOperation :=
  ite_eq_error.trans (and_congr_left' ((not_congr decide_eq_true_iff).trans not_lt))

theorem truncate_eq_ok : defaultContext.truncate value = .ok result ↔
    |truncateAmount value| < contextLimit ∧ result = truncateAmount value :=
  ite_eq_ok.trans (and_congr_left' decide_eq_true_iff)

theorem truncate_eq_error : defaultContext.truncate value = .error fault ↔
    contextLimit ≤ |truncateAmount value| ∧ fault = .invalidOperation :=
  ite_eq_error.trans (and_congr_left' ((not_congr decide_eq_true_iff).trans not_lt))

/-- A nonnegative amount is quantized to itself, below the limit. -/
theorem quantize_contextRound_eq_ok (hmoney : IsMoney value) (hvalue : 0 ≤ value) :
    defaultContext.quantize (contextRound value) = .ok result ↔
      value < contextLimit ∧ result = value := by
  rw [quantize_eq_ok, abs_of_nonneg (quantizeAmount_nonneg (contextRound_nonneg hvalue))]
  by_cases hlt : value < contextLimit
  · rw [contextRound_of_isMoney hmoney (by rwa [abs_of_nonneg hvalue]), hmoney.quantizeAmount_eq]
  · -- from the limit on, both roundings stay there
    have hround : contextLimit ≤ quantizeAmount (contextRound value) := by
      have hle := quantizeAmount_mono (contextRound_mono (not_lt.1 hlt))
      rwa [contextRound_contextLimit, isMoney_contextLimit.quantizeAmount_eq] at hle
    exact ⟨fun h => absurd h.1 (not_lt.2 hround), fun h => absurd h.1 hlt⟩

/-- **Smaller values fit too**, and their quantized value is no larger. -/
theorem quantize_mono (hvalue : 0 ≤ value) (h : value ≤ value')
    (hresult : defaultContext.quantize value' = .ok result) :
    ∃ smaller, defaultContext.quantize value = .ok smaller ∧ 0 ≤ smaller ∧ smaller ≤ result := by
  obtain ⟨hlt, rfl⟩ := quantize_eq_ok.1 hresult
  have hnonneg := quantizeAmount_nonneg hvalue
  have hmono := quantizeAmount_mono h
  refine ⟨_, quantize_of_lt ?_, hnonneg, hmono⟩
  rw [abs_of_nonneg hnonneg]
  exact (hmono.trans (le_abs_self _)).trans_lt hlt

end DecimalContext
end TradingSystem
