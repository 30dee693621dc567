import TradingSystem.SignalService.Service

/-!
# Sessions over regular markets

Stores whose streams hold their first candles, all of one price, and the sessions over them
of a strategy that only watches. Concrete runs of the service are evaluated on them.
-/

namespace TradingSystem
namespace SignalService

open Numeric Logic

def oneHour : Timeframe := ⟨1, .hours, Nat.one_pos⟩

def fiveMinutes : Timeframe := ⟨5, .minutes, by decide⟩

/-- The candle number `k` of a stream. -/
def regularCandle (stream : CandleStream) (k : ℕ) : Candle :=
  Candle.flat stream.1 stream.2 (stream.2.duration * k) (Binary64.ofRat 1) (by decide +kernel)

theorem regularCandle_ordered (stream : CandleStream) {k l : ℕ} (h : k < l) :
    (regularCandle stream k).closeTime ≤ (regularCandle stream l).openTime := by
  change stream.2.duration * k + stream.2.duration ≤ stream.2.duration * l
  have hduration := stream.2.duration_pos
  have hsucc : (k : ℤ) + 1 ≤ l := by exact_mod_cast h
  nlinarith

/-- **A regular market.** Each stream holds its first `count` candles. -/
def regularStore (count : CandleStream → ℕ) : Store where
  candles stream := (List.range (count stream)).map (regularCandle stream)
  stream_eq := by
    intro stream candle hmem
    rw [List.mem_map] at hmem
    obtain ⟨k, -, rfl⟩ := hmem
    exact ⟨rfl, rfl⟩
  ordered := by
    intro stream
    rw [List.pairwise_map]
    exact List.pairwise_lt_range.imp fun h => regularCandle_ordered stream h

/-- A series that counts what it consumed. -/
def countingSpec (timeframe : Timeframe) : ResolvedSeriesSpec where
  name := "count"
  params := []
  timeframe := timeframe
  needsReferenceSeries := false
  minHistory := 1
  undefinedOutputs := []
  warmedUp inputs := decide (0 < inputs.length)
  compute inputs := .scalar (some inputs.length)

/-- A paper session on the hourly stream. -/
def hourlyConfig : SignalGenerationConfig where
  strategyId := "watch"
  symbol := "BTCUSDT"
  timeframe := oneHour
  marketType := .futures
  referenceSymbol := none
  mode := .paper
  strategyId_ne := by decide
  symbol_ne := by decide
  referenceSymbol_ne := by simp

/-- A strategy that watches its series and answers nothing. -/
def watching (feed : SignalDataFeed) (specs : List ResolvedSeriesSpec) : Environment where
  feed := feed
  createRuntime _ := .ok {
    supportedTimeframes := [oneHour]
    minHistory := 1
    decisionIntentOnly := true
    resolveSeriesSpecs := fun _ => .ok specs
    resolvedParams := []
    policy := none }
  analyze _ _ := .ok none
  store _ := .ok true
  publish := none

/-- A feed whose reads fail. -/
def brokenFeed : SignalDataFeed where
  candles _ _ _ := .error (.runtimeError "connection lost")
  candlesAfter _ _ _ _ := .error (.runtimeError "connection lost")

end SignalService
end TradingSystem
