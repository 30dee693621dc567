import TradingSystem.Logic.MapM
import TradingSystem.Logic.Program
import TradingSystem.Series.Keys
import Mathlib.Data.String.Basic

/-!
# Registered declarations

A row of the strategy catalog holds decoded JSON: any column can be missing, null or malformed.
`catalog_declaration_mismatch` compares the declarations registered in a row with those of the
deployed class.

* `Object` — a decoded value, with Python's equality and order.
* `seriesDescriptorParts`, `indicatorIdentities` — the identities of required series.
* `catalogDeclarationMismatch` — the comparison.
* `catalogDeclarationMismatch_ok_iff` — when the comparison does not raise.
-/

namespace TradingSystem
namespace Catalog

open Data Logic SeriesKeys

/-! ### Decoded values -/

/-- A decoded JSON value; a dictionary has string keys. -/
inductive Object
  | none
  | bool (value : Bool)
  | int (value : ℤ)
  | float (value : Float64)
  | str (value : String)
  | list (items : List Object)
  | dict (members : List (String × Object))

namespace Object

/-- The numbers among the values. -/
def scalar : Object → Option SeriesParam
  | .bool value => some (.bool value)
  | .int value => some (.int value)
  | .float value => some (.float value)
  | _ => Option.none

def isNone : Object → Bool
  | .none => true
  | _ => false

/-- Two numbers are equal. -/
def equalScalars (left right : Object) : Bool :=
  match left.scalar, right.scalar with
  | some left, some right => left.equal right
  | _, _ => false

mutual

/-- `left == right`. -/
def equal : Object → Object → Bool
  | .none, .none => true
  | .str left, .str right => left = right
  | .list left, .list right => equalItems left right
  | .dict left, .dict right => left.length = right.length && equalMembers left right
  | left, right => equalScalars left right

def equalItems : List Object → List Object → Bool
  | [], [] => true
  | left :: lefts, right :: rights => left.equal right && equalItems lefts rights
  | _, _ => false

/-- Every member has an equal one under its key. -/
def equalMembers : List (String × Object) → List (String × Object) → Bool
  | [], _ => true
  | (key, value) :: rest, members =>
    (match members.lookup key with
      | some other => value.equal other
      | Option.none => false) && equalMembers rest members

end

/-- The place of a number: infinities lie outside, and what is not a number has no place. -/
def rank : SeriesParam → Option (ℤ × ℚ)
  | .float (.infinite negative) => some (if negative then -1 else 1, 0)
  | param => param.number.map fun value => (0, value)

/-- `left < right` of two numbers. -/
def ltScalars (left right : SeriesParam) : Bool :=
  match rank left, rank right with
  | some left, some right => left.1 < right.1 ∨ (left.1 = right.1 ∧ left.2 < right.2)
  | _, _ => false

mutual

/-- `left < right`; `none` is a `TypeError`. -/
def lt : Object → Object → Option Bool
  | .str left, .str right => some (left < right)
  | .list left, .list right => ltItems left right
  | left, right =>
    match left.scalar, right.scalar with
    | some left, some right => some (ltScalars left right)
    | _, _ => Option.none

/-- Lists are ordered by the first place where they differ. -/
def ltItems : List Object → List Object → Option Bool
  | [], [] => some false
  | [], _ :: _ => some true
  | _ :: _, [] => some false
  | left :: lefts, right :: rights =>
    if left.equal right then ltItems lefts rights else left.lt right

end

end Object

/-- What a call raises; `baseException` is neither an `Exception` nor a `SystemExit`. -/
inductive Raised
  | valueError | typeError | keyError | exception | systemExit | baseException
deriving DecidableEq

/-- Lists and dictionaries cannot be members of a set. -/
def Object.hashable : Object → Bool
  | .list _ => false
  | .dict _ => false
  | _ => true

/-- The items that `for … in value` visits. -/
def Object.iterate : Object → Except Raised (List Object)
  | .list items => .ok items
  | .str value => .ok (value.toList.map fun c => .str (String.singleton c))
  | .dict members => .ok (members.map fun member => .str member.1)
  | _ => .error .typeError

/-! ### Required series -/

/-- `set(keys) in ({"name", "params"}, {"name", "params", "timeframe"})`. -/
def hasDescriptorKeys (keys : List Object) : Bool :=
  keys.any (Object.equal (.str "name")) && keys.any (Object.equal (.str "params")) &&
    keys.all fun key => ["name", "params", "timeframe"].any fun name => key.equal (.str name)

def seriesDescriptorParts : Object → Except Raised (String × List (String × Object) × String)
  | .dict members =>
    if ¬ hasDescriptorKeys (members.map fun member => .str member.1) then .error .valueError
    else
      match members.lookup "name" with
      | some (.str name) =>
        if name = "" then .error .typeError
        else
          match members.lookup "params" with
          | some (.dict params) =>
            match (members.lookup "timeframe").getD (.str "strategy") with
            | .str timeframe =>
              if timeframe ≠ "strategy" ∧ ¬ isTimeframe timeframe then .error .valueError
              else .ok (name, params, timeframe)
            | _ => .error .valueError
          | _ => .error .typeError
      | _ => .error .typeError
  -- No character is a key, and a list with the right items cannot be indexed by them.
  | .str _ => .error .valueError
  | .list items =>
    if items.all Object.hashable ∧ ¬ hasDescriptorKeys items then .error .valueError
    else .error .typeError
  | _ => .error .typeError

/-- A required series: its name, sorted parameters and timeframe. -/
structure Identity where
  name : String
  params : List (String × Object)
  timeframe : String

namespace Identity

/-- Parameters in the order of their keys are equal item by item. -/
def equalParams : List (String × Object) → List (String × Object) → Bool
  | [], [] => true
  | (key, value) :: rest, (key', value') :: rest' =>
    key = key' && value.equal value' && equalParams rest rest'
  | _, _ => false

/-- `left == right`. -/
def equal (left right : Identity) : Bool :=
  left.name = right.name && equalParams left.params right.params &&
    left.timeframe = right.timeframe

/-- The order of the parameters, and behind equal ones that of the timeframes. -/
def ltParams (timeframe timeframe' : String) :
    List (String × Object) → List (String × Object) → Option Bool
  | [], [] => some (timeframe < timeframe')
  | [], _ :: _ => some true
  | _ :: _, [] => some false
  | (key, value) :: rest, (key', value') :: rest' =>
    if key ≠ key' then some (key < key')
    else if value.equal value' then ltParams timeframe timeframe' rest rest'
    else value.lt value'

/-- `left < right`; `none` is a `TypeError`. -/
def lt (left right : Identity) : Option Bool :=
  if left.name ≠ right.name then some (left.name < right.name)
  else ltParams left.timeframe right.timeframe left.params right.params

end Identity

/-- The identities of a list of requirements, without repetitions. -/
def requirementIdentities (requirements : List Object) : Except Raised (List Identity) :=
  requirements.foldlM (fun identities requirement => do
    let (name, params, timeframe) ← seriesDescriptorParts requirement
    let identity : Identity := ⟨name, sortBy Prod.fst params, timeframe⟩
    pure (if identities.any identity.equal then identities else identities ++ [identity])) []

/-- What `sorted` makes of a list of identities. In which order it compares them is up to the
interpreter, and items that stand on the two sides of a number without a place may never be
compared; so the model is for every such function. -/
abbrev Sorted := List Identity → Except Raised (List Identity)

/-- Put an identity behind those that are not less, in a list whose greatest item is first. -/
def insertIdentity (identity : Identity) : List Identity → Except Raised (List Identity)
  | [] => .ok [identity]
  | other :: rest =>
    match identity.lt other with
    | some true => (insertIdentity identity rest).map (other :: ·)
    | some false => .ok (identity :: other :: rest)
    | none => .error .typeError

/-- `sorted` by insertion. -/
def sortedByInsertion : Sorted := fun identities => do
  let descending ← identities.foldlM (fun sorted identity => insertIdentity identity sorted) []
  pure descending.reverse

def indicatorIdentities (sorted : Sorted) (requirements : List Object) :
    Except Raised (List Identity) :=
  requirementIdentities requirements >>= sorted

/-- Tuples of identities are equal item by item. -/
def equalIdentities : List Identity → List Identity → Bool
  | [], [] => true
  | left :: lefts, right :: rights => left.equal right && equalIdentities lefts rights
  | _, _ => false

/-! ### The comparison -/

/-- A row of the catalog, by `get`: what is missing is `None`. -/
abbrev Entry := String → Object

/-- `StrategyMetadata`, as far as it is compared. -/
structure StrategyMetadata where
  requiredIndicators : List (List (String × Object))
  minHistory : ℤ
  supportedTimeframes : List String

/-- Which declaration disagrees. -/
inductive Mismatch
  | minHistory | supportedTimeframes | requiredIndicators
deriving DecidableEq

/-- The registered history is given and another one. -/
def historyDiffers (entry : Entry) (metadata : StrategyMetadata) : Bool :=
  !(entry "min_history").isNone && !(entry "min_history").equal (.int metadata.minHistory)

/-- The registered timeframes are given and others. -/
def timeframesDiffer (entry : Entry) (metadata : StrategyMetadata) : Except Raised Bool :=
  if (entry "supported_timeframes").isNone then .ok false
  else do
    let registered ← (entry "supported_timeframes").iterate
    pure !Object.equalItems registered (metadata.supportedTimeframes.map .str)

/-- The registered requirements are given and others. -/
def indicatorsDiffer (sorted : Sorted) (entry : Entry) (metadata : StrategyMetadata) :
    Except Raised Bool :=
  if (entry "required_indicators_json").isNone then .ok false
  else do
    let items ← (entry "required_indicators_json").iterate
    let registered ← indicatorIdentities sorted items
    let declared ← indicatorIdentities sorted (metadata.requiredIndicators.map .dict)
    pure !equalIdentities registered declared

def catalogDeclarationMismatch (sorted : Sorted) (entry : Entry) (metadata : StrategyMetadata) :
    Except Raised (Option Mismatch) := do
  if historyDiffers entry metadata then return some .minHistory
  if ← timeframesDiffer entry metadata then return some .supportedTimeframes
  if ← indicatorsDiffer sorted entry metadata then return some .requiredIndicators
  return none

/-! ### When the comparison raises -/

/-- Every requirement is a well-formed descriptor, and their identities can be sorted. -/
def LegibleRequirements (sorted : Sorted) (requirements : List Object) : Prop :=
  ∃ identities, requirementIdentities requirements = .ok identities ∧
    ∃ ordered, sorted identities = .ok ordered

/-- A column that is missing, null, or can be iterated over. -/
def Object.Listed (value : Object) : Prop :=
  value.isNone = true ∨ ∃ items, value.iterate = .ok items

/-- The declarations can be compared: the histories differ, or the registered timeframes are a
list, and these differ, or the requirements on both sides are legible. -/
def Legible (sorted : Sorted) (entry : Entry) (metadata : StrategyMetadata) : Prop :=
  historyDiffers entry metadata = true ∨
    ((entry "supported_timeframes").Listed ∧
      (timeframesDiffer entry metadata = .ok true ∨
        (entry "required_indicators_json").isNone = true ∨
        ∃ items, (entry "required_indicators_json").iterate = .ok items ∧
          LegibleRequirements sorted items ∧
          LegibleRequirements sorted (metadata.requiredIndicators.map .dict)))

variable {sorted : Sorted}

theorem indicatorIdentities_ok_iff {requirements : List Object} :
    (∃ identities, indicatorIdentities sorted requirements = .ok identities) ↔
      LegibleRequirements sorted requirements := by
  constructor
  · rintro ⟨identities, h⟩
    obtain ⟨found, hfound, hsorted⟩ := Except.bind_eq_ok.1 h
    exact ⟨found, hfound, identities, hsorted⟩
  · rintro ⟨found, hfound, ordered, hsorted⟩
    exact ⟨ordered, Except.bind_eq_ok.2 ⟨found, hfound, hsorted⟩⟩

theorem timeframesDiffer_ok_iff {entry : Entry} {metadata : StrategyMetadata} :
    (∃ differ, timeframesDiffer entry metadata = .ok differ) ↔
      (entry "supported_timeframes").Listed := by
  rw [timeframesDiffer, Object.Listed]
  -- A missing or null column is not looked at.
  split_ifs with hnone
  · exact ⟨fun _ => .inl hnone, fun _ => ⟨false, rfl⟩⟩
  · constructor
    · rintro ⟨differ, h⟩
      obtain ⟨items, hitems, -⟩ := Except.bind_eq_ok.1 h
      exact .inr ⟨items, hitems⟩
    · rintro (h | ⟨items, hitems⟩)
      · exact absurd h hnone
      · exact ⟨_, Except.bind_eq_ok.2 ⟨items, hitems, rfl⟩⟩

theorem indicatorsDiffer_ok_iff {entry : Entry} {metadata : StrategyMetadata} :
    (∃ differ, indicatorsDiffer sorted entry metadata = .ok differ) ↔
      (entry "required_indicators_json").isNone = true ∨
        ∃ items, (entry "required_indicators_json").iterate = .ok items ∧
          LegibleRequirements sorted items ∧
          LegibleRequirements sorted (metadata.requiredIndicators.map .dict) := by
  rw [indicatorsDiffer]
  split_ifs with hnone
  · exact ⟨fun _ => .inl hnone, fun _ => ⟨false, rfl⟩⟩
  · constructor
    · rintro ⟨differ, h⟩
      -- Each of the three steps returned: the loop over the column and both lists of identities.
      obtain ⟨items, hitems, h⟩ := Except.bind_eq_ok.1 h
      obtain ⟨registered, hregistered, h⟩ := Except.bind_eq_ok.1 h
      obtain ⟨declared, hdeclared, -⟩ := Except.bind_eq_ok.1 h
      exact .inr ⟨items, hitems, indicatorIdentities_ok_iff.1 ⟨registered, hregistered⟩,
        indicatorIdentities_ok_iff.1 ⟨declared, hdeclared⟩⟩
    · rintro (h | ⟨items, hitems, hregistered, hdeclared⟩)
      · exact absurd h hnone
      · obtain ⟨registered, hregistered⟩ := indicatorIdentities_ok_iff.2 hregistered
        obtain ⟨declared, hdeclared⟩ := indicatorIdentities_ok_iff.2 hdeclared
        exact ⟨_, Except.bind_eq_ok.2 ⟨items, hitems, Except.bind_eq_ok.2
          ⟨registered, hregistered, Except.bind_eq_ok.2 ⟨declared, hdeclared, rfl⟩⟩⟩⟩

/-- **The comparison returns** exactly when the declarations are legible. -/
theorem catalogDeclarationMismatch_ok_iff {entry : Entry} {metadata : StrategyMetadata} :
    (∃ mismatch, catalogDeclarationMismatch sorted entry metadata = .ok mismatch) ↔
      Legible sorted entry metadata := by
  rw [Legible, ← timeframesDiffer_ok_iff, ← indicatorsDiffer_ok_iff, catalogDeclarationMismatch]
  -- The comparison stops at the first column that differs; what comes later is not read.
  cases historyDiffers entry metadata with
  | true => exact ⟨fun _ => .inl rfl, fun _ => ⟨_, rfl⟩⟩
  | false =>
    cases timeframesDiffer entry metadata with
    | error raised =>
      simp [bind, Except.bind]
    | ok differ =>
      cases differ with
      | true => simp [bind, Except.bind, pure, Except.pure]
      | false =>
        cases indicatorsDiffer sorted entry metadata with
        | error raised => simp [bind, Except.bind]
        | ok differ => cases differ <;> simp [bind, Except.bind, pure, Except.pure]

end Catalog
end TradingSystem
