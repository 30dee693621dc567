import TradingSystem.Data.SortedUnique
import TradingSystem.Logic.MapM
import TradingSystem.Logic.Program
import TradingSystem.Series.Keys
import Mathlib.Data.Prod.Lex
import Mathlib.Data.String.Basic
import Mathlib.Data.Sum.Order

/-!
# Series resolution

A strategy declares series by name, parameters and timeframe; `resolve_series_specs` finds the
registered calculations they name, in one of three modes, and lists each once.

* `SeriesSpec.identifier` — the text a registry sorts and de-duplicates by.
* `Descriptor.parts`, `resolveSeriesTimeframe` — a declaration and the timeframe it names.
* `resolveDescriptor` — the calculation of one descriptor.
* `seriesSpecsFromDescriptors`, `resolveSeriesSpecs` — the lists.
* `resolution_iff` — when the list does not depend on the order of the declarations and mode
  `all` keeps what mode `auto` resolves.
-/

namespace TradingSystem
namespace SeriesResolution

open Data Numeric SeriesKeys

/-! ### Identifiers -/

/-- `repr` of a float: an integer has a decimal, from `1e16` on an exponent. -/
def floatRepr (value : Binary64) : List Char :=
  if value.val.den = 1 then
    if value.val.num.natAbs < 10 ^ 16 then Json.renderInt value.val.num ++ ".0".toList
    else
      let digits := Nat.toDigits 10 value.repr.num.natAbs
      Json.signText (value.val < 0) ++
        mantissaText (digits.reverse.dropWhile (· = '0')).reverse ++
        'e' :: '+' :: exponentText (digits.length - 1)
  else fractionText value.repr

/-- `repr` of a parameter; that of a string is `reprStr`. -/
def reprParam (reprStr : String → String) : SeriesParam → List Char
  | .bool value => (if value then "True" else "False").toList
  | .int value => Json.renderInt value
  | .float (.finite value) => floatRepr value
  | .float (.infinite negative) => (if negative then "-inf" else "inf").toList
  | .float (.nan _) => "nan".toList
  | .str value => (reprStr value).toList

/-- `SeriesSpec.identifier`: the name, with the parameters in parentheses. -/
def identifier (reprStr : String → String) (spec : SeriesSpec) : String :=
  if spec.params.items = [] then spec.name
  else String.ofList (spec.name.toList ++ '(' :: [','].intercalate
    (spec.params.items.map fun item => item.1.toList ++ '=' :: reprParam reprStr item.2) ++ [')'])

/-! ### Declarations -/

inductive ResolutionError
  | valueError | typeError | keyError | runtimeError
deriving DecidableEq

/-- A declaration with string keys and scalar values. -/
structure Descriptor where
  name : String
  params : Params
  timeframe : Option String
deriving DecidableEq

/-- `series_descriptor_parts`. -/
def Descriptor.parts (descriptor : Descriptor) :
    Except ResolutionError (String × Params × String) :=
  let timeframe := descriptor.timeframe.getD "strategy"
  if descriptor.name = "" then .error .typeError
  else if timeframe ≠ "strategy" ∧ ¬ isTimeframe timeframe then .error .valueError
  else .ok (descriptor.name, descriptor.params, timeframe)

def resolveSeriesTimeframe (declared execution : String) : Except ResolutionError String :=
  if ¬ isTimeframe execution then .error .valueError
  else if declared = "strategy" then .ok execution
  else if declared = execution then .error .valueError
  else .ok declared

/-- A calculation on a timeframe. -/
structure ResolvedSeries where
  spec : SeriesSpec
  timeframe : String
deriving DecidableEq

/-! ### Registries -/

section Registries

variable (casefold reprStr : String → String)

/-- The name is one of the registry's, whatever its case. -/
def Registry.owns (registry : Registry) (name : String) : Bool :=
  registry.specs.any fun spec => casefold spec.name = casefold name

/-- `list`: the calculations in the order of their identifiers. -/
def Registry.list (registry : Registry) : List SeriesSpec :=
  sortBy (identifier reprStr) registry.specs

/-- `_descriptor_spec`: the only calculation with the name and the parameters. -/
def Registry.descriptorSpec (registry : Registry) (descriptor : Descriptor) :
    Except ResolutionError SeriesSpec :=
  match registry.specs.filter fun spec => casefold spec.name = casefold descriptor.name ∧
      spec.params.equal descriptor.params with
  | [spec] => .ok spec
  | _ => .error .keyError

/-- `specs_from_descriptors`: the last calculation of each identifier, in their order. -/
def Registry.specsFromDescriptors (registry : Registry) (descriptors : List Descriptor) :
    Except ResolutionError (List SeriesSpec) := do
  let specs ← descriptors.mapM (Registry.descriptorSpec casefold registry)
  pure (sortBy (identifier reprStr) (specs.foldl (fun selected spec =>
    selected.filter (fun other => identifier reprStr other ≠ identifier reprStr spec) ++ [spec])
    []))

variable (registries : Registries casefold)

/-- The registry that owns a descriptor's name. -/
inductive Side
  | indicators | patterns
deriving DecidableEq

/-- One descriptor of `split_series_descriptors`. -/
def route (execution : String) (descriptor : Descriptor) : Except ResolutionError Side := do
  let (name, _, declared) ← descriptor.parts
  let _ ← resolveSeriesTimeframe declared execution
  match Registry.owns casefold registries.indicators name,
    Registry.owns casefold registries.patterns name with
  | true, true => throw .valueError
  | true, false => pure .indicators
  | false, true => pure .patterns
  | false, false => throw .keyError

def splitSeriesDescriptors (execution : String) (descriptors : List Descriptor) :
    Except ResolutionError (List Descriptor × List Descriptor) := do
  let routed ← descriptors.mapM fun descriptor => do
    let side ← route casefold registries execution descriptor
    pure (side, descriptor)
  pure ((routed.filter fun pair => pair.1 = .indicators).map Prod.snd,
    (routed.filter fun pair => pair.1 = .patterns).map Prod.snd)

/-- The calculation and the timeframe of one descriptor. -/
def resolveDescriptor (execution : String) (descriptor : Descriptor) :
    Except ResolutionError ResolvedSeries := do
  let (_, _, declared) ← descriptor.parts
  let timeframe ← resolveSeriesTimeframe declared execution
  let split ← splitSeriesDescriptors casefold registries execution [descriptor]
  let indicators ←
    Registry.specsFromDescriptors casefold reprStr registries.indicators split.1
  let patterns ← Registry.specsFromDescriptors casefold reprStr registries.patterns split.2
  match indicators ++ patterns with
  | [spec] => pure ⟨spec, timeframe⟩
  | _ => throw .runtimeError

/-- `indicator_order`: the place of the last registered indicator with an identifier. -/
def indicatorOrder (name : String) : Option ℕ :=
  (((Registry.list reprStr registries.indicators).zipIdx.filter fun pair =>
    identifier reprStr pair.1 = name).getLast?).map Prod.snd

/-- The order of the resolved series: indicators by their place, the others by name, and then by
timeframe. -/
def sortKey (item : ResolvedSeries) : (ℕ ×ₗ String) ⊕ₗ (String ×ₗ String) :=
  match indicatorOrder casefold reprStr registries (identifier reprStr item.spec) with
  | some place => toLex (.inl (toLex (place, item.timeframe)))
  | none => toLex (.inr (toLex (casefold item.spec.name, item.timeframe)))

/-- What repetitions are told by. -/
def identityOf (item : ResolvedSeries) : String × String :=
  (identifier reprStr item.spec, item.timeframe)

def seriesSpecsFromDescriptors (execution : String) (descriptors : List Descriptor) :
    Except ResolutionError (List ResolvedSeries) := do
  let resolved ← descriptors.mapM (resolveDescriptor casefold reprStr registries execution)
  pure (sortedUnique (identityOf reprStr) (sortKey casefold reprStr registries) resolved)

/-- The modes of `resolve_series_specs`. -/
inductive Mode
  | auto | explicit | all
deriving DecidableEq

def resolveSeriesSpecs (execution : String) (mode : Mode) (declared explicit : List Descriptor) :
    Except ResolutionError (List ResolvedSeries) := do
  let _ ← splitSeriesDescriptors casefold registries execution declared
  let _ ← splitSeriesDescriptors casefold registries execution explicit
  match mode with
  | .auto => seriesSpecsFromDescriptors casefold reprStr registries execution declared
  | .explicit => seriesSpecsFromDescriptors casefold reprStr registries execution explicit
  | .all => do
    let patterns ← seriesSpecsFromDescriptors casefold reprStr registries execution
      (declared.filter fun descriptor => Registry.owns casefold registries.patterns descriptor.name)
    pure ((Registry.list reprStr registries.indicators).map (⟨·, execution⟩) ++ patterns)

end Registries

/-! ### One descriptor -/

section Descriptors

variable {casefold reprStr : String → String} {registries : Registries casefold}
  {execution : String} {descriptor : Descriptor} {item other : ResolvedSeries}

open Logic

theorem mem_of_descriptorSpec {registry : Registry} {spec : SeriesSpec}
    (h : Registry.descriptorSpec casefold registry descriptor = .ok spec) :
    spec ∈ registry.specs := by
  rw [Registry.descriptorSpec] at h
  split at h
  · next found hfilter =>
    cases h
    exact (List.mem_filter.1 (hfilter ▸ List.mem_singleton_self spec)).1
  · cases h

theorem specsFromDescriptors_nil (registry : Registry) :
    Registry.specsFromDescriptors casefold reprStr registry [] = .ok [] := rfl

theorem specsFromDescriptors_singleton (registry : Registry) :
    Registry.specsFromDescriptors casefold reprStr registry [descriptor] =
      (Registry.descriptorSpec casefold registry descriptor).map fun spec => [spec] := by
  cases h : Registry.descriptorSpec casefold registry descriptor with
  | error failure =>
    simp [Registry.specsFromDescriptors, h, bind, Except.bind, Except.map]
  | ok spec =>
    simp [Registry.specsFromDescriptors, h, bind, Except.bind, Except.map, pure, Except.pure,
      sortBy]

theorem splitSeriesDescriptors_singleton :
    splitSeriesDescriptors casefold registries execution [descriptor] =
      (route casefold registries execution descriptor).map fun side =>
        match side with
        | .indicators => ([descriptor], [])
        | .patterns => ([], [descriptor]) := by
  cases h : route casefold registries execution descriptor with
  | error failure =>
    simp [splitSeriesDescriptors, h, bind, Except.bind, Except.map]
  | ok side =>
    cases side <;>
      simp [splitSeriesDescriptors, h, bind, Except.bind, Except.map, pure, Except.pure]

/-- **What a descriptor resolves to**: a calculation of the registry that owns its name. -/
theorem resolveDescriptor_cases
    (h : resolveDescriptor casefold reprStr registries execution descriptor = .ok item) :
    (route casefold registries execution descriptor = .ok .indicators ∧
      item.spec ∈ registries.indicators.specs) ∨
    (route casefold registries execution descriptor = .ok .patterns ∧
      item.spec ∈ registries.patterns.specs) := by
  rw [resolveDescriptor] at h
  obtain ⟨parts, -, h⟩ := Except.bind_eq_ok.1 h
  obtain ⟨timeframe, -, h⟩ := Except.bind_eq_ok.1 h
  obtain ⟨split, hsplit, h⟩ := Except.bind_eq_ok.1 h
  rw [splitSeriesDescriptors_singleton] at hsplit
  cases hroute : route casefold registries execution descriptor with
  | error failure =>
    rw [hroute] at hsplit
    cases hsplit
  | ok side =>
    rw [hroute] at hsplit
    -- The registry that does not own the name is asked for nothing.
    cases side with
    | indicators =>
      cases hsplit
      rw [specsFromDescriptors_singleton, specsFromDescriptors_nil] at h
      cases hspec : Registry.descriptorSpec casefold registries.indicators descriptor with
      | error failure =>
        rw [hspec] at h
        cases h
      | ok spec =>
        rw [hspec] at h
        cases h
        exact .inl ⟨rfl, mem_of_descriptorSpec hspec⟩
    | patterns =>
      cases hsplit
      rw [specsFromDescriptors_singleton, specsFromDescriptors_nil] at h
      cases hspec : Registry.descriptorSpec casefold registries.patterns descriptor with
      | error failure =>
        rw [hspec] at h
        cases h
      | ok spec =>
        rw [hspec] at h
        cases h
        exact .inr ⟨rfl, mem_of_descriptorSpec hspec⟩

/-- A name is routed to the patterns exactly when these own it. -/
theorem owns_of_route {side : Side}
    (h : route casefold registries execution descriptor = .ok side) :
    Registry.owns casefold registries.patterns descriptor.name = true ↔ side = .patterns := by
  rw [route] at h
  obtain ⟨parts, hparts, h⟩ := Except.bind_eq_ok.1 h
  obtain ⟨timeframe, -, h⟩ := Except.bind_eq_ok.1 h
  -- `parts` hands the name on as it is.
  have hname : parts.1 = descriptor.name := by
    simp only [Descriptor.parts] at hparts
    split_ifs at hparts
    cases hparts
    rfl
  rw [hname] at h
  -- `route` raises where both registries own the name, and where neither does.
  cases hi : Registry.owns casefold registries.indicators descriptor.name <;>
    cases hp : Registry.owns casefold registries.patterns descriptor.name <;>
    rw [hi, hp] at h <;> cases h <;> simp

end Descriptors

/-! ### The order -/

section Order

variable {casefold reprStr : String → String} {registries : Registries casefold}
  {item other : ResolvedSeries} {name name' : String} {place : ℕ}

/-- The place of an identifier is that of an indicator with it. -/
theorem getElem?_of_indicatorOrder
    (h : indicatorOrder casefold reprStr registries name = some place) :
    ∃ spec, (Registry.list reprStr registries.indicators)[place]? = some spec ∧
      identifier reprStr spec = name := by
  rw [indicatorOrder, Option.map_eq_some_iff] at h
  obtain ⟨pair, hlast, rfl⟩ := h
  have hmem := List.mem_filter.1 (List.mem_of_getLast? hlast)
  exact ⟨pair.1, List.mem_zipIdx_iff_getElem?.1 hmem.1, of_decide_eq_true hmem.2⟩

theorem indicatorOrder_injective
    (h : indicatorOrder casefold reprStr registries name = some place)
    (h' : indicatorOrder casefold reprStr registries name' = some place) : name = name' := by
  obtain ⟨spec, hspec, rfl⟩ := getElem?_of_indicatorOrder h
  obtain ⟨spec', hspec', rfl⟩ := getElem?_of_indicatorOrder h'
  rw [hspec] at hspec'
  cases hspec'
  rfl

theorem mem_list {registry : Registry} {spec : SeriesSpec} :
    spec ∈ Registry.list reprStr registry ↔ spec ∈ registry.specs :=
  (perm_sortBy (identifier reprStr) registry.specs).mem_iff

/-- An identifier without a place is no indicator's. -/
theorem indicatorOrder_eq_none_iff :
    indicatorOrder casefold reprStr registries name = none ↔
      ∀ indicator ∈ registries.indicators.specs, identifier reprStr indicator ≠ name := by
  rw [indicatorOrder, Option.map_eq_none_iff, List.getLast?_eq_none_iff, List.filter_eq_nil_iff]
  constructor
  · intro h indicator hindicator heq
    obtain ⟨place, hplace⟩ := List.mem_iff_getElem?.1 (mem_list.2 hindicator)
    exact h (indicator, place) (List.mem_zipIdx_iff_getElem?.2 hplace) (by simpa using heq)
  · intro h pair hpair hpass
    exact h pair.1 (mem_list.1 (List.mem_of_getElem? (List.mem_zipIdx_iff_getElem?.1 hpair)))
      (by simpa using hpass)

/-- The identifier is no indicator's. -/
def Unplaced (reprStr : String → String) (registries : Registries casefold)
    (item : ResolvedSeries) : Prop :=
  ∀ indicator ∈ registries.indicators.specs,
    identifier reprStr indicator ≠ identifier reprStr item.spec

/-- **Two keys agree** for one identifier and timeframe, and for two names that are no
indicators' and agree up to case. -/
theorem sortKey_cases
    (h : sortKey casefold reprStr registries item = sortKey casefold reprStr registries other) :
    identityOf reprStr item = identityOf reprStr other ∨
      (Unplaced reprStr registries item ∧ Unplaced reprStr registries other ∧
        casefold item.spec.name = casefold other.spec.name ∧
        item.timeframe = other.timeframe) := by
  unfold sortKey at h
  cases hitem : indicatorOrder casefold reprStr registries (identifier reprStr item.spec) with
  | some place =>
    cases hother : indicatorOrder casefold reprStr registries (identifier reprStr other.spec) with
    | some place' =>
      rw [hitem, hother] at h
      simp only [toLex_inj, Sum.inl.injEq, Prod.mk.injEq] at h
      obtain ⟨rfl, htimeframe⟩ := h
      -- both are registered, and a place names one series
      exact .inl (Prod.ext (indicatorOrder_injective hitem hother) htimeframe)
    | none =>
      rw [hitem, hother] at h
      simp only [toLex_inj, reduceCtorEq] at h
  | none =>
    cases hother : indicatorOrder casefold reprStr registries (identifier reprStr other.spec) with
    | some place' =>
      rw [hitem, hother] at h
      simp only [toLex_inj, reduceCtorEq] at h
    | none =>
      rw [hitem, hother] at h
      simp only [toLex_inj, Sum.inr.injEq, Prod.mk.injEq] at h
      -- neither is registered, so only the folded names are compared
      exact .inr ⟨indicatorOrder_eq_none_iff.1 hitem, indicatorOrder_eq_none_iff.1 hother, h⟩

theorem sortKey_of_unplaced (hitem : Unplaced reprStr registries item)
    (hother : Unplaced reprStr registries other)
    (hname : casefold item.spec.name = casefold other.spec.name)
    (htimeframe : item.timeframe = other.timeframe) :
    sortKey casefold reprStr registries item = sortKey casefold reprStr registries other := by
  rw [sortKey, sortKey, indicatorOrder_eq_none_iff.2 hitem, indicatorOrder_eq_none_iff.2 hother]
  simp only [hname, htimeframe]

end Order

/-! ### The lists -/

section Lists

variable {casefold reprStr : String → String} {registries : Registries casefold}
  {execution : String} {declared explicit : List Descriptor} {auto : List ResolvedSeries}

open Logic

/-- An item that a collection declares. -/
def Resolved (reprStr : String → String) (registries : Registries casefold) (execution : String)
    (declared : List Descriptor) (item : ResolvedSeries) : Prop :=
  ∃ descriptor ∈ declared,
    resolveDescriptor casefold reprStr registries execution descriptor = .ok item

/-- What is listed is declared. -/
theorem resolved_of_mem
    (h : seriesSpecsFromDescriptors casefold reprStr registries execution declared = .ok auto)
    {item : ResolvedSeries} (hitem : item ∈ auto) :
    Resolved reprStr registries execution declared item := by
  obtain ⟨items, hitems, h⟩ := Except.bind_eq_ok.1 h
  cases h
  exact (mem_of_mapM hitems).1 (mem_of_mem_sortedUnique hitem)

/-- A list without repetitions of what a collection declares. -/
theorem mem_iff_resolved
    (h : seriesSpecsFromDescriptors casefold reprStr registries execution declared = .ok auto)
    (hidentity : ∀ item other, Resolved reprStr registries execution declared item →
      Resolved reprStr registries execution declared other →
      identityOf reprStr item = identityOf reprStr other → item = other)
    {item : ResolvedSeries} :
    item ∈ auto ↔ Resolved reprStr registries execution declared item := by
  refine ⟨resolved_of_mem h, fun hitem => ?_⟩
  obtain ⟨items, hitems, h⟩ := Except.bind_eq_ok.1 h
  cases h
  -- removing duplicates by identity drops nothing that is not there already
  refine (mem_sortedUnique fun a ha b hb => ?_).2 ((mem_of_mapM hitems).2 hitem)
  exact hidentity a b ((mem_of_mapM hitems).1 ha) ((mem_of_mapM hitems).1 hb)

/-- The descriptors that a collection is made of determine the list, where the identities and the
keys of its items differ. -/
theorem seriesSpecsFromDescriptors_congr
    (h : seriesSpecsFromDescriptors casefold reprStr registries execution declared = .ok auto)
    (hidentity : ∀ item other, Resolved reprStr registries execution declared item →
      Resolved reprStr registries execution declared other →
      identityOf reprStr item = identityOf reprStr other → item = other)
    (hname : ∀ item other, Resolved reprStr registries execution declared item →
      Resolved reprStr registries execution declared other →
      Unplaced reprStr registries item → Unplaced reprStr registries other →
      casefold item.spec.name = casefold other.spec.name → item.timeframe = other.timeframe →
      item = other)
    {declared' : List Descriptor} (hsame : ∀ d, d ∈ declared' ↔ d ∈ declared) :
    seriesSpecsFromDescriptors casefold reprStr registries execution declared' = .ok auto := by
  obtain ⟨items, hitems, h⟩ := Except.bind_eq_ok.1 h
  obtain ⟨items', hitems'⟩ := exists_mapM (l := declared') fun d hd =>
    exists_of_mapM hitems ((hsame d).1 hd)
  have hmem : ∀ item, item ∈ items' ↔ item ∈ items := by
    intro item
    rw [mem_of_mapM hitems, mem_of_mapM hitems']
    simp only [hsame]
  have hresolved : ∀ {item}, item ∈ items → Resolved reprStr registries execution declared item :=
    (mem_of_mapM hitems).1
  rw [seriesSpecsFromDescriptors, hitems', ← h]
  -- The two lists have the same items; identities and keys tell these apart.
  refine congrArg Except.ok (sortedUnique_congr (fun a ha b hb => ?_) (fun a ha b hb hkey => ?_)
    hmem)
  · exact hidentity a b (hresolved ha) (hresolved hb)
  · obtain heq | ⟨ha', hb', hfold, htimeframe⟩ := sortKey_cases hkey
    · exact hidentity a b (hresolved ha) (hresolved hb) heq
    · exact hname a b (hresolved ha) (hresolved hb) ha' hb' hfold htimeframe

/-- The descriptors of a collection whose name a pattern has. -/
def declaredPatterns (registries : Registries casefold) (declared : List Descriptor) :
    List Descriptor :=
  declared.filter fun descriptor => Registry.owns casefold registries.patterns descriptor.name

/-- A pattern is resolved by a descriptor whose name a pattern has. -/
theorem resolved_declaredPatterns {item : ResolvedSeries} :
    Resolved reprStr registries execution (declaredPatterns registries declared) item ↔
      Resolved reprStr registries execution declared item ∧
        item.spec ∈ registries.patterns.specs := by
  constructor
  · rintro ⟨descriptor, hmem, hresolve⟩
    obtain ⟨hdeclared, howns⟩ := List.mem_filter.1 hmem
    refine ⟨⟨descriptor, hdeclared, hresolve⟩, ?_⟩
    obtain ⟨hroute, -⟩ | ⟨-, hspec⟩ := resolveDescriptor_cases hresolve
    · cases (owns_of_route hroute).1 howns
    · exact hspec
  · rintro ⟨⟨descriptor, hdeclared, hresolve⟩, hspec⟩
    refine ⟨descriptor, List.mem_filter.2 ⟨hdeclared, ?_⟩, hresolve⟩
    -- no name is both an indicator and a pattern
    obtain ⟨-, hindicator⟩ | ⟨hroute, -⟩ := resolveDescriptor_cases hresolve
    · exact absurd rfl (registries.disjoint item.spec hindicator item.spec hspec).1
    · exact (owns_of_route hroute).2 rfl

theorem resolved_or {item : ResolvedSeries}
    (h : Resolved reprStr registries execution declared item) :
    item.spec ∈ registries.indicators.specs ∨ item.spec ∈ registries.patterns.specs := by
  obtain ⟨descriptor, -, hresolve⟩ := h
  exact (resolveDescriptor_cases hresolve).imp And.right And.right

/-- An accepted collection is listed, in both orders of two more descriptors of it. -/
theorem seriesSpecsFromDescriptors_cons {items : List ResolvedSeries}
    (hitems : declared.mapM (resolveDescriptor casefold reprStr registries execution) = .ok items)
    {first second : Descriptor} {item other : ResolvedSeries}
    (hfirst : resolveDescriptor casefold reprStr registries execution first = .ok item)
    (hsecond : resolveDescriptor casefold reprStr registries execution second = .ok other) :
    seriesSpecsFromDescriptors casefold reprStr registries execution
      (first :: second :: declared) =
      .ok (sortedUnique (identityOf reprStr) (sortKey casefold reprStr registries)
        (item :: other :: items)) := by
  rw [seriesSpecsFromDescriptors, mapM_cons_ok hfirst (mapM_cons_ok hsecond hitems)]
  rfl

/-- Mode `all` accepts what mode `auto` accepts: every indicator on the execution timeframe, and
the declared patterns. -/
theorem resolveSeriesSpecs_all
    (h : resolveSeriesSpecs casefold reprStr registries execution .auto declared explicit =
      .ok auto) :
    ∃ patterns, seriesSpecsFromDescriptors casefold reprStr registries execution
        (declaredPatterns registries declared) = .ok patterns ∧
      resolveSeriesSpecs casefold reprStr registries execution .all declared explicit =
        .ok ((Registry.list reprStr registries.indicators).map (⟨·, execution⟩) ++ patterns) := by
  rw [resolveSeriesSpecs] at h
  obtain ⟨split, hsplit, h⟩ := Except.bind_eq_ok.1 h
  obtain ⟨split', hsplit', h⟩ := Except.bind_eq_ok.1 h
  obtain ⟨items, hitems, -⟩ := Except.bind_eq_ok.1 h
  -- the patterns are among the descriptors that were resolved already
  obtain ⟨found, hfound⟩ := exists_mapM (l := declaredPatterns registries declared)
    fun d hd => exists_of_mapM hitems (List.mem_filter.1 hd).1
  have hpatterns : seriesSpecsFromDescriptors casefold reprStr registries execution
      (declaredPatterns registries declared) =
        .ok (sortedUnique (identityOf reprStr) (sortKey casefold reprStr registries) found) := by
    rw [seriesSpecsFromDescriptors, hfound]
    rfl
  refine ⟨_, hpatterns, ?_⟩
  rw [resolveSeriesSpecs, hsplit, hsplit']
  rw [declaredPatterns] at hpatterns
  simp only [bind, Except.bind, hpatterns, pure, Except.pure]

/-- The items of a collection differ in identifier or timeframe, and those that are no indicators
in name, up to case, or timeframe; and its indicators lie on the execution timeframe. -/
structure Distinguished (reprStr : String → String) (registries : Registries casefold)
    (execution : String) (declared : List Descriptor) : Prop where
  identity : ∀ item other, Resolved reprStr registries execution declared item →
    Resolved reprStr registries execution declared other →
    identityOf reprStr item = identityOf reprStr other → item = other
  name : ∀ item other, Resolved reprStr registries execution declared item →
    Resolved reprStr registries execution declared other →
    Unplaced reprStr registries item → Unplaced reprStr registries other →
    casefold item.spec.name = casefold other.spec.name → item.timeframe = other.timeframe →
    item = other
  timeframe : ∀ item, Resolved reprStr registries execution declared item →
    item.spec ∈ registries.indicators.specs → item.timeframe = execution

/-- **Series resolution** lists every declared calculation once, in an order of its own, and mode
`all` keeps what mode `auto` resolves, exactly when the declared items are distinguished. -/
theorem resolution_iff (casefold reprStr : String → String) (registries : Registries casefold)
    (execution : String) (declared explicit : List Descriptor) {auto : List ResolvedSeries}
    (hauto : resolveSeriesSpecs casefold reprStr registries execution .auto declared explicit =
      .ok auto) :
    ((auto.Nodup ∧
        ∀ item, item ∈ auto ↔ Resolved reprStr registries execution declared item) ∧
      (∀ declared' : List Descriptor, (∀ d, d ∈ declared' ↔ d ∈ declared) →
        seriesSpecsFromDescriptors casefold reprStr registries execution declared' = .ok auto) ∧
      ∃ all, resolveSeriesSpecs casefold reprStr registries execution .all declared explicit =
          .ok all ∧ ∀ item ∈ auto, item ∈ all) ↔
    Distinguished reprStr registries execution declared := by
  obtain ⟨patterns, hpatterns, hall⟩ := resolveSeriesSpecs_all hauto
  have hlist : seriesSpecsFromDescriptors casefold reprStr registries execution declared =
      .ok auto := by
    rw [resolveSeriesSpecs] at hauto
    obtain ⟨_, -, hauto⟩ := Except.bind_eq_ok.1 hauto
    obtain ⟨_, -, hauto⟩ := Except.bind_eq_ok.1 hauto
    exact hauto
  obtain ⟨items, hitems, hsorted⟩ := Except.bind_eq_ok.1 hlist
  cases hsorted
  constructor
  · rintro ⟨⟨-, hmem⟩, hcongr, all, hall', hsuper⟩
    have hkept : ∀ item ∈ items, item ∈ sortedUnique (identityOf reprStr)
        (sortKey casefold reprStr registries) items := fun item hitem =>
      (hmem item).2 ((mem_of_mapM hitems).1 hitem)
    have hinj := injOn_of_mem_sortedUnique hkept
    refine ⟨fun item other hitem hother => ?_, fun item other hitem hother h h' hname htf => ?_,
      fun item hitem hindicator => ?_⟩
    · exact hinj item ((mem_of_mapM hitems).2 hitem) other ((mem_of_mapM hitems).2 hother)
    · -- Two more descriptors of the collection, in both orders, would give two lists.
      by_contra hne
      obtain ⟨first, hfirst, hresolve⟩ := hitem
      obtain ⟨second, hsecond, hresolve'⟩ := hother
      have hboth : ∀ {one two : Descriptor}, one ∈ declared → two ∈ declared →
          ∀ d, d ∈ one :: two :: declared ↔ d ∈ declared := by
        intro one two hone htwo d
        rw [List.mem_cons, List.mem_cons]
        constructor
        · rintro (rfl | rfl | hd)
          exacts [hone, htwo, hd]
        · exact fun hd => .inr (.inr hd)
      have hone := hcongr _ (hboth hfirst hsecond)
      have htwo := hcongr _ (hboth hsecond hfirst)
      rw [seriesSpecsFromDescriptors_cons hitems hresolve hresolve'] at hone
      rw [seriesSpecsFromDescriptors_cons hitems hresolve' hresolve] at htwo
      exact sortedUnique_ne hinj ((mem_of_mapM hitems).2 ⟨first, hfirst, hresolve⟩)
        ((mem_of_mapM hitems).2 ⟨second, hsecond, hresolve'⟩)
        (sortKey_of_unplaced h h' hname htf) hne (Except.ok.inj (hone.trans htwo.symm))
    · rw [hall] at hall'
      cases hall'
      obtain hlisted | hpattern := List.mem_append.1 (hsuper item ((hmem item).2 hitem))
      · obtain ⟨spec, -, rfl⟩ := List.mem_map.1 hlisted
        rfl
      · have hspec := (resolved_declaredPatterns.1 (resolved_of_mem hpatterns hpattern)).2
        exact absurd rfl (registries.disjoint item.spec hindicator item.spec hspec).1
  · intro h
    refine ⟨⟨nodup_sortedUnique, fun item => mem_iff_resolved hlist h.identity⟩,
      fun declared' hsame => seriesSpecsFromDescriptors_congr hlist h.identity h.name hsame,
      _, hall, fun item hitem => ?_⟩
    have hresolved := resolved_of_mem hlist hitem
    -- Indicators are listed on the execution timeframe, patterns as they are declared.
    obtain hindicator | hpattern := resolved_or hresolved
    · refine List.mem_append_left _ (List.mem_map.2 ⟨item.spec, mem_list.2 hindicator, ?_⟩)
      rw [← h.timeframe item hresolved hindicator]
    · refine List.mem_append_right _ ((mem_iff_resolved hpatterns ?_).2
        (resolved_declaredPatterns.2 ⟨hresolved, hpattern⟩))
      exact fun a b ha hb => h.identity a b (resolved_declaredPatterns.1 ha).1
        (resolved_declaredPatterns.1 hb).1

end Lists

/-! ### One average -/

/-- `EMA` over nine bars. -/
def emaNine : SeriesSpec where
  name := "EMA"
  params := ⟨[("period", .int 9)], List.pairwise_singleton _ _⟩
  name_ne := by decide

def emaOnly : Registries asciiFold where
  indicators := ⟨[emaNine], List.pairwise_singleton _ _⟩
  patterns := .empty
  disjoint := by simp [Registry.empty]

/-- A declaration of the average. -/
def declaresEma (timeframe : Option String) : Descriptor := ⟨"ema", emaNine.params, timeframe⟩

theorem auto_emaOnly_strategy :
    resolveSeriesSpecs asciiFold id emaOnly "1h" .auto [declaresEma none] [] =
      .ok [⟨emaNine, "1h"⟩] := rfl

theorem resolution_iff_of_emaOnly :
    (([⟨emaNine, "1h"⟩] : List ResolvedSeries).Nodup ∧
        ∀ item, item ∈ ([⟨emaNine, "1h"⟩] : List ResolvedSeries) ↔
          Resolved id emaOnly "1h" [declaresEma none] item) ∧
      (∀ declared' : List Descriptor, (∀ d, d ∈ declared' ↔ d ∈ [declaresEma none]) →
        seriesSpecsFromDescriptors asciiFold id emaOnly "1h" declared' =
          .ok [⟨emaNine, "1h"⟩]) ∧
      (∃ all, resolveSeriesSpecs asciiFold id emaOnly "1h" .all [declaresEma none] [] = .ok all ∧
        ∀ item ∈ ([⟨emaNine, "1h"⟩] : List ResolvedSeries), item ∈ all) ↔
    Distinguished id emaOnly "1h" [declaresEma none] :=
  resolution_iff asciiFold id emaOnly "1h" [declaresEma none] [] auto_emaOnly_strategy

/-- Declared on another timeframe, the average is resolved by mode `auto` and lost by mode
`all`. -/
theorem all_loses_emaOnly :
    resolveSeriesSpecs asciiFold id emaOnly "1h" .auto [declaresEma (some "4h")] [] =
        .ok [⟨emaNine, "4h"⟩] ∧
      resolveSeriesSpecs asciiFold id emaOnly "1h" .all [declaresEma (some "4h")] [] =
        .ok [⟨emaNine, "1h"⟩] ∧
      (⟨emaNine, "4h"⟩ : ResolvedSeries) ∉ ([⟨emaNine, "1h"⟩] : List ResolvedSeries) :=
  ⟨rfl, rfl, by decide⟩

end SeriesResolution
end TradingSystem
