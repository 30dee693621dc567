import TradingSystem.Catalog.Declarations
import TradingSystem.Data.SortedUnique
import Mathlib.Data.List.ReduceOption

/-!
# Catalog reconciliation

The catalog lists strategies, and classes are deployed under the same ids. `reconcile` compares
the two for every id; `AdapterManager.create` makes its own checks before it builds a strategy.

* `findingFor` — one id of `reconcile_strategy_registries`.
* `createChecks` — the checks of `AdapterManager.create` up to the declarations.
* `findingFor_ok_iff`, `findingFor_none_iff`, `createChecks_ok_iff` — what each comes to.
* `reconciliation_iff` — when the two agree and strategies do not disturb one another.
-/

namespace TradingSystem
namespace Catalog

open Data Logic

/-! ### Classes and identities -/

/-- A deployed class: its `__name__`, its `__module__`, and what `get_metadata` returns or
raises. -/
structure AdapteeClass where
  name : String
  module : String
  getMetadata : Except Raised StrategyMetadata

/-- `StrategyImplementationIdentity`. -/
structure ImplementationIdentity where
  className : Option String
  modulePath : Option String
deriving DecidableEq

/-- `value if isinstance(value, str) else None`. -/
def Object.text : Object → Option String
  | .str value => some value
  | _ => Option.none

def catalogIdentity (entry : Entry) : ImplementationIdentity :=
  ⟨(entry "class_name").text, (entry "module_path").text⟩

def allowlistIdentity (adaptee : AdapteeClass) : ImplementationIdentity :=
  ⟨some adaptee.name, some adaptee.module⟩

def strategyIdentityMatches (entry : Entry) (adaptee : AdapteeClass) : Bool :=
  catalogIdentity entry = allowlistIdentity adaptee

def catalogFlag (entry : Option Entry) (name : String) : Option Bool :=
  match entry with
  | none => none
  | some entry =>
    match entry name with
    | .bool value => some value
    | _ => none

/-! ### Findings -/

inductive ReconciliationState
  | catalogOnly | allowlistOnly | identityMismatch | declarationMismatch | declarationReadFailed
  | inactive | deprecated
deriving DecidableEq

/-- `StrategyReconciliation`. -/
structure Finding where
  strategyId : String
  state : ReconciliationState
  catalogIdentity : Option ImplementationIdentity
  allowlistIdentity : Option ImplementationIdentity
  isActive : Option Bool
  isDeprecated : Option Bool
deriving DecidableEq

/-- The state of an id, or none where it can run. -/
def reconciliationState (sorted : Sorted) (entry : Option Entry) (adaptee : Option AdapteeClass)
    (metadata : Option StrategyMetadata) (declarationReadFailed : Bool) :
    Except Raised (Option ReconciliationState) :=
  match entry, adaptee with
  | none, _ => .ok (some .allowlistOnly)
  | some _, none => .ok (some .catalogOnly)
  | some row, some adaptee =>
    if catalogIdentity row ≠ allowlistIdentity adaptee then .ok (some .identityMismatch)
    else if declarationReadFailed then .ok (some .declarationReadFailed)
    else
      match metadata with
      | none => .error .valueError
      | some metadata => do
        if (← catalogDeclarationMismatch sorted row metadata).isSome then
          return some .declarationMismatch
        if catalogFlag entry "is_deprecated" = some true then return some .deprecated
        if catalogFlag entry "is_active" = some false then return some .inactive
        return none

def reconcileStrategyEntry (sorted : Sorted) (strategyId : String) (entry : Option Entry)
    (adaptee : Option AdapteeClass) (metadata : Option StrategyMetadata)
    (declarationReadFailed : Bool) : Except Raised (Option Finding) := do
  let state ← reconciliationState sorted entry adaptee metadata declarationReadFailed
  pure (state.map fun state =>
    ⟨strategyId, state, entry.map catalogIdentity, adaptee.map allowlistIdentity,
      catalogFlag entry "is_active", catalogFlag entry "is_deprecated"⟩)

/-- The metadata of a class whose identity the row names, and whether reading it failed:
`except (Exception, SystemExit)`. -/
def readDeclaration (entry : Option Entry) (adaptee : Option AdapteeClass) :
    Except Raised (Option StrategyMetadata × Bool) :=
  match entry, adaptee with
  | some row, some adaptee =>
    if strategyIdentityMatches row adaptee then
      match adaptee.getMetadata with
      | .ok metadata => .ok (some metadata, false)
      | .error .baseException => .error .baseException
      | .error _ => .ok (none, true)
    else .ok (none, false)
  | _, _ => .ok (none, false)

/-- One id of `reconcile_strategy_registries`. -/
def findingFor (sorted : Sorted) (strategyId : String) (entry : Option Entry)
    (adaptee : Option AdapteeClass) : Except Raised (Option Finding) := do
  let (metadata, declarationReadFailed) ← readDeclaration entry adaptee
  reconcileStrategyEntry sorted strategyId entry adaptee metadata declarationReadFailed

/-- One row of `_catalog_entries_by_id`. -/
def addEntry (byId : List (String × Entry)) (entry : Entry) :
    Except Raised (List (String × Entry)) :=
  match entry "strategy_id" with
  | .str strategyId =>
    if strategyId = "" then .error .valueError
    else if (byId.lookup strategyId).isSome then .error .valueError
    else .ok (byId ++ [(strategyId, entry)])
  | _ => .error .valueError

def catalogEntriesById (entries : List Entry) : Except Raised (List (String × Entry)) :=
  entries.foldlM addEntry []

/-- `sorted(set(catalog_entries) | allowlist_ids)`. -/
def strategyIds (byId : List (String × Entry)) (classes : List (String × AdapteeClass)) :
    List String :=
  sortedUnique (fun strategyId => strategyId) (fun strategyId => strategyId)
    (byId.map Prod.fst ++ classes.map Prod.fst)

def reconcileStrategyRegistries (sorted : Sorted) (entries : List Entry)
    (classes : List (String × AdapteeClass)) : Except Raised (List Finding) := do
  let byId ← catalogEntriesById entries
  let found ← (strategyIds byId classes).mapM fun strategyId =>
    findingFor sorted strategyId (byId.lookup strategyId) (classes.lookup strategyId)
  pure found.reduceOption

/-! ### Creation -/

def validateCatalogEntry (strategyId : String) (entry : Entry) : Except Raised Unit :=
  if ¬ (entry "strategy_id").isNone ∧ ¬ (entry "strategy_id").equal (.str strategyId) then
    .error .valueError
  else if catalogFlag (some entry) "is_active" = some false then .error .valueError
  else if catalogFlag (some entry) "is_deprecated" = some true then .error .valueError
  else .ok ()

def validateClassIdentity (adaptee : AdapteeClass) (entry : Entry) : Except Raised Unit :=
  if ¬ (entry "class_name").isNone ∧ ¬ (entry "class_name").equal (.str adaptee.name) then
    .error .valueError
  else if ¬ (entry "module_path").isNone ∧
      ¬ (entry "module_path").equal (.str adaptee.module) then .error .valueError
  else .ok ()

def validateDeclaredHistory (sorted : Sorted) (adaptee : AdapteeClass) (entry : Entry) :
    Except Raised Unit := do
  let metadata ← adaptee.getMetadata
  let mismatch ← catalogDeclarationMismatch sorted entry metadata
  if mismatch.isSome then throw .valueError

/-- `AdapterManager.create` up to the declarations; both look-ups raise `KeyError`. -/
def createChecks (sorted : Sorted) (strategyId : String) (entry : Option Entry)
    (adaptee : Option AdapteeClass) : Except Raised Unit := do
  let entry ← entry.elim (.error .keyError) .ok
  validateCatalogEntry strategyId entry
  let adaptee ← adaptee.elim (.error .keyError) .ok
  validateClassIdentity adaptee entry
  validateDeclaredHistory sorted adaptee entry

/-! ### The state of one id -/

section State

variable {sorted : Sorted} {strategyId : String} {entry : Option Entry}
  {adaptee : Option AdapteeClass} {row : Entry}
  {deployed : AdapteeClass} {finding : Finding}

theorem equal_str_iff {value : Object} {text : String} :
    value.equal (.str text) = true ↔ value = .str text := by
  cases value <;> simp [Object.equal, Object.equalScalars, Object.scalar]

theorem isNone_iff {value : Object} : value.isNone = true ↔ value = .none := by
  cases value <;> simp [Object.isNone]

theorem strategyIdentityMatches_iff : strategyIdentityMatches row deployed = true ↔
    row "class_name" = .str deployed.name ∧ row "module_path" = .str deployed.module := by
  -- A text that is missing equals no class name: the identity of a class has both.
  have htext : ∀ {value : Object} {text : String},
      value.text = some text ↔ value = .str text := by
    intro value text
    cases value <;> simp [Object.text]
  rw [strategyIdentityMatches, decide_eq_true_eq, catalogIdentity, allowlistIdentity,
    ImplementationIdentity.mk.injEq, htext, htext]

/-- The row is neither inactive nor deprecated. -/
def Live (row : Entry) : Prop :=
  catalogFlag (some row) "is_active" ≠ some false ∧
    catalogFlag (some row) "is_deprecated" ≠ some true

/-- The class can be read and the registered declaration agrees with it. -/
def Agrees (sorted : Sorted) (row : Entry) (deployed : AdapteeClass) : Prop :=
  ∃ metadata, deployed.getMetadata = .ok metadata ∧
    catalogDeclarationMismatch sorted row metadata = .ok none

/-- Nothing that a comparison of declarations raises gets out: the metadata of a class that the
row names is not read with an exception other than an `Exception` or `SystemExit`, and the
declarations are legible. -/
def Contained (sorted : Sorted) (entry : Option Entry) (adaptee : Option AdapteeClass) : Prop :=
  ∀ row ∈ entry, ∀ deployed ∈ adaptee, strategyIdentityMatches row deployed = true →
    deployed.getMetadata ≠ .error .baseException ∧
      ∀ metadata, deployed.getMetadata = .ok metadata → Legible sorted row metadata

/-- The row leaves the class or the module of its implementation out, names it otherwise, is live
and agrees with the class. -/
def Anonymous (sorted : Sorted) (entry : Option Entry) (adaptee : Option AdapteeClass) : Prop :=
  ∃ row ∈ entry, ∃ deployed ∈ adaptee,
    (row "class_name" = .none ∨ row "module_path" = .none) ∧
    (row "class_name" = .none ∨ row "class_name" = .str deployed.name) ∧
    (row "module_path" = .none ∨ row "module_path" = .str deployed.module) ∧
    Live row ∧ Agrees sorted row deployed

/-- A row that names another class. -/
theorem findingFor_of_not_matches (h : strategyIdentityMatches row deployed = false) :
    ∃ finding, findingFor sorted strategyId (some row) (some deployed) = .ok (some finding) := by
  have hne : catalogIdentity row ≠ allowlistIdentity deployed := of_decide_eq_false h
  rw [findingFor, readDeclaration, h]
  simp [bind, Except.bind, reconcileStrategyEntry, reconciliationState, hne, pure, Except.pure]

/-- A row that names the class, of which the metadata cannot be read. -/
theorem findingFor_of_error (h : strategyIdentityMatches row deployed = true) {raised : Raised}
    (hread : deployed.getMetadata = .error raised) (hraised : raised ≠ .baseException) :
    ∃ finding, findingFor sorted strategyId (some row) (some deployed) = .ok (some finding) := by
  have heq : catalogIdentity row = allowlistIdentity deployed := of_decide_eq_true h
  rw [findingFor, readDeclaration, h, hread]
  -- `except (Exception, SystemExit)` takes every exception but the one excluded.
  cases raised <;> first
    | exact absurd rfl hraised
    | simp [bind, Except.bind, reconcileStrategyEntry, reconciliationState, heq, pure, Except.pure]

theorem findingFor_of_baseException (h : strategyIdentityMatches row deployed = true)
    (hread : deployed.getMetadata = .error .baseException) :
    findingFor sorted strategyId (some row) (some deployed) = .error .baseException := by
  rw [findingFor, readDeclaration, h, hread]
  rfl

/-- A row that names the class: the comparison decides, and then the flags. -/
theorem findingFor_of_metadata (h : strategyIdentityMatches row deployed = true)
    {metadata : StrategyMetadata} (hread : deployed.getMetadata = .ok metadata) :
    ((∃ found, findingFor sorted strategyId (some row) (some deployed) = .ok found) ↔
      ∃ mismatch, catalogDeclarationMismatch sorted row metadata = .ok mismatch) ∧
    (findingFor sorted strategyId (some row) (some deployed) = .ok none ↔
      catalogDeclarationMismatch sorted row metadata = .ok none ∧ Live row) := by
  have heq : catalogIdentity row = allowlistIdentity deployed := of_decide_eq_true h
  rw [findingFor, readDeclaration, h, hread]
  simp only [bind, Except.bind, reconcileStrategyEntry, reconciliationState, heq, ne_eq,
    not_true_eq_false, if_false, if_true, Bool.false_eq_true, Live]
  -- The declarations come before the flags, and of these deprecation comes first.
  cases catalogDeclarationMismatch sorted row metadata with
  | error raised => simp
  | ok mismatch =>
    cases mismatch with
    | some mismatch => simp [pure, Except.pure]
    | none =>
      by_cases hdeprecated : catalogFlag (some row) "is_deprecated" = some true
      · simp [pure, Except.pure, hdeprecated]
      · by_cases hactive : catalogFlag (some row) "is_active" = some false
        · simp [pure, Except.pure, hdeprecated, hactive]
        · simp [pure, Except.pure, hdeprecated, hactive]

theorem findingFor_of_none_left :
    ∃ finding, findingFor sorted strategyId none adaptee = .ok (some finding) := by
  cases adaptee <;>
    simp [findingFor, readDeclaration, bind, Except.bind, reconcileStrategyEntry,
      reconciliationState, pure, Except.pure]

theorem findingFor_of_none_right :
    ∃ finding, findingFor sorted strategyId (some row) none = .ok (some finding) := by
  simp [findingFor, readDeclaration, bind, Except.bind, reconcileStrategyEntry,
    reconciliationState, pure, Except.pure]

/-- **An id is reconciled** exactly when nothing gets out. -/
theorem findingFor_ok_iff : (∃ found, findingFor sorted strategyId entry adaptee = .ok found) ↔
    Contained sorted entry adaptee := by
  cases entry with
  | none =>
    obtain ⟨finding, h⟩ := @findingFor_of_none_left sorted strategyId adaptee
    exact ⟨fun _ _ hrow => absurd hrow (by simp), fun _ => ⟨_, h⟩⟩
  | some row =>
    cases adaptee with
    | none =>
      obtain ⟨finding, h⟩ := @findingFor_of_none_right sorted strategyId row
      exact ⟨fun _ _ _ _ hdeployed => absurd hdeployed (by simp), fun _ => ⟨_, h⟩⟩
    | some deployed =>
      simp only [Contained, Option.mem_def, Option.some.injEq, forall_eq']
      -- Only a row that names the class is compared with it.
      cases h : strategyIdentityMatches row deployed with
      | false =>
        obtain ⟨finding, hfinding⟩ := @findingFor_of_not_matches sorted strategyId row deployed h
        exact ⟨fun _ => by simp, fun _ => ⟨_, hfinding⟩⟩
      | true =>
        cases hread : deployed.getMetadata with
        | ok metadata =>
          rw [(findingFor_of_metadata h hread).1, catalogDeclarationMismatch_ok_iff]
          simp
        | error raised =>
          -- What is caught becomes a finding.
          by_cases hraised : raised = .baseException
          · subst hraised
            rw [findingFor_of_baseException h hread]
            simp
          · obtain ⟨finding, hfinding⟩ :=
              @findingFor_of_error sorted strategyId row deployed h raised
              hread hraised
            exact ⟨fun _ => by simp [hraised], fun _ => ⟨_, hfinding⟩⟩

/-- **An id has no finding** exactly when its row names its class, is live and agrees with it. -/
theorem findingFor_none_iff : findingFor sorted strategyId entry adaptee = .ok none ↔
    ∃ row ∈ entry, ∃ deployed ∈ adaptee, strategyIdentityMatches row deployed = true ∧
      Live row ∧ Agrees sorted row deployed := by
  cases entry with
  | none =>
    obtain ⟨finding, h⟩ := @findingFor_of_none_left sorted strategyId adaptee
    simp [h]
  | some row =>
    cases adaptee with
    | none =>
      obtain ⟨finding, h⟩ := @findingFor_of_none_right sorted strategyId row
      simp [h]
    | some deployed =>
      simp only [Option.mem_def, Option.some.injEq, exists_eq_left']
      cases h : strategyIdentityMatches row deployed with
      | false =>
        obtain ⟨finding, hfinding⟩ := @findingFor_of_not_matches sorted strategyId row deployed h
        simp [hfinding]
      | true =>
        -- the identities match, so the metadata decides
        cases hread : deployed.getMetadata with
        | ok metadata =>
          rw [(findingFor_of_metadata h hread).2, Agrees, hread]
          simp [and_comm]
        | error raised =>
          have hagrees : ¬ Agrees sorted row deployed := by
            rintro ⟨metadata, hmetadata, -⟩
            rw [hread] at hmetadata
            cases hmetadata
          -- a base exception escapes the handler, any other becomes a finding
          by_cases hraised : raised = .baseException
          · subst hraised
            rw [findingFor_of_baseException h hread]
            simp [hagrees]
          · obtain ⟨finding, hfinding⟩ :=
              @findingFor_of_error sorted strategyId row deployed h raised
              hread hraised
            simp [hfinding, hagrees]

theorem strategyId_of_findingFor
    (h : findingFor sorted strategyId entry adaptee = .ok (some finding)) :
    finding.strategyId = strategyId := by
  obtain ⟨read, -, h⟩ := Except.bind_eq_ok.1 h
  obtain ⟨state, -, h⟩ := Except.bind_eq_ok.1 h
  cases state with
  | none => cases h
  | some state =>
    cases h
    rfl

/-- **Creation gets past its checks** exactly when the row is live, names nothing but its class
and agrees with it. -/
theorem createChecks_ok_iff (hnamed : ∀ row ∈ entry, row "strategy_id" = .str strategyId) :
    createChecks sorted strategyId entry adaptee = .ok () ↔
      ∃ row ∈ entry, ∃ deployed ∈ adaptee,
        (row "class_name" = .none ∨ row "class_name" = .str deployed.name) ∧
        (row "module_path" = .none ∨ row "module_path" = .str deployed.module) ∧
        Live row ∧ Agrees sorted row deployed := by
  cases entry with
  | none => simp [createChecks, bind, Except.bind]
  | some row =>
    have hid : (row "strategy_id").equal (.str strategyId) = true :=
      equal_str_iff.2 (hnamed row rfl)
    cases adaptee with
    | none =>
      simp only [createChecks, bind, Except.bind, Option.elim]
      cases validateCatalogEntry strategyId row <;> simp
    | some deployed =>
      -- The three checks in the order of `create`, each with what it accepts.
      have hentry : validateCatalogEntry strategyId row = .ok () ↔ Live row := by
        rw [validateCatalogEntry, Live]
        simp only [hid, not_true_eq_false, and_false, if_false]
        split_ifs with hactive hdeprecated <;> simp_all
      have hclass : validateClassIdentity deployed row = .ok () ↔
          (row "class_name" = .none ∨ row "class_name" = .str deployed.name) ∧
          (row "module_path" = .none ∨ row "module_path" = .str deployed.module) := by
        simp only [validateClassIdentity, ← equal_str_iff, ← isNone_iff]
        split_ifs with hname hmodule
        · exact ⟨fun h => (nomatch h), fun h => absurd h.1 (by tauto)⟩
        · exact ⟨fun h => (nomatch h), fun h => absurd h.2 (by tauto)⟩
        · exact ⟨fun _ => ⟨by tauto, by tauto⟩, fun _ => rfl⟩
      have hdeclared : validateDeclaredHistory sorted deployed row = .ok () ↔
          Agrees sorted row deployed := by
        rw [validateDeclaredHistory, Agrees]
        cases deployed.getMetadata with
        | error raised => simp [bind, Except.bind]
        | ok metadata =>
          cases hmismatch : catalogDeclarationMismatch sorted row metadata with
          | error raised => simp [bind, Except.bind, hmismatch]
          | ok mismatch =>
            cases mismatch <;>
              simp [bind, Except.bind, hmismatch, throw, throwThe, MonadExceptOf.throw, pure,
                Except.pure]
      simp only [Option.mem_def, Option.some.injEq, exists_eq_left']
      -- All checks raise, so the first that does ends the call.
      rw [← hdeclared, ← hentry, ← and_assoc, ← hclass]
      simp only [createChecks, bind, Except.bind, Option.elim]
      cases validateCatalogEntry strategyId row with
      | error raised => simp
      | ok _ =>
        cases validateClassIdentity deployed row with
        | error raised => simp
        | ok _ => simp

end State

/-! ### A catalog and its classes -/

/-- A catalog listing with unique valid ids. -/
structure Listing where
  rows : List (String × Entry)
  named : ∀ row ∈ rows, row.2 "strategy_id" = .str row.1 ∧ row.1 ≠ ""
  unique : (rows.map Prod.fst).Nodup

/-- What the catalog lists, and the classes deployed. -/
structure World where
  catalog : Listing
  classes : List (String × AdapteeClass)
  deployedOnce : (classes.map Prod.fst).Nodup

namespace World

def row (world : World) (strategyId : String) : Option Entry :=
  world.catalog.rows.lookup strategyId

def adaptee (world : World) (strategyId : String) : Option AdapteeClass :=
  world.classes.lookup strategyId

/-- The ids of the catalog and of the classes. -/
def ids (world : World) : List String := strategyIds world.catalog.rows world.classes

/-- `reconcile_catalog`. -/
def reconcile (sorted : Sorted) (world : World) : Except Raised (List Finding) :=
  reconcileStrategyRegistries sorted (world.catalog.rows.map Prod.snd) world.classes

variable {sorted : Sorted} {world other : World} {strategyId : String} {findings : List Finding}

/-- Unique valid ids are told apart. -/
theorem foldlM_addEntry {rows byId : List (String × Entry)}
    (hnamed : ∀ row ∈ rows, row.2 "strategy_id" = .str row.1 ∧ row.1 ≠ "")
    (hunique : ((byId ++ rows).map Prod.fst).Nodup) :
    (rows.map Prod.snd).foldlM addEntry byId = .ok (byId ++ rows) := by
  -- On the rows not yet added, over those that are.
  induction rows generalizing byId with
  | nil =>
    rw [List.append_nil]
    rfl
  | cons row rows ih =>
    obtain ⟨hid, hne⟩ := hnamed row (List.mem_cons_self ..)
    -- The id was not seen before, because all ids are different.
    have hfresh : (byId.lookup row.1).isSome = false := by
      rw [List.map_append, List.nodup_append] at hunique
      rw [Bool.eq_false_iff]
      intro hsome
      obtain ⟨pair, hpair, heq⟩ := List.lookup_isSome_iff.1 hsome
      exact hunique.2.2 pair.1 (List.mem_map_of_mem hpair) row.1
        (List.mem_map_of_mem (List.mem_cons_self ..)) (eq_of_beq heq).symm
    have hadd : addEntry byId row.2 = .ok (byId ++ [row]) := by
      rw [addEntry, hid]
      simp only [hne, if_false, hfresh, Bool.false_eq_true]
    rw [List.map_cons, List.foldlM_cons, hadd]
    have hassoc : byId ++ row :: rows = (byId ++ [row]) ++ rows := by simp
    rw [hassoc] at hunique ⊢
    exact ih (fun row hrow => hnamed row (List.mem_cons_of_mem _ hrow)) hunique

theorem catalogEntriesById_rows (listing : Listing) :
    catalogEntriesById (listing.rows.map Prod.snd) = .ok listing.rows :=
  foldlM_addEntry listing.named (by simpa using listing.unique)

theorem reconcile_eq (world : World) : world.reconcile sorted =
    (world.ids.mapM fun strategyId =>
      findingFor sorted strategyId (world.row strategyId) (world.adaptee strategyId)) >>=
        fun found => pure found.reduceOption := by
  rw [reconcile, reconcileStrategyRegistries, catalogEntriesById_rows]
  rfl

theorem mem_ids : strategyId ∈ world.ids ↔
    (world.row strategyId).isSome = true ∨ (world.adaptee strategyId).isSome = true := by
  have hkeys : ∀ {α : Type} {l : List (String × α)},
      strategyId ∈ l.map Prod.fst ↔ (l.lookup strategyId).isSome = true := by
    intro α l
    rw [List.lookup_isSome_iff, List.mem_map]
    exact exists_congr fun pair => and_congr_right fun _ => by rw [beq_iff_eq, eq_comm]
  rw [ids, strategyIds, mem_sortedUnique (fun _ _ _ _ h => h), List.mem_append, hkeys, hkeys]
  rfl

/-- A row of the listing names its id. -/
theorem named_row {row : Entry} (h : row ∈ world.row strategyId) :
    row "strategy_id" = .str strategyId := by
  obtain ⟨before, after, hrows, -⟩ := List.lookup_eq_some_iff.1 h
  exact (world.catalog.named (strategyId, row) (hrows ▸ by simp)).1

/-- The call returns exactly when nothing gets out at any id. -/
theorem reconcile_ok_iff : (∃ findings, world.reconcile sorted = .ok findings) ↔
    ∀ strategyId ∈ world.ids,
      Contained sorted (world.row strategyId) (world.adaptee strategyId) := by
  -- The call is a map over the ids; it fails with the first id that does.
  rw [reconcile_eq]
  constructor
  · rintro ⟨findings, h⟩ strategyId hmem
    obtain ⟨found, hfound, -⟩ := Except.bind_eq_ok.1 h
    exact findingFor_ok_iff.1 (exists_of_mapM hfound hmem)
  · intro h
    obtain ⟨found, hfound⟩ := exists_mapM fun strategyId hmem =>
      findingFor_ok_iff.2 (h strategyId hmem)
    exact ⟨_, Except.bind_eq_ok.2 ⟨found, hfound, rfl⟩⟩

/-- A finding is that of its own id. -/
theorem mem_findings (h : world.reconcile sorted = .ok findings) {finding : Finding} :
    finding ∈ findings ↔ finding.strategyId ∈ world.ids ∧
      findingFor sorted finding.strategyId (world.row finding.strategyId)
        (world.adaptee finding.strategyId) = .ok (some finding) := by
  rw [reconcile_eq] at h
  obtain ⟨found, hfound, h⟩ := Except.bind_eq_ok.1 h
  cases h
  -- a finding names the strategy it was made for
  rw [List.reduceOption_mem_iff, mem_of_mapM hfound]
  constructor
  · rintro ⟨strategyId, hmem, hfinding⟩
    rw [strategyId_of_findingFor hfinding]
    exact ⟨hmem, hfinding⟩
  · rintro ⟨hmem, hfinding⟩
    exact ⟨finding.strategyId, hmem, hfinding⟩

/-- The findings come in the order of their ids. -/
theorem map_strategyId_sublist {ids : List String} {found : List (Option Finding)}
    (h : List.Forall₂ (fun strategyId finding => findingFor sorted strategyId (world.row strategyId)
      (world.adaptee strategyId) = .ok finding) ids found) :
    (found.reduceOption.map Finding.strategyId).Sublist ids := by
  induction h with
  | nil => exact .refl _
  | @cons strategyId finding _ _ hfinding _ ih =>
    -- An id without a finding is skipped, one with a finding kept.
    cases finding with
    | none =>
      rw [List.reduceOption_cons_of_none]
      exact ih.cons _
    | some finding =>
      rw [List.reduceOption_cons_of_some, List.map_cons, strategyId_of_findingFor hfinding]
      exact ih.cons_cons _

/-- An id has one finding at most. -/
theorem nodup_findings (h : world.reconcile sorted = .ok findings) :
    (findings.map Finding.strategyId).Nodup := by
  rw [reconcile_eq] at h
  obtain ⟨found, hfound, h⟩ := Except.bind_eq_ok.1 h
  cases h
  exact nodup_sortedUnique.sublist (map_strategyId_sublist (forall₂_of_mapM hfound))

/-- An id without a finding. -/
theorem no_finding_iff (h : world.reconcile sorted = .ok findings) (hmem : strategyId ∈ world.ids) :
    (∀ finding ∈ findings, finding.strategyId ≠ strategyId) ↔
      findingFor sorted strategyId (world.row strategyId) (world.adaptee strategyId) =
        .ok none := by
  -- The call returned, so it had an answer for this id.
  obtain ⟨found, hfound⟩ := findingFor_ok_iff.2 (reconcile_ok_iff.1 ⟨findings, h⟩ strategyId hmem)
  rw [hfound]
  cases found with
  | none =>
    refine ⟨fun _ => rfl, fun _ finding hfinding heq => ?_⟩
    obtain ⟨-, hother⟩ := (mem_findings h).1 hfinding
    rw [heq, hfound] at hother
    cases hother
  | some finding =>
    refine ⟨fun hnone => ?_, fun hnone => by cases hnone⟩
    have hid := strategyId_of_findingFor hfound
    exact absurd hid (hnone finding ((mem_findings h).2 ⟨hid ▸ hmem, hid ▸ hfound⟩))

end World

/-- Reconciliation and creation agree on an id exactly where its row is not anonymous. -/
theorem agree_iff {sorted : Sorted} {strategyId : String} {entry : Option Entry}
    {adaptee : Option AdapteeClass}
    (hnamed : ∀ row ∈ entry, row "strategy_id" = .str strategyId) :
    (findingFor sorted strategyId entry adaptee = .ok none ↔
      createChecks sorted strategyId entry adaptee = .ok ()) ↔
        ¬ Anonymous sorted entry adaptee := by
  rw [findingFor_none_iff, createChecks_ok_iff hnamed, Anonymous]
  constructor
  · rintro hiff ⟨row, hrow, deployed, hdeployed, hleft, hname, hmodule, hlive, hagrees⟩
    -- Creation accepts the anonymous row, so reconciliation would have to find nothing.
    obtain ⟨row', hrow', deployed', hdeployed', hmatches, -⟩ :=
      hiff.2 ⟨row, hrow, deployed, hdeployed, hname, hmodule, hlive, hagrees⟩
    cases hrow.symm.trans hrow'
    cases hdeployed.symm.trans hdeployed'
    obtain ⟨hclass, hmodule'⟩ := strategyIdentityMatches_iff.1 hmatches
    obtain hleft | hleft := hleft
    · rw [hclass] at hleft
      cases hleft
    · rw [hmodule'] at hleft
      cases hleft
  · intro hnot
    constructor
    · rintro ⟨row, hrow, deployed, hdeployed, hmatches, hlive, hagrees⟩
      obtain ⟨hclass, hmodule⟩ := strategyIdentityMatches_iff.1 hmatches
      exact ⟨row, hrow, deployed, hdeployed, .inr hclass, .inr hmodule, hlive, hagrees⟩
    · rintro ⟨row, hrow, deployed, hdeployed, hname, hmodule, hlive, hagrees⟩
      -- A row that is not anonymous gives both names, so it names the class.
      have hgiven : ¬ (row "class_name" = .none ∨ row "module_path" = .none) := fun hleft =>
        hnot ⟨row, hrow, deployed, hdeployed, hleft, hname, hmodule, hlive, hagrees⟩
      rw [not_or] at hgiven
      exact ⟨row, hrow, deployed, hdeployed, strategyIdentityMatches_iff.2
        ⟨hname.resolve_left hgiven.1, hmodule.resolve_left hgiven.2⟩, hlive, hagrees⟩

/-- **Reconciliation** finds one thing at most of every id, nothing exactly where creation gets
past its checks, and a change of one strategy neither raises nor touches the findings of the
others, exactly when nothing that a comparison raises gets out, before and after the change, and
no row that leaves its implementation's name out is fit for creation. -/
theorem reconciliation_iff (sorted : Sorted) (world other : World) (changed : String)
    (hsame : ∀ strategyId, strategyId ≠ changed →
      other.row strategyId = world.row strategyId ∧
        other.adaptee strategyId = world.adaptee strategyId) :
    (∃ findings findings', world.reconcile sorted = .ok findings ∧
      other.reconcile sorted = .ok findings' ∧
      (findings.map Finding.strategyId).Nodup ∧
      (∀ strategyId ∈ world.ids, (∀ finding ∈ findings, finding.strategyId ≠ strategyId) ↔
        createChecks sorted strategyId (world.row strategyId) (world.adaptee strategyId) = .ok ()) ∧
      ∀ finding : Finding, finding.strategyId ≠ changed →
        (finding ∈ findings' ↔ finding ∈ findings)) ↔
    (∀ strategyId ∈ world.ids,
      Contained sorted (world.row strategyId) (world.adaptee strategyId) ∧
        ¬ Anonymous sorted (world.row strategyId) (world.adaptee strategyId)) ∧
      Contained sorted (other.row changed) (other.adaptee changed) := by
  have hmem : ∀ strategyId, strategyId ≠ changed →
      (strategyId ∈ other.ids ↔ strategyId ∈ world.ids) := by
    intro strategyId hne
    rw [World.mem_ids, World.mem_ids, (hsame strategyId hne).1, (hsame strategyId hne).2]
  constructor
  · rintro ⟨findings, findings', hworld, hother, -, hagree, -⟩
    refine ⟨fun strategyId hid =>
      ⟨World.reconcile_ok_iff.1 ⟨findings, hworld⟩ strategyId hid, ?_⟩, ?_⟩
    · rw [← agree_iff fun row hrow => World.named_row hrow, ← World.no_finding_iff hworld hid]
      exact hagree strategyId hid
    · by_cases hchanged : changed ∈ other.ids
      · exact World.reconcile_ok_iff.1 ⟨findings', hother⟩ changed hchanged
      · -- An id without a row has nothing to compare.
        rw [World.mem_ids, not_or] at hchanged
        intro row hrow
        rw [Option.mem_def.1 hrow] at hchanged
        exact absurd rfl hchanged.1
  · rintro ⟨hcondition, hchanged⟩
    obtain ⟨findings, hworld⟩ := World.reconcile_ok_iff.2 fun strategyId hid =>
      (hcondition strategyId hid).1
    obtain ⟨findings', hother⟩ : ∃ findings', other.reconcile sorted = .ok findings' := by
      refine World.reconcile_ok_iff.2 fun strategyId hid => ?_
      -- The changed id is promised apart; the others are as before.
      by_cases hne : strategyId = changed
      · rw [hne]
        exact hchanged
      · rw [(hsame strategyId hne).1, (hsame strategyId hne).2]
        exact (hcondition strategyId ((hmem strategyId hne).1 hid)).1
    refine ⟨findings, findings', hworld, hother, World.nodup_findings hworld,
      fun strategyId hid => ?_, fun finding hne => ?_⟩
    · rw [World.no_finding_iff hworld hid, agree_iff fun row hrow => World.named_row hrow]
      exact (hcondition strategyId hid).2
    · rw [World.mem_findings hworld, World.mem_findings hother, hmem _ hne, (hsame _ hne).1,
        (hsame _ hne).2]

/-! ### Two strategies -/

/-- A class without required series. -/
def breakout : AdapteeClass where
  name := "Breakout"
  module := "strategies.breakout"
  getMetadata := .ok ⟨[], 20, ["1h"]⟩

/-- The row of the class, with the series registered as required. -/
def breakoutRow (strategyId : String) (required : Object) (column : String) : Object :=
  if column = "strategy_id" then .str strategyId
  else if column = "class_name" then .str "Breakout"
  else if column = "module_path" then .str "strategies.breakout"
  else if column = "supported_timeframes" then .list [.str "1h"]
  else if column = "required_indicators_json" then required
  else if column = "is_active" then .bool true
  else .none

/-- Two strategies of one class; the required series of the second are as given. -/
def twoStrategies (required : Object) : World where
  catalog :=
    { rows := [("alpha", breakoutRow "alpha" (.list [])),
        ("beta", breakoutRow "beta" required)]
      named := by simp [breakoutRow]
      unique := by simp }
  classes := [("alpha", breakout), ("beta", breakout)]
  deployedOnce := by simp

theorem twoStrategies_same (required required' : Object) (strategyId : String)
    (h : strategyId ≠ "beta") :
    (twoStrategies required').row strategyId = (twoStrategies required).row strategyId ∧
      (twoStrategies required').adaptee strategyId =
        (twoStrategies required).adaptee strategyId := by
  have hne : (strategyId == "beta") = false := beq_eq_false_iff_ne.2 h
  simp [twoStrategies, World.row, World.adaptee, List.lookup_cons, hne]

theorem reconciliation_iff_of_twoStrategies :
    (∃ findings findings', (twoStrategies (.list [])).reconcile sortedByInsertion = .ok findings ∧
      (twoStrategies .none).reconcile sortedByInsertion = .ok findings' ∧
      (findings.map Finding.strategyId).Nodup ∧
      (∀ strategyId ∈ (twoStrategies (.list [])).ids,
        (∀ finding ∈ findings, finding.strategyId ≠ strategyId) ↔
          createChecks sortedByInsertion strategyId ((twoStrategies (.list [])).row strategyId)
            ((twoStrategies (.list [])).adaptee strategyId) = .ok ()) ∧
      ∀ finding : Finding, finding.strategyId ≠ "beta" →
        (finding ∈ findings' ↔ finding ∈ findings)) ↔
    (∀ strategyId ∈ (twoStrategies (.list [])).ids,
      Contained sortedByInsertion ((twoStrategies (.list [])).row strategyId)
          ((twoStrategies (.list [])).adaptee strategyId) ∧
        ¬ Anonymous sortedByInsertion ((twoStrategies (.list [])).row strategyId)
          ((twoStrategies (.list [])).adaptee strategyId)) ∧
      Contained sortedByInsertion ((twoStrategies .none).row "beta")
        ((twoStrategies .none).adaptee "beta") :=
  reconciliation_iff sortedByInsertion (twoStrategies (.list [])) (twoStrategies .none) "beta"
    (twoStrategies_same _ _)

/-- A required series that is no descriptor makes the whole call raise. -/
theorem reconcile_raises_of_malformed :
    (twoStrategies (.list [])).reconcile sortedByInsertion = .ok [] ∧
      (twoStrategies (.list [.str "EMA"])).reconcile sortedByInsertion = .error .valueError := by
  have hids : ∀ required, (twoStrategies required).ids = ["alpha", "beta"] := by
    intro required
    simp [twoStrategies, World.ids, strategyIds, sortedUnique, sortBy, uniqueBy]
  rw [World.reconcile_eq, World.reconcile_eq, hids, hids]
  exact ⟨rfl, rfl⟩

end Catalog
end TradingSystem
