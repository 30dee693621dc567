import TradingSystem.Data.PlainNumber
import TradingSystem.Data.Separated
import TradingSystem.Numeric.Binary64

/-!
# Series keys

A registered calculation is known by its name and its parameters, and a series by these and the
timeframe it runs on. `series_key` flattens them into one text: the normalized name, the
parameters behind a colon, and the timeframe behind an `@`.

* `SeriesParam`, `Params`, `SeriesSpec` — a calculation's identity, with Python's equality.
* `normalizeSeriesName`, `rendered`, `seriesKeyOf` — the key's parts and the key.
* `seriesKeyOf_injective` — a key determines its three parts.
* `rendered_eq_iff` — when parameters without separators are written alike.
* `distinct_iff` — when the keys of a registry keep its calculations apart.
-/

namespace TradingSystem
namespace SeriesKeys

open Data Numeric

/-! ### A mark between two texts -/

section Marks

variable {α : Type} {mark : α} {left left' right right' : List α}

/-- The first mark splits a text. -/
theorem append_cons_inj (hleft : mark ∉ left) (hleft' : mark ∉ left')
    (h : left ++ mark :: right = left' ++ mark :: right') : left = left' ∧ right = right' := by
  induction left generalizing left' with
  | nil =>
    cases left' with
    | nil => exact ⟨rfl, List.tail_eq_of_cons_eq h⟩
    | cons a left' =>
      rw [List.nil_append, List.cons_append, List.cons.injEq] at h
      exact absurd (h.1 ▸ List.mem_cons_self ..) hleft'
  | cons a left ih =>
    cases left' with
    | nil =>
      rw [List.nil_append, List.cons_append, List.cons.injEq] at h
      exact absurd (h.1 ▸ List.mem_cons_self ..) hleft
    | cons b left' =>
      rw [List.cons_append, List.cons_append, List.cons.injEq] at h
      -- neither prefix holds the mark, so they end together
      obtain ⟨hrest, hright⟩ := ih (fun hmem => hleft (List.mem_cons_of_mem _ hmem))
        (fun hmem => hleft' (List.mem_cons_of_mem _ hmem)) h.2
      exact ⟨by rw [h.1, hrest], hright⟩

/-- The last mark splits a text. -/
theorem append_cons_inj_right (hright : mark ∉ right) (hright' : mark ∉ right')
    (h : left ++ mark :: right = left' ++ mark :: right') : left = left' ∧ right = right' := by
  have hreverse : right.reverse ++ mark :: left.reverse =
      right'.reverse ++ mark :: left'.reverse := by
    simpa using congrArg List.reverse h
  obtain ⟨hr, hl⟩ := append_cons_inj (by simpa using hright) (by simpa using hright') hreverse
  exact ⟨List.reverse_injective hl, List.reverse_injective hr⟩

end Marks

/-! ### Parameters -/

/-- A float. Two values that are not numbers are equal when they are one object. -/
inductive Float64
  | finite (value : Binary64)
  | infinite (negative : Bool)
  | nan (object : ℕ)
deriving DecidableEq

/-- A scalar registry value. -/
inductive SeriesParam
  | bool (value : Bool)
  | int (value : ℤ)
  | float (value : Float64)
  | str (value : String)
deriving DecidableEq

namespace SeriesParam

/-- The number a value compares as. -/
def number : SeriesParam → Option ℚ
  | .bool value => some (if value then 1 else 0)
  | .int value => some value
  | .float (.finite value) => some value.val
  | _ => none

/-- Python's `==`, of a tuple's or a dictionary's items: booleans, integers and floats compare by
their numbers. -/
def equal (left right : SeriesParam) : Bool :=
  match left.number, right.number with
  | some left, some right => left = right
  | _, _ => left = right

end SeriesParam

/-- A mapping of parameters, as `sorted(params.items())` lists it. -/
structure Params where
  items : List (String × SeriesParam)
  sorted : items.Pairwise fun left right => left.1 < right.1
deriving DecidableEq

/-- The items have the same keys with equal values. -/
def Params.equal (left right : Params) : Bool :=
  left.items.length = right.items.length ∧
    (left.items.zip right.items).all fun pair =>
      pair.1.1 = pair.2.1 ∧ pair.1.2.equal pair.2.2

/-- What a registry knows a calculation by. -/
@[ext]
structure SeriesSpec where
  name : String
  params : Params
  name_ne : name ≠ ""

instance : DecidableEq SeriesSpec := fun _ _ => decidable_of_iff _ SeriesSpec.ext_iff.symm

/-- `RegistryKey`: the name and the sorted parameters, compared as tuples. -/
def SeriesSpec.sameKey (left right : SeriesSpec) : Bool :=
  left.name = right.name ∧ left.params.equal right.params

/-! ### Timeframes -/

/-- The zeros of the scripts whose digits `\d` matches; nine more digits follow each. -/
def decimalZeros : List ℕ :=
  [0x30, 0x660, 0x6f0, 0x7c0, 0x966, 0x9e6, 0xa66, 0xae6, 0xb66, 0xbe6, 0xc66, 0xce6, 0xd66,
    0xde6, 0xe50, 0xed0, 0xf20, 0x1040, 0x1090, 0x17e0, 0x1810, 0x1946, 0x19d0, 0x1a80, 0x1a90,
    0x1b50, 0x1bb0, 0x1c40, 0x1c50, 0xa620, 0xa8d0, 0xa900, 0xa9d0, 0xa9f0, 0xaa50, 0xabf0,
    0xff10, 0x104a0, 0x10d30, 0x11066, 0x110f0, 0x11136, 0x111d0, 0x112f0, 0x11450, 0x114d0,
    0x11650, 0x116c0, 0x11730, 0x118e0, 0x11950, 0x11c50, 0x11d50, 0x11da0, 0x16a60, 0x16ac0,
    0x16b50, 0x1d7ce, 0x1d7d8, 0x1d7e2, 0x1d7ec, 0x1d7f6, 0x1e140, 0x1e2f0, 0x1e950, 0x1fbf0]

/-- `\d` of a text pattern. -/
def isDecimalDigit (c : Char) : Bool :=
  decimalZeros.any fun start => start ≤ c.toNat ∧ c.toNat < start + 10

/-- `\d*[mhd]` up to the end. -/
def isTimeframeTail : List Char → Bool
  | [] => false
  | [unit] => unit ∈ ['m', 'h', 'd']
  | digit :: rest => isDecimalDigit digit && isTimeframeTail rest

/-- `_TIMEFRAME_PATTERN.fullmatch`: `^[1-9]\d*[mhd]$`. -/
def isTimeframe (timeframe : String) : Bool :=
  match timeframe.toList with
  | [] => false
  | first :: rest => first ∈ ['1', '2', '3', '4', '5', '6', '7', '8', '9'] && isTimeframeTail rest

theorem at_notMem_of_isTimeframeTail {text : List Char} (h : isTimeframeTail text = true) :
    '@' ∉ text := by
  -- On the text: all characters but the last are digits, and the last is a unit.
  induction text with
  | nil => exact List.not_mem_nil
  | cons digit rest ih =>
    cases rest with
    | nil =>
      rw [isTimeframeTail, decide_eq_true_eq] at h
      rw [List.mem_singleton]
      rintro rfl
      exact absurd h (by decide)
    | cons next rest =>
      rw [isTimeframeTail, Bool.and_eq_true] at h
      · rw [List.mem_cons, not_or]
        refine ⟨?_, ih h.2⟩
        rintro rfl
        exact absurd h.1 (by decide)
      · simp

/-- A timeframe does not hold the mark that a key puts before it. -/
theorem at_notMem_of_isTimeframe {timeframe : String} (h : isTimeframe timeframe = true) :
    '@' ∉ timeframe.toList := by
  rw [isTimeframe] at h
  split at h
  · cases h
  next first rest hlist =>
    rw [Bool.and_eq_true, decide_eq_true_eq] at h
    rw [hlist, List.mem_cons, not_or]
    refine ⟨?_, at_notMem_of_isTimeframeTail h.2⟩
    rintro rfl
    exact absurd h.1 (by decide)

/-! ### The parts of a key -/

def isNameChar (c : Char) : Bool := ('a' ≤ c ∧ c ≤ 'z') ∨ ('0' ≤ c ∧ c ≤ '9')

/-- `re.sub("[^a-z0-9]+", "_", text)`; the flag says that a run of other characters has been
replaced already. -/
def squash : Bool → List Char → List Char
  | _, [] => []
  | inRun, c :: rest =>
    if isNameChar c then c :: squash false rest
    else if inRun then squash true rest
    else '_' :: squash true rest

/-- `text.strip("_")`. -/
def stripUnderscores (text : List Char) : List Char :=
  ((text.dropWhile (· = '_')).reverse.dropWhile (· = '_')).reverse

def normalizeSeriesName (casefold : String → String) (name : String) : List Char :=
  stripUnderscores (squash false (casefold name).toList)

/-- The digits of a mantissa: one before the point. -/
def mantissaText : List Char → List Char
  | first :: second :: rest => first :: '.' :: second :: rest
  | digits => digits

/-- An exponent has two digits at least. -/
def exponentText (exponent : ℕ) : List Char :=
  let digits := Nat.toDigits 10 exponent
  if digits.length < 2 then '0' :: digits else digits

/-- `str` of a float that is not an integer: from four zeros behind the point on with an
exponent. -/
def fractionText (value : ℚ) : List Char :=
  if |value| < 1 / 10 ^ 4 then
    let digits := Nat.toDigits 10 (scaled value)
    Json.signText (value < 0) ++ mantissaText digits ++ 'e' :: '-' ::
      exponentText (places value + 1 - digits.length)
  else plainText value

def seriesParam : SeriesParam → List Char
  | .bool value => (if value then "true" else "false").toList
  | .int value => Json.renderInt value
  | .float (.finite value) =>
    if value.val.den = 1 then Json.renderInt value.val.num else fractionText value.repr
  | .float (.infinite negative) => (if negative then "-inf" else "inf").toList
  | .float (.nan _) => "nan".toList
  | .str value => value.toList

/-- The parameters of a key: `key=value`, separated by commas. -/
def rendered (params : Params) : List Char :=
  [','].intercalate (params.items.map fun item => item.1.toList ++ '=' :: seriesParam item.2)

/-- A key's name and parameters. -/
def identity (casefold : String → String) (name : String) (params : Params) : List Char :=
  if rendered params = [] then normalizeSeriesName casefold name
  else normalizeSeriesName casefold name ++ ':' :: rendered params

/-- Why there is no key. -/
inductive KeyError
  | timeframe
deriving DecidableEq

def seriesKeyOf (casefold : String → String) (name : String) (params : Params)
    (timeframe : String) : Except KeyError String :=
  if isTimeframe timeframe then
    .ok (String.ofList (identity casefold name params ++ '@' :: timeframe.toList))
  else .error .timeframe

def seriesKey (casefold : String → String) (spec : SeriesSpec) (timeframe : String) :
    Except KeyError String :=
  seriesKeyOf casefold spec.name spec.params timeframe

/-! ### Reading a key -/

variable {casefold : String → String}

theorem mem_squash {inRun : Bool} {text : List Char} {c : Char} (h : c ∈ squash inRun text) :
    isNameChar c = true ∨ c = '_' := by
  -- On the text, inside and outside of a run of other characters.
  induction text generalizing inRun with
  | nil => cases h
  | cons first rest ih =>
    rw [squash] at h
    split_ifs at h with hname hrun
    · obtain rfl | h := List.mem_cons.1 h
      · exact .inl hname
      · exact ih h
    · exact ih h
    · obtain rfl | h := List.mem_cons.1 h
      · exact .inr rfl
      · exact ih h

theorem mem_of_mem_stripUnderscores {text : List Char} {c : Char}
    (h : c ∈ stripUnderscores text) : c ∈ text := by
  rw [stripUnderscores, List.mem_reverse] at h
  exact (List.dropWhile_sublist _).subset
    (List.mem_reverse.1 ((List.dropWhile_sublist _).subset h))

/-- A normalized name does not hold the mark that a key puts behind it. -/
theorem colon_notMem_normalizeSeriesName {name : String} :
    ':' ∉ normalizeSeriesName casefold name := by
  intro h
  obtain h | h := mem_squash (mem_of_mem_stripUnderscores h)
  · exact absurd h (by decide)
  · exact absurd h (by decide)

/-- The name and the parameters are read back. -/
theorem identity_injective {name name' : String} {params params' : Params}
    (h : identity casefold name params = identity casefold name' params') :
    normalizeSeriesName casefold name = normalizeSeriesName casefold name' ∧
      rendered params = rendered params' := by
  have hcolon : ∀ name : String, ':' ∉ normalizeSeriesName casefold name :=
    fun name => colon_notMem_normalizeSeriesName
  -- A colon stands in the identity exactly where there are parameters.
  unfold identity at h
  split_ifs at h with hnil hnil' hnil'
  · exact ⟨h, hnil.trans hnil'.symm⟩
  · exact absurd (h ▸ List.mem_append_right _ (List.mem_cons_self ..)) (hcolon name)
  · exact absurd (h ▸ List.mem_append_right _ (List.mem_cons_self ..)) (hcolon name')
  · exact append_cons_inj (hcolon name) (hcolon name') h

/-- **A key determines its parts**: the normalized name, the parameters as they are written, and
the timeframe. -/
theorem seriesKeyOf_injective {name name' : String} {params params' : Params}
    {timeframe timeframe' key : String}
    (h : seriesKeyOf casefold name params timeframe = .ok key)
    (h' : seriesKeyOf casefold name' params' timeframe' = .ok key) :
    normalizeSeriesName casefold name = normalizeSeriesName casefold name' ∧
      rendered params = rendered params' ∧ timeframe = timeframe' := by
  unfold seriesKeyOf at h h'
  split_ifs at h h' with hvalid hvalid'
  have htext : identity casefold name params ++ '@' :: timeframe.toList =
      identity casefold name' params' ++ '@' :: timeframe'.toList := by
    have hkey := (Except.ok.inj h).trans (Except.ok.inj h').symm
    exact String.ofList_injective hkey
  -- A parameter may hold the mark too, so the key is cut at its last one.
  obtain ⟨hidentity, htimeframe⟩ := append_cons_inj_right (at_notMem_of_isTimeframe hvalid)
    (at_notMem_of_isTimeframe hvalid') htext
  obtain ⟨hname, hparams⟩ := identity_injective hidentity
  exact ⟨hname, hparams, String.toList_injective htimeframe⟩

/-- Keys and values without the marks that part them. -/
def Params.Plain (params : Params) : Prop :=
  ∀ item ∈ params.items,
    ',' ∉ item.1.toList ∧ '=' ∉ item.1.toList ∧ ',' ∉ seriesParam item.2

/-- Parameters without the marks are written alike exactly when they have the same keys with
values that are written alike. -/
theorem rendered_eq_iff {params params' : Params} (hplain : params.Plain)
    (hplain' : params'.Plain) : rendered params = rendered params' ↔
      params.items.map (fun item => (item.1.toList, seriesParam item.2)) =
        params'.items.map fun item => (item.1.toList, seriesParam item.2) := by
  set shown : List Char × List Char → List Char := fun part => part.1 ++ '=' :: part.2 with hshown
  have hparts : ∀ params : Params, params.items.map (fun item =>
      item.1.toList ++ '=' :: seriesParam item.2) =
        (params.items.map fun item => (item.1.toList, seriesParam item.2)).map shown :=
    fun params => by rw [List.map_map]; rfl
  have hcomma : ∀ {params : Params}, params.Plain →
      ∀ part ∈ (params.items.map fun item => (item.1.toList, seriesParam item.2)).map shown,
        ',' ∉ part := by
    intro params hplain part hpart
    rw [List.map_map] at hpart
    obtain ⟨item, hitem, rfl⟩ := List.mem_map.1 hpart
    obtain ⟨hkey, -, hvalue⟩ := hplain item hitem
    simp only [hshown, Function.comp_apply, List.mem_append, List.mem_cons, not_or]
    exact ⟨hkey, by decide, hvalue⟩
  -- A part holds its equals sign, so it is never empty and no separator is doubled.
  have hne : ∀ parts : List (List Char × List Char), ∀ part ∈ parts.map shown, part ≠ [] := by
    intro parts part hpart
    obtain ⟨pair, -, rfl⟩ := List.mem_map.1 hpart
    simp [hshown]
  rw [rendered, rendered, hparts, hparts]
  constructor
  · intro h
    have hmap := intercalate_injective_of_ne_nil (hcomma hplain) (hcomma hplain') (hne _) (hne _) h
    -- Without an equals sign in the key a part is cut at its first one.
    refine map_eq_of_injOn (fun part hpart part' hpart' heq => ?_) hmap
    obtain ⟨item, hitem, rfl⟩ := List.mem_map.1 hpart
    obtain ⟨item', hitem', rfl⟩ := List.mem_map.1 hpart'
    obtain ⟨hkey, hvalue⟩ := append_cons_inj (hplain item hitem).2.1 (hplain' item' hitem').2.1 heq
    exact Prod.ext hkey hvalue
  · intro h
    rw [h]

/-! ### Registries -/

/-- A registry: `register` refuses a second calculation of one key. -/
structure Registry where
  specs : List SeriesSpec
  unique : specs.Pairwise fun left right => left.sameKey right = false

/-- A registry without calculations. -/
def Registry.empty : Registry := ⟨[], List.Pairwise.nil⟩

/-- The two registries, past `assert_disjoint_series_registry_names`: no name of one is a name of
the other, also after normalization. -/
structure Registries (casefold : String → String) where
  indicators : Registry
  patterns : Registry
  disjoint : ∀ indicator ∈ indicators.specs, ∀ pattern ∈ patterns.specs,
    indicator.name ≠ pattern.name ∧
      normalizeSeriesName casefold indicator.name ≠ normalizeSeriesName casefold pattern.name

/-- All calculations that can be declared. -/
def Registries.specs (registries : Registries casefold) : List SeriesSpec :=
  registries.indicators.specs ++ registries.patterns.specs

/-- Names that normalize alike lie in one registry. -/
theorem Registries.same_registry (registries : Registries casefold) {spec other : SeriesSpec}
    (hspec : spec ∈ registries.specs) (hother : other ∈ registries.specs)
    (h : normalizeSeriesName casefold spec.name = normalizeSeriesName casefold other.name) :
    ∃ registry ∈ [registries.indicators, registries.patterns],
      spec ∈ registry.specs ∧ other ∈ registry.specs := by
  -- An indicator and a pattern never normalize alike.
  obtain hi | hp := List.mem_append.1 hspec
  · obtain hi' | hp' := List.mem_append.1 hother
    · exact ⟨registries.indicators, by simp, hi, hi'⟩
    · exact absurd h (registries.disjoint spec hi other hp').2
  · obtain hi' | hp' := List.mem_append.1 hother
    · exact absurd h.symm (registries.disjoint other hi' spec hp).2
    · exact ⟨registries.patterns, by simp, hp, hp'⟩

/-- **When keys keep series apart**: two series of different identities never share a key exactly
when no registry holds two different calculations whose names normalize alike and whose
parameters are written alike. -/
theorem distinct_iff (casefold : String → String) (registries : Registries casefold) :
    (∀ spec ∈ registries.specs, ∀ other ∈ registries.specs, ∀ timeframe timeframe' key,
      seriesKey casefold spec timeframe = .ok key →
      seriesKey casefold other timeframe' = .ok key →
      spec.sameKey other = true ∧ timeframe = timeframe') ↔
    ∀ registry ∈ [registries.indicators, registries.patterns],
      ∀ spec ∈ registry.specs, ∀ other ∈ registry.specs,
        normalizeSeriesName casefold spec.name = normalizeSeriesName casefold other.name →
        rendered spec.params = rendered other.params → spec.sameKey other = true := by
  have hsub : ∀ registry ∈ [registries.indicators, registries.patterns],
      registry.specs ⊆ registries.specs := by
    intro registry hregistry spec hspec
    obtain rfl | hregistry := List.mem_cons.1 hregistry
    · exact List.mem_append_left _ hspec
    · rw [List.mem_singleton.1 hregistry] at hspec
      exact List.mem_append_right _ hspec
  constructor
  · intro hapart registry hregistry spec hspec other hother hname hparams
    -- The two calculations have one key on the hour.
    refine (hapart spec (hsub registry hregistry hspec) other (hsub registry hregistry hother)
      "1h" "1h" (String.ofList (identity casefold spec.name spec.params ++ '@' :: "1h".toList))
      rfl ?_).1
    rw [seriesKey, seriesKeyOf, if_pos (show isTimeframe "1h" = true by decide), identity,
      ← hname, ← hparams, ← identity]
  · intro hcondition spec hspec other hother timeframe timeframe' key hkey hkey'
    obtain ⟨hname, hparams, htimeframe⟩ := seriesKeyOf_injective hkey hkey'
    obtain ⟨registry, hregistry, hmem, hmem'⟩ := registries.same_registry hspec hother hname
    exact ⟨hcondition registry hregistry spec hmem other hmem' hname hparams, htimeframe⟩

/-! ### A text and a number -/

/-- `MA` with a mode. -/
def movingAverage (mode : SeriesParam) : SeriesSpec where
  name := "MA"
  params := ⟨[("mode", mode)], List.pairwise_singleton _ _⟩
  name_ne := by decide

/-- Lower case, of letters without accents. -/
def asciiFold (name : String) : String := String.ofList (name.toList.map Char.toLower)

/-- A registry with the modes `1` and `"1"`. -/
def twoModes : Registries asciiFold where
  indicators :=
    { specs := [movingAverage (.int 1), movingAverage (.str "1")]
      unique := by simp [movingAverage, SeriesSpec.sameKey, Params.equal, SeriesParam.equal,
        SeriesParam.number] }
  patterns := .empty
  disjoint := by simp [Registry.empty]

/-- The modes `1` and `"1"` are two calculations with one key. -/
theorem not_distinct_twoModes :
    movingAverage (.int 1) ∈ twoModes.specs ∧ movingAverage (.str "1") ∈ twoModes.specs ∧
      (movingAverage (.int 1)).sameKey (movingAverage (.str "1")) = false ∧
      seriesKey asciiFold (movingAverage (.int 1)) "1h" = .ok "ma:mode=1@1h" ∧
      seriesKey asciiFold (movingAverage (.str "1")) "1h" = .ok "ma:mode=1@1h" := by
  refine ⟨by simp [twoModes, Registries.specs], by simp [twoModes, Registries.specs], ?_, ?_, ?_⟩
  · simp [movingAverage, SeriesSpec.sameKey, Params.equal, SeriesParam.equal, SeriesParam.number]
  · decide
  · decide

end SeriesKeys
end TradingSystem
