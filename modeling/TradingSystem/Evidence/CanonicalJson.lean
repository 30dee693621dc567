import TradingSystem.Data.PlainNumber
import TradingSystem.Types.Enums
import TradingSystem.Types.Money
import TradingSystem.Logic.Program

/-!
# Canonical JSON and the decision codec

Evidence stores its JSON as canonical text: members in the order of their names, numbers in
full without an exponent. Reading the text back makes floats of the numbers with a fraction,
so a decimal comes back as the decimal that its nearest float is printed as. Integers come back
as they are, unless they have more digits than an integer is read from.

* `Value`, `canonicalJson`, `loads` — the values, their text and the parser's result.
* `encodeEvalDecision`, `setEvalDecision` — the decision codec.
* `Readable` — a decimal that its float is printed as, or an integer of digits that are read.
* `fixpoint_iff`, `denoted_injective` — when the text is a fixpoint, and what it determines.
* `canonicalJson_closed_iff` — the fixpoint and the codec at once.
-/

namespace TradingSystem
namespace CanonicalJson

open Numeric Data Logic

/-! ### Values -/

/-- A value that canonical JSON accepts. Floats that are not finite, which it refuses, are left
out; zero with a sign is a float of its own. -/
inductive Value
  | none
  | bool (value : Bool)
  | int (value : ℤ)
  | float (value : Binary64)
  | negativeZero
  | decimal (value : Decimal)
  | str (value : String)
  | sequence (items : List Value)
  | mapping (members : List (String × Value))

namespace Value

mutual

/-- The JSON that `_canonical_json_value` writes. Floats are written as they print and decimals
as they are, both in full: `_plain_shortest_float` and `_plain_decimal`. -/
def toJson : Value → Json
  | none => .null
  | bool value => .bool value
  | int value => .int value
  | float value => number value.repr
  | negativeZero => .float "-0.0"
  | decimal value => number value
  | str value => .str value
  | sequence items => .arr (toJsonItems items)
  | mapping members => .obj (toJsonMembers members)

def toJsonItems : List Value → List Json
  | [] => []
  | value :: items => value.toJson :: toJsonItems items

def toJsonMembers : List (String × Value) → List (String × Json)
  | [] => []
  | (name, value) :: members => (name, value.toJson) :: toJsonMembers members

end

/-- `float(literal)`: the nearest double, and a zero keeps its sign. -/
def readFloat (literal : String) : Value :=
  let value := Binary64.ofRat (literalValue literal.toList)
  if value = Binary64.zero ∧ literal.toList.head? = some '-' then negativeZero else float value

mutual

/-- The values that `json.loads` makes. -/
def ofJson : Json → Value
  | .null => none
  | .bool value => bool value
  | .int value => int value
  | .float literal => readFloat literal
  | .str value => str value
  | .arr items => sequence (ofJsonItems items)
  | .obj members => mapping (ofJsonMembers members)

def ofJsonItems : List Json → List Value
  | [] => []
  | value :: items => ofJson value :: ofJsonItems items

def ofJsonMembers : List (String × Json) → List (String × Value)
  | [] => []
  | (name, value) :: members => (name, ofJson value) :: ofJsonMembers members

end

/-- `int | float | Decimal`, and no `bool`. -/
def isNumber : Value → Bool
  | int _ | float _ | negativeZero | decimal _ => true
  | _ => false

end Value

def canonicalJson (value : Value) : String := Json.canonicalJson value.toJson

/-- The most digits that an integer is read from or written with. -/
def intMaxStrDigits : ℕ := 4300

/-- The integer has no more digits than that. -/
def Countable (value : ℤ) : Prop := (Nat.toDigits 10 value.natAbs).length ≤ intMaxStrDigits

instance (value : ℤ) : Decidable (Countable value) := inferInstanceAs (Decidable (_ ≤ _))

mutual

/-- Every integer of the text is one that is read. -/
def legible : Json → Bool
  | .int value => Countable value
  | .arr items => legibleItems items
  | .obj members => legibleMembers members
  | _ => true

def legibleItems : List Json → Bool
  | [] => true
  | value :: items => legible value && legibleItems items

def legibleMembers : List (String × Json) → Bool
  | [] => true
  | (_, value) :: members => legible value && legibleMembers members

end

/-- `json.loads`; what it raises for a text that is no JSON, and for an integer of too many
digits, is a `ValueError`. -/
def loads (text : String) : Option Value :=
  (Json.loads text).bind fun json => if legible json then some (Value.ofJson json) else none

/-- The names of an evaluation decision. -/
def evalDecisionKeys : List String :=
  ["observed_value", "edge_distinguishable", "decision_route", "higher_is_better"]

def encodeEvalDecision (observedValue : Value) (edgeDistinguishable : Bool)
    (decisionRoute : String) (higherIsBetter : Bool) : Except Fault String := do
  require observedValue.isNumber (.typeError "observed_value must be numeric")
  require (decisionRoute ∈ ["promote", "abandon", "retest", "partial_keep"])
    (.valueError "decision_route is not a standard evaluation route")
  return canonicalJson (.mapping
    [("observed_value", observedValue), ("edge_distinguishable", .bool edgeDistinguishable),
      ("decision_route", .str decisionRoute), ("higher_is_better", .bool higherIsBetter)])

/-- `isinstance(parsed, dict)` with exactly these keys. -/
def hasKeys (keys : List String) : Value → Bool
  | .mapping members =>
    (members.map (·.1)).all (· ∈ keys) ∧ keys.all (· ∈ members.map (·.1))
  | _ => false

/-- `set_eval_decision`: the text that is stored. -/
def setEvalDecision (evalDecisionJson : String) : Except Fault String :=
  match loads evalDecisionJson with
  | none => .error (.valueError "Expecting value")
  | some parsed => do
    require (hasKeys evalDecisionKeys parsed)
      (.valueError "eval_decision_json must contain exactly the finalize keys")
    require (canonicalJson parsed = evalDecisionJson)
      (.valueError "eval_decision_json must use canonical JSON serialization")
    return evalDecisionJson

/-! ### The specification -/

/-- What every value is like: an integer has digits that can be written, a float is finite, a
decimal has finitely many places, a mapping no name twice. -/
inductive Accepted : Value → Prop
  | none : Accepted .none
  | bool (value : Bool) : Accepted (.bool value)
  | int {value : ℤ} (h : Countable value) : Accepted (.int value)
  | float {value : Binary64} (h : |value.val| < 2 ^ 1024) : Accepted (.float value)
  | negativeZero : Accepted .negativeZero
  | decimal {value : Decimal} (h : IsDecimal value) : Accepted (.decimal value)
  | str (value : String) : Accepted (.str value)
  | sequence {items : List Value} (h : ∀ value ∈ items, Accepted value) :
      Accepted (.sequence items)
  | mapping {members : List (String × Value)} (hnames : (members.map (·.1)).Nodup)
      (h : ∀ member ∈ members, Accepted member.2) : Accepted (.mapping members)

/-- The condition on a decimal: it is an integer of digits that are read, or it has a fraction
and is the shortest decimal of its nearest float. -/
def Readable (value : Decimal) : Prop :=
  value.den = 1 ∧ Countable value.num ∨
    value.den ≠ 1 ∧ IsShortestDecimal binary64 (binary64.round value) value

/-- Every decimal within a value is readable. -/
inductive EachReadable : Value → Prop
  | none : EachReadable .none
  | bool (value : Bool) : EachReadable (.bool value)
  | int (value : ℤ) : EachReadable (.int value)
  | float (value : Binary64) : EachReadable (.float value)
  | negativeZero : EachReadable .negativeZero
  | decimal {value : Decimal} (h : Readable value) : EachReadable (.decimal value)
  | str (value : String) : EachReadable (.str value)
  | sequence {items : List Value} (h : ∀ value ∈ items, EachReadable value) :
      EachReadable (.sequence items)
  | mapping {members : List (String × Value)} (h : ∀ member ∈ members, EachReadable member.2) :
      EachReadable (.mapping members)

/-- The JSON value that a value denotes: its members in the order of their names. -/
def denoted (value : Value) : Json := value.toJson.sorted

/-- The text is read back as a value of the same text. -/
def Fixpoint (value : Value) : Prop :=
  ∃ parsed, loads (canonicalJson value) = some parsed ∧
    canonicalJson parsed = canonicalJson value

/-- **The text is canonical**: a fixpoint, and only of what the value denotes. -/
def Canonical (value : Value) : Prop :=
  Fixpoint value ∧ ∀ other, Accepted other → canonicalJson other = canonicalJson value →
    denoted other = denoted value

/-! ### Numbers -/

section Numbers

variable {q : ℚ} {x : Binary64}

theorem isDecimal_of_onGrid {k : ℤ} (h : OnGrid ((10 : ℚ) ^ k) q) : IsDecimal q := by
  obtain ⟨n, rfl⟩ := h
  refine ⟨k.natAbs, ?_⟩
  -- scaled by that power of ten it is an integer
  obtain ⟨m, hm⟩ : ∃ m : ℕ, k + k.natAbs = m := ⟨(k + k.natAbs).toNat, by omega⟩
  have hscaled : (n : ℚ) * 10 ^ k = ((n * 10 ^ m : ℤ) : ℚ) / ((10 ^ k.natAbs : ℤ) : ℚ) := by
    rw [eq_div_iff (by positivity)]
    push_cast
    rw [mul_assoc, ← zpow_natCast (10 : ℚ) k.natAbs, ← zpow_add₀ (by norm_num), hm,
      zpow_natCast]
  have hdvd := Rat.den_dvd (n * 10 ^ m) (10 ^ k.natAbs)
  rw [Rat.divInt_eq_div, ← hscaled] at hdvd
  exact_mod_cast hdvd

theorem repr_eq_zero (h : x.val = 0) : x.repr = 0 := by
  unfold Binary64.repr BinaryFormat.shortest
  rw [if_pos h]

/-- Floats print as decimals. -/
theorem isDecimal_repr (x : Binary64) : IsDecimal x.repr := by
  by_cases hzero : x.val = 0
  · rw [repr_eq_zero hzero]
    exact ⟨0, one_dvd _⟩
  · obtain ⟨k, hk⟩ := isShortestDecimal_shortest x.rounded hzero
    exact isDecimal_of_onGrid hk.readsBack.1

/-- A decimal is printed for its nearest float exactly when it is the shortest. -/
theorem repr_ofRat_eq_iff (hden : q.den ≠ 1) :
    (Binary64.ofRat q).repr = q ↔ IsShortestDecimal binary64 (binary64.round q) q := by
  by_cases hzero : binary64.round q = 0
  · constructor
    · intro hrepr
      rw [repr_eq_zero hzero] at hrepr
      rw [← hrepr] at hden
      exact absurd rfl hden
    · rintro ⟨k, hk⟩
      rw [hzero] at hk
      exact absurd ⟨OnGrid.zero, binary64.round_zero⟩ (hk.coarsest (k + 1) 0 (by omega))
  · exact shortest_eq_iff (Binary64.ofRat q).rounded hzero

theorem countable_iff {n : ℤ} : Countable n ↔ n.natAbs < 10 ^ intMaxStrDigits :=
  Nat.length_toDigits_le_iff (by decide) (by decide)

/-- An integer of so many bits has digits that are read. -/
theorem countable_of_lt {n : ℤ} {bits : ℕ} (hbits : bits ≤ intMaxStrDigits)
    (h : |(n : ℚ)| < 2 ^ bits) : Countable n := by
  rw [countable_iff]
  rw [← Int.cast_abs, Int.abs_eq_natAbs] at h
  have hlt : n.natAbs < 2 ^ bits := by exact_mod_cast h
  calc n.natAbs < 2 ^ bits := hlt
    _ ≤ 10 ^ bits := Nat.pow_le_pow_left (by decide) bits
    _ ≤ 10 ^ intMaxStrDigits := Nat.pow_le_pow_right (by decide) hbits

/-- A power of ten with more digits than that has not. -/
theorem not_countable_pow {n : ℕ} (h : intMaxStrDigits ≤ n) : ¬Countable (10 ^ n) := by
  rw [countable_iff, Int.natAbs_pow, not_lt]
  exact Nat.pow_le_pow_right (by decide) h

/-- What a finite float is printed as lies in the range of floats. -/
theorem abs_repr_lt (h : |x.val| < 2 ^ 1024) : |x.repr| < 2 ^ 1024 := by
  have hround : binary64.round x.repr = x.val := congrArg Binary64.val (Binary64.ofRat_repr x)
  have hlimit : binary64.round (2 ^ 1024) = 2 ^ 1024 := by
    have hmul := binary64.round_int_mul (n := 1) (e := 1024) (by decide) (by decide)
    simpa using hmul
  obtain ⟨hlow, hhigh⟩ := abs_lt.1 h
  refine abs_lt.2 ⟨?_, ?_⟩
  · by_contra hle
    have hmono := binary64.round_mono (not_lt.1 hle)
    rw [hround, BinaryFormat.round_neg, hlimit] at hmono
    exact absurd hlow (not_lt.2 hmono)
  · by_contra hle
    have hmono := binary64.round_mono (not_lt.1 hle)
    rw [hround, hlimit] at hmono
    exact absurd hhigh (not_lt.2 hmono)

/-- A float that is printed without a fraction is an integer of digits that are read. -/
theorem countable_repr (h : |x.val| < 2 ^ 1024) (hden : x.repr.den = 1) :
    Countable x.repr.num := by
  have habs := abs_repr_lt h
  rw [← Rat.coe_int_num_of_den_eq_one hden] at habs
  exact countable_of_lt (by decide) habs

/-- **A number with a fraction comes back** exactly when it is printed for its float. -/
theorem toJson_readFloat_iff (h : IsDecimal q) (hden : q.den ≠ 1) :
    (Value.readFloat (String.ofList (plainText q))).toJson = .float (String.ofList (plainText q)) ↔
      (Binary64.ofRat q).repr = q := by
  have hnumber : number q = .float (String.ofList (plainText q)) := if_neg hden
  unfold Value.readFloat
  rw [String.toList_ofList, literalValue_plainText h, ← hnumber]
  dsimp only
  split
  · next hzero =>
    -- a decimal that is lost comes back as zero
    rw [hzero.1, repr_eq_zero rfl]
    constructor
    · intro heq
      have hliteral : (Json.float "-0.0") = .float (String.ofList (plainText q)) :=
        heq.trans hnumber
      have hvalue : literalValue "-0.0".toList = q := by
        rw [Json.float.inj hliteral, String.toList_ofList, literalValue_plainText h]
      exact literalValue_negativeZero.symm.trans hvalue
    · rintro rfl
      exact absurd rfl hden
  · exact ⟨number_injective (isDecimal_repr _) h, fun hrepr => congrArg number hrepr⟩

/-- Floats come back. -/
theorem toJson_readFloat_repr (x : Binary64) (hden : x.repr.den ≠ 1) :
    (Value.readFloat (String.ofList (plainText x.repr))).toJson =
      .float (String.ofList (plainText x.repr)) := by
  rw [toJson_readFloat_iff (isDecimal_repr x) hden, Binary64.ofRat_repr]

theorem toJson_readFloat_negativeZero :
    (Value.readFloat "-0.0").toJson = .float "-0.0" := by
  have hread : literalValue "-0.0".toList = 0 := literalValue_negativeZero
  have hzero : Binary64.ofRat 0 = Binary64.zero := Binary64.ext binary64.round_zero
  unfold Value.readFloat
  rw [hread, hzero]
  rfl

end Numbers

/-! ### Inductions -/

/-- A property of values, by their leaves, sequences and mappings. -/
theorem Value.induct {p : Value → Prop} (hnone : p .none) (hbool : ∀ value, p (.bool value))
    (hint : ∀ value, p (.int value)) (hfloat : ∀ value, p (.float value))
    (hzero : p .negativeZero) (hdecimal : ∀ value, p (.decimal value))
    (hstr : ∀ value, p (.str value))
    (hsequence : ∀ items, (∀ value ∈ items, p value) → p (.sequence items))
    (hmapping : ∀ members, (∀ member ∈ members, p member.2) → p (.mapping members)) :
    ∀ value, p value
  | .none => hnone
  | .bool value => hbool value
  | .int value => hint value
  | .float value => hfloat value
  | .negativeZero => hzero
  | .decimal value => hdecimal value
  | .str value => hstr value
  -- a nested value is smaller than what holds it
  | .sequence items => hsequence items fun value _ =>
      Value.induct hnone hbool hint hfloat hzero hdecimal hstr hsequence hmapping value
  | .mapping members => hmapping members fun member _ =>
      Value.induct hnone hbool hint hfloat hzero hdecimal hstr hsequence hmapping member.2
termination_by value => sizeOf value
decreasing_by
  · have := List.sizeOf_lt_of_mem ‹value ∈ items›
    simp only [Value.sequence.sizeOf_spec]
    omega
  · have := List.sizeOf_lt_of_mem ‹member ∈ members›
    cases member
    simp only [Value.mapping.sizeOf_spec, Prod.mk.sizeOf_spec] at this ⊢
    omega

/-- A property of JSON values, likewise. -/
theorem jsonInduct {p : Json → Prop} (hnull : p .null) (hbool : ∀ value, p (.bool value))
    (hint : ∀ value, p (.int value)) (hfloat : ∀ literal, p (.float literal))
    (hstr : ∀ value, p (.str value))
    (harr : ∀ items, (∀ value ∈ items, p value) → p (.arr items))
    (hobj : ∀ members, (∀ member ∈ members, p member.2) → p (.obj members)) : ∀ value, p value
  | .null => hnull
  | .bool value => hbool value
  | .int value => hint value
  | .float literal => hfloat literal
  | .str value => hstr value
  | .arr items => harr items fun value _ =>
      jsonInduct hnull hbool hint hfloat hstr harr hobj value
  | .obj members => hobj members fun member _ =>
      jsonInduct hnull hbool hint hfloat hstr harr hobj member.2
termination_by value => sizeOf value
decreasing_by
  · have := List.sizeOf_lt_of_mem ‹value ∈ items›
    simp only [Json.arr.sizeOf_spec]
    omega
  · have := List.sizeOf_lt_of_mem ‹member ∈ members›
    cases member
    simp only [Json.obj.sizeOf_spec, Prod.mk.sizeOf_spec] at this ⊢
    omega

section Maps

variable {items : List Value} {members : List (String × Value)} {values : List Json}
  {fields : List (String × Json)}

theorem toJsonItems_eq (items : List Value) :
    Value.toJsonItems items = items.map Value.toJson := by
  induction items with
  | nil => rfl
  | cons value items ih => rw [Value.toJsonItems, ih, List.map_cons]

theorem toJsonMembers_eq (members : List (String × Value)) :
    Value.toJsonMembers members = members.map fun member => (member.1, member.2.toJson) := by
  induction members with
  | nil => rfl
  | cons member members ih => rw [Value.toJsonMembers, ih, List.map_cons]

theorem ofJsonItems_eq (values : List Json) :
    Value.ofJsonItems values = values.map Value.ofJson := by
  induction values with
  | nil => rfl
  | cons value values ih => rw [Value.ofJsonItems, ih, List.map_cons]

theorem ofJsonMembers_eq (fields : List (String × Json)) :
    Value.ofJsonMembers fields = fields.map fun field => (field.1, Value.ofJson field.2) := by
  induction fields with
  | nil => rfl
  | cons field fields ih => rw [Value.ofJsonMembers, ih, List.map_cons]

theorem legibleItems_eq (values : List Json) : legibleItems values = values.all legible := by
  induction values with
  | nil => rfl
  | cons value values ih => rw [legibleItems, ih, List.all_cons]

theorem legibleMembers_eq (fields : List (String × Json)) :
    legibleMembers fields = fields.all fun field => legible field.2 := by
  induction fields with
  | nil => rfl
  | cons field fields ih => rw [legibleMembers, ih, List.all_cons]

/-- A list is its image exactly when each element is its own. -/
theorem map_eq_self_iff {α : Type} {f : α → α} {l : List α} :
    l.map f = l ↔ ∀ a ∈ l, f a = a := by
  induction l with
  | nil => simp
  | cons a l ih => simp [ih]

end Maps

/-! ### Reading and writing again -/

section Reread

variable {json : Json} {value : Value}

/-- What is written for the value that is read from a JSON value. -/
def reread (json : Json) : Json := (Value.ofJson json).toJson

theorem reread_arr (items : List Json) : reread (.arr items) = .arr (items.map reread) := by
  unfold reread
  rw [Value.ofJson, Value.toJson, ofJsonItems_eq, toJsonItems_eq, List.map_map]
  rfl

theorem reread_obj (members : List (String × Json)) :
    reread (.obj members) = .obj (members.map fun member => (member.1, reread member.2)) := by
  unfold reread
  rw [Value.ofJson, Value.toJson, ofJsonMembers_eq, toJsonMembers_eq, List.map_map]
  rfl

theorem reread_arr_eq_iff (items : List Json) :
    reread (.arr items) = .arr items ↔ ∀ item ∈ items, reread item = item := by
  rw [reread_arr, Json.arr.injEq, map_eq_self_iff]

theorem reread_obj_eq_iff (members : List (String × Json)) :
    reread (.obj members) = .obj members ↔ ∀ member ∈ members, reread member.2 = member.2 := by
  rw [reread_obj, Json.obj.injEq, map_eq_self_iff]
  refine forall₂_congr fun member _ => ?_
  constructor
  · intro h
    exact congrArg Prod.snd h
  · intro h
    exact Prod.ext rfl h

theorem insertMember_map (f : Json → Json) (member : String × Json)
    (members : List (String × Json)) :
    Json.insertMember (member.1, f member.2) (members.map fun other => (other.1, f other.2)) =
      (Json.insertMember member members).map fun other => (other.1, f other.2) := by
  induction members with
  | nil => rfl
  | cons other members ih =>
    rw [List.map_cons, Json.insertMember, Json.insertMember]
    by_cases h : member.1 ≤ other.1
    · rw [if_pos h, if_pos h, List.map_cons, List.map_cons]
    · rw [if_neg h, if_neg h, ih, List.map_cons]

theorem sorted_number (q : ℚ) : (number q).sorted = number q := by
  unfold number
  split <;> rfl

/-- What is written for a float has no members. -/
theorem sorted_readFloat (literal : String) :
    (Value.readFloat literal).toJson.sorted = (Value.readFloat literal).toJson := by
  unfold Value.readFloat
  dsimp only
  split
  · rfl
  · exact sorted_number _

/-- **The order of the names** does not matter for what is read. -/
theorem sorted_reread (json : Json) : (reread json).sorted = reread json.sorted := by
  induction json using jsonInduct with
  | hnull => rfl
  | hbool value => rfl
  | hint value => rfl
  | hfloat literal => exact sorted_readFloat literal
  | hstr value => rfl
  | harr items ih =>
    rw [reread_arr, Json.sorted, Json.sorted, reread_arr, Json.sortedItems_eq_map,
      Json.sortedItems_eq_map, List.map_map, List.map_map]
    exact congrArg Json.arr (List.map_congr_left ih)
  | hobj members ih =>
    rw [reread_obj, Json.sorted, Json.sorted, reread_obj]
    congr 1
    induction members with
    | nil => rfl
    | cons member members ihMembers =>
      obtain ⟨name, field⟩ := member
      rw [List.map_cons, Json.sortedMembers, Json.sortedMembers,
        ihMembers fun other hother => ih other (List.mem_cons_of_mem _ hother),
        ih (name, field) (List.mem_cons_self ..)]
      -- sorting looks at the names alone, and rereading keeps them
      exact insertMember_map reread (name, field.sorted) (Json.sortedMembers members)

theorem pairwise_insertMember {member : String × Json} {members : List (String × Json)}
    (h : members.Pairwise fun left right => left.1 ≤ right.1) :
    (Json.insertMember member members).Pairwise fun left right => left.1 ≤ right.1 := by
  induction members with
  | nil => exact List.pairwise_singleton _ _
  | cons other members ih =>
    rw [Json.insertMember]
    rw [List.pairwise_cons] at h
    by_cases hle : member.1 ≤ other.1
    · rw [if_pos hle, List.pairwise_cons]
      refine ⟨fun later hlater => ?_, List.pairwise_cons.2 h⟩
      obtain rfl | hlater := List.mem_cons.1 hlater
      · exact hle
      · exact String.le_trans hle (h.1 later hlater)
    · rw [if_neg hle, List.pairwise_cons]
      refine ⟨fun later hlater => ?_, ih h.2⟩
      obtain rfl | hlater :=
        List.mem_cons.1 ((Json.perm_insertMember member members).mem_iff.1 hlater)
      · exact (String.le_total later.1 other.1).resolve_left hle
      · exact h.1 later hlater

theorem pairwise_sortedMembers (members : List (String × Json)) :
    (Json.sortedMembers members).Pairwise fun left right => left.1 ≤ right.1 := by
  induction members with
  | nil => exact List.Pairwise.nil
  | cons member members ih => exact pairwise_insertMember ih

/-- Members in order stay in order. -/
theorem sortedMembers_eq_self {members : List (String × Json)}
    (h : members.Pairwise fun left right => left.1 ≤ right.1)
    (hsorted : ∀ member ∈ members, member.2.sorted = member.2) :
    Json.sortedMembers members = members := by
  induction members with
  | nil => rfl
  | cons member members ih =>
    obtain ⟨name, field⟩ := member
    rw [List.pairwise_cons] at h
    rw [Json.sortedMembers,
      ih h.2 fun other hother => hsorted other (List.mem_cons_of_mem _ hother),
      hsorted (name, field) (List.mem_cons_self ..)]
    cases members with
    | nil => rfl
    | cons other members =>
      rw [Json.insertMember, if_pos (h.1 other (List.mem_cons_self ..))]

/-- Sorting twice is sorting once. -/
theorem sorted_sorted (json : Json) : json.sorted.sorted = json.sorted := by
  induction json using jsonInduct with
  | hnull => rfl
  | hbool value => rfl
  | hint value => rfl
  | hfloat literal => rfl
  | hstr value => rfl
  | harr items ih =>
    rw [Json.sorted, Json.sorted, Json.sortedItems_eq_map, Json.sortedItems_eq_map, List.map_map]
    exact congrArg Json.arr (List.map_congr_left ih)
  | hobj members ih =>
    rw [Json.sorted, Json.sorted]
    refine congrArg Json.obj (sortedMembers_eq_self (pairwise_sortedMembers members) ?_)
    intro member hmember
    obtain ⟨other, hother, rfl⟩ :=
      List.mem_map.1 ((Json.perm_sortedMembers members).mem_iff.1 hmember)
    exact ih other hother

/-- Sorted or not, the same numbers come back. -/
theorem reread_sorted_eq_iff (json : Json) :
    reread json.sorted = json.sorted ↔ reread json = json := by
  induction json using jsonInduct with
  | hnull => exact Iff.rfl
  | hbool value => exact Iff.rfl
  | hint value => exact Iff.rfl
  | hfloat literal => exact Iff.rfl
  | hstr value => exact Iff.rfl
  | harr items ih =>
    rw [Json.sorted, Json.sortedItems_eq_map, reread_arr_eq_iff, reread_arr_eq_iff]
    simp only [List.forall_mem_map]
    exact forall₂_congr ih
  | hobj members ih =>
    rw [Json.sorted, reread_obj_eq_iff, reread_obj_eq_iff]
    simp only [(Json.perm_sortedMembers members).mem_iff, List.forall_mem_map]
    exact forall₂_congr ih

/-- The order of the names does not matter for what is legible. -/
theorem legible_sorted (json : Json) : legible json.sorted = legible json := by
  induction json using jsonInduct with
  | hnull => rfl
  | hbool value => rfl
  | hint value => rfl
  | hfloat literal => rfl
  | hstr value => rfl
  | harr items ih =>
    rw [Json.sorted, legible, legible, legibleItems_eq, legibleItems_eq, Json.sortedItems_eq_map,
      List.all_map, Bool.eq_iff_iff, List.all_eq_true, List.all_eq_true]
    exact forall₂_congr fun item hitem => by rw [Function.comp_apply, ih item hitem]
  | hobj members ih =>
    rw [Json.sorted, legible, legible, legibleMembers_eq, legibleMembers_eq, Bool.eq_iff_iff,
      List.all_eq_true, List.all_eq_true]
    simp only [(Json.perm_sortedMembers members).mem_iff, List.forall_mem_map]
    exact forall₂_congr fun member hmember => by rw [ih member hmember]

/-- What is written is read, and written again alike. -/
def Kept (json : Json) : Prop := legible json = true ∧ reread json = json

theorem kept_arr_iff (items : List Json) : Kept (.arr items) ↔ ∀ item ∈ items, Kept item := by
  rw [Kept, reread_arr_eq_iff, legible, legibleItems_eq, List.all_eq_true, ← forall₂_and]
  exact Iff.rfl

theorem kept_obj_iff (members : List (String × Json)) :
    Kept (.obj members) ↔ ∀ member ∈ members, Kept member.2 := by
  rw [Kept, reread_obj_eq_iff, legible, legibleMembers_eq, List.all_eq_true, ← forall₂_and]
  exact Iff.rfl

/-- A number is kept as its readable decimal is. -/
theorem kept_number_iff {q : ℚ} (h : IsDecimal q) : Kept (number q) ↔ Readable q := by
  rw [Kept, Readable]
  by_cases hden : q.den = 1
  · have hnumber : number q = .int q.num := if_pos hden
    rw [hnumber, legible, decide_eq_true_eq]
    constructor
    · rintro ⟨hcountable, -⟩
      exact .inl ⟨hden, hcountable⟩
    · rintro (⟨-, hcountable⟩ | ⟨hfraction, -⟩)
      · exact ⟨hcountable, rfl⟩
      · exact absurd hden hfraction
  · have hnumber : number q = .float (String.ofList (plainText q)) := if_neg hden
    rw [hnumber]
    refine (and_iff_right rfl).trans ((toJson_readFloat_iff h hden).trans ?_)
    rw [repr_ofRat_eq_iff hden]
    constructor
    · exact fun hshortest => .inr ⟨hden, hshortest⟩
    · rintro (⟨hwhole, -⟩ | ⟨-, hshortest⟩)
      · exact absurd hwhole hden
      · exact hshortest

/-- The number that a finite float is written as is kept. -/
theorem kept_repr {x : Binary64} (h : |x.val| < 2 ^ 1024) : Kept (number x.repr) := by
  by_cases hden : x.repr.den = 1
  · exact (kept_number_iff (isDecimal_repr x)).2 (.inl ⟨hden, countable_repr h hden⟩)
  · have hnumber : number x.repr = .float (String.ofList (plainText x.repr)) := if_neg hden
    rw [hnumber]
    exact ⟨rfl, toJson_readFloat_repr x hden⟩

/-- **What a value is written as is kept** exactly when its decimals are readable. -/
theorem kept_toJson_iff (h : Accepted value) : Kept value.toJson ↔ EachReadable value := by
  induction h with
  | none => exact ⟨fun _ => .none, fun _ => ⟨rfl, rfl⟩⟩
  | bool value => exact ⟨fun _ => .bool value, fun _ => ⟨rfl, rfl⟩⟩
  | @int value hcountable =>
    exact ⟨fun _ => .int value, fun _ => ⟨decide_eq_true hcountable, rfl⟩⟩
  | @float x hfinite => exact ⟨fun _ => .float x, fun _ => kept_repr hfinite⟩
  | negativeZero => exact ⟨fun _ => .negativeZero, fun _ => ⟨rfl, toJson_readFloat_negativeZero⟩⟩
  | @decimal d hd =>
    refine (kept_number_iff hd).trans ⟨.decimal, fun hreadable => ?_⟩
    cases hreadable with
    | decimal hreadable => exact hreadable
  | str value => exact ⟨fun _ => .str value, fun _ => ⟨rfl, rfl⟩⟩
  | @sequence items _ ih =>
    rw [Value.toJson, kept_arr_iff, toJsonItems_eq]
    simp only [List.forall_mem_map]
    refine (forall₂_congr ih).trans ⟨.sequence, fun hreadable => ?_⟩
    cases hreadable with
    | sequence hreadable => exact hreadable
  | @mapping members _ _ ih =>
    rw [Value.toJson, kept_obj_iff, toJsonMembers_eq]
    simp only [List.forall_mem_map]
    refine (forall₂_congr ih).trans ⟨.mapping, fun hreadable => ?_⟩
    cases hreadable with
    | mapping hreadable => exact hreadable

end Reread

/-! ### The fixpoint -/

section Fixpoint

variable {value other : Value} {json : Json}

theorem written_number {q : ℚ} (h : IsDecimal q) : (number q).Written := by
  unfold number
  split
  · exact .int _
  · next hden => exact .float (isFraction_plainText h hden)

/-- Accepted values are written so that they can be read. -/
theorem Accepted.written (h : Accepted value) : value.toJson.Written := by
  induction h with
  | none => exact .null
  | bool value => exact .bool value
  | int _ => exact .int _
  | float _ => exact written_number (isDecimal_repr _)
  | negativeZero =>
    -- the negative zero is the one number that is not rendered from its value
    have hdigit : ∀ c ∈ ['0'], c.isDigit := by
      intro c hc
      rw [List.mem_singleton.1 hc]
      rfl
    have hfraction : Json.IsFraction ['-', '0', '.', '0'] true 0 ['0'] :=
      ⟨rfl, List.cons_ne_nil _ _, hdigit⟩
    exact .float hfraction
  | decimal hd => exact written_number hd
  | str value => exact .str value
  | sequence _ ih =>
    rw [Value.toJson, toJsonItems_eq]
    exact .arr (List.forall_mem_map.2 ih)
  | mapping hnames _ ih =>
    rw [Value.toJson, toJsonMembers_eq]
    refine .obj ?_ (List.forall_mem_map.2 ih)
    rw [List.map_map]
    exact hnames

/-- What is read can be written again. -/
theorem written_reread (h : json.Written) : (reread json).Written := by
  induction h with
  | null => exact .null
  | bool value => exact .bool value
  | int value => exact .int value
  | float _ =>
    rw [reread, Value.ofJson]
    unfold Value.readFloat
    dsimp only
    split
    · exact Accepted.negativeZero.written
    · exact written_number (isDecimal_repr _)
  | str value => exact .str value
  | arr _ ih =>
    rw [reread_arr]
    exact .arr (List.forall_mem_map.2 ih)
  | obj hnames _ ih =>
    rw [reread_obj]
    refine .obj ?_ (List.forall_mem_map.2 ih)
    rw [List.map_map]
    exact hnames

/-- The canonical text is read where its integers are. -/
theorem loads_canonicalJson (h : Accepted value) : loads (canonicalJson value) =
    if legible value.toJson then some (Value.ofJson (denoted value)) else none := by
  unfold loads canonicalJson Json.canonicalJson denoted
  rw [Json.loads_written h.written.sorted, Option.bind_some, legible_sorted]

/-- **Equal texts** denote the same value. -/
theorem denoted_injective (h : Accepted value) (h' : Accepted other)
    (heq : canonicalJson other = canonicalJson value) : denoted other = denoted value :=
  h'.written.sorted.render_injective h.written.sorted (String.ofList_injective heq)

/-- The text of what is read is the text, when what is written comes back. -/
theorem canonicalJson_ofJson_iff (h : Accepted value) :
    canonicalJson (Value.ofJson (denoted value)) = canonicalJson value ↔
      reread value.toJson = value.toJson := by
  have hsorted : (reread (denoted value)).sorted = reread (denoted value) := by
    unfold denoted
    rw [sorted_reread, sorted_sorted]
  have hread := written_reread h.written.sorted
  rw [← reread_sorted_eq_iff]
  constructor
  · intro heq
    have hdenoted := hread.sorted.render_injective h.written.sorted (String.ofList_injective heq)
    exact hsorted.symm.trans hdenoted
  · intro heq
    show String.ofList (reread (denoted value)).sorted.render = _
    rw [hsorted]
    show String.ofList (reread value.toJson.sorted).render = _
    rw [heq]
    rfl

/-- The text is read, and as a value of the same text, exactly when the decimals are readable. -/
theorem reads_iff (h : Accepted value) :
    legible value.toJson = true ∧
      canonicalJson (Value.ofJson (denoted value)) = canonicalJson value ↔ EachReadable value := by
  rw [canonicalJson_ofJson_iff h]
  exact kept_toJson_iff h

/-- **The text is a fixpoint** exactly when the decimals are readable. -/
theorem fixpoint_iff (h : Accepted value) : Fixpoint value ↔ EachReadable value := by
  rw [← reads_iff h, Fixpoint, loads_canonicalJson h]
  constructor
  · rintro ⟨parsed, hparsed, heq⟩
    obtain ⟨hlegible, hparsed⟩ := Option.ite_none_right_eq_some.1 hparsed
    cases hparsed
    exact ⟨hlegible, heq⟩
  · rintro ⟨hlegible, heq⟩
    exact ⟨_, if_pos hlegible, heq⟩

theorem canonical_iff (h : Accepted value) : Canonical value ↔ EachReadable value := by
  unfold Canonical
  rw [fixpoint_iff h]
  exact and_iff_left fun other hother heq => denoted_injective h hother heq

end Fixpoint

/-! ### The decision codec -/

section Codec

variable {value observedValue : Value} {edgeDistinguishable higherIsBetter : Bool}
  {decisionRoute text : String}

/-- The mapping that is encoded. -/
def evaluation (observedValue : Value) (edgeDistinguishable : Bool) (decisionRoute : String)
    (higherIsBetter : Bool) : Value :=
  .mapping [("observed_value", observedValue), ("edge_distinguishable", .bool edgeDistinguishable),
    ("decision_route", .str decisionRoute), ("higher_is_better", .bool higherIsBetter)]

theorem accepted_evaluation (edgeDistinguishable : Bool) (decisionRoute : String)
    (higherIsBetter : Bool) (h : Accepted observedValue) :
    Accepted (evaluation observedValue edgeDistinguishable decisionRoute higherIsBetter) := by
  have hnames : evalDecisionKeys.Nodup := by decide
  refine .mapping hnames ?_
  simp only [List.forall_mem_cons]
  exact ⟨h, .bool _, .str _, .bool _, fun _ hnil => absurd hnil List.not_mem_nil⟩

/-- Only the observed value can be unreadable. -/
theorem eachReadable_evaluation :
    EachReadable (evaluation observedValue edgeDistinguishable decisionRoute higherIsBetter) ↔
      EachReadable observedValue := by
  constructor
  · intro h
    cases h with
    | mapping h => exact h _ (List.mem_cons_self ..)
  · intro h
    refine .mapping ?_
    simp only [List.forall_mem_cons]
    exact ⟨h, .bool _, .str _, .bool _, fun _ hnil => absurd hnil List.not_mem_nil⟩

theorem hasKeys_mapping {keys : List String} {members : List (String × Value)}
    (h : ∀ name, name ∈ members.map (·.1) ↔ name ∈ keys) :
    hasKeys keys (.mapping members) = true := by
  unfold hasKeys
  rw [decide_eq_true_eq, List.all_eq_true, List.all_eq_true]
  constructor
  · intro name hname
    exact decide_eq_true ((h name).1 hname)
  · intro name hname
    exact decide_eq_true ((h name).2 hname)

/-- The evaluation that is read back has the names of a decision. -/
theorem hasKeys_evaluation :
    hasKeys evalDecisionKeys (Value.ofJson (denoted
      (evaluation observedValue edgeDistinguishable decisionRoute higherIsBetter))) = true := by
  rw [evaluation, denoted, Value.toJson, Json.sorted, Value.ofJson, ofJsonMembers_eq]
  apply hasKeys_mapping
  intro name
  rw [List.map_map]
  exact (Json.perm_names_sortedMembers _).mem_iff

theorem encodeEvalDecision_eq_ok :
    encodeEvalDecision observedValue edgeDistinguishable decisionRoute higherIsBetter = .ok text ↔
      observedValue.isNumber ∧
        decisionRoute ∈ ["promote", "abandon", "retest", "partial_keep"] ∧
        text = canonicalJson
          (evaluation observedValue edgeDistinguishable decisionRoute higherIsBetter) := by
  unfold encodeEvalDecision
  simp only [Except.bind_eq_ok, require_eq_ok]
  constructor
  · rintro ⟨-, hnumber, -, hroute, heq⟩
    exact ⟨hnumber, hroute, (Except.ok.inj heq).symm⟩
  · rintro ⟨hnumber, hroute, rfl⟩
    exact ⟨⟨⟩, hnumber, ⟨⟩, hroute, rfl⟩

/-- **An encoded decision is stored** exactly when its observed value is readable. -/
theorem setEvalDecision_iff (h : Accepted observedValue)
    (hencode : encodeEvalDecision observedValue edgeDistinguishable decisionRoute
      higherIsBetter = .ok text) :
    setEvalDecision text = .ok text ↔ EachReadable observedValue := by
  obtain ⟨-, -, rfl⟩ := encodeEvalDecision_eq_ok.1 hencode
  have haccepted := accepted_evaluation edgeDistinguishable decisionRoute higherIsBetter h
  rw [setEvalDecision, loads_canonicalJson haccepted, ← eachReadable_evaluation,
    ← reads_iff haccepted]
  -- the text is not read at all, or what is read passes the checks
  by_cases hlegible : legible (evaluation observedValue edgeDistinguishable decisionRoute
      higherIsBetter).toJson = true
  · rw [if_pos hlegible]
    simp only [Except.bind_eq_ok, require_eq_ok]
    constructor
    · rintro ⟨-, -, -, heq, -⟩
      exact ⟨hlegible, heq⟩
    · rintro ⟨-, heq⟩
      exact ⟨⟨⟩, hasKeys_evaluation, ⟨⟩, heq, rfl⟩
  · rw [if_neg hlegible]
    exact iff_of_false (fun h => nomatch h) fun h => hlegible h.1

/-- **Canonical JSON and the codec** hold exactly for readable decimals. The canonical text of a
value comes back when it is parsed and written again, and the text of an encoded decision is
stored as it is, if and only if every decimal within is read as the number it was written for. -/
theorem canonicalJson_closed_iff (h : Accepted value) :
    (Canonical value ↔ EachReadable value) ∧
      ∀ edgeDistinguishable decisionRoute higherIsBetter text,
        encodeEvalDecision value edgeDistinguishable decisionRoute higherIsBetter = .ok text →
        (setEvalDecision text = .ok text ↔ EachReadable value) :=
  ⟨canonical_iff h, fun _ _ _ _ => setEvalDecision_iff h⟩

/-- An integer is stored as it was encoded. -/
theorem stored_of_one :
    Canonical (.decimal 1) ∧
      ∃ text, encodeEvalDecision (.decimal 1) true "promote" true = .ok text ∧
        setEvalDecision text = .ok text := by
  have haccepted : Accepted (.decimal 1) := .decimal ⟨0, one_dvd _⟩
  have hreadable : EachReadable (.decimal 1) := .decimal (.inl ⟨rfl, by decide⟩)
  have hencode : encodeEvalDecision (.decimal 1) true "promote" true = .ok _ :=
    encodeEvalDecision_eq_ok.2 ⟨rfl, List.mem_cons_self .., rfl⟩
  have hclosed := canonicalJson_closed_iff haccepted
  exact ⟨hclosed.1.2 hreadable, _, hencode, (hclosed.2 _ _ _ _ hencode).2 hreadable⟩

/-- A decimal that prints more digits than its float. -/
def longTenth : Decimal := 1000000000000000055511151231257827 / 10 ^ 34

/-- A decision is refused when its value is not readable. -/
theorem refused_of_not_readable {value : Decimal} (h : IsDecimal value) (hvalue : ¬Readable value) :
    ∃ text, encodeEvalDecision (.decimal value) true "promote" true = .ok text ∧
      setEvalDecision text ≠ .ok text := by
  have hencode : encodeEvalDecision (.decimal value) true "promote" true = .ok _ :=
    encodeEvalDecision_eq_ok.2 ⟨rfl, List.mem_cons_self .., rfl⟩
  refine ⟨_, hencode, fun hstored => hvalue ?_⟩
  cases (setEvalDecision_iff (.decimal h) hencode).1 hstored with
  | decimal hreadable => exact hreadable

/-- **A decision with a long decimal** is refused by the store it was encoded for; so is one with
a power of ten of more digits than an integer is read from. -/
theorem not_stored_of_longTenth :
    Accepted (.decimal longTenth) ∧ ¬Canonical (.decimal longTenth) ∧
      (∃ text, encodeEvalDecision (.decimal longTenth) true "promote" true = .ok text ∧
        setEvalDecision text ≠ .ok text) ∧
      ∀ n, intMaxStrDigits ≤ n →
        ∃ text, encodeEvalDecision (.decimal (10 ^ n)) true "promote" true = .ok text ∧
          setEvalDecision text ≠ .ok text := by
  have hvalues : longTenth.den ≠ 1 ∧ longTenth.den ∣ 10 ^ 34 ∧
      (Binary64.ofRat longTenth).repr ≠ longTenth := by decide +kernel
  obtain ⟨hden, hdvd, hrepr⟩ := hvalues
  have haccepted : Accepted (.decimal longTenth) := .decimal ⟨34, hdvd⟩
  have hunreadable : ¬Readable longTenth := by
    rintro (⟨hwhole, -⟩ | ⟨-, hshortest⟩)
    · exact hden hwhole
    · exact hrepr ((repr_ofRat_eq_iff hden).2 hshortest)
  refine ⟨haccepted, fun hcanonical => ?_, refused_of_not_readable ⟨34, hdvd⟩ hunreadable,
    fun n hn => ?_⟩
  · cases (canonical_iff haccepted).1 hcanonical with
    | decimal hreadable => exact hunreadable hreadable
  · -- the power is an integer, so its digits are what counts
    have hcast : ((10 : ℚ) ^ n) = ((10 ^ n : ℤ) : ℚ) := by push_cast; rfl
    have hpow : ((10 : ℚ) ^ n).den = 1 ∧ ((10 : ℚ) ^ n).num = 10 ^ n := by
      rw [hcast]
      exact ⟨Rat.den_intCast _, Rat.num_intCast _⟩
    refine refused_of_not_readable ⟨0, by rw [hpow.1]; exact one_dvd _⟩ ?_
    rintro (⟨-, hcountable⟩ | ⟨hfraction, -⟩)
    · rw [hpow.2] at hcountable
      exact not_countable_pow hn hcountable
    · exact hfraction hpow.1

end Codec

end CanonicalJson
end TradingSystem
