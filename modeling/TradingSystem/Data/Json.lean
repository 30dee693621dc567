import Mathlib.Data.Int.Notation
import Mathlib.Data.List.Basic
import Mathlib.Data.List.Perm.Basic
import Mathlib.Tactic.Common

/-!
# JSON texts

JSON values, the text of a value without whitespace, and a parser of texts that decides as
`json.loads` does: whitespace around tokens, string escapes, numbers with an optional
fraction and exponent, the last of several members of one name. Numbers with a fraction or
an exponent are kept as their literals.

* `render` — the compact text of a value.
* `sorted` — the value with the members of its objects in the order of their names.
* `loads` — the parser.
* `loads_written` — parsing the text of a value returns the value.
* `loads_canonicalJson` — the canonical text is read back up to the order of members.

The round trip is one induction on the parser's fuel. Its invariant says of each of the
three mutual parsers that it reads the text of a value, of the rest of an array or of the
rest of an object, whatever text follows.
-/

namespace TradingSystem
namespace Data

/-- A JSON value. A float is the literal of a number with a fraction or an exponent, or
one of the words for a number that is not finite. -/
inductive Json
  | null
  | bool (value : Bool)
  | int (value : ℤ)
  | float (literal : String)
  | str (value : String)
  | arr (items : List Json)
  | obj (members : List (String × Json))
deriving Inhabited, Repr

namespace Json

/-! ### The text of a value -/

/-- The text of one character of a string: quotes, backslashes and control characters are
escaped, everything else stands for itself. -/
def escapeChar (c : Char) : List Char :=
  if c = '"' then ['\\', '"']
  else if c = '\\' then ['\\', '\\']
  else if c = '\n' then ['\\', 'n']
  else if c = '\r' then ['\\', 'r']
  else if c = '\t' then ['\\', 't']
  else if c = Char.ofNat 8 then ['\\', 'b']
  else if c = Char.ofNat 12 then ['\\', 'f']
  else if c.toNat < 32 then
    ['\\', 'u', '0', '0', Nat.digitChar (c.toNat / 16), Nat.digitChar (c.toNat % 16)]
  else [c]

/-- `json.dumps(value, ensure_ascii=False)`. -/
def renderString (value : String) : List Char :=
  '"' :: (value.toList.flatMap escapeChar ++ ['"'])

/-- `str(value)` of an integer. -/
def renderInt : ℤ → List Char
  | .ofNat n => Nat.toDigits 10 n
  | .negSucc n => '-' :: Nat.toDigits 10 (n + 1)

mutual

/-- The compact text of a value. -/
def render : Json → List Char
  | null => "null".toList
  | bool true => "true".toList
  | bool false => "false".toList
  | int value => renderInt value
  | float literal => literal.toList
  | str value => renderString value
  | arr [] => ['[', ']']
  | arr (value :: items) => '[' :: (value.render ++ renderItems items)
  | obj [] => ['{', '}']
  | obj ((name, value) :: members) =>
      '{' :: (renderString name ++ ':' :: (value.render ++ renderMembers members))

/-- The items of an array after the first one, each behind its comma, and the bracket. -/
def renderItems : List Json → List Char
  | [] => [']']
  | value :: items => ',' :: (value.render ++ renderItems items)

/-- The members of an object after the first one, each behind its comma, and the brace. -/
def renderMembers : List (String × Json) → List Char
  | [] => ['}']
  | (name, value) :: members =>
      ',' :: (renderString name ++ ':' :: (value.render ++ renderMembers members))

end

/-- A member in front of the first one whose name is not before its own. -/
def insertMember (member : String × Json) : List (String × Json) → List (String × Json)
  | [] => [member]
  | other :: members =>
      if member.1 ≤ other.1 then member :: other :: members
      else other :: insertMember member members

mutual

/-- The value with the members of every object in the order of their names. -/
def sorted : Json → Json
  | arr items => arr (sortedItems items)
  | obj members => obj (sortedMembers members)
  | value => value

def sortedItems : List Json → List Json
  | [] => []
  | value :: items => value.sorted :: sortedItems items

def sortedMembers : List (String × Json) → List (String × Json)
  | [] => []
  | (name, value) :: members => insertMember (name, value.sorted) (sortedMembers members)

end

/-- The text of a value that does not depend on the order of the members. -/
def canonicalJson (value : Json) : String := String.ofList value.sorted.render

/-! ### Access -/

/-- The member of a name that is known to be there. -/
def field (members : List (String × Json)) (name : String) : Json :=
  (members.lookup name).getD null

/-- Comparison with a string; no other value equals one. -/
def isStr (text : String) : Json → Bool
  | str value => value = text
  | _ => false

/-! ### Parsing -/

/-- A character of the whitespace between tokens. -/
def isSpace (c : Char) : Bool := c = ' ' ∨ c = '\t' ∨ c = '\n' ∨ c = '\r'

def skip (text : List Char) : List Char := text.dropWhile isSpace

def hexValue (c : Char) : Option ℕ :=
  if c.isDigit then some (c.toNat - 48)
  else if 'a' ≤ c ∧ c ≤ 'f' then some (c.toNat - 87)
  else if 'A' ≤ c ∧ c ≤ 'F' then some (c.toNat - 55)
  else none

/-- Four hexadecimal digits. -/
def scanHex : List Char → Option (ℕ × List Char)
  | a :: b :: c :: d :: rest => do
      let a ← hexValue a
      let b ← hexValue b
      let c ← hexValue c
      let d ← hexValue d
      return (((a * 16 + b) * 16 + c) * 16 + d, rest)
  | _ => none

/-- The character of a `\u` escape, or of the two escapes of a surrogate pair. A lone
surrogate is refused: it is no character. -/
def scanUnicode (text : List Char) : Option (Char × List Char) := do
  let (high, rest) ← scanHex text
  if high < 0xD800 ∨ 0xDFFF < high then return (Char.ofNat high, rest)
  if 0xDBFF < high then none
  match rest with
  | '\\' :: 'u' :: rest =>
      let (low, rest) ← scanHex rest
      if low < 0xDC00 ∨ 0xDFFF < low then none
      return (Char.ofNat (0x10000 + (high - 0xD800) * 0x400 + (low - 0xDC00)), rest)
  | _ => none

/-- An escape, behind its backslash. -/
def scanEscape : List Char → Option (Char × List Char)
  | '"' :: rest => some ('"', rest)
  | '\\' :: rest => some ('\\', rest)
  | '/' :: rest => some ('/', rest)
  | 'b' :: rest => some (Char.ofNat 8, rest)
  | 'f' :: rest => some (Char.ofNat 12, rest)
  | 'n' :: rest => some ('\n', rest)
  | 'r' :: rest => some ('\r', rest)
  | 't' :: rest => some ('\t', rest)
  | 'u' :: rest => scanUnicode rest
  | _ => none

/-- The characters of a string behind its opening quote; a control character ends it in
error. -/
def scanString : ℕ → List Char → Option (List Char × List Char)
  | _, '"' :: rest => some ([], rest)
  | fuel + 1, '\\' :: rest => do
      let (c, rest) ← scanEscape rest
      let (value, rest) ← scanString fuel rest
      return (c :: value, rest)
  | fuel + 1, c :: rest =>
      if c.toNat < 32 then none
      else do
        let (value, rest) ← scanString fuel rest
        return (c :: value, rest)
  | _, _ => none

/-- A string literal. -/
def scanQuoted : List Char → Option (String × List Char)
  | '"' :: rest => do
      let (value, rest) ← scanString rest.length rest
      return (String.ofList value, rest)
  | _ => none

/-- The digits a text starts with. -/
def digitsOf (text : List Char) : List Char := text.takeWhile Char.isDigit

def afterDigits (text : List Char) : List Char := text.dropWhile Char.isDigit

/-- The integer part of a number: a zero alone, or digits. -/
def scanInteger : List Char → Option (List Char × List Char)
  | '0' :: rest => some (['0'], rest)
  | text => if digitsOf text = [] then none else some (digitsOf text, afterDigits text)

/-- The fraction of a number, if it has one. -/
def scanFraction : List Char → List Char × List Char
  | '.' :: rest =>
      if digitsOf rest = [] then ([], '.' :: rest) else ('.' :: digitsOf rest, afterDigits rest)
  | text => ([], text)

/-- An exponent behind its letter. -/
def scanExponentDigits (letter : Char) (rest : List Char) : List Char × List Char :=
  let (sign, digits) := match rest with
    | '+' :: digits => (['+'], digits)
    | '-' :: digits => (['-'], digits)
    | digits => ([], digits)
  if digitsOf digits = [] then ([], letter :: rest)
  else (letter :: (sign ++ digitsOf digits), afterDigits digits)

/-- The exponent of a number, if it has one. -/
def scanExponent : List Char → List Char × List Char
  | 'e' :: rest => scanExponentDigits 'e' rest
  | 'E' :: rest => scanExponentDigits 'E' rest
  | text => ([], text)

/-- A number behind its sign. -/
def scanUnsigned (negative : Bool) (text : List Char) : Option (Json × List Char) := do
  let (digits, rest) ← scanInteger text
  let (fraction, rest) := scanFraction rest
  let (exponent, rest) := scanExponent rest
  let sign := if negative then ['-'] else []
  if fraction = [] ∧ exponent = [] then
    let value : ℤ := Nat.ofDigitChars 10 digits 0
    return (int (if negative then -value else value), rest)
  else return (float (String.ofList (sign ++ digits ++ fraction ++ exponent)), rest)

/-- A number. -/
def scanNumber : List Char → Option (Json × List Char)
  | '-' :: rest => scanUnsigned true rest
  | text => scanUnsigned false text

/-- A value that is a word. -/
def scanWord : List Char → Option (Json × List Char)
  | 'n' :: 'u' :: 'l' :: 'l' :: rest => some (null, rest)
  | 't' :: 'r' :: 'u' :: 'e' :: rest => some (bool true, rest)
  | 'f' :: 'a' :: 'l' :: 's' :: 'e' :: rest => some (bool false, rest)
  | 'N' :: 'a' :: 'N' :: rest => some (float "NaN", rest)
  | 'I' :: 'n' :: 'f' :: 'i' :: 'n' :: 'i' :: 't' :: 'y' :: rest => some (float "Infinity", rest)
  | '-' :: 'I' :: 'n' :: 'f' :: 'i' :: 'n' :: 'i' :: 't' :: 'y' :: rest =>
      some (float "-Infinity", rest)
  | _ => none

/-- The members of an object with the last value of each name. -/
def dict : List (String × Json) → List (String × Json)
  | [] => []
  | member :: members =>
      if member.1 ∈ members.map Prod.fst then dict members else member :: dict members

mutual

/-- A value at the head of a text, and the text behind it. -/
def parseValue : ℕ → List Char → Option (Json × List Char)
  | 0, _ => none
  | _ + 1, '"' :: rest => do
      let (value, rest) ← scanQuoted ('"' :: rest)
      return (str value, rest)
  | fuel + 1, '[' :: rest =>
      match skip rest with
      | ']' :: rest => some (arr [], rest)
      | rest => do
          let (value, rest) ← parseValue fuel rest
          let (items, rest) ← parseItems fuel (skip rest)
          return (arr (value :: items), rest)
  | fuel + 1, '{' :: rest =>
      match skip rest with
      | '}' :: rest => some (obj [], rest)
      | rest => do
          let (member, rest) ← parseMember fuel rest
          let (members, rest) ← parseMembers fuel (skip rest)
          return (obj (dict (member :: members)), rest)
  | _, text => (scanNumber text).or (scanWord text)

/-- The rest of an array, behind an item. -/
def parseItems : ℕ → List Char → Option (List Json × List Char)
  | 0, _ => none
  | _, ']' :: rest => some ([], rest)
  | fuel + 1, ',' :: rest => do
      let (value, rest) ← parseValue fuel (skip rest)
      let (items, rest) ← parseItems fuel (skip rest)
      return (value :: items, rest)
  | _, _ => none

/-- A member of an object. -/
def parseMember : ℕ → List Char → Option ((String × Json) × List Char)
  | 0, _ => none
  | fuel + 1, text => do
      let (name, rest) ← scanQuoted text
      match skip rest with
      | ':' :: rest => do
          let (value, rest) ← parseValue fuel (skip rest)
          return ((name, value), rest)
      | _ => none

/-- The rest of an object, behind a member. -/
def parseMembers : ℕ → List Char → Option (List (String × Json) × List Char)
  | 0, _ => none
  | _, '}' :: rest => some ([], rest)
  | fuel + 1, ',' :: rest => do
      let (member, rest) ← parseMember fuel (skip rest)
      let (members, rest) ← parseMembers fuel (skip rest)
      return (member :: members, rest)
  | _, _ => none

end

/-- `json.loads`: one value, with whitespace around it and nothing else. Every step of the
parsers takes a character, so a fuel above the length of the text is enough. -/
def loads (text : String) : Option Json := do
  let (value, rest) ← parseValue (text.length + 1) (skip text.toList)
  if skip rest = [] then some value else none

/-! ### Reading back the text of a value -/

variable {c : Char} {rest text : List Char} {members : List (String × Json)}

theorem hexValue_digitChar : ∀ n < 16, hexValue (Nat.digitChar n) = some n := by
  decide

theorem scanString_quote (fuel : ℕ) : scanString fuel ('"' :: rest) = some ([], rest) := by
  unfold scanString
  rfl

theorem scanString_backslash (fuel : ℕ) (h : scanEscape text = some (c, rest)) :
    scanString (fuel + 1) ('\\' :: text) =
      (scanString fuel rest).map fun found => (c :: found.1, found.2) := by
  simp only [scanString, h, Option.bind_eq_bind, Option.bind_some]
  cases scanString fuel rest <;> rfl

/-- A control character comes back from its four hexadecimal digits. -/
theorem scanEscape_control (h : c.toNat < 32) :
    scanEscape ('u' :: '0' :: '0' :: Nat.digitChar (c.toNat / 16) ::
      Nat.digitChar (c.toNat % 16) :: rest) = some (c, rest) := by
  have hzero : hexValue '0' = some 0 := by decide
  have hhigh := hexValue_digitChar (c.toNat / 16) (by omega)
  have hlow := hexValue_digitChar (c.toNat % 16) (by omega)
  have hcode : c.toNat / 16 * 16 + c.toNat % 16 = c.toNat := by omega
  have hscan : scanHex ('0' :: '0' :: Nat.digitChar (c.toNat / 16) ::
      Nat.digitChar (c.toNat % 16) :: rest) = some (c.toNat, rest) := by
    simp only [scanHex, hzero, hhigh, hlow, Option.bind_eq_bind, Option.bind_some]
    rw [Nat.zero_mul, Nat.zero_add, hcode]
    rfl
  have hsmall : c.toNat < 0xD800 ∨ 0xDFFF < c.toNat := Or.inl (by omega)
  show scanUnicode _ = _
  rw [scanUnicode, hscan]
  simp only [Option.bind_eq_bind, Option.bind_some, if_pos hsmall]
  rw [Char.ofNat_toNat]
  rfl

/-- **One character of a string** is read back, with one unit of fuel. -/
theorem scanString_escapeChar (fuel : ℕ) (c : Char) (rest : List Char) :
    scanString (fuel + 1) (escapeChar c ++ rest) =
      (scanString fuel rest).map fun found => (c :: found.1, found.2) := by
  unfold escapeChar
  split_ifs with hquote hslash hn hr ht hb hf hcontrol
  -- the characters with an escape of one letter
  iterate 7 subst c; exact scanString_backslash fuel rfl
  · exact scanString_backslash fuel (scanEscape_control hcontrol)
  · rw [List.singleton_append, scanString]
    · rw [if_neg hcontrol]
      cases scanString fuel rest <;> rfl
    · exact hquote
    · exact hslash

theorem escapeChar_ne_nil (c : Char) : escapeChar c ≠ [] := by
  unfold escapeChar
  split_ifs <;> exact List.cons_ne_nil _ _

/-- The characters of a string are read back; the fuel is spent on one of them at a time. -/
theorem scanString_flatMap (value : List Char) (rest : List Char) :
    ∀ fuel, (value.flatMap escapeChar).length ≤ fuel →
      scanString fuel (value.flatMap escapeChar ++ '"' :: rest) = some (value, rest) := by
  induction value with
  | nil =>
    intro fuel _
    exact scanString_quote fuel
  | cons c value ih =>
    intro fuel hfuel
    have hlength := List.length_pos_iff.2 (escapeChar_ne_nil c)
    rw [List.flatMap_cons, List.length_append] at hfuel
    obtain ⟨fuel, rfl⟩ : ∃ n, fuel = n + 1 := ⟨fuel - 1, by omega⟩
    rw [List.flatMap_cons, List.append_assoc, scanString_escapeChar, ih fuel (by omega)]
    rfl

/-- **A string literal is read back.** -/
theorem scanQuoted_renderString (value : String) (rest : List Char) :
    scanQuoted (renderString value ++ rest) = some (value, rest) := by
  have h : scanString (value.toList.flatMap escapeChar ++ '"' :: rest).length
      (value.toList.flatMap escapeChar ++ '"' :: rest) = some (value.toList, rest) :=
    scanString_flatMap _ _ _ (by rw [List.length_append]; omega)
  rw [renderString, List.cons_append, List.append_assoc, List.singleton_append, scanQuoted, h]
  show some (String.ofList value.toList, rest) = _
  rw [String.ofList_toList]

/-! ### Reading back a number -/

/-- Nothing at the head of the text continues a number. -/
def Ends (rest : List Char) : Prop :=
  ∀ c ∈ rest.head?, ¬ c.isDigit ∧ c ≠ '.' ∧ c ≠ 'e' ∧ c ≠ 'E'

theorem ends_cons (hdigit : ¬ c.isDigit) (hdot : c ≠ '.') (he : c ≠ 'e') (hE : c ≠ 'E') :
    Ends (c :: rest) := by
  intro d hd
  cases Option.mem_some_iff.1 hd
  exact ⟨hdigit, hdot, he, hE⟩

theorem ends_nil : Ends [] := by
  intro c hc
  exact absurd hc (Option.not_mem_none c)

theorem Ends.no_digit (hrest : Ends rest) : ∀ c ∈ rest.head?, ¬ c.isDigit := fun c hc =>
  (hrest c hc).1

theorem digitsOf_append {digits : List Char} (hdigits : ∀ c ∈ digits, c.isDigit)
    (hrest : ∀ c ∈ rest.head?, ¬ c.isDigit) : digitsOf (digits ++ rest) = digits := by
  rw [digitsOf, List.takeWhile_append_of_pos hdigits]
  cases rest with
  | nil => simp
  | cons c rest =>
    have hc := hrest c rfl
    simp [hc]

theorem afterDigits_append {digits : List Char} (hdigits : ∀ c ∈ digits, c.isDigit)
    (hrest : ∀ c ∈ rest.head?, ¬ c.isDigit) : afterDigits (digits ++ rest) = rest := by
  rw [afterDigits, List.dropWhile_append_of_pos hdigits]
  cases rest with
  | nil => rfl
  | cons c rest =>
    have hc := hrest c rfl
    simp [hc]

theorem scanFraction_of_ends (hrest : Ends rest) : scanFraction rest = ([], rest) := by
  cases rest with
  | nil => rfl
  | cons c rest =>
    rw [scanFraction]
    exact fun _ h => (hrest c rfl).2.1 (List.cons.inj h).1

theorem scanExponent_of_ends (hrest : Ends rest) : scanExponent rest = ([], rest) := by
  cases rest with
  | nil => rfl
  | cons c rest =>
    rw [scanExponent]
    · exact fun _ h => (hrest c rfl).2.2.1 (List.cons.inj h).1
    · exact fun _ h => (hrest c rfl).2.2.2 (List.cons.inj h).1

/-- The digits of a positive number start with none that is zero. -/
theorem head?_toDigits_ne_zero {n : ℕ} (h : 0 < n) : (Nat.toDigits 10 n).head? ≠ some '0' := by
  induction n using Nat.strongRecOn with
  | ind n ih =>
    by_cases hlt : n < 10
    · have hsmall : ∀ n < 10, 0 < n → [Nat.digitChar n].head? ≠ some '0' := by decide
      rw [Nat.toDigits_of_lt_base hlt]
      exact hsmall n hlt h
    · rw [Nat.toDigits_of_base_le (by decide) (Nat.le_of_not_lt hlt),
        List.head?_append_of_ne_nil _ Nat.toDigits_ne_nil]
      exact ih (n / 10) (by omega) (by omega)

theorem isDigit_toDigits (n : ℕ) : ∀ c ∈ Nat.toDigits 10 n, c.isDigit := fun _ hc =>
  Nat.isDigit_of_mem_toDigits (by decide) (by decide) hc

theorem scanInteger_toDigits (n : ℕ) (hrest : ∀ c ∈ rest.head?, ¬ c.isDigit) :
    scanInteger (Nat.toDigits 10 n ++ rest) = some (Nat.toDigits 10 n, rest) := by
  have hdigits := isDigit_toDigits n
  obtain rfl | hn := Nat.eq_zero_or_pos n
  · rfl
  · rw [scanInteger, digitsOf_append hdigits hrest, afterDigits_append hdigits hrest,
      if_neg Nat.toDigits_ne_nil]
    · -- the first digit is not the zero of the other branch
      intro text htext
      apply head?_toDigits_ne_zero hn
      rw [← List.head?_append_of_ne_nil _ Nat.toDigits_ne_nil, htext]
      rfl

theorem scanUnsigned_toDigits (negative : Bool) (n : ℕ) (hrest : Ends rest) :
    scanUnsigned negative (Nat.toDigits 10 n ++ rest) =
      some (int (if negative then -n else n), rest) := by
  rw [scanUnsigned, scanInteger_toDigits n hrest.no_digit]
  simp only [Option.bind_eq_bind, Option.bind_some, scanFraction_of_ends hrest,
    scanExponent_of_ends hrest, and_self, if_true, Nat.ofDigitChars_ten_toDigits]
  rfl

/-- The digits of a number start with a digit. -/
theorem toDigits_eq_cons (n : ℕ) : ∃ d digits, Nat.toDigits 10 n = d :: digits ∧ d.isDigit := by
  obtain ⟨d, digits, hd⟩ := List.exists_cons_of_ne_nil (Nat.toDigits_ne_nil (n := n) (b := 10))
  exact ⟨d, digits, hd, isDigit_toDigits n d (by rw [hd]; exact List.mem_cons_self)⟩

/-- Digits are no sign. -/
theorem scanNumber_toDigits (n : ℕ) (rest : List Char) :
    scanNumber (Nat.toDigits 10 n ++ rest) = scanUnsigned false (Nat.toDigits 10 n ++ rest) := by
  obtain ⟨d, digits, hd, hdigit⟩ := toDigits_eq_cons n
  rw [scanNumber]
  intro text htext
  rw [hd, List.cons_append] at htext
  rw [(List.cons.inj htext).1] at hdigit
  exact absurd hdigit (by decide)

/-- **An integer is read back.** -/
theorem scanNumber_renderInt (value : ℤ) (hrest : Ends rest) :
    scanNumber (renderInt value ++ rest) = some (int value, rest) := by
  cases value with
  | ofNat n =>
    show scanNumber (Nat.toDigits 10 n ++ rest) = _
    rw [scanNumber_toDigits, scanUnsigned_toDigits false n hrest]
    rfl
  | negSucc n =>
    show scanUnsigned true (Nat.toDigits 10 (n + 1) ++ rest) = _
    rw [scanUnsigned_toDigits true (n + 1) hrest]
    rfl

/-- The sign of a literal. -/
def signText (negative : Bool) : List Char := if negative then ['-'] else []

/-- A literal with a fraction: a sign, digits, a point and more digits. -/
structure IsFraction (literal : List Char) (negative : Bool) (whole : ℕ)
    (fraction : List Char) : Prop where
  text : literal = signText negative ++ (Nat.toDigits 10 whole ++ '.' :: fraction)
  fraction_ne_nil : fraction ≠ []
  digits : ∀ c ∈ fraction, c.isDigit

theorem scanUnsigned_fraction (negative : Bool) (whole : ℕ) {fraction : List Char}
    (hne : fraction ≠ []) (hdigits : ∀ c ∈ fraction, c.isDigit) (hrest : Ends rest) :
    scanUnsigned negative (Nat.toDigits 10 whole ++ '.' :: (fraction ++ rest)) =
      some (float (String.ofList
        (signText negative ++ (Nat.toDigits 10 whole ++ '.' :: fraction))), rest) := by
  have hdot : ∀ c ∈ ('.' :: (fraction ++ rest)).head?, ¬ c.isDigit := by
    intro c hc
    cases Option.mem_some_iff.1 hc
    decide
  have hfraction : scanFraction ('.' :: (fraction ++ rest)) = ('.' :: fraction, rest) := by
    rw [scanFraction, digitsOf_append hdigits hrest.no_digit,
      afterDigits_append hdigits hrest.no_digit, if_neg hne]
  rw [scanUnsigned, scanInteger_toDigits whole hdot]
  simp only [Option.bind_eq_bind, Option.bind_some, hfraction, scanExponent_of_ends hrest]
  rw [if_neg (fun h => List.cons_ne_nil _ _ h.1)]
  simp only [List.append_assoc, List.append_nil]
  rfl

/-- **A literal with a fraction is read back.** -/
theorem scanNumber_fraction {literal fraction : List Char} {negative : Bool} {whole : ℕ}
    (h : IsFraction literal negative whole fraction) (hrest : Ends rest) :
    scanNumber (literal ++ rest) = some (float (String.ofList literal), rest) := by
  obtain ⟨rfl, hne, hdigits⟩ := h
  have hscan := scanUnsigned_fraction negative whole hne hdigits hrest
  cases negative with
  | false =>
    show scanNumber ((Nat.toDigits 10 whole ++ '.' :: fraction) ++ rest) = _
    rw [List.append_assoc, List.cons_append, scanNumber_toDigits, hscan]
  | true =>
    show scanUnsigned true ((Nat.toDigits 10 whole ++ '.' :: fraction) ++ rest) = _
    rw [List.append_assoc, List.cons_append, hscan]

/-! ### The round trip -/

/-- A value without floats whose objects name no member twice. -/
inductive Plain : Json → Prop
  | null : Plain null
  | bool (value : Bool) : Plain (bool value)
  | int (value : ℤ) : Plain (int value)
  | str (value : String) : Plain (str value)
  | arr {items : List Json} (h : ∀ value ∈ items, Plain value) : Plain (arr items)
  | obj {members : List (String × Json)} (hnames : (members.map Prod.fst).Nodup)
      (h : ∀ member ∈ members, Plain member.2) : Plain (obj members)

/-- A value as it is written: like a plain one, with literals for the numbers that have a
fraction. -/
inductive Written : Json → Prop
  | null : Written null
  | bool (value : Bool) : Written (bool value)
  | int (value : ℤ) : Written (int value)
  | float {literal fraction : List Char} {negative : Bool} {whole : ℕ}
      (h : IsFraction literal negative whole fraction) :
      Written (float (String.ofList literal))
  | str (value : String) : Written (str value)
  | arr {items : List Json} (h : ∀ value ∈ items, Written value) : Written (arr items)
  | obj {members : List (String × Json)} (hnames : (members.map Prod.fst).Nodup)
      (h : ∀ member ∈ members, Written member.2) : Written (obj members)

theorem Plain.written {value : Json} (h : value.Plain) : value.Written := by
  induction h with
  | null => exact .null
  | bool value => exact .bool value
  | int value => exact .int value
  | str value => exact .str value
  | arr _ ih => exact .arr ih
  | obj hnames _ ih => exact .obj hnames ih

theorem dict_of_nodup {members : List (String × Json)} (h : (members.map Prod.fst).Nodup) :
    dict members = members := by
  induction members with
  | nil => rfl
  | cons member members ih =>
    rw [List.map_cons, List.nodup_cons] at h
    rw [dict, if_neg h.1, ih h.2]

/-- The first character of a value: no whitespace, and not the bracket that ends an empty
array. -/
def Opens (text : List Char) : Prop :=
  ∃ c tail, text = c :: tail ∧ isSpace c = false ∧ c ≠ ']'

theorem Opens.skip_eq (h : Opens text) : skip text = text := by
  obtain ⟨c, tail, rfl, hspace, -⟩ := h
  rw [skip, List.dropWhile_cons_of_neg]
  rw [hspace]
  exact Bool.false_ne_true

theorem Opens.ne_bracket (h : Opens text) (tail : List Char) : text ≠ ']' :: tail := by
  obtain ⟨c, _, rfl, -, hbracket⟩ := h
  exact fun heq => hbracket (List.cons.inj heq).1

theorem Opens.append (h : Opens text) : Opens (text ++ rest) := by
  obtain ⟨c, tail, rfl, hspace, hbracket⟩ := h
  exact ⟨c, tail ++ rest, rfl, hspace, hbracket⟩

/-- What a number starts with: a sign or a digit. -/
def NumberHead (text : List Char) : Prop := ∃ c tail, text = c :: tail ∧ (c = '-' ∨ c.isDigit)

theorem numberHead_toDigits (n : ℕ) (rest : List Char) :
    NumberHead (Nat.toDigits 10 n ++ rest) := by
  obtain ⟨d, digits, hd, hdigit⟩ := toDigits_eq_cons n
  exact ⟨d, digits ++ rest, by rw [hd, List.cons_append], Or.inr hdigit⟩

theorem numberHead_renderInt (value : ℤ) : NumberHead (renderInt value) := by
  cases value with
  | ofNat n =>
    have h := numberHead_toDigits n []
    rwa [List.append_nil] at h
  | negSucc n => exact ⟨'-', _, rfl, Or.inl rfl⟩

theorem IsFraction.numberHead {literal fraction : List Char} {negative : Bool} {whole : ℕ}
    (h : IsFraction literal negative whole fraction) : NumberHead literal := by
  rw [h.text]
  cases negative with
  | false => exact numberHead_toDigits whole _
  | true => exact ⟨'-', _, rfl, Or.inl rfl⟩

/-- A sign or a digit is no other character that the parsers look for. -/
theorem ne_of_sign_or_digit {d : Char} (h : c = '-' ∨ c.isDigit) (hd : d ≠ '-')
    (hdigit : d.isDigit = false) : c ≠ d := by
  rintro rfl
  obtain h | h := h
  · exact hd h
  · rw [hdigit] at h
    exact Bool.false_ne_true h

theorem NumberHead.opens (h : NumberHead text) : Opens text := by
  obtain ⟨c, tail, h, hc⟩ := h
  refine ⟨c, tail, h, ?_, ne_of_sign_or_digit hc (by decide) (by decide)⟩
  have hspace := ne_of_sign_or_digit hc (d := ' ') (by decide) (by decide)
  have htab := ne_of_sign_or_digit hc (d := '\t') (by decide) (by decide)
  have hnewline := ne_of_sign_or_digit hc (d := '\n') (by decide) (by decide)
  have hreturn := ne_of_sign_or_digit hc (d := '\r') (by decide) (by decide)
  rw [isSpace, decide_eq_false_iff_not]
  simp only [hspace, htab, hnewline, hreturn, or_self, not_false_eq_true]

theorem opens_render {value : Json} (h : value.Written) : Opens value.render := by
  cases h with
  | null => exact ⟨'n', _, rfl, rfl, by decide⟩
  | bool value =>
    cases value
    · exact ⟨'f', _, rfl, rfl, by decide⟩
    · exact ⟨'t', _, rfl, rfl, by decide⟩
  | int value => exact (numberHead_renderInt value).opens
  | float hliteral =>
    rw [render, String.toList_ofList]
    exact hliteral.numberHead.opens
  | str value => exact ⟨'"', _, rfl, rfl, by decide⟩
  | @arr items h =>
    cases items
    · exact ⟨'[', _, rfl, rfl, by decide⟩
    · exact ⟨'[', _, rfl, rfl, by decide⟩
  | @obj members hnames h =>
    cases members
    · exact ⟨'{', _, rfl, rfl, by decide⟩
    · exact ⟨'{', _, rfl, rfl, by decide⟩

theorem ends_renderItems (items : List Json) (rest : List Char) :
    Ends (renderItems items ++ rest) := by
  cases items <;> exact ends_cons (by decide) (by decide) (by decide) (by decide)

theorem ends_renderMembers (members : List (String × Json)) (rest : List Char) :
    Ends (renderMembers members ++ rest) := by
  cases members <;> exact ends_cons (by decide) (by decide) (by decide) (by decide)

theorem skip_renderItems (items : List Json) (rest : List Char) :
    skip (renderItems items ++ rest) = renderItems items ++ rest := by
  cases items <;> rfl

theorem skip_renderMembers (members : List (String × Json)) (rest : List Char) :
    skip (renderMembers members ++ rest) = renderMembers members ++ rest := by
  cases members <;> rfl

theorem skip_renderString (name : String) (rest : List Char) :
    skip (renderString name ++ rest) = renderString name ++ rest := rfl

theorem length_renderMembers_cons (name : String) (value : Json)
    (members : List (String × Json)) :
    (renderMembers ((name, value) :: members)).length =
      (renderString name).length + value.render.length + (renderMembers members).length + 2 := by
  rw [renderMembers, List.length_cons, List.length_append, List.length_cons, List.length_append]
  omega

/-- **What the parsers read with the given fuel**: the text of a value, of the rest of an
array and of the rest of an object, whatever follows. -/
structure ReadsAt (fuel : ℕ) : Prop where
  value : ∀ value : Json, value.Written → value.render.length < fuel → ∀ rest, Ends rest →
    parseValue fuel (value.render ++ rest) = some (value, rest)
  items : ∀ items : List Json, (∀ value ∈ items, value.Written) →
    (renderItems items).length < fuel → ∀ rest,
      parseItems fuel (renderItems items ++ rest) = some (items, rest)
  member : ∀ (name : String) (value : Json), value.Written →
    (renderString name).length + value.render.length < fuel → ∀ rest, Ends rest →
      parseMember fuel (renderString name ++ ':' :: (value.render ++ rest)) =
        some ((name, value), rest)
  members : ∀ members : List (String × Json), (∀ member ∈ members, member.2.Written) →
    (renderMembers members).length < fuel → ∀ rest,
      parseMembers fuel (renderMembers members ++ rest) = some (members, rest)

namespace ReadsAt

variable {fuel : ℕ}

theorem zero : ReadsAt 0 where
  value _ _ h := absurd h (Nat.not_lt_zero _)
  items _ _ h := absurd h (Nat.not_lt_zero _)
  member _ _ _ h := absurd h (Nat.not_lt_zero _)
  members _ _ h := absurd h (Nat.not_lt_zero _)

theorem succ_items (h : ReadsAt fuel) (items : List Json) (hitems : ∀ value ∈ items, value.Written)
    (hfuel : (renderItems items).length < fuel + 1) (rest : List Char) :
    parseItems (fuel + 1) (renderItems items ++ rest) = some (items, rest) := by
  cases items with
  | nil => rfl
  | cons value items =>
    obtain ⟨hvalue, hitems⟩ := List.forall_mem_cons.1 hitems
    rw [renderItems, List.length_cons, List.length_append] at hfuel
    have hskip : skip (value.render ++ (renderItems items ++ rest)) =
        value.render ++ (renderItems items ++ rest) := (opens_render hvalue).append.skip_eq
    rw [renderItems, List.cons_append, List.append_assoc]
    simp only [parseItems, hskip, skip_renderItems, Option.bind_eq_bind, Option.bind_some,
      h.value value hvalue (by omega) _ (ends_renderItems items rest),
      h.items items hitems (by omega) rest]
    rfl

theorem succ_members (h : ReadsAt fuel) (members : List (String × Json))
    (hmembers : ∀ member ∈ members, member.2.Written)
    (hfuel : (renderMembers members).length < fuel + 1) (rest : List Char) :
    parseMembers (fuel + 1) (renderMembers members ++ rest) = some (members, rest) := by
  cases members with
  | nil => rfl
  | cons member members =>
    obtain ⟨name, value⟩ := member
    obtain ⟨hvalue, hmembers⟩ := List.forall_mem_cons.1 hmembers
    have hlength := length_renderMembers_cons name value members
    have hread := h.member name value hvalue (by omega) (renderMembers members ++ rest)
      (ends_renderMembers members rest)
    rw [renderMembers, List.cons_append, List.append_assoc, List.cons_append, List.append_assoc]
    simp only [parseMembers, skip_renderString, hread, skip_renderMembers, Option.bind_eq_bind,
      Option.bind_some, h.members members hmembers (by omega) rest]
    rfl

theorem succ_member (h : ReadsAt fuel) (name : String) (value : Json) (hvalue : value.Written)
    (hfuel : (renderString name).length + value.render.length < fuel + 1) (rest : List Char)
    (hrest : Ends rest) :
    parseMember (fuel + 1) (renderString name ++ ':' :: (value.render ++ rest)) =
      some ((name, value), rest) := by
  have hname : 0 < (renderString name).length := Nat.succ_pos _
  have hskip : skip (value.render ++ rest) = value.render ++ rest :=
    (opens_render hvalue).append.skip_eq
  have hcolon : skip (':' :: (value.render ++ rest)) = ':' :: (value.render ++ rest) := rfl
  simp only [parseMember, scanQuoted_renderString, Option.bind_eq_bind, Option.bind_some, hcolon,
    hskip, h.value value hvalue (by omega) rest hrest]
  rfl

theorem parseValue_arr (h : ReadsAt fuel) {items : List Json}
    (hitems : ∀ value ∈ items, value.Written) (hfuel : (arr items).render.length < fuel + 1)
    (rest : List Char) :
    parseValue (fuel + 1) ((arr items).render ++ rest) = some (arr items, rest) := by
  cases items with
  | nil => rfl
  | cons value items =>
    obtain ⟨hvalue, hitems⟩ := List.forall_mem_cons.1 hitems
    rw [render, List.length_cons, List.length_append] at hfuel
    have hopens : Opens (value.render ++ (renderItems items ++ rest)) :=
      (opens_render hvalue).append
    rw [render, List.cons_append, List.append_assoc, parseValue, hopens.skip_eq]
    split
    case h_1 heq => exact absurd heq (hopens.ne_bracket _)
    case h_2 =>
      simp only [Option.bind_eq_bind, Option.bind_some, skip_renderItems,
        h.value value hvalue (by omega) _ (ends_renderItems items rest),
        h.items items hitems (by omega) rest]
      rfl

theorem parseValue_obj (h : ReadsAt fuel) {members : List (String × Json)}
    (hnames : (members.map Prod.fst).Nodup) (hmembers : ∀ member ∈ members, member.2.Written)
    (hfuel : (obj members).render.length < fuel + 1) (rest : List Char) :
    parseValue (fuel + 1) ((obj members).render ++ rest) = some (obj members, rest) := by
  cases members with
  | nil => rfl
  | cons member members =>
    obtain ⟨name, value⟩ := member
    obtain ⟨hvalue, hmembers⟩ := List.forall_mem_cons.1 hmembers
    have hlength := length_renderMembers_cons name value members
    rw [render, List.length_cons, List.length_append, List.length_cons, List.length_append]
      at hfuel
    -- the first member, and then the loop over the rest
    have hread := h.member name value hvalue (by omega) (renderMembers members ++ rest)
      (ends_renderMembers members rest)
    rw [render, List.cons_append, List.append_assoc, List.cons_append, List.append_assoc,
      parseValue, skip_renderString]
    split
    case h_1 heq => exact absurd (List.cons.inj heq).1 (by decide)
    case h_2 =>
      simp only [Option.bind_eq_bind, Option.bind_some, hread, skip_renderMembers,
        h.members members hmembers (by omega) rest, dict_of_nodup hnames]
      rfl

/-- A number is read where no other value starts. -/
theorem parseValue_number {value : Json} {text : List Char} (hhead : NumberHead text)
    (hscan : scanNumber (text ++ rest) = some (value, rest)) :
    parseValue (fuel + 1) (text ++ rest) = some (value, rest) := by
  obtain ⟨c, tail, htext, hc⟩ := hhead
  rw [htext, List.cons_append] at hscan ⊢
  rw [parseValue, hscan, Option.some_or]
  -- a sign or a digit starts no other value
  · exact Nat.succ_ne_zero fuel
  · rintro _ _ - heq
    exact ne_of_sign_or_digit hc (by decide) (by decide) (List.cons.inj heq).1
  · rintro _ _ - heq
    exact ne_of_sign_or_digit hc (by decide) (by decide) (List.cons.inj heq).1
  · rintro _ _ - heq
    exact ne_of_sign_or_digit hc (by decide) (by decide) (List.cons.inj heq).1

theorem succ (h : ReadsAt fuel) : ReadsAt (fuel + 1) where
  value := by
    intro value hvalue hfuel rest hrest
    cases hvalue with
    | null => rfl
    | bool value => cases value <;> rfl
    | int value =>
      exact parseValue_number (numberHead_renderInt value) (scanNumber_renderInt value hrest)
    | float hliteral =>
      rw [render, String.toList_ofList]
      exact parseValue_number hliteral.numberHead (scanNumber_fraction hliteral hrest)
    | str value =>
      have hquoted := scanQuoted_renderString value rest
      rw [renderString, List.cons_append] at hquoted
      rw [render, renderString, List.cons_append, parseValue, hquoted]
      rfl
    | arr hitems => exact h.parseValue_arr hitems hfuel rest
    | obj hnames hmembers => exact h.parseValue_obj hnames hmembers hfuel rest
  items := h.succ_items
  member := h.succ_member
  members := h.succ_members

theorem all (fuel : ℕ) : ReadsAt fuel := by
  induction fuel with
  | zero => exact zero
  | succ fuel ih => exact ih.succ

end ReadsAt

/-- **The round trip.** -/
theorem loads_written {value : Json} (h : value.Written) :
    loads (String.ofList value.render) = some value := by
  have hopens := opens_render h
  have hread := (ReadsAt.all (value.render.length + 1)).value value h (Nat.lt_succ_self _) []
    ends_nil
  rw [List.append_nil] at hread
  rw [loads, String.toList_ofList, String.length_ofList, hopens.skip_eq, hread]
  rfl

/-- Written values are told apart by their texts. -/
theorem Written.render_injective {value other : Json} (h : value.Written) (h' : other.Written)
    (heq : value.render = other.render) : value = other := by
  have hread := loads_written h
  rw [heq, loads_written h'] at hread
  exact (Option.some.inj hread).symm

/-! ### Canonical texts -/

theorem perm_insertMember (member : String × Json) (members : List (String × Json)) :
    (insertMember member members).Perm (member :: members) := by
  induction members with
  | nil => exact List.Perm.refl _
  | cons other members ih =>
    rw [insertMember]
    by_cases h : member.1 ≤ other.1
    · rw [if_pos h]
    · rw [if_neg h]
      exact (ih.cons other).trans (List.Perm.swap member other members)

/-- The members of a sorted object are those of the object, with their values sorted. -/
theorem perm_sortedMembers (members : List (String × Json)) :
    (sortedMembers members).Perm (members.map fun member => (member.1, member.2.sorted)) := by
  induction members with
  | nil => exact List.Perm.refl _
  | cons member members ih =>
    rw [sortedMembers, List.map_cons]
    exact (perm_insertMember _ _).trans (ih.cons _)

theorem perm_names_sortedMembers (members : List (String × Json)) :
    ((sortedMembers members).map Prod.fst).Perm (members.map Prod.fst) := by
  have h := (perm_sortedMembers members).map Prod.fst
  rw [List.map_map] at h
  exact h

@[simp] theorem sorted_int (value : ℤ) : (int value).sorted = int value := rfl

@[simp] theorem sorted_str (value : String) : (str value).sorted = str value := rfl

theorem sortedItems_eq_map (items : List Json) : sortedItems items = items.map sorted := by
  induction items with
  | nil => rfl
  | cons value items ih => rw [sortedItems, ih, List.map_cons]

/-- Sorting keeps a value written. -/
theorem Written.sorted {value : Json} (h : value.Written) : value.sorted.Written := by
  induction h with
  | null => exact .null
  | bool value => exact .bool value
  | int value => exact .int value
  | float h => exact .float h
  | str value => exact .str value
  | arr _ ih =>
    rw [Json.sorted, sortedItems_eq_map]
    refine .arr fun value hvalue => ?_
    obtain ⟨item, hitem, rfl⟩ := List.mem_map.1 hvalue
    exact ih item hitem
  | @obj members hnames _ ih =>
    rw [Json.sorted]
    refine .obj ((perm_names_sortedMembers members).nodup_iff.2 hnames) fun member hmember => ?_
    obtain ⟨other, hother, rfl⟩ := List.mem_map.1 ((perm_sortedMembers members).mem_iff.1 hmember)
    exact ih other hother

/-- **Canonical texts are read back**, up to the order of the members. -/
theorem loads_canonicalJson {value : Json} (h : value.Plain) :
    loads (canonicalJson value) = some value.sorted :=
  loads_written h.written.sorted

theorem field_of_mem {name : String} {value : Json} (hnames : (members.map Prod.fst).Nodup)
    (h : (name, value) ∈ members) : field members name = value := by
  induction members with
  | nil => exact absurd h List.not_mem_nil
  | cons member members ih =>
    rw [List.map_cons, List.nodup_cons] at hnames
    obtain rfl | hrest := List.mem_cons.1 h
    · rw [field, List.lookup_cons_self]
      rfl
    · have hne : name ≠ member.1 := by
        rintro rfl
        exact hnames.1 (List.mem_map.2 ⟨_, hrest, rfl⟩)
      have hlookup : (member :: members).lookup name = members.lookup name := by
        rw [List.lookup_cons, beq_false_of_ne hne]
      rw [field, hlookup]
      exact ih hnames.2 hrest

/-- The member of a name in the sorted object. -/
theorem field_sortedMembers {name : String} {value : Json}
    (hnames : (members.map Prod.fst).Nodup) (h : (name, value) ∈ members) :
    field (sortedMembers members) name = value.sorted := by
  apply field_of_mem
  · exact (perm_names_sortedMembers members).nodup_iff.2 hnames
  · rw [(perm_sortedMembers members).mem_iff]
    exact List.mem_map.2 ⟨(name, value), h, rfl⟩

end Json

end Data
end TradingSystem
