import TradingSystem.Data.Json
import Mathlib.Algebra.Order.Field.Basic
import Mathlib.Algebra.Order.Ring.Rat
import Mathlib.Data.Nat.Factorization.Basic
import Mathlib.Data.Nat.Log
import Mathlib.Data.Rat.Lemmas
import Mathlib.Tactic.FieldSimp
import Mathlib.Tactic.Linarith
import Mathlib.Tactic.Positivity
import Mathlib.Tactic.Ring

/-!
# Numbers written in full

The decimal text of a number without an exponent and without trailing zeros, and the value of
a number's literal.

* `places`, `plainText` — the fewest places a number can be written with, and its text.
* `number` — the JSON number of a value.
* `literalValue` — the value of a literal.
* `literalValue_plainText` — the text has the value it was written for.
-/

namespace TradingSystem
namespace Data

/-! ### The text -/

/-- A number with finitely many decimal places. -/
def IsDecimal (q : ℚ) : Prop := ∃ k : ℕ, q.den ∣ 10 ^ k

/-- The fewest places the number can be written with. -/
def places (q : ℚ) : ℕ :=
  ((List.range (Nat.log 2 q.den + 1)).find? fun k => q.den ∣ 10 ^ k).getD 0

/-- The last `k` digits of a number, zeros included. -/
def fixedDigits : ℕ → ℕ → List Char
  | 0, _ => []
  | k + 1, n => fixedDigits k (n / 10) ++ [Nat.digitChar (n % 10)]

/-- The absolute value in units of the last place. -/
def scaled (q : ℚ) : ℕ := q.num.natAbs * (10 ^ places q / q.den)

/-- The text of a number that has decimal places. -/
def plainText (q : ℚ) : List Char :=
  Json.signText (q < 0) ++ (Nat.toDigits 10 (scaled q / 10 ^ places q) ++
    '.' :: fixedDigits (places q) (scaled q % 10 ^ places q))

/-- The JSON number of a value: an integer has no point. -/
def number (q : ℚ) : Json :=
  if q.den = 1 then .int q.num else .float (String.ofList (plainText q))

/-! ### The value of a literal -/

/-- An exponent behind its letter. -/
def exponentValue : List Char → ℤ
  | '-' :: digits => -(Nat.ofDigitChars 10 (Json.digitsOf digits) 0 : ℤ)
  | '+' :: digits => Nat.ofDigitChars 10 (Json.digitsOf digits) 0
  | digits => Nat.ofDigitChars 10 (Json.digitsOf digits) 0

/-- What a number's point and exponent stand for, behind the digits before the point. -/
def fractionValue (whole : List Char) : List Char → ℚ
  | '.' :: rest =>
    let fraction := Json.digitsOf rest
    let mantissa : ℚ := Nat.ofDigitChars 10 (whole ++ fraction) 0 / 10 ^ fraction.length
    match Json.afterDigits rest with
    | _ :: exponent => mantissa * 10 ^ exponentValue exponent
    | [] => mantissa
  | _ :: exponent => Nat.ofDigitChars 10 whole 0 * 10 ^ exponentValue exponent
  | [] => Nat.ofDigitChars 10 whole 0

/-- The value of a literal behind its sign. -/
def unsignedValue (text : List Char) : ℚ :=
  fractionValue (Json.digitsOf text) (Json.afterDigits text)

/-- The value of a literal. -/
def literalValue : List Char → ℚ
  | '-' :: text => -unsignedValue text
  | text => unsignedValue text

/-! ### Places -/

section Places

variable {q r : ℚ}

/-- A divisor of a power of ten divides the one with the logarithm as its exponent. -/
theorem dvd_ten_pow_log {n k : ℕ} (h : n ∣ 10 ^ k) : n ∣ 10 ^ Nat.log 2 n := by
  have hn : n ≠ 0 := ne_zero_of_dvd_ne_zero (pow_ne_zero _ (by decide)) h
  rw [Nat.dvd_iff_prime_pow_dvd_dvd]
  intro p j hp hdvd
  obtain rfl | hj := Nat.eq_zero_or_pos j
  · rw [pow_zero]
    exact one_dvd _
  have hp10 : p ∣ 10 := hp.dvd_of_dvd_pow ((dvd_pow_self p hj.ne').trans (hdvd.trans h))
  have hle : 2 ^ j ≤ n := (Nat.pow_le_pow_left hp.two_le j).trans
    (Nat.le_of_dvd (Nat.pos_of_ne_zero hn) hdvd)
  exact (pow_dvd_pow_of_dvd hp10 j).trans (pow_dvd_pow 10 (Nat.le_log_of_pow_le (by decide) hle))

theorem den_dvd_places (h : IsDecimal q) : q.den ∣ 10 ^ places q := by
  obtain ⟨k, hk⟩ := h
  unfold places
  cases hfind : (List.range (Nat.log 2 q.den + 1)).find? fun k => q.den ∣ 10 ^ k with
  | none =>
    rw [List.find?_eq_none] at hfind
    have hlog := hfind _ (List.mem_range.2 (Nat.lt_succ_self (Nat.log 2 q.den)))
    rw [decide_eq_true_eq] at hlog
    exact absurd (dvd_ten_pow_log hk) hlog
  | some found =>
    have hfound := List.find?_some hfind
    rwa [decide_eq_true_eq] at hfound

/-- A number that is no integer has places. -/
theorem places_pos (h : IsDecimal q) (hden : q.den ≠ 1) : 0 < places q := by
  refine Nat.pos_of_ne_zero fun hzero => hden ?_
  have hdvd := den_dvd_places h
  rw [hzero, pow_zero] at hdvd
  exact Nat.dvd_one.1 hdvd

theorem abs_eq_scaled (h : IsDecimal q) : |q| = scaled q / 10 ^ places q := by
  obtain ⟨m, hm⟩ := den_dvd_places h
  have hden : (q.den : ℚ) ≠ 0 := by exact_mod_cast q.den_nz
  have hpow : (10 : ℚ) ^ places q = q.den * m := by exact_mod_cast hm
  have hm0 : (m : ℚ) ≠ 0 := by
    rintro hzero
    rw [hzero, mul_zero] at hpow
    exact pow_ne_zero _ (by norm_num) hpow
  have habs : |q| = q.num.natAbs / q.den := by
    conv_lhs => rw [← Rat.num_div_den q]
    rw [abs_div, Nat.abs_cast, Nat.cast_natAbs, Int.cast_abs]
  unfold scaled
  rw [hm, Nat.mul_div_cancel_left _ (Nat.pos_of_ne_zero q.den_nz), habs, hpow]
  push_cast
  field_simp

end Places

/-! ### Reading the text -/

section Reading

variable {q r : ℚ} {k n : ℕ}

theorem length_fixedDigits (k n : ℕ) : (fixedDigits k n).length = k := by
  induction k generalizing n with
  | zero => rfl
  | succ k ih => rw [fixedDigits, List.length_append, ih, List.length_singleton]

theorem isDigit_fixedDigits (k n : ℕ) : ∀ c ∈ fixedDigits k n, c.isDigit := by
  induction k generalizing n with
  | zero =>
    intro c hc
    cases hc
  | succ k ih =>
    intro c hc
    rw [fixedDigits, List.mem_append, List.mem_singleton] at hc
    obtain hc | rfl := hc
    · exact ih _ c hc
    · have hdigit : ∀ d < 10, (Nat.digitChar d).isDigit := by decide
      exact hdigit _ (Nat.mod_lt _ (by decide))

/-- The last digits stand for the rest of the number. -/
theorem ofDigitChars_fixedDigits (h : n < 10 ^ k) (init : ℕ) :
    Nat.ofDigitChars 10 (fixedDigits k n) init = 10 ^ k * init + n := by
  induction k generalizing n with
  | zero =>
    rw [pow_zero, Nat.lt_one_iff] at h
    rw [h, fixedDigits, Nat.ofDigitChars_nil, pow_zero, one_mul, add_zero]
  | succ k ih =>
    have hdiv : n / 10 < 10 ^ k := by
      rw [Nat.div_lt_iff_lt_mul (by decide), ← pow_succ]
      exact h
    rw [fixedDigits, Nat.ofDigitChars_append, ih hdiv,
      Nat.ofDigitChars_cons_digitChar_of_lt_ten (Nat.mod_lt _ (by decide)), Nat.ofDigitChars_nil,
      pow_succ]
    have hsplit := Nat.div_add_mod n 10
    calc 10 * (10 ^ k * init + n / 10) + n % 10
        = 10 ^ k * 10 * init + (10 * (n / 10) + n % 10) := by ring
      _ = 10 ^ k * 10 * init + n := by rw [hsplit]

/-- **A literal with a fraction** has the value of its digits. -/
theorem unsignedValue_fraction (whole : ℕ) (h : n < 10 ^ k) :
    unsignedValue (Nat.toDigits 10 whole ++ '.' :: fixedDigits k n) =
      ((10 ^ k * whole + n : ℕ) : ℚ) / 10 ^ k := by
  have hdot : ∀ c ∈ ('.' :: fixedDigits k n).head?, ¬ c.isDigit := by
    intro c hc
    cases Option.mem_some_iff.1 hc
    decide
  have hnone : ∀ c ∈ ([] : List Char).head?, ¬ c.isDigit := by
    intro c hc
    cases hc
  have hfraction := Json.digitsOf_append (isDigit_fixedDigits k n) hnone
  have hafter := Json.afterDigits_append (isDigit_fixedDigits k n) hnone
  rw [List.append_nil] at hfraction hafter
  unfold unsignedValue
  rw [Json.digitsOf_append (Json.isDigit_toDigits whole) hdot,
    Json.afterDigits_append (Json.isDigit_toDigits whole) hdot, fractionValue]
  simp only [hfraction, hafter, length_fixedDigits]
  rw [Nat.ofDigitChars_append, Nat.ofDigitChars_ten_toDigits, ofDigitChars_fixedDigits h]

/-- Zero with a sign has the value zero. -/
theorem literalValue_negativeZero : literalValue ['-', '0', '.', '0'] = 0 := by
  have hzero := unsignedValue_fraction (n := 0) (k := 1) 0 (by decide)
  rw [mul_zero, add_zero, Nat.cast_zero, zero_div] at hzero
  show -unsignedValue ['0', '.', '0'] = 0
  exact neg_eq_zero.2 hzero

/-- Digits are no sign. -/
theorem literalValue_toDigits (whole : ℕ) (rest : List Char) :
    literalValue (Nat.toDigits 10 whole ++ rest) =
      unsignedValue (Nat.toDigits 10 whole ++ rest) := by
  obtain ⟨d, digits, hd, hdigit⟩ := Json.toDigits_eq_cons whole
  rw [literalValue]
  intro text htext
  rw [hd, List.cons_append] at htext
  rw [(List.cons.inj htext).1] at hdigit
  exact absurd hdigit (by decide)

/-- **The text of a number** has its value. -/
theorem literalValue_plainText (h : IsDecimal q) : literalValue (plainText q) = q := by
  have hlt : scaled q % 10 ^ places q < 10 ^ places q := Nat.mod_lt _ (by positivity)
  have habs : unsignedValue (Nat.toDigits 10 (scaled q / 10 ^ places q) ++
      '.' :: fixedDigits (places q) (scaled q % 10 ^ places q)) = |q| := by
    rw [unsignedValue_fraction _ hlt, Nat.div_add_mod, abs_eq_scaled h]
  unfold plainText
  by_cases hneg : q < 0
  · rw [decide_eq_true hneg]
    show -unsignedValue (Nat.toDigits 10 _ ++ _) = q
    rw [habs, abs_of_neg hneg, neg_neg]
  · rw [decide_eq_false hneg]
    show literalValue (Nat.toDigits 10 _ ++ _) = q
    rw [literalValue_toDigits, habs, abs_of_nonneg (not_lt.1 hneg)]

/-- The text of a number that is no integer is a literal with a fraction. -/
theorem isFraction_plainText (h : IsDecimal q) (hden : q.den ≠ 1) :
    Json.IsFraction (plainText q) (q < 0) (scaled q / 10 ^ places q)
      (fixedDigits (places q) (scaled q % 10 ^ places q)) where
  text := rfl
  fraction_ne_nil := by
    rw [← List.length_pos_iff, length_fixedDigits]
    exact places_pos h hden
  digits := isDigit_fixedDigits _ _

/-- **Numbers are told apart** by how they are written. -/
theorem number_injective (hq : IsDecimal q) (hr : IsDecimal r) (h : number q = number r) :
    q = r := by
  unfold number at h
  split at h
  · next hqden =>
    split at h
    · next hrden =>
      have hnum := Json.int.inj h
      rw [← Rat.num_div_den q, ← Rat.num_div_den r, hqden, hrden, hnum]
    · cases h
  · split at h
    · cases h
    · have htext := String.ofList_injective (Json.float.inj h)
      rw [← literalValue_plainText hq, ← literalValue_plainText hr, htext]

end Reading

end Data
end TradingSystem
