import AuraCall.Js.Json
import AuraCall.Lib.SeparatedText
import Mathlib.Data.List.Sort

/-!
# JSON texts

`JSON.stringify`, over the texts of numbers.
-/

namespace AuraCall

open SeparatedText

/-! ## Strings -/

/-- `QuoteJSONString`, for one character. -/
def escapeChar (c : Char) : List Char :=
  if c = '"' then ['\\', '"'] else if c = '\\' then ['\\', '\\']
  else if c.toNat = 8 then ['\\', 'b'] else if c.toNat = 9 then ['\\', 't'] else if c.toNat = 10 then ['\\', 'n']
  else if c.toNat = 12 then ['\\', 'f'] else if c.toNat = 13 then ['\\', 'r']
  else if c.toNat < 32 then ['\\', 'u', '0', '0', Nat.digitChar (c.toNat / 16), Nat.digitChar (c.toNat % 16)]
  else [c]

/-- `JSON.stringify` of a string. -/
def quote (s : String) : List Char := '"' :: s.toList.flatMap escapeChar ++ ['"']

/-- The value of a hexadecimal digit. -/
def hexValue (c : Char) : Nat := if c.toNat < 58 then c.toNat - 48 else c.toNat - 87

/-! ## Values -/

/-- `Number.prototype.toString` of finite numbers. -/
structure NumberTexts where
  text : ℚ → List Char
  injective : Function.Injective text
  numeric : ∀ q, text q ≠ [] ∧ ∀ c ∈ text q, c.isDigit = true ∨ c ∈ ['-', '+', '.', 'e']

/-- The decimal digits of an integer. -/
def decimal : Int → List Char
  | .ofNat n => Nat.toDigits 10 n
  | .negSucc n => '-' :: Nat.toDigits 10 (n + 1)

theorem toDigits_injective {m n : Nat} (h : Nat.toDigits 10 m = Nat.toDigits 10 n) : m = n := by
  rw [← Nat.ofDigitChars_ten_toDigits (n := m), h, Nat.ofDigitChars_ten_toDigits]

theorem mem_decimal {n : Int} {c : Char} (h : c ∈ decimal n) : c.isDigit = true ∨ c = '-' := by
  cases n with
  | ofNat n => exact .inl (Nat.isDigit_of_mem_toDigits (by decide) (by decide) h)
  | negSucc n =>
    rcases List.mem_cons.1 h with rfl | h
    · exact .inr rfl
    · exact .inl (Nat.isDigit_of_mem_toDigits (by decide) (by decide) h)

theorem decimal_injective : Function.Injective decimal := by
  have hsign : ∀ m n : Nat, decimal (.ofNat m) ≠ decimal (.negSucc n) := by
    intro m n h
    have hmem : '-' ∈ Nat.toDigits 10 m := by
      rw [show Nat.toDigits 10 m = '-' :: Nat.toDigits 10 (n + 1) from h]
      exact List.mem_cons_self
    have hdigit := Nat.isDigit_of_mem_toDigits (by decide) (by decide) hmem
    cases hdigit
  intro m n h
  cases m with
  | ofNat m =>
    cases n with
    | ofNat n => exact congrArg Int.ofNat (toDigits_injective h)
    | negSucc n => exact absurd h (hsign m n)
  | negSucc m =>
    cases n with
    | ofNat n => exact absurd h.symm (hsign n m)
    | negSucc n => exact congrArg Int.negSucc (Nat.succ.inj (toDigits_injective (List.cons.inj h).2))

/-- Integers in decimal, and other numbers by their numerator and denominator. -/
def fractionText (q : ℚ) : List Char := decimal q.num ++ if q.den = 1 then [] else 'e' :: Nat.toDigits 10 q.den

theorem fractionText_injective : Function.Injective fractionText := by
  have htoken : ∀ n : Int, Token (· = 'e') (decimal n) := by
    intro n c hc
    rcases mem_decimal hc with hdigit | rfl
    · refine decide_eq_false fun he => ?_
      rw [he] at hdigit
      cases hdigit
    · decide
  have hstopped : ∀ q : ℚ, Stopped (fun c => decide (c = 'e')) (if q.den = 1 then [] else 'e' :: Nat.toDigits 10 q.den) := by
    intro q
    split <;> simp
  intro p q h
  obtain ⟨hnum, hden⟩ := token_append_inj (htoken p.num) (htoken q.num) (hstopped p) (hstopped q) h
  refine Rat.ext (decimal_injective hnum) ?_
  split_ifs at hden with hp hq hq
  · rw [hp, hq]
  · exact toDigits_injective (List.cons.inj hden).2

def NumberTexts.fraction : NumberTexts where
  text := fractionText
  injective := fractionText_injective
  numeric q := by
    have hnonempty : decimal q.num ≠ [] := by
      cases q.num with
      | ofNat n => exact Nat.toDigits_ne_nil
      | negSucc n => exact List.cons_ne_nil _ _
    refine ⟨fun h => hnonempty (List.append_eq_nil_iff.1 h).1, fun c hc => ?_⟩
    rcases List.mem_append.1 hc with hc | hc
    · rcases mem_decimal hc with hdigit | rfl
      · exact .inl hdigit
      · exact .inr List.mem_cons_self
    · split at hc
      · cases hc
      · rcases List.mem_cons.1 hc with rfl | hc
        · exact .inr (by decide)
        · exact .inl (Nat.isDigit_of_mem_toDigits (by decide) (by decide) hc)

section Values

variable (numbers : NumberTexts)

def numberText : JsNumber → List Char
  | .finite q => numbers.text q
  | _ => "null".toList

/-- `${JSON.stringify(key)}:${JSON.stringify(record[key])}`. -/
def fieldText (field : String × List Char) : List Char := quote field.1 ++ ':' :: field.2

/-- `JSON.stringify`: the fields of a record stand as they come. -/
def stringify : Json → List Char
  | .null => "null".toList
  | .bool value => (if value then "true" else "false").toList
  | .number value => numberText numbers value
  | .string value => quote value
  | .array items => '[' :: listed ',' ']' (stringifyItems items)
  | .object fields => '{' :: listed ',' '}' ((stringifyFields fields).map fieldText)
where
  stringifyItems : List Json → List (List Char)
    | [] => []
    | item :: items => stringify item :: stringifyItems items
  stringifyFields : List (String × Json) → List (String × List Char)
    | [] => []
    | (key, value) :: fields => (key, stringify value) :: stringifyFields fields

end Values

end AuraCall
