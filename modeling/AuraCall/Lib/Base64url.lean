import Mathlib.Data.List.Basic
import Mathlib.Data.List.GetD
import Mathlib.Data.List.TakeWhile

/-!
# Base64url

Bytes in groups of three, each group as four digits of six bits. The last group may be short, and there is no padding. A
reader also takes the digits of plain base64, leaves out what is no digit and stops at the padding. What has been written
is read back (`decode_encode`).
-/

namespace Base64url

def alphabet : List Char := "ABCDEFGHIJKLMNOPQRSTUVWXYZabcdefghijklmnopqrstuvwxyz0123456789-_".toList

/-- The digit of six bits. -/
def digit (bits : Nat) : Char := alphabet.getD bits 'A'

def value? (c : Char) : Option Nat :=
  if c = '+' then some 62 else if c = '/' then some 63 else alphabet.idxOf? c

/-- The bits of the groups. -/
def groups : List UInt8 → List Nat
  | [] => []
  | [a] => [a.toNat / 4, a.toNat % 4 * 16]
  | [a, b] => [a.toNat / 4, a.toNat % 4 * 16 + b.toNat / 16, b.toNat % 16 * 4]
  | a :: b :: c :: bytes =>
    a.toNat / 4 :: (a.toNat % 4 * 16 + b.toNat / 16) :: (b.toNat % 16 * 4 + c.toNat / 64) :: (c.toNat % 64) :: groups bytes

/-- The bytes of the groups; bits that are left over are dropped. -/
def bytes : List Nat → List UInt8
  | a :: b :: c :: d :: bits =>
    UInt8.ofNat (a * 4 + b / 16) :: UInt8.ofNat (b % 16 * 16 + c / 4) :: UInt8.ofNat (c % 4 * 64 + d) :: bytes bits
  | [a, b, c] => [UInt8.ofNat (a * 4 + b / 16), UInt8.ofNat (b % 16 * 16 + c / 4)]
  | [a, b] => [UInt8.ofNat (a * 4 + b / 16)]
  | _ => []

/-- `bytes.toString('base64url')`. -/
def encode (input : List UInt8) : List Char := (groups input).map digit

/-- `Buffer.from(text, 'base64url')`. -/
def decode (text : List Char) : List UInt8 := bytes ((text.takeWhile (· ≠ '=')).filterMap value?)

theorem value?_digit : ∀ bits < 64, value? (digit bits) = some bits := by decide +kernel

theorem digit_ne_padding : ∀ bits < 64, digit bits ≠ '=' := by decide +kernel

theorem lt_of_mem_groups {input : List UInt8} {bits : Nat} (h : bits ∈ groups input) : bits < 64 := by
  fun_induction groups input with
  | case1 => cases h
  | case2 a =>
    have ha := a.toNat_lt
    simp only [List.mem_cons, List.not_mem_nil, or_false] at h
    omega
  | case3 a b =>
    have ha := a.toNat_lt
    have hb := b.toNat_lt
    simp only [List.mem_cons, List.not_mem_nil, or_false] at h
    omega
  | case4 a b c rest ih =>
    have ha := a.toNat_lt
    have hb := b.toNat_lt
    have hc := c.toNat_lt
    simp only [List.mem_cons] at h
    rcases h with h | h | h | h | h
    · omega
    · omega
    · omega
    · omega
    · exact ih h

theorem ofNat_of_eq {a : UInt8} {n : Nat} (h : n = a.toNat) : UInt8.ofNat n = a := by
  rw [h, UInt8.ofNat_toNat]

theorem bytes_groups (input : List UInt8) : bytes (groups input) = input := by
  fun_induction groups input with
  | case1 => rfl
  | case2 a =>
    show [UInt8.ofNat (a.toNat / 4 * 4 + a.toNat % 4 * 16 / 16)] = [a]
    rw [ofNat_of_eq (a := a) (by omega)]
  | case3 a b =>
    have hb := b.toNat_lt
    rw [bytes, ofNat_of_eq (a := a) (by omega), ofNat_of_eq (a := b) (by omega)]
  | case4 a b c rest ih =>
    have hb := b.toNat_lt
    have hc := c.toNat_lt
    rw [bytes, ofNat_of_eq (a := a) (by omega), ofNat_of_eq (a := b) (by omega), ofNat_of_eq (a := c) (by omega), ih]

/-- What has been written is read back. -/
theorem decode_encode (input : List UInt8) : decode (encode input) = input := by
  have hpadding : (encode input).takeWhile (· ≠ '=') = encode input := by
    rw [List.takeWhile_eq_self_iff]
    intro c hc
    obtain ⟨bits, hbits, rfl⟩ := List.mem_map.1 hc
    exact decide_eq_true (digit_ne_padding bits (lt_of_mem_groups hbits))
  have hvalues : (encode input).filterMap value? = groups input := by
    rw [encode, List.filterMap_map]
    calc (groups input).filterMap (value? ∘ digit)
        = (groups input).filterMap some :=
          List.filterMap_congr fun bits hbits => value?_digit bits (lt_of_mem_groups hbits)
      _ = groups input := List.filterMap_some
  rw [decode, hpadding, hvalues, bytes_groups]

/-- A digit is a letter, a number, a hyphen or an underscore. -/
theorem mem_alphabet_of_mem_encode {input : List UInt8} {c : Char} (h : c ∈ encode input) : c ∈ alphabet := by
  obtain ⟨bits, hbits, rfl⟩ := List.mem_map.1 h
  have hlt : bits < alphabet.length := by
    have hbound := lt_of_mem_groups hbits
    rwa [show alphabet.length = 64 by decide]
  rw [digit, List.getD_eq_getElem _ _ hlt]
  exact List.getElem_mem hlt

end Base64url
