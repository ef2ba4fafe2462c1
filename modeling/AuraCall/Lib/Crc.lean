import Mathlib.Data.List.GetD
import Mathlib.Logic.Function.Iterate

/-!
# Cyclic redundancy checks

A register of `w` bits takes a message in bit by bit, the lowest bit of each byte first (`shiftIn`). Without a message bit
it only shifts, which is linear in exclusive or (`shift_xor`); so the bits of a byte may all be put into the register
before it shifts (`feed_byte`), and eight shifts are a table's word for the low byte and the rest moved down
(`shifts_eight`). Together a byte is taken in by one look into the table (`feed_table`).
-/

namespace Crc

variable {w : Nat} (poly : BitVec w)

/-- The register takes in one bit of the message. -/
def shiftIn (register : BitVec w) (bit : Bool) : BitVec w :=
  if register.getLsbD 0 ^^ bit then poly ^^^ (register >>> 1) else register >>> 1

/-- The bits of a byte, the lowest first. -/
def bitsOf (byte : UInt8) : List Bool := (List.range 8).map byte.toBitVec.getLsbD

def feed (register : BitVec w) (bytes : List UInt8) : BitVec w := (bytes.flatMap bitsOf).foldl (shiftIn poly) register

/-- The check of a message, from a register that starts and ends with all bits inverted. -/
def checksum (bytes : List UInt8) : BitVec w := feed poly (BitVec.allOnes w) bytes ^^^ BitVec.allOnes w

/-- The register shifts, with no bit of the message. -/
def shift (register : BitVec w) : BitVec w :=
  if register.getLsbD 0 then poly ^^^ (register >>> 1) else register >>> 1

def shifts (n : Nat) (register : BitVec w) : BitVec w := (shift poly)^[n] register

/-! ## Shifts are linear -/

variable {poly} {a b register : BitVec w}

@[simp] theorem shifts_zero : shifts poly 0 register = register := rfl

theorem shifts_succ (n : Nat) : shifts poly (n + 1) register = shifts poly n (shift poly register) := rfl

theorem shifts_succ' (n : Nat) : shifts poly (n + 1) register = shift poly (shifts poly n register) :=
  Function.iterate_succ_apply' ..

theorem shift_xor : shift poly (a ^^^ b) = shift poly a ^^^ shift poly b := by
  have hcancel : ∀ x y : BitVec w, x ^^^ y = (poly ^^^ x) ^^^ (poly ^^^ y) := by
    intro x y
    rw [BitVec.xor_comm poly x, BitVec.xor_assoc, ← BitVec.xor_assoc poly, BitVec.xor_self, BitVec.zero_xor]
  unfold shift
  rw [BitVec.getLsbD_xor, BitVec.ushiftRight_xor_distrib]
  cases a.getLsbD 0 <;> cases b.getLsbD 0
  · rfl
  · show poly ^^^ (a >>> 1 ^^^ b >>> 1) = a >>> 1 ^^^ (poly ^^^ b >>> 1)
    ac_rfl
  · exact (BitVec.xor_assoc ..).symm
  · exact hcancel _ _

theorem shifts_xor (n : Nat) : shifts poly n (a ^^^ b) = shifts poly n a ^^^ shifts poly n b := by
  induction n with
  | zero => rfl
  | succ n ih => rw [shifts_succ', ih, shift_xor, ← shifts_succ', ← shifts_succ']

/-- With no bit set in its lowest places, a register only moves down. -/
theorem shifts_high {n : Nat} (h : ∀ i < n, register.getLsbD i = false) : shifts poly n register = register >>> n := by
  induction n with
  | zero => rw [shifts_zero, BitVec.ushiftRight_zero]
  | succ n ih =>
    have hlow : (register >>> n).getLsbD 0 = false := by
      rw [BitVec.getLsbD_ushiftRight]
      exact h n (Nat.lt_succ_self n)
    rw [shifts_succ', ih fun i hi => h i (Nat.lt_succ_of_lt hi), shift, hlow, BitVec.shiftRight_add]
    rfl

/-! ## A table of bytes -/

theorem split_byte (x : BitVec w) : x = (x &&& 255#w) ^^^ (x &&& ~~~255#w) := by
  apply BitVec.eq_of_getLsbD_eq
  intro i hi
  simp only [BitVec.getLsbD_xor, BitVec.getLsbD_and, BitVec.getLsbD_not]
  cases x.getLsbD i <;> cases (255#w).getLsbD i <;> simp [hi]

theorem getLsbD_byte (i : Nat) : (255#w).getLsbD i = decide (i < w ∧ i < 8) := by
  rw [BitVec.getLsbD_ofNat, show (255 : Nat) = 2 ^ 8 - 1 from rfl, Nat.testBit_two_pow_sub_one]
  by_cases hw : i < w <;> simp [hw]

/-- **Eight shifts** are those of the low byte, and the rest moved down. -/
theorem shifts_eight (x : BitVec w) : shifts poly 8 x = shifts poly 8 (x &&& 255#w) ^^^ (x >>> 8) := by
  have hhigh : ∀ i < 8, (x &&& ~~~255#w).getLsbD i = false := by
    intro i hi
    rw [BitVec.getLsbD_and, BitVec.getLsbD_not, getLsbD_byte]
    by_cases hw : i < w <;> simp [hi, hw]
  have hdown : (x &&& ~~~255#w) >>> 8 = x >>> 8 := by
    apply BitVec.eq_of_getLsbD_eq
    intro i _
    rw [BitVec.getLsbD_ushiftRight, BitVec.getLsbD_ushiftRight, BitVec.getLsbD_and, BitVec.getLsbD_not, getLsbD_byte]
    by_cases hw : 8 + i < w
    · simp [hw]
    · rw [BitVec.getLsbD_of_ge x _ (by omega), Bool.false_and]
  conv => lhs; rw [split_byte x]
  rw [shifts_xor, shifts_high hhigh, hdown]

/-! ## A byte at once -/

/-- The number with these lowest bits. -/
def ofBits (w : Nat) : List Bool → BitVec w
  | [] => 0#w
  | bit :: bits => (BitVec.ofBool bit).setWidth w ^^^ (ofBits w bits <<< 1)

theorem getLsbD_ofBits (bits : List Bool) (i : Nat) :
    (ofBits w bits).getLsbD i = (decide (i < w) && bits.getD i false) := by
  induction bits generalizing i with
  | nil => simp [ofBits]
  | cons bit bits ih =>
    rw [ofBits, BitVec.getLsbD_xor, BitVec.getLsbD_setWidth, BitVec.getLsbD_shiftLeft]
    cases i with
    | zero => simp
    | succ i =>
      rw [Nat.add_sub_cancel, ih]
      by_cases hw : i + 1 < w
      · have hi : i < w := by omega
        simp [hw, hi]
      · simp [hw]

theorem shiftIn_eq (bit : Bool) (hw : 0 < w) :
    shiftIn poly register bit = shift poly (register ^^^ (BitVec.ofBool bit).setWidth w) := by
  have hlow : ((BitVec.ofBool bit).setWidth w).getLsbD 0 = bit := by
    rw [BitVec.getLsbD_setWidth]
    simp [hw]
  have hrest : (BitVec.ofBool bit).setWidth w >>> 1 = 0#w := by
    apply BitVec.eq_of_getLsbD_eq
    intro i _
    rw [BitVec.getLsbD_ushiftRight, BitVec.getLsbD_setWidth, BitVec.getLsbD_of_ge _ (1 + i) (by omega)]
    simp
  rw [shiftIn, shift, BitVec.getLsbD_xor, hlow, BitVec.ushiftRight_xor_distrib, hrest, BitVec.xor_zero]

/-- **Bits at once**: they are put into the register, which then shifts. -/
theorem foldl_shiftIn (bits : List Bool) (h : bits.length ≤ w) :
    bits.foldl (shiftIn poly) register = shifts poly bits.length (register ^^^ ofBits w bits) := by
  induction bits generalizing register with
  | nil => simp [ofBits]
  | cons bit bits ih =>
    rw [List.length_cons] at h ⊢
    have hback : shift poly (ofBits w bits <<< 1) = ofBits w bits := by
      have hlow : (ofBits w bits <<< 1).getLsbD 0 = false := by simp
      rw [shift, hlow]
      apply BitVec.eq_of_getLsbD_eq
      intro i hi
      rw [if_neg Bool.false_ne_true, BitVec.getLsbD_ushiftRight, BitVec.getLsbD_shiftLeft, Nat.add_sub_cancel_left,
        getLsbD_ofBits]
      by_cases hlast : 1 + i < w
      · simp [hlast]
      · rw [List.getD_eq_default _ _ (by omega)]
        simp
    rw [List.foldl_cons, ih (by omega), shiftIn_eq bit (by omega), shifts_succ, ofBits, ← BitVec.xor_assoc,
      @shift_xor _ _ (register ^^^ _), hback]

theorem ofBits_bitsOf (byte : UInt8) : ofBits w (bitsOf byte) = byte.toBitVec.setWidth w := by
  apply BitVec.eq_of_getLsbD_eq
  intro i hi
  rw [getLsbD_ofBits, BitVec.getLsbD_setWidth, bitsOf]
  by_cases hbyte : i < 8
  · simp [hi, hbyte, List.getD_eq_getElem?_getD]
  · rw [List.getD_eq_default _ _ (by simpa using hbyte), BitVec.getLsbD_of_ge _ _ (by omega)]

theorem feed_byte (byte : UInt8) (hw : 8 ≤ w) :
    feed poly register [byte] = shifts poly 8 (register ^^^ byte.toBitVec.setWidth w) := by
  have hlength : (bitsOf byte).length = 8 := by rw [bitsOf, List.length_map, List.length_range]
  rw [feed, List.flatMap_singleton, foldl_shiftIn _ (by omega), hlength, ofBits_bitsOf byte]

theorem feed_cons (byte : UInt8) (bytes : List UInt8) :
    feed poly register (byte :: bytes) = feed poly (feed poly register [byte]) bytes := by
  rw [feed, feed, feed, List.flatMap_cons, List.foldl_append, List.flatMap_singleton]

/-- **A byte from the table.** -/
theorem feed_table (byte : UInt8) (hw : 8 ≤ w) :
    feed poly register [byte] =
      shifts poly 8 ((register ^^^ byte.toBitVec.setWidth w) &&& 255#w) ^^^ (register >>> 8) := by
  have hgone : byte.toBitVec.setWidth w >>> 8 = 0#w := by
    apply BitVec.eq_of_getLsbD_eq
    intro i _
    rw [BitVec.getLsbD_ushiftRight, BitVec.getLsbD_setWidth, BitVec.getLsbD_of_ge _ (8 + i) (by omega)]
    simp
  rw [feed_byte byte hw, shifts_eight, BitVec.ushiftRight_xor_distrib, hgone, BitVec.xor_zero]

end Crc
