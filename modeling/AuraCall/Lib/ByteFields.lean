import Mathlib.Algebra.Group.Nat.Defs
import Mathlib.Data.List.TakeDrop

/-!
# Fields of bytes

Numbers in a fixed number of bytes, the lowest first, one after the other. A buffer of zeros into which numbers are written
at their places holds the same as the numbers laid out in a row (`writeAll_placed`), when each fits; and the fields are read
back from where they begin (`readFields_layout`).
-/

namespace ByteFields

/-! ## Numbers -/

/-- The lowest `width` bytes of a number. -/
def le : Nat → Nat → List UInt8
  | 0, _ => []
  | width + 1, value => UInt8.ofNat value :: le width (value / 256)

def ofLe : List UInt8 → Nat
  | [] => 0
  | byte :: bytes => byte.toNat + 256 * ofLe bytes

@[simp] theorem length_le (width value : Nat) : (le width value).length = width := by
  induction width generalizing value with
  | zero => rfl
  | succ width ih => rw [le, List.length_cons, ih]

theorem ofLe_le {width value : Nat} (h : value < 256 ^ width) : ofLe (le width value) = value := by
  induction width generalizing value with
  | zero =>
    rw [Nat.pow_zero] at h
    rw [le, ofLe]
    omega
  | succ width ih =>
    have hrest : value / 256 < 256 ^ width := by
      rw [Nat.pow_succ] at h
      exact Nat.div_lt_of_lt_mul (by omega)
    rw [le, ofLe, ih hrest, UInt8.toNat_ofNat']
    omega

/-! ## Rows of numbers -/

/-- Widths and values. -/
abbrev Fields := List (Nat × Nat)

def layout (fields : Fields) : List UInt8 := fields.flatMap fun field => le field.1 field.2

/-- Every value can be written in its width. -/
def Fits (fields : Fields) : Prop := ∀ field ∈ fields, field.2 < 256 ^ field.1

instance (fields : Fields) : Decidable (Fits fields) := List.decidableBAll _ _

def totalWidth (fields : Fields) : Nat := (fields.map Prod.fst).foldr (· + ·) 0

variable {fields : Fields} {width value : Nat} {bytes rest : List UInt8}

@[simp] theorem layout_cons : layout ((width, value) :: fields) = le width value ++ layout fields := List.flatMap_cons

@[simp] theorem totalWidth_cons : totalWidth ((width, value) :: fields) = width + totalWidth fields := rfl

@[simp] theorem length_layout : (layout fields).length = totalWidth fields := by
  induction fields with
  | nil => rfl
  | cons field fields ih =>
    obtain ⟨width, value⟩ := field
    rw [layout_cons, List.length_append, length_le, ih, totalWidth_cons]

@[simp] theorem fits_cons : Fits ((width, value) :: fields) ↔ value < 256 ^ width ∧ Fits fields := List.forall_mem_cons

theorem fits_nil : Fits [] := fun _ h => absurd h List.not_mem_nil

/-! ## Reading -/

/-- The values of fields of these widths, and the bytes after them. -/
def readFields : List Nat → List UInt8 → Option (List Nat × List UInt8)
  | [], bytes => some ([], bytes)
  | width :: widths, bytes =>
    if width ≤ bytes.length then
      (readFields widths (bytes.drop width)).map fun (values, rest) => (ofLe (bytes.take width) :: values, rest)
    else none

/-- **Fields are read back.** -/
theorem readFields_layout (h : Fits fields) (rest : List UInt8) :
    readFields (fields.map Prod.fst) (layout fields ++ rest) = some (fields.map Prod.snd, rest) := by
  induction fields with
  | nil => rfl
  | cons field fields ih =>
    obtain ⟨width, value⟩ := field
    obtain ⟨hvalue, hfits⟩ := fits_cons.1 h
    have hlength : width ≤ (le width value ++ (layout fields ++ rest)).length := by
      rw [List.length_append, length_le]
      exact Nat.le_add_right ..
    rw [List.map_cons, layout_cons, List.append_assoc, readFields, if_pos hlength,
      List.drop_left' (length_le width value), List.take_left' (length_le width value), ih hfits, ofLe_le hvalue]
    rfl

/-! ## Writing into a buffer -/

/-- A number of `width` bytes, and where it is written. -/
structure Write where
  width : Nat
  value : Nat
  offset : Nat

/-- The buffer with the number written into it; nothing when it does not fit. -/
def write (buffer : List UInt8) (w : Write) : Option (List UInt8) :=
  if w.value < 256 ^ w.width then
    some (buffer.take w.offset ++ le w.width w.value ++ buffer.drop (w.offset + w.width))
  else none

def writeAll (buffer : List UInt8) (writes : List Write) : Option (List UInt8) := writes.foldlM write buffer

def zeros (n : Nat) : List UInt8 := List.replicate n 0

/-- The writes of the fields one after the other. -/
def placed : Nat → Fields → List Write
  | _, [] => []
  | offset, (width, value) :: fields => ⟨width, value, offset⟩ :: placed (offset + width) fields

/-- **Written one after the other**, from the end of what is written already. -/
theorem writeAll_placed (written : List UInt8) :
    writeAll (written ++ zeros (totalWidth fields)) (placed written.length fields) =
      if Fits fields then some (written ++ layout fields) else none := by
  induction fields generalizing written with
  | nil =>
    rw [if_pos fits_nil]
    rfl
  | cons field fields ih =>
    obtain ⟨width, value⟩ := field
    rw [placed, writeAll, List.foldlM_cons, write]
    by_cases hvalue : value < 256 ^ width
    · have hdrop : (written ++ zeros (width + totalWidth fields)).drop (written.length + width) =
          zeros (totalWidth fields) := by
        rw [List.drop_append, List.drop_eq_nil_of_le (Nat.le_add_right ..), List.nil_append, Nat.add_sub_cancel_left,
          zeros, List.drop_replicate, Nat.add_sub_cancel_left]
        rfl
      have hlength : written.length + width = (written ++ le width value).length := by
        rw [List.length_append, length_le]
      rw [if_pos hvalue, totalWidth_cons, List.take_left, hdrop, hlength]
      show writeAll _ _ = _
      rw [ih]
      simp [hvalue]
    · rw [if_neg hvalue, if_neg fun hfits => hvalue (fits_cons.1 hfits).1]
      rfl

theorem writeAll_zeros {n : Nat} (hn : n = totalWidth fields) :
    writeAll (zeros n) (placed 0 fields) = if Fits fields then some (layout fields) else none := by
  rw [hn]
  exact writeAll_placed []

end ByteFields
