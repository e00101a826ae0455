import Mathlib.Tactic.Ring
import Mathlib.Data.List.Sort

/-!
# Fixed-width fields of a byte image

Numbers laid out least significant byte first, and the bytes found at an offset
of an image that was put together by concatenation. An image is read back field
by field: a read past the first part is a read of the rest, and a read that
covers exactly the first part gives that part.
-/

namespace ScratchBird.Lib

variable {width offset : Nat} {a rest : List UInt8}

/-- The `width` low bytes of a number, least significant first. -/
def littleBytes : Nat → Nat → List UInt8
  | 0, _ => []
  | width + 1, n => UInt8.ofNat n :: littleBytes width (n / 256)

def littleValue : List UInt8 → Nat
  | [] => 0
  | b :: rest => b.toNat + 256 * littleValue rest

@[simp] theorem length_littleBytes (width n : Nat) : (littleBytes width n).length = width := by
  induction width generalizing n with
  | zero => rfl
  | succ width ih => rw [littleBytes, List.length_cons, ih]

theorem littleValue_littleBytes (width n : Nat) :
    littleValue (littleBytes width n) = n % 256 ^ width := by
  induction width generalizing n with
  | zero => rw [littleBytes, littleValue, Nat.pow_zero, Nat.mod_one]
  | succ width ih =>
    have hbyte : (UInt8.ofNat n).toNat = n % 256 := rfl
    rw [littleBytes, littleValue, ih, hbyte, Nat.pow_succ', Nat.mod_mul]

theorem littleValue_littleBytes_of_lt {n : Nat} (h : n < 256 ^ width) :
    littleValue (littleBytes width n) = n := by
  rw [littleValue_littleBytes, Nat.mod_eq_of_lt h]

/-- The `width` bytes at an offset of an image. -/
def bytesAt (image : List UInt8) (offset width : Nat) : List UInt8 := (image.drop offset).take width

theorem bytesAt_self (image : List UInt8) : bytesAt image 0 image.length = image := by
  rw [bytesAt, List.drop_zero, List.take_length]

theorem bytesAt_bytesAt (image : List UInt8) (offset width : Nat) :
    bytesAt (bytesAt image offset width) 0 width = bytesAt image offset width := by
  rw [bytesAt, bytesAt, List.drop_zero, List.take_take, Nat.min_self]

theorem bytesAt_append_right (h : a.length ≤ offset) :
    bytesAt (a ++ rest) offset width = bytesAt rest (offset - a.length) width := by
  rw [bytesAt, bytesAt, List.drop_append, List.drop_eq_nil_of_le h, List.nil_append]

theorem bytesAt_append_left (h : a.length = width) : bytesAt (a ++ rest) 0 width = a := by
  rw [bytesAt, List.drop_zero, List.take_left' h]

theorem bytesAt_append_add (offset width : Nat) :
    bytesAt (a ++ rest) (a.length + offset) width = bytesAt rest offset width := by
  rw [bytesAt_append_right (Nat.le_add_right _ _), Nat.add_sub_cancel_left]

/-- In an image laid out field by field, the `i`th field stands behind the
fields before it. -/
theorem bytesAt_flatten {fields : List (List UInt8)} {field : List UInt8}
    (i : Nat) (hfield : fields[i]? = some field)
    (hoffset : ((fields.take i).map List.length).sum = offset) (hwidth : field.length = width) :
    bytesAt (fields.flatten ++ rest) offset width = field := by
  induction fields generalizing i offset with
  | nil => cases hfield
  | cons first fields ih =>
    rw [List.flatten_cons, List.append_assoc]
    cases i with
    | zero =>
      obtain rfl : first = field := Option.some.inj hfield
      subst hoffset
      exact bytesAt_append_left hwidth
    | succ i =>
      have hsum : first.length + ((fields.take i).map List.length).sum =
          offset := hoffset
      rw [← hsum, bytesAt_append_add]
      exact ih i hfield rfl

end ScratchBird.Lib
