-- SUMMARY: Bit strings: numbers of a fixed width with the most significant bit first, bytes, and reading fields from a stream.
import Mathlib.Data.Nat.Bitwise

namespace Lib.Bits

/-- The `width` low bits of `n`. -/
def encode : Nat → Nat → List Bool
  | 0, _ => []
  | width + 1, n => n.testBit width :: encode width n

def decode : List Bool → Nat
  | [] => 0
  | b :: bits => 2 ^ bits.length * b.toNat + decode bits

@[simp] theorem encode_length (width n : Nat) : (encode width n).length = width := by
  induction width with
  | zero => rfl
  | succ width ih => rw [encode, List.length_cons, ih]

theorem decode_lt (bits : List Bool) : decode bits < 2 ^ bits.length := by
  induction bits with
  | nil => exact Nat.one_pos
  | cons b bits ih =>
    rw [decode, List.length_cons, Nat.pow_succ]
    cases b <;> simp <;> omega

theorem decode_encode_mod (width n : Nat) : decode (encode width n) = n % 2 ^ width := by
  induction width with
  | zero => exact (Nat.mod_one n).symm
  | succ width ih =>
    rw [encode, decode, encode_length, ih, Nat.mod_pow_succ, Nat.toNat_testBit, Nat.add_comm]

theorem decode_encode {width n : Nat} (h : n < 2 ^ width) : decode (encode width n) = n := by
  rw [decode_encode_mod, Nat.mod_eq_of_lt h]

/-- Only the low bits count. -/
theorem encode_two_pow_mul_add {width i : Nat} (hi : width ≤ i) (a : Nat) {n : Nat} (h : n < 2 ^ i) :
    encode width (2 ^ i * a + n) = encode width n := by
  induction width with
  | zero => rfl
  | succ width ih =>
    rw [encode, encode, ih (by omega), Nat.testBit_two_pow_mul_add a h, if_pos (by omega)]

theorem encode_decode (bits : List Bool) : encode bits.length (decode bits) = bits := by
  induction bits with
  | nil => rfl
  | cons b bits ih =>
    have hlt := decode_lt bits
    rw [List.length_cons, encode, decode, encode_two_pow_mul_add (Nat.le_refl _) _ hlt, ih,
      Nat.testBit_two_pow_mul_add _ hlt, if_neg (Nat.lt_irrefl _), Nat.sub_self]
    cases b <;> rfl

/-! ## Bytes -/

abbrev Byte : Type := BitVec 8

def Byte.bits (byte : Byte) : List Bool := encode 8 byte.toNat

def Byte.ofBits (bits : List Bool) : Byte := BitVec.ofNat 8 (decode bits)

@[simp] theorem Byte.bits_ofBits {bits : List Bool} (h : bits.length = 8) :
    (Byte.ofBits bits).bits = bits := by
  have hlt : decode bits < 2 ^ 8 := h ▸ decode_lt bits
  rw [Byte.bits, Byte.ofBits, BitVec.toNat_ofNat, Nat.mod_eq_of_lt hlt, ← h, encode_decode]

@[simp] theorem Byte.bits_length (byte : Byte) : byte.bits.length = 8 := encode_length 8 _

/-! ## Streams -/

/-- Take a field from the front of a stream, unless it ends first. -/
def read (width : Nat) (stream : List Bool) : Option (Nat × List Bool) :=
  if width ≤ stream.length then some (decode (stream.take width), stream.drop width) else none

theorem read_encode_append {width n : Nat} (h : n < 2 ^ width) (rest : List Bool) :
    read width (encode width n ++ rest) = some (n, rest) := by
  have hle : width ≤ (encode width n ++ rest).length := by simp
  rw [read, if_pos hle, List.take_left' (encode_length ..), List.drop_left' (encode_length ..),
    decode_encode h]

section Records

variable {α : Type} {enc : α → List Bool} {width : Nat}

theorem flatMap_length (henc : ∀ a, (enc a).length = width) (as : List α) :
    (as.flatMap enc).length = as.length * width := by
  induction as with
  | nil => rw [List.flatMap_nil, List.length_nil, List.length_nil, Nat.zero_mul]
  | cons a as ih =>
    rw [List.flatMap_cons, List.length_append, henc, ih, List.length_cons, Nat.succ_mul]
    omega

/-- The records from position `i` on. -/
theorem drop_flatMap_append (henc : ∀ a, (enc a).length = width) (as : List α) {i : Nat}
    (hi : i ≤ as.length) (tail : List Bool) :
    (as.flatMap enc ++ tail).drop (i * width) = (as.drop i).flatMap enc ++ tail := by
  have hsplit : as.flatMap enc = (as.take i).flatMap enc ++ (as.drop i).flatMap enc := by
    rw [← List.flatMap_append, List.take_append_drop]
  have hlen : ((as.take i).flatMap enc).length = i * width := by
    rw [flatMap_length henc, List.length_take, Nat.min_eq_left hi]
  rw [hsplit, List.append_assoc, List.drop_left' hlen]

end Records
end Lib.Bits
