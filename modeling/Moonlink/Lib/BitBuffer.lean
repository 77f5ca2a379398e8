-- SUMMARY: Bits packed into bytes, least significant first: reading a bit, clearing bits, and buffers combined bytewise.

namespace Lib

abbrev BitBuffer : Type := List (BitVec 8)

namespace BitBuffer

/-- The bit at position `i`. -/
def getBit (b : BitBuffer) (i : Nat) : Bool := (b.getD (i / 8) 0).getLsbD (i % 8)

/-- Clear the bit at position `i`. -/
def unsetBit (b : BitBuffer) (i : Nat) : BitBuffer :=
  b.modify (i / 8) fun byte => byte &&& ~~~(1#8 <<< (i % 8))

/-- The bits that are set in both buffers, as long as the first. -/
def and (b b' : BitBuffer) : BitBuffer := b.mapIdx fun i byte => byte &&& b'.getD i 0

@[simp] theorem length_unsetBit (b : BitBuffer) (i : Nat) : (b.unsetBit i).length = b.length := by
  simp [unsetBit]

@[simp] theorem length_and (b b' : BitBuffer) : (b.and b').length = b.length := by
  simp [BitBuffer.and]

theorem getBit_of_length_le {b : BitBuffer} {i : Nat} (h : b.length * 8 ≤ i) :
    b.getBit i = false := by
  have hlen : b.length ≤ i / 8 := by omega
  simp [getBit, List.getD_eq_getElem?_getD, List.getElem?_eq_none hlen]

theorem getLsbD_clear (byte : BitVec 8) {i j : Nat} (hj : j < 8) :
    (byte &&& ~~~(1#8 <<< i)).getLsbD j = (byte.getLsbD j && i != j) := by
  simp only [BitVec.getLsbD_and, BitVec.getLsbD_not, BitVec.getLsbD_shiftLeft, BitVec.getLsbD_one,
    hj, decide_true, Bool.true_and]
  congr 1
  rw [Bool.eq_iff_iff]
  simp
  omega

theorem getBit_unsetBit (b : BitBuffer) (i j : Nat) :
    (b.unsetBit i).getBit j = (b.getBit j && i != j) := by
  unfold getBit unsetBit
  simp only [List.getD_eq_getElem?_getD, List.getElem?_modify]
  have hmod : j % 8 < 8 := Nat.mod_lt _ (by decide)
  by_cases hbyte : i / 8 = j / 8
  · -- The same byte: the positions differ exactly if the offsets do.
    have hoffset : (i != j) = (i % 8 != j % 8) := by
      rw [Bool.eq_iff_iff]
      simp only [bne_iff_ne, ne_eq]
      omega
    rw [hoffset]
    simp only [hbyte, if_true]
    cases hget : b[j / 8]? with
    | none => simp
    | some byte => exact getLsbD_clear byte hmod
  · have hne : (i != j) = true := by
      rw [bne_iff_ne]
      intro h
      exact hbyte (by rw [h])
    simp [hbyte, hne]

theorem getBit_and (b b' : BitBuffer) (i : Nat) :
    (b.and b').getBit i = (b.getBit i && b'.getBit i) := by
  unfold getBit BitBuffer.and
  simp only [List.getD_eq_getElem?_getD, List.getElem?_mapIdx]
  cases hget : b[i / 8]? with
  | none => simp
  | some byte => simp

/-- Clear the bits of a list of positions. -/
def unsetBits (b : BitBuffer) (is : List Nat) : BitBuffer := is.foldl unsetBit b

@[simp] theorem length_unsetBits (b : BitBuffer) (is : List Nat) :
    (b.unsetBits is).length = b.length := by
  induction is generalizing b with
  | nil => rfl
  | cons i is ih => exact (ih (b.unsetBit i)).trans (length_unsetBit b i)

theorem getBit_unsetBits (b : BitBuffer) (is : List Nat) (j : Nat) :
    (b.unsetBits is).getBit j = (b.getBit j && decide (j ∉ is)) := by
  induction is generalizing b with
  | nil => simp [unsetBits]
  | cons i is ih =>
    have hstep : b.unsetBits (i :: is) = (b.unsetBit i).unsetBits is := rfl
    have hmem : decide (j ∉ i :: is) = (i != j && decide (j ∉ is)) := by
      rw [Bool.eq_iff_iff]
      simp [@eq_comm Nat j i]
    rw [hstep, ih, getBit_unsetBit, hmem, Bool.and_assoc]

/-- A buffer of `n` full bytes. -/
def full (n : Nat) : BitBuffer := List.replicate n 0xFF#8

theorem getBit_full (n i : Nat) : (full n).getBit i = decide (i < n * 8) := by
  unfold getBit full
  simp only [List.getD_eq_getElem?_getD, List.getElem?_replicate]
  have hmod : i % 8 < 8 := Nat.mod_lt _ (by decide)
  by_cases h : i / 8 < n
  · have hall : ∀ k < 8, (0xFF#8).getLsbD k = true := by decide
    simp only [h, if_true, Option.getD_some, hall _ hmod]
    rw [eq_comm, decide_eq_true_eq]
    omega
  · simp only [h, if_false, Option.getD_none]
    rw [eq_comm, Bool.eq_iff_iff]
    simp
    omega

end BitBuffer
end Lib
