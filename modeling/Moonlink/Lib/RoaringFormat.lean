-- SUMMARY: The portable format of roaring bitmaps over 64-bit numbers, as far as writing it, and a lower bound for its size.
import Mathlib.Algebra.Order.BigOperators.Group.Finset
import Mathlib.Algebra.Order.Ring.Nat

/-!
# The roaring format

Numbers are grouped by their upper 32 bits into bitmaps, and these by the next 16 bits into
containers. A container with more than 4096 numbers is a bit set of fixed size, and any
other one is the list of its numbers. Containers of runs are only made on request.
-/

namespace Lib.Roaring

def toLeBytes (n value : Nat) : List UInt8 := (List.range n).map fun i => UInt8.ofNat (value / 256 ^ i)

/-- The numbers with the given upper part, without it. -/
def group (d : Nat) (rows : List Nat) (key : Nat) : List Nat :=
  (rows.filter fun r => r / d = key).map (· % d)

def keys (d : Nat) (rows : List Nat) : List Nat := (rows.map (· / d)).dedup

def containerBytes (rows : List Nat) : List UInt8 :=
  if rows.length ≤ 4096 then rows.flatMap (toLeBytes 2)
  else (List.range 8192).map fun i =>
    UInt8.ofNat ((List.range 8).map fun j => if 8 * i + j ∈ rows then 2 ^ j else 0).sum

/-- The header and the offsets of the containers stand before them. -/
def bitmapBytes (rows : List Nat) : List UInt8 :=
  let containers := (keys (2 ^ 16) rows).map fun key => (key, group (2 ^ 16) rows key)
  let offset (i : Nat) : Nat :=
    8 + 8 * containers.length + ((containers.take i).map fun c => (containerBytes c.2).length).sum
  toLeBytes 4 12346 ++ toLeBytes 4 containers.length ++
    containers.flatMap (fun c => toLeBytes 2 c.1 ++ toLeBytes 2 (c.2.length - 1)) ++
    (List.range containers.length).flatMap (fun i => toLeBytes 4 (offset i)) ++
    containers.flatMap fun c => containerBytes c.2

def treemapBytes (rows : List Nat) : List UInt8 :=
  toLeBytes 8 (keys (2 ^ 32) rows).length ++
    (keys (2 ^ 32) rows).flatMap fun key => toLeBytes 4 key ++ bitmapBytes (group (2 ^ 32) rows key)

/-- The format of the rows 1 and 3. -/
example : treemapBytes [1, 3] = [1, 0, 0, 0, 0, 0, 0, 0, 0, 0, 0, 0, 0x3A, 0x30, 0, 0, 1, 0, 0, 0, 0, 0, 1, 0,
    16, 0, 0, 0, 1, 0, 3, 0] := by decide

/-! ## Size -/

variable {d key r n : Nat} {rows : List Nat}

theorem mem_group (hr : r < d) : r ∈ group d rows key ↔ key * d + r ∈ rows := by
  have hpos : 0 < d := Nat.lt_of_le_of_lt (Nat.zero_le r) hr
  unfold group
  simp only [List.mem_map, List.mem_filter, decide_eq_true_eq]
  constructor
  · rintro ⟨x, ⟨hx, rfl⟩, rfl⟩
    rwa [Nat.mul_comm, Nat.div_add_mod]
  · intro hmem
    refine ⟨_, ⟨hmem, ?_⟩, ?_⟩
    · rw [Nat.mul_comm, Nat.mul_add_div hpos, Nat.div_eq_of_lt hr, Nat.add_zero]
    · rw [Nat.mul_comm, Nat.mul_add_mod, Nat.mod_eq_of_lt hr]

theorem mem_keys_of_mem (hr : r < d) (hmem : key * d + r ∈ rows) : key ∈ keys d rows := by
  have hpos : 0 < d := Nat.lt_of_le_of_lt (Nat.zero_le r) hr
  refine List.mem_dedup.mpr (List.mem_map.mpr ⟨_, hmem, ?_⟩)
  rw [Nat.mul_comm, Nat.mul_add_div hpos, Nat.div_eq_of_lt hr, Nat.add_zero]

/-- A list is as long as the number of its different elements. -/
theorem le_length_of_injective {f : Nat → Nat} (hf : Function.Injective f) (hmem : ∀ i < n, f i ∈ rows) :
    n ≤ rows.length := by
  have hsubset : (List.range n).map f ⊆ rows := by
    intro x hx
    obtain ⟨i, hi, rfl⟩ := List.mem_map.mp hx
    exact hmem i (List.mem_range.mp hi)
  have hlen := ((List.nodup_range.map hf).subperm hsubset).length_le
  rwa [List.length_map, List.length_range] at hlen

/-- The groups of the first keys have a least size. -/
theorem le_length_flatMap_keys {f : Nat → List UInt8} {size : Nat} (hkeys : ∀ k < n, k ∈ keys d rows)
    (hsize : ∀ k < n, size ≤ (f k).length) : n * size ≤ ((keys d rows).flatMap f).length := by
  have hnodup : (keys d rows).Nodup := List.nodup_dedup _
  have hsubset : Finset.range n ⊆ (keys d rows).toFinset := fun k hk =>
    List.mem_toFinset.mpr (hkeys k (Finset.mem_range.mp hk))
  calc n * size = ∑ _k ∈ Finset.range n, size := by simp
    _ ≤ ∑ k ∈ Finset.range n, (f k).length := Finset.sum_le_sum fun k hk => hsize k (Finset.mem_range.mp hk)
    _ ≤ ∑ k ∈ (keys d rows).toFinset, (f k).length := Finset.sum_le_sum_of_subset hsubset
    _ = ((keys d rows).flatMap f).length := by rw [List.sum_toFinset _ hnodup, List.length_flatMap]

theorem length_containerBytes (h : 4096 < rows.length) : (containerBytes rows).length = 8192 := by
  rw [containerBytes, if_neg (Nat.not_le_of_lt h), List.length_map, List.length_range]

theorem le_length_bitmapBytes (hkeys : ∀ k < n, k ∈ keys (2 ^ 16) rows)
    (hfull : ∀ k < n, 4096 < (group (2 ^ 16) rows k).length) : n * 8192 ≤ (bitmapBytes rows).length := by
  have hcontainers := le_length_flatMap_keys (f := fun key => containerBytes (group (2 ^ 16) rows key)) hkeys
    fun k hk => (length_containerBytes (hfull k hk)).ge
  refine Nat.le_trans hcontainers ?_
  simp only [bitmapBytes, List.length_append, List.flatMap_map]
  exact Nat.le_add_left ..

theorem le_length_treemapBytes {size : Nat} (hkeys : ∀ k < n, k ∈ keys (2 ^ 32) rows)
    (hsize : ∀ k < n, size ≤ (bitmapBytes (group (2 ^ 32) rows k)).length) :
    n * size ≤ (treemapBytes rows).length := by
  have hbitmaps := le_length_flatMap_keys
    (f := fun key => toLeBytes 4 key ++ bitmapBytes (group (2 ^ 32) rows key)) hkeys fun k hk => by
      rw [List.length_append]
      exact Nat.le_trans (hsize k hk) (Nat.le_add_left ..)
  refine Nat.le_trans hbitmaps ?_
  rw [treemapBytes, List.length_append]
  exact Nat.le_add_left ..

end Lib.Roaring
