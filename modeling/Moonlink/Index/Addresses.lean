-- SUMMARY: For which numbers of rows and files the hashes, the file numbers and the offsets of an index are exact.
import Moonlink.Index.LookupSpec

namespace Moonlink.Index

open Lib Lib.Bits

/-- The offsets of the buckets have 32 bits and those of the entries 64, and what is read there is in the block. -/
def GlobalIndex.AddressesInside (index : GlobalIndex) (block : IndexBlock) (numEntries : Nat) : Prop :=
  (∀ bucketIdx < index.numBuckets, bucketIdx * index.bucketBits < 2 ^ 32 ∧
    bucketIdx * index.bucketBits + block.bucketStartOffset + 2 * index.bucketBits ≤ 8 * block.data.length) ∧
  ∀ entryIdx < numEntries, entryIdx * index.entryBits < 2 ^ 64 ∧
    entryIdx * index.entryBits + index.entryBits ≤ 8 * block.data.length

theorem GlobalIndex.Represents.addressesInside {index : GlobalIndex} {block : IndexBlock} {entries : List Entry}
    (h : index.Represents block entries) (htable : index.TableInRange) :
    index.AddressesInside block entries.length := by
  obtain ⟨padding, hdata⟩ := h.data
  have hbits : 8 * block.data.length =
      entries.length * index.entryBits + ((index.numBuckets + 1) * index.bucketBits + padding.length) := by
    have hlength := congrArg List.length hdata
    rw [List.length_append, List.length_append, flatMap_length index.entryCode_length,
      flatMap_length (encode_length index.bucketBits), bucketTable_length] at hlength
    rw [← hlength, BitWriter.flatMap_bits_length, Nat.mul_comm]
  have hentryBits : index.entryBits ≤ 2 ^ 7 := by
    have hlower := h.widths.lower
    have hseg := h.widths.seg
    rw [entryBits, h.widths.row]
    omega
  have hcount : entries.length < 2 ^ 32 :=
    lt_of_lt_of_le h.count (Nat.pow_le_pow_right (by decide) h.widths.bucket)
  refine ⟨fun b hb => ⟨lt_of_le_of_lt (Nat.mul_le_mul_right _ (by omega)) htable, ?_⟩, fun i hi => ⟨?_, ?_⟩⟩
  · have hle : (b + 2) * index.bucketBits ≤ (index.numBuckets + 1) * index.bucketBits :=
      Nat.mul_le_mul_right _ (by omega)
    rw [Nat.add_mul] at hle
    rw [h.offset, hbits]
    omega
  · calc i * index.entryBits ≤ entries.length * 2 ^ 7 := Nat.mul_le_mul hi.le hentryBits
      _ < 2 ^ 64 := by omega
  · have hle : (i + 1) * index.entryBits ≤ entries.length * index.entryBits := Nat.mul_le_mul_right _ hi
    rw [Nat.add_one_mul] at hle
    omega

namespace GlobalIndexBuilder

variable {builder : GlobalIndexBuilder}

theorem trailingZeros_le (n : Nat) : trailingZeros n ≤ 32 := by
  unfold trailingZeros
  cases hfind : (List.range 32).find? n.testBit with
  | none => exact Nat.le_refl _
  | some k => exact (List.mem_range.mp (List.mem_of_find?_eq_some hfind)).le

theorem segIdBits_fit_iff (files : List FileId) : (∀ seg < files.length, seg < 2 ^ segIdBits files) ↔
    files.length * 2 ^ trailingZeros files.length ≤ 2 ^ 32 := by
  have hfit : (∀ seg < files.length, seg < 2 ^ segIdBits files) ↔ files.length ≤ 2 ^ segIdBits files := by
    refine ⟨fun h => ?_, fun h seg hseg => by omega⟩
    by_contra hlt
    exact lt_irrefl _ (h _ (Nat.lt_of_not_le hlt))
  rw [hfit, segIdBits]
  by_cases hlt : files.length < 2 ^ 32
  · have hzeros := trailingZeros_le files.length
    rw [Nat.mod_eq_of_lt hlt, ← Nat.mul_le_mul_right_iff (Nat.two_pow_pos (trailingZeros files.length)),
      ← Nat.pow_add, Nat.sub_add_cancel hzeros]
  -- The count is truncated, and no width of 32 bits is enough.
  · refine iff_of_false (fun h => ?_) fun h => ?_
    · have hle := h.trans (Nat.pow_le_pow_right (by decide) (Nat.sub_le 32 _))
      have heq : files.length = 2 ^ 32 := by omega
      rw [heq] at h
      exact absurd h (by decide)
    · have heq : files.length = 2 ^ 32 := by
        have hle := (Nat.le_mul_of_pos_right files.length (Nat.two_pow_pos _)).trans h
        omega
      rw [heq] at h
      exact absurd h (by decide)

theorem tableInRange_iff (hrows : builder.numRows < 2 ^ 32) :
    builder.createGlobalIndex.2.TableInRange ↔ builder.numRows < 2 ^ 29 - 4 := by
  have hbuckets : builder.createGlobalIndex.2.numBuckets = 2 ^ Nat.clog 2 (builder.numRows / 4 + 2) := by
    rw [← createGlobalIndex_fst hrows]
    rfl
  rw [GlobalIndex.TableInRange, hbuckets, bucketBits_eq hrows]
  constructor
  · intro h
    by_contra hlarge
    have hclog : 28 ≤ Nat.clog 2 (builder.numRows / 4 + 2) := by
      rw [Nat.succ_le_iff, Nat.lt_clog_iff_pow_lt (by decide)]
      omega
    have hsize : 29 ≤ builder.numRows.size := Nat.lt_size.mpr (by omega)
    have hpow := Nat.pow_le_pow_right (n := 2) (by decide) hclog
    have hmul := Nat.mul_le_mul (Nat.sub_le_sub_right hpow 1) hsize
    omega
  · intro h
    have hclog : Nat.clog 2 (builder.numRows / 4 + 2) ≤ 27 := Nat.clog_le_of_le_pow (by omega)
    have hsize : builder.numRows.size ≤ 29 := Nat.size_le.mpr (by omega)
    have hpow := Nat.pow_le_pow_right (n := 2) (by decide) hclog
    have hmul := Nat.mul_le_mul (Nat.sub_le_sub_right hpow 1) hsize
    omega

/-- Entries of the rows and files that the index is created for. -/
structure Indexes (builder : GlobalIndexBuilder) (entries : List Entry) : Prop where
  count : entries.length ≤ builder.numRows
  sorted : entries.Pairwise (·.1 ≤ ·.1)
  hash : ∀ e ∈ entries, e.1 < 2 ^ 64
  seg : ∀ e ∈ entries, e.2.1 < builder.files.length
  row : ∀ e ∈ entries, e.2.2 < 2 ^ 32

/-- No key is dropped, the file numbers have the width of the index, and no offset in its block is out of range. -/
structure Exact (builder : GlobalIndexBuilder) : Prop where
  injective : Function.Injective splitmix64
  keys : ∀ (sort : UnstableSort) (keys : List Key), ∀ key ∈ keys,
    (key, (splitmix64 key).toNat) ∈ GlobalIndex.prepareHashesForLookup sort keys
  segs : ∀ seg < builder.files.length, seg < 2 ^ builder.createGlobalIndex.2.segIdBits
  addresses : ∀ entries fileId, builder.Indexes entries → Returns (builder.build entries fileId) fun index =>
    ∀ block ∈ index.indexBlocks, index.AddressesInside block entries.length

/-- The addressing is exact for fewer than `2 ^ 29 - 4` rows, and for as many files as, times the largest power of
two that divides them, are at most `2 ^ 32`. -/
theorem createGlobalIndex_exact_iff : ∀ builder : GlobalIndexBuilder, builder.numRows < 2 ^ 32 →
    (builder.Exact ↔ builder.numRows < 2 ^ 29 - 4 ∧
      builder.files.length * 2 ^ trailingZeros builder.files.length ≤ 2 ^ 32) := by
  intro builder hrows
  rw [← tableInRange_iff hrows, ← segIdBits_fit_iff]
  constructor
  · intro h
    refine ⟨?_, h.segs⟩
    obtain ⟨index, hbuild, haddresses⟩ := h.addresses [] 0 ⟨Nat.zero_le _, .nil, nofun, nofun, nofun⟩
    obtain ⟨index', hbuild', block, rfl, -⟩ := build_returns 0 hrows (Nat.zero_le _) .nil nofun
    obtain rfl := Except.ok.inj (hbuild.symm.trans hbuild')
    have hlast := (haddresses block List.mem_cons_self).1 (builder.createGlobalIndex.2.numBuckets - 1)
      (Nat.sub_one_lt (Nat.ne_of_gt (Nat.two_pow_pos _)))
    exact hlast.1
  · rintro ⟨htable, hsegs⟩
    refine ⟨splitmix64_injective, fun sort keys key hkey => GlobalIndex.exists_mem_prepareHashesForLookup sort hkey,
      hsegs, fun entries fileId h => ?_⟩
    refine (build_returns fileId hrows h.count h.sorted fun e he =>
      ⟨h.hash e he, hsegs _ (h.seg e he), h.row e he⟩).mono ?_
    rintro index ⟨block, rfl, hrep⟩ block' hblock
    obtain rfl := List.mem_singleton.mp hblock
    exact hrep.addressesInside htable

theorem createGlobalIndex_exact_iff_twoFiles : Exact ⟨3, [7, 9]⟩ := by
  have hzeros : trailingZeros 2 = 1 := @trailingZeros_two_pow 1 (by decide)
  refine (createGlobalIndex_exact_iff _ (by decide)).mpr ⟨by decide, ?_⟩
  change 2 * 2 ^ trailingZeros 2 ≤ 2 ^ 32
  rw [hzeros]
  decide

/-- The last of 2^17 files has no number of 15 bits. -/
theorem createGlobalIndex_manyFiles : ¬ Exact ⟨3, List.replicate (2 ^ 17) 0⟩ := by
  intro h
  have hlast := h.segs (2 ^ 17 - 1) (by rw [List.length_replicate]; decide)
  have hbits : (createGlobalIndex ⟨3, List.replicate (2 ^ 17) 0⟩).2.segIdBits = 15 := by
    have hzeros : trailingZeros (2 ^ 17) = 17 := trailingZeros_two_pow (by decide)
    simp only [createGlobalIndex, List.length_replicate]
    rw [Nat.mod_eq_of_lt (by decide), hzeros]
  rw [hbits] at hlast
  exact absurd hlast (by decide)

end GlobalIndexBuilder
end Moonlink.Index
