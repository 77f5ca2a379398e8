-- SUMMARY: Lookups and iterators read exactly the entries of an index; the round trip of a flushed index.
import Mathlib.Data.List.TakeWhile
import Moonlink.Index.Layout

namespace Moonlink.Index

open Lib Lib.Bits

/-! ## Hashes -/

/-- A difference that is equal to its own shift is zero. -/
theorem xorShift_injective {k : Nat} (hk : 0 < k) :
    Function.Injective fun z : Key => z ^^^ (z >>> k) := by
  intro x y heq
  have hdiff : x ^^^ y = (x ^^^ y) >>> k := by
    have heq : x ^^^ x >>> k = y ^^^ y >>> k := heq
    rw [BitVec.ushiftRight_xor_distrib]
    calc x ^^^ y = (x ^^^ x >>> k) ^^^ (x >>> k ^^^ y) := by
          rw [BitVec.xor_assoc, ← BitVec.xor_assoc (x >>> k), BitVec.xor_self, BitVec.zero_xor]
      _ = (y ^^^ y >>> k) ^^^ (x >>> k ^^^ y) := by rw [heq]
      _ = x >>> k ^^^ y >>> k := by
          rw [BitVec.xor_comm (x >>> k) y, BitVec.xor_comm y (y >>> k), BitVec.xor_assoc,
            ← BitVec.xor_assoc y, BitVec.xor_self, BitVec.zero_xor, BitVec.xor_comm]
  have hzero : (x ^^^ y).toNat = 0 := by
    have hnat := congrArg BitVec.toNat hdiff
    rw [BitVec.toNat_ushiftRight, Nat.shiftRight_eq_div_pow] at hnat
    by_contra hne
    exact absurd hnat (Nat.ne_of_gt (Nat.div_lt_self (Nat.pos_of_ne_zero hne)
      (Nat.one_lt_two_pow (Nat.ne_of_gt hk))))
  exact BitVec.xor_eq_zero_iff.mp (BitVec.eq_of_toNat_eq hzero)

theorem mul_injective (c c' : Key) (h : c * c' = 1#64) : Function.Injective (· * c : Key → Key) := by
  intro x y heq
  have heq' : x * c * c' = y * c * c' := congrArg (· * c') heq
  rwa [BitVec.mul_assoc, BitVec.mul_assoc, h, BitVec.mul_one, BitVec.mul_one] at heq'

theorem splitmix64_injective : Function.Injective splitmix64 := by
  have hadd : Function.Injective (· + 0x9E3779B97F4A7C15#64 : Key → Key) :=
    fun x y h => (BitVec.add_left_inj _).mp h
  have hmul₁ := mul_injective 0xBF58476D1CE4E5B9#64 0x96DE1B173F119089#64 (by decide)
  have hmul₂ := mul_injective 0x94D049BB133111EB#64 0x319642B2D24D8EC3#64 (by decide)
  exact (xorShift_injective (by decide)).comp <| hmul₂.comp <|
    (xorShift_injective (by decide)).comp <| hmul₁.comp <|
    (xorShift_injective (by decide)).comp hadd

/-! ## Reading fields -/

theorem readUnsignedVar_encode {typeBits width n : Nat} (hwidth : width ≤ typeBits)
    (h : n < 2 ^ width) (rest : List Bool) :
    readUnsignedVar typeBits width (encode width n ++ rest) = .ok (n, rest) := by
  rw [readUnsignedVar, IndexPanic.assert, if_pos (decide_eq_true hwidth), ok_bind,
    read_encode_append h]
  rfl

namespace GlobalIndex

variable {index : GlobalIndex} {block : IndexBlock} {entries : List Entry} {e : Entry}

theorem readEntry_code (hw : index.Widths) (he : index.Fits e) (rest : List Bool) :
    readEntry index (index.entryCode e ++ rest) =
      .ok ((e.1 % 2 ^ index.hashLowerBits, e.2.1, e.2.2), rest) := by
  have hlower := hw.lower
  have hrow : e.2.2 < 2 ^ index.rowIdBits := by
    rw [hw.row]
    exact he.row
  have hhash : e.1 % 2 ^ index.hashLowerBits < 2 ^ index.hashLowerBits :=
    Nat.mod_lt _ (Nat.two_pow_pos _)
  simp only [readEntry, entryCode, List.append_assoc, ok_bind,
    readUnsignedVar_encode (show index.hashLowerBits ≤ 64 by omega) hhash,
    readUnsignedVar_encode hw.seg he.seg, readUnsignedVar_encode (Nat.le_of_eq hw.row) hrow]
  rfl

/-- The entries from the `i`-th on. -/
theorem Represents.seekBits_entry (h : index.Represents block entries) {i : Nat}
    (hi : i ≤ entries.length) :
    ∃ rest, block.seekBits (i * index.entryBits) =
      (entries.drop i).flatMap index.entryCode ++ rest := by
  obtain ⟨padding, hdata⟩ := h.data
  exact ⟨_, by rw [IndexBlock.seekBits, hdata, drop_flatMap_append index.entryCode_length _ hi]⟩

theorem bucketTable_length (index : GlobalIndex) (entries : List Entry) :
    (index.bucketTable entries).length = index.numBuckets + 1 := by
  rw [bucketTable, List.length_map, List.length_range]

variable {b : Nat}

theorem bucketTable_drop (index : GlobalIndex) (entries : List Entry)
    (hb : b ≤ index.numBuckets) :
    (index.bucketTable entries).drop b =
      Buckets.start index.bucketOf entries b :: (index.bucketTable entries).drop (b + 1) := by
  have hlt : b < (index.bucketTable entries).length := by
    rw [bucketTable_length]
    exact Nat.lt_succ_of_le hb
  rw [List.drop_eq_getElem_cons hlt]
  simp only [bucketTable, List.getElem_map, List.getElem_range]

/-- The starts of the buckets from the `b`-th on. -/
theorem Represents.seekBits_bucket (h : index.Represents block entries)
    (hb : b ≤ index.numBuckets) :
    ∃ rest, block.seekBits (b * index.bucketBits + block.bucketStartOffset) =
      ((index.bucketTable entries).drop b).flatMap (encode index.bucketBits) ++ rest := by
  obtain ⟨padding, hdata⟩ := h.data
  have hlen := flatMap_length index.entryCode_length entries
  refine ⟨padding, ?_⟩
  rw [IndexBlock.seekBits, hdata, Nat.add_comm, ← List.drop_drop, h.offset,
    List.drop_left' hlen, drop_flatMap_append (encode_length _) _ ?_]
  rw [bucketTable_length]
  omega

/-- A bucket that is not empty, as the lookup sees it. -/
def bucketEntry (index : GlobalIndex) (entries : List Entry) (b : Nat) : Option BucketEntry :=
  if Buckets.start index.bucketOf entries b ≠ Buckets.start index.bucketOf entries (b + 1) then
    some ⟨b <<< index.hashLowerBits, Buckets.start index.bucketOf entries b,
      Buckets.start index.bucketOf entries (b + 1)⟩
  else none

theorem Widths.shiftLeft_lt (hw : index.Widths) (hb : b < index.numBuckets) :
    b <<< index.hashLowerBits < 2 ^ 64 := by
  rw [Nat.shiftLeft_eq, ← hw.lower, Nat.add_comm, Nat.pow_add]
  exact Nat.mul_lt_mul_of_pos_right hb (Nat.two_pow_pos _)

theorem Represents.readBucket_eq (h : index.Represents block entries)
    (hb : b < index.numBuckets) (hoffset : b * index.bucketBits < 2 ^ 32) :
    block.readBucket index b = .ok (index.bucketEntry entries b) := by
  have hbits := h.widths.bucket
  obtain ⟨rest, hseek⟩ := h.seekBits_bucket (Nat.le_of_lt hb)
  rw [bucketTable_drop index entries (Nat.le_of_lt hb), bucketTable_drop index entries hb,
    List.flatMap_cons, List.flatMap_cons, List.append_assoc, List.append_assoc] at hseek
  simp only [IndexBlock.readBucket, IndexBlockBuilder.checkedU32_eq_ok hoffset, ok_bind, hseek,
    readUnsignedVar_encode hbits (start_lt h.count _),
    Nat.mod_eq_of_lt (h.widths.shiftLeft_lt hb)]
  rfl

theorem Represents.readBuckets_eq (h : index.Represents block entries) {bs : List Nat}
    (hbs : ∀ b ∈ bs, b < index.numBuckets ∧ b * index.bucketBits < 2 ^ 32) :
    block.readBuckets index bs = .ok (bs.filterMap (index.bucketEntry entries)) := by
  rw [IndexBlock.readBuckets, mapM_eq_ok fun b hb => h.readBucket_eq (hbs b hb).1 (hbs b hb).2,
    ok_bind, List.filterMap_map]
  rfl

/-! ## Looking up buckets -/

/-- The hash is put together from its bucket and its lower bits. -/
theorem or_shiftLeft_bucketOf (index : GlobalIndex) (e : Entry) :
    e.1 % 2 ^ index.hashLowerBits ||| index.bucketOf e <<< index.hashLowerBits = e.1 := by
  rw [Nat.lor_comm, ← Nat.shiftLeft_add_eq_or_of_lt (Nat.mod_lt _ (Nat.two_pow_pos _)), bucketOf,
    Nat.shiftLeft_eq, Nat.shiftRight_eq_div_pow, Nat.mul_comm, Nat.div_add_mod]

/-- The entry at a position between two bucket starts. -/
theorem Represents.entry_in_bucket (h : index.Represents block entries) {b c : Nat}
    (hge : Buckets.start index.bucketOf entries b ≤ c)
    (hlt : c < Buckets.start index.bucketOf entries (b + 1)) :
    ∃ e, entries.drop c = e :: entries.drop (c + 1) ∧ index.Fits e ∧ index.bucketOf e = b := by
  have hc : c < entries.length := Nat.lt_of_lt_of_le hlt (Buckets.start_le_length ..)
  have hget : entries[c]? = some entries[c] := List.getElem?_eq_getElem hc
  refine ⟨entries[c], List.drop_eq_getElem_cons hc, h.fits _ (List.getElem_mem hc), ?_⟩
  have hsorted := sorted_bucketOf index h.sorted
  have hupper := (Buckets.lt_start_iff hsorted hget (b + 1)).mp hlt
  have hlower := mt (Buckets.lt_start_iff hsorted hget b).mpr (Nat.not_lt.mpr hge)
  omega

/-- From an entry of a bucket on, the iterator returns the others of the bucket. -/
theorem Represents.lookup_bucket (h : index.Represents block entries)
    {rest : List BucketEntry} {as : List Entry}
    (hrest : ∀ c reader, Yields (LookupIterator.next block index)
      (LookupIterator.seekToBucketEntryStart block index ⟨rest, c, reader⟩) as)
    (start n : Nat) : ∀ c tail,
      c + n = Buckets.start index.bucketOf entries (b + 1) →
      Buckets.start index.bucketOf entries b ≤ c →
      Yields (LookupIterator.next block index)
        ⟨⟨b <<< index.hashLowerBits, start, Buckets.start index.bucketOf entries (b + 1)⟩ :: rest, c,
          (entries.drop c).flatMap index.entryCode ++ tail⟩
        ((entries.drop c).take n ++ as) := by
  induction n with
  | zero =>
    intro c tail hc _
    rw [List.take_zero, List.nil_append]
    refine (hrest c ((entries.drop c).flatMap index.entryCode ++ tail)).of_next_eq ?_
    rw [LookupIterator.next, if_neg (by simp only; omega)]
  | succ n ih =>
    intro c tail hc hge
    obtain ⟨e, hdrop, he, hbucket⟩ := h.entry_in_bucket hge (by omega)
    rw [hdrop, List.take_succ_cons, List.cons_append, List.flatMap_cons, List.append_assoc]
    refine .cons ?_ (ih (c + 1) tail (by omega) (by omega))
    rw [LookupIterator.next, if_pos (by simp only; omega), readEntry_code h.widths he, ok_bind,
      ← hbucket]
    simp only [or_shiftLeft_bucketOf]
    rfl

/-- The entries of the given buckets, one bucket after the other. -/
theorem Represents.lookup_buckets (h : index.Represents block entries) (bs : List Nat)
    (c : Nat) (reader : BitReader) :
    Yields (LookupIterator.next block index)
      (LookupIterator.seekToBucketEntryStart block index
        ⟨bs.filterMap (index.bucketEntry entries), c, reader⟩)
      (bs.flatMap fun b => entries.filter (index.bucketOf · = b)) := by
  have hsorted := sorted_bucketOf index h.sorted
  induction bs generalizing c reader with
  | nil =>
    refine .nil ?_
    rw [List.filterMap_nil, LookupIterator.seekToBucketEntryStart, LookupIterator.next]
  | cons b bs ih =>
    rw [List.flatMap_cons, ← Buckets.take_drop_start hsorted b]
    have hmono : Buckets.start index.bucketOf entries b ≤ _ :=
      Buckets.start_mono entries (Nat.le_succ b)
    by_cases hempty :
        Buckets.start index.bucketOf entries b ≠ Buckets.start index.bucketOf entries (b + 1)
    · obtain ⟨tail, hseek⟩ := h.seekBits_entry (Buckets.start_le_length entries b)
      have hbucket := h.lookup_bucket ih (Buckets.start index.bucketOf entries b) _ _ tail
        (Nat.add_sub_cancel' hmono) (Nat.le_refl _)
      have hentry : index.bucketEntry entries b = some _ := if_pos hempty
      rw [← hseek] at hbucket
      rw [List.filterMap_cons_some hentry]
      exact hbucket
    · have hentry : index.bucketEntry entries b = none := if_neg hempty
      rw [List.filterMap_cons_none hentry, of_not_not hempty, Nat.sub_self,
        List.take_zero, List.nil_append]
      exact ih c reader

/-- As many entries as the bounds of the buckets say. -/
theorem Represents.lookup_length (h : index.Represents block entries) (bs : List Nat) :
    (bs.flatMap fun b => entries.filter (index.bucketOf · = b)).length =
      ((bs.filterMap (index.bucketEntry entries)).map
        fun bucket => bucket.entryEnd - bucket.entryStart).sum := by
  have hsorted := sorted_bucketOf index h.sorted
  induction bs with
  | nil => rfl
  | cons b bs ih =>
    have hle : Buckets.start index.bucketOf entries (b + 1) ≤ entries.length :=
      Buckets.start_le_length ..
    have hlen : (entries.filter (index.bucketOf · = b)).length =
        Buckets.start index.bucketOf entries (b + 1) - Buckets.start index.bucketOf entries b := by
      rw [← Buckets.take_drop_start hsorted b, List.length_take, List.length_drop]
      omega
    rw [List.flatMap_cons, List.length_append, ih, hlen]
    by_cases hempty :
        Buckets.start index.bucketOf entries b ≠ Buckets.start index.bucketOf entries (b + 1)
    · have hentry : index.bucketEntry entries b = some _ := if_pos hempty
      rw [List.filterMap_cons_some hentry, List.map_cons, List.sum_cons]
    · have hentry : index.bucketEntry entries b = none := if_neg hempty
      rw [List.filterMap_cons_none hentry, of_not_not hempty, Nat.sub_self, Nat.zero_add]

/-! ## Matching entries with lookups -/

/-- What a lookup of the hashes returns for an entry. -/
def answer (files : List FileId) (lookups : List (Key × Nat)) (e : Entry) :
    List (Key × RecordLocation) :=
  match files[e.2.1]? with
  | none => []
  | some fileId =>
    (lookups.filter (·.2 = e.1)).map fun lookup => (lookup.1, .diskFile fileId e.2.2)

theorem filter_dropWhile_eq (lookups : List (Key × Nat)) {hash hash' : Nat} (h : hash ≤ hash') :
    (lookups.dropWhile (·.2 < hash)).filter (·.2 = hash') = lookups.filter (·.2 = hash') := by
  have hnone : (lookups.takeWhile (·.2 < hash)).filter (·.2 = hash') = [] := by
    rw [List.filter_eq_nil_iff]
    intro lookup hmem
    have hlt := of_decide_eq_true (List.all_eq_true.mp List.all_takeWhile lookup hmem)
    rw [decide_eq_true_eq]
    omega
  calc (lookups.dropWhile (·.2 < hash)).filter (·.2 = hash')
      = (lookups.takeWhile (·.2 < hash)).filter (·.2 = hash') ++
          (lookups.dropWhile (·.2 < hash)).filter (·.2 = hash') := by rw [hnone, List.nil_append]
    _ = lookups.filter (·.2 = hash') := by
        rw [← List.filter_append, List.takeWhile_append_dropWhile]

theorem answer_dropWhile (files : List FileId) (lookups : List (Key × Nat)) {hash : Nat}
    (h : hash ≤ e.1) :
    answer files (lookups.dropWhile (·.2 < hash)) e = answer files lookups e := by
  unfold answer
  rw [filter_dropWhile_eq lookups h]

/-- Of strictly sorted lookups only the first that is not skipped can match. -/
theorem filter_eq_of_sorted {lookup : Key × Nat} {rest : List (Key × Nat)} {hash : Nat}
    (hsorted : (lookup :: rest).Pairwise (·.2 < ·.2)) (hle : hash ≤ lookup.2) :
    (lookup :: rest).filter (·.2 = hash) = if lookup.2 = hash then [lookup] else [] := by
  have hrest : rest.filter (·.2 = hash) = [] := by
    rw [List.filter_eq_nil_iff]
    intro lookup' hmem
    have hlt := List.rel_of_pairwise_cons hsorted hmem
    rw [decide_eq_true_eq]
    omega
  rw [List.filter_cons, hrest]
  simp only [decide_eq_true_eq]

variable {lookups : List (Key × Nat)}

theorem lookupEntry_eq (hfile : e.2.1 < index.files.length)
    (results : List (Key × RecordLocation)) (hsorted : lookups.Pairwise (·.2 < ·.2)) :
    IndexBlock.lookupEntry index (results, lookups) e =
      .ok (results ++ answer index.files lookups e, lookups.dropWhile (·.2 < e.1)) := by
  have hget : index.files[e.2.1]? = some index.files[e.2.1] := List.getElem?_eq_getElem hfile
  have hsorted' := hsorted.sublist (List.dropWhile_sublist (·.2 < e.1))
  rw [← answer_dropWhile index.files lookups (Nat.le_refl e.1)]
  unfold IndexBlock.lookupEntry answer
  simp only [hget]
  cases hdrop : lookups.dropWhile (·.2 < e.1) with
  | nil => simp
  | cons lookup rest =>
    have hle : e.1 ≤ lookup.2 := by
      have hhead := List.head?_dropWhile_not (fun l : Key × Nat => decide (l.2 < e.1)) lookups
      rw [hdrop, List.head?_cons] at hhead
      simpa using hhead
    rw [hdrop] at hsorted'
    rw [filter_eq_of_sorted hsorted' hle]
    obtain ⟨value, hash⟩ := lookup
    by_cases heq : hash = e.1
    · simp only [if_pos heq, List.map_cons, List.map_nil]
    · simp only [if_neg heq, List.map_nil, List.append_nil]

/-- The walk over sorted entries and sorted lookups finds every match. -/
theorem foldlM_lookupEntry {es : List Entry} (hfiles : ∀ e ∈ es, e.2.1 < index.files.length)
    (hes : es.Pairwise (·.1 ≤ ·.1)) (results : List (Key × RecordLocation))
    (hsorted : lookups.Pairwise (·.2 < ·.2)) :
    ∃ rest, es.foldlM (IndexBlock.lookupEntry index) (results, lookups) =
      .ok (results ++ es.flatMap (answer index.files lookups), rest) := by
  induction es generalizing results lookups with
  | nil => exact ⟨lookups, by rw [List.flatMap_nil, List.append_nil]; rfl⟩
  | cons e es ih =>
    obtain ⟨hle, hes⟩ := List.pairwise_cons.mp hes
    obtain ⟨rest, hrest⟩ := ih (fun e' he' => hfiles e' (List.mem_cons_of_mem _ he')) hes
      (results ++ answer index.files lookups e) (hsorted.sublist (List.dropWhile_sublist (·.2 < e.1)))
    refine ⟨rest, ?_⟩
    have hanswers : es.flatMap (answer index.files (lookups.dropWhile (·.2 < e.1))) =
        es.flatMap (answer index.files lookups) :=
      List.flatMap_congr fun e' he' => answer_dropWhile _ _ (hle e' he')
    rw [List.foldlM_cons, lookupEntry_eq (hfiles e List.mem_cons_self) results hsorted, ok_bind,
      hrest, hanswers, List.flatMap_cons, List.append_assoc]

/-! ## Searching -/

/-- Lookups as they are prepared, in buckets whose offset has 32 bits. -/
structure Prepared (index : GlobalIndex) (lookups : List (Key × Nat)) : Prop where
  nonempty : lookups ≠ []
  sorted : lookups.Pairwise (·.2 < ·.2)
  hash_lt : ∀ lookup ∈ lookups, lookup.2 < 2 ^ 64
  offset_lt : ∀ lookup ∈ lookups, lookup.2 >>> index.hashLowerBits * index.bucketBits < 2 ^ 32

theorem upperHash_eq (hw : index.Widths) {hash : Nat} (h : hash < 2 ^ 64) :
    index.upperHash hash = hash >>> index.hashLowerBits :=
  Nat.mod_eq_of_lt (Nat.lt_trans (hw.shiftRight_lt h) hw.numBuckets_lt)

/-- The buckets that a lookup reads. -/
def lookupBuckets (index : GlobalIndex) (lookups : List (Key × Nat)) : List Nat :=
  dedupByKey id (lookups.map fun lookup => lookup.2 >>> index.hashLowerBits)

theorem Prepared.map_upperHash (hw : index.Widths) (hl : index.Prepared lookups) :
    lookups.map (fun lookup => index.upperHash lookup.2) =
      lookups.map fun lookup => lookup.2 >>> index.hashLowerBits :=
  List.map_congr_left fun lookup hmem => upperHash_eq hw (hl.hash_lt lookup hmem)

theorem Prepared.lookupBuckets_sorted (hl : index.Prepared lookups) :
    (index.lookupBuckets lookups).Pairwise (· < ·) := by
  refine dedupByKey_strictlySorted ?_
  rw [List.pairwise_map]
  refine hl.sorted.imp fun {lookup lookup'} hlt => ?_
  show lookup.2 >>> _ ≤ lookup'.2 >>> _
  rw [Nat.shiftRight_eq_div_pow, Nat.shiftRight_eq_div_pow]
  exact Nat.div_le_div_right (Nat.le_of_lt hlt)

/-- Every bucket is one of a lookup. -/
theorem Prepared.lookupBuckets_lt (hw : index.Widths) (hl : index.Prepared lookups) :
    ∀ b ∈ index.lookupBuckets lookups,
      b < index.numBuckets ∧ b * index.bucketBits < 2 ^ 32 := by
  intro b hb
  obtain ⟨lookup, hmem, rfl⟩ := List.mem_map.mp ((dedupByKey_sublist _).subset hb)
  exact ⟨hw.shiftRight_lt (hl.hash_lt lookup hmem), hl.offset_lt lookup hmem⟩

/-- An entry in another bucket has no answer. -/
theorem answer_eq_nil {files : List FileId}
    (h : index.bucketOf e ∉ index.lookupBuckets lookups) : answer files lookups e = [] := by
  have hnone : lookups.filter (·.2 = e.1) = [] := by
    rw [List.filter_eq_nil_iff]
    intro lookup hmem heq
    obtain ⟨b, hb, hkey⟩ :
        ∃ b ∈ index.lookupBuckets lookups, b = lookup.2 >>> index.hashLowerBits :=
      exists_mem_dedupByKey (List.mem_map_of_mem hmem)
    rw [of_decide_eq_true heq] at hkey
    subst hkey
    exact h hb
  unfold answer
  rw [hnone]
  cases files[e.2.1]? <;> rfl

/-- The entries in the buckets of a lookup. -/
def lookupEntries (index : GlobalIndex) (entries : List Entry) (lookups : List (Key × Nat)) :
    List Entry :=
  (index.lookupBuckets lookups).flatMap fun b => entries.filter (index.bucketOf · = b)

theorem lookupEntries_subset
    (he : e ∈ index.lookupEntries entries lookups) : e ∈ entries := by
  obtain ⟨b, _, hmem⟩ := List.mem_flatMap.mp he
  exact (List.mem_filter.mp hmem).1

theorem Prepared.lookupEntries_sorted (hsorted : entries.Pairwise (·.1 ≤ ·.1))
    (hl : index.Prepared lookups) :
    (index.lookupEntries entries lookups).Pairwise (·.1 ≤ ·.1) := by
  rw [lookupEntries, List.pairwise_flatMap]
  refine ⟨fun b _ => hsorted.filter _, hl.lookupBuckets_sorted.imp ?_⟩
  intro b b' hlt e he e' he'
  have hb := of_decide_eq_true (List.mem_filter.mp he).2
  have hb' := of_decide_eq_true (List.mem_filter.mp he').2
  refine Nat.le_of_not_lt fun hgt => ?_
  have hmono := index.bucketOf_mono (Nat.le_of_lt hgt)
  omega

theorem flatMap_filter_of_eq_nil {α β : Type} {p : α → Bool} {f : α → List β} {as : List α}
    (h : ∀ a, p a = false → f a = []) : (as.filter p).flatMap f = as.flatMap f := by
  induction as with
  | nil => rfl
  | cons a as ih =>
    rw [List.filter_cons, List.flatMap_cons]
    cases ha : p a with
    | true => rw [if_pos rfl, List.flatMap_cons, ih]
    | false => rw [if_neg Bool.false_ne_true, ih, h a ha, List.nil_append]

theorem Prepared.flatMap_answer_perm (hl : index.Prepared lookups) (files : List FileId) :
    ((index.lookupEntries entries lookups).flatMap (answer files lookups)).Perm
      (entries.flatMap (answer files lookups)) := by
  have hnodup : (index.lookupBuckets lookups).Nodup :=
    hl.lookupBuckets_sorted.imp Nat.ne_of_lt
  refine ((Buckets.flatMap_filter_perm entries hnodup).flatMap_right _).trans (.of_eq ?_)
  exact flatMap_filter_of_eq_nil fun e he => answer_eq_nil (of_decide_eq_false he)

theorem Represents.read_eq (h : index.Represents block entries)
    (hfiles : ∀ e ∈ entries, e.2.1 < index.files.length) (hl : index.Prepared lookups) :
    block.read index lookups (lookups.map fun lookup => lookup.2 >>> index.hashLowerBits) =
      .ok ((index.lookupEntries entries lookups).flatMap (answer index.files lookups)) := by
  have hyields : Yields _ _ (index.lookupEntries entries lookups) :=
    h.lookup_buckets (index.lookupBuckets lookups) 0 (block.seekBits 0)
  have hlen : (index.lookupEntries entries lookups).length = _ :=
    h.lookup_length (index.lookupBuckets lookups)
  obtain ⟨rest, hfold⟩ := foldlM_lookupEntry
    (fun e he => hfiles e (lookupEntries_subset he)) (hl.lookupEntries_sorted h.sorted) [] hl.sorted
  unfold IndexBlock.read
  rw [show dedupByKey id _ = index.lookupBuckets lookups from rfl,
    h.readBuckets_eq (hl.lookupBuckets_lt h.widths), ok_bind]
  simp only [LookupIterator.new]
  rw [hyields.forEach_eq (Nat.lt_succ_of_le (Nat.le_of_eq hlen)), hfold]
  rfl

theorem skipLookups_zero (h : lookups ≠ []) :
    index.skipLookups 0 lookups = .ok lookups := by
  cases lookups with
  | nil => exact absurd rfl h
  | cons lookup rest => rw [skipLookups, if_neg (Nat.not_lt_zero _)]

/-- A lookup finds the entries of all its hashes. -/
theorem Represents.searchValues_returns (h : index.Represents block entries)
    (hfiles : ∀ e ∈ entries, e.2.1 < index.files.length) (hl : index.Prepared lookups) :
    Returns (index.searchValues lookups) fun results =>
      results.Perm (entries.flatMap (answer index.files lookups)) := by
  have hinBlock : lookups.takeWhile
      (fun lookup => decide (index.upperHash lookup.2 < block.bucketEndIdx)) = lookups := by
    rw [List.takeWhile_eq_self_iff]
    intro lookup hmem
    have hlt := hl.hash_lt lookup hmem
    rw [decide_eq_true_eq, upperHash_eq h.widths hlt, h.endIdx]
    exact Nat.lt_succ_of_lt (h.widths.shiftRight_lt hlt)
  refine ⟨_, ?_, hl.flatMap_answer_perm index.files⟩
  rw [searchValues, h.blocks]
  simp only [List.foldlM_cons, List.foldlM_nil, searchBlock, h.startIdx,
    skipLookups_zero hl.nonempty, hinBlock, hl.map_upperHash h.widths, h.read_eq hfiles hl, ok_bind]
  rfl

/-! ## Iterating -/

/-- The iterator is in bucket `b`, before the `i`-th entry. -/
structure IteratorAt (index : GlobalIndex) (entries : List Entry) (b i : Nat)
    (it : IndexBlockIterator) : Prop where
  currentBucket : it.currentBucket = b
  bucket_lt : b < index.numBuckets
  currentBucketEntryEnd : it.currentBucketEntryEnd = Buckets.start index.bucketOf entries (b + 1)
  currentEntry : it.currentEntry = i
  ge : Buckets.start index.bucketOf entries b ≤ i
  le : i ≤ Buckets.start index.bucketOf entries (b + 1)
  currentUpperHash : it.currentUpperHash = b <<< index.hashLowerBits
  bucketReader : ∃ rest, it.bucketReader =
    ((index.bucketTable entries).drop (b + 2)).flatMap (encode index.bucketBits) ++ rest
  entryReader : ∃ rest, it.entryReader = (entries.drop i).flatMap index.entryCode ++ rest

theorem Represents.newIterator_returns (h : index.Represents block entries) :
    Returns (IndexBlockIterator.new block index) (index.IteratorAt entries 0 0) := by
  have hbits := h.widths.bucket
  have hpos : 0 < index.numBuckets := Nat.two_pow_pos _
  obtain ⟨rest, hseek⟩ := h.seekBits_bucket (Nat.zero_le _)
  obtain ⟨tail, hentries⟩ := h.seekBits_entry (Nat.zero_le _)
  rw [Nat.zero_mul, Nat.zero_add, bucketTable_drop index entries (Nat.zero_le _),
    bucketTable_drop index entries hpos, List.flatMap_cons, List.flatMap_cons, List.append_assoc,
    List.append_assoc] at hseek
  rw [Nat.zero_mul] at hentries
  unfold IndexBlockIterator.new
  simp only [hseek, readUnsignedVar_encode hbits (start_lt h.count _), ok_bind]
  refine .pure {
    currentBucket := h.startIdx
    bucket_lt := hpos
    currentBucketEntryEnd := rfl
    currentEntry := rfl
    ge := Nat.le_of_eq (Buckets.start_zero entries)
    le := Nat.zero_le _
    currentUpperHash := by simp
    bucketReader := ⟨rest, rfl⟩
    entryReader := ⟨tail, hentries⟩ }

/-- Past the last entry of a bucket the iterator goes on to the next bucket. -/
theorem Represents.skipBuckets_returns (h : index.Represents block entries) {i : Nat} (n : Nat) :
    ∀ b it, b + n + 1 = index.numBuckets → index.IteratorAt entries b i it →
      Returns (it.skipBuckets block index) fun r =>
        match r with
        | none => i = entries.length
        | some it' => ∃ b', index.IteratorAt entries b' i it' ∧
            i < Buckets.start index.bucketOf entries (b' + 1) := by
  have hend := h.endIdx
  have hbits := h.widths.bucket
  induction n with
  | zero =>
    intro b it hb hat
    have hlast : Buckets.start index.bucketOf entries (b + 1) = entries.length :=
      Buckets.start_eq_length fun e he => by
        rw [show b + 1 = index.numBuckets by omega]
        exact h.widths.bucketOf_lt (h.fits e he)
    have hlt := h.widths.numBuckets_lt
    rw [IndexBlockIterator.skipBuckets, hat.currentEntry, hat.currentBucketEntryEnd,
      hat.currentBucket]
    by_cases heq : i = Buckets.start index.bucketOf entries (b + 1)
    · rw [if_pos heq, dif_pos (by omega), if_pos (by omega)]
      exact .ok (heq.trans hlast)
    · rw [if_neg heq]
      exact .ok ⟨b, hat, Nat.lt_of_le_of_ne hat.le heq⟩
  | succ n ih =>
    intro b it hb hat
    have hlt := h.widths.numBuckets_lt
    rw [IndexBlockIterator.skipBuckets, hat.currentEntry, hat.currentBucketEntryEnd,
      hat.currentBucket]
    by_cases heq : i = Buckets.start index.bucketOf entries (b + 1)
    · obtain ⟨rest, hreader⟩ := hat.bucketReader
      rw [bucketTable_drop index entries (by omega), List.flatMap_cons, List.append_assoc] at hreader
      rw [if_pos heq, dif_pos (by omega), if_neg (by omega), hreader,
        readUnsignedVar_encode hbits (start_lt h.count _), ok_bind]
      refine ih (b + 1) _ (by omega) {
        currentBucket := rfl
        bucket_lt := by omega
        currentBucketEntryEnd := rfl
        currentEntry := rfl
        ge := Nat.le_of_eq heq.symm
        le := heq ▸ Buckets.start_mono entries (Nat.le_succ _)
        currentUpperHash := ?_
        bucketReader := ⟨rest, rfl⟩
        entryReader := hat.entryReader }
      rw [hat.currentUpperHash, Nat.shiftLeft_eq, Nat.shiftLeft_eq, Nat.shiftLeft_eq, Nat.one_mul,
        Nat.succ_mul]
    · rw [if_neg heq]
      exact .ok ⟨b, hat, Nat.lt_of_le_of_ne hat.le heq⟩

/-- An entry with the new number of its file. -/
def remapEntry (fileIdRemap : List Nat) (e : Entry) : Entry :=
  (e.1, fileIdRemap.getD e.2.1 0, e.2.2)

/-- The files of all entries have a new number. -/
def Remaps (fileIdRemap : List Nat) (entries : List Entry) : Prop :=
  ∀ e ∈ entries, ∃ segIdx, fileIdRemap[e.2.1]? = some segIdx ∧ segIdx ≠ invalidFileId

variable {fileIdRemap : List Nat}

/-- From its position on the iterator returns the other entries. -/
theorem Represents.blockIterator_yields (h : index.Represents block entries)
    (hremap : Remaps fileIdRemap entries) (n : Nat) :
    ∀ b i it, i + n = entries.length → index.IteratorAt entries b i it →
      Yields (IndexBlockIterator.next block index fileIdRemap) it
        ((entries.drop i).map (remapEntry fileIdRemap)) := by
  have hcount : entries.length < 2 ^ 32 :=
    Nat.lt_of_lt_of_le h.count (Nat.pow_le_pow_right (by decide) h.widths.bucket)
  induction n with
  | zero =>
    intro b i it hi hat
    have hbucket := hat.bucket_lt
    rw [List.drop_of_length_le (by omega), List.map_nil]
    refine .nil ?_
    obtain ⟨r, hskip, hr⟩ :=
      h.skipBuckets_returns (index.numBuckets - b - 1) b it (by omega) hat
    rw [IndexBlockIterator.next, if_neg (by rw [hat.currentBucket, h.endIdx]; omega), hskip, ok_bind]
    cases r with
    | none => rfl
    | some it' =>
      obtain ⟨b', _, hlt⟩ := hr
      have hle : Buckets.start index.bucketOf entries (b' + 1) ≤ entries.length :=
        Buckets.start_le_length ..
      omega
  | succ n ih =>
    intro b i it hi hat
    have hbucket := hat.bucket_lt
    obtain ⟨r, hskip, hr⟩ :=
      h.skipBuckets_returns (index.numBuckets - b - 1) b it (by omega) hat
    cases r with
    | none =>
      simp only at hr
      omega
    | some it' =>
      obtain ⟨b', hat', hlt⟩ := hr
      obtain ⟨e, hdrop, he, hb'⟩ := h.entry_in_bucket hat'.ge hlt
      obtain ⟨tail, hreader⟩ := hat'.entryReader
      have hmem : e ∈ entries := List.mem_of_mem_drop (hdrop ▸ List.mem_cons_self)
      obtain ⟨segIdx, hseg, hvalid⟩ := hremap e hmem
      have hhash : e.1 % 2 ^ index.hashLowerBits + b' <<< index.hashLowerBits = e.1 := by
        rw [← hb', bucketOf, Nat.shiftLeft_eq, Nat.shiftRight_eq_div_pow, Nat.mul_comm,
          Nat.mod_add_div]
      rw [hdrop, List.map_cons]
      rw [hdrop, List.flatMap_cons, List.append_assoc] at hreader
      have hat'' : index.IteratorAt entries b' (i + 1) { it' with
          currentEntry := i + 1
          entryReader := (entries.drop (i + 1)).flatMap index.entryCode ++ tail } := {
        currentBucket := hat'.currentBucket
        bucket_lt := hat'.bucket_lt
        currentBucketEntryEnd := hat'.currentBucketEntryEnd
        currentEntry := rfl
        ge := Nat.le_succ_of_le hat'.ge
        le := hlt
        currentUpperHash := hat'.currentUpperHash
        bucketReader := hat'.bucketReader
        entryReader := ⟨tail, rfl⟩ }
      refine .cons ?_ (ih b' (i + 1) _ (by omega) hat'')
      rw [IndexBlockIterator.next, if_neg (by rw [hat.currentBucket, h.endIdx]; omega), hskip,
        ok_bind]
      simp only [hreader, readEntry_code h.widths he, ok_bind, hat'.currentEntry,
        IndexBlockBuilder.checkedU32_eq_ok (show i + 1 < 2 ^ 32 by omega), hseg,
        IndexPanic.assert, hvalid, ne_eq, not_false_eq_true, decide_true, if_true,
        hat'.currentUpperHash, hhash]
      rw [remapEntry, List.getD_eq_getElem?_getD, hseg]
      rfl

/-- The iterator of an index with one block is that of the block. -/
theorem iterator_yields_of_block {it : IndexBlockIterator}
    {es : List Entry} (h : Yields (IndexBlockIterator.next block index fileIdRemap) it es) :
    Yields GlobalIndexIterator.next ⟨index, fileIdRemap, some (block, it), []⟩ es := by
  induction h with
  | nil h =>
    refine .nil ?_
    rw [GlobalIndexIterator.next, GlobalIndexIterator.nextInBlock]
    simp only [h, ok_bind]
    rfl
  | cons h _ ih =>
    refine .cons ?_ ih
    rw [GlobalIndexIterator.next, GlobalIndexIterator.nextInBlock]
    simp only [h, ok_bind]
    rfl

/-- The iterator returns every entry once, in the order of the hashes. -/
theorem Represents.iterator_returns (h : index.Represents block entries)
    (hremap : Remaps fileIdRemap entries) :
    Returns (GlobalIndexIterator.new index fileIdRemap) fun it =>
      Yields GlobalIndexIterator.next it (entries.map (remapEntry fileIdRemap)) := by
  unfold GlobalIndexIterator.new
  rw [h.blocks]
  refine h.newIterator_returns.bind fun it hat => .pure ?_
  exact iterator_yields_of_block
    (h.blockIterator_yields hremap entries.length 0 0 it (Nat.zero_add _) hat)

/-! ## Lookups by key -/

variable {keys : List Key}

/-- The hashes of keys, as they are looked up. -/
theorem mem_prepareHashesForLookup (sort : UnstableSort) {lookup : Key × Nat}
    (h : lookup ∈ prepareHashesForLookup sort keys) :
    lookup.1 ∈ keys ∧ lookup.2 = (splitmix64 lookup.1).toNat := by
  have hmem := (sort.perm _ _).mem_iff.mp ((dedupByKey_sublist _).subset h)
  obtain ⟨key, hkey, rfl⟩ := List.mem_map.mp hmem
  exact ⟨hkey, rfl⟩

theorem prepareHashesForLookup_sorted (sort : UnstableSort) (keys : List Key) :
    (prepareHashesForLookup sort keys).Pairwise (·.2 < ·.2) :=
  dedupByKey_strictlySorted (sort.sorted _ _)

theorem exists_mem_prepareHashesForLookup (sort : UnstableSort) {key : Key}
    (h : key ∈ keys) :
    (key, (splitmix64 key).toNat) ∈ prepareHashesForLookup sort keys := by
  have hmem : (key, (splitmix64 key).toNat) ∈
      sort.sort Prod.snd (keys.map fun value => (value, (splitmix64 value).toNat)) :=
    (sort.perm _ _).mem_iff.mpr (List.mem_map_of_mem h)
  obtain ⟨⟨key', hash'⟩, hlookup, hkey⟩ : ∃ lookup ∈ prepareHashesForLookup sort keys,
      lookup.2 = (splitmix64 key).toNat := exists_mem_dedupByKey hmem
  obtain ⟨-, hhash⟩ := mem_prepareHashesForLookup sort hlookup
  -- Keys with the same hash are the same.
  have heq : key' = key :=
    splitmix64_injective (BitVec.eq_of_toNat_eq (hhash.symm.trans hkey))
  simp only at hkey
  rwa [heq, hkey] at hlookup

/-- The offsets of all buckets have 32 bits. -/
def TableInRange (index : GlobalIndex) : Prop := (index.numBuckets - 1) * index.bucketBits < 2 ^ 32

theorem prepared_of_keys (sort : UnstableSort) (hkeys : keys ≠ [])
    (hw : index.Widths) (htable : index.TableInRange) :
    index.Prepared (prepareHashesForLookup sort keys) where
  nonempty := by
    refine dedupByKey_ne_nil fun hnil => hkeys ?_
    have hperm := sort.perm Prod.snd (keys.map fun value => (value, (splitmix64 value).toNat))
    rw [hnil] at hperm
    exact List.map_eq_nil_iff.mp hperm.nil_eq.symm
  sorted := prepareHashesForLookup_sorted sort keys
  hash_lt := by
    intro lookup hmem
    rw [(mem_prepareHashesForLookup sort hmem).2]
    exact BitVec.isLt _
  offset_lt := by
    intro lookup hmem
    have hlt : lookup.2 < 2 ^ 64 := by
      rw [(mem_prepareHashesForLookup sort hmem).2]
      exact BitVec.isLt _
    have hb := hw.shiftRight_lt hlt
    exact Nat.lt_of_le_of_lt (Nat.mul_le_mul_right _ (by omega)) htable

theorem filter_prepareHashesForLookup (sort : UnstableSort) (keys : List Key) (key : Key) :
    (prepareHashesForLookup sort keys).filter (·.2 = (splitmix64 key).toNat) =
      if key ∈ keys then [(key, (splitmix64 key).toNat)] else [] := by
  by_cases hmem : key ∈ keys
  · rw [if_pos hmem]
    have hsorted := (prepareHashesForLookup_sorted sort keys).filter
      fun lookup => decide (lookup.2 = (splitmix64 key).toNat)
    have hself : (key, (splitmix64 key).toNat) ∈
        (prepareHashesForLookup sort keys).filter (·.2 = (splitmix64 key).toNat) :=
      List.mem_filter.mpr ⟨exists_mem_prepareHashesForLookup sort hmem, decide_eq_true rfl⟩
    have hall : ∀ lookup ∈
        (prepareHashesForLookup sort keys).filter (·.2 = (splitmix64 key).toNat),
        lookup.2 = (splitmix64 key).toNat :=
      fun lookup h => of_decide_eq_true (List.mem_filter.mp h).2
    -- Hashes that increase and are all equal are at most one.
    match hlist : (prepareHashesForLookup sort keys).filter (·.2 = (splitmix64 key).toNat) with
    | [] => exact absurd (hlist ▸ hself) List.not_mem_nil
    | [lookup] =>
      rw [hlist] at hself
      rw [List.mem_singleton.mp hself]
      exact hlist
    | lookup :: lookup' :: rest =>
      rw [hlist] at hsorted hall
      have hlt := List.rel_of_pairwise_cons hsorted List.mem_cons_self
      have heq := hall lookup List.mem_cons_self
      have heq' := hall lookup' (List.mem_cons_of_mem _ List.mem_cons_self)
      omega
  · rw [if_neg hmem, List.filter_eq_nil_iff]
    intro lookup hlookup heq
    obtain ⟨hkey, hhash⟩ := mem_prepareHashesForLookup sort hlookup
    have heq : lookup.1 = key :=
      splitmix64_injective (BitVec.eq_of_toNat_eq (hhash.symm.trans (of_decide_eq_true heq)))
    exact hmem (heq ▸ hkey)

/-- The lookup of keys answers for the entries of the keys. -/
theorem answer_prepareHashesForLookup (sort : UnstableSort) (keys : List Key)
    (files : List FileId) (key : Key) (seg : Nat × Nat) :
    answer files (prepareHashesForLookup sort keys) ((splitmix64 key).toNat, seg) =
      if key ∈ keys then
        (files[seg.1]?.map fun fileId => (key, RecordLocation.diskFile fileId seg.2)).toList
      else [] := by
  unfold answer
  simp only [filter_prepareHashesForLookup]
  cases files[seg.1]? with
  | none => simp
  | some fileId =>
    by_cases hmem : key ∈ keys
    · simp [if_pos hmem]
    · simp [if_neg hmem]

/-- All entries of the looked up keys. -/
theorem flatMap_answer_keys (sort : UnstableSort) (keys : List Key) {files : List FileId}
    {rows : List (Key × Nat × Nat)} (hsegs : ∀ row ∈ rows, row.2.1 < files.length) :
    (rows.map fun row => ((splitmix64 row.1).toNat, row.2)).flatMap
        (answer files (prepareHashesForLookup sort keys)) =
      (rows.filter (·.1 ∈ keys)).map
        fun row => (row.1, RecordLocation.diskFile (files.getD row.2.1 0) row.2.2) := by
  rw [List.flatMap_map]
  induction rows with
  | nil => rfl
  | cons row rows ih =>
    have hseg := hsegs row List.mem_cons_self
    rw [List.flatMap_cons, ih fun row' h => hsegs row' (List.mem_cons_of_mem _ h),
      answer_prepareHashesForLookup, List.getElem?_eq_getElem hseg, List.filter_cons]
    by_cases hmem : row.1 ∈ keys
    · rw [if_pos hmem, if_pos (decide_eq_true hmem), List.map_cons,
        List.getD_eq_getElem?_getD, List.getElem?_eq_getElem hseg]
      rfl
    · rw [if_neg hmem, if_neg (by simpa using hmem), List.nil_append]

end GlobalIndex

/-! ## The round trip -/

namespace GlobalIndexBuilder

/-- Up to 2^16 files have numbers that fit. -/
theorem lt_two_pow_segIdBits {files : List FileId} (hfiles : files.length ≤ 2 ^ 16) {segIdx : Nat}
    (hseg : segIdx < files.length) : segIdx < 2 ^ segIdBits files := by
  have hlt : files.length < 2 ^ 32 := by omega
  have hmod : files.length % 2 ^ 32 = files.length := Nat.mod_eq_of_lt hlt
  have hle := two_pow_trailingZeros_le (by omega) hlt
  have hbits : trailingZeros files.length ≤ 16 :=
    (Nat.pow_le_pow_iff_right (by decide)).mp (Nat.le_trans hle hfiles)
  have hpow : 2 ^ 16 ≤ 2 ^ segIdBits files := by
    refine Nat.pow_le_pow_right (by decide) ?_
    rw [segIdBits, hmod]
    omega
  omega

/-- An index that was flushed answers lookups and is iterated with its rows. -/
theorem buildFromFlush_roundTrip (sort : UnstableSort) (files : List FileId)
    (rows : List (Key × Nat × Nat)) (fileId : FileId)
    (hcount : rows.length < 2 ^ 32) (hfiles : files.length ≤ 2 ^ 16)
    (hsegs : ∀ row ∈ rows, row.2.1 < files.length) (hrows : ∀ row ∈ rows, row.2.2 < 2 ^ 32)
    (htable : (createGlobalIndex ⟨rows.length, files⟩).2.TableInRange) :
    Returns (buildFromFlush sort files rows fileId) fun index =>
      (∀ (lookupSort : UnstableSort) (keys : List Key), keys ≠ [] →
        Returns (index.searchValues (GlobalIndex.prepareHashesForLookup lookupSort keys))
          fun results => results.Perm ((rows.filter (·.1 ∈ keys)).map
            fun row => (row.1, .diskFile (files.getD row.2.1 0) row.2.2))) ∧
      ∀ fileIdRemap : List Nat, files.length ≤ fileIdRemap.length → invalidFileId ∉ fileIdRemap →
        Returns (GlobalIndexIterator.new index fileIdRemap) fun it => ∃ entries,
          Yields GlobalIndexIterator.next it entries ∧
          entries.Perm (rows.map fun row =>
            ((splitmix64 row.1).toNat, fileIdRemap.getD row.2.1 0, row.2.2)) ∧
          entries.Pairwise (·.1 ≤ ·.1) := by
  have hmod : rows.length % 2 ^ 32 = rows.length := Nat.mod_eq_of_lt hcount
  have hperm := sort.perm Prod.fst (rows.map fun row => ((splitmix64 row.1).toNat, row.2))
  have hrow : ∀ e ∈ sort.sort Prod.fst (rows.map fun row => ((splitmix64 row.1).toNat, row.2)),
      ∃ row ∈ rows, ((splitmix64 row.1).toNat, row.2) = e :=
    fun e he => List.mem_map.mp (hperm.mem_iff.mp he)
  have hlen := hperm.length_eq
  rw [List.length_map] at hlen
  unfold buildFromFlush
  simp only [hmod]
  refine (build_returns fileId hcount (Nat.le_of_eq hlen) (sort.sorted _ _) ?_).mono ?_
  · intro e he
    obtain ⟨row, hmem, rfl⟩ := hrow e he
    exact ⟨BitVec.isLt _, lt_two_pow_segIdBits hfiles (hsegs row hmem), hrows row hmem⟩
  rintro index ⟨block, hindex, hrep⟩
  have hindexFiles : index.files = files := by rw [hindex]; rfl
  have hrange : index.TableInRange := by rw [hindex]; exact htable
  refine ⟨fun lookupSort keys hkeys => ?_, fun fileIdRemap hlength hvalid => ?_⟩
  · refine (hrep.searchValues_returns ?_
      (GlobalIndex.prepared_of_keys lookupSort hkeys hrep.widths hrange)).mono ?_
    · intro e he
      obtain ⟨row, hmem, rfl⟩ := hrow e he
      rw [hindexFiles]
      exact hsegs row hmem
    · intro results hresults
      rw [hindexFiles] at hresults
      rw [← GlobalIndex.flatMap_answer_keys lookupSort keys hsegs]
      exact hresults.trans (hperm.flatMap_right _)
  · refine (hrep.iterator_returns ?_).mono fun it hyields => ⟨_, hyields, ?_, ?_⟩
    · intro e he
      obtain ⟨row, hmem, rfl⟩ := hrow e he
      have hlt : row.2.1 < fileIdRemap.length := Nat.lt_of_lt_of_le (hsegs row hmem) hlength
      refine ⟨_, List.getElem?_eq_getElem hlt, fun heq => hvalid ?_⟩
      exact heq ▸ List.getElem_mem hlt
    · refine (hperm.map _).trans ?_
      rw [List.map_map]
      exact .refl _
    · rw [List.pairwise_map]
      exact hrep.sorted

/-- Two files, and a key with a row in each of them. -/
theorem buildFromFlush_roundTrip_twoFiles :
    Returns (buildFromFlush .stable [7, 9] [(5, 0, 1), (5, 1, 0), (8, 1, 2)] 3) fun index =>
      Returns (index.searchValues (GlobalIndex.prepareHashesForLookup .stable [5, 6, 5]))
        fun results => results.Perm [(5, .diskFile 7 1), (5, .diskFile 9 0)] := by
  have htable : (createGlobalIndex ⟨3, [7, 9]⟩).2.TableInRange := by
    have hclog : Nat.clog 2 (3 / 4 + 2) = 1 := by
      rw [Nat.clog_eq_one (by decide) (by decide)]
    simp only [createGlobalIndex, GlobalIndex.TableInRange, GlobalIndex.numBuckets, hclog]
    decide
  refine (buildFromFlush_roundTrip .stable [7, 9] [(5, 0, 1), (5, 1, 0), (8, 1, 2)] 3 (by decide)
    (by decide) (by decide) (by decide) htable).mono fun index h => ?_
  exact h.1 .stable [5, 6, 5] (by decide)

end GlobalIndexBuilder
end Moonlink.Index
