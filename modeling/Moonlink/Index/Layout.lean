-- SUMMARY: What the bits of an index block say, and that the builder writes them.
import Moonlink.Index.GlobalIndex
import Moonlink.Lib.Buckets

namespace Moonlink.Index

open Lib Lib.Bits

namespace GlobalIndex

def bucketOf (index : GlobalIndex) (entry : Entry) : Nat := entry.1 >>> index.hashLowerBits

def entryCode (index : GlobalIndex) (entry : Entry) : List Bool :=
  encode index.hashLowerBits (entry.1 % 2 ^ index.hashLowerBits) ++
    (encode index.segIdBits entry.2.1 ++ encode index.rowIdBits entry.2.2)

def numBuckets (index : GlobalIndex) : Nat := 2 ^ index.hashUpperBits

/-- The first entry of each bucket, and the end of the last one. -/
def bucketTable (index : GlobalIndex) (entries : List Entry) : List Nat :=
  (List.range (index.numBuckets + 1)).map (Buckets.start index.bucketOf entries)

/-- The widths are those of the types that are written. -/
structure Widths (index : GlobalIndex) : Prop where
  upper_lt : index.hashUpperBits < 32
  lower : index.hashLowerBits + index.hashUpperBits = 64
  seg : index.segIdBits ≤ 32
  row : index.rowIdBits = 32
  bucket : index.bucketBits ≤ 32

/-- The fields of the entry can be written. -/
structure Fits (index : GlobalIndex) (entry : Entry) : Prop where
  hash : entry.1 < 2 ^ 64
  seg : entry.2.1 < 2 ^ index.segIdBits
  row : entry.2.2 < 2 ^ 32

structure Represents (index : GlobalIndex) (block : IndexBlock) (entries : List Entry) : Prop where
  blocks : index.indexBlocks = [block]
  widths : index.Widths
  startIdx : block.bucketStartIdx = 0
  endIdx : block.bucketEndIdx = index.numBuckets + 1
  offset : block.bucketStartOffset = entries.length * index.entryBits
  data : ∃ padding, block.data.flatMap Byte.bits =
    entries.flatMap index.entryCode ++
      ((index.bucketTable entries).flatMap (encode index.bucketBits) ++ padding)
  sorted : entries.Pairwise (·.1 ≤ ·.1)
  fits : ∀ entry ∈ entries, index.Fits entry
  count : entries.length < 2 ^ index.bucketBits

variable {index : GlobalIndex} {entries : List Entry}

theorem entryCode_length (index : GlobalIndex) (entry : Entry) :
    (index.entryCode entry).length = index.entryBits := by
  rw [entryCode, List.length_append, List.length_append, encode_length, encode_length,
    encode_length, entryBits, Nat.add_assoc]

theorem bucketOf_mono (index : GlobalIndex) {e e' : Entry} (h : e.1 ≤ e'.1) :
    index.bucketOf e ≤ index.bucketOf e' := by
  rw [bucketOf, bucketOf, Nat.shiftRight_eq_div_pow, Nat.shiftRight_eq_div_pow]
  exact Nat.div_le_div_right h

theorem Widths.shiftRight_lt (hw : index.Widths) {hash : Nat} (h : hash < 2 ^ 64) :
    hash >>> index.hashLowerBits < index.numBuckets := by
  rw [Nat.shiftRight_eq_div_pow, Nat.div_lt_iff_lt_mul (Nat.two_pow_pos _), numBuckets,
    ← Nat.pow_add, Nat.add_comm, hw.lower]
  exact h

theorem Widths.bucketOf_lt (hw : index.Widths) {entry : Entry} (h : index.Fits entry) :
    index.bucketOf entry < index.numBuckets := hw.shiftRight_lt h.hash

theorem Widths.numBuckets_lt (hw : index.Widths) : index.numBuckets < 2 ^ 32 :=
  Nat.pow_lt_pow_right (by decide) hw.upper_lt

theorem sorted_bucketOf (index : GlobalIndex) (h : entries.Pairwise (·.1 ≤ ·.1)) :
    entries.Pairwise (index.bucketOf · ≤ index.bucketOf ·) :=
  h.imp fun hle => index.bucketOf_mono hle

theorem start_lt (hcount : entries.length < 2 ^ index.bucketBits) (b : Nat) :
    Buckets.start index.bucketOf entries b < 2 ^ index.bucketBits :=
  Nat.lt_of_le_of_lt (Buckets.start_le_length entries b) hcount

end GlobalIndex

/-! ## The widths of a new index -/

theorem trailingZeros_two_pow {k : Nat} (h : k < 32) : trailingZeros (2 ^ k) = k := by
  have hfind : (List.range 32).find? (2 ^ k).testBit = some k := by
    rw [List.find?_range_eq_some]
    refine ⟨?_, List.mem_range.mpr h, fun j hj => ?_⟩
    · rw [Nat.testBit_two_pow_self]
    · rw [Nat.testBit_two_pow_of_ne (Nat.ne_of_gt hj)]
      rfl
  rw [trailingZeros, hfind]
  rfl

/-- A number is at least the power of two of its trailing zeros. -/
theorem two_pow_trailingZeros_le {n : Nat} (hpos : 0 < n) (hlt : n < 2 ^ 32) :
    2 ^ trailingZeros n ≤ n := by
  unfold trailingZeros
  cases hfind : (List.range 32).find? n.testBit with
  | some k => exact Nat.ge_two_pow_of_testBit (List.find?_some hfind)
  | none =>
    obtain ⟨i, hi⟩ := Nat.exists_testBit_of_ne_zero (Nat.ne_of_gt hpos)
    have hi32 : i < 32 :=
      (Nat.pow_lt_pow_iff_right (by decide)).mp
        (Nat.lt_of_le_of_lt (Nat.ge_two_pow_of_testBit hi) hlt)
    rw [List.find?_eq_none] at hfind
    exact absurd hi (hfind i (List.mem_range.mpr hi32))

namespace GlobalIndexBuilder

variable {builder : GlobalIndexBuilder}

/-- The width of the file numbers. -/
def segIdBits (files : List FileId) : Nat := 32 - trailingZeros (files.length % 2 ^ 32)

theorem clog_lt (hrows : builder.numRows < 2 ^ 32) : Nat.clog 2 (builder.numRows / 4 + 2) < 32 := by
  have hle : builder.numRows / 4 + 2 ≤ 2 ^ 31 := by omega
  exact Nat.lt_succ_of_le (Nat.clog_le_of_le_pow hle)

theorem createGlobalIndex_fst (hrows : builder.numRows < 2 ^ 32) :
    builder.createGlobalIndex.1 = builder.createGlobalIndex.2.numBuckets := by
  simp only [createGlobalIndex, GlobalIndex.numBuckets, trailingZeros_two_pow (clog_lt hrows)]

theorem createGlobalIndex_widths (hrows : builder.numRows < 2 ^ 32) :
    builder.createGlobalIndex.2.Widths := by
  have hlt := clog_lt hrows
  simp only [createGlobalIndex, trailingZeros_two_pow hlt]
  refine ⟨hlt, ?_, Nat.sub_le .., rfl, Nat.sub_le ..⟩
  simp only
  omega

theorem bucketBits_eq (hrows : builder.numRows < 2 ^ 32) :
    builder.createGlobalIndex.2.bucketBits = builder.numRows.size := by
  have hsize : builder.numRows.size ≤ 32 := Nat.size_le.mpr hrows
  simp only [createGlobalIndex, leadingZeros]
  omega

theorem createGlobalIndex_count (hrows : builder.numRows < 2 ^ 32) :
    builder.numRows < 2 ^ builder.createGlobalIndex.2.bucketBits := by
  rw [bucketBits_eq hrows]
  exact Nat.lt_size_self _

end GlobalIndexBuilder

/-! ## Writing -/

namespace BitWriter

variable {w w' : BitWriter} {bits : List Bool}

/-- The room that some bits take. -/
theorem Appends.buffered_le (h : w.Appends bits w') (hqueue : w.bitqueue.length < bitqueueSize)
    {n : Nat} (hbits : bits.length ≤ 8 * n) : w'.buffered.length ≤ w.buffered.length + n := by
  have hlen := h.length
  unfold bitqueueSize at hqueue
  omega

/-- One field, with the flush that it asks for. -/
theorem write_flush_returns (h : w.Settled) {typeBits width value : Nat} (hwidth : width ≤ typeBits)
    (htype : width ≤ 64) (hvalue : value < 2 ^ width) :
    Returns (do
        let (w, toFlush) ← w.write typeBits width value
        return if toFlush then w.flush else w) fun w' =>
      w'.Settled ∧ w'.output = w.output ++ encode width value := by
  have hqueue := h.wf.queue
  have hbuffered := h.buffered
  unfold bitqueueSize at hqueue
  unfold bufferSize at hbuffered
  refine (write_returns h.wf hwidth hvalue (by unfold bufferSize; omega)).bind ?_
  rintro ⟨w', toFlush⟩ ⟨happ, hflag⟩
  have hle : w'.buffered.length ≤ w.buffered.length + 8 :=
    happ.buffered_le h.wf.queue (by rw [encode_length]; omega)
  refine .pure ⟨flush_settled happ.wf (by simp only [bufferSize]; omega) ?_, ?_⟩
  · exact hflag.trans ⟨And.right, fun hlt => ⟨Nat.lt_of_le_of_lt h.buffered hlt, hlt⟩⟩
  · rw [ite_flush_output, happ.output]

end BitWriter

namespace IndexBlockBuilder

variable {b : IndexBlockBuilder} {index : GlobalIndex} {es : List Entry}

theorem advanceTo_returns {bucket : Nat} (hle : b.currentBucket ≤ bucket)
    (hlt : bucket < b.buckets.length) :
    Returns (b.advanceTo bucket) fun b' => ∃ buckets,
      b' = { b with currentBucket := bucket, buckets } ∧ buckets.length = b.buckets.length ∧
      ∀ j, buckets[j]? =
        if b.currentBucket < j ∧ j ≤ bucket then some b.currentEntry else b.buckets[j]? := by
  induction b using advanceTo.induct bucket with
  | case1 b heq =>
    rw [advanceTo, if_pos heq]
    refine .ok ⟨b.buckets, by rw [heq], rfl, fun j => ?_⟩
    rw [if_neg (by omega)]
  | case2 b hne hroom ih =>
    rw [advanceTo, if_neg hne, if_pos hroom]
    refine (ih (by simp only; omega) (by simpa using hlt)).mono ?_
    rintro _ ⟨buckets, rfl, hlen, hget⟩
    refine ⟨buckets, rfl, by rw [hlen, List.length_set], fun j => ?_⟩
    rw [hget j, List.getElem?_set]
    simp only
    by_cases hj : b.currentBucket + 1 = j
    · rw [if_neg (by omega), if_pos hj, if_pos (by omega), if_pos (by omega)]
    · rw [if_neg hj]
      exact if_congr (by omega) rfl rfl
  | case3 b hne hfull => exact absurd hlt (by omega)

/-- The state of the builder after the entries `es`. -/
structure Built (index : GlobalIndex) (fileId : FileId) (es : List Entry)
    (b : IndexBlockBuilder) : Prop where
  startIdx : b.bucketStartIdx = 0
  endIdx : b.bucketEndIdx = index.numBuckets + 1
  indexFile : b.indexFile = fileId
  settled : b.entryWriter.Settled
  output : b.entryWriter.output = es.flatMap index.entryCode
  currentEntry : b.currentEntry = es.length
  length : b.buckets.length = index.numBuckets + 1
  bucket_lt : b.currentBucket < index.numBuckets
  current : b.currentBucket = 0 ∨ ∃ e ∈ es, index.bucketOf e = b.currentBucket
  reached : ∀ e ∈ es, index.bucketOf e ≤ b.currentBucket
  buckets : ∀ j ≤ b.currentBucket, b.buckets[j]? = some (Buckets.start index.bucketOf es j)

theorem new_built (index : GlobalIndex) (fileId : FileId) :
    Built index fileId [] (new 0 (index.numBuckets + 1) fileId) where
  startIdx := rfl
  endIdx := rfl
  indexFile := rfl
  settled := BitWriter.new_settled
  output := rfl
  currentEntry := rfl
  length := List.length_replicate
  bucket_lt := Nat.two_pow_pos _
  current := .inl rfl
  reached := fun _ he => (List.not_mem_nil he).elim
  buckets := by
    intro j hj
    rw [Nat.le_zero.mp hj]
    rfl

/-- The three fields of an entry, and what is done after them. -/
theorem writeFields_returns {w : BitWriter} (hw : index.Widths) {e : Entry} (he : index.Fits e)
    (hset : w.Settled) {β : Type} {k : BitWriter × Bool → Except IndexPanic β} {Q : β → Prop}
    (hk : ∀ r, (if r.2 then r.1.flush else r.1).Settled →
      (if r.2 then r.1.flush else r.1).output = w.output ++ index.entryCode e → Returns (k r) Q) :
    Returns (do
        let (w, _) ← w.write 64 index.hashLowerBits (e.1 &&& ((1 <<< index.hashLowerBits) - 1))
        let (w, _) ← w.write 32 index.segIdBits (e.2.1 % 2 ^ 32)
        let r ← w.write 32 index.rowIdBits (e.2.2 % 2 ^ 32)
        k r) Q := by
  have hlower := hw.lower
  have hseg := hw.seg
  have hbuffered := hset.buffered
  have hq := hset.wf.queue
  have hhash : e.1 &&& ((1 <<< index.hashLowerBits) - 1) = e.1 % 2 ^ index.hashLowerBits := by
    rw [Nat.one_shiftLeft, Nat.and_two_pow_sub_one_eq_mod]
  have hseg32 : e.2.1 % 2 ^ 32 = e.2.1 :=
    Nat.mod_eq_of_lt (Nat.lt_of_lt_of_le he.seg (Nat.pow_le_pow_right (by decide) hseg))
  rw [hhash, hseg32, Nat.mod_eq_of_lt he.row, hw.row]
  unfold BitWriter.bitqueueSize at hq
  unfold BitWriter.bufferSize at hbuffered
  refine (BitWriter.write_returns hset.wf (by omega) (Nat.mod_lt _ (Nat.two_pow_pos _))
    (by unfold BitWriter.bufferSize; omega)).bind ?_
  rintro ⟨w₁, _⟩ ⟨happ₁, -⟩
  have hle₁ : w₁.buffered.length ≤ w.buffered.length + 8 :=
    happ₁.buffered_le hset.wf.queue (by rw [encode_length]; omega)
  have hq₁ : w₁.bitqueue.length < 8 := happ₁.wf.queue
  refine (BitWriter.write_returns happ₁.wf hseg he.seg
    (by simp only [BitWriter.bufferSize]; omega)).bind ?_
  rintro ⟨w₂, _⟩ ⟨happ₂, -⟩
  have hle₂ : w₂.buffered.length ≤ w₁.buffered.length + 4 :=
    happ₂.buffered_le happ₁.wf.queue (by rw [encode_length]; omega)
  have hq₂ : w₂.bitqueue.length < 8 := happ₂.wf.queue
  refine (BitWriter.write_returns happ₂.wf (Nat.le_refl 32) he.row
    (by simp only [BitWriter.bufferSize]; omega)).bind ?_
  rintro ⟨w₃, toFlush⟩ ⟨happ₃, hflag⟩
  have hle₃ : w₃.buffered.length ≤ w₂.buffered.length + 4 :=
    happ₃.buffered_le happ₂.wf.queue (by rw [encode_length])
  -- The last field fills whole bytes, so it reports what the first two have spilled.
  have hmore : w₂.buffered.length < w₃.buffered.length := by
    have hlen : 8 * w₃.buffered.length + w₃.bitqueue.length = _ := happ₃.length
    have hq₃ : w₃.bitqueue.length < 8 := happ₃.wf.queue
    rw [encode_length] at hlen
    simp only at hlen
    omega
  refine hk _ (BitWriter.flush_settled happ₃.wf (by simp only [BitWriter.bufferSize]; omega) ?_) ?_
  · exact hflag.trans ⟨And.right, fun hlt => ⟨hmore, hlt⟩⟩
  · rw [BitWriter.ite_flush_output, ((happ₁.trans happ₂).trans happ₃).output,
      GlobalIndex.entryCode, hw.row, List.append_assoc]

theorem checkedU32_eq_ok {n : Nat} (h : n < 2 ^ 32) : checkedU32 n = .ok n := if_pos h

variable {fileId : FileId}

/-- Going to the bucket of the next entry. -/
theorem Built.advanceTo (hb : Built index fileId es b) {bucket : Nat}
    (hle : b.currentBucket ≤ bucket) (hlt : bucket < index.numBuckets) :
    Returns (b.advanceTo bucket) fun b' => ∃ buckets,
      b' = { b with currentBucket := bucket, buckets } ∧ buckets.length = index.numBuckets + 1 ∧
      ∀ j ≤ bucket, buckets[j]? = some (Buckets.start index.bucketOf es j) := by
  have hlen := hb.length
  refine (advanceTo_returns hle (by omega)).mono ?_
  rintro _ ⟨buckets, rfl, hlen', hget⟩
  refine ⟨buckets, rfl, hlen'.trans hlen, fun j hj => ?_⟩
  rw [hget j]
  by_cases hnew : b.currentBucket < j
  · have hall := Buckets.start_eq_length (b := j)
      fun e he => Nat.lt_of_le_of_lt (hb.reached e he) hnew
    rw [if_pos ⟨hnew, hj⟩, hall, hb.currentEntry]
  · rw [if_neg fun h => hnew h.1]
    exact hb.buckets j (Nat.le_of_not_lt hnew)

theorem ite_flush (b : IndexBlockBuilder) (toFlush : Bool) :
    (if toFlush then b.flush else b) =
      { b with entryWriter := if toFlush then b.entryWriter.flush else b.entryWriter } := by
  cases toFlush <;> rfl

theorem appendEntry_returns (hw : index.Widths) (hb : Built index fileId es b)
    {e : Entry} (he : index.Fits e) (hle : ∀ e' ∈ es, e'.1 ≤ e.1) (hcount : es.length + 1 < 2 ^ 32) :
    Returns (b.appendEntry index e) (Built index fileId (es ++ [e])) := by
  have hcur : b.currentBucket ≤ index.bucketOf e := by
    rcases hb.current with h | ⟨e', he', h⟩
    · rw [h]
      exact Nat.zero_le _
    · rw [← h]
      exact index.bucketOf_mono (hle e' he')
  unfold appendEntry writeEntry
  simp only [bind_assoc]
  refine (hb.advanceTo hcur (hw.bucketOf_lt he)).bind ?_
  rintro _ ⟨buckets, rfl, hlen, hget⟩
  refine writeFields_returns hw he hb.settled ?_
  rintro ⟨w, toFlush⟩ hsettled houtput
  simp only [hb.currentEntry, checkedU32_eq_ok hcount, ok_bind, pure_bind]
  refine .pure ?_
  have hstart : ∀ j ≤ index.bucketOf e,
      Buckets.start index.bucketOf (es ++ [e]) j = Buckets.start index.bucketOf es j :=
    fun j hj => Buckets.start_append_of_le hj
  rw [ite_flush]
  exact {
    startIdx := hb.startIdx
    endIdx := hb.endIdx
    indexFile := hb.indexFile
    settled := hsettled
    output := by
      rw [List.flatMap_append, List.flatMap_singleton, ← hb.output]
      exact houtput
    currentEntry := by rw [List.length_append, List.length_singleton]
    length := hlen
    bucket_lt := hw.bucketOf_lt he
    current := .inr ⟨e, List.mem_append_right _ (List.mem_singleton_self e), rfl⟩
    reached := by
      intro e' he'
      cases List.mem_append.mp he' with
      | inl h => exact index.bucketOf_mono (hle e' h)
      | inr h => rw [List.mem_singleton.mp h]
    buckets := fun j hj => by rw [hstart j hj]; exact hget j hj }

/-- All entries, in the order of their hashes. -/
theorem foldlM_appendEntry_returns (hw : index.Widths) {entries : List Entry}
    (hsorted : entries.Pairwise (·.1 ≤ ·.1)) (hfits : ∀ e ∈ entries, index.Fits e)
    (hcount : entries.length < 2 ^ 32) :
    Returns (entries.foldlM (appendEntry index) (new 0 (index.numBuckets + 1) fileId))
      (Built index fileId entries) := by
  refine Returns.foldlM (new_built index fileId) ?_
  intro done e rest b heq hb
  rw [heq] at hsorted hfits hcount
  refine appendEntry_returns hw hb (hfits e (by simp)) ?_ ?_
  · intro e' he'
    exact (List.pairwise_append.mp hsorted).2.2 e' he' e List.mem_cons_self
  · rw [List.length_append, List.length_cons] at hcount
    omega

theorem setBuckets_returns (value : Nat) (n : Nat) :
    ∀ (first : Nat) (buckets : List Nat), first + n ≤ buckets.length →
      Returns ((List.range' first n).foldlM (setBucket value) buckets) fun buckets' =>
        buckets'.length = buckets.length ∧
        ∀ j, buckets'[j]? = if first ≤ j ∧ j < first + n then some value else buckets[j]? := by
  induction n with
  | zero =>
    intro first buckets _
    exact .pure ⟨rfl, fun j => (if_neg (by omega)).symm⟩
  | succ n ih =>
    intro first buckets hle
    rw [List.range'_succ, List.foldlM_cons, setBucket, if_pos (by omega), ok_bind]
    refine (ih (first + 1) _ (by rw [List.length_set]; omega)).mono ?_
    rintro buckets' ⟨hlen, hget⟩
    refine ⟨by rw [hlen, List.length_set], fun j => ?_⟩
    rw [hget j, List.getElem?_set]
    by_cases hj : first = j
    · rw [if_neg (by omega), if_pos hj, if_pos (by omega), if_pos (by omega)]
    · rw [if_neg hj]
      exact if_congr (by omega) rfl rfl

/-- The buckets after the last entry are empty. -/
theorem Built.buckets_eq (hb : Built index fileId es b) {buckets : List Nat}
    (hget : ∀ j, buckets[j]? = if b.currentBucket + 1 ≤ j ∧ j < index.numBuckets + 1 then
      some b.currentEntry else b.buckets[j]?) :
    buckets = index.bucketTable es := by
  refine List.ext_getElem? fun j => ?_
  rw [hget j, GlobalIndex.bucketTable, List.getElem?_map]
  by_cases hj : j < index.numBuckets + 1
  · rw [List.getElem?_range hj, Option.map_some]
    by_cases hnew : b.currentBucket + 1 ≤ j
    · have hall := Buckets.start_eq_length (b := j)
        fun e he => Nat.lt_of_le_of_lt (hb.reached e he) hnew
      rw [if_pos ⟨hnew, hj⟩, hall, hb.currentEntry]
    · rw [if_neg fun h => hnew h.1]
      exact hb.buckets j (by omega)
  · rw [if_neg fun h => hj h.2, List.getElem?_eq_none (by rw [hb.length]; omega),
      List.getElem?_eq_none (by rw [List.length_range]; omega)]
    rfl

theorem writeBuckets_returns (hw : index.Widths) {buckets : List Nat}
    (hfits : ∀ bucket ∈ buckets, bucket < 2 ^ index.bucketBits) {w : BitWriter} (hset : w.Settled) :
    Returns (buckets.foldlM (writeBucket index) w) fun w' =>
      w'.Settled ∧ w'.output = w.output ++ buckets.flatMap (encode index.bucketBits) := by
  have hbits := hw.bucket
  refine Returns.foldlM
    (I := fun done (w' : BitWriter) => w'.Settled ∧
      w'.output = w.output ++ done.flatMap (encode index.bucketBits))
    ⟨hset, (List.append_nil _).symm⟩ ?_
  intro done bucket rest w' heq ⟨hset', houtput⟩
  refine (BitWriter.write_flush_returns hset' hbits (by omega) (hfits bucket (by simp [heq]))).mono ?_
  rintro w'' ⟨hset'', houtput'⟩
  refine ⟨hset'', ?_⟩
  rw [houtput', houtput, List.flatMap_append, List.flatMap_singleton, List.append_assoc]

/-- What the block has after all entries. -/
theorem build_returns (hw : index.Widths) (hb : Built index fileId es b)
    (hcount : es.length < 2 ^ index.bucketBits) :
    Returns (b.build index) fun block => block.bucketStartIdx = 0 ∧
      block.bucketEndIdx = index.numBuckets + 1 ∧
      block.bucketStartOffset = es.length * index.entryBits ∧
      ∃ padding, block.data.flatMap Byte.bits = es.flatMap index.entryCode ++
        ((index.bucketTable es).flatMap (encode index.bucketBits) ++ padding) := by
  have hlt := hb.bucket_lt
  have hsum : b.currentBucket + 1 + (b.bucketEndIdx - (b.currentBucket + 1)) =
      index.numBuckets + 1 := by
    rw [hb.endIdx]
    omega
  refine (setBuckets_returns _ _ _ _ (by rw [hsum, hb.length])).bind ?_
  rintro buckets ⟨-, hget⟩
  rw [hsum] at hget
  rw [hb.buckets_eq hget]
  have hfits : ∀ bucket ∈ index.bucketTable es, bucket < 2 ^ index.bucketBits := by
    intro bucket hmem
    obtain ⟨j, -, rfl⟩ := List.mem_map.mp hmem
    exact GlobalIndex.start_lt hcount j
  refine (writeBuckets_returns hw hfits hb.settled).bind ?_
  rintro w ⟨hset, houtput⟩
  refine (BitWriter.close_returns hset).bind ?_
  rintro data ⟨n, hdata⟩
  refine .pure ⟨hb.startIdx, hb.endIdx, by rw [hb.currentEntry], List.replicate n false, ?_⟩
  rw [hdata, houtput, hb.output, List.append_assoc]

/-- The index of the entries that were written. -/
theorem Built.represents (hw : index.Widths) (hb : Built index fileId es b)
    (hsorted : es.Pairwise (·.1 ≤ ·.1)) (hfits : ∀ e ∈ es, index.Fits e)
    (hcount : es.length < 2 ^ index.bucketBits) :
    Returns (b.build index) fun block =>
      ({ index with indexBlocks := [block] } : GlobalIndex).Represents block es := by
  refine (build_returns hw hb hcount).mono ?_
  rintro block ⟨hstart, hend, hoffset, hdata⟩
  exact {
    blocks := rfl
    widths := ⟨hw.upper_lt, hw.lower, hw.seg, hw.row, hw.bucket⟩
    startIdx := hstart
    endIdx := hend
    offset := hoffset
    data := hdata
    sorted := hsorted
    fits := fun e he => ⟨(hfits e he).hash, (hfits e he).seg, (hfits e he).row⟩
    count := hcount }

end IndexBlockBuilder

namespace GlobalIndexBuilder

variable {builder : GlobalIndexBuilder}

/-- An index of the given rows, if they are not too many for the row count. -/
theorem build_returns {entries : List Entry} (fileId : FileId) (hrows : builder.numRows < 2 ^ 32)
    (hcount : entries.length ≤ builder.numRows) (hsorted : entries.Pairwise (·.1 ≤ ·.1))
    (hfits : ∀ e ∈ entries, builder.createGlobalIndex.2.Fits e) :
    Returns (builder.build entries fileId) fun index => ∃ block,
      index = { builder.createGlobalIndex.2 with indexBlocks := [block] } ∧
      index.Represents block entries := by
  have hw := createGlobalIndex_widths hrows
  unfold build
  simp only
  rw [createGlobalIndex_fst hrows]
  refine (IndexBlockBuilder.foldlM_appendEntry_returns hw hsorted hfits (by omega)).bind ?_
  intro b hb
  have hlt := Nat.lt_of_le_of_lt hcount (createGlobalIndex_count hrows)
  refine (hb.represents hw hsorted hfits hlt).bind ?_
  intro block hblock
  exact .pure ⟨block, rfl, hblock⟩

end GlobalIndexBuilder
end Moonlink.Index
