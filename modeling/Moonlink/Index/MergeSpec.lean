-- SUMMARY: Merging indices: when the merged index can be built and answers lookups, and that its answers are those of the merged indices.
import Mathlib.Algebra.Order.Group.Nat
import Moonlink.Index.LookupSpec

namespace Moonlink.Index

open Lib Lib.Bits

/-- An index of the given entries, as the builders make it. -/
structure GlobalIndex.Holds (index : GlobalIndex) (entries : List Entry) : Prop where
  represents : ∃ block, index.Represents block entries
  segs : ∀ e ∈ entries, e.2.1 < index.files.length
  numRows_lt : index.numRows < 2 ^ 32
  count : entries.length ≤ index.numRows
  upperBits : index.hashUpperBits = Nat.clog 2 (index.numRows / 4 + 2)
  bucketBits : index.bucketBits = index.numRows.size

/-! ## The merged entries -/

/-- The files are numbered from `start` on. -/
def shiftSeg (start : Nat) (e : Entry) : Entry := (e.1, start + e.2.1, e.2.2)

/-- The entries of each index, with the new numbers of the files. -/
def shiftedEntries : Nat → List GlobalIndex → List (List Entry) → List (List Entry)
  | start, index :: indices, entries :: entriess =>
    entries.map (shiftSeg start) ::
      shiftedEntries (start + index.files.length) indices entriess
  | _, _, _ => []

def mergedEntries (indices : List GlobalIndex) (entriess : List (List Entry)) : List Entry :=
  (shiftedEntries 0 indices entriess).flatten

def totalRows (indices : List GlobalIndex) : Nat := (indices.map (·.numRows)).sum

def mergedFiles (indices : List GlobalIndex) : List FileId := indices.flatMap (·.files)

theorem mergedFiles_cons (index : GlobalIndex) (indices : List GlobalIndex) :
    mergedFiles (index :: indices) = index.files ++ mergedFiles indices := List.flatMap_cons

theorem remapEntry_range' {start n : Nat} {e : Entry} (h : e.2.1 < n) :
    GlobalIndex.remapEntry (List.range' start n) e = shiftSeg start e := by
  rw [GlobalIndex.remapEntry, List.getD_eq_getElem?_getD, List.getElem?_range' h, shiftSeg]
  simp

namespace GlobalIndexBuilder

/-- The remaps of the indices that follow. -/
def fileIdRemaps : Nat → List GlobalIndex → List (List Nat)
  | _, [] => []
  | start, index :: indices =>
    List.range' start index.files.length :: fileIdRemaps (start + index.files.length) indices

variable {indices : List GlobalIndex}

theorem createFileIdRemapAtMerge_eq {start : Nat}
    (h : start + (mergedFiles indices).length < 2 ^ 32) :
    createFileIdRemapAtMerge start indices = .ok (fileIdRemaps start indices) := by
  induction indices generalizing start with
  | nil => rfl
  | cons index indices ih =>
    rw [mergedFiles_cons, List.length_append] at h
    rw [createFileIdRemapAtMerge, IndexBlockBuilder.checkedU32_eq_ok (by omega)]
    simp only [ok_bind]
    rw [ih (by omega)]
    rfl

/-- Too many files overflow the counter. -/
theorem createFileIdRemapAtMerge_ensures {start : Nat} (hstart : start < 2 ^ 32) :
    Ensures (createFileIdRemapAtMerge start indices) fun _ =>
      start + (mergedFiles indices).length < 2 ^ 32 := by
  induction indices generalizing start with
  | nil => exact .ok hstart
  | cons index indices ih =>
    rw [createFileIdRemapAtMerge, checkedU32]
    by_cases hlt : start + index.files.length < 2 ^ 32
    · rw [if_pos hlt]
      simp only [ok_bind]
      refine Ensures.bind (ih hlt) fun remaps h => .pure ?_
      rw [mergedFiles_cons, List.length_append]
      omega
    · rw [if_neg hlt]
      exact .error

theorem sumRows_eq {sum : Nat} (h : sum + totalRows indices < 2 ^ 32) :
    indices.foldlM (fun sum index => checkedU32 (sum + index.numRows)) sum =
      .ok (sum + totalRows indices) := by
  induction indices generalizing sum with
  | nil => rfl
  | cons index indices ih =>
    have hcons : totalRows (index :: indices) = index.numRows + totalRows indices := List.sum_cons
    rw [List.foldlM_cons, IndexBlockBuilder.checkedU32_eq_ok (by omega), ok_bind, ih (by omega),
      hcons, Nat.add_assoc]

theorem sumRows_ensures {sum : Nat} (hsum : sum < 2 ^ 32) :
    Ensures (indices.foldlM (fun sum index => checkedU32 (sum + index.numRows)) sum) fun _ =>
      sum + totalRows indices < 2 ^ 32 := by
  induction indices generalizing sum with
  | nil => exact .pure hsum
  | cons index indices ih =>
    have hcons : totalRows (index :: indices) = index.numRows + totalRows indices := List.sum_cons
    rw [List.foldlM_cons, checkedU32, hcons, ← Nat.add_assoc]
    by_cases hlt : sum + index.numRows < 2 ^ 32
    · rw [if_pos hlt, ok_bind]
      exact ih hlt
    · rw [if_neg hlt]
      exact .error

variable {entriess : List (List Entry)}

/-- The iterators of the indices. -/
theorem iterators_return (h : List.Forall₂ GlobalIndex.Holds indices entriess) {start : Nat}
    (hfiles : start + (mergedFiles indices).length < 2 ^ 32) :
    Returns ((indices.zip (fileIdRemaps start indices)).mapM
        fun index => GlobalIndexIterator.new index.1 index.2) fun iters =>
      List.Forall₂ (Yields GlobalIndexIterator.next) iters
        (shiftedEntries start indices entriess) := by
  induction h generalizing start with
  | nil => exact .pure .nil
  | @cons index entries indices entriess hindex _ ih =>
    rw [mergedFiles_cons, List.length_append] at hfiles
    obtain ⟨block, hrep⟩ := hindex.represents
    have hremap : GlobalIndex.Remaps (List.range' start index.files.length) entries := by
      intro e he
      have hseg := hindex.segs e he
      refine ⟨start + 1 * e.2.1, List.getElem?_range' hseg, ?_⟩
      unfold invalidFileId
      omega
    rw [fileIdRemaps, List.zip_cons_cons, List.mapM_cons]
    refine (hrep.iterator_returns hremap).bind fun it hit => ?_
    refine (ih (by omega)).bind fun iters hiters => .pure ?_
    refine .cons ?_ hiters
    rwa [List.map_congr_left fun e he => remapEntry_range' (hindex.segs e he)] at hit

theorem shiftedEntries_sorted (h : List.Forall₂ GlobalIndex.Holds indices entriess) (start : Nat) :
    ∀ es ∈ shiftedEntries start indices entriess, es.Pairwise (·.1 ≤ ·.1) := by
  induction h generalizing start with
  | nil => exact fun es hes => (List.not_mem_nil hes).elim
  | cons hindex _ ih =>
    intro es hes
    rw [shiftedEntries] at hes
    cases List.mem_cons.mp hes with
    | inl heq =>
      obtain ⟨block, hrep⟩ := hindex.represents
      rw [heq, List.pairwise_map]
      exact hrep.sorted
    | inr hmem => exact ih _ es hmem

/-- The merged entries come in the order of their hashes. -/
theorem createMergingIterator_returns (heap : MinHeap)
    (h : List.Forall₂ GlobalIndex.Holds indices entriess)
    (hfiles : (mergedFiles indices).length < 2 ^ 32) :
    Returns (createMergingIterator indices) fun iter => ∃ entries,
      Yields (GlobalIndexMergingIterator.next heap) iter entries ∧
      entries.Perm (mergedEntries indices entriess) ∧ entries.Pairwise (·.1 ≤ ·.1) := by
  unfold createMergingIterator
  rw [createFileIdRemapAtMerge_eq (by rwa [Nat.zero_add]), ok_bind]
  refine (iterators_return h (by rwa [Nat.zero_add])).bind fun iters hiters => ?_
  exact mergeNew_yields hiters (shiftedEntries_sorted h 0)

/-- A merged index takes as many steps as it has entries. -/
theorem mergedEntries_length (h : List.Forall₂ GlobalIndex.Holds indices entriess) (start : Nat) :
    (shiftedEntries start indices entriess).flatten.length ≤ totalRows indices ∧
      (shiftedEntries start indices entriess).flatten.length < mergeBound indices := by
  unfold mergeBound
  induction h generalizing start with
  | nil => exact ⟨Nat.le_refl _, Nat.one_pos⟩
  | @cons index entries indices entriess hindex _ ih =>
    obtain ⟨block, hrep⟩ := hindex.represents
    have hcount := hindex.count
    have hlt := hindex.numRows_lt
    have ih := ih (start + index.files.length)
    rw [shiftedEntries, List.flatten_cons, List.length_append, List.length_map, List.map_cons,
      List.sum_cons, hrep.blocks, List.length_singleton, totalRows, List.map_cons, List.sum_cons]
    unfold totalRows at ih
    omega

end GlobalIndexBuilder

/-! ## What fails -/

namespace IndexBlockBuilder

variable {index : GlobalIndex} {b : IndexBlockBuilder}

theorem advanceTo_ensures (bucket : Nat) :
    Ensures (b.advanceTo bucket) fun b' => b'.currentEntry = b.currentEntry := by
  induction b using advanceTo.induct bucket with
  | case1 b heq =>
    rw [advanceTo, if_pos heq]
    exact .ok rfl
  | case2 b hne hroom ih =>
    rw [advanceTo, if_neg hne, if_pos hroom]
    exact ih
  | case3 b hne hfull =>
    rw [advanceTo, if_neg hne, if_neg hfull]
    exact .error

/-- A file number that does not fit is not written, and neither are too many entries. -/
theorem appendEntry_ensures (e : Entry) :
    Ensures (b.appendEntry index e) fun b' =>
      (index.segIdBits < 32 → e.2.1 % 2 ^ 32 < 2 ^ index.segIdBits) ∧
      b'.currentEntry = b.currentEntry + 1 ∧ b'.currentEntry < 2 ^ 32 := by
  unfold appendEntry writeEntry
  simp only [bind_assoc]
  refine Ensures.bind (advanceTo_ensures _) fun b' hb' => ?_
  refine Ensures.bind_any fun r => ?_
  refine Ensures.bind (P := fun _ =>
    index.segIdBits < 32 → e.2.1 % 2 ^ 32 < 2 ^ index.segIdBits) ?_ fun r' hseg => ?_
  · intro r' hr' hbits
    exact BitWriter.write_ensures_lt hbits r' hr'
  refine Ensures.bind_any fun r'' => ?_
  rw [checkedU32, hb']
  by_cases hlt : b.currentEntry + 1 < 2 ^ 32
  · rw [if_pos hlt]
    simp only [ok_bind, pure_bind]
    rw [ite_flush]
    exact .pure ⟨hseg, rfl, hlt⟩
  · rw [if_neg hlt]
    exact .error

theorem foldlM_appendEntry_ensures (es : List Entry) (hb : b.currentEntry < 2 ^ 32) :
    Ensures (es.foldlM (appendEntry index) b) fun _ =>
      (∀ e ∈ es, index.segIdBits < 32 → e.2.1 % 2 ^ 32 < 2 ^ index.segIdBits) ∧
      b.currentEntry + es.length < 2 ^ 32 := by
  induction es generalizing b with
  | nil => exact .pure ⟨fun e he => (List.not_mem_nil he).elim, hb⟩
  | cons e es ih =>
    rw [List.foldlM_cons]
    refine Ensures.bind (appendEntry_ensures e) fun b' ⟨hseg, hcur, hlt⟩ => ?_
    refine Ensures.mono (ih hlt) fun b'' ⟨hsegs, hlen⟩ => ⟨?_, ?_⟩
    · intro e' he'
      cases List.mem_cons.mp he' with
      | inl heq => exact heq ▸ hseg
      | inr hmem => exact hsegs e' hmem
    · rw [List.length_cons]
      omega

end IndexBlockBuilder

/-- Every hash is that of a key. -/
theorem splitmix64_surjective : Function.Surjective splitmix64 := by
  have hfin : Finite Key := Finite.of_injective BitVec.toFin fun x y h => BitVec.eq_of_toFin_eq h
  exact Finite.injective_iff_surjective.mp splitmix64_injective

namespace GlobalIndex

variable {index : GlobalIndex} {block : IndexBlock} {entries : List Entry}

theorem prepareHashesForLookup_singleton (sort : UnstableSort) (key : Key) :
    prepareHashesForLookup sort [key] = [(key, (splitmix64 key).toNat)] := by
  have hsort := List.perm_singleton.mp (sort.perm Prod.snd [(key, (splitmix64 key).toNat)])
  rw [prepareHashesForLookup, List.map_cons, List.map_nil, hsort]
  rfl

/-- A lookup in a bucket whose offset overflows panics. -/
theorem Represents.tableInRange_of_lookups (h : index.Represents block entries)
    (sort : UnstableSort)
    (hlookups : ∀ key, Returns (index.searchValues (prepareHashesForLookup sort [key]))
      fun _ => True) : index.TableInRange := by
  by_contra hrange
  unfold TableInRange at hrange
  have hlast : index.numBuckets - 1 < index.numBuckets := Nat.sub_one_lt (Nat.ne_of_gt (Nat.two_pow_pos _))
  have hhash := h.widths.shiftLeft_lt hlast
  obtain ⟨key, hkey⟩ := splitmix64_surjective
    (BitVec.ofNat 64 ((index.numBuckets - 1) <<< index.hashLowerBits))
  have htoNat : (splitmix64 key).toNat = (index.numBuckets - 1) <<< index.hashLowerBits := by
    rw [hkey, BitVec.toNat_ofNat, Nat.mod_eq_of_lt hhash]
  have hupper : index.upperHash ((index.numBuckets - 1) <<< index.hashLowerBits) =
      index.numBuckets - 1 := by
    rw [upperHash_eq h.widths hhash, Nat.shiftLeft_shiftRight]
  have hbucket : block.readBucket index (index.numBuckets - 1) = .error .arithmeticOverflow := by
    rw [IndexBlock.readBucket, checkedU32, if_neg hrange]
    rfl
  obtain ⟨results, hresults, -⟩ := hlookups key
  rw [prepareHashesForLookup_singleton, htoNat, searchValues, h.blocks] at hresults
  simp only [List.foldlM_cons, List.foldlM_nil, searchBlock, h.startIdx,
    skipLookups_zero (List.cons_ne_nil _ _), ok_bind, List.takeWhile_cons, hupper, h.endIdx,
    decide_eq_true (Nat.lt_succ_of_lt hlast), if_true, List.takeWhile_nil, List.map_cons,
    List.map_nil, IndexBlock.read, dedupByKey, List.destutter_singleton, IndexBlock.readBuckets,
    List.mapM_cons, hbucket] at hresults
  cases hresults

end GlobalIndex

namespace GlobalIndexBuilder

variable {builder : GlobalIndexBuilder}

theorem build_ensures (entries : List Entry) (fileId : FileId) :
    Ensures (builder.build entries fileId) fun _ =>
      (∀ e ∈ entries, segIdBits builder.files < 32 →
        e.2.1 % 2 ^ 32 < 2 ^ segIdBits builder.files) ∧ entries.length < 2 ^ 32 := by
  unfold build
  refine Ensures.bind (IndexBlockBuilder.foldlM_appendEntry_ensures entries (Nat.two_pow_pos 32))
    fun b hb => ?_
  rw [show (IndexBlockBuilder.new _ _ _).currentEntry = 0 from rfl, Nat.zero_add] at hb
  exact Ensures.bind_any fun block => .pure hb

section Build

variable (builder) {entries : List Entry} {fileId : FileId} (files : List FileId)
  (hrows : builder.numRows < 2 ^ 32) (hcount : entries.length ≤ builder.numRows)
  (hsorted : entries.Pairwise (·.1 ≤ ·.1)) (hhash : ∀ e ∈ entries, e.1 < 2 ^ 64)
  (hrow : ∀ e ∈ entries, e.2.2 < 2 ^ 32)

include hrows hcount hsorted hhash hrow

/-- The files may be replaced by others after the entries are written. -/
theorem build_represents (hfits : ∀ e ∈ entries, e.2.1 < 2 ^ segIdBits builder.files) :
    Returns (builder.build entries fileId) fun index =>
      (∃ block, index = { builder.createGlobalIndex.2 with indexBlocks := [block] }) ∧
      ∃ block, ({ index with files } : GlobalIndex).Represents block entries := by
  refine (build_returns fileId hrows hcount hsorted fun e he =>
    ⟨hhash e he, hfits e he, hrow e he⟩).mono ?_
  rintro index ⟨block, rfl, h⟩
  exact ⟨⟨block, rfl⟩, block, ⟨h.blocks, ⟨h.widths.upper_lt, h.widths.lower, h.widths.seg,
    h.widths.row, h.widths.bucket⟩, h.startIdx, h.endIdx, h.offset, h.data, h.sorted,
    fun e he => ⟨(h.fits e he).hash, (h.fits e he).seg, (h.fits e he).row⟩, h.count⟩⟩

/-- An index of these entries answers every lookup. -/
theorem build_answers (hfits : ∀ e ∈ entries, e.2.1 < 2 ^ segIdBits builder.files)
    (htable : builder.createGlobalIndex.2.TableInRange)
    (hfiles : ∀ e ∈ entries, e.2.1 < files.length) :
    Returns (builder.build entries fileId) fun index => index.files = builder.files ∧
      ∀ (sort : UnstableSort) (keys : List Key), keys ≠ [] →
        Returns (({ index with files } : GlobalIndex).searchValues
            (GlobalIndex.prepareHashesForLookup sort keys)) fun results =>
          results.Perm (entries.flatMap
            (GlobalIndex.answer files (GlobalIndex.prepareHashesForLookup sort keys))) := by
  refine (build_represents builder files hrows hcount hsorted hhash hrow hfits).mono ?_
  rintro index ⟨⟨_, rfl⟩, block, hrep⟩
  refine ⟨rfl, fun sort keys hkeys => ?_⟩
  exact hrep.searchValues_returns hfiles
    (GlobalIndex.prepared_of_keys sort hkeys hrep.widths htable)

/-- If the index is built and lookups do not panic, what was written fits. -/
theorem fits_of_lookups (hseg : ∀ e ∈ entries, e.2.1 < 2 ^ 32) {index : GlobalIndex}
    (hindex : builder.build entries fileId = .ok index)
    (hlookups : ∀ key, Returns (({ index with files } : GlobalIndex).searchValues
      (GlobalIndex.prepareHashesForLookup .stable [key])) fun _ => True) :
    (∀ e ∈ entries, e.2.1 < 2 ^ segIdBits builder.files) ∧
      builder.createGlobalIndex.2.TableInRange := by
  have hfits : ∀ e ∈ entries, e.2.1 < 2 ^ segIdBits builder.files := by
    intro e he
    by_cases hbits : segIdBits builder.files < 32
    · have hlt := (build_ensures entries fileId index hindex).1 e he hbits
      rwa [Nat.mod_eq_of_lt (hseg e he)] at hlt
    · exact Nat.lt_of_lt_of_le (hseg e he)
        (Nat.pow_le_pow_right (by decide) (Nat.le_of_not_lt hbits))
  refine ⟨hfits, ?_⟩
  obtain ⟨index', hindex', ⟨_, rfl⟩, block, hrep⟩ :=
    build_represents builder files hrows hcount hsorted hhash hrow hfits
  rw [hindex] at hindex'
  cases hindex'
  exact hrep.tableInRange_of_lookups .stable hlookups

end Build

/-- An index that is built holds the entries it is built of. -/
theorem build_holds {builder : GlobalIndexBuilder} {entries : List Entry} (fileId : FileId)
    (hrows : builder.numRows < 2 ^ 32) (hcount : entries.length ≤ builder.numRows)
    (hsorted : entries.Pairwise (·.1 ≤ ·.1)) (hfits : ∀ e ∈ entries, builder.createGlobalIndex.2.Fits e)
    (hsegs : ∀ e ∈ entries, e.2.1 < builder.files.length) :
    Returns (builder.build entries fileId) fun index =>
      index.files = builder.files ∧ index.numRows = builder.numRows ∧ index.Holds entries := by
  refine (build_returns fileId hrows hcount hsorted hfits).mono ?_
  rintro index ⟨block, rfl, hrep⟩
  exact ⟨rfl, rfl, ⟨block, hrep⟩, hsegs, hrows, hcount, trailingZeros_two_pow (clog_lt hrows), bucketBits_eq hrows⟩

/-- A flushed index holds its rows in the order of their hashes. -/
theorem buildFromFlush_holds (sort : UnstableSort) (files : List FileId)
    (rows : List (Key × Nat × Nat)) (fileId : FileId) (hcount : rows.length < 2 ^ 32)
    (hfiles : files.length ≤ 2 ^ 16) (hsegs : ∀ row ∈ rows, row.2.1 < files.length)
    (hrows : ∀ row ∈ rows, row.2.2 < 2 ^ 32) :
    Returns (buildFromFlush sort files rows fileId) fun index =>
      index.files = files ∧ index.numRows = rows.length ∧
      index.Holds (sort.sort Prod.fst
        (rows.map fun row => ((splitmix64 row.1).toNat, row.2))) := by
  have hmod : rows.length % 2 ^ 32 = rows.length := Nat.mod_eq_of_lt hcount
  have hperm := sort.perm Prod.fst (rows.map fun row => ((splitmix64 row.1).toNat, row.2))
  have hlen := hperm.length_eq
  rw [List.length_map] at hlen
  have hrow : ∀ e ∈ sort.sort Prod.fst (rows.map fun row => ((splitmix64 row.1).toNat, row.2)),
      ∃ row ∈ rows, ((splitmix64 row.1).toNat, row.2) = e :=
    fun e he => List.mem_map.mp (hperm.mem_iff.mp he)
  unfold buildFromFlush
  simp only [hmod]
  refine build_holds fileId hcount (Nat.le_of_eq hlen) (sort.sorted _ _) ?_ ?_
  · intro e he
    obtain ⟨row, hmem, rfl⟩ := hrow e he
    exact ⟨BitVec.isLt _, lt_two_pow_segIdBits hfiles (hsegs row hmem), hrows row hmem⟩
  · intro e he
    obtain ⟨row, hmem, rfl⟩ := hrow e he
    exact hsegs row hmem

/-! ## The answers of a merged index -/

variable {indices : List GlobalIndex} {entriess : List (List Entry)}

theorem of_mem_shiftedEntries (h : List.Forall₂ GlobalIndex.Holds indices entriess) (start : Nat) :
    ∀ e ∈ (shiftedEntries start indices entriess).flatten,
      e.1 < 2 ^ 64 ∧ e.2.2 < 2 ^ 32 ∧ e.2.1 < start + (mergedFiles indices).length := by
  induction h generalizing start with
  | nil => exact fun e he => (List.not_mem_nil he).elim
  | @cons index entries indices entriess hindex _ ih =>
    intro e he
    rw [shiftedEntries, List.flatten_cons] at he
    rw [mergedFiles_cons, List.length_append, ← Nat.add_assoc]
    cases List.mem_append.mp he with
    | inl hmem =>
      obtain ⟨e', he', rfl⟩ := List.mem_map.mp hmem
      obtain ⟨block, hrep⟩ := hindex.represents
      have hfits := hrep.fits e' he'
      have hseg := hindex.segs e' he'
      refine ⟨hfits.hash, hfits.row, ?_⟩
      show start + e'.2.1 < _
      omega
    | inr hmem => exact ih _ e hmem

/-- The answers for the entries of each index. -/
def answersOf (lookups : List (Key × Nat)) (indices : List GlobalIndex)
    (entriess : List (List Entry)) : List (List (Key × RecordLocation)) :=
  List.zipWith (fun index entries => entries.flatMap (GlobalIndex.answer index.files lookups))
    indices entriess

theorem answersOf_cons (lookups : List (Key × Nat)) (index : GlobalIndex) (entries : List Entry)
    (indices : List GlobalIndex) (entriess : List (List Entry)) :
    answersOf lookups (index :: indices) (entries :: entriess) =
      entries.flatMap (GlobalIndex.answer index.files lookups) ::
        answersOf lookups indices entriess := rfl

/-- A new file number means the same file. -/
theorem answer_shiftSeg (before after : List FileId) {files : List FileId}
    (lookups : List (Key × Nat)) {e : Entry} (h : e.2.1 < files.length) :
    GlobalIndex.answer (before ++ (files ++ after)) lookups (shiftSeg before.length e) =
      GlobalIndex.answer files lookups e := by
  unfold GlobalIndex.answer shiftSeg
  rw [List.getElem?_append_right (Nat.le_add_right ..), Nat.add_sub_cancel_left,
    List.getElem?_append_left h]

theorem flatMap_answer_shiftedEntries
    (h : List.Forall₂ GlobalIndex.Holds indices entriess) (lookups : List (Key × Nat))
    (before : List FileId) :
    (shiftedEntries before.length indices entriess).flatten.flatMap
        (GlobalIndex.answer (before ++ mergedFiles indices) lookups) =
      (answersOf lookups indices entriess).flatten := by
  induction h generalizing before with
  | nil => rfl
  | @cons index entries indices entriess hindex _ ih =>
    have ih := ih (before ++ index.files)
    rw [List.length_append, List.append_assoc] at ih
    rw [shiftedEntries, List.flatten_cons, List.flatMap_append, mergedFiles_cons, ih,
      List.flatMap_map, answersOf_cons, List.flatten_cons]
    congr 1
    exact List.flatMap_congr fun e he => answer_shiftSeg before _ lookups (hindex.segs e he)

/-- A smaller index has a smaller table. -/
theorem tableInRange_of_le {index : GlobalIndex} {entries : List Entry}
    (h : index.Holds entries) (hrows : builder.numRows < 2 ^ 32)
    (hle : index.numRows ≤ builder.numRows) (htable : builder.createGlobalIndex.2.TableInRange) :
    index.TableInRange := by
  have hupper : index.hashUpperBits ≤ builder.createGlobalIndex.2.hashUpperBits := by
    simp only [createGlobalIndex, trailingZeros_two_pow (clog_lt hrows), h.upperBits]
    exact Nat.clog_mono_right 2 (Nat.add_le_add_right (Nat.div_le_div_right hle) 2)
  have hbits : index.bucketBits ≤ builder.createGlobalIndex.2.bucketBits := by
    rw [h.bucketBits, bucketBits_eq hrows]
    exact Nat.size_le_size hle
  have hbuckets : index.numBuckets ≤ builder.createGlobalIndex.2.numBuckets :=
    Nat.pow_le_pow_right (by decide) hupper
  exact Nat.lt_of_le_of_lt (Nat.mul_le_mul (Nat.sub_le_sub_right hbuckets 1) hbits) htable

theorem numRows_le_totalRows {index : GlobalIndex}
    (h : index ∈ indices) : index.numRows ≤ totalRows indices :=
  List.le_sum_of_mem (List.mem_map_of_mem h)

/-- The answers of all indices. -/
theorem searchAll_returns (h : List.Forall₂ GlobalIndex.Holds indices entriess)
    (htable : ∀ index ∈ indices, index.TableInRange) (sort : UnstableSort) {keys : List Key}
    (hkeys : keys ≠ []) :
    Returns (indices.mapM (·.searchValues (GlobalIndex.prepareHashesForLookup sort keys)))
      fun answers => answers.flatten.Perm
        (answersOf (GlobalIndex.prepareHashesForLookup sort keys) indices entriess).flatten := by
  induction h with
  | nil => exact .pure (.refl _)
  | @cons index entries indices entriess hindex _ ih =>
    obtain ⟨block, hrep⟩ := hindex.represents
    have hprepared := GlobalIndex.prepared_of_keys sort hkeys hrep.widths
      (htable index List.mem_cons_self)
    rw [List.mapM_cons]
    refine (hrep.searchValues_returns hindex.segs hprepared).bind fun results hresults => ?_
    refine (ih fun index' h => htable index' (List.mem_cons_of_mem _ h)).bind
      fun answers hanswers => .pure ?_
    rw [answersOf_cons, List.flatten_cons, List.flatten_cons]
    exact hresults.append hanswers

/-- A merge is the build of the merged entries, unless a counter overflows. -/
theorem buildFromMerge_eq (heap : MinHeap) (h : List.Forall₂ GlobalIndex.Holds indices entriess)
    (fileId : FileId) (hfiles : (mergedFiles indices).length < 2 ^ 32)
    (hrows : totalRows indices < 2 ^ 32) :
    ∃ entries, entries.Perm (mergedEntries indices entriess) ∧ entries.Pairwise (·.1 ≤ ·.1) ∧
      buildFromMerge heap indices fileId =
        build ⟨totalRows indices, mergedFiles indices⟩ entries fileId := by
  obtain ⟨iter, hiter, entries, hyields, hperm, hsorted⟩ :=
    createMergingIterator_returns heap h hfiles
  refine ⟨entries, hperm, hsorted, ?_⟩
  have hbound : entries.length < mergeBound indices := by
    rw [hperm.length_eq]
    exact (mergedEntries_length h 0).2
  have hsum : indices.foldlM (fun sum index => checkedU32 (sum + index.numRows)) 0 =
      .ok (0 + totalRows indices) := sumRows_eq (by rwa [Nat.zero_add])
  rw [Nat.zero_add] at hsum
  rw [buildFromMerge, hsum, ok_bind, hiter, ok_bind, buildFromMergingIterator]
  simp only
  rw [hyields.forEach_eq hbound]
  rfl

/-- The counters do not overflow, the numbers of the files fit in their width and so do the
offsets in the bucket table. -/
structure MergeFits (indices : List GlobalIndex) (entriess : List (List Entry)) : Prop where
  files : (mergedFiles indices).length < 2 ^ 32
  rows : totalRows indices < 2 ^ 32
  table : (createGlobalIndex ⟨totalRows indices, mergedFiles indices⟩).2.TableInRange
  segs : ∀ e ∈ mergedEntries indices entriess, e.2.1 < 2 ^ segIdBits (mergedFiles indices)

/-- A merge that returns did not overflow. -/
theorem buildFromMerge_ensures (heap : MinHeap) (indices : List GlobalIndex) (fileId : FileId) :
    Ensures (buildFromMerge heap indices fileId) fun _ =>
      (mergedFiles indices).length < 2 ^ 32 ∧ totalRows indices < 2 ^ 32 := by
  unfold buildFromMerge
  refine Ensures.bind (sumRows_ensures (Nat.two_pow_pos 32)) fun numRows hrows => ?_
  unfold createMergingIterator
  rw [bind_assoc]
  refine Ensures.bind (createFileIdRemapAtMerge_ensures (Nat.two_pow_pos 32)) fun remaps hfiles => ?_
  refine Ensures.bind_any fun _ => ?_
  rw [Nat.zero_add] at hrows hfiles
  exact fun _ _ => ⟨hfiles, hrows⟩

/-- The answers of a merged index are those of its indices. -/
theorem perm_answersOf (h : List.Forall₂ GlobalIndex.Holds indices entriess) {entries : List Entry}
    (hperm : entries.Perm (mergedEntries indices entriess)) (lookups : List (Key × Nat)) :
    (entries.flatMap (GlobalIndex.answer (mergedFiles indices) lookups)).Perm
      (answersOf lookups indices entriess).flatten := by
  have heq := flatMap_answer_shiftedEntries h lookups []
  rw [List.nil_append] at heq
  rw [← heq]
  exact hperm.flatMap_right _

section Merge

variable {heap : MinHeap} {indices : List GlobalIndex} {entriess : List (List Entry)}

/-- What a merge writes. -/
theorem of_mem_mergedEntries (h : List.Forall₂ GlobalIndex.Holds indices entriess)
    {entries : List Entry} (hperm : entries.Perm (mergedEntries indices entriess)) :
    ∀ e ∈ entries, e.1 < 2 ^ 64 ∧ e.2.2 < 2 ^ 32 ∧ e.2.1 < (mergedFiles indices).length := by
  intro e he
  have hmem := of_mem_shiftedEntries h 0 e (hperm.mem_iff.mp he)
  rwa [Nat.zero_add] at hmem

theorem length_le_totalRows (h : List.Forall₂ GlobalIndex.Holds indices entriess)
    {entries : List Entry} (hperm : entries.Perm (mergedEntries indices entriess)) :
    entries.length ≤ totalRows indices := by
  rw [hperm.length_eq]
  exact (mergedEntries_length h 0).1

/-- A merged index holds what its indices hold, so that it can be merged again. -/
theorem buildFromMerge_holds (h : List.Forall₂ GlobalIndex.Holds indices entriess) (fileId : FileId)
    (hfits : MergeFits indices entriess) :
    Returns (buildFromMerge heap indices fileId) fun merged => merged.files = mergedFiles indices ∧
      merged.numRows = totalRows indices ∧
      ∃ entries, entries.Perm (mergedEntries indices entriess) ∧ merged.Holds entries := by
  obtain ⟨entries, hperm, hsorted, heq⟩ := buildFromMerge_eq heap h fileId hfits.files hfits.rows
  have hmem := of_mem_mergedEntries h hperm
  rw [heq]
  refine (build_holds fileId (show (⟨totalRows indices, mergedFiles indices⟩ : GlobalIndexBuilder).numRows < _ from hfits.rows)
    (length_le_totalRows h hperm) hsorted (fun e he => ?_) fun e he => (hmem e he).2.2).mono ?_
  · exact ⟨(hmem e he).1, hfits.segs e (hperm.mem_iff.mp he), (hmem e he).2.1⟩
  · rintro merged ⟨hfiles, hrows, hholds⟩
    exact ⟨hfiles, hrows, entries, hperm, hholds⟩

/-- A merge whose lookups do not panic wrote what fits. -/
theorem mergeFits_of_lookups (h : List.Forall₂ GlobalIndex.Holds indices entriess)
    {fileId : FileId} {merged : GlobalIndex}
    (hmerged : buildFromMerge heap indices fileId = .ok merged)
    (hlookups : ∀ key, Returns (merged.searchValues
      (GlobalIndex.prepareHashesForLookup .stable [key])) fun _ => True) :
    MergeFits indices entriess := by
  obtain ⟨hfiles, hrows⟩ := buildFromMerge_ensures heap indices fileId merged hmerged
  obtain ⟨entries, hperm, hsorted, heq⟩ := buildFromMerge_eq heap h fileId hfiles hrows
  have hmem := of_mem_mergedEntries h hperm
  rw [heq] at hmerged
  obtain ⟨hsegs, htable⟩ := fits_of_lookups ⟨totalRows indices, mergedFiles indices⟩ merged.files hrows
    (length_le_totalRows h hperm) hsorted (fun e he => (hmem e he).1) (fun e he => (hmem e he).2.1)
    (fun e he => Nat.lt_trans (hmem e he).2.2 hfiles) hmerged hlookups
  exact ⟨hfiles, hrows, htable, fun e he => hsegs e (hperm.mem_iff.mpr he)⟩

theorem answers_of_mergeFits (h : List.Forall₂ GlobalIndex.Holds indices entriess)
    (fileId : FileId) (hfits : MergeFits indices entriess) :
    Returns (buildFromMerge heap indices fileId) fun merged =>
      ∀ (sort : UnstableSort) (keys : List Key), keys ≠ [] →
        Returns (merged.searchValues (GlobalIndex.prepareHashesForLookup sort keys)) fun results =>
          Returns (indices.mapM (·.searchValues (GlobalIndex.prepareHashesForLookup sort keys)))
            fun answers => results.Perm answers.flatten := by
  obtain ⟨entries, hperm, hsorted, heq⟩ := buildFromMerge_eq heap h fileId hfits.files hfits.rows
  have hmem := of_mem_mergedEntries h hperm
  rw [heq]
  refine (build_answers ⟨totalRows indices, mergedFiles indices⟩ (mergedFiles indices) hfits.rows
    (length_le_totalRows h hperm) hsorted (fun e he => (hmem e he).1) (fun e he => (hmem e he).2.1)
    (fun e he => hfits.segs e (hperm.mem_iff.mp he)) hfits.table
    (fun e he => (hmem e he).2.2)).mono ?_
  intro merged ⟨hfiles, hanswers⟩ sort keys hkeys
  have hfiles : merged.files = mergedFiles indices := hfiles
  have hsame : ({ merged with files := mergedFiles indices } : GlobalIndex) = merged := by
    rw [← hfiles]
  rw [hsame] at hanswers
  refine (hanswers sort keys hkeys).mono fun results hresults => ?_
  have htables : ∀ index ∈ indices, index.TableInRange := by
    intro index hindex
    obtain ⟨entries', -, hholds⟩ := exists_of_mem_left h hindex
    exact tableInRange_of_le hholds hfits.rows (numRows_le_totalRows hindex) hfits.table
  refine (searchAll_returns h htables sort hkeys).mono fun answers hsearch => ?_
  exact (hresults.trans (perm_answersOf h hperm _)).trans hsearch.symm

/-- The index that is merged from others answers every lookup with the answers of the others
if and only if what it writes fits. -/
theorem buildFromMerge_answers_iff (heap : MinHeap)
    (h : List.Forall₂ GlobalIndex.Holds indices entriess) (fileId : FileId) :
    (Returns (buildFromMerge heap indices fileId) fun merged =>
      ∀ (sort : UnstableSort) (keys : List Key), keys ≠ [] →
        Returns (merged.searchValues (GlobalIndex.prepareHashesForLookup sort keys)) fun results =>
          Returns (indices.mapM (·.searchValues (GlobalIndex.prepareHashesForLookup sort keys)))
            fun answers => results.Perm answers.flatten) ↔
      MergeFits indices entriess := by
  constructor
  · rintro ⟨merged, hmerged, hanswers⟩
    refine mergeFits_of_lookups h hmerged fun key => ?_
    exact (hanswers .stable [key] (List.cons_ne_nil _ _)).mono fun _ _ => trivial
  · exact answers_of_mergeFits h fileId

/-- Two indices of 2^16 files each: the merged index has 2^17 files, for whose numbers it
has 15 bits, so the first file of the second index cannot be written. -/
theorem buildFromMerge_manyFiles :
    ∃ first second, buildFromFlush .stable (List.range (2 ^ 16)) [(5, 0, 0)] 1 = .ok first ∧
      buildFromFlush .stable (List.range' (2 ^ 16) (2 ^ 16)) [(6, 0, 0)] 2 = .ok second ∧
      ∀ heap fileId, ¬ Returns (buildFromMerge heap [first, second] fileId) fun merged =>
        ∀ (sort : UnstableSort) (keys : List Key), keys ≠ [] →
          Returns (merged.searchValues (GlobalIndex.prepareHashesForLookup sort keys))
            fun results => Returns ([first, second].mapM
                (·.searchValues (GlobalIndex.prepareHashesForLookup sort keys)))
              fun answers => results.Perm answers.flatten := by
  obtain ⟨first, hfirst, hfiles, -, hholds⟩ := buildFromFlush_holds .stable (List.range (2 ^ 16))
    [(5, 0, 0)] 1 (by decide) (Nat.le_of_eq List.length_range) (by simp) (by simp)
  obtain ⟨second, hsecond, hfiles', -, hholds'⟩ := buildFromFlush_holds .stable
    (List.range' (2 ^ 16) (2 ^ 16)) [(6, 0, 0)] 2 (by decide) (Nat.le_of_eq List.length_range')
    (by simp) (by simp)
  refine ⟨first, second, hfirst, hsecond, ?_⟩
  rintro heap fileId ⟨merged, hmerged, hanswers⟩
  have hfits := mergeFits_of_lookups (.cons hholds (.cons hholds' .nil)) hmerged
    fun key => (hanswers .stable [key] (List.cons_ne_nil _ _)).mono fun _ _ => trivial
  have hbits : segIdBits (mergedFiles [first, second]) = 15 := by
    have hlen : (mergedFiles [first, second]).length % 2 ^ 32 = 2 ^ 17 := by
      simp [mergedFiles, hfiles, hfiles']
    rw [segIdBits, hlen, trailingZeros_two_pow (by decide)]
  have hmem : ((splitmix64 6).toNat, 2 ^ 16, 0) ∈ mergedEntries [first, second]
      [UnstableSort.stable.sort Prod.fst [((splitmix64 5).toNat, 0, 0)],
        UnstableSort.stable.sort Prod.fst [((splitmix64 6).toNat, 0, 0)]] := by
    have hsort := (UnstableSort.stable.perm Prod.fst [((splitmix64 6).toNat, 0, 0)]).mem_iff.mpr
      (List.mem_singleton_self _)
    refine List.mem_flatten.mpr ⟨_, List.mem_cons_of_mem _ List.mem_cons_self, ?_⟩
    refine List.mem_map.mpr ⟨_, hsort, ?_⟩
    simp [shiftSeg, hfiles]
  have hlt := hfits.segs _ hmem
  rw [hbits] at hlt
  exact absurd hlt (by decide)

/-- Two indices of one file each. -/
theorem buildFromMerge_answers_twoIndices :
    ∃ first second, buildFromFlush .stable [7] [(5, 0, 1), (8, 0, 2)] 1 = .ok first ∧
      buildFromFlush .stable [9] [(5, 0, 0)] 2 = .ok second ∧
      Returns (buildFromMerge .unordered [first, second] 3) fun merged =>
        Returns (merged.searchValues (GlobalIndex.prepareHashesForLookup .stable [5]))
          fun results => Returns ([first, second].mapM
              (·.searchValues (GlobalIndex.prepareHashesForLookup .stable [5])))
            fun answers => results.Perm answers.flatten := by
  obtain ⟨first, hfirst, hfiles, hrows, hholds⟩ := buildFromFlush_holds .stable [7]
    [(5, 0, 1), (8, 0, 2)] 1 (by decide) (by decide) (by decide) (by decide)
  obtain ⟨second, hsecond, hfiles', hrows', hholds'⟩ := buildFromFlush_holds .stable [9]
    [(5, 0, 0)] 2 (by decide) (by decide) (by decide) (by decide)
  refine ⟨first, second, hfirst, hsecond, ?_⟩
  have hindices := List.Forall₂.cons hholds (.cons hholds' .nil)
  have hmerged : mergedFiles [first, second] = [7, 9] := by simp [mergedFiles, hfiles, hfiles']
  have htotal : totalRows [first, second] = 3 := by simp [totalRows, hrows, hrows']
  have hfits : MergeFits [first, second] _ := {
    files := by rw [hmerged]; decide
    rows := by rw [htotal]; decide
    table := by
      rw [hmerged, htotal]
      have hclog : Nat.clog 2 (3 / 4 + 2) = 1 := by
        rw [Nat.clog_eq_one (by decide) (by decide)]
      simp only [createGlobalIndex, GlobalIndex.TableInRange, GlobalIndex.numBuckets, hclog]
      decide
    segs := by
      intro e he
      have hseg := (of_mem_mergedEntries hindices (.refl _) e he).2.2
      rw [hmerged] at hseg ⊢
      exact Nat.lt_trans hseg (by decide) }
  exact ((buildFromMerge_answers_iff .unordered hindices 3).mpr hfits).mono
    fun merged hanswers => hanswers .stable [5] (List.cons_ne_nil _ _)

end Merge

end GlobalIndexBuilder
end Moonlink.Index
