-- SUMMARY: The persisted hash index: its bit layout, how it is built from sorted entries, looked up, iterated over and merged.
import Mathlib.Data.Nat.Log
import Mathlib.Data.Nat.Size
import Moonlink.Index.BitWriter
import Moonlink.Lib.SortedMerge
import Moonlink.Storage.Compaction

/-!
# The hash index

An index maps hashes of keys to rows of its data files. The upper bits of a hash choose
its bucket. An index block has the entries (lower bits of the hash, number of the file,
row) in the order of their hashes, followed by a table with the first entry of each
bucket.

Numbers are natural numbers; where the code computes with 32 bits and could leave them,
the overflow is checked. Offsets have 64 bits and stay far below that. The directory and
the caching of index blocks are left out.
-/

namespace Moonlink.Index

open Lib Lib.Bits

abbrev Key : Type := BitVec 64

/-- The hash, the number of the file and the row in it. -/
abbrev Entry : Type := Nat × Nat × Nat

def hashBits : Nat := 64

def invalidFileId : Nat := 0xFFFFFFFF

def splitmix64 (x : Key) : Key :=
  let x := x + 0x9E3779B97F4A7C15#64
  let z := x
  let z := (z ^^^ (z >>> 30)) * 0xBF58476D1CE4E5B9#64
  let z := (z ^^^ (z >>> 27)) * 0x94D049BB133111EB#64
  z ^^^ (z >>> 31)

structure IndexBlock where
  bucketStartIdx : Nat
  bucketEndIdx : Nat
  bucketStartOffset : Nat
  indexFile : FileId
  data : List Byte

structure GlobalIndex where
  files : List FileId
  numRows : Nat
  hashBits : Nat
  hashUpperBits : Nat
  hashLowerBits : Nat
  segIdBits : Nat
  rowIdBits : Nat
  bucketBits : Nat
  indexBlocks : List IndexBlock

def GlobalIndex.entryBits (index : GlobalIndex) : Nat :=
  index.hashLowerBits + index.segIdBits + index.rowIdBits

/-- A number that has to fit in 32 bits. -/
def checkedU32 (n : Nat) : Except IndexPanic Nat :=
  if n < 2 ^ 32 then .ok n else .error .arithmeticOverflow

/-! ## Reading -/

/-- A bit reader, as the bits that it has not read. -/
abbrev BitReader : Type := List Bool

def readUnsignedVar (typeBits bits : Nat) (reader : BitReader) :
    Except IndexPanic (Nat × BitReader) := do
  IndexPanic.assert (bits ≤ typeBits) .tooManyBits
  match read bits reader with
  | some result => return result
  | none => .error .endOfFile

structure BucketEntry where
  upperHash : Nat
  entryStart : Nat
  entryEnd : Nat

namespace IndexBlock

def seekBits (block : IndexBlock) (position : Nat) : BitReader :=
  (block.data.flatMap Byte.bits).drop position

/-- The bucket, unless it is empty. -/
def readBucket (block : IndexBlock) (metadata : GlobalIndex) (bucketIdx : Nat) :
    Except IndexPanic (Option BucketEntry) := do
  let offset ← checkedU32 (bucketIdx * metadata.bucketBits)
  let reader := block.seekBits (offset + block.bucketStartOffset)
  let (entryStart, reader) ← readUnsignedVar 32 metadata.bucketBits reader
  let (entryEnd, _) ← readUnsignedVar 32 metadata.bucketBits reader
  return if entryStart ≠ entryEnd then
    some ⟨(bucketIdx <<< metadata.hashLowerBits) % 2 ^ 64, entryStart, entryEnd⟩
  else none

def readBuckets (block : IndexBlock) (metadata : GlobalIndex) (bucketIdxs : List Nat) :
    Except IndexPanic (List BucketEntry) := do
  let buckets ← bucketIdxs.mapM (block.readBucket metadata)
  return buckets.filterMap id

end IndexBlock

def readEntry (metadata : GlobalIndex) (reader : BitReader) :
    Except IndexPanic (Entry × BitReader) := do
  let (hash, reader) ← readUnsignedVar 64 metadata.hashLowerBits reader
  let (segIdx, reader) ← readUnsignedVar 32 metadata.segIdBits reader
  let (rowIdx, reader) ← readUnsignedVar 32 metadata.rowIdBits reader
  return ((hash, segIdx, rowIdx), reader)

/-- The buckets from the current one on. -/
structure LookupIterator where
  entries : List BucketEntry
  currentEntry : Nat
  entryReader : BitReader

namespace LookupIterator

def seekToBucketEntryStart (block : IndexBlock) (metadata : GlobalIndex)
    (it : LookupIterator) : LookupIterator :=
  match it.entries with
  | [] => it
  | entry :: _ =>
    { it with
      currentEntry := entry.entryStart
      entryReader := block.seekBits (entry.entryStart * metadata.entryBits) }

def new (block : IndexBlock) (metadata : GlobalIndex) (entries : List BucketEntry) :
    LookupIterator :=
  seekToBucketEntryStart block metadata ⟨entries, 0, block.seekBits 0⟩

def next (block : IndexBlock) (metadata : GlobalIndex) :
    LookupIterator → Except IndexPanic (Option (Entry × LookupIterator))
  | ⟨[], _, _⟩ => .ok none
  | ⟨bucket :: rest, currentEntry, entryReader⟩ =>
    if currentEntry < bucket.entryEnd then do
      let ((lowerHash, segIdx, rowIdx), entryReader) ← readEntry metadata entryReader
      return some ((lowerHash ||| bucket.upperHash, segIdx, rowIdx),
        ⟨bucket :: rest, currentEntry + 1, entryReader⟩)
    else next block metadata (seekToBucketEntryStart block metadata ⟨rest, currentEntry, entryReader⟩)
  termination_by it => it.entries.length
  decreasing_by
    unfold seekToBucketEntryStart
    split <;> simp_all

end LookupIterator

namespace IndexBlock

/-- One entry of the looked up buckets; the lookups before it are skipped. -/
def lookupEntry (metadata : GlobalIndex)
    (acc : List (Key × RecordLocation) × List (Key × Nat)) (entry : Entry) :
    Except IndexPanic (List (Key × RecordLocation) × List (Key × Nat)) :=
  let (entryHash, segIdx, rowIdx) := entry
  let lookups := acc.2.dropWhile (·.2 < entryHash)
  match lookups with
  | [] => .ok (acc.1, lookups)
  | (value, hash) :: _ =>
    if hash = entryHash then
      match metadata.files[segIdx]? with
      | some fileId => .ok (acc.1 ++ [(value, .diskFile fileId rowIdx)], lookups)
      | none => .error .fileOutOfRange
    else .ok (acc.1, lookups)

def read (block : IndexBlock) (metadata : GlobalIndex) (valueAndHashes : List (Key × Nat))
    (bucketIdxs : List Nat) : Except IndexPanic (List (Key × RecordLocation)) := do
  let entries ← block.readBuckets metadata (dedupByKey id bucketIdxs)
  let bound := (entries.map fun bucket => bucket.entryEnd - bucket.entryStart).sum + 1
  let (results, _) ← forEach (LookupIterator.next block metadata) (lookupEntry metadata)
    .doesNotTerminate bound (LookupIterator.new block metadata entries) ([], valueAndHashes)
  return results

end IndexBlock

namespace GlobalIndex

def upperHash (index : GlobalIndex) (hash : Nat) : Nat := (hash >>> index.hashLowerBits) % 2 ^ 32

/-- Skip the lookups in buckets before those of a block. -/
def skipLookups (index : GlobalIndex) (bucketStartIdx : Nat) :
    List (Key × Nat) → Except IndexPanic (List (Key × Nat))
  | [] => .error .lookupOutOfRange
  | lookup :: rest =>
    if index.upperHash lookup.2 < bucketStartIdx then index.skipLookups bucketStartIdx rest
    else .ok (lookup :: rest)

def searchBlock (index : GlobalIndex) (acc : List (Key × RecordLocation) × List (Key × Nat))
    (block : IndexBlock) :
    Except IndexPanic (List (Key × RecordLocation) × List (Key × Nat)) := do
  let lookups ← index.skipLookups block.bucketStartIdx acc.2
  let inBlock := lookups.takeWhile fun lookup => index.upperHash lookup.2 < block.bucketEndIdx
  let results ← block.read index inBlock (inBlock.map fun lookup => index.upperHash lookup.2)
  return (acc.1 ++ results, lookups)

def searchValues (index : GlobalIndex) (valueAndHashes : List (Key × Nat)) :
    Except IndexPanic (List (Key × RecordLocation)) := do
  let (results, _) ← index.indexBlocks.foldlM index.searchBlock ([], valueAndHashes)
  return results

def prepareHashesForLookup (sort : UnstableSort) (values : List Key) : List (Key × Nat) :=
  dedupByKey Prod.snd (sort.sort Prod.snd (values.map fun value => (value, (splitmix64 value).toNat)))

end GlobalIndex

/-! ## Building -/

structure IndexBlockBuilder where
  bucketStartIdx : Nat
  bucketEndIdx : Nat
  buckets : List Nat
  indexFile : FileId
  entryWriter : BitWriter
  currentBucket : Nat
  currentEntry : Nat

namespace IndexBlockBuilder

def new (bucketStartIdx bucketEndIdx : Nat) (fileId : FileId) : IndexBlockBuilder :=
  ⟨bucketStartIdx, bucketEndIdx, List.replicate (bucketEndIdx - bucketStartIdx) 0, fileId, .new,
    bucketStartIdx, 0⟩

/-- The buckets up to the given one start at the next entry. -/
def advanceTo (b : IndexBlockBuilder) (bucket : Nat) : Except IndexPanic IndexBlockBuilder :=
  if bucket = b.currentBucket then .ok b
  else if b.currentBucket + 1 < b.buckets.length then
    advanceTo { b with
      currentBucket := b.currentBucket + 1
      buckets := b.buckets.set (b.currentBucket + 1) b.currentEntry } bucket
  else .error .bucketOutOfRange
  termination_by b.buckets.length - b.currentBucket
  decreasing_by simp only [List.length_set]; omega

/-- Also returns whether to flush. -/
def writeEntry (b : IndexBlockBuilder) (metadata : GlobalIndex) (entry : Entry) :
    Except IndexPanic (IndexBlockBuilder × Bool) := do
  let (hash, segIdx, rowIdx) := entry
  let b ← b.advanceTo (hash >>> metadata.hashLowerBits)
  let (writer, _) ← b.entryWriter.write 64 metadata.hashLowerBits
    (hash &&& ((1 <<< metadata.hashLowerBits) - 1))
  let (writer, _) ← writer.write 32 metadata.segIdBits (segIdx % 2 ^ 32)
  let (writer, toFlush) ← writer.write 32 metadata.rowIdBits (rowIdx % 2 ^ 32)
  let currentEntry ← checkedU32 (b.currentEntry + 1)
  return ({ b with entryWriter := writer, currentEntry }, toFlush)

def flush (b : IndexBlockBuilder) : IndexBlockBuilder :=
  { b with entryWriter := b.entryWriter.flush }

def appendEntry (metadata : GlobalIndex) (b : IndexBlockBuilder) (entry : Entry) :
    Except IndexPanic IndexBlockBuilder := do
  let (b, toFlush) ← b.writeEntry metadata entry
  return if toFlush then b.flush else b

def setBucket (value : Nat) (buckets : List Nat) (i : Nat) : Except IndexPanic (List Nat) :=
  if i < buckets.length then .ok (buckets.set i value) else .error .bucketOutOfRange

def writeBucket (metadata : GlobalIndex) (writer : BitWriter) (bucket : Nat) :
    Except IndexPanic BitWriter := do
  let (writer, toFlush) ← writer.write 32 metadata.bucketBits bucket
  return if toFlush then writer.flush else writer

def build (b : IndexBlockBuilder) (metadata : GlobalIndex) : Except IndexPanic IndexBlock := do
  let buckets ← (List.range' (b.currentBucket + 1) (b.bucketEndIdx - (b.currentBucket + 1))).foldlM
    (setBucket b.currentEntry) b.buckets
  let bucketStartOffset := b.currentEntry * metadata.entryBits
  let writer ← buckets.foldlM (writeBucket metadata) b.entryWriter
  let data ← writer.close
  return ⟨b.bucketStartIdx, b.bucketEndIdx, bucketStartOffset, b.indexFile, data⟩

end IndexBlockBuilder

/-- `u32::leading_zeros`. -/
def leadingZeros (n : Nat) : Nat := 32 - n.size

/-- `u32::trailing_zeros`. -/
def trailingZeros (n : Nat) : Nat := ((List.range 32).find? n.testBit).getD 32

structure GlobalIndexBuilder where
  numRows : Nat
  files : List FileId

namespace GlobalIndexBuilder

def createGlobalIndex (builder : GlobalIndexBuilder) : Nat × GlobalIndex :=
  let numRows := builder.numRows
  let bucketBits := 32 - leadingZeros numRows
  let numBuckets := 2 ^ Nat.clog 2 (numRows / 4 + 2)
  let upperBits := trailingZeros numBuckets
  let lowerBits := 64 - upperBits
  let segIdBits := 32 - trailingZeros (builder.files.length % 2 ^ 32)
  (numBuckets,
    { files := builder.files
      numRows
      hashBits := Index.hashBits
      hashUpperBits := upperBits
      hashLowerBits := lowerBits
      segIdBits
      rowIdBits := 32
      bucketBits
      indexBlocks := [] })

def build (builder : GlobalIndexBuilder) (entries : List Entry) (fileId : FileId) :
    Except IndexPanic GlobalIndex := do
  let (numBuckets, globalIndex) := builder.createGlobalIndex
  let b ← entries.foldlM (IndexBlockBuilder.appendEntry globalIndex)
    (IndexBlockBuilder.new 0 (numBuckets + 1) fileId)
  let block ← b.build globalIndex
  return { globalIndex with indexBlocks := [block] }

def buildFromFlush (sort : UnstableSort) (files : List FileId) (entries : List (Key × Nat × Nat))
    (fileId : FileId) : Except IndexPanic GlobalIndex :=
  let hashed := entries.map fun entry => ((splitmix64 entry.1).toNat, entry.2)
  build ⟨entries.length % 2 ^ 32, files⟩ (sort.sort Prod.fst hashed) fileId

end GlobalIndexBuilder

/-! ## Iterating -/

structure IndexBlockIterator where
  currentBucket : Nat
  currentBucketEntryEnd : Nat
  currentEntry : Nat
  currentUpperHash : Nat
  bucketReader : BitReader
  entryReader : BitReader

namespace IndexBlockIterator

def new (block : IndexBlock) (metadata : GlobalIndex) : Except IndexPanic IndexBlockIterator := do
  let bucketReader := block.seekBits block.bucketStartOffset
  let (_, bucketReader) ← readUnsignedVar 32 metadata.bucketBits bucketReader
  let (currentBucketEntryEnd, bucketReader) ← readUnsignedVar 32 metadata.bucketBits bucketReader
  return ⟨block.bucketStartIdx, currentBucketEntryEnd, 0, 0, bucketReader, block.seekBits 0⟩

/-- Go to the bucket of the next entry, if there is one. -/
def skipBuckets (block : IndexBlock) (metadata : GlobalIndex) (it : IndexBlockIterator) :
    Except IndexPanic (Option IndexBlockIterator) :=
  if it.currentEntry = it.currentBucketEntryEnd then
    if _ : it.currentBucket + 1 < 2 ^ 32 then
      if it.currentBucket + 1 = block.bucketEndIdx - 1 then .ok none
      else do
        let (currentBucketEntryEnd, bucketReader) ←
          readUnsignedVar 32 metadata.bucketBits it.bucketReader
        skipBuckets block metadata { it with
          currentBucket := it.currentBucket + 1
          currentBucketEntryEnd
          currentUpperHash := it.currentUpperHash + 1 <<< metadata.hashLowerBits
          bucketReader }
    else .error .arithmeticOverflow
  else .ok (some it)
  termination_by 2 ^ 32 - it.currentBucket

def next (block : IndexBlock) (metadata : GlobalIndex) (fileIdRemap : List Nat)
    (it : IndexBlockIterator) : Except IndexPanic (Option (Entry × IndexBlockIterator)) :=
  if it.currentBucket = block.bucketEndIdx - 1 then .ok none
  else do
    match ← it.skipBuckets block metadata with
    | none => return none
    | some it =>
      let ((lowerHash, segIdx, rowIdx), entryReader) ← readEntry metadata it.entryReader
      let currentEntry ← checkedU32 (it.currentEntry + 1)
      match fileIdRemap[segIdx]? with
      | none => .error .remapOutOfRange
      | some segIdx =>
        IndexPanic.assert (segIdx ≠ invalidFileId) .invalidFileId
        return some ((lowerHash + it.currentUpperHash, segIdx, rowIdx),
          { it with currentEntry, entryReader })

end IndexBlockIterator

/-- The current block with its iterator, and the blocks after it. -/
structure GlobalIndexIterator where
  index : GlobalIndex
  fileIdRemap : List Nat
  blockIter : Option (IndexBlock × IndexBlockIterator)
  blocks : List IndexBlock

namespace GlobalIndexIterator

def new (index : GlobalIndex) (fileIdRemap : List Nat) : Except IndexPanic GlobalIndexIterator :=
  match index.indexBlocks with
  | [] => .ok ⟨index, fileIdRemap, none, []⟩
  | block :: blocks => do
    let it ← IndexBlockIterator.new block index
    return ⟨index, fileIdRemap, some (block, it), blocks⟩

def nextInBlock (it : GlobalIndexIterator) :
    Except IndexPanic (Option (Entry × GlobalIndexIterator)) :=
  match it.blockIter with
  | none => .ok none
  | some (block, blockIter) => do
    match ← blockIter.next block it.index it.fileIdRemap with
    | none => return none
    | some (entry, blockIter) => return some (entry, { it with blockIter := some (block, blockIter) })

def next (it : GlobalIndexIterator) : Except IndexPanic (Option (Entry × GlobalIndexIterator)) := do
  match ← it.nextInBlock with
  | some item => return some item
  | none =>
    match _h : it.blocks with
    | [] => return none
    | block :: blocks =>
      let blockIter ← IndexBlockIterator.new block it.index
      next { it with blockIter := some (block, blockIter), blocks }
  termination_by it.blocks.length
  decreasing_by simp_all

end GlobalIndexIterator

/-! ## Merging -/

namespace GlobalIndexMergingIterator

def new (iterators : List GlobalIndexIterator) :
    Except IndexPanic (List (Entry × GlobalIndexIterator)) :=
  mergeNew GlobalIndexIterator.next iterators

def next (heap : MinHeap) : List (Entry × GlobalIndexIterator) →
    Except IndexPanic (Option (Entry × List (Entry × GlobalIndexIterator))) :=
  mergeNext heap Prod.fst GlobalIndexIterator.next

end GlobalIndexMergingIterator

namespace GlobalIndexBuilder

/-- The files of the indices are numbered one after the other. -/
def createFileIdRemapAtMerge : Nat → List GlobalIndex → Except IndexPanic (List (List Nat))
  | _, [] => .ok []
  | fileIdAfterRemap, index :: indices => do
    let fileIdRemap := List.range' fileIdAfterRemap index.files.length
    let fileIdAfterRemap ← checkedU32 (fileIdAfterRemap + index.files.length)
    let fileIdRemaps ← createFileIdRemapAtMerge fileIdAfterRemap indices
    return fileIdRemap :: fileIdRemaps

def createMergingIterator (indices : List GlobalIndex) :
    Except IndexPanic (List (Entry × GlobalIndexIterator)) := do
  let fileIdRemaps ← createFileIdRemapAtMerge 0 indices
  let iters ← (indices.zip fileIdRemaps).mapM fun index => GlobalIndexIterator.new index.1 index.2
  GlobalIndexMergingIterator.new iters

/-- The entry counters of the blocks have 32 bits. -/
def mergeBound (indices : List GlobalIndex) : Nat :=
  (indices.map (·.indexBlocks.length)).sum * 2 ^ 32 + 1

def buildFromMergingIterator (heap : MinHeap) (builder : GlobalIndexBuilder) (bound : Nat)
    (iter : List (Entry × GlobalIndexIterator)) (fileId : FileId) :
    Except IndexPanic GlobalIndex := do
  let (numBuckets, globalIndex) := builder.createGlobalIndex
  let b ← forEach (GlobalIndexMergingIterator.next heap) (IndexBlockBuilder.appendEntry globalIndex)
    .doesNotTerminate bound iter (IndexBlockBuilder.new 0 (numBuckets + 1) fileId)
  let block ← b.build globalIndex
  return { globalIndex with indexBlocks := [block] }

/-- The indices are given in the order in which the set is iterated. -/
def buildFromMerge (heap : MinHeap) (indices : List GlobalIndex) (fileId : FileId) :
    Except IndexPanic GlobalIndex := do
  let numRows ← indices.foldlM (fun sum index => checkedU32 (sum + index.numRows)) 0
  let files := indices.flatMap (·.files)
  let iter ← createMergingIterator indices
  buildFromMergingIterator heap ⟨numRows, files⟩ (mergeBound indices) iter fileId

/-- Write an entry with its new location, if it has one. -/
def appendRemapped (metadata : GlobalIndex)
    (getRemappedRecordLocation : RecordLocation → Option RecordLocation)
    (getSegIdx : RecordLocation → Nat) (b : IndexBlockBuilder) (entry : Entry) :
    Except IndexPanic IndexBlockBuilder :=
  let (hash, oldSegIdx, oldRowIdx) := entry
  match metadata.files[oldSegIdx]? with
  | none => .error .fileOutOfRange
  | some fileId =>
    match getRemappedRecordLocation (.diskFile fileId oldRowIdx) with
    | none => .ok b
    | some (.memoryBatch _ _) => .error .notADiskFile
    | some (.diskFile newFileId newRowIdx) =>
      b.appendEntry metadata (hash, getSegIdx (.diskFile newFileId newRowIdx), newRowIdx)

def buildFromMergingIteratorWithPredicate (heap : MinHeap) (builder : GlobalIndexBuilder)
    (fileId : FileId) (bound : Nat) (iter : List (Entry × GlobalIndexIterator))
    (newDataFiles : List FileId)
    (getRemappedRecordLocation : RecordLocation → Option RecordLocation)
    (getSegIdx : RecordLocation → Nat) : Except IndexPanic GlobalIndex := do
  let (numBuckets, globalIndex) := builder.createGlobalIndex
  let b ← forEach (GlobalIndexMergingIterator.next heap)
    (appendRemapped globalIndex getRemappedRecordLocation getSegIdx)
    .doesNotTerminate bound iter (IndexBlockBuilder.new 0 (numBuckets + 1) fileId)
  let block ← b.build globalIndex
  return { globalIndex with indexBlocks := [block], files := newDataFiles }

def buildFromMergeForCompaction (heap : MinHeap) (numRows : Nat) (fileId : FileId)
    (indices : List GlobalIndex) (newDataFiles : List FileId)
    (getRemappedRecordLocation : RecordLocation → Option RecordLocation)
    (getSegIdx : RecordLocation → Nat) : Except IndexPanic GlobalIndex := do
  let files := indices.flatMap (·.files)
  let iter ← createMergingIterator indices
  buildFromMergingIteratorWithPredicate heap ⟨numRows, files⟩ fileId (mergeBound indices) iter
    newDataFiles getRemappedRecordLocation getSegIdx

end GlobalIndexBuilder
end Moonlink.Index
