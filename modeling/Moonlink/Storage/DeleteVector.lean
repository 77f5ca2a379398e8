-- SUMMARY: Batch deletion vectors: the packed active-row bits of one batch or data file, and their rows.
import Mathlib.Data.List.Range
import Moonlink.Lib.BitBuffer
import Moonlink.Lib.Panics
import Moonlink.Event

/-!
# Deletion vectors

A vector has one bit for each row of a batch or data file, set while the row is
active. The buffer is allocated at the first deletion; the bits after the last row
are unset from then on.
-/

namespace Moonlink

open Lib

/-- Failed assertions of the storage layer. -/
inductive StoragePanic where
  /-- `delete_row`: the row is not below the number of rows. -/
  | rowOutOfRange
  /-- `merge_with`: the vectors differ in their number of rows. -/
  | mergeMaxRowsDiffer
  /-- `apply_to_batch_with_slice`: the slice ends after the last row. -/
  | sliceOutOfRange
  /-- `get_next_file_id`: the file id range is exhausted. -/
  | fileIdsExhausted
  /-- `get_unique_file_id_for_flush`: the file index does not fit. -/
  | fileIdxOutOfRange
  /-- `create_new_data_file` and the arrow writer: a file is open, or none is. -/
  | unexpectedWriterState
  /-- `flush_arrow_writer`: the file or its row count is empty. -/
  | emptyCompactedFile
  /-- `apply_deletion_vector_and_write`: an old location is mapped twice. -/
  | locationRemappedTwice
  /-- `apply_deletion_vector_and_write`: the number of remapped rows is not the expected one. -/
  | compactedRowCountDiffers
  /-- `get_new_compacted_data_files`: file ids do not increase. -/
  | fileIdsNotIncreasing
  /-- `get_and_next`: no batch id is left. -/
  | batchIdsExhausted
  /-- A batch or data file is not where the code expects it. -/
  | missingBatch
  | missingDiskFile
  /-- A batch or data file is already there. -/
  | duplicateBatch
  | duplicateDiskFile
  /-- A row is deleted twice. -/
  | rowDeletedTwice
  /-- `remap_into_vec`: a batch of the index was not written. -/
  | indexedBatchNotFlushed
  /-- `remap_index`: the number of indexed rows is not that of the written rows. -/
  | indexedRowCountDiffers
  /-- `integrate_disk_slices`: a disk slice has no LSN. -/
  | missingWriterLsn
  /-- `match_deletions_with_identical_key_and_lsn`: fewer candidates than deletions. -/
  | fewerCandidatesThanDeletions
  /-- The same: several candidates, and no identity or none that matches. -/
  | noMatchingCandidate
  /-- `apply_new_deletions`: deletions with and without `delete_if_exists`. -/
  | mixedDeleteIfExists
  /-- `remap_committed_deletion_logs_after_compaction`: an entry is not remapped. -/
  | deletionLogNotRemapped
  /-- `update_data_files_to_mooncake_snapshot_impl` and its sibling for indices: new ones
  without old ones, or the old ones are not there. -/
  | invalidMaintenanceResult
  /-- A deletion log entry is later than the snapshot. -/
  | deletionLogAfterSnapshot
  /-- `finalize_batches`: the last batch is not open. -/
  | lastBatchNotOpen
  /-- `prune_persisted_records`: more was persisted than is buffered. -/
  | persistedMoreThanBuffered
  /-- `buffer_unpersisted_iceberg_compaction_data`: an earlier compaction is not persisted. -/
  | compactionNotPersisted
  /-- `update_snapshot`: the flush LSN regresses, or is after the commit LSN. -/
  | flushLsnRegresses
  | flushLsnAfterCommit
  /-- `update_snapshot`: the number of data files is not the expected one. -/
  | diskFilesCountDiffers
  /-- `update_snapshot`: the number of file indices is not the expected one. -/
  | fileIndicesCountDiffers
  /-- `apply_deletion_vector_and_write`: the arrow writer returns an error. -/
  | batchNotWritten
  /-- The comparison of an identity with a row panics, or there is no such row. -/
  | identityNotCompared
  /-- An assertion on LSNs, or a missing stream state. -/
  | table (p : Panic)
  deriving DecidableEq, Repr

/-- `assert!(c)` of the storage layer. -/
def StoragePanic.assert (c : Bool) (p : StoragePanic) : Except StoragePanic Unit :=
  if c then .ok () else .error p

/-- A panic of the LSN bookkeeping. -/
def StoragePanic.lift {α : Type} : Except Panic α → Except StoragePanic α := Except.mapError .table

theorem StoragePanic.assert_pos {c : Bool} {p : StoragePanic} (h : c = true) :
    StoragePanic.assert c p = .ok () := if_pos h

theorem StoragePanic.of_assert {c : Bool} {p : StoragePanic} {u : Unit}
    (h : StoragePanic.assert c p = .ok u) : c = true := by
  unfold StoragePanic.assert at h
  split at h
  · assumption
  · cases h

structure BatchDeletionVector where
  deletionVector : Option BitBuffer
  maxRows : Nat
  fits : ∀ bits, deletionVector = some bits →
    bits.length = maxRows / 8 + 1 ∧ ∀ i, maxRows ≤ i → bits.getBit i = false

namespace BatchDeletionVector

def new (maxRows : Nat) : BatchDeletionVector := ⟨none, maxRows, nofun⟩

/-- All rows are active. -/
def allActive (maxRows : Nat) : BitBuffer :=
  (BitBuffer.full (maxRows / 8 + 1)).unsetBits
    (List.range' maxRows ((maxRows / 8 + 1) * 8 - maxRows))

theorem length_allActive (maxRows : Nat) : (allActive maxRows).length = maxRows / 8 + 1 := by
  simp [allActive, BitBuffer.full]

theorem getBit_allActive (maxRows i : Nat) : (allActive maxRows).getBit i = decide (i < maxRows) := by
  unfold allActive
  rw [BitBuffer.getBit_unsetBits, BitBuffer.getBit_full, Bool.eq_iff_iff]
  simp only [Bool.and_eq_true, decide_eq_true_eq, List.mem_range'_1]
  omega

/-- The buffer after `initialize_vector_for_once`. -/
def bits (v : BatchDeletionVector) : BitBuffer := v.deletionVector.getD (allActive v.maxRows)

theorem bits_fits (v : BatchDeletionVector) :
    v.bits.length = v.maxRows / 8 + 1 ∧ ∀ i, v.maxRows ≤ i → v.bits.getBit i = false := by
  unfold bits
  cases h : v.deletionVector with
  | none =>
    refine ⟨length_allActive _, ?_⟩
    intro i hi
    simp [getBit_allActive, hi]
  | some bits => exact v.fits bits h

/-- Mark a row as deleted, and return whether it was active. -/
def deleteRow (v : BatchDeletionVector) (rowIdx : Nat) :
    Except StoragePanic (Bool × BatchDeletionVector) := do
  StoragePanic.assert (rowIdx < v.maxRows) .rowOutOfRange
  return (v.bits.getBit rowIdx,
    { deletionVector := some (v.bits.unsetBit rowIdx)
      maxRows := v.maxRows
      fits := by
        rintro _ ⟨⟩
        refine ⟨by simp [v.bits_fits.1], ?_⟩
        intro i hi
        simp [BitBuffer.getBit_unsetBit, v.bits_fits.2 i hi] })

/-- The vector of a persisted blob, as `take_as_batch_delete_vector` builds it. -/
def ofDeletedRows (maxRows : Nat) (rows : List Nat) : BatchDeletionVector where
  deletionVector := if rows.isEmpty then none else some ((allActive maxRows).unsetBits rows)
  maxRows
  fits := by
    intro bits hbits
    split at hbits
    · cases hbits
    · cases hbits
      refine ⟨by simp [length_allActive], ?_⟩
      intro i hi
      simp [BitBuffer.getBit_unsetBits, getBit_allActive, hi]

/-- `assert!(v.delete_row(row_idx))`. -/
def deleteActiveRow (v : BatchDeletionVector) (rowIdx : Nat) :
    Except StoragePanic BatchDeletionVector := do
  let (wasActive, v) ← v.deleteRow rowIdx
  StoragePanic.assert wasActive .rowDeletedTwice
  return v

/-- The rows that are deleted in one of the vectors. -/
def mergeWith (v rhs : BatchDeletionVector) : Except StoragePanic BatchDeletionVector := do
  StoragePanic.assert (v.maxRows = rhs.maxRows) .mergeMaxRowsDiffer
  match rhs.deletionVector with
  | none => return v
  | some rhsBits =>
    return {
      deletionVector := some (v.bits.and rhsBits)
      maxRows := v.maxRows
      fits := by
        rintro _ ⟨⟩
        refine ⟨by simp [v.bits_fits.1], ?_⟩
        intro i hi
        simp [BitBuffer.getBit_and, v.bits_fits.2 i hi] }

/-- Keep the active rows of a batch whose first row has index `startRowIdx`. -/
def applyToBatchWithSlice {Row : Type} (v : BatchDeletionVector) (batch : List Row)
    (startRowIdx : Nat) : Except StoragePanic (List Row) :=
  match v.deletionVector with
  | none => .ok batch
  | some bits => do
    StoragePanic.assert (startRowIdx + batch.length ≤ v.maxRows) .sliceOutOfRange
    return ((batch.zipIdx startRowIdx).filter fun row => bits.getBit row.2).map (·.1)

/-- Reading a row after the end of the buffer panics in the code; callers stay below
the number of rows. -/
def isDeleted (v : BatchDeletionVector) (rowIdx : Nat) : Bool :=
  match v.deletionVector with
  | none => false
  | some bits => !bits.getBit rowIdx

def collectActiveRows (v : BatchDeletionVector) (totalRows : Nat) : List Nat :=
  match v.deletionVector with
  | none => List.range totalRows
  | some bits => (List.range totalRows).filter bits.getBit

theorem collectActiveRows_eq (v : BatchDeletionVector) (totalRows : Nat) :
    v.collectActiveRows totalRows = (List.range totalRows).filter fun i => !v.isDeleted i := by
  unfold collectActiveRows isDeleted
  cases v.deletionVector with
  | none => simp
  | some bits => simp

/-- The deleted rows of one byte. A full byte is skipped. -/
def deletedRowsInByte (maxRows : Nat) (byte : BitVec 8) (byteIdx : Nat) : List Nat :=
  if byte = 0xFF#8 then []
  else ((List.range' (byteIdx * 8) 8).takeWhile (· < maxRows)).filter fun rowIdx =>
    !byte.getLsbD (rowIdx - byteIdx * 8)

/-- The deleted rows, in ascending order. -/
def collectDeletedRows (v : BatchDeletionVector) : List Nat :=
  match v.deletionVector with
  | none => []
  | some bits => bits.zipIdx.flatMap fun b => deletedRowsInByte v.maxRows b.1 b.2

def getNumRowsDeleted (v : BatchDeletionVector) : Nat :=
  match v.deletionVector with
  | none => 0
  | some bits => (bits.zipIdx.map fun b => (deletedRowsInByte v.maxRows b.1 b.2).length).sum

def isEmpty (v : BatchDeletionVector) : Bool :=
  match v.deletionVector with
  | none => true
  | some _ => v.collectDeletedRows.isEmpty

/-! ## The deleted rows -/

variable {v : BatchDeletionVector} {rowIdx : Nat}

theorem isDeleted_eq_getBit (h : rowIdx < v.maxRows) :
    v.isDeleted rowIdx = !v.bits.getBit rowIdx := by
  unfold isDeleted bits
  cases v.deletionVector with
  | none => simp [getBit_allActive, h]
  | some bits => rfl

/-- Ascending numbers below a bound are a first part. -/
theorem takeWhile_lt_range' (start n bound : Nat) :
    (List.range' start n).takeWhile (· < bound) = (List.range' start n).filter (· < bound) := by
  induction n generalizing start with
  | zero => rfl
  | succ n ih =>
    rw [List.range'_succ, List.takeWhile_cons, List.filter_cons]
    by_cases h : start < bound
    · simp only [h, decide_true, if_true, ih]
    · simp only [h, decide_false, Bool.false_eq_true, if_false]
      rw [eq_comm, List.filter_eq_nil_iff]
      intro i hmem
      rw [List.mem_range'_1] at hmem
      simp only [decide_eq_true_eq]
      omega

theorem flatMap_range'_eight (n : Nat) :
    ((List.range n).flatMap fun k => List.range' (k * 8) 8) = List.range (n * 8) := by
  induction n with
  | zero => rfl
  | succ n ih =>
    rw [List.range_succ, List.flatMap_append, ih, List.flatMap_singleton, List.range_eq_range',
      List.range_eq_range', Nat.succ_mul, ← List.range'_append_1, Nat.zero_add]

theorem deletedRowsInByte_eq (maxRows : Nat) (byte : BitVec 8) (byteIdx : Nat) :
    deletedRowsInByte maxRows byte byteIdx =
      (List.range' (byteIdx * 8) 8).filter fun rowIdx =>
        !byte.getLsbD (rowIdx - byteIdx * 8) && decide (rowIdx < maxRows) := by
  unfold deletedRowsInByte
  split
  · -- Every bit of a full byte is set.
    rename_i hfull
    rw [eq_comm, List.filter_eq_nil_iff]
    intro rowIdx hmem
    rw [List.mem_range'_1] at hmem
    have hall : ∀ k < 8, (0xFF#8).getLsbD k = true := by decide
    simp [hfull, hall (rowIdx - byteIdx * 8) (by omega)]
  · rw [takeWhile_lt_range', List.filter_filter]

theorem collectDeletedRows_eq (v : BatchDeletionVector) :
    v.collectDeletedRows = (List.range v.maxRows).filter v.isDeleted := by
  unfold collectDeletedRows isDeleted
  cases hbits : v.deletionVector with
  | none => simp
  | some bits =>
    obtain ⟨hlen, -⟩ := v.fits bits hbits
    let deleted : Nat → Bool := fun i => !bits.getBit i && decide (i < v.maxRows)
    have hbytes : (bits.zipIdx.flatMap fun b => deletedRowsInByte v.maxRows b.1 b.2) =
        bits.zipIdx.flatMap fun b => (List.range' (b.2 * 8) 8).filter deleted := by
      refine List.flatMap_congr ?_
      rintro ⟨byte, k⟩ hmem
      have hget : bits[k]? = some byte := List.mem_zipIdx_iff_getElem?.mp hmem
      rw [deletedRowsInByte_eq]
      refine List.filter_congr ?_
      intro i hi
      rw [List.mem_range'_1] at hi
      have hbyte : i / 8 = k := by omega
      have hoffset : i - k * 8 = i % 8 := by omega
      simp only [deleted, BitBuffer.getBit, hbyte, hoffset, List.getD_eq_getElem?_getD, hget,
        Option.getD_some]
    have hrows : (bits.zipIdx.flatMap fun b => (List.range' (b.2 * 8) 8).filter deleted) =
        (List.range (bits.length * 8)).filter deleted := by
      rw [← flatMap_range'_eight, List.filter_flatMap, List.range_eq_range', ← List.zipIdx_map_snd 0 bits, List.flatMap_map]
    have hsplit : bits.length * 8 = v.maxRows + (bits.length * 8 - v.maxRows) := by omega
    simp only [hbytes, hrows]
    rw [hsplit, List.range_eq_range', ← List.range'_append_1, List.filter_append,
      List.range_eq_range']
    have htail : (List.range' (0 + v.maxRows) (bits.length * 8 - v.maxRows)).filter deleted = [] := by
      rw [List.filter_eq_nil_iff]
      intro i hi
      rw [List.mem_range'_1] at hi
      simp only [deleted, Bool.and_eq_true, decide_eq_true_eq, not_and]
      omega
    rw [htail, List.append_nil]
    refine List.filter_congr ?_
    intro i hi
    rw [List.mem_range'_1] at hi
    have hlt : i < v.maxRows := by omega
    simp [deleted, hlt]

theorem mem_collectDeletedRows :
    rowIdx ∈ v.collectDeletedRows ↔ rowIdx < v.maxRows ∧ v.bits.getBit rowIdx = false := by
  rw [collectDeletedRows_eq, List.mem_filter, List.mem_range]
  constructor
  · rintro ⟨hlt, hdel⟩
    rw [isDeleted_eq_getBit hlt] at hdel
    exact ⟨hlt, by simpa using hdel⟩
  · rintro ⟨hlt, hbit⟩
    refine ⟨hlt, ?_⟩
    rw [isDeleted_eq_getBit hlt, hbit]
    rfl

theorem isDeleted_of_mem (h : rowIdx ∈ v.collectDeletedRows) :
    v.isDeleted rowIdx = true := by
  obtain ⟨hlt, hbit⟩ := mem_collectDeletedRows.mp h
  rw [isDeleted_eq_getBit hlt, hbit]
  rfl

@[simp] theorem collectDeletedRows_new (maxRows : Nat) : (new maxRows).collectDeletedRows = [] := rfl

/-- Deleting an active row adds it to the deleted ones. -/
structure RowDeleted (v : BatchDeletionVector) (rowIdx : Nat) (v' : BatchDeletionVector) : Prop where
  maxRows : v'.maxRows = v.maxRows
  active : rowIdx ∉ v.collectDeletedRows
  mem : ∀ r, r ∈ v'.collectDeletedRows ↔ r ∈ v.collectDeletedRows ∨ r = rowIdx

theorem deleteRow_returns (h : rowIdx < v.maxRows) : Returns (v.deleteRow rowIdx) fun r =>
    r.1 = decide (rowIdx ∉ v.collectDeletedRows) ∧ r.2.maxRows = v.maxRows ∧
      ∀ i, i ∈ r.2.collectDeletedRows ↔ i ∈ v.collectDeletedRows ∨ i = rowIdx := by
  unfold deleteRow
  rw [StoragePanic.assert_pos (decide_eq_true h), ok_bind]
  refine .pure ⟨?_, rfl, fun i => ?_⟩
  · simp [mem_collectDeletedRows, h]
  simp only [mem_collectDeletedRows, bits, Option.getD_some, BitBuffer.getBit_unsetBit, Bool.and_eq_false_iff]
  constructor
  · rintro ⟨hi, hbit | hne⟩
    · exact .inl ⟨hi, hbit⟩
    · exact .inr (Eq.symm (by simpa using hne))
  · rintro (⟨hi, hbit⟩ | rfl)
    · exact ⟨hi, .inl hbit⟩
    · exact ⟨h, .inr (by simp)⟩

theorem deleteActiveRow_ensures (v : BatchDeletionVector) (rowIdx : Nat) :
    Ensures (v.deleteActiveRow rowIdx) (RowDeleted v rowIdx) := by
  intro v' h
  obtain ⟨⟨wasActive, v₁⟩, hdelete, hrest⟩ := bind_eq_ok.mp h
  obtain ⟨_, hrange, -⟩ := bind_eq_ok.mp hdelete
  obtain ⟨_, hdelete', hactive, hmax, hmem⟩ := deleteRow_returns (by simpa using StoragePanic.of_assert hrange)
  cases hdelete.symm.trans hdelete'
  obtain ⟨_, hassert, heq⟩ := bind_eq_ok.mp hrest
  cases heq
  have hwas : wasActive = true := by simpa using StoragePanic.of_assert hassert
  exact ⟨hmax, of_decide_eq_true (hactive.symm.trans hwas), hmem⟩

theorem deleteActiveRow_returns (hlt : rowIdx < v.maxRows)
    (hnew : rowIdx ∉ v.collectDeletedRows) : Returns (v.deleteActiveRow rowIdx) (RowDeleted v rowIdx) := by
  refine (deleteRow_returns hlt).bind ?_
  rintro ⟨wasActive, v'⟩ ⟨hactive, hmax, hmem⟩
  obtain rfl : wasActive = true := hactive.trans (decide_eq_true hnew)
  exact .ok ⟨hmax, hnew, hmem⟩

theorem mergeWith_ensures (v rhs : BatchDeletionVector) :
    Ensures (v.mergeWith rhs) fun v' => v'.maxRows = v.maxRows ∧
      ∀ r, r ∈ v'.collectDeletedRows ↔ r ∈ v.collectDeletedRows ∨ r ∈ rhs.collectDeletedRows := by
  intro v' h
  obtain ⟨_, hassert, h⟩ := bind_eq_ok.mp h
  have hmax : v.maxRows = rhs.maxRows := by simpa using StoragePanic.of_assert hassert
  cases hrhs : rhs.deletionVector with
  | none =>
    rw [hrhs] at h
    cases h
    have hnil : rhs.collectDeletedRows = [] := by simp [collectDeletedRows, hrhs]
    exact ⟨rfl, fun r => by simp [hnil]⟩
  | some rhsBits =>
    rw [hrhs] at h
    cases h
    refine ⟨rfl, ?_⟩
    intro r
    simp only [mem_collectDeletedRows, bits, Option.getD_some, BitBuffer.getBit_and, ← hmax, hrhs,
      Bool.and_eq_false_iff]
    exact and_or_left

theorem mem_collectDeletedRows_ofDeletedRows {maxRows : Nat} {rows : List Nat} :
    rowIdx ∈ (ofDeletedRows maxRows rows).collectDeletedRows ↔ rowIdx < maxRows ∧ rowIdx ∈ rows := by
  rw [mem_collectDeletedRows]
  change rowIdx < maxRows ∧ _ ↔ _
  refine and_congr_right fun hlt => ?_
  unfold ofDeletedRows bits
  cases rows with
  | nil => simp [getBit_allActive, hlt]
  | cons row rows =>
    simp only [List.isEmpty_cons, Bool.false_eq_true, if_false, Option.getD_some,
      BitBuffer.getBit_unsetBits, getBit_allActive, hlt, decide_true, Bool.true_and,
      decide_eq_false_iff_not, not_not]

theorem getNumRowsDeleted_eq (v : BatchDeletionVector) :
    v.getNumRowsDeleted = v.collectDeletedRows.length := by
  unfold getNumRowsDeleted collectDeletedRows
  cases v.deletionVector with
  | none => rfl
  | some bits => rw [List.length_flatMap]

theorem isDeleted_of_isEmpty (h : v.isEmpty = true)
    (hrow : rowIdx < v.maxRows) : v.isDeleted rowIdx = false := by
  unfold isEmpty at h
  cases hbits : v.deletionVector with
  | none => simp [isDeleted, hbits]
  | some bits =>
    rw [hbits] at h
    simp only [List.isEmpty_iff, collectDeletedRows_eq, List.filter_eq_nil_iff] at h
    simpa using h rowIdx (List.mem_range.mpr hrow)

/-- The rows of a batch that are active, by their index in the data file. -/
theorem applyToBatchWithSlice_eq {Row : Type} {batch : List Row}
    {startRowIdx : Nat} (h : startRowIdx + batch.length ≤ v.maxRows) :
    v.applyToBatchWithSlice batch startRowIdx =
      .ok (((batch.zipIdx startRowIdx).filter fun row => !v.isDeleted row.2).map (·.1)) := by
  unfold applyToBatchWithSlice isDeleted
  cases v.deletionVector with
  | none => simp
  | some bits =>
    simp only [StoragePanic.assert_pos (decide_eq_true h), Bool.not_not]
    rfl

end BatchDeletionVector
end Moonlink
