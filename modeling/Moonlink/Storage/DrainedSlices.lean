-- SUMMARY: What a mem slice hands over when it is drained, after any operations, and when its flush writes and indexes its active rows.
import Moonlink.Storage.FlushedIndex

namespace Moonlink.Storage

open Lib

variable {Row Ident : Type} [DecidableEq Ident]

namespace MemSlice

open ColumnStoreBuffer

variable {identity : IdentityProp Row Ident} {slice : MemSlice Row Ident} {counter : BatchIdCounter}

omit [DecidableEq Ident] in
/-- A drained slice hands over every row with its entries. -/
theorem Accounted.complete (h : slice.Accounted identity counter) :
    Ensures (slice.drain counter) fun res => DrainedRows.Complete identity ⟨res.1.2.1, res.1.2.2⟩ := by
  refine .bind (finalizeCurrentBatch_cell h.wellFormed) ?_
  rintro ⟨batch, store, counter'⟩ ⟨hwf, -, hrows, -, hcell⟩
  simp only at hwf hrows hcell
  -- All rows are in closed batches.
  have hclosed (loc : Nat × Nat) (r : Row) (deleted : Bool) (hloc : slice.columnStore.cell loc = some (r, deleted)) :
      ∃ entry ∈ store.closedBatches, entry.id = loc.1 ∧
        ∃ rows row, entry.batch.data = some rows ∧ rows[loc.2]? = some row ∧ row = r := by
    rw [← hcell, cell_eq_some_iff hwf.ordered] at hloc
    obtain ⟨entry, hentry, hid, hrow, -⟩ := hloc
    obtain hmem | hlast := List.mem_append.mp hentry
    · obtain ⟨rows, hdata⟩ := Option.isSome_iff_exists.mp (hwf.ordered.closed entry hmem)
      exact ⟨entry, hmem, hid, rows, r, hdata, by simpa [rowsOf, hdata] using hrow, rfl⟩
    · cases List.mem_singleton.mp hlast
      rw [rowsOf_openBatch hwf.ordered, hrows] at hrow
      cases hrow
  refine .pure ⟨h.kind, ?_, ?_, ?_, ?_, h.unindexed, h.nodup⟩
  · have hnodup := hwf.ordered.ids
    rw [inMemoryBatches, List.map_append] at hnodup
    exact (List.nodup_append.mp hnodup).1
  · intro entry hentry
    have hmem : entry ∈ store.inMemoryBatches := List.mem_append_left _ hentry
    obtain ⟨rows, hdata⟩ := Option.isSome_iff_exists.mp (hwf.ordered.closed entry hentry)
    refine ⟨rows, hdata, ?_⟩
    rw [hwf.sized.capacity entry hmem]
    simpa [rowsOf, hdata] using hwf.sized.rows entry hmem
  · intro e he
    obtain ⟨r, deleted, hrow, hhash, -⟩ := h.entries e he
    obtain ⟨entry, hentry, hid, rows, row, hdata, hget, rfl⟩ := hclosed e.location r deleted hrow
    exact ⟨entry, hentry, hid, rows, row, hdata, hget, hhash⟩
  · rintro hkind loc ⟨entry, hentry, hid, ⟨rows, hdata, hlt⟩, hactive⟩
    refine h.indexed hkind loc rows[loc.2] ?_
    rw [← hcell, cell_eq_some_iff hwf.ordered]
    exact ⟨entry, List.mem_append_left _ hentry, hid, by simp [rowsOf, hdata, hlt], hactive⟩

end MemSlice

/-! ## Runs -/

namespace SliceRun

open ColumnStoreBuffer

variable {identity : IdentityProp Row Ident} {s : SliceRun Row Ident}

/-- After any operations, the flush of a drained mem slice writes and indexes exactly its active rows if and only if
nothing is written, or no index entry is for a row of a batch whose rows are all deleted and there are ids for the
files. -/
theorem flush_returns_iff {maxRowsPerBuffer : Nat} (hmax : 0 < maxRowsPerBuffer) {counter counter' : BatchIdCounter}
    {slice : MemSlice Row Ident} (hnew : MemSlice.new identity maxRowsPerBuffer counter = .ok (slice, counter'))
    {ops : List (SliceOp Row)}
    (hops : RunMeets (fun s op => (next identity s op).toOption) FromLookups ⟨slice, counter', []⟩ ops)
    (hrun : ops.foldlM (next identity) ⟨slice, counter', []⟩ = .ok s) {batch : Option (Nat × List Row)}
    {batches : List (BatchEntry Row)} {index : MemIndex Ident} {rest : MemSlice Row Ident × BatchIdCounter}
    (hdrain : s.slice.drain s.counter = .ok ((batch, batches, index), rest)) (writer : ArrowWriter Row)
    (parquetFileSize : Nat) (writerLsn : Option Nat) (tableAutoIncrId : Nat) :
    Returns ((DiskSliceWriter.new batches writerLsn tableAutoIncrId index).write writer parquetFileSize)
        (Flushed identity ⟨batches, index⟩ writer parquetFileSize) ↔
      DrainedRows.Flushable identity ⟨batches, index⟩ writer parquetFileSize := by
  have hinit : AccountedInv identity (⟨slice, counter', []⟩ : SliceRun Row Ident) :=
    ⟨(MemSlice.Accounted.new hmax counter _ hnew).1, fun _ hpos => by cases hpos⟩
  have hinv : AccountedInv identity s :=
    RunMeets.invariant_ok (fun s op h hop => h.next op hop) hops hrun hinit
  have hcomplete : DrainedRows.Complete identity ⟨batches, index⟩ := hinv.accounted.complete _ hdrain
  exact DiskSliceWriter.write_returns_iff hcomplete writer parquetFileSize writerLsn tableAutoIncrId

/-- Rows that are their own identities. -/
def numberRows : IdentityProp Nat Nat where
  kind := .fullRow
  columns := id
  lookupKey := id
  lookupKey_eq _ _ h := h
  columns_eq h := by cases h
  equalsMoonlinkRow i r := i == r
  equalsRecordBatchAtOffset i r := some (i == r)
  equalsParquetAtOffset i r := some (i == r)

def unboundedWriter : ArrowWriter Nat := ⟨fun _ => 0, fun _ => 1, fun _ => Nat.succ_pos 0⟩

/-- Of two rows one is found and deleted at its position. -/
def halfDeleted : List (SliceOp Nat) := [.append 7, .append 8, .findNonDeletedPosition 7 3, .tryDeleteAtPos (1, 0)]

theorem flush_returns_iff_halfDeleted : ∃ s batch batches index rest,
    halfDeleted.foldlM (next numberKeys) emptyRun = .ok s ∧
    s.slice.drain s.counter = .ok ((batch, batches, index), rest) ∧
    Returns ((DiskSliceWriter.new batches (some 3) 0 index).write unboundedWriter 9)
      (Flushed numberKeys ⟨batches, index⟩ unboundedWriter 9) := by
  have hops : RunMeets (fun s op => (next numberKeys s op).toOption) FromLookups emptyRun halfDeleted := by
    decide +kernel
  refine ⟨_, _, _, _, _, rfl, rfl, ?_⟩
  refine (flush_returns_iff (by decide) new_emptyRun hops rfl rfl _ _ _ _).mpr (.inr ⟨fun e he => ?_, ?_⟩)
  · -- Both entries are for rows of the batch, of which the second is not deleted.
    have hid : e.location.1 = 1 := by
      obtain rfl | he := List.mem_cons.mp he
      · rfl
      · cases List.mem_singleton.mp he
        rfl
    rw [hid]
    exact ⟨1, _, List.mem_cons_self, rfl, ⟨[7, 8], rfl, by decide⟩, by decide +kernel⟩
  · decide +kernel

theorem not_returns_of_isOk {α : Type} {x : Except StoragePanic α} {P : α → Prop} (h : x.isOk = false) :
    ¬ Returns x P := by
  rintro ⟨a, rfl, -⟩
  cases h

/-- A slice without rows whose batches take one row each. -/
def emptyRowRun : SliceRun Nat Nat := ⟨⟨⟨1, [], ⟨1, .new 1⟩, []⟩, .new .fullRow⟩, ⟨1, true⟩, []⟩

/-- The row of a batch is deleted, and the next batch has another row. -/
def firstDeleted : List (SliceOp Nat) := [.append 7, .delete 7 3 false, .append 8]

/-- The entry of the deleted row is still in the index, and the flush panics. -/
theorem firstDeleted_not_flushed :
    MemSlice.new numberRows 1 (.new true) = .ok (emptyRowRun.slice, emptyRowRun.counter) ∧
    RunMeets (fun s op => (next numberRows s op).toOption) FromLookups emptyRowRun firstDeleted ∧
    ∃ s batch batches index rest, firstDeleted.foldlM (next numberRows) emptyRowRun = .ok s ∧
      s.slice.drain s.counter = .ok ((batch, batches, index), rest) ∧
      ¬ Returns ((DiskSliceWriter.new batches (some 3) 0 index).write unboundedWriter 9)
        (Flushed numberRows ⟨batches, index⟩ unboundedWriter 9) := by
  exact ⟨rfl, by decide +kernel, _, _, _, _, _, rfl, rfl, not_returns_of_isOk (by decide +kernel)⟩

end SliceRun
end Moonlink.Storage
