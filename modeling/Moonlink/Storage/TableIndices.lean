-- SUMMARY: The files that a table holds for the next snapshot are indexed, whatever it does.
import Moonlink.Storage.FileIds
import Moonlink.Storage.MemIndexed

namespace Moonlink.Storage

open Lib

variable {Row Ident : Type}

/-! ## Ids of files -/

theorem keys_perm_of_mem_iff {files files' : DiskFiles Row} (h : ∀ f, f ∈ files' ↔ f ∈ files) :
    files'.keys.Perm files.keys :=
  (List.perm_ext_iff_of_nodup files'.keys_nodup files.keys_nodup).mpr h

theorem keys_insert_perm {files : DiskFiles Row} {f : FileId} (h : f ∉ files) (entry : DiskFileEntry Row) :
    (files.insert f entry).keys.Perm (files.keys ++ [f]) := by
  rw [AList.keys_insert, List.erase_of_not_mem h]
  exact (List.perm_append_singleton f files.keys).symm

open SnapshotTableState in
theorem keys_insertNewFile (files : DiskFiles Row) (new : List (DataFile Row)) :
    Ensures (new.foldlM insertNewFile files) fun files' =>
      files'.keys.Perm (files.keys ++ new.map (·.fileId)) := by
  refine .foldlM (I := fun (done : List (DataFile Row)) (files' : DiskFiles Row) =>
    files'.keys.Perm (files.keys ++ done.map (·.fileId))) (by simp) ?_
  intro done file rest files' _ hperm files'' hok
  obtain ⟨_, hassert, hok⟩ := bind_eq_ok.mp hok
  cases hok
  have hfresh : file.fileId ∉ files' :=
    AList.lookup_eq_none.mp (by simpa using StoragePanic.of_assert hassert)
  rw [List.map_append, List.map_singleton, ← List.append_assoc]
  exact (keys_insert_perm hfresh _).trans (hperm.append_right _)

open SnapshotTableState in
/-- The files of a slice are added. -/
theorem keys_integrate (slice : DiskSliceWriter Row Ident) (files : DiskFiles Row)
    (log : List ProcessedDeletionRecord) :
    Ensures (do
        let files ← slice.files.foldlM insertNewFile files
        log.foldlM (remapCommittedDeletion slice) files)
      fun files' => files'.keys.Perm (files.keys ++ slice.files.map (·.fileId)) := by
  refine .bind (keys_insertNewFile files slice.files) fun files₁ hperm => ?_
  refine (DeletionRecords.remapCommittedDeletion_ensures slice log files₁ fun f hf => ?_).mono
    fun files' hmoved => (keys_perm_of_mem_iff hmoved.mem).trans hperm
  exact AList.mem_keys.mpr (hperm.mem_iff.mpr (List.mem_append_right _ hf))

/-! ## Streams -/

theorem fileIndices_foldl_insertFileIndex (indices : List FileIndex) (index : MooncakeIndex Ident) :
    (indices.foldl (·.insertFileIndex ·) index).fileIndices = index.fileIndices ++ indices := by
  induction indices generalizing index with
  | nil => simp
  | cons i rest ih => rw [List.foldl_cons, ih, MooncakeIndex.insertFileIndex, List.append_assoc]; rfl

namespace StreamState

/-- The rows and the files of a stream are indexed. -/
structure Indexed (identity : IdentityProp Row Ident) (counter : BatchIdCounter)
    (st : StreamState Row Ident) : Prop where
  memSlice : st.memSlice.Indexed identity counter
  files : FilesIndexed st.streamIndices.fileIndices st.flushedFiles.keys

variable {identity : IdentityProp Row Ident} {counter : BatchIdCounter} {st : StreamState Row Ident}

theorem Indexed.mono {counter' : BatchIdCounter} (h : st.Indexed identity counter)
    (hle : counter.counter ≤ counter'.counter) : st.Indexed identity counter' :=
  ⟨h.memSlice.mono hle, h.files⟩

/-- Deletes outside of the mem slice leave the rest alone. -/
structure SameIndices (st st' : StreamState Row Ident) : Prop where
  memSlice : st'.memSlice = st.memSlice
  streamIndices : st'.streamIndices = st.streamIndices

theorem deleteAtLocation_sameIndices [DecidableEq Ident] (st : StreamState Row Ident)
    (identity : IdentityProp Row Ident) (record : RawDeletionRecord Ident) (loc : RecordLocation) :
    Ensures (st.deleteAtLocation identity record loc) fun res =>
      ∀ st', res = some st' → SameIndices st st' := by
  cases loc with
  | memoryBatch batchId rowIdx =>
    change Ensures (st.deleteInBatch identity record batchId rowIdx) _
    unfold deleteInBatch
    split
    · exact .error
    · split
      · exact .ok fun _ h => by cases h
      · refine .bind_any fun _ => ?_
        split
        · refine .bind_any fun _ => .pure ?_
          rintro _ ⟨⟩
          exact ⟨rfl, rfl⟩
        · exact .pure fun _ h => by cases h
  | diskFile fileId rowIdx =>
    change Ensures (st.deleteInFile identity record fileId rowIdx) _
    unfold deleteInFile
    split
    · exact .error
    · split
      · exact .ok fun _ h => by cases h
      · refine .bind_any fun _ => ?_
        split
        · refine .bind_any fun _ => .pure ?_
          rintro _ ⟨⟩
          exact ⟨rfl, rfl⟩
        · exact .pure fun _ h => by cases h

theorem deleteAtLocations_sameIndices [DecidableEq Ident] (st : StreamState Row Ident)
    (identity : IdentityProp Row Ident) (record : RawDeletionRecord Ident)
    (locs : List RecordLocation) :
    Ensures (st.deleteAtLocations identity record locs) fun res =>
      ∀ st', res = some st' → SameIndices st st' := by
  induction locs with
  | nil => exact .ok nofun
  | cons loc rest ih =>
    refine .bind (st.deleteAtLocation_sameIndices identity record loc) fun res hres => ?_
    cases res with
    | some st' => exact .pure hres
    | none => exact ih

/-- Steps that only delete keep the files. -/
theorem keys_perm_of_step {st st' : StreamState Row Ident} (h : Step [] st st') :
    st'.flushedFiles.keys.Perm st.flushedFiles.keys :=
  keys_perm_of_mem_iff fun f =>
    ⟨fun hf => (h.records.mem_inv f hf).resolve_right nofun, h.records.mem f⟩

theorem Indexed.deleteLocal [DecidableEq Ident] (h : st.Indexed identity counter)
    (record : RawDeletionRecord Ident) :
    Ensures (st.deleteLocal identity record) fun res => res.2.Indexed identity counter := by
  refine .bind (h.memSlice.delete record) ?_
  rintro ⟨pos, memSlice⟩ hmemSlice
  cases pos with
  | some pos => exact .pure ⟨hmemSlice, h.files⟩
  | none =>
    intro res hok
    obtain ⟨found, hfound, hok⟩ := bind_eq_ok.mp hok
    have hsame := deleteAtLocations_sameIndices { st with memSlice } identity record _ found hfound
    have hstep := deleteAtLocations_ensures { st with memSlice } identity record _ found hfound
    cases found with
    | some st' =>
      cases hok
      refine ⟨(hsame st' rfl).memSlice ▸ hmemSlice, ?_⟩
      rw [(hsame st' rfl).streamIndices]
      exact h.files.congr_files (keys_perm_of_step (hstep st' rfl)).symm
    | none =>
      cases hok
      exact ⟨hmemSlice, h.files⟩

/-- What is drained can be flushed with an index. -/
theorem Indexed.drain (h : st.Indexed identity counter) :
    Ensures (st.drain counter) fun res => res.2.1.Indexed identity res.2.2 ∧
      counter.counter ≤ res.2.2.counter ∧
      (res.1.1.filterMap DiskSliceWriter.filteredBatch ≠ [] → res.1.2.isEmpty = false) := by
  refine .bind h.memSlice.drain ?_
  rintro ⟨⟨_, batches, index⟩, memSlice, counter'⟩ ⟨hmemSlice, hcounter, hindexable⟩
  exact .pure ⟨⟨hmemSlice, h.files⟩, hcounter, hindexable⟩

theorem Indexed.integrateDiskSlice [DecidableEq Ident] (h : st.Indexed identity counter)
    {slice : DiskSliceWriter Row Ident} (hslice : slice.Indexed) :
    Ensures (st.integrateDiskSlice slice) fun st' => st'.Indexed identity counter := by
  intro st' hok
  obtain ⟨files, hfiles, hok⟩ := bind_eq_ok.mp hok
  obtain ⟨batches, -, hok⟩ := bind_eq_ok.mp hok
  obtain ⟨flushedFiles, hflushed, hok⟩ := bind_eq_ok.mp hok
  cases hok
  have hkeys := keys_integrate slice st.flushedFiles st.localDeletions flushedFiles
    (bind_eq_ok.mpr ⟨files, hfiles, hflushed⟩)
  refine ⟨h.memSlice, ?_⟩
  simp only [MooncakeIndex.deleteMemoryIndex, fileIndices_foldl_insertFileIndex]
  exact (h.files.append hslice).congr_files hkeys.symm

end StreamState

/-! ## The table -/

/-- The files of a stream that was committed are indexed. -/
def TransactionStreamOutput.Indexed : TransactionStreamOutput Row Ident → Prop
  | .commit c => FilesIndexed c.flushedFileIndices c.flushedFiles.keys
  | .abort _ => True

namespace MooncakeTable

/-- What the table holds is indexed. -/
structure Indexed (identity : IdentityProp Row Ident) (t : MooncakeTable Row Ident) : Prop where
  memSlice : t.memSlice.Indexed identity t.nonStreamingBatchIdCounter
  streams : ∀ xactId st, t.transactionStreamStates.lookup xactId = some st →
    st.Indexed identity t.streamingBatchIdCounter
  outputs : ∀ output ∈ t.nextSnapshotTask.newStreamingXact, output.Indexed
  slices : ∀ slice ∈ t.nextSnapshotTask.newDiskSlices, slice.Indexed

variable {identity : IdentityProp Row Ident} {t : MooncakeTable Row Ident}

/-! ### The main transaction -/

theorem Indexed.append (h : t.Indexed identity) (hkind : identity.kind ≠ .none) (row : Row) :
    Ensures (t.append identity row) (Indexed identity) := by
  refine .bind (h.memSlice.append hkind row) ?_
  rintro ⟨batch, memSlice, counter⟩ ⟨hmemSlice, -⟩
  exact .pure ⟨hmemSlice, h.streams, h.outputs, h.slices⟩

theorem Indexed.deleteImpl [DecidableEq Ident] (h : t.Indexed identity) (row : Row) (lsn : Nat)
    (deleteIfExists : Bool) : Ensures (t.deleteImpl identity row lsn deleteIfExists) (Indexed identity) := by
  unfold MooncakeTable.deleteImpl
  split
  · exact .ok h
  · refine .bind (h.memSlice.delete _) ?_
    rintro ⟨pos, memSlice⟩ hmemSlice
    exact .pure ⟨hmemSlice, h.streams, h.outputs, h.slices⟩

theorem Indexed.commit (h : t.Indexed identity) (lsn : Nat) :
    Ensures (t.commit lsn) (Indexed identity) :=
  .bind_any fun _ => .bind_any fun _ => .pure ⟨h.memSlice, h.streams, h.outputs, h.slices⟩

theorem Indexed.prepareDiskSlice (h : t.Indexed identity) (lsn : Nat) :
    Ensures (t.prepareDiskSlice lsn) fun res => res.2.Indexed identity ∧ res.1.Indexable := by
  refine .bind h.memSlice.drain ?_
  rintro ⟨⟨newBatch, batches, index⟩, memSlice, counter⟩ ⟨hmemSlice, -, hindexable⟩
  exact .bind_any fun _ => .pure ⟨⟨hmemSlice, h.streams, h.outputs, h.slices⟩, hindexable⟩

theorem Indexed.flush (h : t.Indexed identity) (lsn : Nat) :
    Ensures (t.flush lsn) fun res => res.2.Indexed identity ∧ ∀ slice ∈ res.1, slice.Indexable := by
  unfold MooncakeTable.flush
  split
  · exact .bind_any fun _ => .pure ⟨⟨h.memSlice, h.streams, h.outputs, h.slices⟩, nofun⟩
  · refine .bind_any fun _ => .bind (h.prepareDiskSlice lsn) ?_
    rintro ⟨slice, t₁⟩ ⟨h₁, hindexable⟩
    refine .bind_any fun _ => .pure ⟨⟨h₁.memSlice, h₁.streams, h₁.outputs, h₁.slices⟩, ?_⟩
    rintro _ ⟨⟩
    exact hindexable

variable {slice : DiskSliceWriter Row Ident}

theorem Indexed.addDiskSlice (h : t.Indexed identity)
    (hslice : slice.Indexed) (lsn : Nat) : Ensures (t.addDiskSlice slice lsn) (Indexed identity) := by
  refine .bind_any fun _ => .pure ⟨h.memSlice, h.streams, h.outputs, ?_⟩
  intro slice' hmem
  rcases List.mem_append.mp hmem with hold | hnew
  · exact h.slices slice' hold
  · exact List.mem_singleton.mp hnew ▸ hslice

theorem Indexed.applyFlushResult (h : t.Indexed identity)
    (hslice : slice.Indexed) : Ensures (t.applyFlushResult slice) (Indexed identity) := by
  unfold MooncakeTable.applyFlushResult
  split
  · exact .error
  · exact h.addDiskSlice hslice _

/-! ### Streaming transactions -/

theorem Indexed.setStreamState (h : t.Indexed identity) (xactId : Nat) {st : StreamState Row Ident}
    (hst : st.Indexed identity t.streamingBatchIdCounter) :
    (t.setStreamState xactId st).Indexed identity where
  memSlice := h.memSlice
  streams xactId' st' hlook := by
    unfold MooncakeTable.setStreamState at hlook
    rw [AssocMap.lookup_insert_ite] at hlook
    split at hlook
    · cases hlook
      exact hst
    · exact h.streams xactId' st' hlook
  outputs := h.outputs
  slices := h.slices

theorem Indexed.removeIfFlushed (h : t.Indexed identity) (xactId : Nat) {st : StreamState Row Ident}
    (hst : st.Indexed identity t.streamingBatchIdCounter) :
    (t.removeIfFlushed xactId st).Indexed identity := by
  unfold MooncakeTable.removeIfFlushed
  split
  · refine ⟨h.memSlice, fun xactId' st' hlook => ?_, h.outputs, h.slices⟩
    rw [AssocMap.lookup_erase_ite] at hlook
    split at hlook
    · cases hlook
    · exact h.streams xactId' st' hlook
  · exact h.setStreamState xactId hst

/-- The counter of the streams moves on. -/
theorem Indexed.setCounter (h : t.Indexed identity) {counter : BatchIdCounter}
    (hle : t.streamingBatchIdCounter.counter ≤ counter.counter) :
    Indexed identity { t with streamingBatchIdCounter := counter } :=
  ⟨h.memSlice, fun xactId st hlook => (h.streams xactId st hlook).mono hle, h.outputs, h.slices⟩

theorem Indexed.getStreamState (h : t.Indexed identity) (xactId : Nat) :
    Ensures (t.getStreamState xactId) fun st => st.Indexed identity t.streamingBatchIdCounter :=
  (t.getStreamState_ensures xactId).mono fun st hlook => h.streams xactId st hlook

variable {cfg : SnapshotConfig Row Ident}

theorem Indexed.getOrCreateStreamState (h : t.Indexed cfg.identity)
    (xactId : Nat) : Ensures (t.getOrCreateStreamState cfg xactId) fun res =>
      res.2.Indexed cfg.identity ∧ res.1.Indexed cfg.identity res.2.streamingBatchIdCounter := by
  unfold MooncakeTable.getOrCreateStreamState
  cases hlook : t.transactionStreamStates.lookup xactId with
  | some st => exact .ok ⟨h, h.streams xactId st hlook⟩
  | none =>
    refine .bind (MemSlice.new_ensures cfg.identity cfg.batchSize t.streamingBatchIdCounter) ?_
    rintro ⟨memSlice, counter⟩ ⟨hmemSlice, hcounter⟩
    exact .pure ⟨h.setCounter hcounter, ⟨hmemSlice, .nil⟩⟩

theorem Indexed.appendInStreamBatch (h : t.Indexed cfg.identity)
    (hkind : cfg.identity.kind ≠ .none) (row : Row) (xactId : Nat) :
    Ensures (t.appendInStreamBatch cfg row xactId) (Indexed cfg.identity) := by
  refine .bind (h.getOrCreateStreamState xactId) ?_
  rintro ⟨st, t₁⟩ ⟨h₁, hst⟩
  refine .bind (hst.memSlice.append hkind row) ?_
  rintro ⟨_, memSlice, counter⟩ ⟨hmemSlice, hcounter⟩
  exact .pure ((h₁.setCounter hcounter).setStreamState xactId ⟨hmemSlice, hst.files⟩)

theorem Indexed.deleteInStreamBatch [DecidableEq Ident]
    (h : t.Indexed cfg.identity) (row : Row) (xactId : Nat) :
    Ensures (t.deleteInStreamBatch cfg row xactId) (Indexed cfg.identity) := by
  unfold MooncakeTable.deleteInStreamBatch
  split
  · exact .ok h
  · refine .bind (h.getOrCreateStreamState xactId) ?_
    rintro ⟨st, t₁⟩ ⟨h₁, hst⟩
    refine .bind (hst.deleteLocal _) ?_
    rintro ⟨deleted, st'⟩ hst'
    simp only
    split
    · exact .pure (h₁.setStreamState xactId hst')
    · refine .bind_any fun pos => ?_
      cases pos with
      | some pos => exact .pure (h₁.setStreamState xactId ⟨hst'.memSlice, hst'.files⟩)
      | none =>
        have hset := h₁.setStreamState xactId hst'
        exact .pure ⟨hset.memSlice, hset.streams, hset.outputs, hset.slices⟩

/-- A stream ends. -/
theorem Indexed.addOutput (h : t.Indexed identity) {output : TransactionStreamOutput Row Ident}
    (houtput : output.Indexed) :
    ∀ output' ∈ t.nextSnapshotTask.newStreamingXact ++ [output], output'.Indexed := by
  intro output' hmem
  rcases List.mem_append.mp hmem with hold | hnew
  · exact h.outputs output' hold
  · exact List.mem_singleton.mp hnew ▸ houtput

theorem Indexed.abortInStreamBatch (h : t.Indexed identity) (xactId : Nat) :
    Ensures (t.abortInStreamBatch xactId) (Indexed identity) := by
  refine .bind (h.getStreamState xactId) fun st hst => ?_
  have hst' : StreamState.Indexed identity t.streamingBatchIdCounter { st with status := .aborted } :=
    ⟨hst.memSlice, hst.files⟩
  have hremoved := h.removeIfFlushed xactId hst'
  exact .pure ⟨hremoved.memSlice, hremoved.streams, hremoved.addOutput trivial, hremoved.slices⟩

theorem Indexed.flushStream (h : t.Indexed identity) (xactId : Nat) (lsn : Option Nat) :
    Ensures (t.flushStream xactId lsn) fun res => res.2.Indexed identity ∧ res.1.Indexable := by
  refine .bind (h.getStreamState xactId) fun st hst => ?_
  refine .bind hst.drain ?_
  rintro ⟨⟨batches, index⟩, st', counter⟩ ⟨hst', hcounter, hindexable⟩
  have hset : ∀ flushLsns, Indexed identity (MooncakeTable.setStreamState
      { t with streamingBatchIdCounter := counter, nextFileId := t.nextFileId + 1, flushLsns } xactId
      { st' with ongoingFlushCount := st'.ongoingFlushCount + 1 }) := by
    intro flushLsns
    have hcount := h.setCounter hcounter
    have htable : Indexed identity { t with
        streamingBatchIdCounter := counter, nextFileId := t.nextFileId + 1, flushLsns } :=
      ⟨hcount.memSlice, hcount.streams, hcount.outputs, hcount.slices⟩
    exact htable.setStreamState xactId ⟨hst'.memSlice, hst'.files⟩
  cases lsn with
  | none => exact .pure ⟨hset _, hindexable⟩
  | some lsn => exact .bind_any fun flushLsns => .pure ⟨hset _, hindexable⟩

theorem commitPendingDeletion_indexed {counter : BatchIdCounter}
    (acc : MemSlice Row Ident × List (RawDeletionRecord Ident)) (deletion : RawDeletionRecord Ident)
    (h : acc.1.Indexed identity counter) :
    Ensures (commitPendingDeletion acc deletion) fun res => res.1.Indexed identity counter := by
  unfold commitPendingDeletion
  split
  · exact .ok h
  · refine .bind (h.tryDeleteAtPos _) ?_
    rintro ⟨found, memSlice⟩ hmemSlice
    exact .pure hmemSlice

theorem Indexed.commitTransactionStreamImpl (h : t.Indexed identity) (xactId lsn : Nat) :
    Ensures (t.commitTransactionStreamImpl xactId lsn) (Indexed identity) := by
  refine .bind (h.getStreamState xactId) fun st hst => ?_
  refine .bind hst.drain ?_
  rintro ⟨_, st', counter⟩ ⟨hst', hcounter, -⟩
  have hfold : Ensures
      (st'.pendingDeletionsInMainMemSlice.foldlM commitPendingDeletion (t.memSlice, []))
      fun res => res.1.Indexed identity t.nonStreamingBatchIdCounter := by
    refine .foldlM (I := fun _ (res : MemSlice Row Ident × List (RawDeletionRecord Ident)) =>
      res.1.Indexed identity t.nonStreamingBatchIdCounter) h.memSlice ?_
    intro _ deletion _ acc _ hacc
    exact commitPendingDeletion_indexed acc deletion hacc
  refine .bind_any fun _ => .bind_any fun _ => .bind hfold ?_
  rintro ⟨memSlice, pendingDeletions⟩ hmemSlice
  have hcount := h.setCounter hcounter
  refine .pure ⟨hmemSlice, ?_, h.addOutput hst'.files, h.slices⟩
  intro xactId' st'' hlook
  simp only [MooncakeTable.setStreamState, AssocMap.lookup_insert_ite] at hlook
  split at hlook
  · cases hlook
    exact ⟨hst'.memSlice, hst'.files⟩
  · exact hcount.streams xactId' st'' hlook

theorem Indexed.commitTransactionStream (h : t.Indexed identity) (xactId lsn : Nat) :
    Ensures (t.commitTransactionStream xactId lsn) fun res =>
      res.2.Indexed identity ∧ res.1.Indexable := by
  refine .bind (h.flushStream xactId (some lsn)) ?_
  rintro ⟨slice, t₁⟩ ⟨h₁, hindexable⟩
  exact .bind (h₁.commitTransactionStreamImpl xactId lsn) fun t₂ h₂ => .pure ⟨h₂, hindexable⟩

theorem Indexed.applyStreamFlushResult [DecidableEq Ident] (h : t.Indexed identity) (xactId : Nat)
    (hslice : slice.Indexed) :
    Ensures (t.applyStreamFlushResult xactId slice) (Indexed identity) := by
  refine .bind (h.getStreamState xactId) fun st hst => ?_
  have hst₁ : StreamState.Indexed identity t.streamingBatchIdCounter
      { st with ongoingFlushCount := st.ongoingFlushCount - 1 } := ⟨hst.memSlice, hst.files⟩
  generalize ({ st with ongoingFlushCount := st.ongoingFlushCount - 1 } : StreamState Row Ident) = st₁
    at hst₁ ⊢
  simp only
  cases st₁.status with
  | committed commitLsn =>
    have hslice' : DiskSliceWriter.Indexed
        { slice with writerLsn := slice.writerLsn <|> some commitLsn } := hslice
    exact (h.removeIfFlushed xactId hst₁).addDiskSlice hslice' commitLsn
  | aborted => exact .pure (h.removeIfFlushed xactId hst₁)
  | pending =>
    exact .bind (hst₁.integrateDiskSlice hslice) fun st₂ hst₂ => .pure (h.setStreamState xactId hst₂)

/-! ### Snapshots and background results -/

theorem Indexed.reserveFileIds (h : t.Indexed identity) (n : Nat) :
    Ensures (t.reserveFileIds n) (Indexed identity) :=
  .bind_any fun _ => .pure ⟨h.memSlice, h.streams, h.outputs, h.slices⟩

theorem Indexed.performDataCompaction (h : t.Indexed identity)
    (payload : DataCompactionPayload Row FileIndex) :
    Ensures (t.performDataCompaction payload) (Indexed identity) :=
  .bind (h.reserveFileIds _) fun _ h₁ => .bind_any fun _ =>
    .pure ⟨h₁.memSlice, h₁.streams, h₁.outputs, h₁.slices⟩

/-- The ids of ingested files. -/
theorem keys_foldl_new (files : List (DataFile Row)) (m : DiskFiles Row)
    (hnodup : (files.map (·.fileId)).Nodup) (hfresh : ∀ file ∈ files, file.fileId ∉ m) :
    (files.foldl (fun m file => m.insert file.fileId (DiskFileEntry.new file)) m).keys.Perm
      (m.keys ++ files.map (·.fileId)) := by
  induction files generalizing m with
  | nil => simp
  | cons file rest ih =>
    rw [List.map_cons, List.nodup_cons] at hnodup
    have hinsert := keys_insert_perm (hfresh file List.mem_cons_self) (DiskFileEntry.new file)
    rw [List.foldl_cons]
    refine (ih _ hnodup.2 fun file' hfile' hmem => ?_).trans ?_
    · rcases AList.mem_insert _ |>.mp hmem with heq | hold
      · exact hnodup.1 (heq ▸ List.mem_map_of_mem hfile')
      · exact hfresh file' (List.mem_cons_of_mem _ hfile') hold
    · rw [List.map_cons, ← List.singleton_append, ← List.append_assoc]
      exact hinsert.append_right _

theorem Indexed.batchIngest (h : t.Indexed identity) (hkind : identity.kind ≠ .none)
    {files : List (List Row)} (hfiles : files ≠ []) (lsn : Nat) :
    Ensures (t.batchIngest identity files lsn) (Indexed identity) := by
  refine .bind (h.reserveFileIds files.length) fun t₁ h₁ => .pure ?_
  refine ⟨h₁.memSlice, h₁.streams, h₁.addOutput ?_, h₁.slices⟩
  rw [TransactionStreamOutput.Indexed, if_neg hkind]
  have hids : ((files.zipIdx t.nextFileId).map fun f => (⟨f.2, f.1⟩ : DataFile Row)).map (·.fileId) =
      List.range' t.nextFileId files.length := by
    rw [List.map_map]
    exact List.zipIdx_map_snd t.nextFileId files
  have hkeys := keys_foldl_new ((files.zipIdx t.nextFileId).map fun f => (⟨f.2, f.1⟩ : DataFile Row)) ∅
    (hids ▸ List.nodup_range') nofun
  rw [hids] at hkeys
  refine ⟨?_, ?_⟩
  · rw [List.flatMap_singleton, buildIndexForFiles, hids]
    exact hkeys.symm
  · intro index hindex
    cases List.mem_singleton.mp hindex
    simpa [buildIndexForFiles] using hfiles

/-- Without files nothing is missing in the indices. -/
theorem Indexed.batchIngestUnindexed_nil (h : t.Indexed identity) (lsn : Nat) :
    Ensures (t.batchIngestUnindexed identity [] lsn) (Indexed identity) := by
  refine .bind (h.reserveFileIds 0) fun t₁ h₁ => .pure ?_
  exact ⟨h₁.memSlice, h₁.streams, h₁.addOutput .nil, h₁.slices⟩

end MooncakeTable
end Moonlink.Storage
