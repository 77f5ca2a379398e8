-- SUMMARY: The in-memory rows that a read of a snapshot considers, and the count of them that its status reports; its deletions.
import Moonlink.Storage.DeletionInvariant

namespace Moonlink.Storage

open Lib

inductive SnapshotReadPanic where
  /-- `get_buffer`: the snapshot has fewer rows than the commit point says. -/
  | bufferTooShort
  /-- `slice`: the batch has fewer rows than the commit point says. -/
  | sliceOutOfRange
  deriving DecidableEq, Repr

variable {Row Ident : Type}

/-- `SharedRowBufferSnapshot::get_buffer`. -/
def getBuffer (rows : List Row) (size : Nat) : Except SnapshotReadPanic (List Row) :=
  if size ≤ rows.length then .ok (rows.take size) else .error .bufferTooShort

/-- `RecordBatch::slice`, from the first row on. -/
def sliceBatch (rows : List Row) (limit : Nat) : Except SnapshotReadPanic (List Row) :=
  if limit ≤ rows.length then .ok (rows.take limit) else .error .sliceOutOfRange

/-- The number of records without filter. -/
def InMemoryBatch.getRawRecordNumber (batch : InMemoryBatch Row) : Nat :=
  match batch.data with
  | some rows => rows.length
  | none => 0

namespace SnapshotTableState

variable (s : SnapshotTableState Row Ident)

/-- What an entry adds to the count of `get_in_memory_row_num`. -/
def countBatch (entry : Sigma fun _ : Nat => InMemoryBatch Row) : Except SnapshotReadPanic Nat :=
  let (batchId, rowId) := s.lastCommit
  if entry.1 < batchId then .ok entry.2.getRawRecordNumber
  else if entry.1 = batchId ∧ rowId > 0 then
    if entry.2.data.isSome then .ok entry.2.getRawRecordNumber
    else do
      let rows ← getBuffer s.rows rowId
      return rows.length
  else .ok 0

/-- The number of rows in record batches before filtering. -/
def getInMemoryRowNum : Except SnapshotReadPanic Nat :=
  let (batchId, rowId) := s.lastCommit
  if batchId > 0 ∨ rowId > 0 then
    s.batches.entries.foldlM (fun numRows entry => do return numRows + (← s.countBatch entry)) 0
  else .ok 0

/-- The rows of an entry from which `request_read` filters the deleted ones. -/
def readBatch (entry : Sigma fun _ : Nat => InMemoryBatch Row) : Except SnapshotReadPanic (List Row) :=
  let (batchId, rowId) := s.lastCommit
  if entry.1 < batchId then .ok (entry.2.data.getD [])
  else if entry.1 = batchId ∧ rowId > 0 then
    match entry.2.data with
    | some rows => sliceBatch rows rowId
    | none => getBuffer s.rows rowId
  else .ok []

/-- The rows in memory that `request_read` considers. -/
def inMemoryRows : Except SnapshotReadPanic (List Row) :=
  let (batchId, rowId) := s.lastCommit
  if batchId > 0 ∨ rowId > 0 then collectM s.readBatch s.batches.entries else .ok []

/-- If the batch of the commit point is closed, the commit point is behind its last row. -/
def CommitAtBatchEnd : Prop :=
  ∀ batch rows, s.batches.lookup s.lastCommit.1 = some batch → batch.data = some rows → s.lastCommit.2 > 0 →
    rows.length = s.lastCommit.2

/-! ## Comparing the two loops -/

theorem foldlM_add {ε α : Type} (count : α → Except ε Nat) (as : List α) (n : Nat) :
    as.foldlM (fun total a => do return total + (← count a)) n = (do return n + (← as.mapM count).sum) := by
  induction as generalizing n with
  | nil => rfl
  | cons a as ih =>
    rw [List.foldlM_cons, List.mapM_cons]
    cases count a with
    | error e => rfl
    | ok m =>
      simp only [ok_bind, pure_bind, ih]
      cases as.mapM count with
      | error e => rfl
      | ok ms => simp [Nat.add_assoc]

variable {s} {entry : Sigma fun _ : Nat => InMemoryBatch Row}

/-- An entry is the closed batch of the commit point, with these rows. -/
def ClosedAtCommit (s : SnapshotTableState Row Ident) (entry : Sigma fun _ : Nat => InMemoryBatch Row)
    (rows : List Row) : Prop :=
  entry.1 = s.lastCommit.1 ∧ s.lastCommit.2 > 0 ∧ entry.2.data = some rows

/-- The loops agree on every other entry. -/
theorem countBatch_eq (h : ∀ rows, ClosedAtCommit s entry rows → rows.length = s.lastCommit.2) :
    s.countBatch entry = (do return (← s.readBatch entry).length) := by
  unfold countBatch readBatch InMemoryBatch.getRawRecordNumber
  dsimp only
  split
  · cases entry.2.data <;> rfl
  · split
    · rename_i hcommit
      cases hdata : entry.2.data with
      | none => rfl
      | some rows =>
        have hlen := h rows ⟨hcommit.1, hcommit.2, hdata⟩
        simp [sliceBatch, ← hlen]
    · rfl

/-- The closed batch of the commit point is counted as a whole, and cut at the commit point. -/
theorem countBatch_closed {rows : List Row} (h : ClosedAtCommit s entry rows) :
    s.countBatch entry = .ok rows.length ∧ s.readBatch entry = sliceBatch rows s.lastCommit.2 := by
  obtain ⟨hid, hpos, hdata⟩ := h
  unfold countBatch readBatch InMemoryBatch.getRawRecordNumber
  simp [hid, hpos, hdata]

theorem mapM_length {ε α : Type} (f : α → Except ε (List Row)) (as : List α) :
    (as.mapM fun a => do return (← f a).length) = (do return (← as.mapM f).map List.length) := by
  induction as with
  | nil => rfl
  | cons a as ih =>
    rw [List.mapM_cons, List.mapM_cons]
    cases f a with
    | error e => rfl
    | ok rows =>
      simp only [ok_bind, pure_bind, ih]
      cases as.mapM f <;> rfl

theorem length_collectM {ε α : Type} (f : α → Except ε (List Row)) (as : List α) :
    (do return (← collectM f as).length) = (do return (← as.mapM fun a => do return (← f a).length).sum) := by
  rw [mapM_length, collectM]
  cases as.mapM f with
  | error e => rfl
  | ok bss => exact congrArg Except.ok List.length_flatten

theorem lookup_of_closedAtCommit {rows : List Row} (h : ClosedAtCommit s entry rows)
    (hmem : entry ∈ s.batches.entries) : s.batches.lookup s.lastCommit.1 = some entry.2 := by
  rw [← h.1]
  exact AssocMap.lookup_eq_some_iff.mpr hmem

/-- What is read of an entry is counted, and more if it is cut at the commit point. -/
theorem count_of_read {read : List Row} (h : s.readBatch entry = .ok read) :
    ∃ n, s.countBatch entry = .ok n ∧ read.length ≤ n ∧
      ∀ rows, ClosedAtCommit s entry rows → n = rows.length ∧ read.length = s.lastCommit.2 := by
  by_cases hclosed : ∃ rows, ClosedAtCommit s entry rows
  · obtain ⟨rows, hclosed⟩ := hclosed
    obtain ⟨hcount, hread⟩ := countBatch_closed hclosed
    rw [hread, sliceBatch] at h
    split at h
    · rename_i hle
      cases h
      refine ⟨rows.length, hcount, by simp, fun rows' hclosed' => ?_⟩
      obtain rfl : rows = rows' := Option.some.inj (hclosed.2.2.symm.trans hclosed'.2.2)
      exact ⟨rfl, List.length_take_of_le hle⟩
    · cases h
  · refine ⟨read.length, ?_, Nat.le_refl _, fun rows hrows => absurd ⟨rows, hrows⟩ hclosed⟩
    rw [countBatch_eq fun rows hrows => absurd ⟨rows, hrows⟩ hclosed, h]
    rfl

/-- The two sums are equal only if every entry is counted as it is read. -/
theorem length_le_count {es : List (Sigma fun _ : Nat => InMemoryBatch Row)} {ns : List Nat} {reads : List (List Row)}
    (hcounts : List.Forall₂ (fun e n => s.countBatch e = .ok n) es ns)
    (hreads : List.Forall₂ (fun e read => s.readBatch e = .ok read) es reads) :
    (reads.map List.length).sum ≤ ns.sum ∧ ((reads.map List.length).sum = ns.sum →
      ∀ e ∈ es, ∀ n read, s.countBatch e = .ok n → s.readBatch e = .ok read → n = read.length) := by
  induction hcounts generalizing reads with
  | nil =>
    cases hreads
    exact ⟨Nat.le_refl _, fun _ e he => by cases he⟩
  | @cons e n es ns hcount _ ih =>
    obtain - | ⟨hread, hrest⟩ := hreads
    rename_i read reads
    obtain ⟨n', hcount', hle, -⟩ := count_of_read hread
    obtain rfl : n = n' := Except.ok.inj (hcount.symm.trans hcount')
    obtain ⟨hrestLe, hrestEq⟩ := ih hrest
    rw [List.map_cons, List.sum_cons, List.sum_cons]
    refine ⟨Nat.add_le_add hle hrestLe, fun heq e' he' m read' hm hread' => ?_⟩
    rcases List.mem_cons.mp he' with rfl | hmem
    · obtain rfl : n = m := Except.ok.inj (hcount.symm.trans hm)
      obtain rfl : read = read' := Except.ok.inj (hread.symm.trans hread')
      omega
    · exact hrestEq (by omega) e' hmem m read' hm hread'

/-- If the batch of the commit point is closed, counting does not panic. -/
theorem countBatch_returns {batch : InMemoryBatch Row} (hbatch : s.batches.lookup s.lastCommit.1 = some batch)
    (hdata : batch.data.isSome) (hmem : entry ∈ s.batches.entries) : ∃ n, s.countBatch entry = .ok n := by
  unfold countBatch
  dsimp only
  split
  · exact ⟨_, rfl⟩
  · split
    · rename_i hcommit
      have hentry : s.batches.lookup s.lastCommit.1 = some entry.2 := by
        rw [← hcommit.1]
        exact AssocMap.lookup_eq_some_iff.mpr hmem
      obtain rfl : batch = entry.2 := Option.some.inj (hbatch.symm.trans hentry)
      rw [if_pos hdata]
      exact ⟨_, rfl⟩
    · exact ⟨_, rfl⟩

theorem commitAtBatchEnd_of_eq
    (heq : (do return (← s.batches.entries.mapM s.countBatch).sum : Except SnapshotReadPanic Nat) =
      (do return ((← s.batches.entries.mapM s.readBatch).map List.length).sum)) : s.CommitAtBatchEnd := by
  intro batch rows hbatch hdata hpos
  have hclosed : ClosedAtCommit s ⟨s.lastCommit.1, batch⟩ rows := ⟨rfl, hpos, hdata⟩
  have hmem := AssocMap.lookup_eq_some_iff.mp hbatch
  -- The closed batch is counted without a panic, so the read does not panic either.
  have hisSome : batch.data.isSome := by rw [hdata]; rfl
  have hreturns : ∀ e ∈ s.batches.entries, Returns (s.countBatch e) fun n => s.countBatch e = .ok n := by
    intro e he
    obtain ⟨n, hn⟩ := countBatch_returns hbatch hisSome he
    exact ⟨n, hn, hn⟩
  obtain ⟨ns, hns, hcounts⟩ := returns_mapM_iff.mpr hreturns
  rw [hns] at heq
  cases hreads : s.batches.entries.mapM s.readBatch with
  | error e =>
    rw [hreads] at heq
    cases heq
  | ok reads =>
    rw [hreads] at heq
    have hsum : (reads.map List.length).sum = ns.sum := (Except.ok.inj heq).symm
    have hreadAll : List.Forall₂ (fun e read => s.readBatch e = .ok read) s.batches.entries reads :=
      Ensures.mapM (fun _ _ read hread => hread) reads hreads
    obtain ⟨read, hread⟩ := exists_eq_ok_of_mapM hreads hmem
    obtain ⟨n, hcount, -, hcut⟩ := count_of_read hread
    obtain ⟨hn, hlen⟩ := hcut rows hclosed
    rw [← hn, ← hlen]
    exact (length_le_count hcounts hreadAll).2 hsum _ hmem n read hcount hread

/-- The count is that of the rows that a read considers exactly if the commit point does not lie inside a
closed batch. -/
theorem getInMemoryRowNum_eq_iff (s : SnapshotTableState Row Ident) :
    s.getInMemoryRowNum = (do return (← s.inMemoryRows).length) ↔ s.CommitAtBatchEnd := by
  unfold getInMemoryRowNum inMemoryRows
  by_cases hstart : s.lastCommit.1 > 0 ∨ s.lastCommit.2 > 0
  · simp only [if_pos hstart]
    rw [foldlM_add, length_collectM, mapM_length]
    simp only [Nat.zero_add, bind_assoc, pure_bind]
    refine ⟨commitAtBatchEnd_of_eq, fun hend => ?_⟩
    have hagree : s.batches.entries.mapM s.countBatch =
        s.batches.entries.mapM fun e => do return (← s.readBatch e).length := by
      refine mapM_congr fun e he => countBatch_eq fun rows hclosed => ?_
      exact hend e.2 rows (lookup_of_closedAtCommit hclosed he) hclosed.2.2 hclosed.2.1
    rw [hagree, mapM_length]
    simp only [bind_assoc, pure_bind]
  · refine iff_of_true ?_ fun batch rows _ _ hpos => absurd (.inr hpos) hstart
    simp only [if_neg hstart]
    rfl

end SnapshotTableState

/-! ## A batch that is completed by an uncommitted transaction -/

namespace TableSystem

/-- One row is committed, and further rows complete its batch before the snapshot is taken. -/
def completedBehindCommit : List (TableAction Nat) :=
  [.append 1, .commit 10, .append 2, .append 3, .append 4, .append 5, .createSnapshot ⟨true, false⟩]

/-- A read considers the committed row, and all rows of the batch are counted. -/
theorem uncommitted_rows_counted : Returns (TableSystem.load natEnv emptyTable) fun sys₀ =>
    Returns (sys₀.run natEnv completedBehindCommit) fun sys =>
      sys.snapshot.getInMemoryRowNum = .ok 4 ∧ sys.snapshot.inMemoryRows = .ok [1] ∧
        sys.snapshot.getInMemoryRowNum ≠ (do return (← sys.snapshot.inMemoryRows).length) := by
  decide +kernel

end TableSystem

/-! ## The deletions of a read -/

namespace SnapshotTableState

/-- By the numbers of the data files. -/
structure ReadDeletions where
  /-- The rows of a blob stand for its place in a pinned puffin file. -/
  deletionVectors : List (Nat × List Nat)
  positionDeletes : List (Nat × Nat)

/-- A scan leaves out the row. -/
def ReadDeletions.Deletes (d : ReadDeletions) (file row : Nat) : Prop :=
  (∃ blob, (file, blob) ∈ d.deletionVectors ∧ row ∈ blob) ∨ (file, row) ∈ d.positionDeletes

/-- The numbers are cast to 32 bits. -/
def getDeletionRecords (s : SnapshotTableState Row Ident) : ReadDeletions :=
  let files := s.diskFiles.entries.zipIdx
  { deletionVectors := files.filterMap fun f => f.1.2.puffinDeletionBlob.map (f.2 % 2 ^ 32, ·)
    positionDeletes := s.committedDeletionLog.filterMap fun deletion =>
      match deletion.pos with
      | .diskFile fileId rowIdx => (files.find? (·.1.1 = fileId)).map fun f => (f.2 % 2 ^ 32, rowIdx % 2 ^ 32)
      | .memoryBatch _ _ => none }

theorem find?_zipIdx {files : DiskFiles Row} {i : Nat} {f} (hf : files.entries[i]? = some f) :
    files.entries.zipIdx.find? (·.1.1 = f.1) = some (f, i) := by
  obtain ⟨⟨g, j⟩, hfind⟩ := Option.isSome_iff_exists.mp (List.find?_isSome (p := (·.1.1 = f.1)).mpr
    ⟨(f, i), List.mem_zipIdx_iff_getElem?.mpr hf, decide_eq_true (p := f.1 = f.1) rfl⟩)
  have hkey : g.1 = f.1 := by simpa using List.find?_some hfind
  have hg := List.mem_zipIdx_iff_getElem?.mp (List.mem_of_find?_eq_some hfind)
  obtain rfl : j = i := (List.getElem?_inj (l := files.entries.map Sigma.fst)
    (by simpa using (List.getElem?_eq_some_iff.mp hg).1) files.nodupKeys).mp (by simp [hg, hf, hkey])
  cases hf.symm.trans hg
  exact hfind

/-- In every run as above, a read is given exactly the deleted rows of each file, while the numbers fit. -/
theorem getDeletionRecords_deletes [DecidableEq Ident] {env : TableEnv Row Ident} {persisted : PersistedTable Row}
    {actions : List (TableAction Row)} {sys₀ sys : TableSystem Row Ident} (hload : TableSystem.load env persisted = .ok sys₀)
    (hperm : TableSystem.PermittedRun env sys₀ actions) (hrun : sys₀.run env actions = .ok sys)
    (hfiles : sys.snapshot.diskFiles.entries.length ≤ 2 ^ 32)
    (hrows : ∀ f ∈ sys.snapshot.diskFiles.entries, f.2.committedDeletionVector.maxRows ≤ 2 ^ 32)
    {i row : Nat} {f : Sigma fun _ : FileId => DiskFileEntry Row} (hf : sys.snapshot.diskFiles.entries[i]? = some f) :
    sys.snapshot.getDeletionRecords.Deletes i row ↔ row ∈ f.2.committedDeletionVector.collectDeletedRows := by
  obtain ⟨_, hinv⟩ := (TableSystem.DeletionInv.load env persisted sys₀ hload).run env actions hperm sys hrun
  have hlook : sys.snapshot.diskFiles.lookup f.1 = some f.2 := AssocMap.lookup_eq_some_iff.mpr (List.mem_of_getElem? hf)
  have hnumber {j g} (hg : sys.snapshot.diskFiles.entries[j]? = some g) : j % 2 ^ 32 = j :=
    Nat.mod_eq_of_lt ((List.getElem?_eq_some_iff.mp hg).1.trans_le hfiles)
  have hdeleted (r : Nat) : r ∈ f.2.committedDeletionVector.collectDeletedRows ↔
      sys.snapshot.records.files.InBlob f.1 r ∨ Logged sys.snapshot.records.log f.1 r := by
    rw [← hinv.snapshot.represented f.1 r]
    simp [DiskFiles.Deleted, records, hlook]
  have hfits {r} (hlog : Logged sys.snapshot.records.log f.1 r) : r % 2 ^ 32 = r :=
    Nat.mod_eq_of_lt ((BatchDeletionVector.mem_collectDeletedRows.mp ((hdeleted r).mpr (.inr hlog))).1.trans_le
      (hrows f (List.mem_of_getElem? hf)))
  rw [hdeleted]
  refine or_congr ⟨?_, ?_⟩ ⟨?_, ?_⟩
  · rintro ⟨blob, hmem, hrow⟩
    obtain ⟨⟨g, j⟩, hg, hblob⟩ := List.mem_filterMap.mp hmem
    rw [List.mem_zipIdx_iff_getElem?] at hg
    obtain ⟨b, hb, heq⟩ := Option.map_eq_some_iff.mp hblob
    cases heq
    rw [hnumber hg] at hf
    cases hf.symm.trans hg
    exact ⟨_, hlook, by rw [hb]; exact hrow⟩
  · rintro ⟨entry, hentry, hrow⟩
    cases hlook.symm.trans hentry
    cases hb : f.2.puffinDeletionBlob with
    | none => rw [hb] at hrow; cases hrow
    | some blob =>
      rw [hb] at hrow
      refine ⟨blob, List.mem_filterMap.mpr ⟨(f, i), List.mem_zipIdx_iff_getElem?.mpr hf, ?_⟩, hrow⟩
      rw [hb, Option.map_some, hnumber hf]
  · intro hmem
    obtain ⟨deletion, hd, hpos⟩ := List.mem_filterMap.mp hmem
    split at hpos
    · rename_i fileId rowIdx hloc
      obtain ⟨⟨g, j⟩, hg, heq⟩ := Option.map_eq_some_iff.mp hpos
      cases heq
      obtain rfl : g.1 = fileId := by simpa using List.find?_some hg
      have hj := List.mem_zipIdx_iff_getElem?.mp (List.mem_of_find?_eq_some hg)
      rw [hnumber hj] at hf
      cases hf.symm.trans hj
      have hlog : Logged sys.snapshot.records.log g.1 rowIdx := ⟨deletion, hd, hloc⟩
      rwa [hfits hlog]
    · cases hpos
  · rintro ⟨deletion, hd, hloc⟩
    refine List.mem_filterMap.mpr ⟨deletion, hd, ?_⟩
    simp only [hloc, find?_zipIdx hf, Option.map_some, hnumber hf, hfits ⟨deletion, hd, hloc⟩]

open TableSystem in
theorem getDeletionRecords_deletes_persistedAtOnce : Returns (TableSystem.load natEnv emptyTable) fun sys₀ =>
    Returns (sys₀.run natEnv persistedAtOnce) fun sys => sys.snapshot.getDeletionRecords.Deletes 0 0 := by
  have hrun : Returns (TableSystem.load natEnv emptyTable) fun sys₀ => PermittedRun natEnv sys₀ persistedAtOnce ∧
      Returns (sys₀.run natEnv persistedAtOnce) fun sys => sys.snapshot.diskFiles.entries.length ≤ 2 ^ 32 ∧
        (∀ f ∈ sys.snapshot.diskFiles.entries, f.2.committedDeletionVector.maxRows ≤ 2 ^ 32) ∧
          ∃ f ∈ sys.snapshot.diskFiles.entries[0]?, 0 ∈ f.2.committedDeletionVector.collectDeletedRows := by
    decide +kernel
  obtain ⟨sys₀, hload, hperm, sys, hok, hfiles, hrows, f, hf, hrow⟩ := hrun
  exact ⟨sys₀, hload, sys, hok, (getDeletionRecords_deletes hload hperm hok hfiles hrows hf).mpr hrow⟩

end SnapshotTableState
end Moonlink.Storage
