-- SUMMARY: In every run the persistence buffer holds what was integrated and is not confirmed, in order; its checks pass if compactions write as many indices as files.
import Mathlib.Data.List.Flatten
import Moonlink.Storage.FileIndices
import Moonlink.Storage.PersistenceBuffer

/-!
# Accounting of unpersisted records

The buffer is related to an outbox of snapshot tasks: each of its lists is what the tasks
that are not confirmed integrate, in order. Dropping by count from the front is right
because a payload holds exactly the first of these tasks. The relation needs no condition
on the tasks; that the checks of the buffer pass does.
-/

namespace Moonlink.Storage

open Lib

variable {Row Ident : Type}

theorem returns_mapError {ε δ α : Type} {x : Except ε α} {f : ε → δ} {Q : α → Prop} :
    Returns (x.mapError f) Q ↔ Returns x Q := by
  cases x with
  | error e =>
    constructor
    · rintro ⟨_, h, _⟩
      cases h
    · rintro ⟨_, h, _⟩
      cases h
  | ok a => exact Returns.ok_iff.trans Returns.ok_iff.symm

theorem BufferPanic.returns_assert {c : Bool} {p : BufferPanic} {Q : Unit → Prop} (hc : c = true)
    (hQ : Q ()) : Returns (BufferPanic.assert c p) Q := by
  rw [hc]
  exact .ok hQ

/-! ## What a task integrates -/

namespace SnapshotTask

variable (task : SnapshotTask Row Ident)

def compactedDataFilesToAdd : List (DataFile Row) :=
  (task.dataCompactionResult.map fun r =>
    r.newDataFiles.map fun f => (⟨f.1.fileId, f.1.batches.flatten⟩ : DataFile Row)).getD []

def compactedDataFilesToRemove : List FileId :=
  (task.dataCompactionResult.map (·.oldDataFiles)).getD []

def compactedFileIndicesToAdd : List FileIndex :=
  (task.dataCompactionResult.map (·.newFileIndices)).getD []

def compactedFileIndicesToRemove : List FileIndex :=
  (task.dataCompactionResult.map (·.oldFileIndices)).getD []

def remapEntries : List (Sigma fun _ : RecordLocation => RemappedRecordLocation) :=
  (task.dataCompactionResult.map (·.remappedDataFiles.entries)).getD []

/-- The data files that become part of the table. -/
def addedFiles : List FileId :=
  (task.getNewDataFiles ++ task.compactedDataFilesToAdd).map (·.fileId)

end SnapshotTask

/-- The records are exactly what the tasks integrate, in order. -/
structure UnpersistedRecords.Holds (tasks : List (SnapshotTask Row Ident)) (U : UnpersistedRecords Row) :
    Prop where
  newDataFiles : U.newDataFiles = tasks.flatMap (·.getNewDataFiles)
  newFileIndices : U.newFileIndices = tasks.flatMap (·.getNewFileIndices)
  mergedToRemove : U.mergedFileIndicesToRemove = tasks.flatMap (·.indexMergeResult.oldFileIndices)
  mergedToAdd : U.mergedFileIndicesToAdd = tasks.flatMap (·.indexMergeResult.newFileIndices)
  compactedToRemove : U.compactedDataFilesToRemove = tasks.flatMap (·.compactedDataFilesToRemove)
  compactedToAdd : U.compactedDataFilesToAdd = tasks.flatMap (·.compactedDataFilesToAdd)
  compactedIndicesToRemove : U.compactedFileIndicesToRemove =
    tasks.flatMap (·.compactedFileIndicesToRemove)
  compactedIndicesToAdd : U.compactedFileIndicesToAdd = tasks.flatMap (·.compactedFileIndicesToAdd)
  remap : U.compactedDataFileRemap.entries = tasks.flatMap (·.remapEntries)

/-- The result confirms exactly these records. -/
structure PersistedRecords.Confirms (U : UnpersistedRecords Row) (res : PersistedRecords) : Prop where
  newDataFiles : res.newDataFiles = U.newDataFiles.map (·.fileId)
  newFileIndices : res.newFileIndices = U.newFileIndices
  mergedRemoved : res.mergedFileIndicesRemoved = U.mergedFileIndicesToRemove
  mergedAdded : res.mergedFileIndicesAdded = U.mergedFileIndicesToAdd
  compactedRemoved : res.compactedDataFilesRemoved = U.compactedDataFilesToRemove
  compactedAdded : res.compactedDataFilesAdded = U.compactedDataFilesToAdd.map (·.fileId)
  compactedIndicesRemoved : res.compactedFileIndicesRemoved = U.compactedFileIndicesToRemove
  compactedIndicesAdded : res.compactedFileIndicesAdded = U.compactedFileIndicesToAdd
  remap : res.dataFileRecordsRemap = U.compactedDataFileRemap

/-! ## Payloads and results -/

theorem slice_append {α : Type} (xs ys zs : List α) :
    slice (xs ++ ys ++ zs) xs.length (xs.length + ys.length) = ys := by
  unfold slice
  rw [List.append_assoc, List.take_length_add_append, List.drop_left, List.take_left]

/-- The sections of the result are the lists of the payload. -/
theorem PersistenceSnapshotPayload.cutResult_returns (p : PersistenceSnapshotPayload Row)
    (puffinBlobRef : AssocMap FileId (List Nat)) :
    Returns (p.cutResult (p.remote puffinBlobRef)) (PersistedRecords.Confirms p.records) := by
  have hfiles : (p.remote puffinBlobRef).remoteDataFiles =
      [] ++ p.dataFiles.map (·.fileId) ++ p.compactedDataFilesToAdd.map (·.fileId) := by
    simp [remote, dataFilesToImport]
  have hindices : (p.remote puffinBlobRef).remoteFileIndices =
      p.fileIndices ++ p.mergedFileIndicesToAdd ++ p.compactedFileIndicesToAdd := rfl
  unfold cutResult
  refine .bind (P := fun _ => True) (BufferPanic.returns_assert (by simp [hfiles]) trivial) fun _ _ => ?_
  refine .bind (P := fun _ => True)
    (BufferPanic.returns_assert (by simp [hindices, Nat.add_assoc]) trivial) fun _ _ => .pure ?_
  constructor
  case newDataFiles =>
    have h := slice_append [] (p.dataFiles.map (·.fileId)) (p.compactedDataFilesToAdd.map (·.fileId))
    simpa [hfiles, records] using h
  case newFileIndices =>
    have h := slice_append [] p.fileIndices (p.mergedFileIndicesToAdd ++ p.compactedFileIndicesToAdd)
    simpa [hindices, records] using h
  case mergedAdded =>
    rw [hindices]
    exact slice_append _ _ _
  case compactedAdded =>
    have h := slice_append (p.dataFiles.map (·.fileId)) (p.compactedDataFilesToAdd.map (·.fileId)) []
    simpa [hfiles, records] using h
  case compactedIndicesAdded =>
    have h := slice_append (p.fileIndices ++ p.mergedFileIndicesToAdd) p.compactedFileIndicesToAdd []
    simpa [hindices, records] using h
  all_goals rfl

/-! ## Pruning and buffering -/

namespace UnpersistedRecords

theorem prune_returns {α β : Type} {buffered xs ys : List α} {persisted : List β}
    (hbuffered : buffered = xs ++ ys) (hlength : persisted.length = xs.length) :
    Returns (prune buffered persisted) (· = ys) := by
  refine .bind (P := fun _ => True) ?_ fun _ _ => .pure ?_
  · exact ⟨(), by simp [StoragePanic.assert, hbuffered, hlength], trivial⟩
  · rw [hbuffered, hlength, List.drop_left]

/-- Confirming the first tasks leaves the rest. -/
theorem prunePersistedRecords_returns {batch rest : List (SnapshotTask Row Ident)}
    {U V : UnpersistedRecords Row} {res : PersistedRecords} (h : U.Holds (batch ++ rest))
    (hV : V.Holds batch) (hres : res.Confirms V)
    (hremap : batch.flatMap (·.remapEntries) ≠ [] → rest.flatMap (·.remapEntries) = []) :
    Returns (U.prunePersistedRecords (some res)) (Holds rest) := by
  refine .bind (prune_returns (h.newDataFiles.trans List.flatMap_append)
    (by rw [hres.newDataFiles, List.length_map, hV.newDataFiles])) fun _ hnew => ?_
  refine .bind (prune_returns (h.newFileIndices.trans List.flatMap_append)
    (by rw [hres.newFileIndices, hV.newFileIndices])) fun _ hindices => ?_
  refine .bind (prune_returns (h.mergedToRemove.trans List.flatMap_append)
    (by rw [hres.mergedRemoved, hV.mergedToRemove])) fun _ hmergedRemove => ?_
  refine .bind (prune_returns (h.mergedToAdd.trans List.flatMap_append)
    (by rw [hres.mergedAdded, hV.mergedToAdd])) fun _ hmergedAdd => ?_
  refine .bind (prune_returns (h.compactedToAdd.trans List.flatMap_append)
    (by rw [hres.compactedAdded, List.length_map, hV.compactedToAdd])) fun _ hadd => ?_
  refine .bind (prune_returns (h.compactedToRemove.trans List.flatMap_append)
    (by rw [hres.compactedRemoved, hV.compactedToRemove])) fun _ hremove => ?_
  refine .bind (prune_returns (h.compactedIndicesToAdd.trans List.flatMap_append)
    (by rw [hres.compactedIndicesAdded, hV.compactedIndicesToAdd])) fun _ hindicesAdd => ?_
  refine .bind (prune_returns (h.compactedIndicesToRemove.trans List.flatMap_append)
    (by rw [hres.compactedIndicesRemoved, hV.compactedIndicesToRemove])) fun _ hindicesRemove => ?_
  refine .bind (P := fun remap : DataFileRemap =>
    remap.entries = rest.flatMap (·.remapEntries)) ?_ fun _ hmap => ?_
  · have hentries : U.compactedDataFileRemap.entries =
        batch.flatMap (·.remapEntries) ++ rest.flatMap (·.remapEntries) :=
      h.remap.trans List.flatMap_append
    unfold pruneRemap
    rw [hres.remap, hV.remap]
    split
    · rename_i hnil
      rw [List.isEmpty_iff.mp hnil, List.nil_append] at hentries
      exact .ok hentries
    · rename_i hne
      have hrest := hremap (mt List.isEmpty_iff.mpr hne)
      refine .bind (P := fun _ => True) ?_ fun _ _ => .pure hrest.symm
      exact ⟨(), by simp [StoragePanic.assert, hentries, hrest], trivial⟩
  · exact .pure
      ⟨hnew, hindices, hmergedRemove, hmergedAdd, hremove, hadd, hindicesRemove, hindicesAdd, hmap⟩

theorem flatMap_concat {α β : Type} (as : List α) (a : α) (f : α → List β) :
    (as ++ [a]).flatMap f = as.flatMap f ++ f a := by
  rw [List.flatMap_append, List.flatMap_singleton]

theorem bufferUnpersistedRecords_fileIndices (U : UnpersistedRecords Row) (task : SnapshotTask Row Ident) :
    Ensures (U.bufferUnpersistedRecords task) fun U' =>
      U'.newFileIndices = U.newFileIndices ++ task.getNewFileIndices ∧
      U'.compactedFileIndicesToRemove =
        U.compactedFileIndicesToRemove ++ task.compactedFileIndicesToRemove ∧
      U'.compactedFileIndicesToAdd = U.compactedFileIndicesToAdd ++ task.compactedFileIndicesToAdd := by
  unfold bufferUnpersistedRecords SnapshotTask.compactedFileIndicesToRemove
    SnapshotTask.compactedFileIndicesToAdd
  cases task.dataCompactionResult with
  | none => exact .ok ⟨rfl, (List.append_nil _).symm, (List.append_nil _).symm⟩
  | some result => exact .bind_any fun _ => .pure ⟨rfl, rfl, rfl⟩

/-- A compaction is only added if no location map is there. -/
theorem bufferUnpersistedRecords_remap (U : UnpersistedRecords Row) (task : SnapshotTask Row Ident) :
    Ensures (U.bufferUnpersistedRecords task) fun U' =>
      U'.compactedDataFileRemap.entries = U.compactedDataFileRemap.entries ++ task.remapEntries ∧
      (task.remapEntries ≠ [] → U.compactedDataFileRemap.entries = []) := by
  unfold bufferUnpersistedRecords SnapshotTask.remapEntries
  cases task.dataCompactionResult with
  | none => exact .ok ⟨(List.append_nil _).symm, fun h => absurd rfl h⟩
  | some result =>
    intro U' hok
    obtain ⟨_, hassert, hok⟩ := bind_eq_ok.mp hok
    cases hok
    have hnil : U.compactedDataFileRemap.entries = [] :=
      List.isEmpty_iff.mp (StoragePanic.of_assert hassert)
    refine ⟨?_, fun _ => hnil⟩
    rw [hnil]
    rfl

/-- A task is added to the records. -/
theorem bufferUnpersistedRecords_holds {tasks : List (SnapshotTask Row Ident)}
    {U : UnpersistedRecords Row} (h : U.Holds tasks) (task : SnapshotTask Row Ident) :
    Ensures (U.bufferUnpersistedRecords task) fun U' => U'.Holds (tasks ++ [task]) ∧
      (task.remapEntries ≠ [] → tasks.flatMap (·.remapEntries) = []) := by
  intro U' hok
  have hb := bufferUnpersistedRecords_ensures U task U' hok
  obtain ⟨hnew, hremove, hadd⟩ := bufferUnpersistedRecords_fileIndices U task U' hok
  obtain ⟨hremap, honce⟩ := bufferUnpersistedRecords_remap U task U' hok
  rw [h.remap] at hremap honce
  refine ⟨?_, honce⟩
  constructor <;> rw [flatMap_concat]
  case newDataFiles => rw [hb.newDataFiles, h.newDataFiles]
  case newFileIndices => rw [hnew, h.newFileIndices]
  case mergedToRemove => rw [hb.mergedToRemove, h.mergedToRemove]
  case mergedToAdd => rw [hb.mergedToAdd, h.mergedToAdd]
  case compactedToRemove => rw [hb.compactedToRemove, h.compactedToRemove]; rfl
  case compactedToAdd => rw [hb.compactedToAdd, h.compactedToAdd]; rfl
  case compactedIndicesToRemove => rw [hremove, h.compactedIndicesToRemove]
  case compactedIndicesToAdd => rw [hadd, h.compactedIndicesToAdd]
  case remap => exact hremap

/-- Buffering does not panic if a compaction finds no location map. -/
theorem bufferUnpersistedRecords_ok {tasks : List (SnapshotTask Row Ident)}
    {U : UnpersistedRecords Row} (h : U.Holds tasks) {task : SnapshotTask Row Ident}
    (hnil : task.dataCompactionResult.isSome → tasks.flatMap (·.remapEntries) = []) :
    ∃ U', U.bufferUnpersistedRecords task = .ok U' := by
  unfold bufferUnpersistedRecords
  cases hresult : task.dataCompactionResult with
  | none => exact ⟨_, rfl⟩
  | some result =>
    have hentries : U.compactedDataFileRemap.entries = [] := by
      rw [h.remap]
      exact hnil (by simp [hresult])
    exact ⟨_, by simp only [bufferCompactionData, hentries]; rfl⟩

end UnpersistedRecords

/-! ## Tasks that pass the checks -/

/-- New files come with new indices, merges have both sides, and a compaction removes files
and writes as many indices as files. -/
structure SnapshotTask.Matches (appendOnly : Bool) (task : SnapshotTask Row Ident) : Prop where
  indexed : appendOnly = false → (task.getNewDataFiles = [] ↔ task.getNewFileIndices = [])
  merged : appendOnly = false →
    (task.indexMergeResult.newFileIndices = [] ↔ task.indexMergeResult.oldFileIndices = [])
  removes : ∀ result ∈ task.dataCompactionResult, result.oldDataFiles ≠ []
  compacted : ∀ result ∈ task.dataCompactionResult,
    result.newFileIndices.length = result.newDataFiles.length

/-- The condition on a task, with the tasks that are not confirmed: what it adds is new, and
a compaction comes when no other location map is buffered. -/
structure SnapshotTask.Fits (appendOnly : Bool) (pending : List (SnapshotTask Row Ident))
    (task : SnapshotTask Row Ident) : Prop where
  files : task.addedFiles.Nodup ∧ ∀ f ∈ task.addedFiles, f ∉ pending.flatMap (·.addedFiles)
  indices : (task.addedIndices.map (·.files)).Nodup ∧
    ∀ files ∈ task.addedIndices.map (·.files), files ∉ (pending.flatMap (·.addedIndices)).map (·.files)
  remapped : task.dataCompactionResult.isSome → pending.flatMap (·.remapEntries) = []
  matched : task.Matches appendOnly

instance {appendOnly : Bool} {task : SnapshotTask Row Ident} : Decidable (task.Matches appendOnly) :=
  decidable_of_iff
    ((appendOnly = false → (task.getNewDataFiles = [] ↔ task.getNewFileIndices = [])) ∧
      (appendOnly = false →
        (task.indexMergeResult.newFileIndices = [] ↔ task.indexMergeResult.oldFileIndices = [])) ∧
      (∀ result ∈ task.dataCompactionResult, result.oldDataFiles ≠ []) ∧
      ∀ result ∈ task.dataCompactionResult,
        result.newFileIndices.length = result.newDataFiles.length)
    ⟨fun h => ⟨h.1, h.2.1, h.2.2.1, h.2.2.2⟩, fun h => ⟨h.indexed, h.merged, h.removes, h.compacted⟩⟩

instance {appendOnly : Bool} {pending : List (SnapshotTask Row Ident)} {task : SnapshotTask Row Ident} :
    Decidable (task.Fits appendOnly pending) :=
  decidable_of_iff
    ((task.addedFiles.Nodup ∧ ∀ f ∈ task.addedFiles, f ∉ pending.flatMap (·.addedFiles)) ∧
      ((task.addedIndices.map (·.files)).Nodup ∧ ∀ files ∈ task.addedIndices.map (·.files),
        files ∉ (pending.flatMap (·.addedIndices)).map (·.files)) ∧
      (task.dataCompactionResult.isSome → pending.flatMap (·.remapEntries) = []) ∧
      task.Matches appendOnly)
    ⟨fun h => ⟨h.1, h.2.1, h.2.2.1, h.2.2.2⟩, fun h => ⟨h.files, h.indices, h.remapped, h.matched⟩⟩

namespace UnpersistedRecords

/-- What the tasks that are not confirmed integrate passes the checks. -/
structure Sound (appendOnly : Bool) (tasks : List (SnapshotTask Row Ident)) : Prop where
  files : (tasks.flatMap (·.addedFiles)).Nodup
  indices : ((tasks.flatMap (·.addedIndices)).map (·.files)).Nodup
  matched : ∀ task ∈ tasks, task.Matches appendOnly

variable {appendOnly : Bool} {tasks : List (SnapshotTask Row Ident)} {U : UnpersistedRecords Row}

theorem Sound.suffix {tasks' : List (SnapshotTask Row Ident)} (h : Sound appendOnly tasks)
    (hsuffix : tasks' <:+ tasks) : Sound appendOnly tasks' where
  files := (hsuffix.sublist.flatMap _).nodup h.files
  indices := ((hsuffix.sublist.flatMap _).map _).nodup h.indices
  matched task hmem := h.matched task (hsuffix.subset hmem)

theorem Sound.concat {task : SnapshotTask Row Ident} (h : Sound appendOnly tasks)
    (hfits : task.Fits appendOnly tasks) : Sound appendOnly (tasks ++ [task]) where
  files := by
    rw [flatMap_concat]
    exact h.files.append hfits.files.1 fun f hold hnew => hfits.files.2 f hnew hold
  indices := by
    rw [flatMap_concat, List.map_append]
    exact h.indices.append hfits.indices.1 fun files hold hnew => hfits.indices.2 files hnew hold
  matched task' hmem := by
    rcases List.mem_append.mp hmem with hold | hnew
    · exact h.matched task' hold
    · exact List.mem_singleton.mp hnew ▸ hfits.matched

/-- No file is buffered twice. -/
theorem Holds.files (h : U.Holds tasks) : U.getUnpersistedDataFilesSet.Perm (tasks.flatMap (·.addedFiles)) := by
  have hfiles : tasks.flatMap (·.addedFiles) = (tasks.flatMap fun task =>
      task.getNewDataFiles ++ task.compactedDataFilesToAdd).map (·.fileId) := by
    rw [List.map_flatMap]
    rfl
  unfold getUnpersistedDataFilesSet
  rw [h.newDataFiles, h.compactedToAdd, hfiles]
  exact (List.flatMap_append_perm tasks _ _).map _

theorem Holds.indices (h : U.Holds tasks) :
    U.getUnpersistedFileIndicesSet.Perm (tasks.flatMap (·.addedIndices)) := by
  unfold getUnpersistedFileIndicesSet
  rw [h.newFileIndices, h.mergedToAdd, h.compactedIndicesToAdd]
  exact ((List.flatMap_append_perm tasks _ _).append_right _).trans (List.flatMap_append_perm tasks _ _)

/-- The code counts the files of compactions in place of their indices, which are as many. -/
theorem Holds.expected (h : U.Holds tasks) (hsound : Sound appendOnly tasks) :
    Maintenance.expectedUnpersistedIndices U = U.getUnpersistedFileIndicesSet.length := by
  have hlength : U.compactedDataFilesToAdd.length = U.compactedFileIndicesToAdd.length := by
    rw [h.compactedToAdd, h.compactedIndicesToAdd, List.length_flatMap, List.length_flatMap]
    refine congrArg List.sum (List.map_congr_left fun task hmem => ?_)
    unfold SnapshotTask.compactedDataFilesToAdd SnapshotTask.compactedFileIndicesToAdd
    cases hresult : task.dataCompactionResult with
    | none => rfl
    | some result => simpa using ((hsound.matched task hmem).compacted result hresult).symm
  unfold Maintenance.expectedUnpersistedIndices getUnpersistedFileIndicesSet
  rw [hlength, List.length_append, List.length_append]

theorem getUnpersistedDataFilesSet_ok (h : U.Holds tasks) (hsound : Sound appendOnly tasks) :
    Returns (Maintenance.getUnpersistedDataFilesSet U) fun _ => True :=
  Maintenance.getUnpersistedDataFilesSet_returns.mpr ⟨h.files.nodup_iff.mpr hsound.files, trivial⟩

theorem getUnpersistedFileIndicesSet_ok (h : U.Holds tasks) (hsound : Sound appendOnly tasks) :
    Returns (Maintenance.getUnpersistedFileIndicesSet U) fun _ => True := by
  have hnodup : (U.getUnpersistedFileIndicesSet.map (·.files)).Nodup :=
    (h.indices.map _).nodup_iff.mpr hsound.indices
  refine .bind (P := fun _ => True) ?_ fun _ _ => .pure trivial
  refine Maintenance.MaintenancePanic.returns_assert.mpr ⟨decide_eq_true ?_, trivial⟩
  rw [hnodup.dedup, List.length_map]
  exact h.expected hsound

theorem isEmpty_flatMap_eq {α β γ : Type} {as : List α} {f : α → List β} {g : α → List γ}
    (h : ∀ a ∈ as, f a = [] ↔ g a = []) : (as.flatMap f).isEmpty = (as.flatMap g).isEmpty := by
  rw [Bool.eq_iff_iff, List.isEmpty_iff, List.isEmpty_iff, List.flatMap_eq_nil_iff,
    List.flatMap_eq_nil_iff]
  exact forall₂_congr h

/-- Without old files there is no compaction. -/
theorem Holds.compacted_of_nil (h : U.Holds tasks) (hsound : Sound appendOnly tasks)
    (hnil : U.compactedDataFilesToRemove = []) :
    U.compactedDataFilesToAdd = [] ∧ U.compactedFileIndicesToAdd = [] := by
  have hnone : ∀ task ∈ tasks, task.dataCompactionResult = none := by
    intro task hmem
    rw [h.compactedToRemove, List.flatMap_eq_nil_iff] at hnil
    have htask := hnil task hmem
    unfold SnapshotTask.compactedDataFilesToRemove at htask
    cases hresult : task.dataCompactionResult with
    | none => rfl
    | some result =>
      rw [hresult] at htask
      exact absurd htask ((hsound.matched task hmem).removes result hresult)
  rw [h.compactedToAdd, h.compactedIndicesToAdd, List.flatMap_eq_nil_iff, List.flatMap_eq_nil_iff]
  constructor
  · intro task hmem
    simp [SnapshotTask.compactedDataFilesToAdd, hnone task hmem]
  · intro task hmem
    simp [SnapshotTask.compactedFileIndicesToAdd, hnone task hmem]

theorem validateInvariants_ok (h : U.Holds tasks) (hsound : Sound appendOnly tasks) :
    Returns (U.validateInvariants appendOnly) fun _ => True := by
  unfold validateInvariants
  cases happend : appendOnly with
  | true => exact .ok trivial
  | false =>
    refine .bind (P := fun _ => True) (BufferPanic.returns_assert (decide_eq_true ?_) trivial)
      fun _ _ => ?_
    · rw [h.newDataFiles, h.newFileIndices]
      exact isEmpty_flatMap_eq fun task hmem => (hsound.matched task hmem).indexed happend
    refine .bind (P := fun _ => True) (BufferPanic.returns_assert (decide_eq_true ?_) trivial)
      fun _ _ => ?_
    · rw [h.mergedToAdd, h.mergedToRemove]
      exact isEmpty_flatMap_eq fun task hmem => (hsound.matched task hmem).merged happend
    simp only
    split
    · rename_i hnil
      obtain ⟨hfiles, hindices⟩ := h.compacted_of_nil hsound (List.isEmpty_iff.mp hnil)
      refine .bind (P := fun _ => True) (BufferPanic.returns_assert (by rw [hfiles]; rfl) trivial)
        fun _ _ => ?_
      refine .bind (P := fun _ => True) (BufferPanic.returns_assert hnil trivial) fun _ _ => ?_
      exact BufferPanic.returns_assert (by rw [hindices]; rfl) trivial
    · rename_i hne
      exact BufferPanic.returns_assert (by simpa using hne) trivial

theorem check_ok (h : U.Holds tasks) (hsound : Sound appendOnly tasks) (debugAssertions maintains : Bool) :
    Returns (U.check appendOnly debugAssertions maintains) fun _ => True := by
  have hvalid : Returns (if debugAssertions then U.validateInvariants appendOnly else pure ())
      fun _ => True := by
    split
    · exact validateInvariants_ok h hsound
    · exact .pure trivial
  cases maintains with
  | false => exact hvalid
  | true =>
    refine .bind (returns_mapError.mpr (getUnpersistedDataFilesSet_ok h hsound)) fun _ _ => ?_
    refine .bind (returns_mapError.mpr (getUnpersistedFileIndicesSet_ok h hsound)) fun _ _ => ?_
    exact hvalid

end UnpersistedRecords

/-! ## The outbox of tasks -/

/-- What an input does to the tasks. -/
def BufferInput.event : BufferInput Row Ident → OutboxEvent (SnapshotTask Row Ident)
  | .updateSnapshot task _ => .put task
  | .persistSnapshot .. => .send
  | .persistenceResult _ => .acknowledge
  | .persistenceFailed => .fail

namespace PersistenceBuffer

/-- What is outstanding holds what the tasks of the batch integrate. -/
inductive OutstandingOf : Outstanding (SnapshotTask Row Ident) → Option (PersistenceSnapshotPayload Row) →
    Option PersistedRecords → Prop where
  | none : OutstandingOf .none none none
  | sent {batch : List (SnapshotTask Row Ident)} {p : PersistenceSnapshotPayload Row}
      (hp : p.records.Holds batch) : OutstandingOf (.sent batch) (some p) none
  | acknowledged {batch : List (SnapshotTask Row Ident)} {U : UnpersistedRecords Row}
      {res : PersistedRecords} (hU : U.Holds batch) (hres : res.Confirms U) :
      OutstandingOf (.acknowledged batch) none (some res)

/-- The buffer holds the tasks of the outbox that are not confirmed. A location map is only
buffered while no other one is. -/
structure Refines (box : Outbox (SnapshotTask Row Ident)) (b : PersistenceBuffer Row) : Prop where
  records : b.records.Holds box.unconfirmed
  outstanding : OutstandingOf box.outstanding b.persistence b.persisted
  remap : box.outstanding.batch.flatMap (·.remapEntries) ≠ [] →
    box.waiting.flatMap (·.remapEntries) = []

variable {box : Outbox (SnapshotTask Row Ident)} {b : PersistenceBuffer Row}

theorem Refines.new : Refines (.empty : Outbox (SnapshotTask Row Ident)) (.new : PersistenceBuffer Row) :=
  ⟨⟨rfl, rfl, rfl, rfl, rfl, rfl, rfl, rfl, rfl⟩, .none, fun h => absurd rfl h⟩

/-- The result that a task brings confirms the acknowledged tasks. -/
theorem Refines.prune (h : Refines box b) :
    Returns (b.records.prunePersistedRecords b.persisted)
      (UnpersistedRecords.Holds box.settle.unconfirmed) := by
  obtain ⟨confirmed, outstanding, waiting⟩ := box
  obtain ⟨records, persistence, persisted⟩ := b
  obtain ⟨hrecords, houtstanding, hremap⟩ := h
  cases houtstanding with
  | none | sent _ => exact .ok hrecords
  | acknowledged hU hres =>
    exact UnpersistedRecords.prunePersistedRecords_returns hrecords hU hres hremap

/-- A task is integrated: the buffer holds it after the ones that are not confirmed. -/
theorem Refines.integrate (h : Refines box b) (task : SnapshotTask Row Ident) :
    Ensures (b.integrate task) fun records =>
      Refines (box.next (.put task)) { b with records, persisted := none } := by
  refine .bind h.prune.ensures fun records hrecords => ?_
  refine (UnpersistedRecords.bufferUnpersistedRecords_holds hrecords task).mono ?_
  rintro records' ⟨hholds, honce⟩
  refine ⟨by rw [Outbox.unconfirmed_put]; exact hholds, ?_, ?_⟩
  · obtain ⟨confirmed, outstanding, waiting⟩ := box
    obtain ⟨_, persistence, persisted⟩ := b
    cases h.outstanding with
    | none => exact .none
    | sent hp => exact .sent hp
    | acknowledged _ _ => exact .none
  · intro hne
    have hsettled : box.outstanding.settle.batch.flatMap (·.remapEntries) ≠ [] := hne
    have hold : box.waiting.flatMap (·.remapEntries) = [] := by
      refine h.remap fun hnil => hsettled ?_
      rw [← box.outstanding.settled_append_batch_settle, List.flatMap_append] at hnil
      exact (List.append_eq_nil_iff.mp hnil).2
    have hnew : task.remapEntries = [] := by
      by_contra htask
      have hnil := honce htask
      unfold Outbox.unconfirmed at hnil
      rw [List.flatMap_append] at hnil
      exact hsettled (List.append_eq_nil_iff.mp hnil).1
    change (box.waiting ++ [task]).flatMap (·.remapEntries) = []
    rw [UnpersistedRecords.flatMap_concat, hold, hnew]
    rfl

/-- Steps of the persistence do not panic, and refine those of the outbox. -/
theorem Refines.persistence (h : Refines box b) (appendOnly debugAssertions : Bool)
    {input : BufferInput Row Ident} (hinput : ∀ task maintains, input ≠ .updateSnapshot task maintains) :
    Returns (b.next appendOnly debugAssertions input) (Refines (box.next input.event)) := by
  have hput : ∀ task, input.event ≠ .put task := by
    cases input with
    | updateSnapshot task maintains => exact absurd rfl (hinput task maintains)
    | persistSnapshot | persistenceResult | persistenceFailed => exact nofun
  have hunconfirmed := box.unconfirmed_next hput
  obtain ⟨confirmed, outstanding, waiting⟩ := box
  obtain ⟨records, persistence, persisted⟩ := b
  obtain ⟨hrecords, houtstanding, hremap⟩ := h
  have hnext := hrecords
  rw [← hunconfirmed] at hnext
  cases input with
  | updateSnapshot task maintains => exact absurd rfl (hinput task maintains)
  | persistSnapshot flushLsn deletions vectors =>
    cases houtstanding with
    | none => exact .ok ⟨hnext, .sent hrecords, fun _ => rfl⟩
    | sent hp => exact .ok ⟨hnext, .sent hp, hremap⟩
    | acknowledged hU hres => exact .ok ⟨hnext, .acknowledged hU hres, hremap⟩
  | persistenceResult puffinBlobRef =>
    cases houtstanding with
    | none => exact .ok ⟨hnext, .none, hremap⟩
    | sent hp =>
      exact .bind (PersistenceSnapshotPayload.cutResult_returns _ puffinBlobRef) fun res hres =>
        .pure ⟨hnext, .acknowledged hp hres, hremap⟩
    | acknowledged hU hres => exact .ok ⟨hnext, .acknowledged hU hres, hremap⟩
  | persistenceFailed =>
    cases houtstanding with
    | none => exact .ok ⟨hnext, .none, hremap⟩
    | sent hp => exact .ok ⟨hnext, .none, fun hne => absurd rfl hne⟩
    | acknowledged hU hres => exact .ok ⟨hnext, .acknowledged hU hres, hremap⟩

/-- A task that fits is integrated, and the buffer passes its checks. -/
theorem Refines.updateSnapshot {appendOnly : Bool} (h : Refines box b)
    (hsound : UnpersistedRecords.Sound appendOnly box.unconfirmed) {task : SnapshotTask Row Ident}
    (hfits : task.Fits appendOnly box.settle.unconfirmed) (debugAssertions maintains : Bool) :
    Returns (b.next appendOnly debugAssertions (.updateSnapshot task maintains)) fun b' =>
      Refines (box.next (.put task)) b' ∧
        UnpersistedRecords.Sound appendOnly (box.next (.put task)).unconfirmed := by
  have hsettled : box.settle.unconfirmed <:+ box.unconfirmed := by
    refine ⟨box.outstanding.settled, ?_⟩
    unfold Outbox.unconfirmed
    rw [← List.append_assoc]
    exact congrArg (· ++ box.waiting) box.outstanding.settled_append_batch_settle
  have hsound' : UnpersistedRecords.Sound appendOnly (box.next (.put task)).unconfirmed := by
    rw [Outbox.unconfirmed_put]
    exact (hsound.suffix hsettled).concat hfits
  have hok : ∃ records, b.integrate task = .ok records := by
    obtain ⟨records, hprune, hrecords⟩ := h.prune
    obtain ⟨records', hbuffer⟩ :=
      UnpersistedRecords.bufferUnpersistedRecords_ok hrecords hfits.remapped
    exact ⟨records', bind_eq_ok.mpr ⟨records, hprune, hbuffer⟩⟩
  refine .bind (returns_mapError.mpr ((h.integrate task).returns hok)) fun records hrefines => ?_
  refine .bind (UnpersistedRecords.check_ok hrefines.records hsound' debugAssertions maintains) fun _ _ => ?_
  exact .pure ⟨hrefines, hsound'⟩

/-! ## Runs -/

/-- The condition on an input. -/
def InputFits (appendOnly : Bool) (box : Outbox (SnapshotTask Row Ident)) : BufferInput Row Ident → Prop
  | .updateSnapshot task _ => task.Fits appendOnly box.settle.unconfirmed
  | _ => True

/-- Every input of the run meets the condition. -/
def RunFits (appendOnly : Bool) (box : Outbox (SnapshotTask Row Ident)) :
    List (BufferInput Row Ident) → Prop
  | [] => True
  | input :: rest => InputFits appendOnly box input ∧ RunFits appendOnly (box.next input.event) rest

instance RunFits.decidable (appendOnly : Bool) : (box : Outbox (SnapshotTask Row Ident)) →
    (inputs : List (BufferInput Row Ident)) → Decidable (RunFits appendOnly box inputs)
  | _, [] => isTrue trivial
  | box, input :: rest =>
    have : Decidable (InputFits appendOnly box input) := by
      cases input <;> unfold InputFits <;> infer_instance
    have : Decidable (RunFits appendOnly (box.next input.event) rest) :=
      RunFits.decidable appendOnly _ rest
    inferInstanceAs (Decidable (_ ∧ _))

/-- The outbox of the tasks of a run. -/
def outbox (inputs : List (BufferInput Row Ident)) : Outbox (SnapshotTask Row Ident) :=
  Outbox.empty.run (inputs.map (·.event))

/-- The tasks of a run, in order. -/
def tasks (inputs : List (BufferInput Row Ident)) : List (SnapshotTask Row Ident) :=
  Outbox.puts (inputs.map (·.event))

/-- A run whose tasks fit does not panic. -/
theorem Refines.run_returns {appendOnly : Bool} (h : Refines box b)
    (hsound : UnpersistedRecords.Sound appendOnly box.unconfirmed) (debugAssertions : Bool)
    (inputs : List (BufferInput Row Ident)) (hfits : RunFits appendOnly box inputs) :
    Returns (b.run appendOnly debugAssertions inputs) fun b' =>
      Refines (box.run (inputs.map (·.event))) b' ∧
        UnpersistedRecords.Sound appendOnly (box.run (inputs.map (·.event))).unconfirmed := by
  induction inputs generalizing box b with
  | nil => exact .pure ⟨h, hsound⟩
  | cons input rest ih =>
    obtain ⟨hinput, hrest⟩ := hfits
    refine .bind (P := fun b' => Refines (box.next input.event) b' ∧
      UnpersistedRecords.Sound appendOnly (box.next input.event).unconfirmed) ?_
      fun b' hb' => ih hb'.1 hb'.2 hrest
    cases input with
    | updateSnapshot task maintains => exact h.updateSnapshot hsound hinput debugAssertions maintains
    | persistSnapshot | persistenceResult | persistenceFailed =>
      refine (h.persistence appendOnly debugAssertions (by rintro _ _ ⟨⟩)).mono
        fun b' hb' => ⟨hb', ?_⟩
      rw [box.unconfirmed_next (by rintro _ ⟨⟩)]
      exact hsound

/-- In every run whose tasks fit, the buffer holds exactly what was integrated and is not
confirmed, in order; a payload holds the first of it; and no check fails. -/
theorem unpersisted_accounted {appendOnly : Bool} (debugAssertions : Bool)
    {inputs : List (BufferInput Row Ident)} (hfits : RunFits appendOnly .empty inputs) :
    (outbox inputs).confirmed ++ (outbox inputs).unconfirmed = tasks inputs ∧
    Returns (PersistenceBuffer.new.run appendOnly debugAssertions inputs) fun b =>
      b.records.Holds (outbox inputs).unconfirmed ∧
      (∀ p, b.persistence = some p → ∃ batch, (outbox inputs).outstanding = .sent batch ∧
        p.records.Holds batch) ∧
      ∀ debugAssertions maintains,
        Returns (b.records.check appendOnly debugAssertions maintains) fun _ => True := by
  refine ⟨Outbox.entries_run_empty _, ?_⟩
  have hsound : UnpersistedRecords.Sound appendOnly
      (.empty : Outbox (SnapshotTask Row Ident)).unconfirmed :=
    ⟨List.nodup_nil, List.nodup_nil, nofun⟩
  refine (Refines.new.run_returns hsound debugAssertions inputs hfits).mono ?_
  rintro b ⟨hrefines, hsound⟩
  refine ⟨hrefines.records, fun p hp => ?_, UnpersistedRecords.check_ok hrefines.records hsound⟩
  have hout := hrefines.outstanding
  rw [hp] at hout
  change OutstandingOf (outbox inputs).outstanding _ _ at hout
  generalize (outbox inputs).outstanding = outstanding, b.persisted = persisted at hout
  cases hout with
  | sent hholds => exact ⟨_, rfl, hholds⟩

/-- A task with one flushed file of one row and its index. -/
def flushTask (fileId : FileId) : SnapshotTask Nat Nat :=
  { SnapshotTask.new with newDiskSlices := [
    { DiskSliceWriter.new [] (some 1) 0 ⟨.singlePrimitiveKey, []⟩ with
      newIndex := some ⟨fileId + 100, [fileId], [(1, .diskFile fileId 0)]⟩
      files := [⟨fileId, [1]⟩] }] }

/-- A task with a compaction of files into one, which maps one row. -/
def compactionTask (old : List FileId) (fileId : FileId) : SnapshotTask Nat Nat :=
  { SnapshotTask.new with dataCompactionResult := some {
    remappedDataFiles := (∅ : DataFileRemap).insert (.diskFile 1 0) ⟨.diskFile fileId 0, fileId⟩
    oldDataFiles := old
    newDataFiles := [(⟨fileId, [[1]]⟩, ⟨1, 1⟩)]
    oldFileIndices := old.map fun f => ⟨f + 100, [f], [(1, .diskFile f 0)]⟩
    newFileIndices := [⟨fileId + 100, [fileId], [(1, .diskFile fileId 0)]⟩] } }

/-- While the first file is being persisted, the second one is flushed; then both are
compacted, and a payload fails. -/
def compactedRun : List (BufferInput Nat Nat) :=
  [.updateSnapshot (flushTask 1) true, .persistSnapshot 1 [] ∅, .updateSnapshot (flushTask 2) true,
   .persistenceResult ∅, .updateSnapshot .new true, .persistSnapshot 2 [] ∅, .persistenceFailed,
   .updateSnapshot (compactionTask [1, 2] 3) true]

theorem unpersisted_accounted_compactedRun :
    Returns (PersistenceBuffer.new.run false true compactedRun) fun b =>
      b.records.newDataFiles.map (·.fileId) = [2] ∧
      b.records.Holds (outbox compactedRun).unconfirmed := by
  have hcheck : Returns (PersistenceBuffer.new.run false true compactedRun) fun b =>
      b.records.newDataFiles.map (·.fileId) = [2] := by
    decide +kernel
  obtain ⟨b, hrun, hholds, -⟩ := (unpersisted_accounted true
    (by decide +kernel : RunFits false .empty compactedRun)).2
  obtain ⟨b', hrun', hfiles⟩ := hcheck
  rw [hrun] at hrun'
  cases hrun'
  exact ⟨b, hrun, hfiles, hholds⟩

open TableSystem in
/-- A compaction writes a file as soon as a row is there. -/
def tinyFilesEnv : TableEnv Nat Nat := { natEnv with dataFileFinalSize := 1 }

/-- Two persisted files are compacted. -/
def twoFilesCompacted : List (TableAction Nat) :=
  [.append 1, .commit 10, .flush 10, .flushResult 0,
   .append 2, .commit 20, .flush 20, .flushResult 0,
   .createSnapshot ⟨false, false⟩, .persistSnapshot, .persistenceResult,
   .createSnapshot ⟨true, false⟩, .performDataCompaction ⟨2, 100, fun _ _ => true⟩,
   .dataCompactionResult, .createSnapshot ⟨true, false⟩]

/-- The compaction writes two files with one index, which the code takes for two. -/
theorem unpersisted_indices_miscounted :
    Returns (TableSystem.load tinyFilesEnv TableSystem.emptyTable) fun sys₀ =>
      Returns (sys₀.run tinyFilesEnv twoFilesCompacted) fun sys =>
        ¬ Returns (Maintenance.getUnpersistedFileIndicesSet sys.snapshot.unpersistedRecords)
          fun _ => True := by
  decide +kernel

end PersistenceBuffer

end Moonlink.Storage
