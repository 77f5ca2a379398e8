-- SUMMARY: The deletions of a snapshot and of the persisted table through the stages of `update_snapshot`.
import Moonlink.Storage.IcebergSpec
import Moonlink.Storage.CompactionReflect

namespace Moonlink.Storage

open Lib

variable {Row Ident : Type}

/-- The deletions of the snapshot and of the persisted table `m`. -/
structure SnapshotOk (used : FileId → Prop) (m : AssocMap FileId (DataFileEntry Row))
    (R : DeletionRecords Row) : Prop where
  represented : R.Represented
  files : ∀ f ∈ R.files, used f
  manager : ∀ f ∈ m, used f
  persisted : ∀ f r, IcebergTableManager.Deleted m f r → f ∈ R.files → R.files.Deleted f r
  blob : ∀ f r, R.files.InBlob f r → IcebergTableManager.Deleted m f r

theorem SnapshotOk.mono {used used' : FileId → Prop} {m : AssocMap FileId (DataFileEntry Row)}
    {R : DeletionRecords Row} (h : SnapshotOk used m R) (himp : ∀ f, used f → used' f) :
    SnapshotOk used' m R :=
  { h with files := fun f hf => himp f (h.files f hf), manager := fun f hf => himp f (h.manager f hf) }

/-- The result of a persistence after which the table is `m`. -/
structure PersistedRecords.ResultOk (m : AssocMap FileId (DataFileEntry Row)) (res : PersistedRecords) :
    Prop where
  blob : ∀ f rows, res.puffinBlobRef.lookup f = some rows →
    ∀ r, r ∈ rows ↔ IcebergTableManager.Deleted m f r
  logged : ∀ f r, (f, r) ∈ res.committedDeletionLogs →
    IcebergTableManager.Deleted m f r ∧ ∃ rows, res.puffinBlobRef.lookup f = some rows

/-- Files that were there before keep their deletions while they are there. -/
structure DeletionRecords.Evolves (used : FileId → Prop) (R R' : DeletionRecords Row) : Prop where
  mem : ∀ f ∈ R'.files, used f → f ∈ R.files
  deleted : ∀ f r, f ∈ R'.files → used f → R.files.Deleted f r → R'.files.Deleted f r

/-- Deletions that a running compaction does not know are in the log. -/
structure RunningOk {Index : Type} (R : DeletionRecords Row) (payload : DataCompactionPayload Row Index) :
    Prop where
  files : ∀ file ∈ payload.diskFiles, file.fileId ∈ R.files
  logged : ∀ f r, RecordLocation.diskFile f r ∈ payload.liveRows.map Prod.fst →
    R.files.Deleted f r → Logged R.log f r

namespace DeletionRecords

theorem Evolves.refl (used : FileId → Prop) (R : DeletionRecords Row) : Evolves used R R :=
  ⟨fun _ h _ => h, fun _ _ _ _ h => h⟩

theorem Evolves.trans {used : FileId → Prop} {R R₁ R₂ : DeletionRecords Row} (h : Evolves used R R₁)
    (h' : Evolves used R₁ R₂) : Evolves used R R₂ where
  mem f hf hused := h.mem f (h'.mem f hf hused) hused
  deleted f r hf hused hdel := h'.deleted f r hf hused (h.deleted f r (h'.mem f hf hused) hused hdel)

variable {R R' : DeletionRecords Row}

theorem Extends.evolves {used new : FileId → Prop}
    (h : Extends new R R') (hfresh : ∀ f, new f → ¬ used f) : Evolves used R R' where
  mem f hf hused := (h.mem_inv f hf).resolve_right fun hnew => hfresh f hnew hused
  deleted f r _ _ hdel := h.deleted f r hdel

/-- Writes of files with ids that are not used. -/
theorem Extends.snapshotOk {used new : FileId → Prop} {m : AssocMap FileId (DataFileEntry Row)}
    (h : Extends new R R') (hok : SnapshotOk used m R)
    (hfresh : ∀ f, new f → ¬ used f) : SnapshotOk (fun f => used f ∨ new f) m R' where
  represented := h.represented hok.represented
  files f hf := (h.mem_inv f hf).imp_left (hok.files f)
  manager f hf := .inl (hok.manager f hf)
  persisted f r hdel hf := by
    have hused := hok.manager f hdel.mem
    have hold := (h.mem_inv f hf).resolve_right fun hnew => hfresh f hnew hused
    exact h.deleted f r (hok.persisted f r hdel hold)
  blob f r hblob := hok.blob f r ((h.inBlob f r).mp hblob)

theorem Extends.runningOk {Index : Type} {new : FileId → Prop}
    (h : Extends new R R') {payload : DataCompactionPayload Row Index} (hrun : RunningOk R payload) :
    RunningOk R' payload where
  files file hfile := h.mem _ (hrun.files file hfile)
  logged f r hlive hdel := by
    rcases h.deleted_inv f r hdel with hold | hlog
    · exact h.logged f r (hrun.logged f r hlive hold)
    · exact hlog

end DeletionRecords

namespace SnapshotTableState

open DeletionRecords

/-! ## Blobs -/

variable (s : SnapshotTableState Row Ident)

/-- The blob of each file is replaced by its new one. -/
theorem lookup_updateDeletionVectorToPersisted (blobs : AssocMap FileId (List Nat)) (f : FileId) :
    (s.updateDeletionVectorToPersisted blobs).diskFiles.lookup f =
      (s.diskFiles.lookup f).map fun entry =>
        { entry with puffinDeletionBlob := (blobs.lookup f).or entry.puffinDeletionBlob } := by
  change (blobs.entries.foldl _ s.diskFiles).lookup f = (s.diskFiles.lookup f).map fun entry =>
    { entry with puffinDeletionBlob := (blobs.entries.dlookup f).or entry.puffinDeletionBlob }
  have hnodup := blobs.nodupKeys
  generalize blobs.entries = l at hnodup ⊢
  generalize s.diskFiles = files
  induction l generalizing files with
  | nil => simp
  | cons blob l ih =>
    obtain ⟨hnot, hnodup⟩ := List.nodupKeys_cons.mp hnodup
    rw [List.foldl_cons, ih hnodup]
    by_cases hf : f = blob.1
    · subst hf
      rw [List.dlookup_eq_none.mpr hnot, List.dlookup_cons_eq]
      cases hlook : files.lookup blob.1 with
      | none => simp [hlook]
      | some entry => simp
    · rw [List.dlookup_cons_ne _ _ hf]
      cases hlook : files.lookup blob.1 with
      | none => rfl
      | some entry => simp [hf]

/-- What taking over blobs does to the deletions. -/
structure BlobsTaken (blobs : AssocMap FileId (List Nat)) (files files' : DiskFiles Row) : Prop where
  mem : ∀ f, f ∈ files' ↔ f ∈ files
  deleted : ∀ f r, files'.Deleted f r ↔ files.Deleted f r
  inBlob : ∀ f r, files'.InBlob f r ↔ (∃ rows, blobs.lookup f = some rows ∧ f ∈ files ∧ r ∈ rows) ∨
    blobs.lookup f = none ∧ files.InBlob f r

theorem updateDeletionVectorToPersisted_blobsTaken (blobs : AssocMap FileId (List Nat)) :
    BlobsTaken blobs s.diskFiles (s.updateDeletionVectorToPersisted blobs).diskFiles := by
  have hlook := s.lookup_updateDeletionVectorToPersisted blobs
  refine ⟨fun f => ?_, fun f r => ?_, fun f r => ?_⟩
  · rw [← AList.lookup_isSome, hlook, Option.isSome_map, AList.lookup_isSome]
  · unfold DiskFiles.Deleted
    rw [hlook]
    cases s.diskFiles.lookup f <;> simp
  · unfold DiskFiles.InBlob
    rw [hlook, ← AList.lookup_isSome]
    cases s.diskFiles.lookup f with
    | none => simp
    | some entry => cases blobs.lookup f <;> simp

variable {R : DeletionRecords Row}

theorem BlobsTaken.snapshotOk {used : FileId → Prop} {m : AssocMap FileId (DataFileEntry Row)}
    {blobs : AssocMap FileId (List Nat)} {files' : DiskFiles Row}
    (h : BlobsTaken blobs R.files files') (hok : SnapshotOk used m R)
    (hblobs : ∀ f rows, blobs.lookup f = some rows →
      ∀ r, r ∈ rows ↔ IcebergTableManager.Deleted m f r) :
    SnapshotOk used m ⟨files', R.log⟩ where
  represented f r := by
    rw [h.deleted, h.inBlob]
    constructor
    · intro hdel
      rcases (hok.represented f r).mp hdel with hblob | hlog
      · cases hlook : blobs.lookup f with
        | none => exact .inl (.inr ⟨rfl, hblob⟩)
        | some rows =>
          exact .inl (.inl ⟨rows, rfl, hdel.mem, (hblobs f rows hlook r).mpr (hok.blob f r hblob)⟩)
      · exact .inr hlog
    · rintro ((⟨rows, hlook, hmem, hr⟩ | ⟨-, hblob⟩) | hlog)
      · exact hok.persisted f r ((hblobs f rows hlook r).mp hr) hmem
      · exact (hok.represented f r).mpr (.inl hblob)
      · exact (hok.represented f r).mpr (.inr hlog)
  files f hf := hok.files f ((h.mem f).mp hf)
  manager := hok.manager
  persisted f r hdel hf := (h.deleted f r).mpr (hok.persisted f r hdel ((h.mem f).mp hf))
  blob f r hblob := by
    rcases (h.inBlob f r).mp hblob with ⟨rows, hlook, -, hr⟩ | ⟨-, hblob⟩
    · exact (hblobs f rows hlook r).mp hr
    · exact hok.blob f r hblob

/-- The blobs that the result of a persistence brings. -/
def blobsOf (persisted : Option PersistedRecords) : AssocMap FileId (List Nat) :=
  (persisted.map (·.puffinBlobRef)).getD ∅

theorem updateSnapshotByIcebergSnapshot_ensures (persisted : Option PersistedRecords) :
    Ensures (s.updateSnapshotByIcebergSnapshot persisted) fun s' =>
      BlobsTaken (blobsOf persisted) s.diskFiles s'.diskFiles ∧
        s' = { s with diskFiles := s'.diskFiles, indices := s'.indices } := by
  cases persisted with
  | none =>
    refine .ok ⟨⟨fun _ => Iff.rfl, fun _ _ => Iff.rfl, fun f r => ?_⟩, rfl⟩
    simp [blobsOf]
  | some res =>
    refine .bind_any fun _ => .bind (P := fun s₁ : SnapshotTableState Row Ident =>
      s₁ = { s with indices := s₁.indices }) (.bind_any fun _ => .pure rfl) fun s₁ hs₁ => .pure ?_
    rw [hs₁]
    exact ⟨updateDeletionVectorToPersisted_blobsTaken { s with indices := s₁.indices } _, rfl⟩

/-! ## Compaction -/

variable {used : FileId → Prop} {m : AssocMap FileId (DataFileEntry Row)}
variable {result : DataCompactionResult Row FileIndex}

theorem TakenOver.snapshotOk
    {s s' : SnapshotTableState Row Ident} {remap : DataFileRemap} (h : TakenOver result s s' remap)
    (hok : SnapshotOk used m s.records)
    (hfresh : ∀ f ∈ result.newDataFiles.map (·.1.fileId), ¬ used f) :
    SnapshotOk (fun f => used f ∨ f ∈ result.newDataFiles.map (·.1.fileId)) m s'.records where
  represented := h.represented
  files f hf := ((h.mem f).mp hf).imp_left fun hold => hok.files f hold.1
  manager f hf := .inl (hok.manager f hf)
  persisted f r hdel hf := by
    obtain ⟨hmem, hold⟩ := ((h.mem f).mp hf).resolve_right
      fun hnew => hfresh f hnew (hok.manager f hdel.mem)
    exact (h.deleted f hmem hold r).mpr (hok.persisted f r hdel hmem)
  blob f r hblob := hok.blob f r ((h.inBlob f r).mp hblob).1

theorem TakenOver.evolves
    {s s' : SnapshotTableState Row Ident} {remap : DataFileRemap} (h : TakenOver result s s' remap)
    (hfresh : ∀ f ∈ result.newDataFiles.map (·.1.fileId), ¬ used f) :
    Evolves used s.records s'.records where
  mem f hf hused := (((h.mem f).mp hf).resolve_right fun hnew => hfresh f hnew hused).1
  deleted f r hf hused hdel := by
    obtain ⟨hmem, hold⟩ := ((h.mem f).mp hf).resolve_right fun hnew => hfresh f hnew hused
    exact (h.deleted f hmem hold r).mpr hdel

/-! ## Pruning -/

variable (task : SnapshotTask Row Ident)

/-- The deletion is dropped from the log when the results of the task are taken over. -/
def Pruned (f r : Nat) : Prop :=
  ∃ res, task.persistedRecords = some res ∧ (f, r) ∈ res.committedDeletionLogs ∧
    f ∉ task.compactingDataFiles

theorem pruneCommittedDeletionLogs_ensures (hcompacting : s.compactingDataFiles = task.compactingDataFiles) :
    Ensures (s.pruneCommittedDeletionLogs task.persistedRecords) fun s' =>
      (∀ f r, Logged s'.committedDeletionLog f r ↔
        Logged s.committedDeletionLog f r ∧ ¬ Pruned task f r) ∧
        s' = { s with committedDeletionLog := s'.committedDeletionLog } := by
  unfold Pruned
  cases task.persistedRecords with
  | none => exact .ok ⟨by simp, rfl⟩
  | some res =>
    refine .bind_any fun _ => .pure ⟨fun f r => ?_, rfl⟩
    unfold Logged
    simp only [List.mem_filter, isKept, hcompacting, Option.some.injEq, exists_eq_left']
    constructor
    · rintro ⟨deletion, ⟨hmem, hkept⟩, hpos⟩
      rw [hpos] at hkept
      refine ⟨⟨deletion, hmem, hpos⟩, ?_⟩
      rintro ⟨hlogs, hnot⟩
      simp [hlogs, hnot] at hkept
    · rintro ⟨⟨deletion, hmem, hpos⟩, hnot⟩
      refine ⟨deletion, ⟨hmem, ?_⟩, hpos⟩
      rw [hpos]
      by_cases hlogs : (f, r) ∈ res.committedDeletionLogs
      · have hin : f ∈ task.compactingDataFiles := by
          by_contra hout
          exact hnot ⟨hlogs, hout⟩
        simp [hin]
      · simp [hlogs]

/-- Deletions that are dropped are in a blob. -/
theorem represented_pruned {log : List ProcessedDeletionRecord}
    {task : SnapshotTask Row Ident} (hrep : R.Represented)
    (hlog : ∀ f r, Logged log f r ↔ Logged R.log f r ∧ ¬ Pruned task f r)
    (hblob : ∀ f r, Pruned task f r → f ∈ R.files → R.files.InBlob f r) :
    Represented ⟨R.files, log⟩ := by
  intro f r
  rw [hlog, hrep f r]
  constructor
  · rintro (hb | hl)
    · exact .inl hb
    · by_cases hp : Pruned task f r
      · exact .inl (hblob f r hp ((hrep f r).mpr (.inr hl)).mem)
      · exact .inr ⟨hl, hp⟩
  · rintro (hb | ⟨hl, -⟩)
    · exact .inl hb
    · exact .inr hl

/-! ## Results together -/

/-- The ids of the files that a compaction adds. -/
def compactedFileIds (result : Option (DataCompactionResult Row FileIndex)) : List FileId :=
  (result.map fun r => r.newDataFiles.map (·.1.fileId)).getD []

/-- The result of a compaction after it is taken over: its old files are gone, and the rows
that are left in its map are not deleted. -/
inductive ResultTaken (R R' : DeletionRecords Row) :
    Option (DataCompactionResult Row FileIndex) → Option (DataCompactionResult Row FileIndex) → Prop where
  | none : ResultTaken R R' none none
  | some {result : DataCompactionResult Row FileIndex} {remap : DataFileRemap}
      (old : ∀ f ∈ result.oldDataFiles, f ∈ R.files ∧ f ∉ R'.files)
      (left : ∀ location ∈ remap, ∃ f ∈ result.oldDataFiles, ∃ r, location = .diskFile f r ∧
        ¬ R.files.Deleted f r) :
      ResultTaken R R' (some result) (some { result with remappedDataFiles := remap })

/-- The compaction of the task is taken over, if there is one. -/
structure Compacted (used : FileId → Prop) (m : AssocMap FileId (DataFileEntry Row))
    (result : Option (DataCompactionResult Row FileIndex)) (s : SnapshotTableState Row Ident)
    (res : SnapshotTableState Row Ident × Option (DataCompactionResult Row FileIndex)) : Prop where
  ok : SnapshotOk (fun f => used f ∨ f ∈ compactedFileIds result) m res.1.records
  evolves : Evolves used s.records res.1.records
  inBlob : ∀ f r, f ∈ res.1.diskFiles → used f → s.diskFiles.InBlob f r → res.1.diskFiles.InBlob f r
  taken : ResultTaken s.records res.1.records result res.2
  unchanged : result = none → res.1 = s
  unpersistedRecords : res.1.unpersistedRecords = s.unpersistedRecords
  compactingDataFiles : res.1.compactingDataFiles = s.compactingDataFiles

theorem compaction_ensures
    (result : Option (DataCompactionResult Row FileIndex)) (hok : SnapshotOk used m s.records)
    (hfits : ∀ r, result = some r → ResultFits s.records r)
    (hfresh : ∀ f ∈ compactedFileIds result, ¬ used f) :
    Ensures (do
        let s ← s.updateDataCompactionToMooncakeSnapshot result
        s.remapDeletionLogsAfterCompaction result)
      (Compacted used m result s) := by
  cases result with
  | none =>
    refine .ok ?_
    exact {
      ok := ⟨hok.represented, fun f hf => .inl (hok.files f hf), fun f hf => .inl (hok.manager f hf),
        hok.persisted, hok.blob⟩
      evolves := .refl used _
      inBlob := fun _ _ _ _ h => h
      taken := .none
      unchanged := fun _ => rfl
      unpersistedRecords := rfl
      compactingDataFiles := rfl }
  | some result =>
    have hfits := hfits result rfl
    refine (s.takeOver_ensures result hfits hok.represented).mono ?_
    rintro ⟨s', result'⟩ ⟨remap, rfl, htaken⟩
    exact { htaken with
      ok := htaken.snapshotOk hok hfresh
      evolves := htaken.evolves hfresh
      inBlob := fun f r hf hused hblob => (htaken.inBlob f r).mpr
        ⟨hblob, (((htaken.mem f).mp hf).resolve_right fun hnew => hfresh f hnew hused).2⟩
      taken := .some
        (fun f hf => ⟨hfits.old f hf, fun hmem => ((htaken.mem f).mp hmem).elim
          (fun hold => hold.2 hf) fun hnew => hfits.fresh f hnew (hfits.old f hf)⟩)
        htaken.left
      unchanged := nofun }

/-- What a task brings, relative to the snapshot that takes it over. -/
structure TaskOk (used : FileId → Prop) (m : AssocMap FileId (DataFileEntry Row))
    (R : DeletionRecords Row) (task : SnapshotTask Row Ident) : Prop where
  persisted : ∀ res, task.persistedRecords = some res → res.ResultOk m
  compaction : ∀ result, task.dataCompactionResult = some result → ResultFits R result
  nodup : (task.newFileIds ++ compactedFileIds task.dataCompactionResult).Nodup
  fresh : ∀ f ∈ task.newFileIds ++ compactedFileIds task.dataCompactionResult, ¬ used f
  outputs : ∀ output ∈ task.newStreamingXact, output.Unpersisted

/-- The snapshot after the results of the task are taken over, and files with the `ids` added; `result` is
what is left of the one of the compaction. -/
structure Updated (used : FileId → Prop) (ids : List FileId) (m : AssocMap FileId (DataFileEntry Row))
    (task : SnapshotTask Row Ident) (s s' : SnapshotTableState Row Ident)
    (result : Option (DataCompactionResult Row FileIndex)) : Prop where
  ok : SnapshotOk (fun f => used f ∨ f ∈ ids) m s'.records
  evolves : Evolves used s.records s'.records
  taken : ResultTaken s.records s'.records task.dataCompactionResult result
  running : ∀ payload : DataCompactionPayload Row FileIndex, task.dataCompactionResult = none →
    RunningOk s.records payload →
    (∀ file ∈ payload.diskFiles, ∀ r, Logged s.committedDeletionLog file.fileId r →
      ¬ Pruned task file.fileId r) → RunningOk s'.records payload
  buffered : ∃ records, s.unpersistedRecords.prunePersistedRecords task.persistedRecords = .ok records ∧
    records.bufferUnpersistedRecords { task with dataCompactionResult := result } =
      .ok s'.unpersistedRecords

theorem ResultFits.of_blobsTaken {files' : DiskFiles Row}
    {blobs : AssocMap FileId (List Nat)}
    (h : ResultFits R result) (hblobs : BlobsTaken blobs R.files files') :
    ResultFits ⟨files', R.log⟩ result where
  old f hf := (hblobs.mem f).mpr (h.old f hf)
  fresh f hf hmem := h.fresh f hf ((hblobs.mem f).mp hmem)
  source := h.source
  target := h.target
  logged f r hmem hdel := h.logged f r hmem ((hblobs.deleted f r).mp hdel)

theorem ResultTaken.congr {R R₁ R' R₁' : DeletionRecords Row}
    {result result' : Option (DataCompactionResult Row FileIndex)}
    (h : ResultTaken R₁ R₁' result result') (hmem : ∀ f, f ∈ R₁.files → f ∈ R.files)
    (hdeleted : ∀ f r, R.files.Deleted f r → R₁.files.Deleted f r)
    (hmem' : ∀ f ∈ R₁.files, f ∈ R'.files → f ∈ R₁'.files) : ResultTaken R R' result result' := by
  cases h with
  | none => exact .none
  | some old left =>
    refine .some (fun f hf => ⟨hmem f (old f hf).1, fun h => (old f hf).2 (hmem' f (old f hf).1 h)⟩) ?_
    intro location hloc
    obtain ⟨f, hf, r, heq, hdel⟩ := left location hloc
    exact ⟨f, hf, r, heq, fun h => hdel (hdeleted f r h)⟩

theorem reflectResults_ensures (hok : SnapshotOk used m s.records) (htask : TaskOk used m s.records task) :
    Ensures (s.reflectResults task) fun res => ∃ result,
      res.2 = { task with dataCompactionResult := result } ∧
        Updated used (compactedFileIds task.dataCompactionResult) m task s res.1 result := by
  intro res hres
  obtain ⟨s₁, h₁, hres⟩ := bind_eq_ok.mp hres
  obtain ⟨s₂, h₂, hres⟩ := bind_eq_ok.mp hres
  obtain ⟨s₃, h₃, hres⟩ := bind_eq_ok.mp hres
  obtain ⟨⟨s₄, result⟩, h₄, hres⟩ := bind_eq_ok.mp hres
  obtain ⟨s₅, h₅, hres⟩ := bind_eq_ok.mp hres
  obtain ⟨records, hprune, hres⟩ := bind_eq_ok.mp hres
  obtain ⟨unpersisted, hbuffer, hres⟩ := bind_eq_ok.mp hres
  cases hres
  -- Blobs and indices.
  obtain ⟨hblobs, hs₁⟩ := updateSnapshotByIcebergSnapshot_ensures _ _ s₁ h₁
  have hs₂ := updateFileIndicesToMooncakeSnapshot_ensures _ _ _ s₂ h₂
  have hrecords₂ : s₂.records = ⟨s₁.diskFiles, s.records.log⟩ := by
    rw [hs₂, hs₁]
    rfl
  have hok₂ : SnapshotOk used m s₂.records := by
    rw [hrecords₂]
    refine BlobsTaken.snapshotOk hblobs hok fun f rows hlook => ?_
    unfold blobsOf at hlook
    cases hpers : task.persistedRecords with
    | none => simp [hpers] at hlook
    | some res => exact (htask.persisted res hpers).blob f rows (by simpa [hpers] using hlook)
  have hfits₂ : ∀ r, task.dataCompactionResult = some r → ResultFits s₂.records r := by
    intro r hr
    rw [hrecords₂]
    exact ResultFits.of_blobsTaken (htask.compaction r hr) hblobs
  -- The compaction.
  have hcomp := s₂.compaction_ensures task.dataCompactionResult hok₂ hfits₂
    (fun f hf => htask.fresh f (List.mem_append_right _ hf)) (s₄, result)
    (bind_eq_ok.mpr ⟨s₃, h₃, h₄⟩)
  have hmem₂ : ∀ f, f ∈ s₂.diskFiles ↔ f ∈ s.diskFiles := by
    intro f
    rw [hs₂]
    exact hblobs.mem f
  have hdeleted₂ : ∀ f r, s₂.diskFiles.Deleted f r ↔ s.diskFiles.Deleted f r := by
    intro f r
    rw [hs₂]
    exact hblobs.deleted f r
  have hcompacting : s₄.compactingDataFiles = task.compactingDataFiles := by
    rw [hcomp.compactingDataFiles, hs₂, hs₁]
  -- Pruning.
  obtain ⟨hlog₅, hs₅⟩ := s₄.pruneCommittedDeletionLogs_ensures task hcompacting s₅ h₅
  have hpruned : ∀ f r, Pruned task f r → f ∈ s₄.diskFiles → s₄.diskFiles.InBlob f r := by
    rintro f r ⟨res, hpers, hlogs, -⟩ hf
    obtain ⟨hdel, rows, hrows⟩ := (htask.persisted res hpers).logged f r hlogs
    have hused := hok.manager f hdel.mem
    refine hcomp.inBlob f r hf hused ?_
    rw [hs₂]
    refine (hblobs.inBlob f r).mpr (.inl ⟨rows, by simp [blobsOf, hpers, hrows], ?_, ?_⟩)
    · exact (hmem₂ f).mp (hcomp.evolves.mem f hf hused)
    · exact ((htask.persisted res hpers).blob f rows hrows r).mpr hdel
  have hrecords : ({ s₅ with unpersistedRecords := unpersisted } : SnapshotTableState Row Ident).records =
      ⟨s₄.diskFiles, s₅.committedDeletionLog⟩ := by
    rw [hs₅]
    rfl
  refine ⟨result, rfl, ?_, ?_, ?_, ?_, ?_⟩
  · rw [hrecords]
    exact ⟨represented_pruned hcomp.ok.represented hlog₅ hpruned, hcomp.ok.files, hcomp.ok.manager,
      hcomp.ok.persisted, hcomp.ok.blob⟩
  · rw [hrecords]
    exact ⟨fun f hf hused => (hmem₂ f).mp (hcomp.evolves.mem f hf hused), fun f r hf hused hdel =>
      hcomp.evolves.deleted f r hf hused ((hdeleted₂ f r).mpr hdel)⟩
  · rw [hrecords]
    exact hcomp.taken.congr (fun f => (hmem₂ f).mp) (fun f r => (hdeleted₂ f r).mpr) fun f _ hf => hf
  · intro payload hnone hrun hkept
    have hs₄ : s₄ = s₂ := hcomp.unchanged hnone
    have hlog₂ : s₂.committedDeletionLog = s.committedDeletionLog := by rw [hs₂, hs₁]
    rw [hrecords, hs₄]
    refine ⟨fun file hfile => (hmem₂ _).mpr (hrun.files file hfile), ?_⟩
    intro f r hlive hdel
    have hlogged : Logged s.committedDeletionLog f r :=
      hrun.logged f r hlive ((hdeleted₂ f r).mp hdel)
    refine (hlog₅ f r).mpr ⟨by rw [hs₄, hlog₂]; exact hlogged, ?_⟩
    unfold DataCompactionPayload.liveRows at hlive
    rw [List.map_flatMap, List.mem_flatMap] at hlive
    obtain ⟨file, hfile, hlive⟩ := hlive
    cases CompactionBuilder.fileId_of_mem_liveRows hlive
    exact hkept file hfile r hlogged
  · refine ⟨records, ?_, hbuffer⟩
    have hunp : s₅.unpersistedRecords = s.unpersistedRecords := by
      rw [hs₅, hcomp.unpersistedRecords, hs₂, hs₁]
    rw [← hunp]
    exact hprune

/-! ## The payload -/

/-- The payload is one of the snapshot. -/
structure PayloadOf (s : SnapshotTableState Row Ident) (p : PersistenceSnapshotPayload Row) : Prop where
  vectors : p.VectorsMatch
  deleted : ∀ f r, (f, r) ∈ p.committedDeletionLogs → s.diskFiles.Deleted f r
  dataFiles : p.dataFiles = s.unpersistedRecords.newDataFiles
  mergedToAdd : p.mergedFileIndicesToAdd = s.unpersistedRecords.mergedFileIndicesToAdd
  mergedToRemove : p.mergedFileIndicesToRemove = s.unpersistedRecords.mergedFileIndicesToRemove
  compactedToAdd : p.compactedDataFilesToAdd = s.unpersistedRecords.compactedDataFilesToAdd
  compactedToRemove : p.compactedDataFilesToRemove = s.unpersistedRecords.compactedDataFilesToRemove
  remap : p.dataFileRecordsRemap = s.unpersistedRecords.compactedDataFileRemap

theorem offerPayload_ensures (cfg : SnapshotConfig Row Ident)
    (task : SnapshotTask Row Ident) (opt : SnapshotOption) (hrep : s.records.Represented) :
    Ensures (s.offerPayload cfg task opt) fun payload => ∀ p, payload = some p → PayloadOf s p := by
  unfold offerPayload
  simp only
  split
  · refine .bind (s.aggregateCommittedDeletionLogs_ensures _) ?_
    rintro ⟨deletions, vectors⟩ ⟨haggregated, hlogged⟩
    refine .pure ?_
    intro p hp
    split at hp
    · cases hp
      exact ⟨haggregated.vectors, fun f r hmem => (hrep f r).mpr (.inr (hlogged (f, r) hmem)),
        rfl, rfl, rfl, rfl, rfl, rfl⟩
    · cases hp
  · exact .ok nofun

/-! ## The update -/

/-- The ids of all files that the task adds. -/
def takenFileIds : List FileId :=
  task.newFileIds ++ compactedFileIds task.dataCompactionResult

theorem Updated.writes {task : SnapshotTask Row Ident} {s s₁ s' : SnapshotTableState Row Ident}
    {result : Option (DataCompactionResult Row FileIndex)}
    (h : Updated used (compactedFileIds task.dataCompactionResult) m task s s₁ result)
    (hok : SnapshotOk used m s.records) (hnodup : (takenFileIds task).Nodup)
    (hfresh : ∀ f ∈ takenFileIds task, ¬ used f) (hwrites : Writes (· ∈ task.newFileIds) s₁ s') :
    Updated used (takenFileIds task) m task s s' result where
  ok := by
    refine (hwrites.records.snapshotOk h.ok ?_).mono ?_
    · intro f hnew hused
      rcases hused with hused | hcompacted
      · exact hfresh f (List.mem_append_left _ hnew) hused
      · exact List.disjoint_of_nodup_append hnodup hnew hcompacted
    · rintro f ((hused | hcompacted) | hnew)
      · exact .inl hused
      · exact .inr (List.mem_append_right _ hcompacted)
      · exact .inr (List.mem_append_left _ hnew)
  evolves := h.evolves.trans (hwrites.records.evolves fun f hf => hfresh f (List.mem_append_left _ hf))
  taken := by
    refine h.taken.congr (fun f hf => hf) (fun f r hr => hr) fun f hf hmem => ?_
    refine (hwrites.records.mem_inv f hmem).resolve_right fun hnew => ?_
    exact hfresh f (List.mem_append_left _ hnew) (hok.files f hf)
  running payload hnone hrun hkept := hwrites.records.runningOk (h.running payload hnone hrun hkept)
  buffered := by
    rw [hwrites.unpersistedRecords]
    exact h.buffered

theorem updateSnapshot_ensures [DecidableEq Ident] (s : SnapshotTableState Row Ident)
    (cfg : SnapshotConfig Row Ident) (task : SnapshotTask Row Ident) (opt : SnapshotOption)
    (hok : SnapshotOk used m s.records) (htask : TaskOk used m s.records task) :
    Ensures (s.updateSnapshot cfg task opt) fun res =>
        (∃ result, Updated used (takenFileIds task) m task s res.1 result) ∧
      ∀ p, res.2 = some p → PayloadOf res.1 p := by
  refine .bind_any fun _ => .bind (s.reflectResults_ensures task hok htask) ?_
  rintro ⟨s₁, task₁⟩ ⟨result, htask₁, hreflected⟩
  simp only at htask₁ ⊢
  subst htask₁
  have hfresh : ∀ f ∈ task.newFileIds, f ∉ s₁.diskFiles := by
    intro f hnew hmem
    rcases hreflected.ok.files f hmem with hused | hcompacted
    · exact htask.fresh f (List.mem_append_left _ hnew) hused
    · exact List.disjoint_of_nodup_append htask.nodup hnew hcompacted
  refine .bind (s₁.applyWrites_ensures cfg { task with dataCompactionResult := result } htask.outputs
    (List.nodup_append'.mp htask.nodup).1 hfresh) fun s₂ hwrites => ?_
  have hupdated := hreflected.writes hok htask.nodup htask.fresh hwrites
  refine .bind (s₂.offerPayload_ensures cfg _ opt hupdated.ok.represented) fun payload hpayload => ?_
  exact .bind_any fun _ => .bind_any fun _ => .pure ⟨⟨result, hupdated⟩, hpayload⟩

end SnapshotTableState
end Moonlink.Storage
