-- SUMMARY: The choice of the data files to compact and of their indices, and exactly when the payload is closed.
import Moonlink.Storage.DeletionInvariant

/-!
# Compaction payloads

Data files are chosen one by one: those that are small or have enough deleted rows, up to
a maximum number. An index may cover several files, so the indices of the chosen files
may cover others as well, which a payload must not do.

The sizes of data files are given as a function, and whether debug assertions are
compiled in as a flag. The table has an index.
-/

namespace Moonlink.Storage.Maintenance

open Lib

variable {Row Ident : Type}

/-! ## The source -/

inductive MaintenanceOption where
  | bestEffort (eventId : Nat)
  | forceRegular (eventId : Nat)
  | forceFull (eventId : Nat)
  | skip
  deriving DecidableEq, Repr

structure DataCompactionConfig where
  minDataFileToCompact : Nat
  maxDataFileToCompact : Nat
  dataFileFinalSize : Nat
  /-- Zero if deleted rows are no reason to compact a file. -/
  dataFileDeletionPercentage : Nat

inductive DataCompactionMaintenanceStatus (Row : Type) where
  | unknown
  | nothing
  | payload (uuid : Nat) (payload : DataCompactionPayload Row FileIndex)

inductive MaintenancePanic where
  /-- `get_unpersisted_data_files_set`: a file is there twice. -/
  | unpersistedFileCount
  /-- `get_unpersisted_file_indices_set`: not the expected number of indices. -/
  | unpersistedIndexCount
  | divisionByZero
  /-- A data file or an index is inserted twice. -/
  | duplicateDataFile
  | duplicateFileIndex
  /-- A file whose index is not persisted is not among the chosen ones. -/
  | missingDataFile
  /-- `validate_compaction_payload`: the files are not those of the indices. -/
  | payloadNotClosed
  deriving DecidableEq, Repr

namespace MaintenancePanic

def assert (c : Bool) (p : MaintenancePanic) : Except MaintenancePanic Unit :=
  if c then .ok () else .error p

theorem returns_assert {c : Bool} {p : MaintenancePanic} {Q : Unit → Prop} :
    Returns (assert c p) Q ↔ c = true ∧ Q () := by
  unfold assert
  cases c with
  | true => simp [Returns.ok_iff]
  | false => simp [Returns]

end MaintenancePanic

def usizeMax : Nat := 2 ^ 64 - 1

structure CompactionThresholds where
  eventId : Nat
  minFiles : Nat
  maxFiles : Nat
  deletionPercentage : Nat
  fileSize : Nat

/-- No thresholds if compaction is skipped. -/
def compactionThresholds (config : DataCompactionConfig) :
    MaintenanceOption → Option CompactionThresholds
  | .skip => none
  | .forceRegular eventId => some ⟨eventId, 2, config.maxDataFileToCompact,
      config.dataFileDeletionPercentage, config.dataFileFinalSize⟩
  | .forceFull eventId => some ⟨eventId, 2, usizeMax, 1, usizeMax⟩
  | .bestEffort eventId => some ⟨eventId, config.minDataFileToCompact, config.maxDataFileToCompact,
      config.dataFileDeletionPercentage, config.dataFileFinalSize⟩

def getUnpersistedDataFilesSet (records : UnpersistedRecords Row) :
    Except MaintenancePanic (List FileId) := do
  let files := records.getUnpersistedDataFilesSet
  MaintenancePanic.assert (files.length = files.dedup.length) .unpersistedFileCount
  return files.dedup

/-- The number of unpersisted indices that the code expects: it counts the data files of a
compaction in place of its indices. -/
def expectedUnpersistedIndices (records : UnpersistedRecords Row) : Nat :=
  records.newFileIndices.length + records.mergedFileIndicesToAdd.length +
    records.compactedDataFilesToAdd.length

/-- Indices are equal if their files are. -/
def getUnpersistedFileIndicesSet (records : UnpersistedRecords Row) :
    Except MaintenancePanic (List (List FileId)) := do
  let indices := (records.getUnpersistedFileIndicesSet.map (·.files)).dedup
  MaintenancePanic.assert (expectedUnpersistedIndices records = indices.length)
    .unpersistedIndexCount
  return indices

def checkedDiv (a b : Nat) : Except MaintenancePanic Nat :=
  if b = 0 then .error .divisionByZero else .ok (a / b)

/-- A file is not compacted if it is large and not enough of its rows are deleted. -/
def skipsFile (th : CompactionThresholds) (fileSize : Nat) (entry : DiskFileEntry Row) :
    Except MaintenancePanic Bool :=
  if th.fileSize ≤ fileSize then
    if th.deletionPercentage = 0 then .ok true
    else do
      let deletionPercentage ←
        checkedDiv (entry.committedDeletionVector.getNumRowsDeleted * 100) entry.numRows
      return deletionPercentage < th.deletionPercentage
  else .ok false

/-- The loop over the data files; the accumulators are the chosen files and the number of
unpersisted ones. -/
def selectDataFiles (th : CompactionThresholds) (fileSize : FileId → Nat)
    (unpersisted : List FileId) : List (Sigma fun _ : FileId => DiskFileEntry Row) →
    List FileId × Nat → Except MaintenancePanic (List FileId × Nat)
  | [], acc => .ok acc
  | file :: rest, (fileIds, rejectByUnpersistence) =>
    if unpersisted.contains file.1 then
      selectDataFiles th fileSize unpersisted rest (fileIds, rejectByUnpersistence + 1)
    else do
      if ← skipsFile th (fileSize file.1) file.2 then
        selectDataFiles th fileSize unpersisted rest (fileIds, rejectByUnpersistence)
      else if th.maxFiles ≤ fileIds.length then
        return (fileIds, rejectByUnpersistence)
      else
        MaintenancePanic.assert (!fileIds.contains file.1) .duplicateDataFile
        selectDataFiles th fileSize unpersisted rest (fileIds ++ [file.1], rejectByUnpersistence)

def coversChosen (fileIds : List FileId) (index : FileIndex) : Bool :=
  index.files.any (fileIds.contains ·)

/-- An index is taken if one of its files is chosen. -/
def insertFileIndex (fileIds : List FileId) (fileIndices : List FileIndex) (index : FileIndex) :
    Except MaintenancePanic (List FileIndex) :=
  if coversChosen fileIds index then do
    MaintenancePanic.assert (!(fileIndices.map (·.files)).contains index.files) .duplicateFileIndex
    return fileIndices ++ [index]
  else .ok fileIndices

def removeDataFile (fileIds : List FileId) (fileId : FileId) :
    Except MaintenancePanic (List FileId) := do
  MaintenancePanic.assert (fileIds.contains fileId) .missingDataFile
  return fileIds.erase fileId

/-- The files of the payload are those of the indices, which only debug builds check. -/
def validateCompactionPayload (debugAssertions : Bool)
    (payload : DataCompactionPayload Row FileIndex) : Except MaintenancePanic Unit :=
  let dataFiles := payload.diskFiles.map (·.fileId)
  let byFileIndices := payload.fileIndices.flatMap (·.files)
  MaintenancePanic.assert
    (!debugAssertions ||
      dataFiles.all (byFileIndices.contains ·) && byFileIndices.all (dataFiles.contains ·))
    .payloadNotClosed

section Payload

variable (env : TableEnv Row Ident) (config : DataCompactionConfig) (fileSize : FileId → Nat)
  (debugAssertions : Bool) (s : SnapshotTableState Row Ident)

/-- The payload of the files that are left, if there are enough. -/
def payloadOfRemaining (th : CompactionThresholds) (fileIds : List FileId)
    (fileIndices : List FileIndex) :
    Except MaintenancePanic (DataCompactionMaintenanceStatus Row) :=
  if fileIds.length < th.minFiles then return .unknown
  else do
    let payload := s.compactionPayload env fileIds fileIndices
    validateCompactionPayload debugAssertions payload
    return .payload th.eventId payload

/-- The part after the files are chosen. -/
def payloadOfFiles (th : CompactionThresholds) (fileIds : List FileId) :
    Except MaintenancePanic (DataCompactionMaintenanceStatus Row) := do
  let fileIndices ← s.indices.fileIndices.foldlM (insertFileIndex fileIds) []
  let unpersisted ← getUnpersistedFileIndicesSet s.unpersistedRecords
  let toRemove := fileIndices.filter fun index => unpersisted.contains index.files
  let fileIds ← (toRemove.flatMap (·.files)).foldlM removeDataFile fileIds
  -- The indices to remove come from the set, so removing them from it does not fail.
  payloadOfRemaining env debugAssertions s th fileIds
    (fileIndices.filter fun index => !unpersisted.contains index.files)

def getPayloadToCompact (opt : MaintenanceOption) :
    Except MaintenancePanic (DataCompactionMaintenanceStatus Row) :=
  match compactionThresholds config opt with
  | none => .ok .unknown
  | some th =>
    if s.diskFiles.entries.length < th.minFiles then .ok .nothing
    else do
      let unpersisted ← getUnpersistedDataFilesSet s.unpersistedRecords
      let (fileIds, rejectByUnpersistence) ←
        selectDataFiles th fileSize unpersisted s.diskFiles.entries ([], 0)
      if fileIds.length < th.minFiles then
        return if th.minFiles ≤ fileIds.length + rejectByUnpersistence then .unknown else .nothing
      else payloadOfFiles env debugAssertions s th fileIds

end Payload

/-! ## The chosen files -/

section Selection

variable (th : CompactionThresholds) (fileSize : FileId → Nat) (unpersisted : List FileId)

/-- The file may be compacted: it is persisted, and small or with enough deleted rows. -/
def isCandidate (file : Sigma fun _ : FileId => DiskFileEntry Row) : Bool :=
  !unpersisted.contains file.1 && (fileSize file.1 < th.fileSize ||
    th.deletionPercentage ≠ 0 && th.deletionPercentage ≤
      file.2.committedDeletionVector.getNumRowsDeleted * 100 / file.2.numRows)

/-- The percentage of deleted rows of the file is needed, and it has no rows. -/
def DividesByZero (file : Sigma fun _ : FileId => DiskFileEntry Row) : Prop :=
  file.1 ∉ unpersisted ∧ th.fileSize ≤ fileSize file.1 ∧ th.deletionPercentage ≠ 0 ∧
    file.2.numRows = 0

/-- No file without rows is reached: the loop stops at the first candidate after `n` others. -/
def ReachesNoEmptyFile (n : Nat) (files : List (Sigma fun _ : FileId => DiskFileEntry Row)) :
    Prop :=
  ∀ before file after, files = before ++ file :: after →
    DividesByZero th fileSize unpersisted file →
    n < (before.filter (isCandidate th fileSize unpersisted)).length

def selectedFiles (n : Nat) (files : List (Sigma fun _ : FileId => DiskFileEntry Row)) :
    List FileId :=
  ((files.filter (isCandidate th fileSize unpersisted)).take n).map (·.1)

variable {th fileSize unpersisted}
variable {file : Sigma fun _ : FileId => DiskFileEntry Row}
  {files : List (Sigma fun _ : FileId => DiskFileEntry Row)}

theorem skipsFile_returns (hfile : unpersisted.contains file.1 = false) {Q : Bool → Prop} :
    Returns (skipsFile th (fileSize file.1) file.2) Q ↔
      ¬ DividesByZero th fileSize unpersisted file ∧
        Q (!isCandidate th fileSize unpersisted file) := by
  have hmem : file.1 ∉ unpersisted := by simpa using hfile
  unfold skipsFile
  split
  case isFalse hsize =>
    rw [Returns.ok_iff]
    simp [DividesByZero, isCandidate, hmem, hsize, Nat.lt_of_not_le hsize]
  case isTrue hsize =>
    have hlt : ¬ fileSize file.1 < th.fileSize := Nat.not_lt.mpr hsize
    split
    case isTrue hpercentage =>
      rw [Returns.ok_iff]
      simp [DividesByZero, isCandidate, hpercentage, hlt]
    case isFalse hpercentage =>
      rw [Returns.bind_iff]
      unfold checkedDiv
      split
      case isTrue hrows =>
        refine ⟨fun ⟨_, h, _⟩ => (nomatch h), fun ⟨h, _⟩ => ?_⟩
        exact absurd ⟨hmem, hsize, hpercentage, hrows⟩ h
      case isFalse hrows =>
        have hcandidate : (!isCandidate th fileSize unpersisted file) =
            decide (file.2.committedDeletionVector.getNumRowsDeleted * 100 / file.2.numRows <
              th.deletionPercentage) := by
          simp [isCandidate, hmem, hlt, hpercentage, ← decide_not, -not_le, Nat.not_le]
        rw [Returns.ok_iff, hcandidate]
        exact ⟨fun h => ⟨fun hzero => hrows hzero.2.2.2, Returns.ok_iff.mp h⟩, fun h => .ok h.2⟩

variable {n : Nat}

theorem ReachesNoEmptyFile.cons_iff :
    ReachesNoEmptyFile th fileSize unpersisted n (file :: files) ↔
      ¬ DividesByZero th fileSize unpersisted file ∧
        ∀ before empty after, files = before ++ empty :: after →
          DividesByZero th fileSize unpersisted empty →
          n < ((file :: before).filter (isCandidate th fileSize unpersisted)).length := by
  constructor
  · intro h
    refine ⟨fun hfile => ?_, fun before empty after heq hempty => ?_⟩
    · exact absurd (h [] file files rfl hfile) (Nat.not_lt_zero _)
    · exact h (file :: before) empty after (by rw [heq]; rfl) hempty
  · rintro ⟨hfile, h⟩ before empty after heq hempty
    cases before with
    | nil =>
      cases heq
      exact absurd hempty hfile
    | cons first before =>
      cases heq
      exact h before empty after rfl hempty

theorem ReachesNoEmptyFile.cons_of_not_isCandidate
    (hfile : isCandidate th fileSize unpersisted file = false)
    (hzero : ¬ DividesByZero th fileSize unpersisted file) :
    ReachesNoEmptyFile th fileSize unpersisted n (file :: files) ↔
      ReachesNoEmptyFile th fileSize unpersisted n files := by
  rw [ReachesNoEmptyFile.cons_iff, and_iff_right hzero]
  simp only [List.filter_cons, hfile, Bool.false_eq_true, if_false]
  rfl

theorem ReachesNoEmptyFile.cons_zero (hfile : isCandidate th fileSize unpersisted file = true)
    (hzero : ¬ DividesByZero th fileSize unpersisted file) :
    ReachesNoEmptyFile th fileSize unpersisted 0 (file :: files) := by
  refine ReachesNoEmptyFile.cons_iff.mpr ⟨hzero, fun before empty after _ _ => ?_⟩
  rw [List.filter_cons_of_pos hfile]
  exact Nat.succ_pos _

theorem ReachesNoEmptyFile.cons_succ
    (hfile : isCandidate th fileSize unpersisted file = true)
    (hzero : ¬ DividesByZero th fileSize unpersisted file) :
    ReachesNoEmptyFile th fileSize unpersisted (n + 1) (file :: files) ↔
      ReachesNoEmptyFile th fileSize unpersisted n files := by
  rw [ReachesNoEmptyFile.cons_iff, and_iff_right hzero]
  simp only [List.filter_cons, hfile, if_true, List.length_cons, Nat.add_lt_add_iff_right]
  rfl

theorem selectedFiles_zero : selectedFiles th fileSize unpersisted 0 files = [] := rfl

theorem selectedFiles_cons_of_not_isCandidate
    (hfile : isCandidate th fileSize unpersisted file = false) :
    selectedFiles th fileSize unpersisted n (file :: files) =
      selectedFiles th fileSize unpersisted n files := by
  rw [selectedFiles, List.filter_cons_of_neg (by simp [hfile]), selectedFiles]

theorem selectedFiles_cons_succ
    (hfile : isCandidate th fileSize unpersisted file = true) :
    selectedFiles th fileSize unpersisted (n + 1) (file :: files) =
      file.1 :: selectedFiles th fileSize unpersisted n files := by
  rw [selectedFiles, List.filter_cons_of_pos hfile, List.take_succ_cons, List.map_cons, selectedFiles]

/-- The loop returns if it reaches no empty file, and then it has chosen the first candidates. -/
theorem selectDataFiles_returns {fileIds : List FileId} {reject : Nat}
    (hmax : fileIds.length ≤ th.maxFiles) (hnodup : (fileIds ++ files.map (·.1)).Nodup)
    {Q : List FileId → Prop} :
    (Returns (selectDataFiles th fileSize unpersisted files (fileIds, reject)) fun acc => Q acc.1) ↔
      ReachesNoEmptyFile th fileSize unpersisted (th.maxFiles - fileIds.length) files ∧
        Q (fileIds ++ selectedFiles th fileSize unpersisted (th.maxFiles - fileIds.length) files) := by
  induction files generalizing fileIds reject with
  | nil =>
    simp [selectDataFiles, Returns.ok_iff, selectedFiles, ReachesNoEmptyFile]
  | cons file files ih =>
    have hnodup' : (fileIds ++ files.map (·.1)).Nodup :=
      hnodup.sublist ((List.Sublist.refl _).append (List.sublist_cons_self _ _))
    cases hunpersisted : unpersisted.contains file.1 with
    | true =>
      have hcandidate : isCandidate th fileSize unpersisted file = false := by
        rw [isCandidate, hunpersisted, Bool.not_true, Bool.false_and]
      have hzero : ¬ DividesByZero th fileSize unpersisted file :=
        fun hzero => hzero.1 (by simpa using hunpersisted)
      rw [selectDataFiles, if_pos hunpersisted, ih hmax hnodup',
        ReachesNoEmptyFile.cons_of_not_isCandidate hcandidate hzero,
        selectedFiles_cons_of_not_isCandidate hcandidate]
    | false =>
      rw [selectDataFiles, hunpersisted, if_neg Bool.false_ne_true, Returns.bind_iff,
        skipsFile_returns hunpersisted]
      by_cases hzero : DividesByZero th fileSize unpersisted file
      · exact ⟨fun h => absurd hzero h.1,
          fun h => absurd hzero (ReachesNoEmptyFile.cons_iff.mp h.1).1⟩
      rw [and_iff_right hzero]
      cases hcandidate : isCandidate th fileSize unpersisted file with
      | false =>
        rw [Bool.not_false, if_pos rfl, ih hmax hnodup',
          ReachesNoEmptyFile.cons_of_not_isCandidate hcandidate hzero,
          selectedFiles_cons_of_not_isCandidate hcandidate]
      | true =>
        rw [Bool.not_true, if_neg Bool.false_ne_true]
        by_cases hfull : th.maxFiles ≤ fileIds.length
        · rw [if_pos hfull, Nat.sub_eq_zero_of_le hfull, selectedFiles_zero, List.append_nil]
          exact (Returns.ok_iff).trans
            (and_iff_right (ReachesNoEmptyFile.cons_zero hcandidate hzero)).symm
        · obtain ⟨n, hn⟩ : ∃ n, th.maxFiles - fileIds.length = n + 1 :=
            ⟨th.maxFiles - fileIds.length - 1, by omega⟩
          have hfresh : file.1 ∉ fileIds :=
            fun hmem => (List.nodup_append.mp hnodup).2.2 _ hmem _ List.mem_cons_self rfl
          rw [if_neg hfull, Returns.bind_iff, MaintenancePanic.returns_assert,
            and_iff_right (by simpa using hfresh), ih (by simp; omega) (by simpa using hnodup),
            hn, ReachesNoEmptyFile.cons_succ hcandidate hzero,
            selectedFiles_cons_succ hcandidate]
          have hn' : th.maxFiles - (fileIds ++ [file.1]).length = n := by
            rw [List.length_append, List.length_singleton]
            omega
          rw [hn', List.append_assoc, List.singleton_append]

/-- The chosen files are different files of the snapshot, all of them persisted. -/
theorem selectedFiles_sublist (n : Nat) :
    (selectedFiles th fileSize unpersisted n files).Sublist (files.map (·.1)) :=
  ((List.take_sublist _ _).trans List.filter_sublist).map _

theorem notMem_unpersisted_of_mem_selectedFiles {fileId : FileId}
    (h : fileId ∈ selectedFiles th fileSize unpersisted n files) : fileId ∉ unpersisted := by
  obtain ⟨file, hfile, rfl⟩ := List.mem_map.mp h
  have hcandidate := (List.mem_filter.mp (List.mem_of_mem_take hfile)).2
  simp only [isCandidate, Bool.and_eq_true, Bool.not_eq_true', List.contains_eq_mem,
    decide_eq_false_iff_not] at hcandidate
  exact hcandidate.1

end Selection

/-! ## The indices of the chosen files -/

section Indices

variable {fileIds : List FileId}

theorem insertFileIndex_returns {indices acc : List FileIndex} (hacc : (acc.map (·.files)).Nodup)
    {Q : List FileIndex → Prop} :
    Returns (indices.foldlM (insertFileIndex fileIds) acc) Q ↔
      ((acc ++ indices.filter (coversChosen fileIds)).map (·.files)).Nodup ∧
        Q (acc ++ indices.filter (coversChosen fileIds)) := by
  induction indices generalizing acc with
  | nil =>
    rw [List.filter_nil, List.append_nil, and_iff_right hacc]
    exact Returns.ok_iff
  | cons index indices ih =>
    rw [List.foldlM_cons, Returns.bind_iff, insertFileIndex]
    cases hcovers : coversChosen fileIds index with
    | false =>
      rw [if_neg Bool.false_ne_true, Returns.ok_iff, ih hacc,
        List.filter_cons_of_neg (by rw [hcovers]; exact Bool.false_ne_true)]
    | true =>
      rw [List.filter_cons_of_pos hcovers, if_pos rfl, Returns.bind_iff,
        MaintenancePanic.returns_assert]
      by_cases hmem : index.files ∈ acc.map (·.files)
      · refine ⟨fun h => absurd h.1 (by simpa using hmem), fun h => ?_⟩
        rw [List.map_append, List.map_cons] at h
        exact absurd rfl ((List.nodup_append.mp h.1).2.2 _ hmem _ List.mem_cons_self)
      · have hacc' : ((acc ++ [index]).map (·.files)).Nodup := by
          rw [List.map_append, List.map_singleton, ← List.concat_eq_append]
          exact hacc.concat hmem
        rw [and_iff_right (by simpa using hmem)]
        refine Returns.ok_iff.trans ?_
        rw [ih hacc', List.append_assoc, List.singleton_append]

theorem removeDataFile_returns {removed : List FileId} (hnodup : fileIds.Nodup)
    {Q : List FileId → Prop} :
    Returns (removed.foldlM removeDataFile fileIds) Q ↔
      (removed.Nodup ∧ ∀ fileId ∈ removed, fileId ∈ fileIds) ∧
        Q (fileIds.filter fun fileId => !removed.contains fileId) := by
  induction removed generalizing fileIds with
  | nil =>
    refine Returns.ok_iff.trans ?_
    simp
  | cons fileId removed ih =>
    rw [List.foldlM_cons, Returns.bind_iff, removeDataFile, Returns.bind_iff,
      MaintenancePanic.returns_assert]
    by_cases hmem : fileId ∈ fileIds
    · have hfilter : (fileIds.erase fileId).filter (fun f => !removed.contains f) =
          fileIds.filter fun f => !(fileId :: removed).contains f := by
        rw [hnodup.erase_eq_filter, List.filter_filter]
        refine List.filter_congr fun f _ => ?_
        rw [List.contains_cons, Bool.not_or, Bool.and_comm]
        rfl
      rw [and_iff_right (by simpa using hmem)]
      refine Returns.ok_iff.trans ?_
      rw [ih (hnodup.erase _), hfilter, List.nodup_cons]
      refine and_congr_left fun _ => ?_
      simp only [hnodup.mem_erase_iff, List.forall_mem_cons]
      constructor
      · rintro ⟨hremoved, hall⟩
        exact ⟨⟨fun h => (hall _ h).1 rfl, hremoved⟩, hmem, fun f hf => (hall f hf).2⟩
      · rintro ⟨⟨hfresh, hremoved⟩, -, hall⟩
        exact ⟨hremoved, fun f hf => ⟨fun heq => hfresh (heq ▸ hf), hall f hf⟩⟩
    · refine ⟨fun h => absurd h.1 (by simpa using hmem), fun h => ?_⟩
      exact absurd (h.1.2 _ List.mem_cons_self) hmem

end Indices

/-! ## Closed payloads -/

section Chosen

variable (s : SnapshotTableState Row Ident) (fileSize : FileId → Nat) (th : CompactionThresholds)

/-- The files of a snapshot that are chosen. -/
def chosenFiles : List FileId :=
  selectedFiles th fileSize s.unpersistedRecords.getUnpersistedDataFilesSet th.maxFiles
    s.diskFiles.entries

theorem chosenFiles_nodup : (chosenFiles s fileSize th).Nodup :=
  List.Nodup.sublist (selectedFiles_sublist _) s.diskFiles.nodupKeys

theorem mem_diskFiles_of_mem_chosenFiles :
    ∀ fileId ∈ chosenFiles s fileSize th, fileId ∈ s.diskFiles :=
  fun _ hfile => (selectedFiles_sublist _).subset hfile

theorem chosenFiles_persisted : ∀ fileId ∈ chosenFiles s fileSize th,
    fileId ∉ s.unpersistedRecords.getUnpersistedDataFilesSet :=
  fun _ hfile => notMem_unpersisted_of_mem_selectedFiles hfile

theorem chosenFiles_returns (Q : List FileId → Prop) :
    (Returns (selectDataFiles th fileSize s.unpersistedRecords.getUnpersistedDataFilesSet
      s.diskFiles.entries ([], 0)) fun acc => Q acc.1) ↔
      ReachesNoEmptyFile th fileSize s.unpersistedRecords.getUnpersistedDataFilesSet th.maxFiles
        s.diskFiles.entries ∧ Q (chosenFiles s fileSize th) := by
  have hkeys : (([] : List FileId) ++ s.diskFiles.entries.map (·.1)).Nodup :=
    s.diskFiles.nodupKeys
  rw [selectDataFiles_returns (Nat.zero_le _) hkeys]
  rfl

end Chosen

/-- The files of the indices are those of the payload, and all are persisted. -/
structure Closed (s : SnapshotTableState Row Ident) (payload : DataCompactionPayload Row FileIndex) :
    Prop where
  files : ∀ fileId, fileId ∈ payload.fileIndices.flatMap (·.files) ↔
    fileId ∈ payload.diskFiles.map (·.fileId)
  persisted : ∀ fileId ∈ payload.diskFiles.map (·.fileId),
    fileId ∉ s.unpersistedRecords.getUnpersistedDataFilesSet

def unpersistedIndexFiles (s : SnapshotTableState Row Ident) : List (List FileId) :=
  s.unpersistedRecords.getUnpersistedFileIndicesSet.map (·.files)

/-- The files of the unpersisted indices that cover a chosen file. -/
def rejectedFiles (s : SnapshotTableState Row Ident) (fileIds : List FileId) : List FileId :=
  ((s.indices.fileIndices.filter (coversChosen fileIds)).filter fun index =>
    (unpersistedIndexFiles s).contains index.files).flatMap (·.files)

def remainingFiles (s : SnapshotTableState Row Ident) (fileIds : List FileId) : List FileId :=
  fileIds.filter fun fileId => !(rejectedFiles s fileIds).contains fileId

/-- The indices that cover a chosen file cover only chosen files. -/
structure IndicesClose (s : SnapshotTableState Row Ident) (th : CompactionThresholds)
    (fileIds : List FileId) : Prop where
  distinct : ((s.indices.fileIndices.filter (coversChosen fileIds)).map (·.files)).Nodup
  counted : expectedUnpersistedIndices s.unpersistedRecords = (unpersistedIndexFiles s).dedup.length
  rejected : (rejectedFiles s fileIds).Nodup ∧ ∀ fileId ∈ rejectedFiles s fileIds, fileId ∈ fileIds
  remaining : th.minFiles ≤ (remainingFiles s fileIds).length →
    (∀ index ∈ s.indices.fileIndices, coversChosen fileIds index = true →
      index.files ∉ unpersistedIndexFiles s →
      ∀ fileId ∈ index.files, fileId ∈ fileIds ∧ fileId ∉ rejectedFiles s fileIds) ∧
    ∀ fileId ∈ fileIds, ∃ index ∈ s.indices.fileIndices, fileId ∈ index.files

/-- No file is buffered twice, no empty file is reached, and if enough files are chosen, their
indices cover no others. -/
structure Closes (s : SnapshotTableState Row Ident) (fileSize : FileId → Nat)
    (th : CompactionThresholds) : Prop where
  files : s.unpersistedRecords.getUnpersistedDataFilesSet.Nodup
  rows : ReachesNoEmptyFile th fileSize s.unpersistedRecords.getUnpersistedDataFilesSet th.maxFiles
    s.diskFiles.entries
  indices : th.minFiles ≤ (chosenFiles s fileSize th).length →
    IndicesClose s th (chosenFiles s fileSize th)

theorem length_eq_length_dedup_iff {α : Type} [DecidableEq α] {as : List α} :
    as.length = as.dedup.length ↔ as.Nodup := by
  constructor
  · intro h
    rw [← (List.dedup_sublist as).eq_of_length h.symm]
    exact List.nodup_dedup as
  · intro h
    rw [h.dedup]

theorem getUnpersistedDataFilesSet_returns {records : UnpersistedRecords Row}
    {Q : List FileId → Prop} :
    Returns (getUnpersistedDataFilesSet records) Q ↔
      records.getUnpersistedDataFilesSet.Nodup ∧ Q records.getUnpersistedDataFilesSet := by
  rw [getUnpersistedDataFilesSet]
  simp only [Returns.bind_iff, MaintenancePanic.returns_assert, decide_eq_true_iff,
    length_eq_length_dedup_iff]
  refine and_congr_right fun hnodup => ?_
  rw [List.Nodup.dedup hnodup]
  exact Returns.ok_iff

theorem contains_dedup (indices : List (List FileId)) (files : List FileId) :
    indices.dedup.contains files = indices.contains files := by
  simp only [List.contains_eq_mem, List.mem_dedup]

theorem getUnpersistedFileIndicesSet_returns {s : SnapshotTableState Row Ident}
    {Q : List (List FileId) → Prop} :
    Returns (getUnpersistedFileIndicesSet s.unpersistedRecords) Q ↔
      expectedUnpersistedIndices s.unpersistedRecords = (unpersistedIndexFiles s).dedup.length ∧
        Q (unpersistedIndexFiles s).dedup := by
  rw [getUnpersistedFileIndicesSet]
  simp only [Returns.bind_iff, MaintenancePanic.returns_assert, decide_eq_true_iff]
  exact and_congr_right fun _ => Returns.ok_iff

theorem validateCompactionPayload_returns {debugAssertions : Bool}
    {payload : DataCompactionPayload Row FileIndex} {Q : Unit → Prop} :
    Returns (validateCompactionPayload debugAssertions payload) Q ↔
      (debugAssertions = true → ∀ fileId, fileId ∈ payload.fileIndices.flatMap (·.files) ↔
        fileId ∈ payload.diskFiles.map (·.fileId)) ∧ Q () := by
  rw [validateCompactionPayload, MaintenancePanic.returns_assert]
  refine and_congr_left fun _ => ?_
  cases debugAssertions with
  | false => simp
  | true =>
    rw [Bool.not_true, Bool.false_or, Bool.and_eq_true, List.all_eq_true, List.all_eq_true]
    simp only [List.contains_iff_mem, true_implies]
    constructor
    · exact fun h fileId => ⟨h.2 fileId, h.1 fileId⟩
    · exact fun h => ⟨fun fileId => (h fileId).mpr, fun fileId => (h fileId).mp⟩

section Payload

variable {env : TableEnv Row Ident} {s : SnapshotTableState Row Ident} {fileIds : List FileId}

theorem compactionPayload_fileIds {fileIndices : List FileIndex}
    (hfiles : ∀ fileId ∈ fileIds, fileId ∈ s.diskFiles) {fileId : FileId} :
    fileId ∈ (s.compactionPayload env fileIds fileIndices).diskFiles.map (·.fileId) ↔
      fileId ∈ fileIds := by
  show fileId ∈ List.map _ (List.map _ (s.diskFiles.entries.filter _)) ↔ _
  rw [List.map_map]
  constructor
  · intro h
    obtain ⟨file, hfile, rfl⟩ := List.mem_map.mp h
    exact List.contains_iff_mem.mp (List.mem_filter.mp hfile).2
  · intro h
    obtain ⟨file, hfile, rfl⟩ := List.mem_map.mp (hfiles fileId h)
    exact List.mem_map.mpr ⟨file, List.mem_filter.mpr ⟨hfile, List.contains_iff_mem.mpr h⟩, rfl⟩

/-- The files of the persisted indices are the remaining ones if and only if these indices
cover no other file and every chosen file has an index. -/
theorem remaining_iff :
    (∀ fileId, fileId ∈ ((s.indices.fileIndices.filter (coversChosen fileIds)).filter fun index =>
        !(unpersistedIndexFiles s).contains index.files).flatMap (·.files) ↔
      fileId ∈ remainingFiles s fileIds) ↔
    (∀ index ∈ s.indices.fileIndices, coversChosen fileIds index = true →
      index.files ∉ unpersistedIndexFiles s →
      ∀ fileId ∈ index.files, fileId ∈ fileIds ∧ fileId ∉ rejectedFiles s fileIds) ∧
    ∀ fileId ∈ fileIds, ∃ index ∈ s.indices.fileIndices, fileId ∈ index.files := by
  simp only [List.mem_flatMap, List.mem_filter, Bool.not_eq_true', List.contains_eq_mem,
    decide_eq_false_iff_not, remainingFiles]
  constructor
  · intro h
    refine ⟨fun index hindex hcovers hpersisted fileId hfile => ?_, fun fileId hfile => ?_⟩
    · exact (h fileId).mp ⟨index, ⟨⟨hindex, hcovers⟩, hpersisted⟩, hfile⟩
    · by_cases hrejected : fileId ∈ rejectedFiles s fileIds
      · obtain ⟨index, hindex, hmem⟩ := List.mem_flatMap.mp hrejected
        exact ⟨index, (List.mem_filter.mp (List.mem_filter.mp hindex).1).1, hmem⟩
      · obtain ⟨index, ⟨⟨hindex, -⟩, -⟩, hmem⟩ := (h fileId).mpr ⟨hfile, hrejected⟩
        exact ⟨index, hindex, hmem⟩
  · rintro ⟨hpersisted, hcovered⟩ fileId
    constructor
    · rintro ⟨index, ⟨⟨hindex, hcovers⟩, hnot⟩, hmem⟩
      exact hpersisted index hindex hcovers hnot fileId hmem
    · rintro ⟨hfile, hrejected⟩
      obtain ⟨index, hindex, hmem⟩ := hcovered fileId hfile
      have hcovers : coversChosen fileIds index = true :=
        List.any_eq_true.mpr ⟨fileId, hmem, List.contains_iff_mem.mpr hfile⟩
      refine ⟨index, ⟨⟨hindex, hcovers⟩, fun hnot => hrejected ?_⟩, hmem⟩
      refine List.mem_flatMap.mpr ⟨index, ?_, hmem⟩
      simp only [List.mem_filter, hindex, hcovers, and_self, true_and]
      exact List.contains_iff_mem.mpr hnot

theorem payloadOfRemaining_closed_iff (env : TableEnv Row Ident) (th : CompactionThresholds)
    (debugAssertions : Bool) (fileIndices : List FileIndex)
    (hfiles : ∀ fileId ∈ fileIds, fileId ∈ s.diskFiles)
    (hpersisted : ∀ fileId ∈ fileIds, fileId ∉ s.unpersistedRecords.getUnpersistedDataFilesSet) :
    (Returns (payloadOfRemaining env debugAssertions s th fileIds fileIndices) fun status =>
      ∀ uuid payload, status = .payload uuid payload → Closed s payload) ↔
      (th.minFiles ≤ fileIds.length →
        ∀ fileId, fileId ∈ fileIndices.flatMap (·.files) ↔ fileId ∈ fileIds) := by
  have hids : ∀ fileId, fileId ∈ (s.compactionPayload env fileIds fileIndices).diskFiles.map
      (·.fileId) ↔ fileId ∈ fileIds := fun _ => compactionPayload_fileIds hfiles
  unfold payloadOfRemaining
  split
  case isTrue hlt =>
    refine iff_of_true (.ok nofun) fun hle => absurd hlt (Nat.not_lt.mpr hle)
  case isFalse hlt =>
    rw [Returns.bind_iff, validateCompactionPayload_returns]
    simp only [hids]
    constructor
    · rintro ⟨-, status, hstatus, hclosed⟩ - fileId
      cases hstatus
      exact ((hclosed _ _ rfl).files fileId).trans (hids fileId)
    · intro h
      have hfiles' := h (Nat.le_of_not_lt hlt)
      refine ⟨fun _ => hfiles', .ok fun uuid payload hstatus => ?_⟩
      cases hstatus
      refine ⟨fun fileId => (hfiles' fileId).trans (hids fileId).symm, fun fileId hfile => ?_⟩
      exact hpersisted fileId ((hids fileId).mp hfile)

theorem payloadOfFiles_closed_iff (th : CompactionThresholds) (debugAssertions : Bool)
    (hnodup : fileIds.Nodup) (hfiles : ∀ fileId ∈ fileIds, fileId ∈ s.diskFiles)
    (hpersisted : ∀ fileId ∈ fileIds, fileId ∉ s.unpersistedRecords.getUnpersistedDataFilesSet) :
    (Returns (payloadOfFiles env debugAssertions s th fileIds) fun status =>
      ∀ uuid payload, status = .payload uuid payload → Closed s payload) ↔
      IndicesClose s th fileIds := by
  have hremain : ∀ fileId ∈ remainingFiles s fileIds, fileId ∈ fileIds :=
    fun fileId hfile => (List.mem_filter.mp hfile).1
  have hpayload := payloadOfRemaining_closed_iff env th debugAssertions
    ((s.indices.fileIndices.filter (coversChosen fileIds)).filter fun index =>
      !(unpersistedIndexFiles s).contains index.files)
    (fun fileId hfile => hfiles fileId (hremain fileId hfile))
    (fun fileId hfile => hpersisted fileId (hremain fileId hfile))
  rw [remaining_iff] at hpayload
  unfold payloadOfFiles
  rw [Returns.bind_iff, insertFileIndex_returns
    (show (([] : List FileIndex).map (·.files)).Nodup from List.nodup_nil), List.nil_append,
    Returns.bind_iff, getUnpersistedFileIndicesSet_returns]
  simp only [contains_dedup]
  rw [Returns.bind_iff, removeDataFile_returns hnodup]
  constructor
  · rintro ⟨hdistinct, hcounted, hrejected, h⟩
    exact ⟨hdistinct, hcounted, hrejected, hpayload.mp h⟩
  · rintro ⟨hdistinct, hcounted, hrejected, h⟩
    exact ⟨hdistinct, hcounted, hrejected, hpayload.mpr h⟩

/-- The last check on the number of chosen files. -/
theorem payloadOfSelected_closed_iff (th : CompactionThresholds) (debugAssertions : Bool)
    (reject : Nat) :
    (Returns (if fileIds.length < th.minFiles then
        return if th.minFiles ≤ fileIds.length + reject then .unknown else .nothing
      else payloadOfFiles env debugAssertions s th fileIds) fun status =>
        ∀ uuid payload, status = .payload uuid payload → Closed s payload) ↔
      (th.minFiles ≤ fileIds.length →
        Returns (payloadOfFiles env debugAssertions s th fileIds) fun status =>
          ∀ uuid payload, status = .payload uuid payload → Closed s payload) := by
  split
  case isTrue hlt =>
    refine iff_of_true (.ok fun _ _ h => ?_) fun hle => absurd hlt (Nat.not_lt.mpr hle)
    split at h <;> exact nomatch h
  case isFalse hlt =>
    exact ⟨fun h _ => h, fun h => h (Nat.le_of_not_lt hlt)⟩

end Payload

/-- A payload is made without a panic, and it is closed, if and only if the snapshot has too few
files or `Closes` holds. -/
theorem getPayloadToCompact_closed_iff (env : TableEnv Row Ident) (config : DataCompactionConfig)
    (fileSize : FileId → Nat) (debugAssertions : Bool) (s : SnapshotTableState Row Ident)
    (opt : MaintenanceOption) :
    (Returns (getPayloadToCompact env config fileSize debugAssertions s opt) fun status =>
      ∀ uuid payload, status = .payload uuid payload → Closed s payload) ↔
      ∀ th, compactionThresholds config opt = some th →
        th.minFiles ≤ s.diskFiles.entries.length → Closes s fileSize th := by
  unfold getPayloadToCompact
  cases compactionThresholds config opt with
  | none => exact iff_of_true (.ok nofun) nofun
  | some th =>
    simp only [Option.some.injEq, forall_eq']
    split
    case isTrue hlt =>
      refine iff_of_true (.ok nofun) fun hle => absurd hlt (Nat.not_lt.mpr hle)
    case isFalse hlt =>
      rw [Returns.bind_iff, getUnpersistedDataFilesSet_returns, Returns.bind_iff]
      simp only [payloadOfSelected_closed_iff]
      rw [chosenFiles_returns s fileSize th fun fileIds => th.minFiles ≤ fileIds.length →
          Returns (payloadOfFiles env debugAssertions s th fileIds) fun status =>
            ∀ uuid payload, status = .payload uuid payload → Closed s payload,
        payloadOfFiles_closed_iff th debugAssertions (chosenFiles_nodup s fileSize th)
          (mem_diskFiles_of_mem_chosenFiles s fileSize th) (chosenFiles_persisted s fileSize th)]
      constructor
      · rintro ⟨hfiles, hrows, hindices⟩ -
        exact ⟨hfiles, hrows, hindices⟩
      · intro h
        obtain ⟨hfiles, hrows, hindices⟩ := h (Nat.le_of_not_lt hlt)
        exact ⟨hfiles, hrows, hindices⟩

/-! ## The payloads of the table system -/

/-- The files of a payload, and those of its indices. -/
def DataCompactionMaintenanceStatus.files :
    DataCompactionMaintenanceStatus Row → Option (List FileId × List FileId)
  | .payload _ p => some (p.diskFiles.map (·.fileId), p.fileIndices.flatMap (·.files))
  | _ => none

/-- Every batch of rows is a data file of its own. -/
def smallFilesEnv : TableEnv Nat Nat :=
  { TableSystem.natEnv with
    config := ⟨{ TableSystem.natEnv.config.snapshot with batchSize := 1 }, 0⟩ }

/-- One flush writes three files with one index, which are then persisted. -/
def threeFilesPersisted : List (TableAction Nat) :=
  [.append 1, .append 2, .append 3, .commit 10, .flush 10, .flushResult 0,
   .createSnapshot ⟨false, false⟩, .persistSnapshot, .persistenceResult,
   .createSnapshot ⟨true, false⟩]

/-- At most two files are compacted, and the index covers the third one too. -/
theorem getPayloadToCompact_notClosed :
    Returns (TableSystem.load smallFilesEnv TableSystem.emptyTable) fun sys₀ =>
      Returns (sys₀.run smallFilesEnv threeFilesPersisted) fun sys =>
        ∀ debugAssertions, ¬ Returns (getPayloadToCompact smallFilesEnv ⟨2, 2, 100, 50⟩ (fun _ => 1)
          debugAssertions sys.snapshot (.bestEffort 0)) fun status =>
            ∀ uuid payload, status = .payload uuid payload → Closed sys.snapshot payload := by
  have hrun : Returns (TableSystem.load smallFilesEnv TableSystem.emptyTable) fun sys₀ =>
      Returns (sys₀.run smallFilesEnv threeFilesPersisted) fun sys =>
        (Returns (getPayloadToCompact smallFilesEnv ⟨2, 2, 100, 50⟩ (fun _ => 1) false sys.snapshot
          (.bestEffort 0)) fun status => status.files =
            some ([localFileIdBase + 2, localFileIdBase + 1],
              [localFileIdBase, localFileIdBase + 1, localFileIdBase + 2])) ∧
        ¬ Returns (getPayloadToCompact smallFilesEnv ⟨2, 2, 100, 50⟩ (fun _ => 1) true sys.snapshot
          (.bestEffort 0)) fun _ => True := by
    decide +kernel
  obtain ⟨sys₀, hload, sys, hrun, ⟨status, hstatus, hfiles⟩, hdebug⟩ := hrun
  refine ⟨sys₀, hload, sys, hrun, fun debugAssertions h => ?_⟩
  cases debugAssertions with
  | true => exact hdebug (h.mono fun _ _ => trivial)
  | false =>
    obtain ⟨_, hstatus', hclosed⟩ := h
    rw [hstatus] at hstatus'
    cases hstatus'
    cases status with
    | unknown => exact nomatch hfiles
    | nothing => exact nomatch hfiles
    | payload uuid payload =>
      have hmem := (hclosed uuid payload rfl).files localFileIdBase
      rw [DataCompactionMaintenanceStatus.files, Option.some.injEq, Prod.mk.injEq] at hfiles
      rw [hfiles.1, hfiles.2] at hmem
      exact absurd (hmem.mp List.mem_cons_self) (by decide)

end Moonlink.Storage.Maintenance
