-- SUMMARY: The plan of a table scan: which rows of each row group are selected, and that these are the rows that are not deleted.
import Moonlink.Iceberg.DeletionVectorBlobSpec

/-!
# Scan plans

A reader walks over the data files of the table metadata. The deletion vectors and the position
deletes are sorted by data file, and what is left of them goes along. The rows of a file that
are deleted are cut into runs at the borders of its row groups.

The files on disk and the library for the bitmaps of deleted rows are parameters.
-/

namespace Moonlink.UnionRead

open Lib
open Iceberg (RoaringLibrary)

structure RowSelector where
  rowCount : Nat
  skip : Bool

/-- `RowSelection::from`: without empty runs, and runs of the same kind are one. -/
def rowSelection : List RowSelector → List RowSelector
  | [] => []
  | selector :: rest =>
    if selector.rowCount = 0 then rowSelection rest
    else
      match rowSelection rest with
      | next :: rest =>
        if next.skip = selector.skip then ⟨selector.rowCount + next.rowCount, selector.skip⟩ :: rest
        else selector :: next :: rest
      | [] => [selector]

/-- Whether each row is selected. -/
def selectedRows (selection : List RowSelector) : List Bool :=
  selection.flatMap fun selector => List.replicate selector.rowCount (!selector.skip)

inductive ScanFailure where
  /-- A file cannot be opened. -/
  | notOpened
  /-- `read_exact`. -/
  | unexpectedEof
  /-- `deserialize_from`. -/
  | deserialize
  /-- `puffin_files[puffin_file_number]`. -/
  | indexOutOfBounds
  /-- `size - 12`. -/
  | subtractOverflow
  deriving DecidableEq, Repr

/-- What a scan reads. -/
structure ScanFiles where
  /-- The content of a puffin file. -/
  openPuffin : String → Option (List UInt8)
  /-- The numbers of rows in the row groups of a data file. -/
  openDataFile : String → Option (List Nat)

def orFail {α : Type} (e : ScanFailure) : Option α → Except ScanFailure α
  | some a => .ok a
  | none => .error e

namespace ScanFiles

variable {Bitmap Failure : Type} (lib : RoaringLibrary Bitmap Failure) (files : ScanFiles)

/-- The rows of a deletion vector, which are behind a length and a magic number and before a checksum. -/
def readVector (puffinFiles : List String) (vector : DeletionVector) : Except ScanFailure (List Nat) := do
  let puffinFile ← orFail .indexOutOfBounds puffinFiles[vector.puffinFileNumber.toNat]?
  let content ← orFail .notOpened (files.openPuffin puffinFile)
  if vector.size < 12 then throw .subtractOverflow
  let len := vector.size.toNat - 12
  let buffer := (content.drop (vector.offset.toNat + 8)).take len
  if buffer.length < len then throw .unexpectedEof
  match lib.deserializeFrom buffer with
  | .ok deletedRows => return lib.iter deletedRows
  | .error _ => throw .deserialize

/-- The deletion vector of a file, if it is the next one, and the deletion vectors that are left. -/
def takeVector (puffinFiles : List String) (dataFileNumber : Nat) :
    List DeletionVector → Except ScanFailure (List Nat × List DeletionVector)
  | [] => .ok ([], [])
  | vector :: rest =>
    if dataFileNumber = vector.dataFileNumber.toNat then do
      let deletedRows ← files.readVector lib puffinFiles vector
      return (deletedRows, rest)
    else .ok ([], vector :: rest)

/-- The deleted rows with those of position deletes, and the position deletes that are left. -/
def takePositions (dataFileNumber : Nat) (deletedRows : List Nat) : List PositionDelete → List Nat × List PositionDelete
  | [] => (deletedRows, [])
  | position :: rest =>
    if dataFileNumber < position.dataFileNumber.toNat then (deletedRows, position :: rest)
    else takePositions dataFileNumber (position.dataFileRowNumber.toNat :: deletedRows) rest

end ScanFiles

/-- The inner loop: the end of the run that `row` is in. -/
def runEnd (deleted : Nat → Bool) (isDeleted : Bool) (row stop : Nat) : Nat :=
  if row < stop ∧ deleted row = isDeleted then runEnd deleted isDeleted (row + 1) stop else row
termination_by stop - row

theorem runEnd_bounds (deleted : Nat → Bool) (isDeleted : Bool) (row stop : Nat) (hle : row ≤ stop) :
    row ≤ runEnd deleted isDeleted row stop ∧ runEnd deleted isDeleted row stop ≤ stop := by
  induction h : stop - row generalizing row with
  | zero =>
    rw [runEnd, if_neg (by omega)]
    omega
  | succ n ih =>
    rw [runEnd]
    split
    · have hnext := ih (row + 1) (by omega) (by omega)
      omega
    · omega

theorem lt_runEnd (deleted : Nat → Bool) {row stop : Nat} (hlt : row < stop) :
    row < runEnd deleted (deleted row) row stop := by
  rw [runEnd, if_pos ⟨hlt, rfl⟩]
  exact (runEnd_bounds deleted (deleted row) (row + 1) stop hlt).1

/-- The selectors of the rows from `row` up to the end of their row group. -/
def selectors (deleted : Nat → Bool) (row stop : Nat) : List RowSelector :=
  if row < stop then
    let next := runEnd deleted (deleted row) row stop
    ⟨next - row, deleted row⟩ :: selectors deleted next stop
  else []
termination_by stop - row
decreasing_by
  have hlt := lt_runEnd deleted ‹row < stop›
  omega

/-- The selections of the row groups, the first of which starts at `row`. -/
def accessPlan (deleted : Nat → Bool) (row : Nat) : List Nat → List (List RowSelector)
  | [] => []
  | numRows :: rowGroups =>
    rowSelection (selectors deleted row (row + numRows)) :: accessPlan deleted (row + numRows) rowGroups

structure PartitionedFile where
  file : String
  /-- The access plan: the selection of each row group. -/
  selections : List (List RowSelector)

namespace ScanFiles

variable {Bitmap Failure : Type} (lib : RoaringLibrary Bitmap Failure) (files : ScanFiles)

/-- The data files from a number on, with what is left of the deletions. -/
def scanFrom (puffinFiles : List String) (dataFileNumber : Nat) :
    List String → List DeletionVector → List PositionDelete → Except ScanFailure (List PartitionedFile)
  | [], _, _ => .ok []
  | dataFile :: rest, vectors, positions => do
    let (deletedRows, vectors) ← files.takeVector lib puffinFiles dataFileNumber vectors
    let (deletedRows, positions) := takePositions dataFileNumber deletedRows positions
    let rowGroups ← orFail .notOpened (files.openDataFile dataFile)
    let plan := accessPlan (deletedRows.contains ·) 0 rowGroups
    let planned ← scanFrom puffinFiles (dataFileNumber + 1) rest vectors positions
    return ⟨dataFile, plan⟩ :: planned

def scan (metadata : MooncakeTableMetadata) : Except ScanFailure (List PartitionedFile) :=
  files.scanFrom lib metadata.puffinFiles 0 metadata.dataFiles metadata.deletionVectors metadata.positionDeletes

end ScanFiles

/-! ## Runs -/

section
variable {deleted : Nat → Bool} {isDeleted : Bool} {row stop : Nat}

@[simp] theorem selectedRows_cons (selector : RowSelector) (rest : List RowSelector) :
    selectedRows (selector :: rest) = List.replicate selector.rowCount (!selector.skip) ++ selectedRows rest := rfl

/-- Joining runs selects the same rows. -/
theorem selectedRows_rowSelection (selection : List RowSelector) :
    selectedRows (rowSelection selection) = selectedRows selection := by
  induction selection with
  | nil => rfl
  | cons selector rest ih =>
    rw [rowSelection, selectedRows_cons, ← ih]
    split
    · next hempty => simp [hempty]
    · cases rowSelection rest with
      | nil => simp
      | cons next joined =>
        dsimp only
        split
        · next hkind =>
            rw [selectedRows_cons, selectedRows_cons, hkind, List.replicate_add, List.append_assoc]
        · rfl

/-- The rows of a run are of one kind. -/
theorem deleted_of_lt_runEnd (stop : Nat) {i : Nat} (hle : row ≤ i) (hlt : i < runEnd deleted isDeleted row stop) :
    deleted i = isDeleted := by
  induction h : stop - row generalizing row with
  | zero =>
    rw [runEnd, if_neg (by omega)] at hlt
    omega
  | succ n ih =>
    rw [runEnd] at hlt
    split at hlt
    · next hrow =>
        rcases Nat.eq_or_lt_of_le hle with rfl | hnext
        · exact hrow.2
        · exact ih hnext hlt (by omega)
    · omega

/-- The selectors have each row up to the end of the row group, and select those that are not deleted. -/
theorem selectedRows_selectors (deleted : Nat → Bool) (hle : row ≤ stop) :
    selectedRows (selectors deleted row stop) = (List.range' row (stop - row)).map fun i => !deleted i := by
  induction h : stop - row using Nat.strong_induction_on generalizing row with
  | _ n ih =>
    rw [selectors]
    split
    · next hlt =>
        have hrun := lt_runEnd deleted hlt
        have hend := (runEnd_bounds deleted (deleted row) row stop hle).2
        rw [selectedRows_cons, ih _ (by omega) hend rfl]
        -- The run and what follows it are consecutive.
        have hkind : ((List.range' row (runEnd deleted (deleted row) row stop - row)).map fun i => !deleted i) =
            List.replicate (runEnd deleted (deleted row) row stop - row) (!deleted row) := by
          refine List.eq_replicate_iff.mpr ⟨by simp, ?_⟩
          intro b hb
          obtain ⟨i, hi, rfl⟩ := List.mem_map.mp hb
          rw [List.mem_range'_1] at hi
          have hrow : deleted i = deleted row := deleted_of_lt_runEnd stop hi.1 (by omega)
          rw [hrow]
        have hsplit : n = (runEnd deleted (deleted row) row stop - row) + (stop - runEnd deleted (deleted row) row stop) := by
          omega
        rw [hsplit, ← List.range'_append_1, List.map_append, hkind, Nat.add_sub_cancel' hrun.le]
    · next hlt =>
        have hn : n = 0 := by omega
        rw [hn]
        rfl

end

/-- Each row group is covered, and the rows are selected that are not deleted. The first row group starts at
`row`. -/
def SelectsUndeleted (deleted : Nat → Prop) (row : Nat) : List Nat → List (List RowSelector) → Prop
  | [], selections => selections = []
  | numRows :: rowGroups, selections => ∃ selection rest, selections = selection :: rest ∧
      (selectedRows selection).length = numRows ∧
      (∀ i < numRows, (selectedRows selection)[i]? = some true ↔ ¬ deleted (row + i)) ∧
      SelectsUndeleted deleted (row + numRows) rowGroups rest

theorem accessPlan_selects {deletedRows : List Nat} {deleted : Nat → Prop} (hdeleted : ∀ r, r ∈ deletedRows ↔ deleted r)
    (row : Nat) (rowGroups : List Nat) :
    SelectsUndeleted deleted row rowGroups (accessPlan (deletedRows.contains ·) row rowGroups) := by
  induction rowGroups generalizing row with
  | nil => rfl
  | cons numRows rowGroups ih =>
    have hrows := selectedRows_selectors (deletedRows.contains ·) (Nat.le_add_right row numRows)
    rw [Nat.add_sub_cancel_left] at hrows
    refine ⟨_, _, rfl, ?_, fun i hi => ?_, ih (row + numRows)⟩
    · rw [selectedRows_rowSelection, hrows]
      simp
    · rw [selectedRows_rowSelection, hrows, List.getElem?_map, List.getElem?_range' (by omega), ← hdeleted]
      simp

/-! ## What is left of the deletions -/

/-- The records of the data files from `n` on, in their order. -/
structure Remaining {α : Type} (number : α → Nat) (records : List α) (n : Nat) (rest : List α) : Prop where
  sorted : rest.Pairwise fun a b => number a ≤ number b
  mem_iff : ∀ a, a ∈ rest ↔ a ∈ records ∧ n ≤ number a

def DeletionVector.number (vector : DeletionVector) : Nat := vector.dataFileNumber.toNat

def PositionDelete.number (position : PositionDelete) : Nat := position.dataFileNumber.toNat

namespace ScanFiles

variable {Bitmap Failure : Type} {lib : RoaringLibrary Bitmap Failure} {crc32 : List UInt8 → UInt32}
variable {files : ScanFiles} {puffinFiles : List String} {vectors restVectors : List DeletionVector}
  {positions restPositions : List PositionDelete} {n : Nat} {stored : DeletionVector → List Nat}

/-- The blob that was written for some deleted rows is in the puffin file of the vector, where the vector says. -/
def Stores (lib : RoaringLibrary Bitmap Failure) (crc32 : List UInt8 → UInt32) (files : ScanFiles)
    (puffinFiles : List String) (vector : DeletionVector) (rows : List Nat) : Prop :=
  ∃ puffinFile content dataFile maxRows blob,
    puffinFiles[vector.puffinFileNumber.toNat]? = some puffinFile ∧ files.openPuffin puffinFile = some content ∧
    Iceberg.DeletionVector.writeBlob lib crc32 dataFile rows maxRows = .ok blob ∧
    blob.data.length = vector.size.toNat ∧ (content.drop vector.offset.toNat).take vector.size.toNat = blob.data

/-- A row of a data file is deleted by the deletion vector of the file, with the rows that were stored for it, or
by a position delete. -/
def IsDeleted (stored : DeletionVector → List Nat) (vectors : List DeletionVector) (positions : List PositionDelete)
    (n row : Nat) : Prop :=
  (∃ vector ∈ vectors, vector.number = n ∧ row ∈ stored vector) ∨
  ∃ position ∈ positions, position.number = n ∧ position.dataFileRowNumber.toNat = row

/-- The reader skips the length and the magic bytes, and gets the rows that were stored. -/
theorem readVector_of_stores {vector : DeletionVector} {rows : List Nat} {bitmap : Bitmap}
    (hkeeps : lib.Keeps rows bitmap) (hstores : Stores lib crc32 files puffinFiles vector rows) :
    files.readVector lib puffinFiles vector = .ok rows := by
  obtain ⟨puffinFile, content, dataFile, maxRows, blob, hpuffin, hcontent, hwrite, hsize, hblob⟩ := hstores
  obtain ⟨blob', hwrite', hwritten⟩ := Iceberg.writeBlob_returns crc32 hkeeps dataFile maxRows
  obtain rfl : blob = blob' := Except.ok.inj (hwrite.symm.trans hwrite')
  obtain ⟨bitmap', hread, hiter⟩ := hkeeps.roundTrip
  have hdata := hwritten.data
  have hmagic : Iceberg.deletionVectorMagicBytes.length = 4 := rfl
  have hlength : vector.size.toNat = 12 + (lib.serializeInto bitmap).length := by
    rw [← hsize, hdata]
    simp only [List.length_append, Iceberg.toBeBytes_length, hmagic]
    omega
  have hlarge : ¬ vector.size < 12 := by
    rw [UInt32.lt_iff_toNat_lt]
    exact Nat.not_lt.mpr (hlength ▸ Nat.le_add_right 12 _)
  have hbuffer : (content.drop (vector.offset.toNat + 8)).take (vector.size.toNat - 12) = lib.serializeInto bitmap := by
    rw [← List.drop_drop, ← List.take_append_drop vector.size.toNat (content.drop vector.offset.toNat), hblob, hdata,
      hlength, Nat.add_sub_cancel_left, List.append_assoc, List.append_assoc,
      List.drop_left' (by rw [List.length_append, Iceberg.toBeBytes_length, hmagic]), List.take_left]
  have hfull : ¬ (lib.serializeInto bitmap).length < vector.size.toNat - 12 := by omega
  unfold readVector
  simp only [hpuffin, hcontent, orFail, ok_bind, if_neg hlarge, hbuffer, if_neg hfull, hread, hiter]
  rfl

theorem takePositions_spec {rest : List PositionDelete} (deletedRows : List Nat)
    (hsorted : rest.Pairwise fun a b => a.number ≤ b.number) (hge : ∀ p ∈ rest, n ≤ p.number) :
    (∀ row, row ∈ (takePositions n deletedRows rest).1 ↔
      row ∈ deletedRows ∨ ∃ p ∈ rest, p.number = n ∧ p.dataFileRowNumber.toNat = row) ∧
    (takePositions n deletedRows rest).2.Pairwise (fun a b => a.number ≤ b.number) ∧
    ∀ p, p ∈ (takePositions n deletedRows rest).2 ↔ p ∈ rest ∧ n + 1 ≤ p.number := by
  induction rest generalizing deletedRows with
  | nil => exact ⟨fun row => by simp [takePositions], .nil, fun p => by simp [takePositions]⟩
  | cons position rest ih =>
    obtain ⟨hhead, htail⟩ := List.pairwise_cons.mp hsorted
    obtain ⟨hposition, hrest⟩ := List.forall_mem_cons.mp hge
    rw [takePositions]
    split
    · next hlt =>
        -- All records that are left are of later files.
        have hlater : ∀ p ∈ position :: rest, n + 1 ≤ p.number :=
          List.forall_mem_cons.mpr ⟨hlt, fun p hp => Nat.le_trans hlt (hhead p hp)⟩
        refine ⟨fun row => ?_, hsorted, fun p => ?_⟩
        · refine ⟨.inl, fun h => h.elim id ?_⟩
          rintro ⟨p, hp, hn, -⟩
          have hp := hlater p hp
          omega
        · exact ⟨fun hp => ⟨hp, hlater p hp⟩, fun hp => hp.1⟩
    · next hle =>
        obtain ⟨hrows, hleft, hmem⟩ := ih (position.dataFileRowNumber.toNat :: deletedRows) htail hrest
        have hn : position.number = n := Nat.le_antisymm (Nat.le_of_not_lt hle) hposition
        refine ⟨fun row => ?_, hleft, fun p => ?_⟩
        · have hcomm : row = position.dataFileRowNumber.toNat ↔ position.dataFileRowNumber.toNat = row := eq_comm
          rw [hrows]
          simp only [List.mem_cons, exists_eq_or_imp, hn, true_and, hcomm]
          tauto
        · rw [hmem, List.mem_cons]
          refine ⟨fun hp => ⟨.inr hp.1, hp.2⟩, fun ⟨hp, hlt⟩ => ⟨hp.resolve_left ?_, hlt⟩⟩
          rintro rfl
          omega

/-- The position deletes of file `n` are taken, and those of later files are left. -/
theorem takePositions_remaining (deletedRows : List Nat) (h : Remaining (·.number) positions n restPositions) :
    (∀ row, row ∈ (takePositions n deletedRows restPositions).1 ↔
      row ∈ deletedRows ∨ ∃ p ∈ positions, p.number = n ∧ p.dataFileRowNumber.toNat = row) ∧
    Remaining (·.number) positions (n + 1) (takePositions n deletedRows restPositions).2 := by
  obtain ⟨hrows, hsorted, hrest⟩ := takePositions_spec deletedRows h.sorted fun p hp => ((h.mem_iff p).mp hp).2
  refine ⟨fun row => ?_, hsorted, fun p => ?_⟩
  · rw [hrows]
    refine or_congr_right ⟨?_, ?_⟩
    · exact fun ⟨p, hp, hn, hrow⟩ => ⟨p, ((h.mem_iff p).mp hp).1, hn, hrow⟩
    · exact fun ⟨p, hp, hn, hrow⟩ => ⟨p, (h.mem_iff p).mpr ⟨hp, hn.ge⟩, hn, hrow⟩
  · rw [hrest, h.mem_iff]
    exact ⟨fun hp => ⟨hp.1.1, hp.2⟩, fun hp => ⟨⟨hp.1, by omega⟩, hp.2⟩⟩

/-- The deletion vectors of different files. -/
def OneEach (vectors : List DeletionVector) : Prop := vectors.Pairwise fun a b => a.number ≠ b.number

/-- The deletion vector of file `n` is read, and those of later files are left. -/
theorem takeVector_remaining (h : Remaining (·.number) vectors n restVectors) (hone : OneEach restVectors)
    (hread : ∀ vector ∈ vectors, files.readVector lib puffinFiles vector = .ok (stored vector)) :
    Returns (files.takeVector lib puffinFiles n restVectors) fun res =>
      (∀ row, row ∈ res.1 ↔ ∃ vector ∈ vectors, vector.number = n ∧ row ∈ stored vector) ∧
      Remaining (·.number) vectors (n + 1) res.2 ∧ OneEach res.2 := by
  obtain ⟨hsorted, hmem⟩ := h
  cases restVectors with
  | nil =>
    refine .ok ⟨fun row => ?_, ⟨.nil, fun v => ?_⟩, .nil⟩
    · refine iff_of_false List.not_mem_nil ?_
      rintro ⟨vector, hvector, hn, -⟩
      exact List.not_mem_nil ((hmem vector).mpr ⟨hvector, hn.ge⟩)
    · refine iff_of_false List.not_mem_nil fun hv => ?_
      exact List.not_mem_nil ((hmem v).mpr ⟨hv.1, by omega⟩)
  | cons vector rest =>
    obtain ⟨hhead, htail⟩ := List.pairwise_cons.mp hsorted
    obtain ⟨hdistinct, honeRest⟩ := List.pairwise_cons.mp hone
    obtain ⟨hvector, hge⟩ := (hmem vector).mp List.mem_cons_self
    rw [takeVector]
    split
    · next hn =>
        have hlater : ∀ v ∈ rest, n + 1 ≤ v.number := fun v hv =>
          Nat.lt_of_le_of_ne (hn ▸ hhead v hv) (hn ▸ hdistinct v hv)
        -- It is the only vector of the file.
        have honly : ∀ v ∈ vectors, v.number = n → v = vector := by
          intro v hv hnumber
          rcases List.mem_cons.mp ((hmem v).mpr ⟨hv, hnumber.ge⟩) with heq | hrest
          · exact heq
          · have hlt := hlater v hrest
            omega
        rw [hread vector hvector, ok_bind]
        refine .pure ⟨fun row => ?_, ⟨htail, fun v => ?_⟩, honeRest⟩
        · constructor
          · exact fun hrow => ⟨vector, hvector, hn.symm, hrow⟩
          · rintro ⟨v, hv, hnumber, hrow⟩
            rwa [honly v hv hnumber] at hrow
        · constructor
          · exact fun hv => ⟨((hmem v).mp (List.mem_cons_of_mem _ hv)).1, hlater v hv⟩
          · rintro ⟨hv, hlt⟩
            rcases List.mem_cons.mp ((hmem v).mpr ⟨hv, by omega⟩) with rfl | hrest
            · have heq : n = v.number := hn
              omega
            · exact hrest
    · next hne =>
        have hlt : n + 1 ≤ vector.number := Nat.lt_of_le_of_ne hge hne
        have hlater : ∀ v ∈ vector :: rest, n + 1 ≤ v.number :=
          List.forall_mem_cons.mpr ⟨hlt, fun v hv => Nat.le_trans hlt (hhead v hv)⟩
        refine .ok ⟨fun row => ?_, ⟨hsorted, fun v => ?_⟩, hone⟩
        · refine iff_of_false List.not_mem_nil ?_
          rintro ⟨v, hv, hnumber, -⟩
          have hlt := hlater v ((hmem v).mpr ⟨hv, hnumber.ge⟩)
          omega
        · exact ⟨fun hv => ⟨((hmem v).mp hv).1, hlater v hv⟩, fun hv => (hmem v).mpr ⟨hv.1, by omega⟩⟩

/-- The plan of a data file selects its rows that are not deleted. -/
def PlansUndeleted (files : ScanFiles) (deleted : Nat → Nat → Prop) (n : Nat) (dataFiles : List String)
    (planned : List PartitionedFile) : Prop :=
  planned.length = dataFiles.length ∧ ∀ i file, dataFiles[i]? = some file → ∃ selections rowGroups,
    planned[i]? = some ⟨file, selections⟩ ∧ files.openDataFile file = some rowGroups ∧
    SelectsUndeleted (deleted (n + i)) 0 rowGroups selections

/-- The data files can be opened. -/
def Readable (files : ScanFiles) (dataFiles : List String) : Prop :=
  ∀ file ∈ dataFiles, ∃ rowGroups, files.openDataFile file = some rowGroups

theorem orFail_contract {α : Type} {e : ScanFailure} {a? : Option α} {pre : Prop} (h : pre → ∃ a, a? = some a) :
    Contract (orFail e a?) pre fun a => a? = some a := by
  cases a? with
  | none => exact .error fun hpre => by simpa using h hpre
  | some a => exact .ok rfl

theorem scanFrom_plansUndeleted {allFiles dataFiles : List String} (hsub : ∀ file ∈ dataFiles, file ∈ allFiles)
    (hread : ∀ vector ∈ vectors, files.readVector lib puffinFiles vector = .ok (stored vector))
    (hvectors : Remaining (·.number) vectors n restVectors) (hone : OneEach restVectors)
    (hpositions : Remaining (·.number) positions n restPositions) :
    Contract (files.scanFrom lib puffinFiles n dataFiles restVectors restPositions) (files.Readable allFiles)
      (files.PlansUndeleted (IsDeleted stored vectors positions) n dataFiles) := by
  induction dataFiles generalizing n restVectors restPositions with
  | nil => exact .ok ⟨rfl, fun i file h => by simp at h⟩
  | cons dataFile rest ih =>
    obtain ⟨hfile, hrest⟩ := List.forall_mem_cons.mp hsub
    obtain ⟨⟨deletedRows, vectorsLeft⟩, htaken, hdeleted, hvectorsLeft, honeLeft⟩ :=
      takeVector_remaining hvectors hone hread
    rw [scanFrom, htaken, ok_bind]
    obtain ⟨hrows, hpositionsLeft⟩ := takePositions_remaining deletedRows hpositions
    refine (orFail_contract fun hpre => hpre dataFile hfile).bind fun rowGroups hopened => ?_
    refine (ih hrest hvectorsLeft honeLeft hpositionsLeft).bind ?_
    rintro planned ⟨hlength, hplanned⟩
    refine .pure ⟨by rw [List.length_cons, List.length_cons, hlength], fun i file hi => ?_⟩
    cases i with
    | zero =>
      cases hi
      refine ⟨_, rowGroups, rfl, hopened, accessPlan_selects (fun row => ?_) 0 rowGroups⟩
      rw [hrows, hdeleted]
      exact Iff.rfl
    | succ i =>
      rw [List.getElem?_cons_succ] at hi ⊢
      rw [show n + (i + 1) = n + 1 + i by omega]
      exact hplanned i file hi

/-- The plan of a scan covers every row group of every data file and selects exactly the rows that are
neither in the stored deletion vector of the file nor among its position deletes. There is a plan if the data
files can be opened. -/
theorem scan_plansUndeleted (files : ScanFiles) (readStateFilepathRemap : String → String)
    (dataFiles puffinFiles : List String) (vectors : List DeletionVector) (positions : List PositionDelete)
    (hone : OneEach vectors)
    (hstored : ∀ vector ∈ vectors,
      Stores lib crc32 files (puffinFiles.map readStateFilepathRemap) vector (stored vector))
    (hkeeps : ∀ vector ∈ vectors, ∃ bitmap, lib.Keeps (stored vector) bitmap) :
    Contract (files.scan lib (readStateMetadata readStateFilepathRemap dataFiles puffinFiles vectors positions))
      (files.Readable (dataFiles.map readStateFilepathRemap))
      (files.PlansUndeleted (IsDeleted stored vectors positions) 0 (dataFiles.map readStateFilepathRemap)) := by
  have hread : ∀ vector ∈ vectors,
      files.readVector lib (puffinFiles.map readStateFilepathRemap) vector = .ok (stored vector) := by
    intro vector hvector
    obtain ⟨bitmap, hbitmap⟩ := hkeeps vector hvector
    exact readVector_of_stores hbitmap (hstored vector hvector)
  have hsorted := readStateMetadata_sorted readStateFilepathRemap dataFiles puffinFiles vectors positions
  have hvectors := List.mergeSort_perm vectors fun a b => (a.cmp b).isLE
  have hpositions := List.mergeSort_perm positions fun a b => (a.cmp b).isLE
  refine scanFrom_plansUndeleted (fun _ hfile => hfile) hread ⟨?_, fun v => ?_⟩ ?_ ⟨?_, fun p => ?_⟩
  · exact hsorted.deletionVectors.imp fun h => UInt32.le_iff_toNat_le.mp h
  · exact hvectors.mem_iff.trans (and_iff_left (Nat.zero_le _)).symm
  · exact (hvectors.pairwise_iff fun {a b} h => h.symm).mpr hone
  · exact hsorted.positionDeletes.imp fun h => UInt32.le_iff_toNat_le.mp h
  · exact hpositions.mem_iff.trans (and_iff_left (Nat.zero_le _)).symm

/-- A data file with an empty row group, and a puffin file with the blob of the deleted row 1 after its magic. -/
def smallFiles : ScanFiles where
  openPuffin _ :=
    (Iceberg.DeletionVector.writeBlob (Iceberg.roaringFor [1]) Iceberg.crc32Ieee "data" [1] 5).toOption.map fun blob =>
      [0x50, 0x46, 0x41, 0x31] ++ blob.data
  openDataFile _ := some [2, 0, 3]

theorem scan_plansUndeleted_smallFiles :
    Returns (smallFiles.scan (Iceberg.roaringFor [1]) (readStateMetadata id ["data"] ["puffin"] [⟨0, 0, 4, 42⟩] [⟨0, 3⟩]))
      (smallFiles.PlansUndeleted (IsDeleted (fun _ => [1]) [⟨0, 0, 4, 42⟩] [⟨0, 3⟩]) 0 ["data"]) := by
  have hstored : Stores (Iceberg.roaringFor [1]) Iceberg.crc32Ieee smallFiles ["puffin"] ⟨0, 0, 4, 42⟩ [1] :=
    ⟨"puffin", _, "data", 5, _, rfl, rfl, rfl, by decide +kernel, by decide +kernel⟩
  refine (scan_plansUndeleted smallFiles id ["data"] ["puffin"] _ _ (List.pairwise_singleton _ _)
    (List.forall_mem_singleton.mpr hstored) ?_).total fun _ _ => ⟨_, rfl⟩
  exact List.forall_mem_singleton.mpr ⟨[1], Iceberg.roaringFor_keeps (by decide)⟩

end ScanFiles

end Moonlink.UnionRead
