-- SUMMARY: The allocators of file ids that share one counter, and when the ids that they give are distinct.
import Moonlink.Lib.TransitionSystem
import Moonlink.Storage.FileIds

/-!
# Allocators of file ids

A flush, a compaction and a persisted snapshot take numbers from the counter of the table, and
each number stands for a block of ids above `localFileIdBase`. An index merge and a bulk
ingestion give the numbers themselves, as recovery does. The counter moves when the
operation starts; its files are written later, with ids that are fixed by then.
-/

namespace Moonlink.Storage

open Lib

/-- `get_next_file_id` of the compaction and `get_unique_table_id_for_deletion_vector_puffin`: the id
of a file by its index, within the numbers from `startId` to `endId`. -/
def getUniqueFileIdInRange (startId endId fileIdx : Nat) : Except StoragePanic FileId := do
  let offset := fileIdx / numFilesPerFlush
  let tableAutoIncrId := startId + offset
  let narrowId := tableAutoIncrId % 2 ^ 32
  StoragePanic.assert (startId ≤ narrowId && narrowId < endId) .fileIdsExhausted
  getUniqueFileIdForFlush tableAutoIncrId (fileIdx - numFilesPerFlush * offset)

theorem getNextFileId_eq_inRange {Row : Type} (b : CompactionBuilder Row) (params : CompactionFileParams) :
    b.getNextFileId params = getUniqueFileIdInRange params.startId params.endId b.compactedFileCount := rfl

/-- The ids of the data files that a flush writes, and of their index. -/
def flushIds (tableAutoIncrId files : Nat) (indexed : Bool) : Except StoragePanic (List FileId) :=
  (List.range (if indexed && files != 0 then files + 1 else files)).mapM
    (getUniqueFileIdForFlush tableAutoIncrId)

structure FileIdCounter where
  /-- A 32-bit number. -/
  nextFileId : Nat
  /-- The ids of all files of the table, in the order of the operations. -/
  given : List Nat

inductive FileIdOp where
  /-- A flush or a stream flush. -/
  | flush (files : Nat) (indexed : Bool)
  | performIndexMerge
  /-- The data files, and the number of new files: data files and the index. -/
  | performDataCompaction (diskFiles newFiles : Nat)
  | persistIcebergSnapshot (newDeletionVectors dataFileRecordsRemap puffins : Nat)
  | batchIngest (parquetFiles : Nat) (indexed : Bool)

namespace FileIdOp

/-- By how much the counter moves. -/
def reserved : FileIdOp → Nat
  | flush .. | performIndexMerge => 1
  | performDataCompaction diskFiles _ => diskFiles * 2
  | persistIcebergSnapshot newDeletionVectors dataFileRecordsRemap _ =>
    newDeletionVectors + dataFileRecordsRemap
  | batchIngest parquetFiles _ => parquetFiles

/-- The ids that an operation gives, with the numbers from `startId` to `endId`. -/
def ids (startId endId : Nat) : FileIdOp → Except StoragePanic (List FileId)
  | flush files indexed => flushIds startId files indexed
  | performIndexMerge => .ok [startId]
  | performDataCompaction _ newFiles => (List.range newFiles).mapM (getUniqueFileIdInRange startId endId)
  | persistIcebergSnapshot _ _ puffins => (List.range puffins).mapM (getUniqueFileIdInRange startId endId)
  | batchIngest parquetFiles indexed =>
    -- The index has the number that comes next, which is not taken.
    .ok (List.range' startId parquetFiles ++ if indexed then [endId] else [])

/-- How many numbers an operation gives as they are. -/
def rawIds : FileIdOp → Nat
  | performIndexMerge => 1
  | batchIngest parquetFiles indexed => if indexed then parquetFiles + 1 else parquetFiles
  | _ => 0

end FileIdOp

namespace FileIdCounter

/-- After recovery, which numbers the files that it finds. -/
def recovered (nextFileId : Nat) : FileIdCounter := ⟨nextFileId, List.range nextFileId⟩

def next (s : FileIdCounter) (op : FileIdOp) : Except StoragePanic FileIdCounter := do
  let endId := (s.nextFileId + op.reserved) % 2 ^ 32
  let ids ← op.ids s.nextFileId endId
  return ⟨endId, s.given ++ ids⟩

def run (s : FileIdCounter) (ops : List FileIdOp) : Except StoragePanic FileIdCounter := ops.foldlM next s

/-- The counter does not overflow. -/
def Fits (s : FileIdCounter) (op : FileIdOp) : Prop := s.nextFileId + op.reserved < 2 ^ 32

/-- An operation that gives numbers as they are finds the next one unused. -/
def Fresh (s : FileIdCounter) (op : FileIdOp) : Prop := op.rawIds ≠ 0 → s.nextFileId ∉ s.given

structure Inv (s : FileIdCounter) : Prop where
  lt : s.nextFileId < 2 ^ 32
  given : ∀ id ∈ s.given, id ≤ s.nextFileId ∨
    (localFileIdBase ≤ id ∧ id < localFileIdBase + s.nextFileId * numFilesPerFlush)

variable {s s' : FileIdCounter} {op : FileIdOp}

theorem recovered_inv {nextFileId : Nat} (h : nextFileId < 2 ^ 32) : (recovered nextFileId).Inv :=
  ⟨h, fun _ hid => .inl (Nat.le_of_lt (List.mem_range.mp hid))⟩

/-! ## Blocks of ids -/

/-- Ids of files that are numbered from zero, with a bound. -/
structure Block (startId endId : Nat) (ids : List Nat) : Prop where
  nodup : ids.Nodup
  bounds : ∀ id ∈ ids, localFileIdBase + startId * numFilesPerFlush ≤ id ∧
    id < localFileIdBase + endId * numFilesPerFlush

theorem eq_map_of_forall₂ {α β : Type} {g : α → β} {Q : β → Prop} {as : List α} {bs : List β}
    (h : List.Forall₂ (fun a b => b = g a ∧ Q b) as bs) : bs = as.map g ∧ ∀ b ∈ bs, Q b := by
  induction h with
  | nil => exact ⟨rfl, nofun⟩
  | cons hab _ ih =>
    obtain ⟨rfl, hb⟩ := hab
    obtain ⟨rfl, hall⟩ := ih
    exact ⟨rfl, List.forall_mem_cons.mpr ⟨hb, hall⟩⟩

theorem mapM_block {startId endId count : Nat} {f : Nat → Except StoragePanic FileId}
    (hf : ∀ k < count, Ensures (f k) fun id => id = localFileIdBase + startId * numFilesPerFlush + k ∧
      id < localFileIdBase + endId * numFilesPerFlush) :
    Ensures ((List.range count).mapM f) (Block startId endId) := by
  intro ids h
  obtain ⟨heq, hlt⟩ := eq_map_of_forall₂ (Ensures.mapM (fun k hk => hf k (List.mem_range.mp hk)) ids h)
  refine ⟨?_, fun id hid => ⟨?_, hlt id hid⟩⟩
  · rw [heq]
    exact List.nodup_range.map fun a b hab => Nat.add_left_cancel hab
  · rw [heq] at hid
    obtain ⟨k, -, rfl⟩ := List.mem_map.mp hid
    exact Nat.le_add_right _ _

theorem flushIds_block (startId files : Nat) (indexed : Bool) :
    Ensures (flushIds startId files indexed) (Block startId (startId + 1)) := by
  refine mapM_block fun k _ => (getUniqueFileIdForFlush_ensures startId k).mono fun id ⟨hlt, hid⟩ => ⟨hid, ?_⟩
  rw [hid, Nat.add_mul, Nat.one_mul, ← Nat.add_assoc]
  exact Nat.add_lt_add_left hlt _

theorem inRange_block {startId endId count : Nat} (hstart : startId ≤ endId) (hend : endId < 2 ^ 32) :
    Ensures ((List.range count).mapM (getUniqueFileIdInRange startId endId)) (Block startId endId) := by
  intro ids h
  -- The index after the last one of the range fails the assertion.
  have hcount : count ≤ numFilesPerFlush * (endId - startId) := by
    by_contra hgt
    obtain ⟨id, hid⟩ := exists_eq_ok_of_mapM h (List.mem_range.mpr (Nat.not_le.mp hgt))
    obtain ⟨_, hassert, -⟩ := bind_eq_ok.mp hid
    have hoffset : numFilesPerFlush * (endId - startId) / numFilesPerFlush = endId - startId :=
      Nat.mul_div_cancel_left _ (by decide)
    have hlt := StoragePanic.of_assert hassert
    rw [hoffset, Nat.add_sub_cancel' hstart, Nat.mod_eq_of_lt hend] at hlt
    simp at hlt
  refine mapM_block (fun k hk id hid => ?_) ids h
  obtain ⟨_, -, hid⟩ := bind_eq_ok.mp hid
  obtain ⟨-, heq⟩ := getUniqueFileIdForFlush_ensures _ _ id hid
  have hdiv := Nat.div_add_mod k numFilesPerFlush
  have hle : numFilesPerFlush * (k / numFilesPerFlush) ≤ k := Nat.mul_div_le _ _
  have hval : id = localFileIdBase + startId * numFilesPerFlush + k := by
    rw [heq, Nat.add_mul, Nat.mul_comm (k / numFilesPerFlush), Nat.add_assoc, Nat.add_assoc,
      Nat.add_sub_cancel' hle, ← Nat.add_assoc]
  refine ⟨hval, ?_⟩
  have hlt : k < numFilesPerFlush * (endId - startId) := Nat.lt_of_lt_of_le hk hcount
  rw [Nat.mul_comm, Nat.sub_mul] at hlt
  rw [hval, Nat.add_assoc]
  exact Nat.add_lt_add_left (by omega) _

/-! ## Runs -/

/-- What an operation gives: a block above all others, or the numbers from the counter on. -/
theorem ids_ensures (hfits : s.Fits op) :
    Ensures (op.ids s.nextFileId (s.nextFileId + op.reserved)) fun ids =>
      (op.rawIds = 0 ∧ Block s.nextFileId (s.nextFileId + op.reserved) ids) ∨
        (ids = List.range' s.nextFileId op.rawIds ∧ op.rawIds ≤ op.reserved + 1) := by
  cases op with
  | flush files indexed => exact (flushIds_block _ files indexed).mono fun _ h => .inl ⟨rfl, h⟩
  | performIndexMerge => exact .ok (.inr ⟨rfl, by decide⟩)
  | performDataCompaction diskFiles newFiles =>
    exact (inRange_block (Nat.le_add_right _ _) hfits).mono fun _ h => .inl ⟨rfl, h⟩
  | persistIcebergSnapshot newDeletionVectors dataFileRecordsRemap puffins =>
    exact (inRange_block (Nat.le_add_right _ _) hfits).mono fun _ h => .inl ⟨rfl, h⟩
  | batchIngest parquetFiles indexed =>
    refine .ok (.inr ?_)
    cases indexed with
    | false => exact ⟨by simp [FileIdOp.rawIds], Nat.le_succ _⟩
    | true => exact ⟨by simp [FileIdOp.rawIds, FileIdOp.reserved, List.range'_concat], Nat.le_refl _⟩

theorem next_ensures (h : s.Inv) (hfits : s.Fits op) : Ensures (s.next op) fun s' =>
    s'.Inv ∧ (s'.given.Nodup ↔ s.given.Nodup ∧ s.Fresh op) := by
  unfold next
  have hmod : (s.nextFileId + op.reserved) % 2 ^ 32 = s.nextFileId + op.reserved := Nat.mod_eq_of_lt hfits
  rw [hmod]
  refine .bind (ids_ensures hfits) fun (ids : List Nat) hids => .pure ?_
  have hbase : 2 ^ 32 < localFileIdBase := by decide
  have hlt := h.lt
  have hmono : s.nextFileId * numFilesPerFlush ≤ (s.nextFileId + op.reserved) * numFilesPerFlush :=
    Nat.mul_le_mul_right _ (Nat.le_add_right _ _)
  have hold : ∀ id ∈ s.given, id ≤ s.nextFileId + op.reserved ∨ (localFileIdBase ≤ id ∧
      id < localFileIdBase + (s.nextFileId + op.reserved) * numFilesPerFlush) := by
    intro id hid
    rcases h.given id hid with hle | ⟨hge, hlt⟩
    · exact .inl (Nat.le_trans hle (Nat.le_add_right _ _))
    · exact .inr ⟨hge, Nat.lt_of_lt_of_le hlt (Nat.add_le_add_left hmono _)⟩
  rcases hids with ⟨hraw, hnodup, hbounds⟩ | ⟨rfl, hraw⟩
  · refine ⟨⟨hfits, fun id hid => ?_⟩, ?_⟩
    · rcases List.mem_append.mp hid with hid | hid
      · exact hold id hid
      · exact .inr ⟨Nat.le_trans (Nat.le_add_right _ _) (hbounds id hid).1, (hbounds id hid).2⟩
    · have hdisjoint : ∀ id ∈ s.given, ∀ id' ∈ ids, id ≠ id' := by
        rintro id hid _ hid' rfl
        have hge := (hbounds id hid').1
        rcases h.given id hid with hle | ⟨-, hlt'⟩ <;> omega
      rw [List.nodup_append]
      exact ⟨fun h' => ⟨h'.1, fun hne => absurd hraw hne⟩, fun h' => ⟨h'.1, hnodup, hdisjoint⟩⟩
  · refine ⟨⟨hfits, fun id hid => ?_⟩, ?_⟩
    · rcases List.mem_append.mp hid with hid | hid
      · exact hold id hid
      · have hrange := List.mem_range'_1.mp hid
        refine .inl ?_
        change id ≤ s.nextFileId + op.reserved
        omega
    · have hdisjoint : (∀ id ∈ s.given, ∀ id' ∈ List.range' s.nextFileId op.rawIds, id ≠ id') ↔ s.Fresh op := by
        constructor
        · intro hall hne hmem
          exact hall _ hmem _ (List.mem_range'_1.mpr (by omega)) rfl
        · rintro hfresh id hid _ hid' rfl
          have hrange := List.mem_range'_1.mp hid'
          -- Only the next number itself may have been given before.
          have heq : id = s.nextFileId := by
            rcases h.given id hid with hle | ⟨hge, -⟩ <;> omega
          exact hfresh (by omega) (heq ▸ hid)
      rw [List.nodup_append, hdisjoint]
      simp [List.nodup_range']

/-- The ids are distinct exactly if no operation gave a number that the index of a bulk ingestion had. -/
theorem given_nodup_iff {nextFileId : Nat} (hstart : nextFileId < 2 ^ 32) {ops : List FileIdOp}
    (hfits : RunMeets (fun s op => (next s op).toOption) Fits (recovered nextFileId) ops)
    (hrun : (recovered nextFileId).run ops = .ok s) :
    s.given.Nodup ↔ RunMeets (fun s op => (next s op).toOption) Fresh (recovered nextFileId) ops := by
  have hiff := RunMeets.iff_of_step (I := Inv) (P := fun s => s.given.Nodup)
    (fun _ _ h hfits => next_ensures h hfits) hfits hrun (recovered_inv hstart)
  exact hiff.trans (and_iff_right (a := (recovered nextFileId).given.Nodup) List.nodup_range)

/-- A bulk ingestion with an index, a flush, and an index merge. -/
def ingestedOps : List FileIdOp :=
  [.batchIngest 2 true, .flush 3 true, .performIndexMerge, .persistIcebergSnapshot 1 0 1]

instance : Decidable (s.Fits op) := inferInstanceAs (Decidable (_ < _))

instance : Decidable (s.Fresh op) := inferInstanceAs (Decidable (_ → _))

theorem given_nodup_iff_ingestedOps :
    Returns ((recovered 4).run ingestedOps) fun s => s.given.length = 13 ∧ s.given.Nodup := by
  have hfits : RunMeets (fun s op => (next s op).toOption) Fits (recovered 4) ingestedOps := by
    decide +kernel
  have hfresh : RunMeets (fun s op => (next s op).toOption) Fresh (recovered 4) ingestedOps := by
    decide +kernel
  have hruns : Returns ((recovered 4).run ingestedOps) fun s => s.given.length = 13 := by
    decide +kernel
  obtain ⟨s, hrun, hlength⟩ := hruns
  exact ⟨s, hrun, hlength, (given_nodup_iff (by decide) hfits hrun).mpr hfresh⟩

/-- The index of a bulk ingestion has the id of the first file of the next one, or of the next merged
index. -/
theorem index_id_given_twice :
    Returns ((recovered 0).run [.batchIngest 1 true, .batchIngest 1 true]) (fun s => s.given = [0, 1, 1, 2]) ∧
    Returns ((recovered 0).run [.batchIngest 1 true, .performIndexMerge]) (fun s => ¬ s.given.Nodup) := by
  decide +kernel

end FileIdCounter
end Moonlink.Storage
