-- SUMMARY: A deletion vector is the finite set of the rows that have been deleted.
import Moonlink.Storage.DeleteVector

namespace Moonlink.BatchDeletionVector

open Lib

/-- A vector after some calls, and the rows that are deleted by then. -/
inductive Deleted (maxRows : Nat) : BatchDeletionVector → Finset Nat → Prop where
  | new : Deleted maxRows (new maxRows) ∅
  | deleteRow {v v' : BatchDeletionVector} {s : Finset Nat} {rowIdx : Nat} {deleted : Bool} (hv : Deleted maxRows v s)
      (h : v.deleteRow rowIdx = .ok (deleted, v')) : Deleted maxRows v' (insert rowIdx s)
  | mergeWith {v rhs v' : BatchDeletionVector} {s t : Finset Nat} (hv : Deleted maxRows v s)
      (hrhs : Deleted maxRows rhs t) (h : v.mergeWith rhs = .ok v') : Deleted maxRows v' (s ∪ t)

variable {maxRows : Nat} {v rhs : BatchDeletionVector} {s t : Finset Nat}

theorem Deleted.mem_iff (h : Deleted maxRows v s) :
    v.maxRows = maxRows ∧ ∀ i, i ∈ v.collectDeletedRows ↔ i ∈ s := by
  induction h with
  | new => exact ⟨rfl, fun i => by simp⟩
  | @deleteRow v v' s rowIdx deleted _ hdelete ih =>
    obtain ⟨hmax, hmem⟩ := ih
    obtain ⟨_, hrange, -⟩ := bind_eq_ok.mp hdelete
    have hlt : rowIdx < v.maxRows := by simpa using StoragePanic.of_assert hrange
    obtain ⟨-, hmax', hmem'⟩ := (deleteRow_returns hlt).ensures _ hdelete
    refine ⟨hmax'.trans hmax, fun i => ?_⟩
    rw [hmem', hmem, Finset.mem_insert, or_comm]
  | mergeWith _ _ hmerge ihv ihrhs =>
    obtain ⟨hmax, hmem⟩ := ihv
    obtain ⟨hmax', hmem'⟩ := mergeWith_ensures _ _ _ hmerge
    refine ⟨hmax'.trans hmax, fun i => ?_⟩
    rw [hmem', hmem, ihrhs.2, Finset.mem_union]

theorem Deleted.isDeleted_eq (h : Deleted maxRows v s) {i : Nat} (hi : i < maxRows) :
    v.isDeleted i = decide (i ∈ s) := by
  obtain ⟨rfl, hmem⟩ := h.mem_iff
  rw [Bool.eq_iff_iff, decide_eq_true_eq, ← hmem, collectDeletedRows_eq, List.mem_filter, List.mem_range,
    and_iff_right hi]

theorem Deleted.collectDeletedRows_eq (h : Deleted maxRows v s) :
    v.collectDeletedRows = (List.range maxRows).filter (· ∈ s) := by
  have hmax := h.mem_iff.1
  rw [BatchDeletionVector.collectDeletedRows_eq, hmax]
  exact List.filter_congr fun i hi => h.isDeleted_eq (List.mem_range.mp hi)

/-- A vector of `maxRows` rows that is reached by deletions and merges is the set of the rows that they delete: every
row below `maxRows` can be deleted, and a vector of as many rows merged. -/
theorem deletionVector_isSet : Deleted maxRows v s →
    (∀ i ∈ s, i < maxRows) ∧ (∀ i < maxRows, v.isDeleted i = decide (i ∈ s)) ∧
    (∀ i < maxRows, Returns (v.deleteRow i) fun r => r.1 = decide (i ∉ s)) ∧
    (∀ rhs t, Deleted maxRows rhs t → Returns (v.mergeWith rhs) fun _ => True) ∧
    v.getNumRowsDeleted = s.card ∧ (v.isEmpty = true ↔ s = ∅) ∧
    v.collectDeletedRows = (List.range maxRows).filter (· ∈ s) ∧
    (∀ n ≤ maxRows, v.collectActiveRows n = (List.range n).filter (· ∉ s)) ∧
    ∀ (Row : Type) (batch : List Row), batch.length ≤ maxRows →
      v.applyToBatchWithSlice batch 0 = .ok ((batch.zipIdx.filter fun row => row.2 ∉ s).map (·.1)) := by
  intro h
  obtain ⟨hmax, hmem⟩ := h.mem_iff
  have hrows : ∀ i ∈ s, i < maxRows := by
    intro i hi
    rw [← hmax]
    exact (mem_collectDeletedRows.mp ((hmem i).mpr hi)).1
  have hset : v.collectDeletedRows.toFinset = s := by
    ext i
    rw [List.mem_toFinset, hmem]
  have hnodup : v.collectDeletedRows.Nodup := by
    rw [h.collectDeletedRows_eq]
    exact List.nodup_range.filter _
  refine ⟨hrows, fun i hi => h.isDeleted_eq hi, fun i hi => ?_, fun rhs t hrhs => ?_, ?_, ?_,
    h.collectDeletedRows_eq, fun n hn => ?_, fun Row batch hbatch => ?_⟩
  · refine (deleteRow_returns (hmax ▸ hi)).mono fun r hr => ?_
    rw [hr.1, decide_eq_decide, hmem]
  · unfold mergeWith
    rw [StoragePanic.assert_pos (decide_eq_true (hmax.trans hrhs.mem_iff.1.symm)), ok_bind]
    split <;> exact .pure trivial
  · rw [getNumRowsDeleted_eq, ← hset, List.toFinset_card_of_nodup hnodup]
  · have hempty : v.isEmpty = v.collectDeletedRows.isEmpty := by
      unfold isEmpty collectDeletedRows
      cases v.deletionVector <;> rfl
    rw [hempty, List.isEmpty_iff, ← hset, List.toFinset_eq_empty_iff]
  · rw [collectActiveRows_eq]
    refine List.filter_congr fun i hi => ?_
    have hlt := List.mem_range.mp hi
    rw [h.isDeleted_eq (by omega), decide_not]
  · rw [applyToBatchWithSlice_eq (by omega)]
    have hactive : batch.zipIdx.filter (fun row => !v.isDeleted row.2) =
        batch.zipIdx.filter fun row => row.2 ∉ s := by
      refine List.filter_congr fun row hrow => ?_
      have hlt := List.snd_lt_of_mem_zipIdx hrow
      rw [h.isDeleted_eq (by omega), decide_not]
    rw [hactive]

theorem deletionVector_isSet_twoRows : ∃ v : BatchDeletionVector, Deleted 10 v {3, 7} ∧
    v.collectDeletedRows = [3, 7] := by
  have hrow : ∀ (v : BatchDeletionVector) s i, Deleted 10 v s → i < 10 → ∃ v', Deleted 10 v' (insert i s) := by
    intro v s i h hi
    obtain ⟨⟨deleted, v'⟩, hdelete, -⟩ := deleteRow_returns (h.mem_iff.1 ▸ hi)
    exact ⟨v', h.deleteRow hdelete⟩
  obtain ⟨v, hv⟩ := hrow _ _ 7 .new (by decide)
  obtain ⟨v', hv'⟩ := hrow v _ 3 hv (by decide)
  refine ⟨v', hv', (deletionVector_isSet hv').2.2.2.2.2.2.1.trans (by decide)⟩

end Moonlink.BatchDeletionVector
