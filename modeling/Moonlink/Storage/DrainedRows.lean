-- SUMMARY: The rows that a drained mem slice hands to a disk slice: each of them that was not deleted has a place in the files that are written.
import Moonlink.Storage.MemIndexed
import Moonlink.Storage.DeletionLog

namespace Moonlink.Storage

open Lib

variable {Row Ident : Type}

/-- The batches that are drained from a mem slice, and the index of their rows. -/
structure DrainedRows (Row Ident : Type) where
  batches : List (BatchEntry Row)
  index : MemIndex Ident

namespace DrainedRows

def batchIds (drained : DrainedRows Row Ident) : List Nat := drained.batches.map (·.id)

/-- The row was not deleted when the batches were drained. -/
def Writes (drained : DrainedRows Row Ident) (loc : Nat × Nat) : Prop :=
  ∃ entry ∈ drained.batches, entry.id = loc.1 ∧
    (∃ rows, entry.batch.data = some rows ∧ loc.2 < rows.length) ∧
    entry.batch.deletions.isDeleted loc.2 = false

end DrainedRows

/-- What is found in an index is one of its entries. -/
theorem MemIndex.exists_of_mem_findRecord [BEq Ident] {index : MemIndex Ident}
    {record : RawDeletionRecord Ident} {loc : Nat × Nat} (h : loc ∈ index.findRecord record) :
    ∃ e ∈ index.entries, e.location = loc ∧ index.isFor record e = true := by
  unfold findRecord at h
  split at h
  · obtain ⟨e, he, rfl⟩ := List.mem_map.mp h
    exact ⟨e, List.mem_of_mem_filter he, rfl, List.of_mem_filter he⟩
  · rw [Option.mem_toList, Option.map_eq_some_iff] at h
    obtain ⟨e, he, rfl⟩ := h
    exact ⟨e, List.mem_of_find?_eq_some he, rfl, List.find?_some he⟩

end Moonlink.Storage
