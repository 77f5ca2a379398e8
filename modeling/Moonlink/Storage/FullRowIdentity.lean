-- SUMMARY: Searches for full rows of a schema, with the comparisons of rows in the open batch and in the closed ones.
import Moonlink.Row.IdentitySpec
import Moonlink.Storage.MemSliceSearch

namespace Moonlink.Row

/-- `PartialEq`. -/
instance : BEq RowValue := ⟨RowValue.eq⟩

end Moonlink.Row

namespace Moonlink.Storage

open Lib Row

variable {fs : List Field} {hash : List RowValue → Nat} {parquet : List RowValue → List RowValue → Option Bool}

/-- The full row as identity. A row of a closed batch is compared by the cells that are built of it; what the
comparison with a row of a file answers also depends on the content of the file under nulls. -/
def fullRowIdentity (fs : List Field) (hash : List RowValue → Nat)
    (parquet : List RowValue → List RowValue → Option Bool) : IdentityProp (List RowValue) (List RowValue) where
  kind := .fullRow
  columns := id
  lookupKey := hash
  lookupKey_eq _ _ h := congrArg hash h
  columns_eq h := by cases h
  equalsMoonlinkRow := RowValue.allEq
  equalsRecordBatchAtOffset values r :=
    (answer (Cell.anyAborts (Cell.storedRow fs r) values) (Cell.allShow (Cell.storedRow fs r) values)).toOption
  equalsParquetAtOffset := parquet

/-- Wherever the row is stored in a batch, that is what `equals_record_batch_at_offset` gives. -/
theorem fullRowIdentity_equalsRecordBatchAtOffset (hfs : Field.AllSupported fs) {batch : RecordBatch} {offset : Nat}
    {r : List RowValue} (hbatch : batch.Stores fs offset r) (values : List RowValue) :
    (equalsRecordBatchAtOffset values batch offset .fullRow).toOption =
      (fullRowIdentity fs hash parquet).equalsRecordBatchAtOffset values r := by
  obtain ⟨⟨rows, arrays, hrows, hbuild, rfl, hread⟩, hoffset⟩ := hbatch
  have hmatch : equalsRecordBatchAtOffset values _ offset .fullRow =
      fieldsMatch values (ArrayRef.allBuilt fs arrays) offset := if_pos hoffset
  rw [hmatch, fieldsMatch_eq values _ offset (cells?_readRow hfs hrows hbuild hread).2]
  rfl

namespace SliceRun

/-- The live rows with the lookup key of a searched row are equal to it by `==` exactly if they are the same. In a
closed batch its values are then of types that are compared; another row is also not taken for it where the content
under nulls is read. -/
def Comparable (fs : List Field) (hash : List RowValue → Nat) (s : SliceRun (List RowValue) (List RowValue)) :
    SliceOp (List RowValue) → Prop
  | .delete row _ _ | .findNonDeletedPosition row _ =>
    ∀ loc r, s.slice.columnStore.cell loc = some (r, false) → hash r = hash row → Field.AllHave fs r ∧
      (RowValue.allEq row r = true ↔ r = row) ∧
      (((s.slice.columnStore.findBatch loc.1).bind (·.batch.data)).isSome →
        if RowValue.allEq row r then Field.allNative fs row = true else Rejects fs (Cell.storedRow fs r) row)
  | _ => True

/-- The comparisons of searches then tell whether a row has the identity. -/
theorem told_of_comparable {s : SliceRun (List RowValue) (List RowValue)} {op : SliceOp (List RowValue)}
    (h : s.Comparable fs hash op) : s.Told (fullRowIdentity fs hash parquet) op := by
  have htells (row : List RowValue) (h : s.Comparable fs hash (.findNonDeletedPosition row 0)) :
      s.slice.Tells (fullRowIdentity fs hash parquet) row := by
    refine ⟨nofun, fun _ loc r hcell hhash => ?_⟩
    obtain ⟨hhave, hequal, hclosed⟩ := h loc r hcell hhash
    unfold ColumnStoreBuffer.compared
    cases hdata : (s.slice.columnStore.findBatch loc.1).bind (·.batch.data) with
    | none => exact ⟨_, rfl, hequal⟩
    | some rows =>
      have htells : Row.Tells (Cell.storedRow fs r) row r := (tells_storedRow_iff hhave).mpr (hclosed (by rw [hdata]; rfl))
      refine ⟨RowValue.allEq row r, ?_, hequal⟩
      show (answer (Cell.anyAborts _ row) (Cell.allShow _ row)).toOption = _
      rw [htells.complete, htells.exact]
      rfl
  cases op with
  | delete row lsn deleteIfExists => exact htells row h
  | findNonDeletedPosition row lsn => exact htells row h
  | _ => trivial

end SliceRun
end Moonlink.Storage
