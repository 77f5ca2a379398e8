-- SUMMARY: Matching the deletions of one key and LSN with the candidates of the index, by position or by the identity of the rows as they are stored.
import Moonlink.Lib.GreedyMatching
import Moonlink.Row.Identity
import Moonlink.Storage.Snapshot

/-!
# Matching deletions

If there are as many candidates as deletions each deletion gets one, whichever it is. If
there are more, each deletion takes the first candidate whose stored row matches its
identity. The rows are in record batches in memory and in Parquet files.
-/

namespace Moonlink.Storage

open Lib

inductive MatchPanic where
  /-- "missing batch" and "missing disk file". -/
  | storage (p : StoragePanic)
  /-- "batch missing data". -/
  | missingData
  | compare (p : Row.ComparePanic)
  /-- `deletions.first().unwrap()`. -/
  | noDeletion
  /-- `assert_eq!(deletions.len(), 1)`. -/
  | severalIfExists
  /-- "find less than expected candidates to deletions". -/
  | fewerCandidates
  /-- `assert!(deletion.row_identity.is_some())`. -/
  | missingIdentity
  /-- `target_position.unwrap()`. -/
  | noMatch
  deriving DecidableEq, Repr

structure StoredBatch where
  data : Option Row.RecordBatch
  deletions : BatchDeletionVector

structure StoredFile where
  file : Row.ParquetFile
  committedDeletionVector : BatchDeletionVector

/-- What the matching reads of the snapshot. -/
structure StoredRows where
  batches : AssocMap Nat StoredBatch
  diskFiles : AssocMap FileId StoredFile
  rowIdentity : Row.IdentityProp

/-- A deletion with the identity columns of its row. -/
abbrev RowDeletion : Type := RawDeletionRecord (List Row.RowValue)

namespace StoredRows

def isDeleted (s : StoredRows) : RecordLocation → Except MatchPanic Bool
  | .memoryBatch batchId rowIdx =>
    match s.batches.lookup batchId with
    | none => .error (.storage .missingBatch)
    | some batch => .ok (batch.deletions.isDeleted rowIdx)
  | .diskFile fileId rowIdx =>
    match s.diskFiles.lookup fileId with
    | none => .error (.storage .missingDiskFile)
    | some entry => .ok (entry.committedDeletionVector.isDeleted rowIdx)

def matchesIdentity (s : StoredRows) (values : List Row.RowValue) : RecordLocation → Except MatchPanic Bool
  | .memoryBatch batchId rowIdx =>
    match s.batches.lookup batchId with
    | none => .error (.storage .missingBatch)
    | some batch =>
      match batch.data with
      | none => .error .missingData
      | some data => (Row.equalsRecordBatchAtOffset values data rowIdx s.rowIdentity).mapError .compare
  | .diskFile fileId rowIdx =>
    match s.diskFiles.lookup fileId with
    | none => .error (.storage .missingDiskFile)
    | some entry => (Row.equalsParquetAtOffset values entry.file rowIdx s.rowIdentity).mapError .compare

/-- The candidates that are not deleted and visible to the first deletion. -/
def activeCandidates (s : StoredRows) (deletions : List RowDeletion) (fileIdToLsn batchIdToLsn : AssocMap Nat Nat) :
    List RecordLocation → Except MatchPanic (List RecordLocation)
  | [] => .ok []
  | loc :: rest => do
    let deleted ← s.isDeleted loc
    let keep ← if deleted then pure false else
      match deletions.head? with
      | none => .error .noDeletion
      | some first => pure (SnapshotTableState.isVisible fileIdToLsn batchIdToLsn first.lsn loc)
    let rest ← s.activeCandidates deletions fileIdToLsn batchIdToLsn rest
    return if keep then loc :: rest else rest

/-- The row of a `delete_if_exists` may not be there. -/
def matchIfExists (s : StoredRows) (candidates : List RecordLocation) (deletions : List RowDeletion) :
    Except MatchPanic (List ProcessedDeletionRecord) :=
  match deletions with
  | [deletion] =>
    match deletion.rowIdentity with
    | none => .ok (candidates.getLast?.map (SnapshotTableState.buildProcessedDeletion deletion)).toList
    | some values => do
      let idx ← Greedy.findMatch (s.matchesIdentity values) candidates
      return ((idx.bind (candidates[·]?)).map (SnapshotTableState.buildProcessedDeletion deletion)).toList
  | _ => .error .severalIfExists

/-- Each deletion takes the first candidate with its identity. -/
def disambiguate (s : StoredRows) : List RecordLocation → List RowDeletion →
    Except MatchPanic (List ProcessedDeletionRecord)
  | _, [] => .ok []
  | candidates, deletion :: rest =>
    match deletion.rowIdentity with
    | none => .error .missingIdentity
    | some values => do
      match ← Greedy.findMatch (s.matchesIdentity values) candidates with
      | none => .error .noMatch
      | some idx =>
        match candidates[idx]? with
        | none => .error .noMatch
        | some loc =>
          let rest ← s.disambiguate (Greedy.swapRemove candidates idx) rest
          return SnapshotTableState.buildProcessedDeletion deletion loc :: rest

def matchDeletionsWithIdenticalKeyAndLsn (s : StoredRows) (deletions : List RowDeletion)
    (indexLookupResult : List RecordLocation) (fileIdToLsn batchIdToLsn : AssocMap Nat Nat)
    (deleteIfExists : Bool) : Except MatchPanic (List ProcessedDeletionRecord) := do
  let candidates ← s.activeCandidates deletions fileIdToLsn batchIdToLsn indexLookupResult
  if deleteIfExists then s.matchIfExists candidates deletions
  else if candidates.length = deletions.length then
    return (candidates.zip deletions).map fun c => SnapshotTableState.buildProcessedDeletion c.2 c.1
  else if candidates.length < deletions.length then .error .fewerCandidates
  else s.disambiguate candidates deletions

end StoredRows
end Moonlink.Storage
