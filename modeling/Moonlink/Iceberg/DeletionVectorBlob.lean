-- SUMMARY: Deletion vectors as puffin blobs: serializing, the checks of deserializing, and when the deleted rows come back.
import Moonlink.Iceberg.Manifest
import Moonlink.Storage.DeleteVector
import Moonlink.UnionRead.TableMetadata

/-!
# Deletion vector blobs

A blob is the length of the magic bytes and the bitmap, the magic bytes, the bitmap, and
their checksum. The length field has 32 bits and is not checked when it is written. The
bitmap and the checksum come from libraries, which are parameters here.
-/

namespace Moonlink.Iceberg

open Lib
open UnionRead (ByteOrder)

/-- What the code uses of the bitmap library. A bitmap is a set of numbers. -/
structure RoaringLibrary (Bitmap Failure : Type) where
  new : Bitmap
  /-- Also returns how many values were appended, unless they are not ascending. -/
  append : Bitmap → List Nat → Option (Bitmap × Nat)
  iter : Bitmap → List Nat
  serializedSize : Bitmap → Nat
  serializeInto : Bitmap → List UInt8
  deserializeFrom : List UInt8 → Except Failure Bitmap

/-- Ascending rows are appended to an empty bitmap, its serialized form has the announced size, and the
rows come back from it. -/
structure RoaringLibrary.Keeps {Bitmap Failure : Type} (lib : RoaringLibrary Bitmap Failure) (rows : List Nat)
    (bitmap : Bitmap) : Prop where
  append : lib.append lib.new rows = some (bitmap, rows.length)
  size : (lib.serializeInto bitmap).length = lib.serializedSize bitmap
  roundTrip : Returns (lib.deserializeFrom (lib.serializeInto bitmap)) fun bitmap' => lib.iter bitmap' = rows

inductive BlobPanic where
  /-- `mark_rows_deleted`: the rows are not ascending. -/
  | rowsNotAscending
  /-- The same: not all rows were appended. -/
  | appendedCountDiffers
  /-- `check_properties`. -/
  | missingProperty (name : String)
  /-- `serialize`: the bitmap does not have its announced size. -/
  | bitmapSizeDiffers
  | sliceOutOfRange
  /-- `deserialize`: the property is missing or not a number. -/
  | maxNumRowsMissing
  | maxNumRowsInvalid
  | deleteVector (p : StoragePanic)
  deriving DecidableEq, Repr

def BlobPanic.assert (cond : Bool) (panic : BlobPanic) : Except BlobPanic Unit :=
  if cond then .ok () else .error panic

theorem BlobPanic.assert_pos {cond : Bool} {panic : BlobPanic} (h : cond = true) :
    BlobPanic.assert cond panic = .ok () := if_pos h

/-- An error that is not retryable, of kind `DataInvalid`. -/
structure BlobError (Failure : Type) where
  message : String
  source : Option Failure

structure Blob where
  type : String
  fields : List Int
  snapshotId : Int
  sequenceNumber : Int
  data : List UInt8
  properties : AssocMap String String

def deletionVectorMagicBytes : List UInt8 := [0xD1, 0xD3, 0x39, 0x64]

def minSerializedDeletionVectorBlob : Nat := 12

def deletionVectorCardinality : String := "cardinality"

def deletionVectorReferencedDataFile : String := "referenced-data-file"

def mooncakeDeletionVectorNumRows : String := "mooncake-deletion-vector-max-num-rows"

/-- `&data[start..stop]`. -/
def slice (data : List UInt8) (start stop : Nat) : Except BlobPanic (List UInt8) :=
  if start ≤ stop ∧ stop ≤ data.length then .ok ((data.drop start).take (stop - start))
  else .error .sliceOutOfRange

def toBeBytes (value : UInt32) : List UInt8 := ByteOrder.big.toNeBytes value

def fromBeBytes (bytes : List UInt8) : UInt32 := ByteOrder.big.fromNeBytes bytes

def withoutSign : List Char → List Char
  | '+' :: rest => rest
  | chars => chars

/-- `str::parse::<usize>`: digits after an optional sign. -/
def parseUsize (s : String) : Option Nat :=
  let digits := withoutSign s.toList
  if digits.isEmpty || !digits.all Char.isDigit then none
  else
    let value := Nat.ofDigitChars 10 digits 0
    if value < 2 ^ 64 then some value else none

structure DeletionVector (Bitmap : Type) where
  bitmap : Bitmap
  maxNumRows : Option Nat

namespace DeletionVector

variable {Bitmap Failure : Type} (lib : RoaringLibrary Bitmap Failure) (crc32 : List UInt8 → UInt32)

def new : DeletionVector Bitmap := ⟨lib.new, none⟩

def markRowsDeleted (dv : DeletionVector Bitmap) (rows : List Nat) :
    Except BlobPanic (DeletionVector Bitmap) :=
  match lib.append dv.bitmap rows with
  | none => .error .rowsNotAscending
  | some (bitmap, appendedNum) => do
    BlobPanic.assert (appendedNum = rows.length) .appendedCountDiffers
    return { dv with bitmap }

def checkProperties (properties : AssocMap String String) : Except BlobPanic Unit := do
  BlobPanic.assert (properties.lookup deletionVectorCardinality).isSome
    (.missingProperty deletionVectorCardinality)
  BlobPanic.assert (properties.lookup deletionVectorReferencedDataFile).isSome
    (.missingProperty deletionVectorReferencedDataFile)

/-- The length is cut to 32 bits. A bitmap that is shorter than announced would leave memory that was
never written. -/
def serialize (dv : DeletionVector Bitmap) (properties : AssocMap String String) : Except BlobPanic Blob := do
  checkProperties properties
  let serializedBitmapSize := lib.serializedSize dv.bitmap
  let combinedLength := UInt32.ofNat (deletionVectorMagicBytes.length + serializedBitmapSize)
  let bitmap := lib.serializeInto dv.bitmap
  BlobPanic.assert (bitmap.length = serializedBitmapSize) .bitmapSizeDiffers
  let crc := crc32 (deletionVectorMagicBytes ++ bitmap)
  return {
    type := deletionVectorV1
    fields := []
    snapshotId := -1
    sequenceNumber := -1
    data := toBeBytes combinedLength ++ deletionVectorMagicBytes ++ bitmap ++ toBeBytes crc
    properties }

def deserializeRoaringMap (data : List UInt8) (maxNumRows : Nat) :
    Except (BlobError Failure) (DeletionVector Bitmap) :=
  match lib.deserializeFrom data with
  | .ok bitmap => .ok ⟨bitmap, some maxNumRows⟩
  | .error e => .error ⟨"Failed to deserialize DeletionVector puffin blob", some e⟩

def readMaxNumRows (properties : AssocMap String String) : Except BlobPanic Nat :=
  match properties.lookup mooncakeDeletionVectorNumRows with
  | none => .error .maxNumRowsMissing
  | some value =>
    match parseUsize value with
    | none => .error .maxNumRowsInvalid
    | some maxNumRows => .ok maxNumRows

/-- The hasher gets the magic bytes and the bitmap one after the other. -/
def deserialize (blob : Blob) : Except BlobPanic (Except (BlobError Failure) (DeletionVector Bitmap)) :=
  let data := blob.data
  if data.length < minSerializedDeletionVectorBlob then
    return .error ⟨"Serialized deletion vector blob should be at least 12 bytes.", none⟩
  else do
    let magicInData ← slice data 4 8
    if magicInData ≠ deletionVectorMagicBytes then
      return .error ⟨"Data corruption detected for serialized deletion vector blob.", none⟩
    else do
      let lengthBytes ← slice data 0 4
      let combinedLength := fromBeBytes lengthBytes
      if 4 + combinedLength.toNat + 4 ≠ data.length then
        return .error ⟨"Serialized deletion vector blob length mismatch: expected " ++
          toString (4 + combinedLength.toNat + 4) ++ ", actual " ++ toString data.length, none⟩
      else do
        let bitmapData ← slice data 8 (data.length - 4)
        let expectedCrc := crc32 (deletionVectorMagicBytes ++ bitmapData)
        let crcBytes ← slice data (data.length - 4) data.length
        let storedCrc := fromBeBytes crcBytes
        if expectedCrc ≠ storedCrc then
          return .error ⟨"Within serialized deletion vector blob persisted crc32c is " ++
            toString expectedCrc ++ ", actual crc32c is " ++ toString storedCrc ++ ".", none⟩
        else do
          let maxNumRows ← readMaxNumRows blob.properties
          return deserializeRoaringMap lib bitmapData maxNumRows

def takeAsBatchDeleteVector (dv : DeletionVector Bitmap) : Except BlobPanic BatchDeletionVector :=
  match dv.maxNumRows with
  | none => .error .maxNumRowsMissing
  | some maxRows =>
    ((lib.iter dv.bitmap).foldlM BatchDeletionVector.deleteActiveRow (.new maxRows)).mapError .deleteVector

/-- The properties that the writer sets. -/
def blobProperties (dataFile : String) (deletedRowCount maxRows : Nat) : AssocMap String String :=
  [(deletionVectorReferencedDataFile, dataFile), (deletionVectorCardinality, toString deletedRowCount),
    (mooncakeDeletionVectorNumRows, toString maxRows)].foldl (fun map entry => map.insert entry.1 entry.2) ∅

/-- The blob of the deleted rows of a data file, as it is persisted. -/
def writeBlob (dataFile : String) (deletedRows : List Nat) (maxRows : Nat) : Except BlobPanic Blob := do
  let dv ← (new lib).markRowsDeleted lib deletedRows
  dv.serialize lib crc32 (blobProperties dataFile deletedRows.length maxRows)

/-- The vector that is loaded from a blob. -/
def readBlob (blob : Blob) : Except BlobPanic (Except (BlobError Failure) BatchDeletionVector) := do
  match ← deserialize lib crc32 blob with
  | .error e => return .error e
  | .ok dv => return .ok (← dv.takeAsBatchDeleteVector lib)

end DeletionVector
end Moonlink.Iceberg
