-- SUMMARY: The table metadata that a read state carries: its encoding with the offset tables, its decoder, and the round trip.
import Moonlink.Lib.Codec

/-!
# Table metadata

A read state is handed to a reader as the bytes of its table metadata. The offsets of
all paths are written ahead of the paths, and every length and offset is a `u32` in the
byte order of the machine, on which the bytes are also decoded.
-/

namespace Moonlink.UnionRead

open Lib Lib.Codec

structure DeletionVector where
  dataFileNumber : UInt32
  puffinFileNumber : UInt32
  offset : UInt32
  size : UInt32
  deriving DecidableEq, Repr

structure PositionDelete where
  dataFileNumber : UInt32
  dataFileRowNumber : UInt32

structure MooncakeTableMetadata where
  dataFiles : List String
  puffinFiles : List String
  deletionVectors : List DeletionVector
  positionDeletes : List PositionDelete

inductive MetadataPanic where
  | notSorted
  | subtractOverflow
  | invalidUtf8
  deriving DecidableEq, Repr

inductive MetadataFailure where
  /-- `EncodeError::Other("out of range")`. -/
  | outOfRange
  /-- The reader has fewer bytes than it is asked for. -/
  | unexpectedEnd
  | panic (p : MetadataPanic)
  deriving DecidableEq, Repr

/-- The byte order of the machine. -/
inductive ByteOrder where
  | little
  | big
  deriving DecidableEq, Repr

namespace ByteOrder

def toNeBytes (order : ByteOrder) (value : UInt32) : List UInt8 :=
  let bytes := (List.range 4).map fun i => UInt8.ofNat (value.toNat / 256 ^ i)
  match order with
  | little => bytes
  | big => bytes.reverse

def fromNeBytes (order : ByteOrder) (bytes : List UInt8) : UInt32 :=
  let bytes := match order with
    | little => bytes
    | big => bytes.reverse
  UInt32.ofNat (bytes.foldr (fun byte value => byte.toNat + 256 * value) 0)

@[simp] theorem toNeBytes_length (order : ByteOrder) (value : UInt32) :
    (order.toNeBytes value).length = 4 := by cases order <;> rfl

theorem fromNeBytes_toNeBytes (order : ByteOrder) (value : UInt32) :
    order.fromNeBytes (order.toNeBytes value) = value := by
  have hlt := value.toNat_lt
  have hbytes : value.toNat % 256 + 256 * (value.toNat / 256 % 256 + 256 * (value.toNat / 65536 % 256 +
      256 * (value.toNat / 16777216 % 256))) = value.toNat := by omega
  cases order <;> simp [toNeBytes, fromNeBytes, List.range_succ, hbytes]

end ByteOrder

/-! ## Encode -/

section
variable (order : ByteOrder)

def writeU32 (value : UInt32) : Encoder MetadataFailure Unit := Codec.write (order.toNeBytes value)

def writeUsize (value : Nat) : Encoder MetadataFailure Unit :=
  if value < 2 ^ 32 then writeU32 order (UInt32.ofNat value) else throw .outOfRange

/-- `usize::saturating_add`. -/
def saturatingAdd (a b : Nat) : Nat := min (a + b) (2 ^ 64 - 1)

/-- The number of paths, the offset of each, and the offset where they end. -/
def writeOffsets (files : List String) : Encoder MetadataFailure Unit := do
  writeUsize order files.length
  let offset ← files.foldlM (fun offset file => do
    writeUsize order offset
    return saturatingAdd offset file.utf8ByteSize) 0
  writeUsize order offset

/-- Records come in the order of their data files, which is asserted. -/
def writeRecords {α : Type} (dataFileNumber : α → UInt32) (writeRecord : α → Encoder MetadataFailure Unit)
    (records : List α) : Encoder MetadataFailure Unit := do
  writeUsize order records.length
  let _ ← records.foldlM (fun prev record => do
    if dataFileNumber record < prev then throw (.panic .notSorted)
    writeRecord record
    return dataFileNumber record) 0

def writeDeletionVector (deletionVector : DeletionVector) : Encoder MetadataFailure Unit := do
  writeU32 order deletionVector.dataFileNumber
  writeU32 order deletionVector.puffinFileNumber
  writeU32 order deletionVector.offset
  writeU32 order deletionVector.size

def writePositionDelete (positionDelete : PositionDelete) : Encoder MetadataFailure Unit := do
  writeU32 order positionDelete.dataFileNumber
  writeU32 order positionDelete.dataFileRowNumber

end

/-- `as_bytes`. -/
def asBytes (file : String) : List UInt8 := file.toUTF8.data.toList

def writePaths (files : List String) : Encoder MetadataFailure Unit :=
  files.forM fun file => Codec.write (asBytes file)

namespace MooncakeTableMetadata

def encoder (order : ByteOrder) (m : MooncakeTableMetadata) : Encoder MetadataFailure Unit := do
  writeOffsets order m.dataFiles
  writeOffsets order m.puffinFiles
  writeRecords order (·.dataFileNumber) (writeDeletionVector order) m.deletionVectors
  writeRecords order (·.dataFileNumber) (writePositionDelete order) m.positionDeletes
  writePaths m.dataFiles
  writePaths m.puffinFiles

def encode (order : ByteOrder) (m : MooncakeTableMetadata) : Except MetadataFailure (List UInt8) := do
  let ((), bytes) ← (m.encoder order).run []
  return bytes

end MooncakeTableMetadata

/-! ## Decode -/

section
variable (order : ByteOrder)

def readU32 : Decoder MetadataFailure UInt32 := do
  let bytes ← Codec.read .unexpectedEnd 4
  return order.fromNeBytes bytes

def readUsize : Decoder MetadataFailure Nat := do
  let value ← readU32 order
  return value.toNat

/-- The offset of each path and the offset where they end. -/
def readOffsets : Decoder MetadataFailure (List Nat) := do
  let len ← readUsize order
  times (readUsize order) (len + 1)

def readRecords {α : Type} (readRecord : Decoder MetadataFailure α) : Decoder MetadataFailure (List α) := do
  let len ← readUsize order
  times readRecord len

def readDeletionVector : Decoder MetadataFailure DeletionVector := do
  let dataFileNumber ← readU32 order
  let puffinFileNumber ← readU32 order
  let offset ← readU32 order
  let size ← readU32 order
  return { dataFileNumber, puffinFileNumber, offset, size }

def readPositionDelete : Decoder MetadataFailure PositionDelete := do
  let dataFileNumber ← readU32 order
  let dataFileRowNumber ← readU32 order
  return { dataFileNumber, dataFileRowNumber }

end

/-- The path between two offsets. -/
def readPath (start stop : Nat) : Decoder MetadataFailure String := do
  if stop < start then throw (.panic .subtractOverflow)
  let bytes ← Codec.read .unexpectedEnd (stop - start)
  match String.fromUTF8? ⟨bytes.toArray⟩ with
  | some file => return file
  | none => throw (.panic .invalidUtf8)

/-- There is one offset more than there are paths, so every path has the offset after its own. -/
def readPaths (offsets : List Nat) : Decoder MetadataFailure (List String) :=
  (offsets.zip offsets.tail).mapM fun (start, stop) => readPath start stop

namespace MooncakeTableMetadata

def decode (order : ByteOrder) : Decoder MetadataFailure MooncakeTableMetadata := do
  let dataFileOffsets ← readOffsets order
  let puffinFileOffsets ← readOffsets order
  let deletionVectors ← readRecords order (readDeletionVector order)
  let positionDeletes ← readRecords order (readPositionDelete order)
  let dataFiles ← readPaths dataFileOffsets
  let puffinFiles ← readPaths puffinFileOffsets
  return { dataFiles, puffinFiles, deletionVectors, positionDeletes }

end MooncakeTableMetadata

/-! ## Numbers and offsets -/

section
variable (order : ByteOrder)

def usizeBytes (value : Nat) : List UInt8 := order.toNeBytes (UInt32.ofNat value)

theorem writeU32_emits (value : UInt32) :
    Emits (writeU32 order value) True .outOfRange (order.toNeBytes value) () := Emits.write

theorem writeUsize_emits (value : Nat) :
    Emits (writeUsize order value) (value < 2 ^ 32) .outOfRange (usizeBytes order value) () := by
  unfold writeUsize
  by_cases hfits : value < 2 ^ 32
  · rw [if_pos hfits]
    exact (writeU32_emits order _).congr (iff_of_true trivial hfits) fun _ => rfl
  · rw [if_neg hfits]
    exact ⟨fun h => absurd h hfits, fun _ _ => rfl⟩

theorem readU32_decodes (value : UInt32) : Decodes (readU32 order) (order.toNeBytes value) value := by
  have hread : Decodes (Codec.read MetadataFailure.unexpectedEnd 4) (order.toNeBytes value) (order.toNeBytes value) :=
    order.toNeBytes_length value ▸ Decodes.read
  refine hread.bind_pure ?_
  rw [order.fromNeBytes_toNeBytes]
  exact Decodes.pure

theorem readUsize_decodes {value : Nat} (h : value < 2 ^ 32) :
    Decodes (readUsize order) (usizeBytes order value) value := by
  refine (readU32_decodes order _).bind_pure ?_
  rw [UInt32.toNat_ofNat_of_lt' h]
  exact Decodes.pure

/-- The offset of each path, the first of which is `start`, and the offset where they end. -/
def offsets : Nat → List String → List Nat
  | start, [] => [start]
  | start, file :: files => start :: offsets (start + file.utf8ByteSize) files

/-- The cumulative byte length of a path list. -/
def totalBytes (files : List String) : Nat := (files.map (·.utf8ByteSize)).sum

@[simp] theorem totalBytes_cons (file : String) (files : List String) :
    totalBytes (file :: files) = file.utf8ByteSize + totalBytes files := List.sum_cons

theorem offsets_length (start : Nat) (files : List String) : (offsets start files).length = files.length + 1 := by
  induction files generalizing start with
  | nil => rfl
  | cons file files ih => rw [offsets, List.length_cons, ih, List.length_cons]

theorem le_of_mem_offsets {start : Nat} {files : List String} {offset : Nat} (h : offset ∈ offsets start files) :
    offset ≤ start + totalBytes files := by
  induction files generalizing start with
  | nil =>
    obtain rfl := List.mem_singleton.mp h
    exact Nat.le_add_right _ _
  | cons file files ih =>
    rw [totalBytes_cons]
    rcases List.mem_cons.mp h with rfl | hrest
    · exact Nat.le_add_right _ _
    · have := ih hrest
      omega

/-- The sum saturates only where it does not fit in any case. -/
theorem writeOffsets_loop (start : Nat) (files : List String) :
    Emits (do
      let offset ← files.foldlM (fun offset file => do
        writeUsize order offset
        return saturatingAdd offset file.utf8ByteSize) start
      writeUsize order offset) (start + totalBytes files < 2 ^ 32) .outOfRange
      ((offsets start files).flatMap (usizeBytes order)) () := by
  induction files generalizing start with
  | nil => exact (writeUsize_emits order start).congr Iff.rfl fun _ => (List.append_nil _).symm
  | cons file files ih =>
    simp only [List.foldlM_cons, bind_assoc, pure_bind]
    have hrest := ih (saturatingAdd start file.utf8ByteSize)
    refine ((writeUsize_emits order start).bind hrest).congr ?_ fun hfits => ?_
    · rw [totalBytes_cons]
      unfold saturatingAdd
      omega
    · rw [totalBytes_cons] at hfits
      have hexact : saturatingAdd start file.utf8ByteSize = start + file.utf8ByteSize := by
        unfold saturatingAdd
        omega
      rw [hexact, offsets, List.flatMap_cons]

def offsetTable (files : List String) : List UInt8 :=
  usizeBytes order files.length ++ (offsets 0 files).flatMap (usizeBytes order)

/-- The paths of a list can be addressed. -/
def PathsFit (files : List String) : Prop := files.length < 2 ^ 32 ∧ totalBytes files < 2 ^ 32

theorem writeOffsets_emits (files : List String) :
    Emits (writeOffsets order files) (PathsFit files) .outOfRange (offsetTable order files) () := by
  have hloop := writeOffsets_loop order 0 files
  rw [Nat.zero_add] at hloop
  exact (writeUsize_emits order files.length).bind hloop

theorem readOffsets_decodes {files : List String} (h : PathsFit files) :
    Decodes (readOffsets order) (offsetTable order files) (offsets 0 files) := by
  refine (readUsize_decodes order h.1).bind ?_
  rw [← offsets_length 0 files]
  refine Decodes.times fun offset hoffset => readUsize_decodes order ?_
  have hle := le_of_mem_offsets hoffset
  have htotal := h.2
  omega

/-! ## Records -/

variable {α : Type} {dataFileNumber : α → UInt32} {writeRecord : α → Encoder MetadataFailure Unit}
  {readRecord : Decoder MetadataFailure α} {recordBytes : α → List UInt8}

variable {records : List α}

/-- The assertion holds from `prev` on. -/
theorem writeRecords_loop (hwrite : ∀ record, Emits (writeRecord record) True .outOfRange (recordBytes record) ())
    (prev : UInt32) (hprev : ∀ record ∈ records, prev ≤ dataFileNumber record)
    (hsorted : records.Pairwise fun a b => dataFileNumber a ≤ dataFileNumber b) :
    ∃ last, Emits (records.foldlM (fun prev record => do
      if dataFileNumber record < prev then throw (MetadataFailure.panic .notSorted)
      writeRecord record
      return dataFileNumber record) prev) True .outOfRange (records.flatMap recordBytes) last := by
  induction records generalizing prev with
  | nil => exact ⟨prev, Emits.pure⟩
  | cons record records ih =>
    obtain ⟨hle, hrest⟩ := List.pairwise_cons.mp hsorted
    obtain ⟨last, hlast⟩ := ih _ hle hrest
    have hassert : ¬ dataFileNumber record < prev := UInt32.not_lt.mpr (hprev record List.mem_cons_self)
    refine ⟨last, ?_⟩
    simp only [List.foldlM_cons, if_neg hassert, bind_assoc, pure_bind, List.flatMap_cons]
    exact ((hwrite record).bind hlast).congr and_self_iff fun _ => rfl

def recordTable (recordBytes : α → List UInt8) (records : List α) : List UInt8 :=
  usizeBytes order records.length ++ records.flatMap recordBytes

theorem writeRecords_emits (hwrite : ∀ record, Emits (writeRecord record) True .outOfRange (recordBytes record) ())
    (hsorted : records.Pairwise fun a b => dataFileNumber a ≤ dataFileNumber b) :
    Emits (writeRecords order dataFileNumber writeRecord records) (records.length < 2 ^ 32) .outOfRange
      (recordTable order recordBytes records) () := by
  obtain ⟨last, hlast⟩ := writeRecords_loop hwrite 0 (fun _ _ => UInt32.zero_le) hsorted
  have hall := (writeUsize_emits order records.length).bind (f := fun _ => do let _ ← records.foldlM _ 0)
    (hlast.bind Emits.pure)
  exact hall.congr (by simp) fun _ => by rw [recordTable, List.append_nil]

theorem readRecords_decodes (hread : ∀ record, Decodes readRecord (recordBytes record) record)
    (hfits : records.length < 2 ^ 32) :
    Decodes (readRecords order readRecord) (recordTable order recordBytes records) records :=
  (readUsize_decodes order hfits).bind (Decodes.times fun record _ => hread record)

def deletionVectorBytes (deletionVector : DeletionVector) : List UInt8 :=
  [deletionVector.dataFileNumber, deletionVector.puffinFileNumber, deletionVector.offset,
    deletionVector.size].flatMap order.toNeBytes

def positionDeleteBytes (positionDelete : PositionDelete) : List UInt8 :=
  [positionDelete.dataFileNumber, positionDelete.dataFileRowNumber].flatMap order.toNeBytes

theorem writeDeletionVector_emits (deletionVector : DeletionVector) :
    Emits (writeDeletionVector order deletionVector) True .outOfRange (deletionVectorBytes order deletionVector) () := by
  have h := (writeU32_emits order deletionVector.dataFileNumber).bind (f := fun _ => _)
    ((writeU32_emits order deletionVector.puffinFileNumber).bind (f := fun _ => _)
    ((writeU32_emits order deletionVector.offset).bind (f := fun _ => _)
    (writeU32_emits order deletionVector.size)))
  exact h.congr (by simp) fun _ => by simp [deletionVectorBytes]

theorem writePositionDelete_emits (positionDelete : PositionDelete) :
    Emits (writePositionDelete order positionDelete) True .outOfRange (positionDeleteBytes order positionDelete) () := by
  have h := (writeU32_emits order positionDelete.dataFileNumber).bind (f := fun _ => _)
    (writeU32_emits order positionDelete.dataFileRowNumber)
  exact h.congr (by simp) fun _ => by simp [positionDeleteBytes]

theorem readDeletionVector_decodes (deletionVector : DeletionVector) :
    Decodes (readDeletionVector order) (deletionVectorBytes order deletionVector) deletionVector := by
  have hread := readU32_decodes order
  exact (hread _).bind ((hread _).bind ((hread _).bind ((hread _).bind Decodes.pure)))

theorem readPositionDelete_decodes (positionDelete : PositionDelete) :
    Decodes (readPositionDelete order) (positionDeleteBytes order positionDelete) positionDelete := by
  have hread := readU32_decodes order
  exact (hread _).bind ((hread _).bind Decodes.pure)

end

/-! ## Paths -/

theorem asBytes_length (file : String) : (asBytes file).length = file.utf8ByteSize := rfl

theorem fromUTF8?_asBytes (file : String) : String.fromUTF8? ⟨(asBytes file).toArray⟩ = some file := by
  unfold String.fromUTF8?
  rw [asBytes, String.toUTF8_eq_toByteArray, Array.toArray_toList, dif_pos file.isValidUTF8]
  rfl

theorem writePaths_emits (files : List String) :
    Emits (writePaths files) True .outOfRange (files.flatMap asBytes) () :=
  Emits.forM fun _ => Emits.write

theorem readPath_decodes (start : Nat) (file : String) :
    Decodes (readPath start (start + file.utf8ByteSize)) (asBytes file) file := by
  unfold readPath
  rw [if_neg (Nat.not_lt.mpr (Nat.le_add_right _ _)), Nat.add_sub_cancel_left, ← asBytes_length]
  refine Decodes.read.bind_pure ?_
  rw [fromUTF8?_asBytes]
  exact Decodes.pure

theorem readPaths_decodes (start : Nat) (files : List String) :
    Decodes (readPaths (offsets start files)) (files.flatMap asBytes) files := by
  induction files generalizing start with
  | nil => exact Decodes.pure
  | cons file files ih =>
    have hrest := ih (start + file.utf8ByteSize)
    have hhead : ∃ later, offsets (start + file.utf8ByteSize) files = (start + file.utf8ByteSize) :: later := by
      cases files <;> exact ⟨_, rfl⟩
    obtain ⟨later, hlater⟩ := hhead
    rw [readPaths, hlater] at hrest
    rw [readPaths, offsets, hlater, List.tail_cons, List.zip_cons_cons, List.mapM_cons, List.flatMap_cons]
    exact (readPath_decodes start file).bind (hrest.bind_pure Decodes.pure)

/-! ## The round trip -/

namespace MooncakeTableMetadata

/-- Deletion vectors and position deletes come in the order of their data files. -/
structure Sorted (m : MooncakeTableMetadata) : Prop where
  deletionVectors : m.deletionVectors.Pairwise fun a b => a.dataFileNumber ≤ b.dataFileNumber
  positionDeletes : m.positionDeletes.Pairwise fun a b => a.dataFileNumber ≤ b.dataFileNumber

/-- Every length and every offset is a `u32`. The fields of the records are by their type. -/
def Fits (m : MooncakeTableMetadata) : Prop :=
  PathsFit m.dataFiles ∧ PathsFit m.puffinFiles ∧ m.deletionVectors.length < 2 ^ 32 ∧
    m.positionDeletes.length < 2 ^ 32

variable (order : ByteOrder) (m : MooncakeTableMetadata)

def bytes : List UInt8 :=
  offsetTable order m.dataFiles ++ (offsetTable order m.puffinFiles ++
    (recordTable order (deletionVectorBytes order) m.deletionVectors ++
    (recordTable order (positionDeleteBytes order) m.positionDeletes ++
    (m.dataFiles.flatMap asBytes ++ m.puffinFiles.flatMap asBytes))))

variable {m}

theorem encoder_emits (h : m.Sorted) : Emits (m.encoder order) m.Fits .outOfRange (m.bytes order) () := by
  have hvectors := writeRecords_emits order (writeDeletionVector_emits order) h.deletionVectors
  have hdeletes := writeRecords_emits order (writePositionDelete_emits order) h.positionDeletes
  have hpaths := (writePaths_emits m.dataFiles).bind (f := fun _ => _) (writePaths_emits m.puffinFiles)
  have hall := (writeOffsets_emits order m.dataFiles).bind (f := fun _ => _)
    ((writeOffsets_emits order m.puffinFiles).bind (f := fun _ => _)
      (hvectors.bind (f := fun _ => _) (hdeletes.bind (f := fun _ => _) hpaths)))
  exact hall.congr (by simp [Fits]) fun _ => rfl

theorem decode_decodes (h : m.Fits) : Decodes (decode order) (m.bytes order) m := by
  obtain ⟨hdata, hpuffin, hvectors, hdeletes⟩ := h
  refine (readOffsets_decodes order hdata).bind ?_
  refine (readOffsets_decodes order hpuffin).bind ?_
  refine (readRecords_decodes order (readDeletionVector_decodes order) hvectors).bind ?_
  refine (readRecords_decodes order (readPositionDelete_decodes order) hdeletes).bind ?_
  exact (readPaths_decodes 0 m.dataFiles).bind ((readPaths_decodes 0 m.puffinFiles).bind_pure Decodes.pure)

theorem encode_of_fits (h : m.Sorted) (hfits : m.Fits) : m.encode order = .ok (m.bytes order) := by
  unfold encode
  rw [(encoder_emits order h).appends hfits]
  rfl

theorem encode_of_not_fits (h : m.Sorted) (hfits : ¬ m.Fits) : m.encode order = .error .outOfRange := by
  unfold encode
  rw [(encoder_emits order h).fails hfits]
  rfl

/-- What was encoded is decoded, whatever follows it, and encoding fails exactly if a length
or an offset does not fit. -/
theorem encode_roundTrip (h : m.Sorted) :
    (∀ data, m.encode order = .ok data → ∀ rest, (decode order).run (data ++ rest) = .ok (m, rest)) ∧
      ((∃ data, m.encode order = .ok data) ↔ m.Fits) ∧ (¬ m.Fits → m.encode order = .error .outOfRange) := by
  by_cases hfits : m.Fits
  · rw [encode_of_fits order h hfits]
    refine ⟨?_, ⟨fun _ => hfits, fun _ => ⟨_, rfl⟩⟩, fun hnot => absurd hfits hnot⟩
    rintro data ⟨⟩ rest
    exact decode_decodes order hfits rest
  · rw [encode_of_not_fits order h hfits]
    refine ⟨?_, ⟨?_, fun hfit => absurd hfit hfits⟩, fun _ => rfl⟩
    · rintro data ⟨⟩
    · rintro ⟨data, ⟨⟩⟩

/-- Two files, one of which has no name, with records of both kinds. -/
def sample : MooncakeTableMetadata :=
  ⟨["a.parquet", ""], ["b.bin"], [⟨0, 0, 4, 10⟩, ⟨1, 0, 14, 20⟩], [⟨0, 2⟩, ⟨0, 1⟩]⟩

theorem encode_roundTrip_sample :
    (∀ data, sample.encode .big = .ok data → ∀ rest, (decode .big).run (data ++ rest) = .ok (sample, rest)) ∧
      ((∃ data, sample.encode .big = .ok data) ↔ sample.Fits) ∧
      (¬ sample.Fits → sample.encode .big = .error .outOfRange) :=
  encode_roundTrip .big ⟨by decide, by decide⟩

end MooncakeTableMetadata

/-! ## Read states -/

/-- The order in which `ReadState::new` sorts deletion vectors. -/
def DeletionVector.cmp : DeletionVector → DeletionVector → Ordering :=
  compareLex (compareOn (·.dataFileNumber)) (compareLex (compareOn (·.puffinFileNumber))
    (compareLex (compareOn (·.offset)) (compareOn (·.size))))

/-- The derived order of position deletes. -/
def PositionDelete.cmp : PositionDelete → PositionDelete → Ordering :=
  compareLex (compareOn (·.dataFileNumber)) (compareOn (·.dataFileRowNumber))

/-- The metadata that `ReadState::new` encodes. Paths go through `readStateFilepathRemap`. -/
def readStateMetadata (readStateFilepathRemap : String → String) (dataFiles puffinFiles : List String)
    (deletionVectors : List DeletionVector) (positionDeletes : List PositionDelete) : MooncakeTableMetadata where
  dataFiles := dataFiles.map readStateFilepathRemap
  puffinFiles := puffinFiles.map readStateFilepathRemap
  deletionVectors := deletionVectors.mergeSort fun a b => (a.cmp b).isLE
  positionDeletes := positionDeletes.mergeSort fun a b => (a.cmp b).isLE

/-- A lexicographic order sorts by its first key. -/
theorem pairwise_mergeSort_compareLex {α : Type} (key : α → UInt32) (cmp : α → α → Ordering) [Std.TransCmp cmp]
    (records : List α) :
    (records.mergeSort fun a b => (compareLex (compareOn key) cmp a b).isLE).Pairwise fun a b => key a ≤ key b := by
  have htotal : ∀ a b, ((compareLex (compareOn key) cmp a b).isLE || (compareLex (compareOn key) cmp b a).isLE) := by
    intro a b
    have hswap : compareLex (compareOn key) cmp b a = (compareLex (compareOn key) cmp a b).swap :=
      Std.OrientedCmp.eq_swap
    rw [hswap]
    cases compareLex (compareOn key) cmp a b <;> rfl
  refine (List.pairwise_mergeSort (fun a b c => Std.TransCmp.isLE_trans) htotal records).imp fun {a b} hle => ?_
  have hkey := (Ordering.isLE_then_iff_and.mp hle).1
  exact Std.isLE_compare.mp hkey

theorem readStateMetadata_sorted (readStateFilepathRemap : String → String) (dataFiles puffinFiles : List String)
    (deletionVectors : List DeletionVector) (positionDeletes : List PositionDelete) :
    (readStateMetadata readStateFilepathRemap dataFiles puffinFiles deletionVectors positionDeletes).Sorted where
  deletionVectors := pairwise_mergeSort_compareLex _ _ deletionVectors
  positionDeletes := pairwise_mergeSort_compareLex _ _ positionDeletes

end Moonlink.UnionRead
