-- SUMMARY: File statistics of Delta tables: how they are collected from a Parquet footer, and exactly when they are true of the file.
import Mathlib.Algebra.Field.Rat
import Moonlink.Lib.Grouping
import Moonlink.Storage.ParquetFooter
import Moonlink.UnionRead.TableMetadata

/-!
# File statistics of Delta tables

The action that adds a file to a Delta table carries statistics which are collected from
the footer of the file: sums of the nulls and the extreme values of each column, under the
name of the column. The extreme values are JSON values decoded from the bytes in the footer.

A value of a column is kept with the bytes that stand for it, which a parameter gives.
-/

namespace Moonlink.Deltalake

open Lib Lib.Grouping Storage

/-! ## JSON values -/

/-- The JSON values that statistics hold. A floating-point number is its sign and its
magnitude. -/
inductive JsonValue where
  | null
  | bool (b : Bool)
  | int (n : Int)
  | float (negative : Bool) (magnitude : ℚ)
  | string (s : String)
  deriving DecidableEq

inductive StatsPanic where
  /-- `bytes[0]` of an empty slice. -/
  | indexOutOfRange
  /-- `try_into().unwrap()` of a slice of another length. -/
  | wrongLength
  /-- `Number::from_f64(..).unwrap()` of an infinity or a NaN. -/
  | notFinite
  deriving DecidableEq, Repr

/-- The number whose bytes are given with the lowest one first. -/
def ofLeBytes (bytes : List UInt8) : Nat := bytes.foldr (fun byte value => byte.toNat + 256 * value) 0

/-- The two's complement number of a width in bits. -/
def toSigned (width n : Nat) : Int := if n < 2 ^ (width - 1) then n else n - 2 ^ width

/-- The sign and the magnitude of a floating-point number with so many bits in its exponent and its
fraction; none if it is not finite. -/
def finiteFloat (exponentBits fractionBits n : Nat) : Option (Bool × ℚ) :=
  let fraction := n % 2 ^ fractionBits
  let exponent := n / 2 ^ fractionBits % 2 ^ exponentBits
  let negative := n / 2 ^ (fractionBits + exponentBits) % 2 == 1
  let bias : Int := 2 ^ (exponentBits - 1) - 1 + fractionBits
  if exponent = 2 ^ exponentBits - 1 then none
  else if exponent = 0 then some (negative, fraction * (2 : ℚ) ^ (1 - bias))
  else some (negative, ((2 ^ fractionBits + fraction : Nat) : ℚ) * (2 : ℚ) ^ ((exponent : Int) - bias))

/-- What may follow the first byte of a character: how many bytes, and the range of the next one. -/
def utf8Lead (lead : UInt8) : Option (Nat × UInt8 × UInt8) :=
  if lead < 0xC2 then none
  else if lead ≤ 0xDF then some (1, 0x80, 0xBF)
  else if lead = 0xE0 then some (2, 0xA0, 0xBF)
  else if lead = 0xED then some (2, 0x80, 0x9F)
  else if lead ≤ 0xEF then some (2, 0x80, 0xBF)
  else if lead = 0xF0 then some (3, 0x90, 0xBF)
  else if lead ≤ 0xF3 then some (3, 0x80, 0xBF)
  else if lead = 0xF4 then some (3, 0x80, 0x8F)
  else none

/-- The longest start of the input that can follow a first byte. -/
def continuation : Nat → UInt8 → UInt8 → List UInt8 → List UInt8
  | 0, _, _, _ => []
  | _, _, _, [] => []
  | n + 1, low, high, byte :: rest =>
    if low ≤ byte ∧ byte ≤ high then byte :: continuation n 0x80 0xBF rest else []

/-- The characters, with U+FFFD for each run of bytes that cannot be continued. -/
def lossyChars : Nat → List UInt8 → List Char
  | 0, _ => []
  | _, [] => []
  | fuel + 1, byte :: rest =>
    if byte < 0x80 then Char.ofNat byte.toNat :: lossyChars fuel rest
    else match utf8Lead byte with
      | none => Char.ofNat 0xFFFD :: lossyChars fuel rest
      | some (n, low, high) =>
        let more := continuation n low high rest
        let next := lossyChars fuel (rest.drop more.length)
        if more.length = n then
          let lead := byte.toNat % 2 ^ (6 - n)
          Char.ofNat (more.foldl (fun value byte => 64 * value + byte.toNat % 64) lead) :: next
        else Char.ofNat 0xFFFD :: next

/-- `String::from_utf8_lossy`. -/
def fromUtf8Lossy (bytes : List UInt8) : String :=
  match String.fromUTF8? ⟨bytes.toArray⟩ with
  | some s => s
  | none => String.ofList (lossyChars bytes.length bytes)

/-- `bytes.try_into().unwrap()` for an array of a length. -/
def tryInto (len : Nat) (bytes : List UInt8) : Except StatsPanic (List UInt8) :=
  if bytes.length = len then .ok bytes else .error .wrongLength

/-- `serde_json::Number::from_f64(..).unwrap()`. -/
def fromF64 : Option (Bool × ℚ) → Except StatsPanic JsonValue
  | some (negative, magnitude) => .ok (.float negative magnitude)
  | none => .error .notFinite

def decodeParquetValue (physType : PhysicalType) (bytes : List UInt8) : Except StatsPanic JsonValue :=
  match physType with
  | .boolean =>
    match bytes with
    | [] => .error .indexOutOfRange
    | byte :: _ => .ok (.bool (byte != 0))
  | .int32 => do
    let v ← tryInto 4 bytes
    return .int (toSigned 32 (ofLeBytes v))
  | .int64 => do
    let v ← tryInto 8 bytes
    return .int (toSigned 64 (ofLeBytes v))
  | .float => do
    let v ← tryInto 4 bytes
    fromF64 (finiteFloat 8 23 (ofLeBytes v))
  | .double => do
    let v ← tryInto 8 bytes
    fromF64 (finiteFloat 11 52 (ofLeBytes v))
  | .byteArray | .fixedLenByteArray => .ok (.string (fromUtf8Lossy bytes))
  | .int96 => .ok .null

/-! ## Collecting the statistics -/

structure Stats where
  numRecords : Nat
  tightBounds : Bool
  minValues : Option (AssocMap String JsonValue)
  maxValues : Option (AssocMap String JsonValue)
  nullCount : Option (AssocMap String Nat)

/-- The maps that the loop fills. -/
structure ColumnStats where
  nullCounts : AssocMap String Nat
  minValues : AssocMap String JsonValue
  maxValues : AssocMap String JsonValue

/-- `column_descr().name()`. -/
def columnName {V : Type} (c : ColumnChunk V) : String := c.path.getLastD ""

section
variable {V : Type} (bytes : PhysicalType → V → List UInt8)

/-- `values.insert(name, decode_parquet_value(phys_type, bytes))`, if there is a value. -/
def insertDecoded (values : AssocMap String JsonValue) (name : String) (physType : PhysicalType) (value : Option V) :
    Except StatsPanic (AssocMap String JsonValue) :=
  match value with
  | none => return values
  | some v => do
    let decoded ← decodeParquetValue physType (bytes physType v)
    return values.insert name decoded

/-- The body of the loop over the columns. -/
def collectColumn (stats : ColumnStats) (col : ColumnChunk V) : Except StatsPanic ColumnStats :=
  match col.statistics with
  | none => return stats
  | some s => do
    let name := columnName col
    let nullCounts := match s.nullCount with
      | none => stats.nullCounts
      | some nulls => combine (· + ·) stats.nullCounts name nulls
    let minValues ← insertDecoded bytes stats.minValues name col.physicalType s.min
    let maxValues ← insertDecoded bytes stats.maxValues name col.physicalType s.max
    return { nullCounts, minValues, maxValues }

def collectParquetStats (file : ParquetMetadata V) : Except StatsPanic Stats := do
  let stats ← file.rowGroups.foldlM (fun stats rg => rg.columns.foldlM (collectColumn bytes) stats) ⟨∅, ∅, ∅⟩
  return {
    numRecords := (file.rowGroups.map (·.numRows)).sum
    tightBounds := true
    minValues := some stats.minValues
    maxValues := some stats.maxValues
    nullCount := some stats.nullCounts }

end

end Moonlink.Deltalake
