-- SUMMARY: The cells that values of Postgres are parsed into, their defaults, and the row values that they become.
import Moonlink.Row.ColumnArray
import Moonlink.Schema.PostgresSchema

/-!
# Cells

A value of Postgres is a cell before it is a row value. Dates are days since 1970, timestamps
microseconds, and JSON is the text that it is printed as. The arrays of the scalar types are one
constructor, whose elements have the type.
-/

namespace Moonlink.Replication

open Lib Row Schema

inductive PgNumeric where
  | nan
  | positiveInf
  | negativeInf
  /-- A `BigDecimal`: an integer and the number of its digits that are behind the decimal point. -/
  | value (intVal scale : Int)
  deriving DecidableEq, Repr

inductive Scalar where
  | bool (value : Bool)
  | string (value : String)
  | i16 (value : Int16)
  | i32 (value : Int32)
  | u32 (value : UInt32)
  | i64 (value : Int64)
  | f32 (bits : UInt32)
  | f64 (bits : UInt64)
  | numeric (value : PgNumeric)
  | date (days : Int)
  | time (seconds nanos : Nat)
  | timeStamp (micros : Int)
  | timeStampTz (micros : Int)
  | uuid (raw : Vector UInt8 16)
  | json (text : String)
  | bytes (value : ByteArray)

inductive Cell where
  | null
  | scalar (value : Scalar)
  /-- `ArrayCell` of a scalar type. -/
  | array (elements : List (Option Scalar))
  /-- `ArrayCell::Composite`. -/
  | compositeArray (elements : List (Option (List Cell)))
  | composite (values : List Cell)

/-- `to_i128().unwrap()`. -/
inductive CellPanic where
  | numericOverflow
  deriving DecidableEq, Repr

/-! ## Row values -/

def PgNumeric.toRowValue : PgNumeric → Except CellPanic RowValue
  | .value intVal _ =>
    if -2 ^ 127 ≤ intVal ∧ intVal < 2 ^ 127 then .ok (.decimal (BitVec.ofInt 128 intVal)) else .error .numericOverflow
  -- nan, inf, -inf will be converted to null
  | _ => .ok .null

def Scalar.toRowValue : Scalar → Except CellPanic RowValue
  | .bool value => .ok (.bool value)
  | .string value => .ok (.byteArray value.toByteArray)
  | .i16 value => .ok (.int32 value.toInt32)
  | .i32 value => .ok (.int32 value)
  | .u32 value => .ok (.int64 value.toUInt64.toInt64)
  | .i64 value => .ok (.int64 value)
  | .f32 bits => .ok (.float32 bits)
  | .f64 bits => .ok (.float64 bits)
  | .numeric value => value.toRowValue
  | .date days => .ok (.int32 (Int32.ofInt days))
  | .time seconds nanos => .ok (.int64 (Int64.ofNat (seconds * 1000000 + nanos / 1000)))
  | .timeStamp micros => .ok (.int64 (Int64.ofInt micros))
  | .timeStampTz micros => .ok (.int64 (Int64.ofInt micros))
  | .uuid raw => .ok (.fixedLenByteArray raw)
  | .json text => .ok (.byteArray text.toByteArray)
  | .bytes value => .ok (.byteArray value)

/-- An element of an array of a scalar type, in `convert_array_cell`. -/
def elementToRowValue : Option Scalar → Except CellPanic RowValue
  | none => .ok .null
  | some value => value.toRowValue

mutual
def Cell.toRowValue : Cell → Except CellPanic RowValue
  | .null => .ok .null
  | .scalar value => value.toRowValue
  | .array elements => do
    let values ← elements.mapM elementToRowValue
    return .array values
  | .compositeArray elements => do
    let values ← compositesToRowValues elements
    return .array values
  | .composite values => do
    let structValues ← cellsToRowValues values
    return .struct structValues
def compositesToRowValues : List (Option (List Cell)) → Except CellPanic (List RowValue)
  | [] => .ok []
  | none :: rest => do
    let values ← compositesToRowValues rest
    return .null :: values
  | some cells :: rest => do
    let structValues ← cellsToRowValues cells
    let values ← compositesToRowValues rest
    return .struct structValues :: values
def cellsToRowValues : List Cell → Except CellPanic (List RowValue)
  | [] => .ok []
  | cell :: rest => do
    let value ← cell.toRowValue
    let values ← cellsToRowValues rest
    return value :: values
end

/-! ## Defaults -/

/-- `NaiveDate::MIN`, the first day of the year -262143. -/
def naiveDateMin : Int := -96465292

/-- `default_value` of a simple type. -/
def defaultScalar : PgSimpleType → Option Scalar
  | .bool => some (.bool false)
  | .char | .bpchar | .varchar | .name | .text => some (.string "")
  | .int2 => some (.i16 0)
  | .int4 => some (.i32 0)
  | .int8 => some (.i64 0)
  | .float4 => some (.f32 0)
  | .float8 => some (.f64 0)
  | .numeric => some (.numeric (.value 0 0))
  | .bytea => some (.bytes ByteArray.empty)
  | .date => some (.date naiveDateMin)
  | .time => some (.time 0 0)
  | .timestamp => some (.timeStamp (naiveDateMin * 86400000000))
  | .timestamptz => some (.timeStampTz (naiveDateMin * 86400000000))
  | .uuid => some (.uuid (Vector.replicate 16 0))
  | .json | .jsonb => some (.json "null")
  | .oid => some (.u32 0)
  | .timetz | .other => none

def defaultValue : PgType → Cell
  | .simple type =>
    match defaultScalar type with
    | some value => .scalar value
    | none => .null
  | .composite _ => .composite []
  | .array (.simple type) => if (defaultScalar type).isSome then .array [] else .null
  | .array (.composite _) => .compositeArray []
  | .array _ => .null
  | .enum | .other => .null

end Moonlink.Replication
