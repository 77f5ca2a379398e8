-- SUMMARY: The types of Postgres columns, and the Arrow schema of a Postgres table.
import Moonlink.Schema.Arrow

/-!
# Schemas of Postgres tables

Each column has a type with a modifier; the elements of arrays and the fields of composite types
have no modifier of their own. The lookup key of a table is left out.
-/

namespace Moonlink.Schema

/-- The simple types that are told apart. -/
inductive PgSimpleType where
  | bool
  | int2
  | int4
  | int8
  | float4
  | float8
  | numeric
  | varchar
  | text
  | bpchar
  | char
  | name
  | date
  | timestamp
  | timestamptz
  | time
  | timetz
  | uuid
  | json
  | jsonb
  | bytea
  | oid
  | other
  deriving DecidableEq, Repr

structure PgField (T : Type) where
  name : String
  type : T

/-- The induction over the fields of a composite type. -/
theorem PgField.induction {T : Type} {P : T → Prop} {Q : List (PgField T) → Prop} (hall : ∀ type, P type) (nil : Q [])
    (cons : ∀ name type rest, P type → Q rest → Q (⟨name, type⟩ :: rest)) (fields : List (PgField T)) : Q fields := by
  induction fields with
  | nil => exact nil
  | cons field rest ih => exact cons field.name field.type rest (hall field.type) ih

inductive PgType where
  | simple (type : PgSimpleType)
  | array (inner : PgType)
  | composite (fields : List (PgField PgType))
  | enum
  /-- Domains, ranges and pseudo types. -/
  | other

namespace PgType

/-- The induction over a type: over its elements, and over the fields of composite types. -/
theorem induction {P : PgType → Prop} {Q : List (PgField PgType) → Prop} (simple : ∀ type, P (simple type))
    (array : ∀ inner, P inner → P (array inner)) (composite : ∀ fields, Q fields → P (composite fields))
    (enum : P enum) (other : P other) (nil : Q [])
    (cons : ∀ name type rest, P type → Q rest → Q (⟨name, type⟩ :: rest)) :
    (∀ type, P type) ∧ ∀ fields, Q fields := by
  have hall : ∀ type, P type := by
    intro type
    refine @PgType.rec P Q (fun field => P field.type) simple array composite enum other nil ?_ ?_ type
    · exact fun field rest hfield hrest => cons field.name field.type rest hfield hrest
    · exact fun _ _ htype => htype
  exact ⟨hall, PgField.induction hall nil cons⟩

end PgType

structure ColumnSchema where
  name : String
  typ : PgType
  modifier : Int32
  nullable : Bool

/-- The `todo!` of `postgres_type_to_arrow_type`. -/
inductive UnsupportedPgType where
  | todo
  deriving DecidableEq, Repr

/-- The precision and the scale that are packed in a modifier. -/
def numericPrecisionScale (modifier : Int32) : Option (UInt8 × Int8) :=
  if modifier < 4 then none
  else
    let typmod := modifier - 4
    let precision := ((typmod >>> 16) &&& 0xffff).toUInt32.toUInt8
    let rawScale := typmod &&& 0x7ff
    let scale := ((rawScale ^^^ 1024) - 1024).toInt8
    some (precision, scale)

def decimal128MaxPrecision : UInt8 := 38

def decimalDefaultScale : Int8 := 10

def postgresPrimitiveToArrowType (typ : PgSimpleType) (modifier : Int32) (name : String) (nullable : Bool)
    (fieldId : Int32) : Field × Int32 :=
  -- Numeric values that Arrow does not have become null.
  let nullable := nullable || typ = .numeric
  let (dataType, extensionType) : DataType × Option ArrowExtensionType := match typ with
    | .bool => (.boolean, none)
    | .int2 => (.int16, none)
    | .int4 => (.int32, none)
    | .int8 => (.int64, none)
    | .float4 => (.float32, none)
    | .float8 => (.float64, none)
    | .numeric =>
      let (precision, scale) := (numericPrecisionScale modifier).getD (decimal128MaxPrecision, decimalDefaultScale)
      (.decimal128 precision scale, none)
    | .varchar | .text | .bpchar | .char | .name => (.utf8, none)
    | .date => (.date32, none)
    | .timestamp => (.timestamp none, none)
    | .timestamptz => (.timestamp (some "UTC"), none)
    | .time => (.time64, none)
    | .timetz => (.time64, none)
    | .uuid => (.fixedSizeBinary 16, some .uuid)
    | .json | .jsonb => (.utf8, some .json)
    | .bytea => (.binary, none)
    | .oid => (.int64, none)
    | .other => (.utf8, none)
  let (field, fieldId) := tagged name dataType nullable fieldId
  ({ field with extensionType }, fieldId)

mutual
def postgresTypeToArrowType : PgType → (modifier : Int32) → (name : String) → (nullable : Bool) → (fieldId : Int32) →
    Except UnsupportedPgType (Field × Int32)
  | .simple typ, modifier, name, nullable, fieldId =>
    .ok (postgresPrimitiveToArrowType typ modifier name nullable fieldId)
  | .array inner, _, name, nullable, fieldId => do
    let (itemType, fieldId) ← postgresTypeToArrowType inner (-1) "item" true fieldId
    return tagged name (.list itemType) nullable fieldId
  | .composite fields, _, name, nullable, fieldId => do
    let (fields, fieldId) ← compositeFields fields fieldId
    return tagged name (.struct fields) nullable fieldId
  | .enum, _, name, nullable, fieldId => .ok (⟨name, .utf8, nullable, none, none⟩, fieldId)
  | .other, _, _, _, _ => .error .todo
def compositeFields : List (PgField PgType) → Int32 → Except UnsupportedPgType (List Field × Int32)
  | [], fieldId => .ok ([], fieldId)
  | ⟨name, type⟩ :: rest, fieldId => do
    let (field, fieldId) ← postgresTypeToArrowType type (-1) name true fieldId
    let (fields, fieldId) ← compositeFields rest fieldId
    return (field :: fields, fieldId)
end

/-- The fields of columns, one after the other. -/
def columnFields : List ColumnSchema → Int32 → Except UnsupportedPgType (List Field × Int32)
  | [], fieldId => .ok ([], fieldId)
  | col :: rest, fieldId => do
    let (field, fieldId) ← postgresTypeToArrowType col.typ col.modifier col.name col.nullable fieldId
    let (fields, fieldId) ← columnFields rest fieldId
    return (field :: fields, fieldId)

def postgresSchemaToMoonlinkSchema (columnSchemas : List ColumnSchema) : Except UnsupportedPgType (List Field) := do
  let (fields, _) ← columnFields columnSchemas 0
  return fields

end Moonlink.Schema
