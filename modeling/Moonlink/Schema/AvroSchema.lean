-- SUMMARY: Avro schemas, and the Arrow schema that is built from a record schema.
import Moonlink.Schema.Arrow

/-!
# Avro schemas

A record becomes a struct and a map a list of its entries. A union of null and one more type is
that type with nulls.
-/

namespace Moonlink.Schema

/-- The schemas that have no Arrow type: enums, named references and the logical types. -/
inductive OtherAvroSchema where
  | enum
  | ref
  | decimal
  | bigDecimal
  | uuid
  | date
  | timeMillis
  | timeMicros
  | timestampMillis
  | timestampMicros
  | timestampNanos
  | localTimestampMillis
  | localTimestampMicros
  | localTimestampNanos
  | duration
  deriving DecidableEq, Repr

structure RecordField (S : Type) where
  name : String
  schema : S

inductive AvroSchema where
  | null
  | boolean
  | int
  | long
  | float
  | double
  | bytes
  | string
  | array (items : AvroSchema)
  | map (types : AvroSchema)
  | union (variants : List AvroSchema)
  | record (fields : List (RecordField AvroSchema))
  | fixed (size : Nat)
  | other (schema : OtherAvroSchema)

namespace AvroSchema

def isNull : AvroSchema → Bool
  | null => true
  | _ => false

/-- Schemas without others in them. -/
def isSimple : AvroSchema → Bool
  | array _ => false
  | map _ => false
  | union _ => false
  | record _ => false
  | _ => true

/-- The induction over a schema: over its items, its variants and the schemas of its fields. -/
theorem induction {P : AvroSchema → Prop} {Q : List (RecordField AvroSchema) → Prop}
    (simple : ∀ schema, schema.isSimple = true → P schema) (array : ∀ items, P items → P (array items))
    (map : ∀ types, P types → P (map types)) (union : ∀ variants, (∀ v ∈ variants, P v) → P (union variants))
    (record : ∀ fields, Q fields → P (record fields)) (nil : Q [])
    (cons : ∀ name schema rest, P schema → Q rest → Q (⟨name, schema⟩ :: rest)) :
    (∀ schema, P schema) ∧ ∀ fields, Q fields := by
  have hall : ∀ schema, P schema := by
    intro schema
    refine @AvroSchema.rec P (fun variants => ∀ v ∈ variants, P v) Q (fun field => P field.schema)
      (simple _ rfl) (simple _ rfl) (simple _ rfl) (simple _ rfl) (simple _ rfl) (simple _ rfl) (simple _ rfl)
      (simple _ rfl) array map union record (fun _ => simple _ rfl) (fun _ => simple _ rfl) ?_ ?_ nil ?_ ?_ schema
    · exact fun _ h => absurd h List.not_mem_nil
    · exact fun v rest hv hrest => List.forall_mem_cons.mpr ⟨hv, hrest⟩
    · exact fun field rest hfield hrest => cons field.name field.schema rest hfield hrest
    · exact fun _ _ hschema => hschema
  refine ⟨hall, fun fields => ?_⟩
  induction fields with
  | nil => exact nil
  | cons field rest ih => exact cons field.name field.schema rest (hall field.schema) ih

end AvroSchema

inductive AvroToArrowSchemaError where
  /-- "Only record schemas are supported at the top level". -/
  | notRecord
  /-- "Complex unions are not supported". -/
  | complexUnion
  /-- "Unsupported union type". -/
  | unsupportedUnion
  /-- "Unsupported Avro schema type", with the schema. -/
  | unsupportedType (schema : OtherAvroSchema)
  deriving DecidableEq, Repr

mutual
/-- The data type of a schema, and whether it has nulls. -/
def convertSchemaType : AvroSchema → Int32 → Except AvroToArrowSchemaError ((DataType × Bool) × Int32)
  | .null, fieldId => .ok ((.null, true), fieldId)
  | .boolean, fieldId => .ok ((.boolean, false), fieldId)
  | .int, fieldId => .ok ((.int32, false), fieldId)
  | .long, fieldId => .ok ((.int64, false), fieldId)
  | .float, fieldId => .ok ((.float32, false), fieldId)
  | .double, fieldId => .ok ((.float64, false), fieldId)
  | .bytes, fieldId => .ok ((.binary, false), fieldId)
  | .string, fieldId => .ok ((.utf8, false), fieldId)
  | .array items, fieldId => do
    let ((itemType, itemNullable), fieldId) ← convertSchemaType items fieldId
    let (listField, fieldId) := tagged "item" itemType itemNullable fieldId
    return ((.list listField, false), fieldId)
  | .map types, fieldId => do
    let ((valueType, valueNullable), fieldId) ← convertSchemaType types fieldId
    let (keyField, fieldId) := tagged "key" .utf8 false fieldId
    let (valueField, fieldId) := tagged "value" valueType valueNullable fieldId
    let (structField, fieldId) := tagged "entries" (.struct [keyField, valueField]) false fieldId
    return ((.list structField, false), fieldId)
  | .union [variant, variant'], fieldId =>
    if variant.isNull then
      if variant'.isNull then .error .unsupportedUnion
      else do
        let ((dataType, _), fieldId) ← convertSchemaType variant' fieldId
        return ((dataType, true), fieldId)
    else if variant'.isNull then do
      let ((dataType, _), fieldId) ← convertSchemaType variant fieldId
      return ((dataType, true), fieldId)
    else .error .complexUnion
  | .union _, _ => .error .complexUnion
  | .record fields, fieldId => do
    let (structFields, fieldId) ← convertFields fields fieldId
    return ((.struct structFields, false), fieldId)
  | .fixed size, fieldId => .ok ((.fixedSizeBinary (Int32.ofNat size), false), fieldId)
  | .other schema, _ => .error (.unsupportedType schema)
/-- `convert_field` for each of the fields of a record. -/
def convertFields : List (RecordField AvroSchema) → Int32 → Except AvroToArrowSchemaError (List Field × Int32)
  | [], fieldId => .ok ([], fieldId)
  | ⟨name, schema⟩ :: rest, fieldId => do
    let ((dataType, nullable), fieldId) ← convertSchemaType schema fieldId
    let (field, fieldId) := tagged name dataType nullable fieldId
    let (fields, fieldId) ← convertFields rest fieldId
    return (field :: fields, fieldId)
end

def convertAvroToArrowSchema : AvroSchema → Except AvroToArrowSchemaError (List Field)
  | .record fields => do
    let (arrowFields, _) ← convertFields fields 0
    return arrowFields
  | _ => .error .notRecord

end Moonlink.Schema
