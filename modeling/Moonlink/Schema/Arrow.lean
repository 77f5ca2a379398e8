-- SUMMARY: Arrow data types and fields, with the ids of the fields at every depth.
import Mathlib.Data.List.Basic

/-!
# Arrow schemas

A field has a name, a data type, whether it has nulls, and metadata, of which the id is kept
here that Parquet and Iceberg know the field by. Times and timestamps are in microseconds.
-/

namespace Moonlink.Schema

/-- The extension types of Postgres columns. -/
inductive ArrowExtensionType where
  | uuid
  | json
  deriving DecidableEq, Repr

structure ArrowField (T : Type) where
  name : String
  dataType : T
  nullable : Bool
  /-- `PARQUET:field_id`. -/
  fieldId : Option Int32
  extensionType : Option ArrowExtensionType := none

inductive DataType where
  | null
  | boolean
  | int16
  | int32
  | int64
  | float32
  | float64
  | date32
  | time64
  | timestamp (timezone : Option String)
  | utf8
  | binary
  | fixedSizeBinary (size : Int32)
  | decimal128 (precision : UInt8) (scale : Int8)
  | list (item : ArrowField DataType)
  | struct (fields : List (ArrowField DataType))

/-- A field of a schema. -/
abbrev Field : Type := ArrowField DataType

/-- The field with the next id. -/
def tagged (name : String) (dataType : DataType) (nullable : Bool) (fieldId : Int32) : Field × Int32 :=
  (⟨name, dataType, nullable, some fieldId, none⟩, fieldId + 1)

/-! ## Field ids -/

mutual
/-- The ids of the fields within a type, at every depth. -/
def DataType.fieldIds : DataType → List (Option Int32)
  | .list item => Field.fieldIds item
  | .struct fields => Field.allIds fields
  | _ => []
/-- The ids of the fields within a field, and its own. -/
def Field.fieldIds : ArrowField DataType → List (Option Int32)
  | ⟨_, dataType, _, fieldId, _⟩ => dataType.fieldIds ++ [fieldId]
def Field.allIds : List (ArrowField DataType) → List (Option Int32)
  | [] => []
  | f :: fs => Field.fieldIds f ++ Field.allIds fs
end

/-- Every field at every depth has an id, and no two have the same. -/
def Field.Identified (fields : List Field) : Prop :=
  (∀ id ∈ allIds fields, id.isSome = true) ∧ (allIds fields).Nodup

/-! ## Lists of scalars -/

/-- Types without fields. -/
def DataType.isScalar : DataType → Bool
  | .list _ => false
  | .struct _ => false
  | _ => true

mutual
/-- The items of lists, at every depth, are scalars. -/
def DataType.HasFlatLists : DataType → Prop
  | .list item => item.dataType.isScalar = true
  | .struct fields => Field.AllHaveFlatLists fields
  | _ => True
def Field.AllHaveFlatLists : List (ArrowField DataType) → Prop
  | [] => True
  | ⟨_, dataType, _, _, _⟩ :: fs => dataType.HasFlatLists ∧ Field.AllHaveFlatLists fs
end

/-- The induction over types, and over lists of fields. -/
theorem DataType.induction {P : DataType → Prop} {Q : List Field → Prop}
    (scalar : ∀ type : DataType, type.isScalar = true → P type) (list : ∀ item : Field, P item.dataType → P (.list item))
    (struct : ∀ fields, Q fields → P (.struct fields)) (nil : Q [])
    (cons : ∀ (f : Field) fs, P f.dataType → Q fs → Q (f :: fs)) : (∀ type, P type) ∧ ∀ fields, Q fields := by
  have hall : ∀ type, P type := by
    refine @DataType.rec P (fun f => P f.dataType) Q ?_ ?_ ?_ ?_ ?_ ?_ ?_ ?_ ?_ ?_ ?_ ?_ ?_ ?_ list struct
      (fun _ _ _ _ _ h => h) nil cons
    all_goals intros; exact scalar _ rfl
  refine ⟨hall, fun fields => ?_⟩
  induction fields with
  | nil => exact nil
  | cons f fs ih => exact cons f fs (hall f.dataType) ih

end Moonlink.Schema
