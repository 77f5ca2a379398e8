-- SUMMARY: The statistics of a data file in Iceberg: the counts, sizes and bounds that are collected from a Parquet footer.
import Moonlink.Lib.Grouping
import Moonlink.Storage.ParquetFooter
import Moonlink.Iceberg.Manifest

/-!
# Statistics of data files

A data file is added to an Iceberg table with the sizes, counts and bounds of its fields,
which are collected from the column chunks of its footer. Readers skip a file if the
bounds of a field exclude what they look for.

Values are taken at the type of their field, with its order. The conversion of statistics
to that type may fail, which is a parameter, but does not change the value.
-/

namespace Moonlink.Iceberg

open Lib Lib.Grouping Storage

inductive PrimitiveType where
  | boolean
  | int
  | long
  | float
  | double
  | decimal (precision scale : Nat)
  | date
  | time
  | timestamp
  | timestamptz
  | timestampNs
  | timestamptzNs
  | string
  | uuid
  | fixed (len : Nat)
  | binary
  deriving DecidableEq, Repr

mutual

inductive FieldType where
  | primitive (ty : PrimitiveType)
  | struct (fields : NestedFields)
  | list (id : Int) (name : String) (element : FieldType)
  | map (keyId : Int) (key : FieldType) (valueId : Int) (value : FieldType)

inductive NestedFields where
  | nil
  | cons (id : Int) (name : String) (ty : FieldType) (rest : NestedFields)

end

inductive IcebergError where
  /-- "Invalid schema: multiple fields for name {full_name}: {field_id} and {existing_field_id}" -/
  | multipleFields (fullName : String) (fieldId existingFieldId : Int)
  /-- "Composed type {ty} is not supported for min max aggregation." -/
  | composedType
  /-- "Statistics {value} is not match with field type {ty}." -/
  | statisticsMismatch (ty : PrimitiveType)
  /-- A value cannot be converted to the type of its field. -/
  | invalidDatum (ty : PrimitiveType)
  deriving DecidableEq, Repr

/-! ## The schema -/

/-- From the paths of Parquet columns to field ids. -/
abbrev IndexByParquetPathName : Type := AssocMap String Int

/-- The visit of a primitive type under the names of the fields around it. -/
def IndexByParquetPathName.primitive (index : IndexByParquetPathName) (fieldNames : List String) (fieldId : Int) :
    Except IcebergError IndexByParquetPathName :=
  let fullName := ".".intercalate fieldNames
  match index.lookup fullName with
  | some existingFieldId => .error (.multipleFields fullName fieldId existingFieldId)
  | none => .ok (index.insert fullName fieldId)

mutual

def FieldType.visit (fieldNames : List String) (fieldId : Int) :
    FieldType → IndexByParquetPathName → Except IcebergError IndexByParquetPathName
  | .primitive _, index => index.primitive fieldNames fieldId
  | .struct fields, index => fields.visit fieldNames index
  | .list id name element, index => element.visit (fieldNames ++ ["list." ++ name]) id index
  | .map keyId key valueId value, index => do
    let index ← key.visit (fieldNames ++ ["key_value.key"]) keyId index
    value.visit (fieldNames ++ ["key_value.value"]) valueId index

def NestedFields.visit (fieldNames : List String) :
    NestedFields → IndexByParquetPathName → Except IcebergError IndexByParquetPathName
  | .nil, index => .ok index
  | .cons id name ty rest, index => do
    let index ← ty.visit (fieldNames ++ [name]) id index
    rest.visit fieldNames index

end

mutual

/-- The types of the fields below a type, by their ids. -/
def FieldType.fields : FieldType → List (Int × FieldType)
  | .primitive _ => []
  | .struct fields => fields.all
  | .list id _ element => (id, element) :: element.fields
  | .map keyId key valueId value => (keyId, key) :: key.fields ++ (valueId, value) :: value.fields

def NestedFields.all : NestedFields → List (Int × FieldType)
  | .nil => []
  | .cons id _ ty rest => (id, ty) :: ty.fields ++ rest.all

end

/-- The fields of a table. -/
abbrev TableSchema : Type := NestedFields

/-- `visit_schema` with the visitor that indexes the paths. -/
def TableSchema.indexByParquetPath (schema : TableSchema) : Except IcebergError IndexByParquetPathName :=
  schema.visit [] ∅

/-- The type of `field_by_id`. -/
def TableSchema.fieldById (schema : TableSchema) (fieldId : Int) : Option FieldType :=
  (schema.all.find? fun field => field.1 == fieldId).map (·.2)

/-! ## Bounds -/

/-- The pairs of types for which `get_parquet_stat_min_as_datum` and `get_parquet_stat_max_as_datum`
have a case. -/
def datumTypeMatches : PrimitiveType → PhysicalType → Bool
  | .boolean, .boolean => true
  | .int, .int32 => true
  | .date, .int32 => true
  | .long, .int64 => true
  | .time, .int64 => true
  | .timestamp, .int64 => true
  | .timestamptz, .int64 => true
  | .timestampNs, .int64 => true
  | .timestamptzNs, .int64 => true
  | .float, .float => true
  | .double, .double => true
  | .string, .byteArray => true
  | .decimal _ _, .byteArray => true
  | .decimal _ _, .fixedLenByteArray => true
  | .decimal _ _, .int32 => true
  | .decimal _ _, .int64 => true
  | .uuid, .fixedLenByteArray => true
  | .fixed _, .fixedLenByteArray => true
  | .binary, .byteArray => true
  | _, _ => false

section
variable {V : Type} (valid : PrimitiveType → PhysicalType → V → Bool)

/-- `get_parquet_stat_min_as_datum` and `get_parquet_stat_max_as_datum`, for the value of their side. -/
def getParquetStatAsDatum (ty : PrimitiveType) (physicalType : PhysicalType) (value : Option V) :
    Except IcebergError (Option V) :=
  if datumTypeMatches ty physicalType then
    match value with
    | none => .ok none
    | some v => if valid ty physicalType v then .ok (some v) else .error (.invalidDatum ty)
  else .ok none

end

structure MinMaxColAggregator (V : Type) where
  lowerBounds : AssocMap Int V
  upperBounds : AssocMap Int V

namespace MinMaxColAggregator

variable {V : Type} [LinearOrder V] (valid : PrimitiveType → PhysicalType → V → Bool) (schema : TableSchema)

def new : MinMaxColAggregator V := ⟨∅, ∅⟩

def updateStateMin (agg : MinMaxColAggregator V) (fieldId : Int) (datum : V) : MinMaxColAggregator V :=
  { agg with lowerBounds := combine (fun e datum => if e < datum then datum else e) agg.lowerBounds fieldId datum }

def updateStateMax (agg : MinMaxColAggregator V) (fieldId : Int) (datum : V) : MinMaxColAggregator V :=
  { agg with upperBounds := combine (fun e datum => if e > datum then datum else e) agg.upperBounds fieldId datum }

/-- The first half of `update`, for a field of a primitive type. -/
def updateMin (agg : MinMaxColAggregator V) (fieldId : Int) (ty : PrimitiveType) (physicalType : PhysicalType)
    (value : ParquetStatistics V) : Except IcebergError (MinMaxColAggregator V) :=
  if value.minIsExact then do
    match ← getParquetStatAsDatum valid ty physicalType value.min with
    | some minDatum => return agg.updateStateMin fieldId minDatum
    | none => .error (.statisticsMismatch ty)
  else return agg

/-- The second half. -/
def updateMax (agg : MinMaxColAggregator V) (fieldId : Int) (ty : PrimitiveType) (physicalType : PhysicalType)
    (value : ParquetStatistics V) : Except IcebergError (MinMaxColAggregator V) :=
  if value.maxIsExact then do
    match ← getParquetStatAsDatum valid ty physicalType value.max with
    | some maxDatum => return agg.updateStateMax fieldId maxDatum
    | none => .error (.statisticsMismatch ty)
  else return agg

def update (agg : MinMaxColAggregator V) (fieldId : Int) (physicalType : PhysicalType)
    (value : ParquetStatistics V) : Except IcebergError (MinMaxColAggregator V) :=
  match TableSchema.fieldById schema fieldId with
  | none => return agg
  | some (.primitive ty) => do
    let agg ← agg.updateMin valid fieldId ty physicalType value
    agg.updateMax valid fieldId ty physicalType value
  | some _ => .error .composedType

end MinMaxColAggregator

/-! ## The data file -/

/-- The counts, sizes and bounds of the fields. -/
structure ColumnMetrics (V : Type) where
  columnSizes : AssocMap Int Nat
  valueCounts : AssocMap Int Nat
  nullValueCounts : AssocMap Int Nat
  minMaxAgg : MinMaxColAggregator V

namespace ColumnMetrics

variable {V : Type} [LinearOrder V] (valid : PrimitiveType → PhysicalType → V → Bool) (schema : TableSchema)
  (index : IndexByParquetPathName)

def new : ColumnMetrics V := ⟨∅, ∅, ∅, .new⟩

/-- The field of a chunk. -/
def fieldOf (c : ColumnChunk V) : Option Int := index.lookup (".".intercalate c.path)

/-- The body of the loop over the column chunks. -/
def collect (metrics : ColumnMetrics V) (c : ColumnChunk V) : Except IcebergError (ColumnMetrics V) :=
  match fieldOf index c with
  | none => .ok metrics
  | some fieldId => do
    let metrics := { metrics with
      columnSizes := combine (· + ·) metrics.columnSizes fieldId c.compressedSize
      valueCounts := combine (· + ·) metrics.valueCounts fieldId c.numValues }
    match c.statistics with
    | none => return metrics
    | some statistics =>
      let metrics := match statistics.nullCount with
        | none => metrics
        | some nullCount =>
          { metrics with nullValueCounts := combine (· + ·) metrics.nullValueCounts fieldId nullCount }
      let minMaxAgg ← metrics.minMaxAgg.update valid schema fieldId c.physicalType statistics
      return { metrics with minMaxAgg }

end ColumnMetrics

structure DataFileBuilder (V : Type) where
  content : DataContentType
  filePath : String
  fileFormat : DataFileFormat
  recordCount : Nat
  fileSizeInBytes : Nat
  columnSizes : AssocMap Int Nat
  valueCounts : AssocMap Int Nat
  nullValueCounts : AssocMap Int Nat
  nanValueCounts : AssocMap Int Nat
  lowerBounds : AssocMap Int V
  upperBounds : AssocMap Int V
  splitOffsets : List Nat

def parquetToDataFileBuilder {V : Type} [LinearOrder V] (valid : PrimitiveType → PhysicalType → V → Bool)
    (schema : TableSchema) (file : ParquetMetadata V) (writtenSize : Nat) (filePath : String)
    (nanValueCounts : AssocMap Int Nat) : Except IcebergError (DataFileBuilder V) := do
  let index ← TableSchema.indexByParquetPath schema
  let metrics ← file.rowGroups.foldlM (fun metrics group =>
    group.columns.foldlM (ColumnMetrics.collect valid schema index) metrics) ColumnMetrics.new
  return {
    content := .data
    filePath
    fileFormat := .parquet
    recordCount := file.numRows
    fileSizeInBytes := writtenSize
    columnSizes := metrics.columnSizes
    valueCounts := metrics.valueCounts
    nullValueCounts := metrics.nullValueCounts
    nanValueCounts
    lowerBounds := metrics.minMaxAgg.lowerBounds
    upperBounds := metrics.minMaxAgg.upperBounds
    splitOffsets := file.rowGroups.filterMap (·.fileOffset) }

end Moonlink.Iceberg
