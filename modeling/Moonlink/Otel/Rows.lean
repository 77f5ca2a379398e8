-- SUMMARY: The rows that OTLP data points are converted to.
import Moonlink.Otel.Request
import Moonlink.Row.ColumnArray

namespace Moonlink.Otel

open Lib Row

inductive OtelPanic where
  /-- `entityrefs_to_rowvalue_array`: two attributes of a resource have one key. -/
  | duplicateAttribute (key : String)
  deriving DecidableEq, Repr

/-- `RowValue::bytes` of a string. -/
def text (s : String) : RowValue := .byteArray s.toUTF8

/-- In this order: string, int, double, bool, bytes. Nested values are not supported. -/
def anyvalueToStruct (v : Option AnyValue) : RowValue :=
  match v with
  | some (.stringValue s) => .struct [text s, .null, .null, .null, .null]
  | some (.intValue i) => .struct [.null, .int64 i, .null, .null, .null]
  | some (.doubleValue bits) => .struct [.null, .null, .float64 bits, .null, .null]
  | some (.boolValue b) => .struct [.null, .null, .null, .bool b, .null]
  | some (.bytesValue bytes) => .struct [.null, .null, .null, .null, .byteArray bytes]
  | _ => .struct [.null, .null, .null, .null, .null]

def keyValueStruct (key : String) (value : Option AnyValue) : RowValue := .struct [text key, anyvalueToStruct value]

def kvsToRowvalueArrayAnyvalue (kvs : List KeyValue) : RowValue :=
  .array (kvs.map fun kv => keyValueStruct kv.key kv.value)

/-- An attribute with a value, whose key must be new. -/
def insertAttr (m : AssocMap String AnyValue) (kv : KeyValue) : Except OtelPanic (AssocMap String AnyValue) :=
  match kv.value with
  | none => .ok m
  | some v => if (m.lookup kv.key).isSome then .error (.duplicateAttribute kv.key) else .ok (m.insert kv.key v)

/-- The attributes of a resource by their keys. -/
def attrMap (attrs : List KeyValue) : Except OtelPanic (AssocMap String AnyValue) := attrs.foldlM insertAttr ∅

/-- A string that is empty when it is missing. -/
def optionalText (s : String) : RowValue := if s.isEmpty then .null else text s

def entityrefsToRowvalueArray (entityRefs : List EntityRef) (attrs : List KeyValue) : Except OtelPanic RowValue := do
  let attrs ← attrMap attrs
  return .array (entityRefs.map fun er => .struct [
    optionalText er.type,
    .array (er.idKeys.map fun k => keyValueStruct k (attrs.lookup k)),
    .array (er.descriptionKeys.map fun k => keyValueStruct k (attrs.lookup k)),
    optionalText er.schemaUrl])

/-- A number in one of two columns, the first for integers. -/
def numberPair : Option NumberValue → RowValue × RowValue
  | some (.asDouble bits) => (.null, .float64 bits)
  | some (.asInt i) => (.int64 i, .null)
  | none => (.null, .null)

/-- An id that is empty when it is missing. -/
def optionalBytes (bytes : ByteArray) : RowValue := if bytes.isEmpty then .null else .byteArray bytes

def exemplarsToRowvalueArray (exemplars : List Exemplar) : RowValue :=
  .array (exemplars.map fun e => .struct [
    .int64 e.timeUnixNano.toInt64, (numberPair e.value).1, (numberPair e.value).2,
    optionalBytes e.traceId, optionalBytes e.spanId, kvsToRowvalueArrayAnyvalue e.filteredAttributes])

/-- The resource and the scope of a metric. -/
structure PointContext where
  metric : Metric
  resourceAttrs : List KeyValue
  resourceEntityRefs : List EntityRef
  scopeName : String
  scopeAttrs : List KeyValue

/-- Columns 0 to 16, which all rows begin with. -/
def commonValues (kind : String) (ctx : PointContext) (entityRefs : RowValue) (startTimeUnixNano timeUnixNano : UInt64)
    (attributes : List KeyValue) : List RowValue :=
  [text kind, kvsToRowvalueArrayAnyvalue ctx.resourceAttrs, entityRefs, .null, .null, text ctx.scopeName, .null,
    kvsToRowvalueArrayAnyvalue ctx.scopeAttrs, .null, .null, text ctx.metric.name, .null, text ctx.metric.unit,
    .int64 startTimeUnixNano.toInt64, .int64 timeUnixNano.toInt64, kvsToRowvalueArrayAnyvalue attributes, .null]

/-- Gauges have the temporality -1. -/
def numberPointRow (kind : String) (ctx : PointContext) (dp : NumberDataPoint) (temporality : Int32)
    (isMonotonic : Bool) : Except OtelPanic (List RowValue) := do
  let entityRefs ← entityrefsToRowvalueArray ctx.resourceEntityRefs ctx.resourceAttrs
  return commonValues kind ctx entityRefs dp.startTimeUnixNano dp.timeUnixNano dp.attributes ++
    [(numberPair dp.value).1, (numberPair dp.value).2, .int32 temporality, .bool isMonotonic,
      exemplarsToRowvalueArray dp.exemplars]

def optionalFloat64 : Option UInt64 → RowValue
  | some bits => .float64 bits
  | none => .null

def histPointRow (ctx : PointContext) (dp : HistogramDataPoint) (histTemporality : Int32) :
    Except OtelPanic (List RowValue) := do
  let entityRefs ← entityrefsToRowvalueArray ctx.resourceEntityRefs ctx.resourceAttrs
  return commonValues "histogram" ctx entityRefs dp.startTimeUnixNano dp.timeUnixNano dp.attributes ++
    [.null, .null, .null, .null, .null, .int64 dp.count.toInt64, optionalFloat64 dp.sum, optionalFloat64 dp.min,
      optionalFloat64 dp.max, .array (dp.explicitBounds.map .float64),
      .array (dp.bucketCounts.map fun v => .int64 v.toInt64), .int32 histTemporality]

def metricRows (ctx : PointContext) : Except OtelPanic (List (List RowValue)) :=
  match ctx.metric.data with
  | some (.gauge dataPoints) => dataPoints.mapM fun dp => numberPointRow "gauge" ctx dp (-1) false
  | some (.sum dataPoints temporality isMonotonic) =>
    dataPoints.mapM fun dp => numberPointRow "sum" ctx dp temporality isMonotonic
  | some (.histogram dataPoints temporality) => dataPoints.mapM fun dp => histPointRow ctx dp temporality
  | some .other | none => .ok []

/-- A resource that is missing has no attributes and no references. -/
def pointContext (rm : ResourceMetrics) (sm : ScopeMetrics) (metric : Metric) : PointContext where
  metric
  resourceAttrs := (rm.resource.map (·.attributes)).getD []
  resourceEntityRefs := (rm.resource.map (·.entityRefs)).getD []
  scopeName := (sm.scope.map (·.name)).getD ""
  scopeAttrs := (sm.scope.map (·.attributes)).getD []

def scopeRows (rm : ResourceMetrics) (sm : ScopeMetrics) : Except OtelPanic (List (List RowValue)) :=
  collectM (fun metric => metricRows (pointContext rm sm metric)) sm.metrics

def resourceRows (rm : ResourceMetrics) : Except OtelPanic (List (List RowValue)) :=
  collectM (scopeRows rm) rm.scopeMetrics

/-- The rows of all data points of a request. -/
def exportMetricsToMoonlinkRows (req : ExportRequest) : Except OtelPanic (List (List RowValue)) :=
  collectM resourceRows req.resourceMetrics

end Moonlink.Otel
