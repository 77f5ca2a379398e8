-- SUMMARY: OTLP metrics requests: resources, scopes, metrics and data points with their attributes.
import Moonlink.Lib.AssocMap

/-!
# OTLP metrics requests

The messages of the OpenTelemetry protocol, with the fields that the metrics handler reads. Nearly
every field of a message is optional or repeated. Floating-point numbers are their bits.
-/

namespace Moonlink.Otel

inductive AnyValue where
  /-- No value is set. -/
  | unset
  | stringValue (s : String)
  | boolValue (b : Bool)
  | intValue (i : Int64)
  | doubleValue (bits : UInt64)
  | arrayValue (values : List AnyValue)
  | kvlistValue (values : List (String × Option AnyValue))
  | bytesValue (bytes : ByteArray)

structure KeyValue where
  key : String
  value : Option AnyValue

structure EntityRef where
  schemaUrl : String
  type : String
  idKeys : List String
  descriptionKeys : List String

structure Resource where
  attributes : List KeyValue
  entityRefs : List EntityRef

structure InstrumentationScope where
  name : String
  attributes : List KeyValue

/-- The value of a number data point or of an exemplar. -/
inductive NumberValue where
  | asDouble (bits : UInt64)
  | asInt (i : Int64)

structure Exemplar where
  filteredAttributes : List KeyValue
  timeUnixNano : UInt64
  value : Option NumberValue
  spanId : ByteArray
  traceId : ByteArray

structure NumberDataPoint where
  attributes : List KeyValue
  startTimeUnixNano : UInt64
  timeUnixNano : UInt64
  exemplars : List Exemplar
  value : Option NumberValue

structure HistogramDataPoint where
  attributes : List KeyValue
  startTimeUnixNano : UInt64
  timeUnixNano : UInt64
  count : UInt64
  sum : Option UInt64
  bucketCounts : List UInt64
  explicitBounds : List UInt64
  exemplars : List Exemplar
  min : Option UInt64
  max : Option UInt64

inductive MetricData where
  | gauge (dataPoints : List NumberDataPoint)
  | sum (dataPoints : List NumberDataPoint) (aggregationTemporality : Int32) (isMonotonic : Bool)
  | histogram (dataPoints : List HistogramDataPoint) (aggregationTemporality : Int32)
  /-- An exponential histogram or a summary, which are not handled. -/
  | other

structure Metric where
  name : String
  unit : String
  data : Option MetricData

structure ScopeMetrics where
  scope : Option InstrumentationScope
  metrics : List Metric

structure ResourceMetrics where
  resource : Option Resource
  scopeMetrics : List ScopeMetrics

/-- `ExportMetricsServiceRequest`. -/
structure ExportRequest where
  resourceMetrics : List ResourceMetrics

inductive MetricsType where
  | histogram
  | gauge
  | sum
  deriving DecidableEq, Repr

/-- `Display` of a type. -/
def MetricsType.name : MetricsType → String
  | histogram => "histogram"
  | gauge => "gauge"
  | sum => "sum"

end Moonlink.Otel
