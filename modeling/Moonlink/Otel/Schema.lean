-- SUMMARY: The schema of the tables for OTLP metrics, by metric type.
import Moonlink.Otel.Request
import Moonlink.Row.ColumnArray

/-!
# The schema of metrics tables

One schema for gauges and sums, and one with more columns for histograms. The names of nested
fields and the field ids are left out.
-/

namespace Moonlink.Otel

open Row

/-- string_value, int_value, double_value, bool_value, bytes_value. -/
def anyValueStruct (nullable : Bool) : Field :=
  .struct nullable [.leaf true .utf8, .leaf true .int64, .leaf true .float64, .leaf true .boolean, .leaf true .binary]

/-- `attributes_field` and `kv_pairs_field`: a list of keys with values. -/
def attributesField : Field := .list .list true (.struct true [.leaf false .utf8, anyValueStruct true])

/-- type, id_pairs, description_pairs, schema_url. -/
def entityRefStruct (nullable : Bool) : Field :=
  .struct nullable [.leaf true .utf8, attributesField, attributesField, .leaf true .utf8]

def entityRefsField : Field := .list .list true (entityRefStruct true)

/-- time_unix_nano, as_int, as_double, trace_id, span_id, filtered_attributes. -/
def exemplarStruct (nullable : Bool) : Field :=
  .struct nullable [.leaf false .int64, .leaf true .int64, .leaf true .float64, .leaf true (.fixedSizeBinary 16),
    .leaf true (.fixedSizeBinary 8), attributesField]

/-- A column: its name, and its type with whether it has nulls. -/
abbrev Column : Type := String × Field

def commonMetricFields : List Column :=
  [("kind", .leaf false .utf8), ("resource_attributes", attributesField), ("resource_entity_refs", entityRefsField),
    ("resource_dropped_attributes_count", .leaf true .int64), ("resource_schema_url", .leaf true .utf8),
    ("scope_name", .leaf true .utf8), ("scope_version", .leaf true .utf8), ("scope_attributes", attributesField),
    ("scope_dropped_attributes_count", .leaf true .int64), ("scope_schema_url", .leaf true .utf8),
    ("metric_name", .leaf false .utf8), ("metric_description", .leaf true .utf8), ("metric_unit", .leaf true .utf8),
    ("start_time_unix_nano", .leaf true .int64), ("time_unix_nano", .leaf false .int64),
    ("point_attributes", attributesField), ("point_dropped_attributes_count", .leaf true .int64)]

def numberPointFields : List Column :=
  [("number_int", .leaf true .int64), ("number_double", .leaf true .float64), ("temporality", .leaf true .int32),
    ("is_monotonic", .leaf true .boolean), ("exemplars", .list .list true (exemplarStruct true))]

def histogramPointFields : List Column :=
  [("hist_count", .leaf true .int64), ("hist_sum", .leaf true .float64), ("hist_min", .leaf true .float64),
    ("hist_max", .leaf true .float64), ("explicit_bounds", .list .list true (.leaf true .float64)),
    ("bucket_counts", .list .list true (.leaf true .int64)), ("hist_temporality", .leaf true .int32),
    ("hist_exemplars", .list .list true (exemplarStruct true))]

def otlpMetricsGshSchema (metricType : MetricsType) : List Column :=
  commonMetricFields ++ numberPointFields ++ if metricType = .histogram then histogramPointFields else []

/-- The row has the columns of the schema: a value for each of them, of its type, with nulls where
the schema has them. -/
def Conforms (metricType : MetricsType) (row : List RowValue) : Prop :=
  Field.AllHave ((otlpMetricsGshSchema metricType).map (·.2)) row

end Moonlink.Otel
