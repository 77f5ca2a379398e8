-- SUMMARY: The metrics handler: which tables a request is routed to, and the rows that are inserted into them.
import Moonlink.Otel.Rows

/-!
# The metrics handler

A request is routed to a table for every table id among the attributes of its data points. The
names of the tables that exist are kept. The backend creates the others, and it may fail to; then the
request fails with it. The rows that are given to `insert_row` are recorded with their tables.
-/

namespace Moonlink.Otel

open Row

structure WrappedExportRequest where
  targetMooncakeTableId : String
  metricType : MetricsType
  request : ExportRequest

def anyvalueAsStr : AnyValue → Option String
  | .stringValue s => some s
  | _ => none

/-- `MOONCAKE_TABLE_ID_KEY`. -/
def mooncakeTableIdKey : String := "moonlink.mooncake_table_id"

/-- The strings among the values of a key. -/
def stringValues (key : String) (attrs : List KeyValue) : List String :=
  attrs.filterMap fun attr => if attr.key = key then attr.value.bind anyvalueAsStr else none

def targetTable (serviceName mooncakeTableId : String) (metricType : MetricsType) (metricName : String) : String :=
  serviceName ++ "." ++ mooncakeTableId ++ "." ++ metricType.name ++ "." ++ metricName

/-- The attributes of the data points are given. -/
def handleDataPoints (serviceName metricName : String) (metricType : MetricsType) (dps : List (List KeyValue))
    (req : ExportRequest) : List WrappedExportRequest :=
  dps.flatMap fun attrs => (stringValues mooncakeTableIdKey attrs).map fun mooncakeTableId =>
    { targetMooncakeTableId := targetTable serviceName mooncakeTableId metricType metricName
      metricType
      request := req }

def handleMetric (serviceName : String) (metric : Metric) (req : ExportRequest) : List WrappedExportRequest :=
  match metric.data with
  | some (.gauge dps) => handleDataPoints serviceName metric.name .gauge (dps.map (·.attributes)) req
  | some (.sum dps _ _) => handleDataPoints serviceName metric.name .sum (dps.map (·.attributes)) req
  | some (.histogram dps _) => handleDataPoints serviceName metric.name .histogram (dps.map (·.attributes)) req
  | some .other | none => []

/-- The last name in the attributes of the resource. Without one, the name stays. -/
def updateServiceName (serviceName : String) (rm : ResourceMetrics) : String :=
  ((rm.resource.map fun resource => stringValues "service.name" resource.attributes).getD []).getLastD serviceName

/-- The service name is kept from one resource to the next. -/
def handleResources (req : ExportRequest) : String → List ResourceMetrics → List WrappedExportRequest
  | _, [] => []
  | serviceName, rm :: rms =>
    let serviceName := updateServiceName serviceName rm
    (rm.scopeMetrics.flatMap fun sm => sm.metrics.flatMap fun metric => handleMetric serviceName metric req) ++
      handleResources req serviceName rms

def unknownService : String := "unknown_service"

def getExportRequests (req : ExportRequest) : List WrappedExportRequest :=
  handleResources req unknownService req.resourceMetrics

inductive HandleError (ε : Type) where
  /-- The error of the backend. -/
  | create (e : ε)
  | panic (p : OtelPanic)

structure MetricsHandler where
  tables : List String
  /-- The calls to `insert_row`. -/
  inserted : List (String × List RowValue)

namespace MetricsHandler

variable {ε : Type}

/-- The outcome of `create_table` for a name and a type. -/
def createTableForOnce (create : String → MetricsType → Except ε Unit) (h : MetricsHandler) (mooncakeTableId : String)
    (metricType : MetricsType) : Except (HandleError ε) MetricsHandler :=
  if mooncakeTableId ∈ h.tables then .ok h
  else
    match create mooncakeTableId metricType with
    | .error e => .error (.create e)
    | .ok () => .ok { h with tables := mooncakeTableId :: h.tables }

/-- All rows of the request. -/
def insertRows (h : MetricsHandler) (wrapped : WrappedExportRequest) : Except (HandleError ε) MetricsHandler :=
  match exportMetricsToMoonlinkRows wrapped.request with
  | .error p => .error (.panic p)
  | .ok rows => .ok { h with inserted := h.inserted ++ rows.map fun row => (wrapped.targetMooncakeTableId, row) }

/-- What was done for a request is kept when it fails. -/
def handleWrapped (create : String → MetricsType → Except ε Unit) :
    MetricsHandler → List WrappedExportRequest → Except (HandleError ε) Unit × MetricsHandler
  | h, [] => (.ok (), h)
  | h, wrapped :: rest =>
    match h.createTableForOnce create wrapped.targetMooncakeTableId wrapped.metricType with
    | .error e => (.error e, h)
    | .ok h =>
      match h.insertRows wrapped with
      | .error e => (.error e, h)
      | .ok h => handleWrapped create h rest

def handleRequest (create : String → MetricsType → Except ε Unit) (h : MetricsHandler) (request : ExportRequest) :
    Except (HandleError ε) Unit × MetricsHandler :=
  h.handleWrapped create (getExportRequests request)

end MetricsHandler

end Moonlink.Otel
