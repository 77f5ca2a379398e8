-- SUMMARY: Which requests are converted to rows of the tables' schemas.
import Moonlink.Otel.Rows
import Moonlink.Otel.Schema

namespace Moonlink.Otel

open Lib Row

/-! ## Values of fields -/

section Has

variable {nullable : Bool} {vals : List RowValue}

@[simp] theorem allHave_nil_iff : Field.AllHave [] vals ↔ vals = [] := by
  rw [Field.AllHave]

variable {fs : List Field}

@[simp] theorem allHave_cons_iff {f : Field} {v : RowValue} :
    Field.AllHave (f :: fs) (v :: vals) ↔ f.Has v ∧ (v = .null → f.isNullable = true) ∧ Field.AllHave fs vals := by
  rw [Field.AllHave]
  constructor
  · rintro ⟨_, _, ⟨⟩, h⟩
    exact h
  · exact fun h => ⟨v, vals, rfl, h⟩

theorem length_of_allHave (h : Field.AllHave fs vals) :
    vals.length = fs.length := by
  induction fs generalizing vals with
  | nil => rw [allHave_nil_iff.mp h]; rfl
  | cons f fs ih =>
    rw [Field.AllHave] at h
    obtain ⟨v, rest, rfl, -, -, hrest⟩ := h
    rw [List.length_cons, List.length_cons, ih hrest]

@[simp] theorem leaf_isNullable {type : LeafType} : (Field.leaf nullable type).isNullable = nullable := rfl

@[simp] theorem list_isNullable {kind : ListKind} {item : Field} : (Field.list kind nullable item).isNullable = nullable :=
  rfl

@[simp] theorem struct_isNullable : (Field.struct nullable fs).isNullable = nullable := rfl

@[simp] theorem has_null {f : Field} : f.Has .null := by cases f <;> exact .inl rfl

@[simp] theorem leaf_has_iff {type : LeafType} {v : RowValue} :
    (Field.leaf nullable type).Has v ↔ v = .null ∨ type.Has v := by rw [Field.Has]

@[simp] theorem list_has_array_iff {item : Field} {items : List RowValue} :
    (Field.list .list nullable item).Has (.array items) ↔
      ∀ w ∈ items, item.Has w ∧ (w = .null → item.isNullable = true) := by
  simp [Field.Has]

@[simp] theorem struct_has_struct_iff :
    (Field.struct nullable fs).Has (.struct vals) ↔ Field.AllHave fs vals := by
  simp [Field.Has]

end Has

/-! ## Attributes and entity references -/

section Leaves

@[simp] theorem int32_has {x : Int32} : LeafType.int32.Has (.int32 x) := trivial

@[simp] theorem int64_has {x : Int64} : LeafType.int64.Has (.int64 x) := trivial

@[simp] theorem float64_has {bits : UInt64} : LeafType.float64.Has (.float64 bits) := trivial

@[simp] theorem boolean_has {x : Bool} : LeafType.boolean.Has (.bool x) := trivial

@[simp] theorem binary_has {bytes : ByteArray} : LeafType.binary.Has (.byteArray bytes) := trivial

@[simp] theorem utf8_has_text {s : String} : LeafType.utf8.Has (text s) := s.isValidUTF8

end Leaves

@[simp] theorem text_ne_null {s : String} : text s ≠ .null := by simp [text]

@[simp] theorem utf8_has_optionalText {s : String} : optionalText s = .null ∨ LeafType.utf8.Has (optionalText s) := by
  unfold optionalText
  split
  · exact .inl rfl
  · exact .inr utf8_has_text

@[simp] theorem anyValueStruct_isNullable {nullable : Bool} : (anyValueStruct nullable).isNullable = nullable := rfl

@[simp] theorem anyvalueToStruct_has {v : Option AnyValue} {nullable : Bool} :
    (anyValueStruct nullable).Has (anyvalueToStruct v) := by
  unfold anyvalueToStruct
  split <;> simp [anyValueStruct]

@[simp] theorem keyValueStruct_has {key : String} {value : Option AnyValue} :
    (Field.struct true [.leaf false .utf8, anyValueStruct true]).Has (keyValueStruct key value) := by
  simp [keyValueStruct]

@[simp] theorem attributesField_has_map {α : Type} {key : α → String} {value : α → Option AnyValue} {as : List α} :
    attributesField.Has (.array (as.map fun a => keyValueStruct (key a) (value a))) := by
  simp [attributesField]

@[simp] theorem attributesField_has {kvs : List KeyValue} : attributesField.Has (kvsToRowvalueArrayAnyvalue kvs) :=
  attributesField_has_map

@[simp] theorem attributesField_isNullable : attributesField.isNullable = true := rfl

/-- The keys of the attributes that have a value. -/
def valueKeys (attrs : List KeyValue) : List String := (attrs.filter fun kv => kv.value.isSome).map (·.key)

variable {attrs : List KeyValue}

theorem foldlM_insertAttr_iff {m : AssocMap String AnyValue} :
    (∃ m', attrs.foldlM insertAttr m = .ok m') ↔
      (valueKeys attrs).Nodup ∧ ∀ key ∈ valueKeys attrs, m.lookup key = none := by
  induction attrs generalizing m with
  | nil => exact ⟨fun _ => by simp [valueKeys], fun _ => ⟨m, rfl⟩⟩
  | cons kv attrs ih =>
    rw [List.foldlM_cons, insertAttr]
    cases hvalue : kv.value with
    | none =>
      have hkeys : valueKeys (kv :: attrs) = valueKeys attrs := by simp [valueKeys, hvalue]
      rw [hkeys]
      exact ih
    | some v =>
      have hkeys : valueKeys (kv :: attrs) = kv.key :: valueKeys attrs := by simp [valueKeys, hvalue]
      rw [hkeys, List.nodup_cons, List.forall_mem_cons]
      cases hlookup : m.lookup kv.key with
      | some w => simp [bind, Except.bind]
      | none =>
        refine ih.trans ?_
        simp only [AssocMap.lookup_insert_ite]
        grind

/-- The map is built unless a key comes twice. -/
theorem attrMap_returns_iff : (∃ m, attrMap attrs = .ok m) ↔ (valueKeys attrs).Nodup := by
  refine foldlM_insertAttr_iff.trans ⟨And.left, fun hnodup => ⟨hnodup, fun key _ => ?_⟩⟩
  exact AList.lookup_empty key

theorem entityrefs_has {entityRefs : List EntityRef} :
    Ensures (entityrefsToRowvalueArray entityRefs attrs) entityRefsField.Has := by
  refine .bind_any fun m => .pure ?_
  simp [entityRefsField, entityRefStruct]

theorem entityrefs_returns_iff (entityRefs : List EntityRef) :
    (∃ v, entityrefsToRowvalueArray entityRefs attrs = .ok v) ↔ (valueKeys attrs).Nodup := by
  rw [← attrMap_returns_iff]
  constructor
  · rintro ⟨_, hv⟩
    obtain ⟨m, hm, -⟩ := bind_eq_ok.mp hv
    exact ⟨m, hm⟩
  · rintro ⟨m, hm⟩
    exact ⟨_, by rw [entityrefsToRowvalueArray, hm]; rfl⟩

/-! ## Exemplars -/

@[simp] theorem int64_has_numberPair {value : Option NumberValue} :
    (numberPair value).1 = .null ∨ LeafType.int64.Has (numberPair value).1 := by
  unfold numberPair
  split <;> simp

@[simp] theorem float64_has_numberPair {value : Option NumberValue} :
    (numberPair value).2 = .null ∨ LeafType.float64.Has (numberPair value).2 := by
  unfold numberPair
  split <;> simp

/-- An id has the type of its column only if it is missing. -/
@[simp] theorem fixedSizeBinary_has_optionalBytes_iff {n : Nat} {bytes : ByteArray} :
    (optionalBytes bytes = .null ∨ (LeafType.fixedSizeBinary n).Has (optionalBytes bytes)) ↔ bytes.isEmpty = true := by
  unfold optionalBytes
  cases h : bytes.isEmpty with
  | true => simp
  | false => simp [LeafType.Has]

/-- Neither id of the exemplar is set. -/
def Exemplar.NoIds (e : Exemplar) : Prop := e.traceId.isEmpty = true ∧ e.spanId.isEmpty = true

instance {e : Exemplar} : Decidable e.NoIds := inferInstanceAs (Decidable (_ ∧ _))

theorem exemplars_has_iff {exemplars : List Exemplar} :
    (Field.list .list true (exemplarStruct true)).Has (exemplarsToRowvalueArray exemplars) ↔
      ∀ e ∈ exemplars, e.NoIds := by
  simp [exemplarsToRowvalueArray, exemplarStruct, Exemplar.NoIds]

/-! ## Rows -/

/-- The resource has a key for every attribute. -/
def PointContext.KeysDistinct (ctx : PointContext) : Prop := (valueKeys ctx.resourceAttrs).Nodup

variable {ctx : PointContext}

theorem numberPointRow_conforms_iff {metricType : MetricsType} (htype : metricType ≠ .histogram) {kind : String}
    {dp : NumberDataPoint} {temporality : Int32} {isMonotonic : Bool} :
    Returns (numberPointRow kind ctx dp temporality isMonotonic) (Conforms metricType) ↔
      ctx.KeysDistinct ∧ ∀ e ∈ dp.exemplars, e.NoIds := by
  have hvalues : ∀ entityRefs, entityRefsField.Has entityRefs →
      (Conforms metricType (commonValues kind ctx entityRefs dp.startTimeUnixNano dp.timeUnixNano dp.attributes ++
        [(numberPair dp.value).1, (numberPair dp.value).2, .int32 temporality, .bool isMonotonic,
          exemplarsToRowvalueArray dp.exemplars]) ↔ ∀ e ∈ dp.exemplars, e.NoIds) := by
    intro entityRefs hrefs
    have hnullable : entityRefsField.isNullable = true := rfl
    simp [Conforms, otlpMetricsGshSchema, htype, commonMetricFields, numberPointFields, commonValues, hrefs, hnullable,
      exemplars_has_iff]
  rw [numberPointRow, Returns.bind_iff, PointContext.KeysDistinct, ← entityrefs_returns_iff ctx.resourceEntityRefs]
  constructor
  · rintro ⟨entityRefs, href, _, ⟨⟩, hconforms⟩
    exact ⟨⟨entityRefs, href⟩, (hvalues entityRefs (entityrefs_has entityRefs href)).mp hconforms⟩
  · rintro ⟨⟨entityRefs, href⟩, hexemplars⟩
    exact ⟨entityRefs, href, .pure ((hvalues entityRefs (entityrefs_has entityRefs href)).mpr hexemplars)⟩

theorem histPointRow_not_conforms {dp : HistogramDataPoint} {histTemporality : Int32} :
    ¬ Returns (histPointRow ctx dp histTemporality) (Conforms .histogram) := by
  rintro ⟨_, hrow, hconforms⟩
  obtain ⟨entityRefs, -, heq⟩ := bind_eq_ok.mp hrow
  cases heq
  have hlength := length_of_allHave hconforms
  simp [commonValues, otlpMetricsGshSchema, commonMetricFields, numberPointFields, histogramPointFields] at hlength

/-! ## Requests -/

/-- A data point that is handled. -/
inductive PointData where
  | gauge (dp : NumberDataPoint)
  | sum (dp : NumberDataPoint) (temporality : Int32) (isMonotonic : Bool)
  | histogram (dp : HistogramDataPoint) (temporality : Int32)

namespace PointData

def metricType : PointData → MetricsType
  | gauge _ => .gauge
  | sum _ _ _ => .sum
  | histogram _ _ => .histogram

def attributes : PointData → List KeyValue
  | gauge dp => dp.attributes
  | sum dp _ _ => dp.attributes
  | histogram dp _ => dp.attributes

def exemplars : PointData → List Exemplar
  | gauge dp => dp.exemplars
  | sum dp _ _ => dp.exemplars
  | histogram dp _ => dp.exemplars

end PointData

/-- A data point with its resource, its scope and its metric. -/
structure DataPoint where
  resource : ResourceMetrics
  ctx : PointContext
  data : PointData

def DataPoint.row (p : DataPoint) : Except OtelPanic (List RowValue) :=
  match p.data with
  | .gauge dp => numberPointRow "gauge" p.ctx dp (-1) false
  | .sum dp temporality isMonotonic => numberPointRow "sum" p.ctx dp temporality isMonotonic
  | .histogram dp temporality => histPointRow p.ctx dp temporality

def metricPoints (rm : ResourceMetrics) (ctx : PointContext) : List DataPoint :=
  match ctx.metric.data with
  | some (.gauge dataPoints) => dataPoints.map fun dp => ⟨rm, ctx, .gauge dp⟩
  | some (.sum dataPoints temporality isMonotonic) => dataPoints.map fun dp => ⟨rm, ctx, .sum dp temporality isMonotonic⟩
  | some (.histogram dataPoints temporality) => dataPoints.map fun dp => ⟨rm, ctx, .histogram dp temporality⟩
  | some .other | none => []

def resourcePoints (rm : ResourceMetrics) : List DataPoint :=
  rm.scopeMetrics.flatMap fun sm => sm.metrics.flatMap fun metric => metricPoints rm (pointContext rm sm metric)

/-- The data points of a request that are handled, in order. -/
def ExportRequest.points (req : ExportRequest) : List DataPoint := req.resourceMetrics.flatMap resourcePoints

theorem metricRows_eq_mapM {rm : ResourceMetrics} :
    metricRows ctx = (metricPoints rm ctx).mapM (·.row) := by
  unfold metricRows metricPoints
  cases ctx.metric.data with
  | none => rfl
  | some data =>
    cases data with
    | gauge dataPoints => rw [List.mapM_map]; rfl
    | sum dataPoints temporality isMonotonic => rw [List.mapM_map]; rfl
    | histogram dataPoints temporality => rw [List.mapM_map]; rfl
    | other => rfl

/-- One row for each data point. -/
theorem export_eq_mapM {req : ExportRequest} : exportMetricsToMoonlinkRows req = req.points.mapM (·.row) := by
  apply collectM_eq_mapM
  intro rm
  apply collectM_eq_mapM
  intro sm
  apply collectM_eq_mapM
  intro metric
  exact metricRows_eq_mapM

/-! ## What a row holds -/

def numberCells (dp : NumberDataPoint) (temporality : Int32) (isMonotonic : Bool) : List (String × RowValue) :=
  [("start_time_unix_nano", .int64 dp.startTimeUnixNano.toInt64), ("time_unix_nano", .int64 dp.timeUnixNano.toInt64),
    ("number_int", (numberPair dp.value).1), ("number_double", (numberPair dp.value).2),
    ("temporality", .int32 temporality), ("is_monotonic", .bool isMonotonic),
    ("exemplars", exemplarsToRowvalueArray dp.exemplars)]

/-- The columns of its type, with what the point has for them. -/
def PointData.cells : PointData → List (String × RowValue)
  | gauge dp => numberCells dp (-1) false
  | sum dp temporality isMonotonic => numberCells dp temporality isMonotonic
  | histogram dp temporality =>
    [("start_time_unix_nano", .int64 dp.startTimeUnixNano.toInt64), ("time_unix_nano", .int64 dp.timeUnixNano.toInt64),
      ("hist_count", .int64 dp.count.toInt64), ("hist_sum", optionalFloat64 dp.sum),
      ("hist_min", optionalFloat64 dp.min), ("hist_max", optionalFloat64 dp.max),
      ("explicit_bounds", .array (dp.explicitBounds.map .float64)),
      ("bucket_counts", .array (dp.bucketCounts.map fun v => .int64 v.toInt64)), ("hist_temporality", .int32 temporality)]

/-- Each column has what the point, its metric, its scope or its resource say. -/
theorem row_cells {p : DataPoint} {row : List RowValue} (h : p.row = .ok row) :
    ∀ c ∈ ("metric_name", text p.ctx.metric.name) :: ("metric_unit", text p.ctx.metric.unit) ::
      ("resource_attributes", kvsToRowvalueArrayAnyvalue p.ctx.resourceAttrs) :: ("scope_name", text p.ctx.scopeName) ::
      ("scope_attributes", kvsToRowvalueArrayAnyvalue p.ctx.scopeAttrs) ::
      ("point_attributes", kvsToRowvalueArrayAnyvalue p.data.attributes) :: p.data.cells,
      row[((otlpMetricsGshSchema p.data.metricType).map (·.1)).idxOf c.1]? = some c.2 := by
  obtain ⟨rm, ctx, data⟩ := p
  cases data with
  | _ =>
    obtain ⟨entityRefs, -, hrow⟩ := bind_eq_ok.mp h
    cases hrow
    simp only [PointData.cells, numberCells, List.forall_mem_cons]
    repeat' constructor
    simp

/-! ## Rows of the schema -/

/-- The point is in no histogram, the attributes of its resource have different keys, and its exemplars have
no ids. -/
structure DataPoint.Fitting (p : DataPoint) : Prop where
  notHistogram : p.data.metricType ≠ .histogram
  keysDistinct : p.ctx.KeysDistinct
  noIds : ∀ e ∈ p.data.exemplars, e.NoIds

theorem row_conforms_iff {p : DataPoint} : Returns p.row (Conforms p.data.metricType) ↔ p.Fitting := by
  obtain ⟨rm, ctx, data⟩ := p
  cases data with
  | gauge dp =>
    have htype : MetricsType.gauge ≠ .histogram := by decide
    exact (numberPointRow_conforms_iff htype).trans ⟨fun h => ⟨htype, h.1, h.2⟩, fun h => ⟨h.keysDistinct, h.noIds⟩⟩
  | sum dp temporality isMonotonic =>
    have htype : MetricsType.sum ≠ .histogram := by decide
    exact (numberPointRow_conforms_iff htype).trans ⟨fun h => ⟨htype, h.1, h.2⟩, fun h => ⟨h.keysDistinct, h.noIds⟩⟩
  | histogram dp temporality => exact iff_of_false histPointRow_not_conforms fun h => h.notHistogram rfl

/-- Every data point has a row of the schema of its type. -/
def ConvertsWell (req : ExportRequest) : Prop :=
  Returns (exportMetricsToMoonlinkRows req) (List.Forall₂ (fun p => Conforms p.data.metricType) req.points)

theorem convertsWell_iff_fitting (req : ExportRequest) : ConvertsWell req ↔ ∀ p ∈ req.points, p.Fitting := by
  rw [ConvertsWell, export_eq_mapM, returns_mapM_iff]
  exact forall₂_congr fun p _ => row_conforms_iff

/-- One histogram point without attributes and buckets. -/
def oneHistogram : ExportRequest :=
  ⟨[⟨none, [⟨none, [⟨"latency", "ms", some (.histogram [⟨[], 0, 1, 0, none, [], [], [], none, none⟩] 2)⟩]⟩]⟩]⟩

/-- Its row ends before the exemplars. -/
theorem oneHistogram_row_too_short : ¬ ConvertsWell oneHistogram := by
  rintro ⟨_, ⟨⟩, hrows⟩
  cases hrows with
  | cons hrow _ => exact absurd (length_of_allHave hrow) (by decide)

end Moonlink.Otel
