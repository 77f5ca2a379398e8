-- SUMMARY: When the statistics that are collected from a footer are true of the file: sizes and counts are sums, and bounds are sound only if the chunks agree.
import Moonlink.Iceberg.ParquetStats

namespace Moonlink.Iceberg

open Lib Lib.Grouping Storage

variable {V : Type} {valid : PrimitiveType → PhysicalType → V → Bool} {schema : TableSchema}
  {index : IndexByParquetPathName}

/-! ## The chunks of a field -/

def fieldChunks (index : IndexByParquetPathName) (fieldId : Int) (chunks : List (ColumnChunk V)) : List (ColumnChunk V) :=
  chunks.filter fun c => ColumnMetrics.fieldOf index c = some fieldId

variable {chunks : List (ColumnChunk V)} {c : ColumnChunk V}

theorem mem_fieldChunks {fieldId : Int} :
    c ∈ fieldChunks index fieldId chunks ↔ c ∈ chunks ∧ ColumnMetrics.fieldOf index c = some fieldId := by
  simp [fieldChunks]

/-- What the chunks contribute to a map of their fields. -/
def fieldEntries {β : Type} (index : IndexByParquetPathName) (g : Int → ColumnChunk V → Option β)
    (chunks : List (ColumnChunk V)) : List (Int × β) :=
  chunks.flatMap (entriesBy (ColumnMetrics.fieldOf index) g)

theorem fieldEntries_concat {β : Type} (g : Int → ColumnChunk V → Option β) (chunks : List (ColumnChunk V))
    (c : ColumnChunk V) :
    fieldEntries index g (chunks ++ [c]) = fieldEntries index g chunks ++ entriesBy (ColumnMetrics.fieldOf index) g c := by
  rw [fieldEntries, List.flatMap_append, List.flatMap_singleton]
  rfl

theorem valuesOf_fieldEntries {β : Type} (g : Int → ColumnChunk V → Option β) (fieldId : Int)
    (chunks : List (ColumnChunk V)) :
    valuesOf fieldId (fieldEntries index g chunks) = (fieldChunks index fieldId chunks).filterMap (g fieldId) :=
  valuesOf_entriesBy _ g fieldId chunks

/-- The minimum of a chunk, if the statistics have it exactly and the field has bounds. -/
def exactMin (schema : TableSchema) (fieldId : Int) (c : ColumnChunk V) : Option V :=
  match TableSchema.fieldById schema fieldId with
  | some (.primitive _) => c.statistics.bind fun s => if s.minIsExact then s.min else none
  | _ => none

def exactMax (schema : TableSchema) (fieldId : Int) (c : ColumnChunk V) : Option V :=
  match TableSchema.fieldById schema fieldId with
  | some (.primitive _) => c.statistics.bind fun s => if s.maxIsExact then s.max else none
  | _ => none

def nullCount (c : ColumnChunk V) : Option Nat := c.statistics.bind (·.nullCount)

theorem exactMin_eq_some {fieldId : Int} {d : V} (h : exactMin schema fieldId c = some d) :
    ∃ s ∈ c.statistics, s.minIsExact ∧ d ∈ s.min := by
  unfold exactMin at h
  split at h
  · obtain ⟨s, hs, hmin⟩ := Option.bind_eq_some_iff.mp h
    split at hmin
    · rename_i hexact
      exact ⟨s, hs, hexact, hmin⟩
    · cases hmin
  · cases h

theorem exactMax_eq_some {fieldId : Int} {d : V} (h : exactMax schema fieldId c = some d) :
    ∃ s ∈ c.statistics, s.maxIsExact ∧ d ∈ s.max := by
  unfold exactMax at h
  split at h
  · obtain ⟨s, hs, hmax⟩ := Option.bind_eq_some_iff.mp h
    split at hmax
    · rename_i hexact
      exact ⟨s, hs, hexact, hmax⟩
    · cases hmax
  · cases h

/-! ## Bounds and null counts of the chunks of a field -/

/-- A bound is taken from the exact extremes of some chunks; `r` says that a value is beyond another one.
The bound is right for the whole field exactly if the extremes agree and the other chunks have nothing beyond. -/
theorem bound_sound_iff {r : V → V → Prop} [DecidableRel r] [IsStrictTotalOrder V r]
    {exact : ColumnChunk V → Option V}
    (htrue : ∀ c ∈ chunks, ∀ d, exact c = some d → d ∈ c.values ∧ ∀ v ∈ c.values, ¬ r v d) :
    (∀ d, foldValues (fun e b => if r e b then b else e) (chunks.filterMap exact) = some d →
      ∀ c ∈ chunks, ∀ v ∈ c.values, ¬ r v d) ↔
    ∀ c ∈ chunks, ∀ d, exact c = some d → ∀ c' ∈ chunks,
      (∀ d', exact c' = some d' → d' = d) ∧ (exact c' = none → ∀ v ∈ c'.values, ¬ r v d) := by
  constructor
  · intro hsound c hc d hd
    have hmem : d ∈ chunks.filterMap exact := List.mem_filterMap.mpr ⟨c, hc, hd⟩
    obtain ⟨bound, hbound⟩ := foldValues_isSome (f := fun e b => if r e b then b else e) hmem
    obtain ⟨-, hextreme⟩ := foldValues_extreme hbound
    -- Every extreme is a value of its chunk, so it is neither beyond the bound nor short of it.
    have heq : ∀ c' ∈ chunks, ∀ d', exact c' = some d' → d' = bound := by
      intro c' hc' d' hd'
      have hshort := hextreme d' (List.mem_filterMap.mpr ⟨c', hc', hd'⟩)
      have hbeyond := hsound bound hbound c' hc' d' (htrue c' hc' d' hd').1
      rcases trichotomous_of r d' bound with hlt | heq | hgt
      · exact absurd hlt hbeyond
      · exact heq
      · exact absurd hgt hshort
    obtain rfl := heq c hc d hd
    exact fun c' hc' => ⟨heq c' hc', fun _ => hsound d hbound c' hc'⟩
  · intro hagree bound hbound c' hc' v hv
    obtain ⟨hmem, -⟩ := foldValues_extreme hbound
    obtain ⟨c, hc, hd⟩ := List.mem_filterMap.mp hmem
    obtain ⟨hsame, hnone⟩ := hagree c hc bound hd c' hc'
    cases hexact : exact c' with
    | none => exact hnone hexact v hv
    | some d' =>
      obtain rfl := hsame d' hexact
      exact (htrue c' hc' d' hexact).2 v hv

/-- If a chunk of a field has its null count, those without one have no nulls. -/
def NullsCounted (chunks : List (ColumnChunk V)) : Prop :=
  (∃ c ∈ chunks, (nullCount c).isSome) → ∀ c ∈ chunks, nullCount c = none → c.nulls = 0

/-- The counted nulls are all nulls exactly if the chunks without a count have none. -/
theorem sum_nullCounts_iff (htrue : ∀ c ∈ chunks, ∀ n, nullCount c = some n → n = c.nulls) :
    (chunks.filterMap nullCount).sum = (chunks.map (·.nulls)).sum ↔
      ∀ c ∈ chunks, nullCount c = none → c.nulls = 0 := by
  have hle : ∀ chunks : List (ColumnChunk V), (∀ c ∈ chunks, ∀ n, nullCount c = some n → n = c.nulls) →
      (chunks.map (·.nulls)).sum = (chunks.filterMap nullCount).sum +
        ((chunks.filter fun c => nullCount c = none).map (·.nulls)).sum := by
    intro chunks htrue
    induction chunks with
    | nil => rfl
    | cons c chunks ih =>
      have hrest := ih fun c hc => htrue c (List.mem_cons_of_mem _ hc)
      have hhead := htrue c List.mem_cons_self
      cases hn : nullCount c with
      | none => simp [hn, hrest]; omega
      | some n => simp [hn, hrest, hhead n hn]; omega
  rw [hle chunks htrue, left_eq_add, List.sum_eq_zero_iff_forall_eq_nat]
  simp only [List.forall_mem_map, List.mem_filter, decide_eq_true_eq, and_imp]

/-! ## The loop -/

theorem getParquetStatAsDatum_ensures (ty : PrimitiveType) (physicalType : PhysicalType) (value : Option V) :
    Ensures (getParquetStatAsDatum valid ty physicalType value) fun datum => ∀ d, datum = some d → value = some d := by
  unfold getParquetStatAsDatum
  split
  · cases value with
    | none => exact .ok fun d h => by cases h
    | some v =>
      dsimp only
      split
      · exact .ok fun d h => h
      · exact .error
  · exact .ok fun d h => by cases h

variable [LinearOrder V]

/-- The larger of two minima is kept. -/
def keepMin (e datum : V) : V := if e < datum then datum else e

/-- The smaller of two maxima is kept. -/
def keepMax (e datum : V) : V := if e > datum then datum else e

theorem updateMin_ensures (agg : MinMaxColAggregator V) (fieldId : Int) (ty : PrimitiveType)
    (physicalType : PhysicalType) (s : ParquetStatistics V) :
    Ensures (agg.updateMin valid fieldId ty physicalType s) fun agg' => agg'.upperBounds = agg.upperBounds ∧
      agg'.lowerBounds = ((if s.minIsExact then s.min else none).map fun b => (fieldId, b)).toList.foldl
        (fun m e => combine keepMin m e.1 e.2) agg.lowerBounds := by
  unfold MinMaxColAggregator.updateMin
  split
  · refine (getParquetStatAsDatum_ensures ty physicalType s.min).bind fun datum hdatum => ?_
    cases datum with
    | none => exact .error
    | some d =>
      rw [hdatum d rfl]
      exact .pure ⟨rfl, rfl⟩
  · exact .pure ⟨rfl, rfl⟩

theorem updateMax_ensures (agg : MinMaxColAggregator V) (fieldId : Int) (ty : PrimitiveType)
    (physicalType : PhysicalType) (s : ParquetStatistics V) :
    Ensures (agg.updateMax valid fieldId ty physicalType s) fun agg' => agg'.lowerBounds = agg.lowerBounds ∧
      agg'.upperBounds = ((if s.maxIsExact then s.max else none).map fun b => (fieldId, b)).toList.foldl
        (fun m e => combine keepMax m e.1 e.2) agg.upperBounds := by
  unfold MinMaxColAggregator.updateMax
  split
  · refine (getParquetStatAsDatum_ensures ty physicalType s.max).bind fun datum hdatum => ?_
    cases datum with
    | none => exact .error
    | some d =>
      rw [hdatum d rfl]
      exact .pure ⟨rfl, rfl⟩
  · exact .pure ⟨rfl, rfl⟩

theorem update_ensures (agg : MinMaxColAggregator V) (fieldId : Int) (c : ColumnChunk V) {s : ParquetStatistics V}
    (hs : c.statistics = some s) :
    Ensures (agg.update valid schema fieldId c.physicalType s) fun agg' =>
      agg'.lowerBounds = ((exactMin schema fieldId c).map fun b => (fieldId, b)).toList.foldl
        (fun m e => combine keepMin m e.1 e.2) agg.lowerBounds ∧
      agg'.upperBounds = ((exactMax schema fieldId c).map fun b => (fieldId, b)).toList.foldl
        (fun m e => combine keepMax m e.1 e.2) agg.upperBounds := by
  unfold MinMaxColAggregator.update exactMin exactMax
  cases TableSchema.fieldById schema fieldId with
  | none => exact .pure ⟨rfl, rfl⟩
  | some fieldType =>
    cases fieldType with
    | struct | list | map => exact .error
    | primitive ty =>
      rw [hs]
      refine (updateMin_ensures agg fieldId ty c.physicalType s).bind fun agg₁ hmin => ?_
      refine (updateMax_ensures agg₁ fieldId ty c.physicalType s).mono fun agg₂ hmax => ?_
      exact ⟨hmax.1.trans hmin.2, hmin.1 ▸ hmax.2⟩

/-- The maps hold the folds of what the chunks contribute. -/
structure Collected (schema : TableSchema) (index : IndexByParquetPathName) (chunks : List (ColumnChunk V))
    (metrics : ColumnMetrics V) : Prop where
  columnSizes : Groups (· + ·) metrics.columnSizes (fieldEntries index (fun _ c => some c.compressedSize) chunks)
  valueCounts : Groups (· + ·) metrics.valueCounts (fieldEntries index (fun _ c => some c.numValues) chunks)
  nullValueCounts : Groups (· + ·) metrics.nullValueCounts (fieldEntries index (fun _ c => nullCount c) chunks)
  lowerBounds : Groups keepMin metrics.minMaxAgg.lowerBounds (fieldEntries index (exactMin schema) chunks)
  upperBounds : Groups keepMax metrics.minMaxAgg.upperBounds (fieldEntries index (exactMax schema) chunks)

theorem Collected.collect {metrics : ColumnMetrics V}
    (h : Collected schema index chunks metrics) (c : ColumnChunk V) :
    Ensures (metrics.collect valid schema index c) (Collected schema index (chunks ++ [c])) := by
  unfold ColumnMetrics.collect
  cases hfield : ColumnMetrics.fieldOf index c with
  | none =>
    refine .ok ⟨?_, ?_, ?_, ?_, ?_⟩ <;> rw [fieldEntries_concat, entriesBy_none hfield, List.append_nil]
    exacts [h.columnSizes, h.valueCounts, h.nullValueCounts, h.lowerBounds, h.upperBounds]
  | some fieldId =>
    have hsizes := h.columnSizes.combine fieldId c.compressedSize
    have hvalues := h.valueCounts.combine fieldId c.numValues
    cases hs : c.statistics with
    | none =>
      have hnulls : nullCount c = none := by rw [nullCount, hs, Option.bind_none]
      have hmin : exactMin schema fieldId c = none := by
        unfold exactMin
        split <;> simp [hs]
      have hmax : exactMax schema fieldId c = none := by
        unfold exactMax
        split <;> simp [hs]
      refine .pure ⟨?_, ?_, ?_, ?_, ?_⟩ <;> rw [fieldEntries_concat, entriesBy_some hfield]
      · exact hsizes
      · exact hvalues
      · simpa [hnulls] using h.nullValueCounts
      · simpa [hmin] using h.lowerBounds
      · simpa [hmax] using h.upperBounds
    | some s =>
      have hnulls : nullCount c = s.nullCount := by rw [nullCount, hs, Option.bind_some]
      have hcounted := h.nullValueCounts.combineAll (s.nullCount.map fun b => (fieldId, b)).toList
      dsimp only
      cases hn : s.nullCount <;>
      · refine (update_ensures metrics.minMaxAgg fieldId c hs).bind fun agg hagg => ?_
        refine .pure ⟨?_, ?_, ?_, ?_, ?_⟩ <;> rw [fieldEntries_concat, entriesBy_some hfield]
        · exact hsizes
        · exact hvalues
        · rw [hn] at hnulls hcounted
          rw [hnulls]
          exact hcounted
        · exact hagg.1 ▸ h.lowerBounds.combineAll _
        · exact hagg.2 ▸ h.upperBounds.combineAll _

theorem parquetToDataFileBuilder_ensures {file : ParquetMetadata V} {writtenSize : Nat} {filePath : String}
    {nanValueCounts : AssocMap Int Nat} {b : DataFileBuilder V}
    (h : parquetToDataFileBuilder valid schema file writtenSize filePath nanValueCounts = .ok b) :
    ∃ index, TableSchema.indexByParquetPath schema = .ok index ∧
      Collected schema index file.chunks
        ⟨b.columnSizes, b.valueCounts, b.nullValueCounts, b.lowerBounds, b.upperBounds⟩ := by
  obtain ⟨index, hindex, hloop⟩ := bind_eq_ok.mp h
  obtain ⟨metrics, hmetrics, hb⟩ := bind_eq_ok.mp hloop
  rw [file.foldlM_rowGroups] at hmetrics
  have hcollected : Ensures (file.chunks.foldlM (ColumnMetrics.collect valid schema index) .new)
      (Collected schema index file.chunks) :=
    .foldlM ⟨.empty, .empty, .empty, .empty, .empty⟩ fun done c rest metrics _ hdone => hdone.collect c
  cases hb
  exact ⟨index, hindex, hcollected metrics hmetrics⟩

/-! ## The data file -/

/-- The exact minima of a field are equal, and no value of its other chunks lies below them. -/
def MinimaAgree (schema : TableSchema) (fieldId : Int) (chunks : List (ColumnChunk V)) : Prop :=
  ∀ c ∈ chunks, ∀ d, exactMin schema fieldId c = some d → ∀ c' ∈ chunks,
    (∀ d', exactMin schema fieldId c' = some d' → d' = d) ∧
      (exactMin schema fieldId c' = none → ∀ v ∈ c'.values, d ≤ v)

/-- The exact maxima of a field are equal, and no value of its other chunks lies above them. -/
def MaximaAgree (schema : TableSchema) (fieldId : Int) (chunks : List (ColumnChunk V)) : Prop :=
  ∀ c ∈ chunks, ∀ d, exactMax schema fieldId c = some d → ∀ c' ∈ chunks,
    (∀ d', exactMax schema fieldId c' = some d' → d' = d) ∧
      (exactMax schema fieldId c' = none → ∀ v ∈ c'.values, v ≤ d)

/-- The recorded statistics are true of the values in the file. -/
structure DataFileBuilder.Sound (index : IndexByParquetPathName) (file : ParquetMetadata V) (b : DataFileBuilder V) :
    Prop where
  lower : ∀ fieldId d, b.lowerBounds.lookup fieldId = some d →
    ∀ c ∈ fieldChunks index fieldId file.chunks, ∀ v ∈ c.values, d ≤ v
  upper : ∀ fieldId d, b.upperBounds.lookup fieldId = some d →
    ∀ c ∈ fieldChunks index fieldId file.chunks, ∀ v ∈ c.values, v ≤ d
  columnSizes : ∀ fieldId n, b.columnSizes.lookup fieldId = some n →
    n = ((fieldChunks index fieldId file.chunks).map (·.compressedSize)).sum
  valueCounts : ∀ fieldId n, b.valueCounts.lookup fieldId = some n →
    n = ((fieldChunks index fieldId file.chunks).map (·.numValues)).sum
  nullValueCounts : ∀ fieldId n, b.nullValueCounts.lookup fieldId = some n →
    n = ((fieldChunks index fieldId file.chunks).map (·.nulls)).sum

/-- The bounds and null counts that the chunks of each field give fit together. -/
def ChunksAgree (schema : TableSchema) (index : IndexByParquetPathName) (file : ParquetMetadata V) : Prop :=
  ∀ fieldId, MinimaAgree schema fieldId (fieldChunks index fieldId file.chunks) ∧
    MaximaAgree schema fieldId (fieldChunks index fieldId file.chunks) ∧
    NullsCounted (fieldChunks index fieldId file.chunks)

section
variable {file : ParquetMetadata V} {writtenSize : Nat} {filePath : String} {nanValueCounts : AssocMap Int Nat}
  {b : DataFileBuilder V}

variable {chunks : List (ColumnChunk V)}

theorem lowerBounds_sound_iff {fieldId : Int} (htrue : ∀ c ∈ chunks, c.Truthful) :
    (∀ d, foldValues keepMin (chunks.filterMap (exactMin schema fieldId)) = some d →
      ∀ c ∈ chunks, ∀ v ∈ c.values, d ≤ v) ↔ MinimaAgree schema fieldId chunks := by
  have hexact : ∀ c ∈ chunks, ∀ d, exactMin schema fieldId c = some d → d ∈ c.values ∧ ∀ v ∈ c.values, ¬ v < d := by
    intro c hc d hd
    obtain ⟨s, hs, hflag, hmin⟩ := exactMin_eq_some hd
    simpa only [not_lt] using (htrue c hc).min s hs hflag d hmin
  have hiff := bound_sound_iff (r := (· < ·)) hexact
  simp only [not_lt] at hiff
  exact hiff

theorem upperBounds_sound_iff {fieldId : Int} (htrue : ∀ c ∈ chunks, c.Truthful) :
    (∀ d, foldValues keepMax (chunks.filterMap (exactMax schema fieldId)) = some d →
      ∀ c ∈ chunks, ∀ v ∈ c.values, v ≤ d) ↔ MaximaAgree schema fieldId chunks := by
  have hexact : ∀ c ∈ chunks, ∀ d, exactMax schema fieldId c = some d → d ∈ c.values ∧ ∀ v ∈ c.values, ¬ v > d := by
    intro c hc d hd
    obtain ⟨s, hs, hflag, hmax⟩ := exactMax_eq_some hd
    simpa only [not_lt] using (htrue c hc).max s hs hflag d hmax
  have hiff := bound_sound_iff (r := (· > ·)) hexact
  simp only [not_lt] at hiff
  exact hiff

theorem nullCounts_sound_iff (htrue : ∀ c ∈ chunks, c.Truthful) :
    (∀ n, foldValues (· + ·) (chunks.filterMap nullCount) = some n → n = (chunks.map (·.nulls)).sum) ↔
      NullsCounted chunks := by
  have hcount : ∀ c ∈ chunks, ∀ n, nullCount c = some n → n = c.nulls := by
    intro c hc n hn
    obtain ⟨s, hs, hcount⟩ := Option.bind_eq_some_iff.mp hn
    exact (htrue c hc).nullCount s hs n hcount
  have hiff := sum_nullCounts_iff hcount
  constructor
  · rintro hsum ⟨c, hc, hsome⟩
    obtain ⟨n, hn⟩ := Option.isSome_iff_exists.mp hsome
    obtain ⟨total, htotal⟩ := foldValues_isSome (f := (· + ·)) (List.mem_filterMap.mpr ⟨c, hc, hn⟩)
    exact hiff.mp (foldValues_add_eq_some htotal ▸ hsum total htotal)
  · intro hcounted n hn
    have hsome : ∃ c ∈ chunks, (nullCount c).isSome := by
      cases hnil : chunks.filterMap nullCount with
      | nil =>
        rw [hnil] at hn
        cases hn
      | cons m ms =>
        obtain ⟨c, hc, hm⟩ := List.mem_filterMap.mp (hnil ▸ List.mem_cons_self : m ∈ chunks.filterMap nullCount)
        exact ⟨c, hc, hm ▸ rfl⟩
    rw [foldValues_add_eq_some hn]
    exact hiff.mpr (hcounted hsome)

/-- The recorded statistics are true of the file exactly if the chunks of each field agree. -/
theorem parquetToDataFileBuilder_sound_iff (hindex : TableSchema.indexByParquetPath schema = .ok index)
    (hreturns : parquetToDataFileBuilder valid schema file writtenSize filePath nanValueCounts = .ok b)
    (htrue : ∀ c ∈ file.chunks, c.Truthful) : b.Sound index file ↔ ChunksAgree schema index file := by
  obtain ⟨index', hindex', hcollected⟩ := parquetToDataFileBuilder_ensures hreturns
  obtain rfl : index = index' := Except.ok.inj (hindex.symm.trans hindex')
  have hfield : ∀ fieldId, ∀ c ∈ fieldChunks index fieldId file.chunks, c.Truthful :=
    fun fieldId c hc => htrue c (mem_fieldChunks.mp hc).1
  have hsizes := fun fieldId => (hcollected.columnSizes fieldId).trans (congrArg _ (valuesOf_fieldEntries _ fieldId _))
  have hvalues := fun fieldId => (hcollected.valueCounts fieldId).trans (congrArg _ (valuesOf_fieldEntries _ fieldId _))
  have hnulls := fun fieldId =>
    (hcollected.nullValueCounts fieldId).trans (congrArg _ (valuesOf_fieldEntries _ fieldId _))
  have hlower := fun fieldId => (hcollected.lowerBounds fieldId).trans (congrArg _ (valuesOf_fieldEntries _ fieldId _))
  have hupper := fun fieldId => (hcollected.upperBounds fieldId).trans (congrArg _ (valuesOf_fieldEntries _ fieldId _))
  constructor
  · intro h fieldId
    refine ⟨(lowerBounds_sound_iff (hfield fieldId)).mp fun d hd => h.lower fieldId d ((hlower fieldId).trans hd),
      (upperBounds_sound_iff (hfield fieldId)).mp fun d hd => h.upper fieldId d ((hupper fieldId).trans hd),
      (nullCounts_sound_iff (hfield fieldId)).mp fun n hn => h.nullValueCounts fieldId n ((hnulls fieldId).trans hn)⟩
  · intro h
    constructor
    · intro fieldId d hd
      exact (lowerBounds_sound_iff (hfield fieldId)).mpr (h fieldId).1 d ((hlower fieldId).symm.trans hd)
    · intro fieldId d hd
      exact (upperBounds_sound_iff (hfield fieldId)).mpr (h fieldId).2.1 d ((hupper fieldId).symm.trans hd)
    · intro fieldId n hn
      have hsum := foldValues_add_eq_some ((hsizes fieldId).symm.trans hn)
      simpa using hsum
    · intro fieldId n hn
      have hsum := foldValues_add_eq_some ((hvalues fieldId).symm.trans hn)
      simpa using hsum
    · intro fieldId n hn
      exact (nullCounts_sound_iff (hfield fieldId)).mpr (h fieldId).2.2 n ((hnulls fieldId).symm.trans hn)

end

/-! ## A file with two row groups -/

/-- A column of integers with the field id 1. -/
def idSchema : TableSchema := .cons 1 "id" (.primitive .int) .nil

def idIndex : IndexByParquetPathName := AList.insert "id" 1 ∅

theorem indexByParquetPath_idSchema : TableSchema.indexByParquetPath idSchema = .ok idIndex := rfl

/-- What is collected from two row groups with these statistics. -/
def idBuilder (lower upper : Int) : DataFileBuilder Int where
  content := .data
  filePath := "id.parquet"
  fileFormat := .parquet
  recordCount := 4
  fileSizeInBytes := 16
  columnSizes := AList.insert 1 16 ∅
  valueCounts := AList.insert 1 4 ∅
  nullValueCounts := AList.insert 1 0 ∅
  nanValueCounts := ∅
  lowerBounds := AList.insert 1 lower ∅
  upperBounds := AList.insert 1 upper ∅
  splitOffsets := []

/-- The first row group holds 1, and the lower bound of the file is 5. -/
theorem lowerBound_excludes_value :
    parquetToDataFileBuilder (fun _ _ _ => true) idSchema ⟨4, [idGroup 1 2, idGroup 5 6]⟩ 16 "id.parquet" ∅ =
        .ok (idBuilder 5 2) ∧
      (∀ c ∈ (⟨4, [idGroup 1 2, idGroup 5 6]⟩ : ParquetMetadata Int).chunks, c.Truthful) ∧
      ¬ (idBuilder 5 2).Sound idIndex ⟨4, [idGroup 1 2, idGroup 5 6]⟩ := by
  refine ⟨rfl, idGroups_truthful (by decide) (by decide), fun h => ?_⟩
  have hfirst : (idGroup 1 2).columns.head (by decide) ∈
      fieldChunks idIndex 1 (⟨4, [idGroup 1 2, idGroup 5 6]⟩ : ParquetMetadata Int).chunks :=
    mem_fieldChunks.mpr ⟨by decide, rfl⟩
  exact absurd (h.lower 1 5 rfl _ hfirst 1 (by decide)) (by decide)

theorem parquetToDataFileBuilder_sound_iff_equal_groups :
    (idBuilder 1 2).Sound idIndex ⟨4, [idGroup 1 2, idGroup 1 2]⟩ ↔
      ChunksAgree idSchema idIndex (⟨4, [idGroup 1 2, idGroup 1 2]⟩ : ParquetMetadata Int) :=
  have hreturns : parquetToDataFileBuilder (fun _ _ _ => true) idSchema ⟨4, [idGroup 1 2, idGroup 1 2]⟩ 16
      "id.parquet" ∅ = .ok (idBuilder 1 2) := rfl
  parquetToDataFileBuilder_sound_iff indexByParquetPath_idSchema hreturns (idGroups_truthful (by decide) (by decide))

end Moonlink.Iceberg
