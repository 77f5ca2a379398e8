-- SUMMARY: When the file statistics of a Delta table are true: what is collected for each name, and the condition on the chunks that share it.
import Moonlink.Storage.DeltaStats

namespace Moonlink.Deltalake

open Lib Lib.Grouping Storage

variable {V : Type} {bytes : PhysicalType → V → List UInt8}

/-! ## Decoding -/

/-- The bytes have the length of their type, and a floating-point number is finite. -/
def Decodable (physType : PhysicalType) (bytes : List UInt8) : Prop :=
  match physType with
  | .boolean => bytes ≠ []
  | .int32 => bytes.length = 4
  | .int64 => bytes.length = 8
  | .float => bytes.length = 4 ∧ finiteFloat 8 23 (ofLeBytes bytes) ≠ none
  | .double => bytes.length = 8 ∧ finiteFloat 11 52 (ofLeBytes bytes) ≠ none
  | .byteArray | .fixedLenByteArray | .int96 => True

theorem tryInto_eq_ok_iff {len : Nat} {b v : List UInt8} : tryInto len b = .ok v ↔ b.length = len ∧ b = v := by
  unfold tryInto
  split <;> simp [*]

theorem returns_tryInto_iff {α : Type} {len : Nat} {b : List UInt8} {f : List UInt8 → Except StatsPanic α} :
    (∃ v, (tryInto len b >>= f) = .ok v) ↔ b.length = len ∧ ∃ v, f b = .ok v := by
  simp only [bind_eq_ok, tryInto_eq_ok_iff]
  constructor
  · rintro ⟨v, _, ⟨hlen, rfl⟩, hv⟩
    exact ⟨hlen, v, hv⟩
  · rintro ⟨hlen, v, hv⟩
    exact ⟨v, b, ⟨hlen, rfl⟩, hv⟩

theorem returns_fromF64_iff {x : Option (Bool × ℚ)} : (∃ v, fromF64 x = .ok v) ↔ x ≠ none := by
  cases x <;> simp [fromF64]

theorem decodeParquetValue_returns_iff (physType : PhysicalType) (b : List UInt8) :
    (∃ v, decodeParquetValue physType b = .ok v) ↔ Decodable physType b := by
  cases physType with
  | boolean => cases b <;> simp [decodeParquetValue, Decodable]
  | int32 => exact returns_tryInto_iff.trans (and_iff_left ⟨_, rfl⟩)
  | int64 => exact returns_tryInto_iff.trans (and_iff_left ⟨_, rfl⟩)
  | float => exact returns_tryInto_iff.trans (and_congr_right' returns_fromF64_iff)
  | double => exact returns_tryInto_iff.trans (and_congr_right' returns_fromF64_iff)
  | byteArray | fixedLenByteArray | int96 => exact iff_of_true ⟨_, rfl⟩ trivial

/-- The JSON value that stands for exactly this value. There is none for bytes that are no text. -/
def exactValue (physType : PhysicalType) (b : List UInt8) : Option JsonValue :=
  match decodeParquetValue physType b with
  | .ok .null => none
  | .ok (.string s) => if s.toUTF8.data.toList = b then some (.string s) else none
  | .ok v => some v
  | .error _ => none

/-! ## The loop -/

def nullCount (c : ColumnChunk V) : Option Nat := c.statistics.bind (·.nullCount)

/-- The last one wins. -/
def overwrite (_ b : JsonValue) : JsonValue := b

def decoded (bytes : PhysicalType → V → List UInt8) (c : ColumnChunk V) (v : V) : Option JsonValue :=
  (decodeParquetValue c.physicalType (bytes c.physicalType v)).toOption

/-- The decoded minimum of a chunk. -/
def decodedMin (bytes : PhysicalType → V → List UInt8) (c : ColumnChunk V) : Option JsonValue :=
  (c.statistics.bind (·.min)).bind (decoded bytes c)

def decodedMax (bytes : PhysicalType → V → List UInt8) (c : ColumnChunk V) : Option JsonValue :=
  (c.statistics.bind (·.max)).bind (decoded bytes c)

/-- What the chunks contribute to a map of their names. -/
def namedEntries {β : Type} (g : ColumnChunk V → Option β) (chunks : List (ColumnChunk V)) : List (String × β) :=
  chunks.flatMap (entriesBy (fun c => some (columnName c)) fun _ c => g c)

theorem namedEntries_concat {β : Type} (g : ColumnChunk V → Option β) (chunks : List (ColumnChunk V))
    (c : ColumnChunk V) :
    namedEntries g (chunks ++ [c]) = namedEntries g chunks ++ ((g c).map fun b => (columnName c, b)).toList := by
  rw [namedEntries, List.flatMap_append, List.flatMap_singleton]
  rfl

/-- The chunks of the columns with a name. -/
def namedChunks (name : String) (chunks : List (ColumnChunk V)) : List (ColumnChunk V) :=
  chunks.filter fun c => columnName c = name

theorem valuesOf_namedEntries {β : Type} (g : ColumnChunk V → Option β) (name : String)
    (chunks : List (ColumnChunk V)) :
    valuesOf name (namedEntries g chunks) = (namedChunks name chunks).filterMap g := by
  rw [namedEntries, valuesOf_entriesBy, namedChunks]
  simp only [Option.some.injEq]

theorem combine_overwrite (m : AssocMap String JsonValue) (name : String) (v : JsonValue) :
    combine overwrite m name v = m.insert name v := by
  unfold combine
  cases m.lookup name <;> rfl

theorem insertDecoded_ensures (values : AssocMap String JsonValue) (name : String) (c : ColumnChunk V)
    (value : Option V) :
    Ensures (insertDecoded bytes values name c.physicalType value) fun values' =>
      values' = ((value.bind (decoded bytes c)).map fun b => (name, b)).toList.foldl
        (fun m e => combine overwrite m e.1 e.2) values := by
  cases value with
  | none => exact .pure rfl
  | some v =>
    refine Ensures.bind (P := fun j => decoded bytes c v = some j) ?_ fun j hj => .pure ?_
    · intro j hj
      rw [decoded, hj]
      rfl
    · rw [Option.bind_some, hj, ← combine_overwrite]
      rfl

/-- The maps hold what the chunks contribute under each name. -/
structure Collected (bytes : PhysicalType → V → List UInt8) (chunks : List (ColumnChunk V)) (stats : ColumnStats) :
    Prop where
  nullCounts : Groups (· + ·) stats.nullCounts (namedEntries nullCount chunks)
  minValues : Groups overwrite stats.minValues (namedEntries (decodedMin bytes) chunks)
  maxValues : Groups overwrite stats.maxValues (namedEntries (decodedMax bytes) chunks)

variable {chunks : List (ColumnChunk V)}

theorem Collected.collectColumn {stats : ColumnStats}
    (h : Collected bytes chunks stats) (c : ColumnChunk V) :
    Ensures (collectColumn bytes stats c) (Collected bytes (chunks ++ [c])) := by
  unfold Deltalake.collectColumn
  cases hs : c.statistics with
  | none =>
    refine .pure ⟨?_, ?_, ?_⟩ <;> rw [namedEntries_concat]
    · simpa [nullCount, hs] using h.nullCounts
    · simpa [decodedMin, hs] using h.minValues
    · simpa [decodedMax, hs] using h.maxValues
  | some s =>
    have hnulls := h.nullCounts.combineAll (s.nullCount.map fun b => (columnName c, b)).toList
    refine (insertDecoded_ensures stats.minValues (columnName c) c s.min).bind fun minValues hmin => ?_
    refine (insertDecoded_ensures stats.maxValues (columnName c) c s.max).bind fun maxValues hmax => ?_
    refine .pure ⟨?_, ?_, ?_⟩ <;> rw [namedEntries_concat]
    · rw [nullCount, hs, Option.bind_some]
      dsimp only
      cases hn : s.nullCount <;>
      · rw [hn] at hnulls
        exact hnulls
    · rw [decodedMin, hs, Option.bind_some]
      exact hmin ▸ h.minValues.combineAll _
    · rw [decodedMax, hs, Option.bind_some]
      exact hmax ▸ h.maxValues.combineAll _

/-! ## Panics -/

/-- The extremes that a chunk has can be decoded. -/
def ExtremesDecodable (bytes : PhysicalType → V → List UInt8) (c : ColumnChunk V) : Prop :=
  ∀ s ∈ c.statistics, (∀ v ∈ s.min, Decodable c.physicalType (bytes c.physicalType v)) ∧
    ∀ v ∈ s.max, Decodable c.physicalType (bytes c.physicalType v)

theorem insertDecoded_returns_iff {values : AssocMap String JsonValue} {name : String} {physType : PhysicalType}
    {value : Option V} : (∃ values', insertDecoded bytes values name physType value = .ok values') ↔
      ∀ v ∈ value, Decodable physType (bytes physType v) := by
  cases value with
  | none => exact iff_of_true ⟨_, rfl⟩ (by simp)
  | some v =>
    simp only [Option.mem_def, Option.some.injEq, forall_eq', ← decodeParquetValue_returns_iff, insertDecoded]
    constructor
    · rintro ⟨values', h⟩
      obtain ⟨j, hj, -⟩ := bind_eq_ok.mp h
      exact ⟨j, hj⟩
    · rintro ⟨j, hj⟩
      exact ⟨_, bind_eq_ok.mpr ⟨j, hj, rfl⟩⟩

theorem collectColumn_returns_iff (stats : ColumnStats) (c : ColumnChunk V) :
    (∃ stats', collectColumn bytes stats c = .ok stats') ↔ ExtremesDecodable bytes c := by
  unfold collectColumn ExtremesDecodable
  cases c.statistics with
  | none => exact iff_of_true ⟨_, rfl⟩ (by simp)
  | some s =>
    simp only [Option.mem_def, Option.some.injEq, forall_eq']
    constructor
    · rintro ⟨stats', h⟩
      obtain ⟨minValues, hmin, hrest⟩ := bind_eq_ok.mp h
      obtain ⟨maxValues, hmax, -⟩ := bind_eq_ok.mp hrest
      exact ⟨insertDecoded_returns_iff.mp ⟨_, hmin⟩, insertDecoded_returns_iff.mp ⟨_, hmax⟩⟩
    · rintro ⟨hmin, hmax⟩
      obtain ⟨minValues, hmin⟩ := insertDecoded_returns_iff.mpr hmin
      obtain ⟨maxValues, hmax⟩ := insertDecoded_returns_iff.mpr hmax
      exact ⟨_, bind_eq_ok.mpr ⟨_, hmin, bind_eq_ok.mpr ⟨_, hmax, rfl⟩⟩⟩

variable {file : ParquetMetadata V}

/-- What is collected, if every extreme can be decoded. -/
theorem collectParquetStats_of_decodable (h : ∀ c ∈ file.chunks, ExtremesDecodable bytes c) :
    ∃ stats, Collected bytes file.chunks stats ∧ collectParquetStats bytes file = .ok {
      numRecords := (file.rowGroups.map (·.numRows)).sum
      tightBounds := true
      minValues := some stats.minValues
      maxValues := some stats.maxValues
      nullCount := some stats.nullCounts } := by
  obtain ⟨stats, hstats⟩ := (exists_foldlM_eq_ok_iff (a := ⟨∅, ∅, ∅⟩) collectColumn_returns_iff).mpr h
  have hcollected : Ensures (file.chunks.foldlM (collectColumn bytes) ⟨∅, ∅, ∅⟩) (Collected bytes file.chunks) :=
    .foldlM ⟨.empty, .empty, .empty⟩ fun done c rest stats _ hdone => hdone.collectColumn c
  refine ⟨stats, hcollected stats hstats, ?_⟩
  rw [collectParquetStats, file.foldlM_rowGroups, hstats]
  rfl

theorem decodable_of_returns {stats : Stats} (h : collectParquetStats bytes file = .ok stats) :
    ∀ c ∈ file.chunks, ExtremesDecodable bytes c := by
  obtain ⟨columns, hcolumns, -⟩ := bind_eq_ok.mp h
  rw [file.foldlM_rowGroups] at hcolumns
  exact (exists_foldlM_eq_ok_iff collectColumn_returns_iff).mp ⟨columns, hcolumns⟩

/-! ## The truth about a file -/

def columnChunks (path : List String) (chunks : List (ColumnChunk V)) : List (ColumnChunk V) :=
  chunks.filter fun c => c.path = path

/-- The JSON value is exactly an extreme value of the chunks: no value is on the other side of it. -/
def ExactExtreme (bytes : PhysicalType → V → List UInt8) (le : V → V → Prop) (chunks : List (ColumnChunk V))
    (j : JsonValue) : Prop :=
  ∃ c ∈ chunks, ∃ m ∈ c.values, exactValue c.physicalType (bytes c.physicalType m) = some j ∧
    ∀ c' ∈ chunks, ∀ v ∈ c'.values, le m v

/-- Every column gets its own statistics under its name, as far as they are there. -/
structure Stats.TrueOf [LE V] (bytes : PhysicalType → V → List UInt8) (file : ParquetMetadata V) (stats : Stats) :
    Prop where
  numRecords : stats.numRecords = (file.rowGroups.map (·.numRows)).sum
  nullCount : ∀ c ∈ file.chunks, ∀ n, stats.nullCount.bind (·.lookup (columnName c)) = some n →
    n = ((columnChunks c.path file.chunks).map (·.nulls)).sum
  minValues : ∀ c ∈ file.chunks, ∀ j, stats.minValues.bind (·.lookup (columnName c)) = some j →
    ExactExtreme bytes (· ≤ ·) (columnChunks c.path file.chunks) j
  maxValues : ∀ c ∈ file.chunks, ∀ j, stats.maxValues.bind (·.lookup (columnName c)) = some j →
    ExactExtreme bytes (· ≥ ·) (columnChunks c.path file.chunks) j

/-- The last chunk of a column with this name that has an extreme value, and the value. -/
def lastRecorded (extreme : ParquetStatistics V → Option V) (name : String) (chunks : List (ColumnChunk V)) :
    Option (ColumnChunk V × V) :=
  ((namedChunks name chunks).filterMap fun c => (c.statistics.bind extreme).map fun v => (c, v)).getLast?

/-- For every column, the last extreme value under its name stands for that of the whole column. -/
def LastIsExtreme (bytes : PhysicalType → V → List UInt8) (le : V → V → Prop)
    (extreme : ParquetStatistics V → Option V) (file : ParquetMetadata V) : Prop :=
  ∀ c ∈ file.chunks, ∀ last v, lastRecorded extreme (columnName c) file.chunks = some (last, v) →
    ∃ j, decodeParquetValue last.physicalType (bytes last.physicalType v) = .ok j ∧
      ExactExtreme bytes le (columnChunks c.path file.chunks) j

/-- If a null count is recorded under the name of a column, the other columns with this name have as many
counted nulls as the column has uncounted ones. -/
def NullsBalance (file : ParquetMetadata V) : Prop :=
  ∀ c ∈ file.chunks, (∃ c' ∈ namedChunks (columnName c) file.chunks, nullCount c' ≠ none) →
    (((namedChunks (columnName c) file.chunks).filter fun c' => c'.path ≠ c.path ∧ nullCount c' ≠ none).map
        (·.nulls)).sum =
      (((columnChunks c.path file.chunks).filter fun c' => nullCount c' = none).map (·.nulls)).sum

theorem getLast?_filterMap_of_isSome {α β : Type} {f : α → Option β} {as : List α} (h : ∀ a ∈ as, (f a).isSome) :
    (as.filterMap f).getLast? = as.getLast?.bind f := by
  induction as using List.reverseRecOn with
  | nil => rfl
  | append_singleton as a ih =>
    obtain ⟨b, hb⟩ := Option.isSome_iff_exists.mp (h a (by simp))
    simp [hb]

/-- What is collected under a name is decoded from the last chunk that has it. -/
theorem getLast?_decoded {extreme : ParquetStatistics V → Option V} {name : String}
    (h : ∀ c ∈ chunks, ∀ v ∈ c.statistics.bind extreme, Decodable c.physicalType (bytes c.physicalType v)) :
    ((namedChunks name chunks).filterMap fun c => (c.statistics.bind extreme).bind (decoded bytes c)).getLast? =
      (lastRecorded extreme name chunks).bind fun recorded => decoded bytes recorded.1 recorded.2 := by
  have hpairs : (namedChunks name chunks).filterMap (fun c => (c.statistics.bind extreme).bind (decoded bytes c)) =
      ((namedChunks name chunks).filterMap fun c => (c.statistics.bind extreme).map fun v => (c, v)).filterMap
        fun recorded => decoded bytes recorded.1 recorded.2 := by
    rw [List.filterMap_filterMap]
    congr 1
    funext c
    cases c.statistics.bind extreme <;> rfl
  rw [hpairs, lastRecorded, getLast?_filterMap_of_isSome]
  rintro ⟨c, v⟩ hmem
  obtain ⟨c', hc', heq⟩ := List.mem_filterMap.mp hmem
  obtain ⟨v', hv', hpair⟩ := Option.map_eq_some_iff.mp heq
  cases hpair
  obtain ⟨j, hj⟩ := (decodeParquetValue_returns_iff _ _).mpr (h c (List.mem_filter.mp hc').1 v hv')
  rw [decoded, hj]
  rfl

/-- One side of the extremes. -/
theorem extremes_true_iff {le : V → V → Prop} {extreme : ParquetStatistics V → Option V}
    {values : AssocMap String JsonValue} (hvalues : Groups overwrite values
      (namedEntries (fun c => (c.statistics.bind extreme).bind (decoded bytes c)) file.chunks))
    (h : ∀ c ∈ file.chunks, ∀ v ∈ c.statistics.bind extreme, Decodable c.physicalType (bytes c.physicalType v)) :
    (∀ c ∈ file.chunks, ∀ j, values.lookup (columnName c) = some j →
      ExactExtreme bytes le (columnChunks c.path file.chunks) j) ↔ LastIsExtreme bytes le extreme file := by
  have hlookup : ∀ name, values.lookup name =
      (lastRecorded extreme name file.chunks).bind fun recorded => decoded bytes recorded.1 recorded.2 := by
    intro name
    rw [← getLast?_decoded h, hvalues name, valuesOf_namedEntries]
    exact foldValues_overwrite _
  simp only [hlookup, LastIsExtreme]
  refine forall₂_congr fun c _ => ⟨fun hall last v hlast => ?_, fun hall j hj => ?_⟩
  · have hmem := List.mem_of_getLast? hlast
    obtain ⟨c', hc', heq⟩ := List.mem_filterMap.mp hmem
    obtain ⟨v', hv', hpair⟩ := Option.map_eq_some_iff.mp heq
    cases hpair
    obtain ⟨j, hj⟩ := (decodeParquetValue_returns_iff _ _).mpr (h last (List.mem_filter.mp hc').1 v hv')
    refine ⟨j, hj, hall j ?_⟩
    rw [hlast, Option.bind_some, decoded, hj]
    rfl
  · obtain ⟨⟨last, v⟩, hlast, hdecoded⟩ := Option.bind_eq_some_iff.mp hj
    obtain ⟨j', hj', hextreme⟩ := hall last v hlast
    rw [decoded, hj'] at hdecoded
    cases hdecoded
    exact hextreme

/-- Counted and uncounted nulls of a column, against those that are counted under its name. -/
theorem sum_nulls_of_column {path : List String} {name : String}
    (hpathName : ∀ c : ColumnChunk V, c.path = path → columnName c = name)
    (htrue : ∀ c ∈ chunks, ∀ n, nullCount c = some n → n = c.nulls) :
    ((namedChunks name chunks).filterMap nullCount).sum +
        (((columnChunks path chunks).filter fun c => nullCount c = none).map (·.nulls)).sum =
      ((columnChunks path chunks).map (·.nulls)).sum +
        (((namedChunks name chunks).filter fun c => c.path ≠ path ∧ nullCount c ≠ none).map (·.nulls)).sum := by
  induction chunks with
  | nil => rfl
  | cons c chunks ih =>
    have hrest := ih fun c hc => htrue c (List.mem_cons_of_mem _ hc)
    have hhead := htrue c List.mem_cons_self
    unfold namedChunks columnChunks at hrest ⊢
    by_cases hpath : c.path = path
    · have hname := hpathName c hpath
      cases hn : nullCount c with
      | none => simp [hpath, hname, hn] at hrest ⊢; omega
      | some n => simp [hpath, hname, hn, ← hhead n hn] at hrest ⊢; omega
    · by_cases hname : columnName c = name
      · cases hn : nullCount c with
        | none => simp [hpath, hname, hn] at hrest ⊢; omega
        | some n => simp [hpath, hname, hn, ← hhead n hn] at hrest ⊢; omega
      · simp [hpath, hname] at hrest ⊢; omega

theorem nullCounts_true_iff {counts : AssocMap String Nat}
    (hcounts : Groups (· + ·) counts (namedEntries nullCount file.chunks))
    (htrue : ∀ c ∈ file.chunks, ∀ n, nullCount c = some n → n = c.nulls) :
    (∀ c ∈ file.chunks, ∀ n, counts.lookup (columnName c) = some n →
      n = ((columnChunks c.path file.chunks).map (·.nulls)).sum) ↔ NullsBalance file := by
  have hlookup : ∀ name, counts.lookup name = foldValues (· + ·) ((namedChunks name file.chunks).filterMap nullCount) :=
    fun name => (hcounts name).trans (congrArg _ (valuesOf_namedEntries _ _ _))
  refine forall₂_congr fun c _ => ?_
  have hname : ∀ c' : ColumnChunk V, c'.path = c.path → columnName c' = columnName c :=
    fun c' hpath => by rw [columnName, columnName, hpath]
  have hsum := sum_nulls_of_column hname htrue
  rw [hlookup]
  constructor
  · rintro hall ⟨c', hc', hcounted⟩
    obtain ⟨n, hn⟩ := Option.ne_none_iff_exists'.mp hcounted
    obtain ⟨total, htotal⟩ := foldValues_isSome (f := (· + ·)) (List.mem_filterMap.mpr ⟨c', hc', hn⟩)
    have hn' := foldValues_add_eq_some htotal
    have hcolumn := hall total htotal
    omega
  · intro hbalance n hn
    have hcounted : ∃ c' ∈ namedChunks (columnName c) file.chunks, nullCount c' ≠ none := by
      by_contra hnone
      push Not at hnone
      rw [List.filterMap_eq_nil_iff.mpr hnone] at hn
      cases hn
    have hn' := foldValues_add_eq_some hn
    have hsame := hbalance hcounted
    omega

/-- The statistics are collected and true of the file exactly if the extremes can be decoded, the last extremes
of each name are those of its columns, and columns with one name do not add nulls. -/
theorem collectParquetStats_true_iff [LE V] {file : ParquetMetadata V} (htrue : ∀ c ∈ file.chunks, c.Truthful) :
    Returns (collectParquetStats bytes file) (Stats.TrueOf bytes file) ↔
      (∀ c ∈ file.chunks, ExtremesDecodable bytes c) ∧ LastIsExtreme bytes (· ≤ ·) (·.min) file ∧
        LastIsExtreme bytes (· ≥ ·) (·.max) file ∧ NullsBalance file := by
  by_cases hdecodable : ∀ c ∈ file.chunks, ExtremesDecodable bytes c
  · obtain ⟨stats, hcollected, hreturns⟩ := collectParquetStats_of_decodable hdecodable
    have hmin : ∀ c ∈ file.chunks, ∀ v ∈ c.statistics.bind (·.min),
        Decodable c.physicalType (bytes c.physicalType v) := by
      intro c hc v hv
      obtain ⟨s, hs, hsv⟩ := Option.bind_eq_some_iff.mp hv
      exact (hdecodable c hc s hs).1 v hsv
    have hmax : ∀ c ∈ file.chunks, ∀ v ∈ c.statistics.bind (·.max),
        Decodable c.physicalType (bytes c.physicalType v) := by
      intro c hc v hv
      obtain ⟨s, hs, hsv⟩ := Option.bind_eq_some_iff.mp hv
      exact (hdecodable c hc s hs).2 v hsv
    have hcount : ∀ c ∈ file.chunks, ∀ n, nullCount c = some n → n = c.nulls := by
      intro c hc n hn
      obtain ⟨s, hs, hcount⟩ := Option.bind_eq_some_iff.mp hn
      exact (htrue c hc).nullCount s hs n hcount
    rw [hreturns, Returns.ok_iff, ← extremes_true_iff hcollected.minValues hmin,
      ← extremes_true_iff hcollected.maxValues hmax, ← nullCounts_true_iff hcollected.nullCounts hcount]
    constructor
    · exact fun h => ⟨hdecodable, h.minValues, h.maxValues, h.nullCount⟩
    · rintro ⟨-, hminValues, hmaxValues, hnulls⟩
      exact ⟨rfl, hnulls, hminValues, hmaxValues⟩
  · refine iff_of_false ?_ fun h => hdecodable h.1
    rintro ⟨stats, hstats, -⟩
    exact hdecodable (decodable_of_returns hstats)

/-! ## A file with two row groups -/

/-- The bytes of a small integer. -/
def smallIntBytes (_ : PhysicalType) (v : Int) : List UInt8 := [UInt8.ofNat v.toNat, 0, 0, 0]

/-- What is collected from two row groups, the last of which has these statistics. -/
def idStats (low high : Int) : Stats where
  numRecords := 4
  tightBounds := true
  minValues := some (AList.insert "id" (.int low) ∅)
  maxValues := some (AList.insert "id" (.int high) ∅)
  nullCount := some (AList.insert "id" 0 ∅)

/-- The first row group holds 1, and the minimum of the file is said to be 5. -/
theorem lastMinimum_excludes_value :
    collectParquetStats smallIntBytes ⟨4, [idGroup 1 2, idGroup 5 6]⟩ = .ok (idStats 5 6) ∧
      (∀ c ∈ (⟨4, [idGroup 1 2, idGroup 5 6]⟩ : ParquetMetadata Int).chunks, c.Truthful) ∧
      ¬ (idStats 5 6).TrueOf smallIntBytes ⟨4, [idGroup 1 2, idGroup 5 6]⟩ := by
  refine ⟨rfl, idGroups_truthful (by decide) (by decide), fun h => ?_⟩
  have hextreme := h.minValues ((idGroup 1 2).columns.head (by decide)) (by decide) (.int 5) rfl
  unfold ExactExtreme at hextreme
  revert hextreme
  decide +kernel

theorem collectParquetStats_true_iff_equal_groups :
    Returns (collectParquetStats smallIntBytes ⟨4, [idGroup 1 2, idGroup 1 2]⟩)
        (Stats.TrueOf smallIntBytes ⟨4, [idGroup 1 2, idGroup 1 2]⟩) ↔
      (∀ c ∈ (⟨4, [idGroup 1 2, idGroup 1 2]⟩ : ParquetMetadata Int).chunks, ExtremesDecodable smallIntBytes c) ∧
        LastIsExtreme smallIntBytes (· ≤ ·) (·.min) ⟨4, [idGroup 1 2, idGroup 1 2]⟩ ∧
        LastIsExtreme smallIntBytes (· ≥ ·) (·.max) ⟨4, [idGroup 1 2, idGroup 1 2]⟩ ∧
        NullsBalance (⟨4, [idGroup 1 2, idGroup 1 2]⟩ : ParquetMetadata Int) :=
  collectParquetStats_true_iff (idGroups_truthful (by decide) (by decide))

end Moonlink.Deltalake
