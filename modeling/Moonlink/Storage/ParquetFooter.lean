-- SUMMARY: Parquet footers: row groups, column chunks and their statistics, beside the values that the chunks hold.
import Moonlink.Lib.Panics

/-!
# Parquet footers

The statistics of a file are collected from its footer, which lists the column chunks of
every row group. A chunk is kept with its values, which the footer does not hold, so that
statistics can be compared with them. Counts and sizes are not negative, and those of a file
do not overflow.
-/

namespace Moonlink.Storage

inductive PhysicalType where
  | boolean
  | int32
  | int64
  | int96
  | float
  | double
  | byteArray
  | fixedLenByteArray
  deriving DecidableEq, Repr

structure ParquetStatistics (V : Type) where
  nullCount : Option Nat
  min : Option V
  max : Option V
  minIsExact : Bool
  maxIsExact : Bool
  deriving DecidableEq, Repr

structure ColumnChunk (V : Type) where
  /-- The parts of the path of the column, the last of which is its name. -/
  path : List String
  physicalType : PhysicalType
  compressedSize : Nat
  numValues : Nat
  statistics : Option (ParquetStatistics V)
  /-- The values in the chunk that are not null. -/
  values : List V
  /-- How many nulls it holds. -/
  nulls : Nat
  deriving DecidableEq, Repr

structure RowGroup (V : Type) where
  numRows : Nat
  columns : List (ColumnChunk V)
  fileOffset : Option Nat

structure ParquetMetadata (V : Type) where
  numRows : Nat
  rowGroups : List (RowGroup V)

namespace ParquetMetadata

variable {V : Type}

/-- The chunks of all row groups, in the order of the file. -/
def chunks (file : ParquetMetadata V) : List (ColumnChunk V) := file.rowGroups.flatMap (·.columns)

/-- A loop over the row groups and their columns is a loop over the chunks. -/
theorem foldlM_rowGroups {ε σ : Type} (file : ParquetMetadata V) (f : σ → ColumnChunk V → Except ε σ) (s : σ) :
    file.rowGroups.foldlM (fun s group => group.columns.foldlM f s) s = file.chunks.foldlM f s := by
  unfold chunks
  induction file.rowGroups generalizing s with
  | nil => rfl
  | cons group groups ih =>
    rw [List.foldlM_cons, List.flatMap_cons, List.foldlM_append]
    exact bind_congr fun s' => ih s'

end ParquetMetadata

/-- What the statistics of a chunk say about it is true, where they claim to be exact. -/
structure ColumnChunk.Truthful {V : Type} [LE V] (c : ColumnChunk V) : Prop where
  nullCount : ∀ s ∈ c.statistics, ∀ n ∈ s.nullCount, n = c.nulls
  min : ∀ s ∈ c.statistics, s.minIsExact → ∀ m ∈ s.min, m ∈ c.values ∧ ∀ v ∈ c.values, m ≤ v
  max : ∀ s ∈ c.statistics, s.maxIsExact → ∀ m ∈ s.max, m ∈ c.values ∧ ∀ v ∈ c.values, v ≤ m

/-! ## A small file -/

/-- A row group with a column of two integers and their statistics. -/
def idGroup (low high : Int) : RowGroup Int where
  numRows := 2
  columns := [{
    path := ["id"]
    physicalType := .int32
    compressedSize := 8
    numValues := 2
    statistics := some ⟨some 0, some low, some high, true, true⟩
    values := [low, high]
    nulls := 0 }]
  fileOffset := none

theorem idGroup_truthful {low high : Int} (h : low ≤ high) : ∀ c ∈ (idGroup low high).columns, c.Truthful := by
  simp only [idGroup, List.forall_mem_singleton]
  constructor <;> simp [h]

theorem idGroups_truthful {low high low' high' : Int} (h : low ≤ high) (h' : low' ≤ high') :
    ∀ c ∈ (⟨4, [idGroup low high, idGroup low' high']⟩ : ParquetMetadata Int).chunks, c.Truthful := by
  intro c hc
  obtain ⟨group, hgroup, hc⟩ := List.mem_flatMap.mp hc
  rcases List.mem_cons.mp hgroup with rfl | hrest
  · exact idGroup_truthful h c hc
  · obtain rfl := List.mem_singleton.mp hrest
    exact idGroup_truthful h' c hc

end Moonlink.Storage
