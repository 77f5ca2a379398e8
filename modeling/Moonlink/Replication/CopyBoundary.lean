-- SUMMARY: The boundary LSN of an initial copy against the exported snapshot, over every interleaving with commits of other sessions.
import Moonlink.Table.Handler

/-!
# The boundary of an initial copy

`export_snapshot_and_lsn` runs in one repeatable-read transaction. Its snapshot is
taken when the first statement starts; that statement reads the current WAL LSN, and
the next one exports the snapshot. The rows of the snapshot are copied, and the handler
then discards the changes up to this LSN.

A commit of another session has two steps: its record is written to the WAL, and later
the transaction becomes visible to new snapshots.
-/

namespace Moonlink.Replication

open Lib

/-- The progress of `export_snapshot_and_lsn`. -/
inductive SnapshotExport where
  | idle
  | begun
  | snapshotTaken (snapshot : List XactId)
  | lsnRead (snapshot : List XactId) (lsn : Nat)
  | exported (snapshot : List XactId) (lsn : Nat)
  deriving DecidableEq, Repr

structure PgServer where
  walLsn : Nat
  /-- Transactions whose commit record is in the WAL, with its LSN. -/
  commits : List (XactId × Nat)
  /-- Transactions that new snapshots see. -/
  visible : List XactId
  copy : SnapshotExport

inductive PgStep where
  /-- Another session writes its commit record. -/
  | writeCommit (x : XactId) (lsn : Nat)
  | becomeVisible (x : XactId)
  /-- Other records move the WAL forward. -/
  | writeWal (lsn : Nat)
  | beginTxn
  | takeSnapshot
  /-- `SELECT pg_current_wal_lsn()`, in the statement that took the snapshot. -/
  | readLsn
  /-- `SELECT pg_export_snapshot()`. -/
  | exportSnapshot

namespace PgServer

def new (walLsn : Nat) : PgServer := ⟨walLsn, [], [], .idle⟩

/-- Returns nothing if the step is not possible. -/
def step (s : PgServer) : PgStep → Option PgServer
  | .writeCommit x lsn =>
    if s.walLsn < lsn ∧ x ∉ s.commits.map Prod.fst then
      some { s with walLsn := lsn, commits := s.commits ++ [(x, lsn)] }
    else none
  | .becomeVisible x =>
    if x ∈ s.commits.map Prod.fst then some { s with visible := s.visible ++ [x] } else none
  | .writeWal lsn => if s.walLsn < lsn then some { s with walLsn := lsn } else none
  | .beginTxn => if s.copy = .idle then some { s with copy := .begun } else none
  | .takeSnapshot => if s.copy = .begun then some { s with copy := .snapshotTaken s.visible } else none
  | .readLsn =>
    match s.copy with
    | .snapshotTaken snapshot => some { s with copy := .lsnRead snapshot s.walLsn }
    | _ => none
  | .exportSnapshot =>
    match s.copy with
    | .lsnRead snapshot lsn => some { s with copy := .exported snapshot lsn }
    | _ => none

def run (s : PgServer) : List PgStep → Option PgServer
  | [] => some s
  | l :: ls => (s.step l).bind fun s' => s'.run ls

end PgServer

/-- The handler of the copied table, once the copy has finished with this boundary. -/
def afterCopy (Row : Type) (boundaryLsn : Nat) : TableHandlerState Row :=
  { TableHandlerState.new none none with initialPersistenceLsn := some boundaryLsn }

/-- How often a committed transaction reaches the table: with the copied rows, and with the
change stream unless its commit is discarded. -/
def timesApplied (Row : Type) (snapshot : List XactId) (boundaryLsn : Nat) (x : XactId) (lsn : Nat) :
    Nat :=
  (if x ∈ snapshot then 1 else 0) +
    if (afterCopy Row boundaryLsn).shouldDiscardEvent (.commit lsn none false) then 0 else 1

/-- The boundary is an exact cut: the transactions up to it are those of the snapshot. -/
structure BoundaryExact (Row : Type) (s : PgServer) (snapshot : List XactId) (boundaryLsn : Nat) :
    Prop where
  visible : ∀ x lsn, (x, lsn) ∈ s.commits → lsn ≤ boundaryLsn → x ∈ snapshot
  hidden : ∀ x lsn, (x, lsn) ∈ s.commits → boundaryLsn < lsn → x ∉ snapshot
  once : ∀ x lsn, (x, lsn) ∈ s.commits → timesApplied Row snapshot boundaryLsn x lsn = 1

/-- No commit is between its record and its visibility when the snapshot is taken, and none
is written until the LSN is read. -/
def PgStep.Orderly (s : PgServer) : PgStep → Prop
  | .takeSnapshot => ∀ x ∈ s.commits.map Prod.fst, x ∈ s.visible
  | .writeCommit _ _ => ∀ snapshot, s.copy ≠ .snapshotTaken snapshot
  | _ => True

/-- Every step of the run is orderly in the state before it. -/
def OrderlyRun (s : PgServer) : List PgStep → Prop
  | [] => True
  | l :: ls => l.Orderly s ∧ ∀ s', s.step l = some s' → OrderlyRun s' ls

/-! ## What every run keeps -/

/-- The snapshot and the LSN of the copy are not ahead of the WAL. -/
structure PgServer.Inv (s : PgServer) : Prop where
  commits_le : ∀ x lsn, (x, lsn) ∈ s.commits → lsn ≤ s.walLsn
  visible : ∀ x ∈ s.visible, x ∈ s.commits.map Prod.fst
  snapshot : ∀ snapshot, s.copy = .snapshotTaken snapshot → ∀ x ∈ snapshot, x ∈ s.commits.map Prod.fst
  boundary : ∀ snapshot lsn, s.copy = .lsnRead snapshot lsn ∨ s.copy = .exported snapshot lsn →
    lsn ≤ s.walLsn ∧ ∀ x ∈ snapshot, x ∈ s.commits.map Prod.fst

/-- The copy is still on the way to an exact cut. -/
def PgServer.Exact (s : PgServer) : Prop :=
  match s.copy with
  | .idle | .begun => True
  | .snapshotTaken snapshot => ∀ x lsn, (x, lsn) ∈ s.commits → x ∈ snapshot
  | .lsnRead snapshot boundaryLsn | .exported snapshot boundaryLsn =>
    ∀ x lsn, (x, lsn) ∈ s.commits → (lsn ≤ boundaryLsn ↔ x ∈ snapshot)

namespace PgServer

variable {s s' : PgServer} {l : PgStep}

theorem Inv.new (walLsn : Nat) : Inv (new walLsn) where
  commits_le := nofun
  visible := nofun
  snapshot := nofun
  boundary := nofun

theorem mem_map_fst_append {commits : List (XactId × Nat)} {x : XactId} (c : XactId × Nat)
    (h : x ∈ commits.map Prod.fst) : x ∈ (commits ++ [c]).map Prod.fst := by
  rw [List.map_append]
  exact List.mem_append_left _ h

theorem Inv.step (h : Inv s) (hstep : s.step l = some s') : Inv s' := by
  cases l with
  | writeCommit x lsn =>
    simp only [PgServer.step] at hstep
    split at hstep
    · rename_i hpossible
      cases hstep
      refine ⟨?_, ?_, ?_, ?_⟩
      · intro y lsn' hmem
        rcases List.mem_append.mp hmem with hmem | hmem
        · exact Nat.le_trans (h.commits_le y lsn' hmem) (Nat.le_of_lt hpossible.1)
        · cases List.mem_singleton.mp hmem
          exact le_rfl
      · exact fun y hy => mem_map_fst_append _ (h.visible y hy)
      · exact fun snapshot hcopy y hy => mem_map_fst_append _ (h.snapshot snapshot hcopy y hy)
      · intro snapshot lsn' hcopy
        obtain ⟨hle, hmem⟩ := h.boundary snapshot lsn' hcopy
        exact ⟨Nat.le_trans hle (Nat.le_of_lt hpossible.1), fun y hy => mem_map_fst_append _ (hmem y hy)⟩
    · cases hstep
  | becomeVisible x =>
    simp only [PgServer.step] at hstep
    split at hstep
    · rename_i hmem
      cases hstep
      refine ⟨h.commits_le, ?_, h.snapshot, h.boundary⟩
      intro y hy
      rcases List.mem_append.mp hy with hy | hy
      · exact h.visible y hy
      · rw [List.mem_singleton.mp hy]
        exact hmem
    · cases hstep
  | writeWal lsn =>
    simp only [PgServer.step] at hstep
    split at hstep
    · rename_i hlt
      cases hstep
      refine ⟨fun x lsn' hmem => Nat.le_trans (h.commits_le x lsn' hmem) (Nat.le_of_lt hlt), h.visible, h.snapshot, ?_⟩
      intro snapshot lsn' hcopy
      obtain ⟨hle, hmem⟩ := h.boundary snapshot lsn' hcopy
      exact ⟨Nat.le_trans hle (Nat.le_of_lt hlt), hmem⟩
    · cases hstep
  | beginTxn =>
    simp only [PgServer.step] at hstep
    split at hstep
    · cases hstep
      exact ⟨h.commits_le, h.visible, nofun, nofun⟩
    · cases hstep
  | takeSnapshot =>
    simp only [PgServer.step] at hstep
    split at hstep
    · cases hstep
      refine ⟨h.commits_le, h.visible, ?_, nofun⟩
      intro snapshot hcopy
      cases hcopy
      exact h.visible
    · cases hstep
  | readLsn =>
    simp only [PgServer.step] at hstep
    split at hstep
    · rename_i snapshot hcopy
      cases hstep
      refine ⟨h.commits_le, h.visible, nofun, ?_⟩
      rintro snapshot' lsn' (heq | heq)
      · cases heq
        exact ⟨le_rfl, h.snapshot snapshot hcopy⟩
      · cases heq
    · cases hstep
  | exportSnapshot =>
    simp only [PgServer.step] at hstep
    split at hstep
    · rename_i snapshot lsn hcopy
      cases hstep
      refine ⟨h.commits_le, h.visible, nofun, ?_⟩
      rintro snapshot' lsn' (heq | heq)
      · cases heq
      · cases heq
        exact h.boundary snapshot lsn (.inl hcopy)
    · cases hstep

/-- A commit after the LSN was read is above it and not in the snapshot. -/
theorem Inv.later_commit (h : Inv s) {snapshot : List XactId} {boundaryLsn lsn : Nat} {x : XactId}
    (hcopy : s.copy = .lsnRead snapshot boundaryLsn ∨ s.copy = .exported snapshot boundaryLsn)
    (hlt : s.walLsn < lsn) (hfresh : x ∉ s.commits.map Prod.fst) :
    lsn ≤ boundaryLsn ↔ x ∈ snapshot := by
  obtain ⟨hle, hmem⟩ := h.boundary snapshot boundaryLsn hcopy
  constructor
  · intro hlsn
    omega
  · intro hx
    exact absurd (hmem x hx) hfresh

/-- A step keeps the copy exact if and only if it is orderly. -/
theorem Exact.step_iff (h : Inv s) (hstep : s.step l = some s') :
    Exact s' ↔ Exact s ∧ l.Orderly s := by
  cases l with
  | writeCommit x lsn =>
    simp only [PgServer.step] at hstep
    split at hstep
    · rename_i hpossible
      obtain ⟨hlt, hfresh⟩ := hpossible
      cases hstep
      unfold Exact PgStep.Orderly
      cases hcopy : s.copy with
      | idle => simp
      | begun => simp
      | snapshotTaken snapshot =>
        have hnot : x ∉ snapshot := fun hx => hfresh (h.snapshot snapshot hcopy x hx)
        refine iff_of_false ?_ ?_
        · intro hall
          exact hnot (hall x lsn (by simp))
        · rintro ⟨-, horderly⟩
          exact horderly snapshot rfl
      | lsnRead snapshot boundaryLsn =>
        have hlater := h.later_commit (.inl hcopy) hlt hfresh
        simp only [List.mem_append, List.mem_singleton, Prod.mk.injEq]
        constructor
        · intro hall
          exact ⟨fun y lsn' hmem => hall y lsn' (.inl hmem), nofun⟩
        · rintro ⟨hall, -⟩ y lsn' (hmem | ⟨rfl, rfl⟩)
          · exact hall y lsn' hmem
          · exact hlater
      | exported snapshot boundaryLsn =>
        have hlater := h.later_commit (.inr hcopy) hlt hfresh
        simp only [List.mem_append, List.mem_singleton, Prod.mk.injEq]
        constructor
        · intro hall
          exact ⟨fun y lsn' hmem => hall y lsn' (.inl hmem), nofun⟩
        · rintro ⟨hall, -⟩ y lsn' (hmem | ⟨rfl, rfl⟩)
          · exact hall y lsn' hmem
          · exact hlater
    · cases hstep
  | becomeVisible x =>
    simp only [PgServer.step] at hstep
    split at hstep
    · cases hstep
      exact (and_iff_left trivial).symm
    · cases hstep
  | writeWal lsn =>
    simp only [PgServer.step] at hstep
    split at hstep
    · cases hstep
      exact (and_iff_left trivial).symm
    · cases hstep
  | beginTxn =>
    simp only [PgServer.step] at hstep
    split at hstep
    · rename_i hcopy
      cases hstep
      simp [Exact, PgStep.Orderly, hcopy]
    · cases hstep
  | takeSnapshot =>
    simp only [PgServer.step] at hstep
    split at hstep
    · rename_i hcopy
      cases hstep
      simp [Exact, PgStep.Orderly, hcopy]
    · cases hstep
  | readLsn =>
    simp only [PgServer.step] at hstep
    split at hstep
    · rename_i snapshot hcopy
      cases hstep
      unfold Exact PgStep.Orderly
      simp only [hcopy, and_true]
      constructor
      · intro hall x lsn hmem
        exact (hall x lsn hmem).mp (h.commits_le x lsn hmem)
      · intro hall x lsn hmem
        exact iff_of_true (h.commits_le x lsn hmem) (hall x lsn hmem)
    · cases hstep
  | exportSnapshot =>
    simp only [PgServer.step] at hstep
    split at hstep
    · rename_i snapshot lsn hcopy
      cases hstep
      simp [Exact, PgStep.Orderly, hcopy]
    · cases hstep

theorem Exact.run_iff {ls : List PgStep} (h : Inv s) (hrun : s.run ls = some s') :
    Exact s' ↔ Exact s ∧ OrderlyRun s ls := by
  induction ls generalizing s with
  | nil =>
    cases hrun
    exact (and_iff_left trivial).symm
  | cons l ls ih =>
    obtain ⟨s₁, hstep, hrest⟩ := Option.bind_eq_some_iff.mp hrun
    rw [ih (h.step hstep) hrest, Exact.step_iff h hstep, and_assoc]
    refine and_congr_right fun _ => and_congr_right fun _ => ?_
    constructor
    · intro hrun' s₂ hs₂
      rw [hstep] at hs₂
      cases hs₂
      exact hrun'
    · intro hall
      exact hall s₁ hstep

end PgServer

/-! ## The cut -/

theorem timesApplied_eq_one_iff (Row : Type) {snapshot : List XactId} {boundaryLsn lsn : Nat}
    {x : XactId} :
    timesApplied Row snapshot boundaryLsn x lsn = 1 ↔ (lsn ≤ boundaryLsn ↔ x ∈ snapshot) := by
  unfold timesApplied
  simp only [afterCopy, TableHandlerState.shouldDiscardEvent, TableEvent.isStreamingUpdate,
    TableEvent.getLsnForIngestEvent, Option.isSome_none, Bool.not_false, Bool.true_and,
    Option.any_some, decide_eq_true_eq]
  by_cases hx : x ∈ snapshot <;> by_cases hle : lsn ≤ boundaryLsn <;> simp [hx, hle]

theorem BoundaryExact.iff_exact (Row : Type) {s : PgServer} {snapshot : List XactId}
    {boundaryLsn : Nat} (hcopy : s.copy = .exported snapshot boundaryLsn) :
    BoundaryExact Row s snapshot boundaryLsn ↔ s.Exact := by
  unfold PgServer.Exact
  simp only [hcopy]
  constructor
  · intro h x lsn hmem
    exact (timesApplied_eq_one_iff Row).mp (h.once x lsn hmem)
  · intro h
    refine ⟨?_, ?_, ?_⟩
    · intro x lsn hmem hle
      exact (h x lsn hmem).mp hle
    · intro x lsn hmem hlt hx
      have hle := (h x lsn hmem).mpr hx
      omega
    · intro x lsn hmem
      exact (timesApplied_eq_one_iff Row).mpr (h x lsn hmem)

/-- In every run in which the copy exports its snapshot, the boundary is an exact cut if
and only if no commit record is written, or waits to become visible, between the
snapshot and the LSN. -/
theorem boundary_exact_iff (Row : Type) {walLsn boundaryLsn : Nat} {ls : List PgStep} {s : PgServer}
    {snapshot : List XactId} (hrun : (PgServer.new walLsn).run ls = some s)
    (hcopy : s.copy = .exported snapshot boundaryLsn) :
    BoundaryExact Row s snapshot boundaryLsn ↔ OrderlyRun (PgServer.new walLsn) ls := by
  rw [BoundaryExact.iff_exact Row hcopy, PgServer.Exact.run_iff (.new walLsn) hrun]
  exact and_iff_right trivial

/-- One commit before the copy, and one that is written after the LSN is read and becomes
visible during the copy. -/
theorem boundary_exact_between_commits :
    let ls : List PgStep := [.writeCommit 1 10, .becomeVisible 1, .beginTxn, .takeSnapshot, .readLsn,
      .writeCommit 2 20, .exportSnapshot, .becomeVisible 2]
    ∃ s, (PgServer.new 0).run ls = some s ∧ s.copy = .exported [1] 10 ∧
      BoundaryExact Nat s [1] 10 := by
  refine ⟨⟨20, [(1, 10), (2, 20)], [1, 2], .exported [1] 10⟩, rfl, rfl, ?_⟩
  refine (@boundary_exact_iff Nat 0 10 [.writeCommit 1 10, .becomeVisible 1, .beginTxn,
    .takeSnapshot, .readLsn, .writeCommit 2 20, .exportSnapshot, .becomeVisible 2] _ [1] rfl rfl).mpr ?_
  simp [OrderlyRun, PgStep.Orderly, PgServer.step, PgServer.new]

/-- The commit record of a transaction is in the WAL before the snapshot is taken, but the
transaction becomes visible after it: neither the copy nor the change stream has it. -/
theorem boundary_loses_invisible_commit :
    let ls : List PgStep := [.writeCommit 1 10, .beginTxn, .takeSnapshot, .readLsn, .exportSnapshot,
      .becomeVisible 1]
    ∃ s, (PgServer.new 0).run ls = some s ∧ s.copy = .exported [] 10 ∧ (1, 10) ∈ s.commits ∧
      timesApplied Nat [] 10 1 10 = 0 ∧ ¬ BoundaryExact Nat s [] 10 := by
  refine ⟨⟨10, [(1, 10)], [1], .exported [] 10⟩, rfl, rfl, by decide, by decide, ?_⟩
  intro h
  exact absurd (h.visible 1 10 (by decide) le_rfl) (by decide)

end Moonlink.Replication
