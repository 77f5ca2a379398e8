-- SUMMARY: Handler and table agree on the background tasks: no assertion fails and no flag stays behind, while all tasks succeed.
import Moonlink.Table.BackgroundTasks

namespace Moonlink.BackgroundTasks

open Lib
open Storage (MaintenanceProcessStatus)

/-- The snapshot looks for something to maintain. -/
def SnapshotOption.LooksForMaintenance (opt : SnapshotOption) : Prop :=
  opt.dataCompactionOption ≠ .skip ∨ opt.indexMergeOption ≠ .skip

/-- A task ends with an error. -/
def TaskInput.Fails : TaskInput → Prop
  | .persistenceSnapshotResult succeeds | .indexMergeResult succeeds
  | .dataCompactionResult succeeds | .periodicalWalPersistenceUpdateResult succeeds =>
    succeeds = false
  | _ => False

namespace TableTasks

/-! ## Agreement -/

variable (s : TableTasks)

/-- No maintenance runs, and every maintenance result was persisted. -/
def maintenanceDone : Bool :=
  !s.running.indexMerge && !s.running.dataCompaction &&
    s.table.nextSnapshotTask.newMaintenance == 0 &&
    s.table.unpersistedMaintenance ≤ s.table.nextSnapshotTask.persistedMaintenance

/-- No task and no flush runs, and no maintenance result waits to be persisted. -/
def idle : Bool :=
  s.running.mooncakeSnapshot.isNone && s.running.persistence.isNone && s.maintenanceDone &&
    !s.running.walPersistence && !s.hasOngoingFlush

/-- A task that does not run can be started, and what does not run does not keep the table
from being dropped. The result of a maintenance task is persisted before the next one. -/
structure Agrees (s : TableTasks) : Prop where
  mooncakeSnapshot : s.running.mooncakeSnapshot = none →
    Returns (s.periodicalMooncakeTableSnapshot false true) fun s' =>
      s'.running.mooncakeSnapshot.isSome = true
  persistence : s.running.persistence = none →
    s.handler.persistenceSnapshotOngoing = false ∧ ∀ payload,
      Returns (s.persistIcebergSnapshot payload) fun s' => s'.running.persistence = some payload
  maintenance : s.maintenanceDone = true →
    s.handler.tableMaintenanceProcessStatus = .unrequested ∧
      Returns s.performIndexMerge (fun s' => s'.running.indexMerge = true) ∧
      Returns s.performDataCompaction fun s' => s'.running.dataCompaction = true
  walPersistence : s.running.walPersistence = false →
    (s.periodicalPersistenceUpdateWal true).running.walPersistence = true
  drop : s.idle = true →
    s.handler.canDropTableNow s.hasOngoingFlush = true ∧
      Returns s.dropTable fun s' => s'.dropped = true

/-- Every task succeeds, and no flush sets a flush LSN below the one before. -/
def Permitted : TaskInput → Prop
  | .persistenceSnapshotResult succeeds | .indexMergeResult succeeds
  | .dataCompactionResult succeeds | .periodicalWalPersistenceUpdateResult succeeds =>
    succeeds = true
  | .flushResult _ (some lsn) =>
    (s.table.nextSnapshotTask.newFlushLsn.or s.table.snapshotFlushLsn).all (· ≤ lsn) = true
  | _ => True

instance {s : TableTasks} {i : TaskInput} : Decidable (s.Permitted i) := by
  unfold Permitted
  split <;> infer_instance

/-! ## The invariant -/

/-- The flags say which tasks run. -/
structure Flags (s : TableTasks) : Prop where
  snapshot : s.handler.mooncakeSnapshotOngoing = s.running.mooncakeSnapshot.isSome
  tableSnapshot : s.table.status.mooncakeSnapshotOngoing = s.running.mooncakeSnapshot.isSome
  persistence : s.handler.persistenceSnapshotOngoing = s.running.persistence.isSome
  tablePersistence : s.table.status.persistenceSnapshotOngoing = s.running.persistence.isSome
  manager : s.table.icebergTableManager = s.running.persistence.isNone
  indexMerge : s.table.status.indexMergeOngoing = s.running.indexMerge
  dataCompaction : s.table.status.dataCompactionOngoing = s.running.dataCompaction
  wal : s.handler.walPersistOngoing = s.running.walPersistence

/-- A persistence only starts when the result of the one before was consumed. -/
structure Handover (s : TableTasks) : Prop where
  consumed : s.running.persistence.isSome = true →
    s.handler.persistenceSnapshotResultConsumed = true
  queued : s.regularIcebergSnapshot.isSome = true →
    s.running.persistence = none ∧ s.handler.persistenceSnapshotResultConsumed = true
  records : s.running.persistence.isSome = true ∨ s.regularIcebergSnapshot.isSome = true ∨
      (s.running.mooncakeSnapshot.isSome = true ∧
        s.handler.persistenceSnapshotResultConsumed = true) →
    s.table.nextSnapshotTask.persistedRecords = none

def maintenanceTasks : Nat :=
  s.running.indexMerge.toNat + s.running.dataCompaction.toNat

/-- Where the result of the maintenance is that the status speaks of. -/
def Phase : Prop :=
  match s.handler.tableMaintenanceProcessStatus with
  | .unrequested => s.maintenanceTasks = 0 ∧ s.table.nextSnapshotTask.newMaintenance = 0 ∧
      s.table.unpersistedMaintenance = s.table.nextSnapshotTask.persistedMaintenance
  | .inProcess => s.maintenanceTasks = 1 ∧ s.table.nextSnapshotTask.newMaintenance = 0 ∧
      s.table.unpersistedMaintenance = 0 ∧ s.table.nextSnapshotTask.persistedMaintenance = 0
  | .readyToPersist => s.maintenanceTasks = 0 ∧
      s.table.nextSnapshotTask.newMaintenance + s.table.unpersistedMaintenance = 1 ∧
      s.table.nextSnapshotTask.persistedMaintenance = 0
  | .inPersist => s.maintenanceTasks = 0 ∧ s.table.nextSnapshotTask.newMaintenance = 0 ∧
      s.table.unpersistedMaintenance = 1 ∧ s.table.nextSnapshotTask.persistedMaintenance = 0 ∧
      ∃ p, s.running.persistence = some p ∧ p.maintenance = 1

structure Maintenance (s : TableTasks) : Prop where
  phase : s.Phase
  inSnapshot : ∀ r, s.running.mooncakeSnapshot = some r →
    r.payload.maintenance = s.table.unpersistedMaintenance ∧
      (r.option.LooksForMaintenance →
        s.handler.tableMaintenanceProcessStatus = .unrequested ∧ s.table.unpersistedMaintenance = 0)
  inQueue : ∀ q, s.regularIcebergSnapshot = some q → q.maintenance = 0 ∨
    (q.maintenance = 1 ∧ s.handler.tableMaintenanceProcessStatus = .readyToPersist ∧
      s.table.unpersistedMaintenance = 1)
  persisting : ∀ p, s.running.persistence = some p → p.maintenance = 0 ∨
    (p.maintenance = 1 ∧ s.handler.tableMaintenanceProcessStatus = .inPersist)
  compacting : s.table.nextSnapshotTask.compactingDataFiles = true →
    s.running.dataCompaction = true ∨ s.table.nextSnapshotTask.dataCompactionResult = true

def flushLsn : Nat := s.table.snapshotFlushLsn.getD 0

/-- Payloads follow the order of the flush LSNs, and the last alteration. -/
structure Payloads (s : TableTasks) : Prop where
  last : ∀ l, s.table.lastPersistenceSnapshotLsn = some l → l ≤ s.flushLsn
  nextLsn : ∀ l, s.table.nextSnapshotTask.newFlushLsn = some l → s.flushLsn ≤ l
  runLsn : ∀ r, s.running.mooncakeSnapshot = some r → r.payload.flushLsn = s.flushLsn
  runSchema : ∀ r, s.running.mooncakeSnapshot = some r → r.payload.newTableSchema = none
  queuedLsn : ∀ q, s.regularIcebergSnapshot = some q → q.flushLsn ≤ s.flushLsn ∧
    ∀ l, s.table.lastPersistenceSnapshotLsn = some l → l ≤ q.flushLsn
  queuedSchema : ∀ q, s.regularIcebergSnapshot = some q → q.newTableSchema = none
  persistingLsn : ∀ p, s.running.persistence = some p → p.flushLsn ≤ s.flushLsn ∧
    ∀ l, s.table.lastPersistenceSnapshotLsn = some l → l ≤ p.flushLsn
  persistingSchema : ∀ p, s.running.persistence = some p →
    ∀ v, p.newTableSchema = some v → v = s.table.schema

structure Consistent (s : TableTasks) : Prop extends
  Flags s, Handover s, Maintenance s, Payloads s

theorem new_consistent (persistenceSnapshotLsn : Option Nat) :
    (new persistenceSnapshotLsn).Consistent where
  snapshot := rfl
  tableSnapshot := rfl
  persistence := rfl
  tablePersistence := rfl
  manager := rfl
  indexMerge := rfl
  dataCompaction := rfl
  wal := rfl
  consumed h := (nomatch h)
  queued h := (nomatch h)
  records _ := rfl
  phase := ⟨rfl, rfl, rfl⟩
  inSnapshot _ h := (nomatch h)
  inQueue _ h := (nomatch h)
  persisting _ h := (nomatch h)
  compacting h := (nomatch h)
  last l h := by
    rw [flushLsn, show (new persistenceSnapshotLsn).table.snapshotFlushLsn = some l from h]
    exact Nat.le_refl l
  nextLsn _ h := (nomatch h)
  runLsn _ h := (nomatch h)
  runSchema _ h := (nomatch h)
  queuedLsn _ h := (nomatch h)
  queuedSchema _ h := (nomatch h)
  persistingLsn _ h := (nomatch h)
  persistingSchema _ h := (nomatch h)

/-! ## Starting tasks -/

variable {s : TableTasks}

@[simp] theorem assert_true (p : TaskPanic) : assert true p = .ok () := rfl

namespace Phase

theorem of_unrequested (h : s.Phase) (hs : s.handler.tableMaintenanceProcessStatus = .unrequested) :
    s.maintenanceTasks = 0 ∧ s.table.nextSnapshotTask.newMaintenance = 0 ∧
      s.table.unpersistedMaintenance = s.table.nextSnapshotTask.persistedMaintenance := by
  rw [Phase, hs] at h
  exact h

theorem of_inProcess (h : s.Phase) (hs : s.handler.tableMaintenanceProcessStatus = .inProcess) :
    s.maintenanceTasks = 1 ∧ s.table.nextSnapshotTask.newMaintenance = 0 ∧
      s.table.unpersistedMaintenance = 0 ∧ s.table.nextSnapshotTask.persistedMaintenance = 0 := by
  rw [Phase, hs] at h
  exact h

theorem of_readyToPersist (h : s.Phase)
    (hs : s.handler.tableMaintenanceProcessStatus = .readyToPersist) :
    s.maintenanceTasks = 0 ∧
      s.table.nextSnapshotTask.newMaintenance + s.table.unpersistedMaintenance = 1 ∧
      s.table.nextSnapshotTask.persistedMaintenance = 0 := by
  rw [Phase, hs] at h
  exact h

theorem of_inPersist (h : s.Phase) (hs : s.handler.tableMaintenanceProcessStatus = .inPersist) :
    s.maintenanceTasks = 0 ∧ s.table.nextSnapshotTask.newMaintenance = 0 ∧
      s.table.unpersistedMaintenance = 1 ∧ s.table.nextSnapshotTask.persistedMaintenance = 0 ∧
      ∃ p, s.running.persistence = some p ∧ p.maintenance = 1 := by
  rw [Phase, hs] at h
  exact h

variable {s' : TableTasks}

/-- A new snapshot prunes what was persisted and buffers what maintenance has produced. -/
theorem prune (h : s.Phase)
    (hstatus : s'.handler.tableMaintenanceProcessStatus = s.handler.tableMaintenanceProcessStatus)
    (htasks : s'.maintenanceTasks = s.maintenanceTasks)
    (hpersistence : s'.running.persistence = s.running.persistence)
    (htask : s'.table.nextSnapshotTask = .new)
    (hunpersisted : s'.table.unpersistedMaintenance = s.table.unpersistedMaintenance -
      s.table.nextSnapshotTask.persistedMaintenance + s.table.nextSnapshotTask.newMaintenance) :
    s'.Phase := by
  have hnew : s'.table.nextSnapshotTask.newMaintenance = 0 := by rw [htask]; rfl
  have hpersisted : s'.table.nextSnapshotTask.persistedMaintenance = 0 := by rw [htask]; rfl
  unfold Phase
  rw [hstatus, htasks, hpersistence, hnew, hpersisted, hunpersisted]
  cases hs : s.handler.tableMaintenanceProcessStatus with
  | unrequested =>
    obtain ⟨htasks, hnew, hunpersisted⟩ := h.of_unrequested hs
    exact ⟨htasks, rfl, by omega⟩
  | inProcess =>
    obtain ⟨htasks, hnew, hunpersisted, -⟩ := h.of_inProcess hs
    exact ⟨htasks, rfl, by omega, rfl⟩
  | readyToPersist =>
    obtain ⟨htasks, hready, hpersisted⟩ := h.of_readyToPersist hs
    exact ⟨htasks, by omega, rfl⟩
  | inPersist =>
    obtain ⟨htasks, hnew, hunpersisted, hpersisted, hp⟩ := h.of_inPersist hs
    exact ⟨htasks, rfl, by omega, rfl, hp⟩

/-- While no persistence runs, the phase does not speak of one. -/
theorem keep (h : s.Phase) (hpersistence : s.running.persistence = none)
    (hstatus : s'.handler.tableMaintenanceProcessStatus = s.handler.tableMaintenanceProcessStatus)
    (htasks : s'.maintenanceTasks = s.maintenanceTasks)
    (htask : s'.table.nextSnapshotTask = s.table.nextSnapshotTask)
    (hunpersisted : s'.table.unpersistedMaintenance = s.table.unpersistedMaintenance) : s'.Phase := by
  unfold Phase at h ⊢
  rw [hstatus, htasks, htask, hunpersisted]
  cases hs : s.handler.tableMaintenanceProcessStatus <;> simp only [hs, hpersistence] at h ⊢
  case inPersist =>
    obtain ⟨-, -, -, -, _, hp, -⟩ := h
    cases hp
  all_goals exact h

/-- A persistence without maintenance results does not end a phase. -/
theorem persistNothing (h : s.Phase)
    (hne : s.handler.tableMaintenanceProcessStatus ≠ .inPersist)
    (hpersisted : s.table.nextSnapshotTask.persistedMaintenance = 0)
    (hstatus : s'.handler.tableMaintenanceProcessStatus = s.handler.tableMaintenanceProcessStatus)
    (htasks : s'.maintenanceTasks = s.maintenanceTasks)
    (hnew : s'.table.nextSnapshotTask.newMaintenance = s.table.nextSnapshotTask.newMaintenance)
    (hunpersisted : s'.table.unpersistedMaintenance = s.table.unpersistedMaintenance)
    (hpersisted' : s'.table.nextSnapshotTask.persistedMaintenance = 0) : s'.Phase := by
  unfold Phase at h ⊢
  rw [hstatus, htasks, hnew, hunpersisted, hpersisted']
  cases hs : s.handler.tableMaintenanceProcessStatus <;> simp only [hs, hpersisted] at h ⊢
  case inPersist => exact (hne hs).elim
  all_goals exact h

end Phase

/-- Creating a snapshot moves the next snapshot task into the snapshot. -/
theorem Consistent.createSnapshotImpl (h : s.Consistent) {opt : SnapshotOption}
    (hnone : s.running.mooncakeSnapshot = none)
    (hlooks : opt.LooksForMaintenance → s.handler.tableMaintenanceProcessStatus = .unrequested) :
    Returns (s.createSnapshotImpl opt) fun s' =>
      Consistent { s' with handler := { s'.handler with mooncakeSnapshotOngoing := true } } ∧
      s'.handler = s.handler ∧ s'.running.mooncakeSnapshot.isSome = true := by
  have hfree : s.table.status.mooncakeSnapshotOngoing = false := by simp [h.tableSnapshot, hnone]
  have hflush : s.flushLsn ≤ (s.table.nextSnapshotTask.newFlushLsn.or s.table.snapshotFlushLsn).getD 0 := by
    cases hnext : s.table.nextSnapshotTask.newFlushLsn with
    | none => exact Nat.le_refl _
    | some l => exact h.nextLsn l hnext
  simp only [TableTasks.createSnapshotImpl, hfree, Bool.not_false, assert_true, ok_bind]
  refine .pure ⟨{ h with
    snapshot := rfl
    tableSnapshot := rfl
    records := fun _ => rfl
    phase := h.phase.prune rfl rfl rfl rfl rfl
    inSnapshot := ?_
    inQueue := fun q hq => ?_
    compacting := nofun
    last := fun l hl => (h.last l hl).trans hflush
    nextLsn := nofun
    runLsn := fun r hr => by cases hr; rfl
    runSchema := fun r hr => by cases hr; rfl
    queuedLsn := fun q hq => ⟨(h.queuedLsn q hq).1.trans hflush, (h.queuedLsn q hq).2⟩
    persistingLsn := fun p hp => ⟨(h.persistingLsn p hp).1.trans hflush, (h.persistingLsn p hp).2⟩ },
    rfl, rfl⟩
  · rintro r ⟨⟩
    refine ⟨rfl, fun hl => ⟨hlooks hl, ?_⟩⟩
    obtain ⟨-, hnew, hunpersisted⟩ := h.phase.of_unrequested (hlooks hl)
    simp only [hnew, hunpersisted, Nat.sub_self]
  · refine (h.inQueue q hq).imp_right fun ⟨hq, hready, hunpersisted⟩ => ⟨hq, hready, ?_⟩
    obtain ⟨-, hnew, hpersisted⟩ := h.phase.of_readyToPersist hready
    simp only [hunpersisted, hpersisted] at hnew ⊢
    omega

/-- The attempt is forced, or there is work. -/
theorem Consistent.tryCreateMooncakeSnapshot (h : s.Consistent) {opt : SnapshotOption} {otherWork : Bool}
    (hnone : s.running.mooncakeSnapshot = none)
    (hlooks : opt.LooksForMaintenance → s.handler.tableMaintenanceProcessStatus = .unrequested) :
    Returns (s.tryCreateMooncakeSnapshot opt otherWork) fun r =>
      Consistent { r.1 with handler := { r.1.handler with mooncakeSnapshotOngoing := r.2 } } ∧
      r.1.handler = s.handler ∧ r.2 = r.1.running.mooncakeSnapshot.isSome ∧
      ((opt.forceCreate || otherWork) = true → r.2 = true) := by
  simp only [TableTasks.tryCreateMooncakeSnapshot]
  split
  · rename_i hnot
    refine .ok ⟨{ h with snapshot := ?_ }, rfl, ?_, ?_⟩
    · simp [hnone]
    · simp [hnone]
    · simp only [SnapshotTask.shouldCreateSnapshot, Bool.and_eq_true, Bool.not_eq_true',
        Bool.or_eq_false_iff] at hnot
      simp [hnot.1.1, hnot.2]
  · refine (h.createSnapshotImpl hnone hlooks).bind fun s' ⟨hs', hhandler, hsome⟩ => ?_
    exact .pure ⟨hs', hhandler, hsome.symm, fun _ => rfl⟩

/-- Between snapshots a result that waits is taken as consumed. -/
theorem Consistent.resetIcebergState (h : s.Consistent) (hnone : s.running.mooncakeSnapshot = none) :
    Returns s.handler.resetIcebergStateAtMooncakeSnapshot fun handler =>
      Consistent { s with handler } ∧
      handler.tableMaintenanceProcessStatus = s.handler.tableMaintenanceProcessStatus := by
  have hreset : (!s.handler.persistenceSnapshotOngoing ||
      s.handler.persistenceSnapshotResultConsumed) = true := by
    rw [h.persistence]
    cases hp : s.running.persistence.isSome with
    | false => rfl
    | true => rw [h.consumed hp]; rfl
  simp only [TableHandlerState.resetIcebergStateAtMooncakeSnapshot, hreset, assert_true, ok_bind]
  refine .pure ?_
  split
  · exact ⟨h, rfl⟩
  · rename_i hconsumed
    have hp : s.running.persistence = none := by
      by_contra hp
      exact hconsumed (h.consumed (Option.isSome_iff_ne_none.mpr hp))
    refine ⟨{ h with
      persistence := by simp [hp]
      consumed := fun _ => rfl
      queued := fun hq => ⟨hp, rfl⟩
      records := fun hr => h.records (hr.imp_right (Or.imp_right fun ⟨hm, _⟩ => ?_)) }, rfl⟩
    rw [hnone] at hm
    cases hm

theorem looksForMaintenance_getMooncakeSnapshotOption {h : TableHandlerState} {forced : Bool}
    (hlooks : (h.getMooncakeSnapshotOption forced).LooksForMaintenance) :
    h.tableMaintenanceProcessStatus = .unrequested := by
  by_contra hstatus
  simp [SnapshotOption.LooksForMaintenance, TableHandlerState.getMooncakeSnapshotOption,
    TableHandlerState.getMaintenanceTaskOption, hstatus] at hlooks

theorem Consistent.periodicalMooncakeTableSnapshot (h : s.Consistent) (forced otherWork : Bool) :
    Returns (s.periodicalMooncakeTableSnapshot forced otherWork) fun s' => s'.Consistent ∧
      ((forced || otherWork) = true → s'.running.mooncakeSnapshot.isSome = true) := by
  simp only [TableTasks.periodicalMooncakeTableSnapshot]
  split
  · rename_i hongoing
    exact .ok ⟨h, fun _ => h.snapshot ▸ hongoing⟩
  · rename_i hongoing
    have hnone : s.running.mooncakeSnapshot = none := by
      rw [h.snapshot] at hongoing
      simpa using hongoing
    refine (h.resetIcebergState hnone).bind fun handler ⟨hh, hstatus⟩ => ?_
    refine (hh.tryCreateMooncakeSnapshot hnone
      looksForMaintenance_getMooncakeSnapshotOption).bind fun ⟨s', created⟩ ⟨hs', hhandler, hsome, hwork⟩ => ?_
    have hforced : (forced || otherWork) = true → created = true := fun hw => hwork (by
      cases forced with
      | true => rfl
      | false => simp [show otherWork = true from hw])
    have hassert : (created || !forced) = true := by
      cases forced with
      | true => simp [hforced rfl]
      | false => simp
    simp only [hassert, assert_true, ok_bind]
    exact .pure ⟨hs', fun hw => hsome ▸ hforced hw⟩

/-! ## Dropping the table -/

/-- A step that drops the table if that was requested and nothing is left to do. -/
structure Dropped (s s' : TableTasks) : Prop where
  eq : s' = s ∨ s' = { s with dropped := true }
  dropped : s.handler.specialTableState = .dropTable →
    s.handler.canDropTableNow s.hasOngoingFlush = true → s'.dropped = true

theorem Consistent.of_dropped (h : s.Consistent) : Consistent { s with dropped := true } :=
  { h with }

theorem Consistent.dropTable (h : s.Consistent)
    (hdrop : s.handler.canDropTableNow s.hasOngoingFlush = true) :
    Returns s.dropTable (· = { s with dropped := true }) := by
  have hmanager : s.table.icebergTableManager = true := by
    simp only [TableHandlerState.canDropTableNow, h.persistence, Bool.and_eq_true,
      Bool.not_eq_true'] at hdrop
    rw [h.manager, ← Option.not_isSome, hdrop.1.1.1.2]
    rfl
  simp only [TableTasks.dropTable, hmanager, assert_true, ok_bind]
  exact .pure rfl

theorem Consistent.dropIfRequested (h : s.Consistent) :
    Returns s.dropIfRequested fun s' => s'.Consistent ∧ s.Dropped s' := by
  simp only [TableTasks.dropIfRequested]
  split
  · rename_i hdrop
    rw [Bool.and_eq_true] at hdrop
    refine (h.dropTable hdrop.2).mono ?_
    rintro s' rfl
    exact ⟨h.of_dropped, .inr rfl, fun _ _ => rfl⟩
  · rename_i hdrop
    refine .ok ⟨h, .inl rfl, fun hspecial hcan => (hdrop ?_).elim⟩
    simp [hspecial, hcan]

/-! ## Mooncake snapshots -/

theorem Consistent.markMooncakeSnapshotCompleted (h : s.Consistent) {run : SnapshotRun}
    (hrun : s.running.mooncakeSnapshot = some run) :
    Returns s.markMooncakeSnapshotCompleted fun s' => s'.Consistent ∧
      s'.handler = { s.handler with mooncakeSnapshotOngoing := false } ∧
      s'.table = { s.table with status := { s.table.status with mooncakeSnapshotOngoing := false } } ∧
      s'.running = { s.running with mooncakeSnapshot := none } ∧
      s'.regularIcebergSnapshot = s.regularIcebergSnapshot ∧ s'.dropped = s.dropped := by
  have hongoing : s.table.status.mooncakeSnapshotOngoing = true := by simp [h.tableSnapshot, hrun]
  simp only [TableTasks.markMooncakeSnapshotCompleted, hongoing, assert_true, ok_bind]
  exact .pure ⟨{ h with
    snapshot := rfl
    tableSnapshot := rfl
    records := fun hr => h.records (hr.imp_right (Or.imp_right fun ⟨hm, _⟩ => (nomatch hm)))
    inSnapshot := nofun
    runLsn := nofun
    runSchema := nofun }, rfl, rfl, rfl, rfl, rfl⟩

/-- What the event loop knows of the payload of a snapshot that has completed. -/
structure Completed (s : TableTasks) (run : SnapshotRun) : Prop where
  notRunning : s.running.mooncakeSnapshot = none
  notQueued : s.regularIcebergSnapshot = none
  records : s.handler.persistenceSnapshotResultConsumed = true →
    s.table.nextSnapshotTask.persistedRecords = none
  maintenance : run.payload.maintenance = s.table.unpersistedMaintenance
  looks : run.option.LooksForMaintenance →
    s.handler.tableMaintenanceProcessStatus = .unrequested ∧ s.table.unpersistedMaintenance = 0
  lsn : run.payload.flushLsn = s.flushLsn
  schema : run.payload.newTableSchema = none

theorem Consistent.queueIcebergSnapshot (h : s.Consistent) {run : SnapshotRun}
    (hcompleted : s.Completed run) (output : MooncakeSnapshotOutput) :
    (s.queueIcebergSnapshot run output).Consistent := by
  simp only [TableTasks.queueIcebergSnapshot]
  split
  · rename_i hinitiate
    simp only [TableHandlerState.canInitiateIcebergSnapshot, h.persistence, Bool.and_eq_true,
      Bool.not_eq_true', Option.isSome_eq_false_iff, Option.isNone_iff_eq_none] at hinitiate
    obtain ⟨⟨⟨hconsumed, hpersistence⟩, -⟩, -⟩ := hinitiate
    refine { h with
      queued := fun _ => ⟨hpersistence, hconsumed⟩
      records := fun _ => hcompleted.records hconsumed
      inQueue := ?_, queuedLsn := ?_, queuedSchema := ?_ }
    · rintro q ⟨⟩
      rw [hcompleted.maintenance]
      have hpersisted : s.table.nextSnapshotTask.persistedMaintenance = 0 := by
        simp [SnapshotTask.persistedMaintenance, hcompleted.records hconsumed]
      cases hs : s.handler.tableMaintenanceProcessStatus with
      | unrequested => exact .inl ((h.phase.of_unrequested hs).2.2.trans hpersisted)
      | inProcess => exact .inl (h.phase.of_inProcess hs).2.2.1
      | readyToPersist =>
        obtain ⟨-, hready, -⟩ := h.phase.of_readyToPersist hs
        have : s.table.unpersistedMaintenance = 0 ∨ s.table.unpersistedMaintenance = 1 := by omega
        exact this.imp_right fun hone => ⟨hone, rfl, hone⟩
      | inPersist =>
        obtain ⟨-, -, -, -, p, hp, -⟩ := h.phase.of_inPersist hs
        rw [hpersistence] at hp
        cases hp
    · rintro q ⟨⟩
      rw [hcompleted.lsn]
      exact ⟨Nat.le_refl _, h.last⟩
    · rintro q ⟨⟩
      exact hcompleted.schema
  · exact h

/-- Nothing is being maintained, and nothing that was maintained is left to persist. -/
structure MaintenanceFree (s : TableTasks) : Prop where
  status : s.handler.tableMaintenanceProcessStatus = .unrequested
  unpersisted : s.table.unpersistedMaintenance = 0

theorem maintenanceTasks_eq_zero :
    s.maintenanceTasks = 0 ↔ s.running.indexMerge = false ∧ s.running.dataCompaction = false := by
  simp [maintenanceTasks]

theorem newMaintenance_eq_zero {task : SnapshotTask} :
    task.newMaintenance = 0 ↔ task.indexMergeResult = false ∧ task.dataCompactionResult = false := by
  simp [SnapshotTask.newMaintenance]

variable {s' : TableTasks}

/-- Maintenance goes on while no result of it is to be persisted. -/
theorem Consistent.moveTask (h : s.Consistent)
    (hstatus : s.handler.tableMaintenanceProcessStatus = .inProcess ∨
      s.handler.tableMaintenanceProcessStatus = .unrequested ∧ s.running.mooncakeSnapshot = none)
    (hflags : s'.Flags) (hhandover : s'.Handover) (hpayloads : s'.Payloads) (hphase : s'.Phase)
    (hunpersisted : s'.table.unpersistedMaintenance = s.table.unpersistedMaintenance)
    (hrun : s'.running.mooncakeSnapshot = s.running.mooncakeSnapshot)
    (hpersistence : s'.running.persistence = s.running.persistence)
    (hqueued : s'.regularIcebergSnapshot = s.regularIcebergSnapshot)
    (hcompacting : s'.table.nextSnapshotTask.compactingDataFiles = true →
      s'.running.dataCompaction = true ∨ s'.table.nextSnapshotTask.dataCompactionResult = true) :
    s'.Consistent := by
  have hneither : s.handler.tableMaintenanceProcessStatus ≠ .readyToPersist ∧
      s.handler.tableMaintenanceProcessStatus ≠ .inPersist := by
    obtain hstatus | ⟨hstatus, -⟩ := hstatus <;> simp [hstatus]
  refine { hflags, hhandover, hpayloads with
    phase := hphase, inSnapshot := ?_, inQueue := ?_, persisting := ?_, compacting := hcompacting }
  · intro r hr
    rw [hrun] at hr
    refine ⟨(h.inSnapshot r hr).1.trans hunpersisted.symm, fun hlooks => ?_⟩
    have hunrequested := ((h.inSnapshot r hr).2 hlooks).1
    obtain hprocess | ⟨-, hnone⟩ := hstatus
    · rw [hprocess] at hunrequested
      cases hunrequested
    · rw [hnone] at hr
      cases hr
  · intro q hq
    rw [hqueued] at hq
    exact .inl ((h.inQueue q hq).resolve_right fun ⟨_, hready, _⟩ => hneither.1 hready)
  · intro p hp
    rw [hpersistence] at hp
    exact .inl ((h.persisting p hp).resolve_right fun ⟨_, hpersist⟩ => hneither.2 hpersist)

theorem Consistent.not_compacting (h : s.Consistent) (htasks : s.maintenanceTasks = 0)
    (hnew : s.table.nextSnapshotTask.newMaintenance = 0) :
    s.table.nextSnapshotTask.compactingDataFiles = false := by
  rw [Bool.eq_false_iff]
  intro hk
  cases h.compacting hk with
  | inl hrunning =>
    rw [(maintenanceTasks_eq_zero.mp htasks).2] at hrunning
    cases hrunning
  | inr hresult =>
    rw [(newMaintenance_eq_zero.mp hnew).2] at hresult
    cases hresult

theorem Consistent.performDataCompaction (h : s.Consistent) (hfree : s.MaintenanceFree)
    (hnone : s.running.mooncakeSnapshot = none) :
    Returns ({ s with handler := { s.handler with
      tableMaintenanceProcessStatus := .inProcess } } : TableTasks).performDataCompaction
      fun s' => s'.Consistent ∧ s'.running.mooncakeSnapshot = none := by
  obtain ⟨htasks, hnew, heq⟩ := h.phase.of_unrequested hfree.status
  obtain ⟨hmerge, hcompaction⟩ := maintenanceTasks_eq_zero.mp htasks
  have hongoing : s.table.status.dataCompactionOngoing = false := h.dataCompaction.trans hcompaction
  have hcompacting := h.not_compacting htasks hnew
  simp only [TableTasks.performDataCompaction, hongoing, hcompacting, Bool.not_false, assert_true,
    ok_bind]
  refine .pure ⟨h.moveTask (.inr ⟨hfree.status, hnone⟩) { h.toFlags with dataCompaction := rfl }
    { h.toHandover with } { h.toPayloads with } ⟨?_, hnew, hfree.unpersisted, heq ▸ hfree.unpersisted⟩
    rfl rfl rfl rfl fun _ => .inl rfl, hnone⟩
  simp [maintenanceTasks, hmerge]

theorem Consistent.performIndexMerge (h : s.Consistent) (hfree : s.MaintenanceFree)
    (hnone : s.running.mooncakeSnapshot = none) :
    Returns ({ s with handler := { s.handler with
      tableMaintenanceProcessStatus := .inProcess } } : TableTasks).performIndexMerge
      fun s' => s'.Consistent ∧ s'.running.mooncakeSnapshot = none := by
  obtain ⟨htasks, hnew, heq⟩ := h.phase.of_unrequested hfree.status
  obtain ⟨hmerge, hcompaction⟩ := maintenanceTasks_eq_zero.mp htasks
  have hongoing : s.table.status.indexMergeOngoing = false := h.indexMerge.trans hmerge
  simp only [TableTasks.performIndexMerge, hongoing, Bool.not_false, assert_true, ok_bind]
  refine .pure ⟨h.moveTask (.inr ⟨hfree.status, hnone⟩) { h.toFlags with indexMerge := rfl }
    { h.toHandover with } { h.toPayloads with } ⟨?_, hnew, hfree.unpersisted, heq ▸ hfree.unpersisted⟩
    rfl rfl rfl rfl h.compacting, hnone⟩
  simp [maintenanceTasks, hcompaction]

/-- A request for maintenance is answered, or a new one is noted. -/
theorem Consistent.of_requests (h : s.Consistent) (indexMerge dataCompaction : MaintenanceRequestStatus) :
    Consistent { s with handler := { s.handler with
      indexMergeRequestStatus := indexMerge
      dataCompactionRequestStatus := dataCompaction } } :=
  { h with }

variable {status : MaintenanceStatus}

theorem Consistent.startDataCompaction (h : s.Consistent)
    (hfree : status = .payload → s.MaintenanceFree) (hnone : s.running.mooncakeSnapshot = none) :
    Returns (s.startDataCompaction status) fun s' => s'.Consistent ∧
      s'.running.mooncakeSnapshot = none ∧
      (status ≠ .payload → s'.handler.tableMaintenanceProcessStatus =
        s.handler.tableMaintenanceProcessStatus ∧
        s'.table.unpersistedMaintenance = s.table.unpersistedMaintenance) := by
  cases status with
  | unknown => exact .ok ⟨h, hnone, fun _ => ⟨rfl, rfl⟩⟩
  | nothing =>
    simp only [TableTasks.startDataCompaction]
    split
    · exact .ok ⟨h.of_requests _ _, hnone, fun _ => ⟨rfl, rfl⟩⟩
    · exact .ok ⟨h, hnone, fun _ => ⟨rfl, rfl⟩⟩
  | payload =>
    exact (h.performDataCompaction (hfree rfl) hnone).mono fun s' ⟨hs', hnone'⟩ =>
      ⟨hs', hnone', fun hne => (hne rfl).elim⟩

theorem Consistent.startIndexMerge (h : s.Consistent)
    (hfree : status = .payload → s.MaintenanceFree) (hnone : s.running.mooncakeSnapshot = none) :
    Returns (s.startIndexMerge status) Consistent := by
  cases status with
  | unknown => exact .ok h
  | nothing =>
    simp only [TableTasks.startIndexMerge]
    split
    · exact .ok (h.of_requests _ _)
    · exact .ok h
  | payload =>
    simp only [TableTasks.startIndexMerge, (hfree rfl).status, BEq.rfl, assert_true, ok_bind]
    exact (h.performIndexMerge (hfree rfl) hnone).mono fun s' hs' => hs'.1

variable {output : MooncakeSnapshotOutput}

theorem Consistent.startMaintenance (h : s.Consistent)
    (hcompaction : output.dataCompactionPayload = .payload → s.MaintenanceFree)
    (hmerge : output.fileIndicesMergePayload = .payload →
      output.dataCompactionPayload ≠ .payload ∧ s.MaintenanceFree)
    (hnone : s.running.mooncakeSnapshot = none) :
    Returns (s.startMaintenance output) Consistent := by
  simp only [TableTasks.startMaintenance]
  split
  · refine (h.startDataCompaction hcompaction hnone).bind fun s' ⟨hs', hnone', hsame⟩ => ?_
    refine hs'.startIndexMerge (fun hpayload => ?_) hnone'
    obtain ⟨hnot, hfree⟩ := hmerge hpayload
    obtain ⟨hstatus, hunpersisted⟩ := hsame hnot
    exact ⟨hstatus.trans hfree.status, hunpersisted.trans hfree.unpersisted⟩
  · exact .ok h

/-- The step starts tasks at most: a table that could not be dropped still cannot. -/
structure OnlyStarts (s s' : TableTasks) : Prop where
  special : s'.handler.specialTableState = s.handler.specialTableState
  blocked : s'.handler.canDropTableNow s'.hasOngoingFlush = true →
    s.handler.canDropTableNow s.hasOngoingFlush = true

theorem OnlyStarts.trans {s₁ s₂ s₃ : TableTasks} (h₁ : OnlyStarts s₁ s₂) (h₂ : OnlyStarts s₂ s₃) :
    OnlyStarts s₁ s₃ :=
  ⟨h₂.special.trans h₁.special, fun hcan => h₁.blocked (h₂.blocked hcan)⟩

/-- Maintenance that is in process keeps the table. -/
theorem onlyStarts_of_inProcess
    (hspecial : s'.handler.specialTableState = s.handler.specialTableState)
    (hstatus : s'.handler.tableMaintenanceProcessStatus = .inProcess) : OnlyStarts s s' := by
  refine ⟨hspecial, fun hcan => ?_⟩
  simp [TableHandlerState.canDropTableNow, hstatus] at hcan

theorem onlyStarts_startDataCompaction
    (hstart : s.startDataCompaction status = .ok s') : OnlyStarts s s' := by
  cases status with
  | unknown =>
    cases hstart
    exact ⟨rfl, id⟩
  | nothing =>
    simp only [TableTasks.startDataCompaction] at hstart
    split at hstart <;> cases hstart <;> exact ⟨rfl, id⟩
  | payload =>
    obtain ⟨_, -, hstart⟩ := bind_eq_ok.mp hstart
    obtain ⟨_, -, hstart⟩ := bind_eq_ok.mp hstart
    cases hstart
    exact onlyStarts_of_inProcess rfl rfl

theorem onlyStarts_startIndexMerge
    (hstart : s.startIndexMerge status = .ok s') : OnlyStarts s s' := by
  cases status with
  | unknown =>
    cases hstart
    exact ⟨rfl, id⟩
  | nothing =>
    simp only [TableTasks.startIndexMerge] at hstart
    split at hstart <;> cases hstart <;> exact ⟨rfl, id⟩
  | payload =>
    obtain ⟨_, -, hstart⟩ := bind_eq_ok.mp hstart
    obtain ⟨_, -, hstart⟩ := bind_eq_ok.mp hstart
    cases hstart
    exact onlyStarts_of_inProcess rfl rfl

theorem onlyStarts_startMaintenance
    (hstart : s.startMaintenance output = .ok s') : OnlyStarts s s' := by
  simp only [TableTasks.startMaintenance] at hstart
  split at hstart
  · obtain ⟨s₁, hcompaction, hmerge⟩ := bind_eq_ok.mp hstart
    exact (onlyStarts_startDataCompaction hcompaction).trans (onlyStarts_startIndexMerge hmerge)
  · cases hstart
    exact ⟨rfl, id⟩

@[simp] theorem queueIcebergSnapshot_handler (run : SnapshotRun) (output : MooncakeSnapshotOutput) :
    (s.queueIcebergSnapshot run output).handler = s.handler := by
  simp only [TableTasks.queueIcebergSnapshot]
  split <;> rfl

@[simp] theorem queueIcebergSnapshot_table (run : SnapshotRun) (output : MooncakeSnapshotOutput) :
    (s.queueIcebergSnapshot run output).table = s.table := by
  simp only [TableTasks.queueIcebergSnapshot]
  split <;> rfl

@[simp] theorem queueIcebergSnapshot_running (run : SnapshotRun) (output : MooncakeSnapshotOutput) :
    (s.queueIcebergSnapshot run output).running = s.running := by
  simp only [TableTasks.queueIcebergSnapshot]
  split <;> rfl

theorem onlyStarts_queueIcebergSnapshot (run : SnapshotRun) (output : MooncakeSnapshotOutput) :
    OnlyStarts s (s.queueIcebergSnapshot run output) := by
  simp only [TableTasks.queueIcebergSnapshot]
  split <;> exact ⟨rfl, id⟩

/-- A requested drop is not left to do when nothing keeps the table. -/
def DropSettled : Prop :=
  s.handler.specialTableState = .dropTable → s.handler.canDropTableNow s.hasOngoingFlush = true →
    s.dropped = true

theorem Dropped.dropSettled (h : s.Dropped s') : s'.DropSettled := by
  intro hspecial hcan
  obtain rfl | rfl := h.eq
  · exact h.dropped hspecial hcan
  · rfl

theorem Dropped.dropSettled_of_onlyStarts {s₁ s' : TableTasks} (h : s.Dropped s₁)
    (hkept : s₁.dropped ≠ true) (hstarts : OnlyStarts s₁ s') : s'.DropSettled := fun hspecial hcan =>
  (hkept (h.dropSettled (hstarts.special ▸ hspecial) (hstarts.blocked hcan))).elim

/-- What a snapshot offers to maintain is free to be started. -/
theorem Consistent.mooncakeTableSnapshotResult (h : s.Consistent)
    (hallows : s.allows (.mooncakeTableSnapshotResult output) = true) :
    Returns (s.mooncakeTableSnapshotResult output) fun s' => s'.Consistent ∧ s'.DropSettled := by
  simp only [allows, Bool.and_eq_true, Option.isNone_iff_eq_none, Option.any_eq_true] at hallows
  obtain ⟨hqueue, run, hrun, ⟨⟨-, hcompaction⟩, hmerge⟩, hboth⟩ := hallows
  simp only [TableTasks.mooncakeTableSnapshotResult, hrun]
  refine (h.markMooncakeSnapshotCompleted hrun).bind fun s₁ hmark => ?_
  obtain ⟨hs₁, hhandler, htable, hrunning, hqueued, -⟩ := hmark
  have hcompleted : s₁.Completed run := {
    notRunning := by rw [hrunning]
    notQueued := hqueued.trans hqueue
    records := fun hconsumed => by
      rw [htable]
      exact h.records (.inr (.inr ⟨by rw [hrun]; rfl, by rw [hhandler] at hconsumed; exact hconsumed⟩))
    maintenance := by rw [htable]; exact (h.inSnapshot run hrun).1
    looks := by rw [hhandler, htable]; exact (h.inSnapshot run hrun).2
    lsn := by rw [flushLsn, htable]; exact h.runLsn run hrun
    schema := h.runSchema run hrun }
  refine hs₁.dropIfRequested.bind ?_
  rintro s₂ ⟨hs₂, hdropped⟩
  split
  · exact .pure ⟨hs₂, hdropped.dropSettled⟩
  · rename_i hkept
    obtain rfl := hdropped.eq.resolve_right fun heq => hkept (by rw [heq])
    have hfree (hlooks : run.option.LooksForMaintenance) :
        (s₂.queueIcebergSnapshot run output).MaintenanceFree := by
      constructor
      · rw [queueIcebergSnapshot_handler]
        exact (hcompleted.looks hlooks).1
      · rw [queueIcebergSnapshot_table]
        exact (hcompleted.looks hlooks).2
    have hstarted : Returns ((s₂.queueIcebergSnapshot run output).startMaintenance output) Consistent := by
      refine (hs₂.queueIcebergSnapshot hcompleted output).startMaintenance (fun hpayload => ?_)
        (fun hpayload => ⟨fun hcompacts => ?_, ?_⟩) ?_
      · exact hfree (.inl fun hskip => by simp [hpayload, hskip] at hcompaction)
      · simp [hpayload, hcompacts] at hboth
      · exact hfree (.inr fun hskip => by simp [hpayload, hskip] at hmerge)
      · rw [queueIcebergSnapshot_running]
        exact hcompleted.notRunning
    obtain ⟨s', hstart, hs'⟩ := hstarted
    exact ⟨s', hstart, hs', hdropped.dropSettled_of_onlyStarts hkept
      ((onlyStarts_queueIcebergSnapshot run output).trans (onlyStarts_startMaintenance hstart))⟩

/-! ## Persistence -/

/-- A payload in the queue starts to be persisted. -/
theorem Consistent.persistIcebergSnapshot (h : s.Consistent) {q : PersistencePayload}
    (payload : PersistencePayload) (hq : s.regularIcebergSnapshot = some q) (hlsn : payload.flushLsn = q.flushLsn)
    (hmaintenance : payload.maintenance = q.maintenance)
    (hschema : ∀ v, payload.newTableSchema = some v → v = s.table.schema) :
    Returns (({ s with
      handler := { s.handler with
        tableMaintenanceProcessStatus := if payload.containsTableMaintenancePayload &&
            s.handler.tableMaintenanceProcessStatus == .readyToPersist then .inPersist
          else s.handler.tableMaintenanceProcessStatus
        persistenceSnapshotOngoing := true }
      regularIcebergSnapshot := none } : TableTasks).persistIcebergSnapshot payload)
      Consistent := by
  obtain ⟨hpersistence, hconsumed⟩ := h.queued (by rw [hq]; rfl)
  have hrecords := h.records (.inr (.inl (by rw [hq]; rfl)))
  have hmanager : s.table.icebergTableManager = true := by simp [h.manager, hpersistence]
  have hongoing : s.table.status.persistenceSnapshotOngoing = false := by
    simp [h.tablePersistence, hpersistence]
  have hstatus : ∀ status, status = (if payload.containsTableMaintenancePayload &&
        s.handler.tableMaintenanceProcessStatus == .readyToPersist then .inPersist
      else s.handler.tableMaintenanceProcessStatus) →
      (payload.maintenance = 0 ∧ status = s.handler.tableMaintenanceProcessStatus) ∨
      (payload.maintenance = 1 ∧ s.handler.tableMaintenanceProcessStatus = .readyToPersist ∧
        s.table.unpersistedMaintenance = 1 ∧ status = .inPersist) := by
    rintro _ rfl
    refine (h.inQueue q hq).imp (fun hzero => ?_) (fun ⟨hone, hready, hunpersisted⟩ => ?_)
    · simp [PersistencePayload.containsTableMaintenancePayload, hmaintenance, hzero]
    · simp [PersistencePayload.containsTableMaintenancePayload, hmaintenance, hone, hready, hunpersisted]
  simp only [TableTasks.persistIcebergSnapshot, hmanager, hongoing, Bool.not_false, assert_true, ok_bind]
  generalize (if payload.containsTableMaintenancePayload &&
      s.handler.tableMaintenanceProcessStatus == .readyToPersist then .inPersist
    else s.handler.tableMaintenanceProcessStatus) = status at hstatus ⊢
  specialize hstatus status rfl
  refine .pure { h with
    persistence := rfl, tablePersistence := rfl, manager := rfl
    consumed := fun _ => hconsumed
    queued := nofun
    records := fun _ => hrecords
    phase := ?_, inSnapshot := fun r hr => ⟨(h.inSnapshot r hr).1, fun hlooks => ?_⟩, persisting := ?_
    inQueue := nofun
    queuedLsn := nofun
    queuedSchema := nofun
    persistingLsn := fun p hp => ?_
    persistingSchema := fun p hp => ?_ }
  · obtain ⟨-, rfl⟩ | ⟨hone, hready, hunpersisted, rfl⟩ := hstatus
    · exact h.phase.keep hpersistence rfl rfl rfl rfl
    · obtain ⟨htasks, hnew, hpersisted⟩ := h.phase.of_readyToPersist hready
      have hzero : s.table.nextSnapshotTask.newMaintenance = 0 := by omega
      exact ⟨htasks, hzero, hunpersisted, hpersisted, payload, rfl, hone⟩
  · obtain ⟨hunrequested, hunpersisted⟩ := (h.inSnapshot r hr).2 hlooks
    obtain ⟨-, rfl⟩ | ⟨-, hready, -⟩ := hstatus
    · exact ⟨hunrequested, hunpersisted⟩
    · rw [hunrequested] at hready
      cases hready
  · rintro p ⟨⟩
    exact hstatus.imp And.left fun ⟨hone, _, _, hpersist⟩ => ⟨hone, hpersist⟩
  · cases hp
    rw [hlsn]
    exact h.queuedLsn q hq
  · cases hp
    exact hschema

/-- An alteration needs that no persistence with a schema of its own runs. -/
theorem Consistent.of_altered (h : s.Consistent) (hpersistence : s.running.persistence = none)
    (specialTableState : SpecialTableState) (schema : Nat) :
    Consistent { s with
      handler := { s.handler with specialTableState }
      table := { s.table with schema } } :=
  { h with
    persistingSchema := fun p hp => by
      rw [hpersistence] at hp
      cases hp }

theorem shouldCompleteAlterTable_spec (h : TableHandlerState) (lsn : Nat) :
    (∃ completes, h.shouldCompleteAlterTable lsn = .ok completes) ∨
      h.shouldCompleteAlterTable lsn = .error .unexpectedTableState := by
  simp only [TableHandlerState.shouldCompleteAlterTable]
  split
  · rename_i alterTableLsn _
    by_cases hle : lsn ≤ alterTableLsn
    · simp only [hle, decide_true, assert_true, ok_bind]
      exact .inl ⟨_, rfl⟩
    · simp only [hle, decide_false]
      exact .inr rfl
  · exact .inl ⟨_, rfl⟩

/-- The LSN of the payload must not be above that of an alteration. -/
theorem Consistent.handleRegularIcebergSnapshot (h : s.Consistent) :
    Returns s.handleRegularIcebergSnapshot Consistent ∨
      s.handleRegularIcebergSnapshot = .error .unexpectedTableState := by
  simp only [TableTasks.handleRegularIcebergSnapshot]
  cases hq : s.regularIcebergSnapshot with
  | none => exact .inl (.ok h)
  | some q =>
    dsimp only
    obtain ⟨completes, heq⟩ | heq := shouldCompleteAlterTable_spec { s.handler with
      tableMaintenanceProcessStatus := if q.containsTableMaintenancePayload &&
          s.handler.tableMaintenanceProcessStatus == .readyToPersist then .inPersist
        else s.handler.tableMaintenanceProcessStatus
      persistenceSnapshotOngoing := true } q.flushLsn
    · rw [heq, ok_bind]
      left
      cases completes with
      | true =>
        have haltered := h.of_altered (h.queued (by rw [hq]; rfl)).1 .normal (s.table.schema + 1)
        refine haltered.persistIcebergSnapshot
          { q with newTableSchema := some (s.table.schema + 1) } hq rfl rfl ?_
        rintro v ⟨⟩
        rfl
      | false =>
        refine h.persistIcebergSnapshot q hq rfl rfl fun v hv => ?_
        rw [h.queuedSchema q hq] at hv
        cases hv
    · rw [heq]
      exact .inr rfl

/-- The result of a persistence waits in the next snapshot task, and the manager is back. -/
theorem Consistent.setPersistenceSnapshotRes (h : s.Consistent) {res : PersistencePayload}
    (hres : s.running.persistence = some res) :
    Returns (({ s with
      handler := { s.handler with
        persistenceSnapshotOngoing := false
        tableMaintenanceProcessStatus :=
          if s.handler.tableMaintenanceProcessStatus == .inPersist &&
            res.containsTableMaintenancePayload then .unrequested
          else s.handler.tableMaintenanceProcessStatus }
      running := { s.running with persistence := none } } : TableTasks).setPersistenceSnapshotRes res)
      fun s' => Consistent { s' with handler :=
        { s'.handler with persistenceSnapshotResultConsumed := false } } := by
  have hrecords := h.records (.inl (by rw [hres]; rfl))
  have hongoing : s.table.status.persistenceSnapshotOngoing = true := by
    simp [h.tablePersistence, hres]
  have hmanager : s.table.icebergTableManager = false := by simp [h.manager, hres]
  have hlsn : s.table.lastPersistenceSnapshotLsn.all (· ≤ res.flushLsn) = true := by
    simpa [Option.all_eq_true] using (h.persistingLsn res hres).2
  have hschema : res.newTableSchema.all (· = s.table.schema) = true := by
    simpa [Option.all_eq_true] using h.persistingSchema res hres
  have hstatus : ∀ status, status = (if s.handler.tableMaintenanceProcessStatus == .inPersist &&
        res.containsTableMaintenancePayload then .unrequested
      else s.handler.tableMaintenanceProcessStatus) →
      (res.maintenance = 0 ∧ status = s.handler.tableMaintenanceProcessStatus ∧
        s.handler.tableMaintenanceProcessStatus ≠ .inPersist) ∨
      (res.maintenance = 1 ∧ s.handler.tableMaintenanceProcessStatus = .inPersist ∧
        status = .unrequested) := by
    rintro _ rfl
    refine (h.persisting res hres).imp (fun hzero => ?_) (fun ⟨hone, hpersist⟩ => ?_)
    · refine ⟨hzero, by simp [PersistencePayload.containsTableMaintenancePayload, hzero], fun hs => ?_⟩
      obtain ⟨-, -, -, -, p, hp, hone⟩ := h.phase.of_inPersist hs
      rw [hres] at hp
      cases hp
      omega
    · simp [PersistencePayload.containsTableMaintenancePayload, hone, hpersist]
  simp only [TableTasks.setPersistenceSnapshotRes, hongoing, hmanager, hlsn, hschema, hrecords,
    Option.isNone_none, Bool.not_false, assert_true, ok_bind]
  generalize (if s.handler.tableMaintenanceProcessStatus == .inPersist &&
      res.containsTableMaintenancePayload then .unrequested
    else s.handler.tableMaintenanceProcessStatus) = status at hstatus ⊢
  specialize hstatus status rfl
  have hqueue : s.regularIcebergSnapshot = none := by
    by_contra hne
    have hnone := (h.queued (Option.isSome_iff_ne_none.mpr hne)).1
    rw [hres] at hnone
    cases hnone
  have hpersisted : s.table.nextSnapshotTask.persistedMaintenance = 0 := by
    simp [SnapshotTask.persistedMaintenance, hrecords]
  refine .pure { h with
    persistence := rfl, tablePersistence := rfl, manager := rfl
    consumed := nofun
    queued := fun hsome => ?_
    records := fun hr => ?_
    phase := ?_, inSnapshot := fun r hr => ⟨(h.inSnapshot r hr).1, fun hlooks => ?_⟩
    inQueue := fun q hq => ?_
    queuedLsn := fun q hq => ?_
    last := ?_
    persisting := nofun
    persistingLsn := nofun
    persistingSchema := nofun }
  · rw [hqueue] at hsome
    cases hsome
  · obtain hr | hr | ⟨-, hr⟩ := hr
    · cases hr
    · rw [hqueue] at hr
      cases hr
    · cases hr
  · obtain ⟨hzero, rfl, hne⟩ | ⟨hone, hpersist, rfl⟩ := hstatus
    · exact h.phase.persistNothing hne hpersisted rfl rfl rfl rfl hzero
    · obtain ⟨htasks, hnew, hunpersisted, -⟩ := h.phase.of_inPersist hpersist
      exact ⟨htasks, hnew, hunpersisted.trans hone.symm⟩
  · obtain ⟨hunrequested, hunpersisted⟩ := (h.inSnapshot r hr).2 hlooks
    obtain ⟨-, rfl, -⟩ | ⟨-, hpersist, -⟩ := hstatus
    · exact ⟨hunrequested, hunpersisted⟩
    · rw [hunrequested] at hpersist
      cases hpersist
  · rw [hqueue] at hq
    cases hq
  · rintro l ⟨⟩
    exact (h.persistingLsn res hres).1
  · rw [hqueue] at hq
    cases hq

theorem Consistent.persistenceSnapshotResult (h : s.Consistent) :
    Returns (s.persistenceSnapshotResult true) fun s' => s'.Consistent ∧
      (s.running.persistence.isSome = true → s'.DropSettled) := by
  simp only [TableTasks.persistenceSnapshotResult]
  cases hres : s.running.persistence with
  | none => exact .ok ⟨h, nofun⟩
  | some res =>
    simp only [Bool.not_true, Bool.false_or, if_true]
    refine (h.setPersistenceSnapshotRes hres).bind fun s₁ hs₁ => ?_
    exact hs₁.dropIfRequested.mono fun s' ⟨hs', hdropped⟩ => ⟨hs', fun _ => hdropped.dropSettled⟩

/-! ## Maintenance -/

/-- A task of maintenance that runs is the one in process. -/
theorem Consistent.inProcess_of_running (h : s.Consistent) (hrunning : s.maintenanceTasks ≠ 0) :
    s.handler.tableMaintenanceProcessStatus = .inProcess ∧ s.maintenanceTasks = 1 := by
  cases hs : s.handler.tableMaintenanceProcessStatus with
  | unrequested => exact (hrunning (h.phase.of_unrequested hs).1).elim
  | inProcess => exact ⟨rfl, (h.phase.of_inProcess hs).1⟩
  | readyToPersist => exact (hrunning (h.phase.of_readyToPersist hs).1).elim
  | inPersist => exact (hrunning (h.phase.of_inPersist hs).1).elim

theorem Consistent.indexMergeResult (h : s.Consistent) :
    Returns (s.indexMergeResult true) fun s' => s'.Consistent ∧
      (s.running.indexMerge = true → s'.DropSettled) := by
  simp only [TableTasks.indexMergeResult]
  split
  · rename_i hrunning
    obtain ⟨hstatus, htasks⟩ := h.inProcess_of_running (by simp [maintenanceTasks, hrunning])
    obtain ⟨-, hnew, hzero, hpersisted⟩ := h.phase.of_inProcess hstatus
    obtain ⟨hmerge, hcompaction⟩ := newMaintenance_eq_zero.mp hnew
    have hongoing : s.table.status.indexMergeOngoing = true := h.indexMerge.trans hrunning
    have hother : s.running.dataCompaction = false := by simpa [maintenanceTasks, hrunning] using htasks
    simp only [TableHandlerState.markIndexMergeCompleted, hstatus, BEq.rfl, assert_true, ok_bind,
      pure_bind, if_true, setFileIndicesMergeRes, hongoing, hmerge, Bool.not_false]
    refine (Consistent.dropIfRequested ?_).mono fun s' ⟨hs', hdropped⟩ => ⟨hs', fun _ => hdropped.dropSettled⟩
    refine h.moveTask (.inl hstatus) { h.toFlags with indexMerge := rfl } { h.toHandover with }
      { h.toPayloads with } ⟨?_, ?_, hpersisted⟩ rfl rfl rfl rfl h.compacting
    · simp [maintenanceTasks, hother]
    · simp [SnapshotTask.newMaintenance, hcompaction, hzero]
  · rename_i hnot
    exact .ok ⟨h, fun hrunning => (hnot hrunning).elim⟩

theorem Consistent.dataCompactionResult (h : s.Consistent) :
    Returns (s.dataCompactionResult true) fun s' => s'.Consistent ∧
      (s.running.dataCompaction = true → s'.DropSettled) := by
  simp only [TableTasks.dataCompactionResult]
  split
  · rename_i hrunning
    obtain ⟨hstatus, htasks⟩ := h.inProcess_of_running (by simp [maintenanceTasks, hrunning])
    obtain ⟨-, hnew, hzero, hpersisted⟩ := h.phase.of_inProcess hstatus
    obtain ⟨hmerge, hcompaction⟩ := newMaintenance_eq_zero.mp hnew
    have hongoing : s.table.status.dataCompactionOngoing = true := h.dataCompaction.trans hrunning
    have hother : s.running.indexMerge = false := by simpa [maintenanceTasks, hrunning] using htasks
    simp only [TableHandlerState.markDataCompactionCompleted, if_true, setDataCompactionRes, hongoing,
      hcompaction, Bool.not_false, assert_true, ok_bind, pure_bind]
    refine (Consistent.dropIfRequested ?_).mono fun s' ⟨hs', hdropped⟩ => ⟨hs', fun _ => hdropped.dropSettled⟩
    refine h.moveTask (.inl hstatus) { h.toFlags with dataCompaction := rfl } { h.toHandover with }
      { h.toPayloads with } ⟨?_, ?_, hpersisted⟩ rfl rfl rfl rfl fun _ => .inr rfl
    · simp [maintenanceTasks, hother]
    · simp [SnapshotTask.newMaintenance, hmerge, hzero]
  · rename_i hnot
    exact .ok ⟨h, fun hrunning => (hnot hrunning).elim⟩

/-! ## WAL persistence and requests -/

theorem Consistent.periodicalPersistenceUpdateWal (h : s.Consistent) (hasUpdate : Bool) :
    (s.periodicalPersistenceUpdateWal hasUpdate).Consistent := by
  simp only [TableTasks.periodicalPersistenceUpdateWal]
  split
  · exact h
  · exact { h with wal := rfl }

theorem Consistent.periodicalWalPersistenceUpdateResult (h : s.Consistent) :
    Returns (s.periodicalWalPersistenceUpdateResult true) fun s' => s'.Consistent ∧
      (s.running.walPersistence = true → s'.DropSettled) := by
  simp only [TableTasks.periodicalWalPersistenceUpdateResult, if_true]
  split
  · refine (Consistent.dropIfRequested ?_).mono fun s' ⟨hs', hdropped⟩ =>
      ⟨hs', fun _ => hdropped.dropSettled⟩
    exact { h with wal := rfl }
  · rename_i hnot
    exact .ok ⟨h, fun hrunning => (hnot hrunning).elim⟩

theorem Consistent.of_specialTableState (h : s.Consistent) (specialTableState : SpecialTableState) :
    Consistent { s with handler := { s.handler with specialTableState } } :=
  { h with }

/-- A request on the table's state is noted, unless the table is in another state. -/
theorem Consistent.of_request (h : s.Consistent) {request : Except TaskPanic TableHandlerState}
    (hrequest : (∃ special, request = .ok { s.handler with specialTableState := special }) ∨
      request = .error .unexpectedTableState) :
    Returns (do return { s with handler := ← request } : Except TaskPanic TableTasks) Consistent ∨
      (do return { s with handler := ← request } : Except TaskPanic TableTasks) =
        .error .unexpectedTableState := by
  obtain ⟨special, rfl⟩ | rfl := hrequest
  · exact .inl (.pure (h.of_specialTableState special))
  · exact .inr rfl

/-- The table's state is only replaced after an assertion about it. -/
theorem of_assert (h : TableHandlerState) (c : Bool) (special : SpecialTableState) :
    (∃ special', (do assert c .unexpectedTableState
                     return { h with specialTableState := special } : Except TaskPanic TableHandlerState) =
        .ok { h with specialTableState := special' }) ∨
      (do assert c .unexpectedTableState
          return { h with specialTableState := special } : Except TaskPanic TableHandlerState) =
        .error .unexpectedTableState := by
  cases c with
  | true => exact .inl ⟨special, rfl⟩
  | false => exact .inr rfl

theorem Consistent.requestMaintenance (h : s.Consistent) {f : TableHandlerState → TableHandlerState}
    (hf : Consistent { s with handler := f s.handler }) : (s.requestMaintenance f).Consistent := by
  simp only [TableTasks.requestMaintenance]
  split
  · exact hf
  · exact h

theorem Consistent.requestDrop (h : s.Consistent) :
    Returns s.requestDrop Consistent ∨ s.requestDrop = .error .unexpectedTableState := by
  simp only [TableTasks.requestDrop]
  split
  · rename_i hcan
    refine .inl ((h.dropTable hcan).mono ?_)
    rintro s' rfl
    exact h.of_dropped
  · exact h.of_request (of_assert _ _ _)

theorem Consistent.alterTable (h : s.Consistent) (view : Option Nat) :
    Returns (s.handle (.alterTable view)) Consistent ∨
      s.handle (.alterTable view) = .error .unexpectedTableState := by
  cases view with
  | none => exact .inr rfl
  | some lsn => exact h.of_request (of_assert _ _ _)

theorem Consistent.createInitialCopySnapshot (h : s.Consistent) :
    Returns s.createInitialCopySnapshot Consistent := by
  simp only [TableTasks.createInitialCopySnapshot]
  split
  · exact .ok h
  · rename_i hongoing
    have hnone : s.running.mooncakeSnapshot = none := by
      rw [h.snapshot] at hongoing
      simpa using hongoing
    refine (h.tryCreateMooncakeSnapshot hnone fun hlooks => ?_).bind fun r hr => .pure hr.1
    simp [SnapshotOption.LooksForMaintenance] at hlooks

theorem Consistent.finishInitialCopy (h : s.Consistent) :
    Returns s.finishInitialCopy Consistent ∨
      s.finishInitialCopy = .error .unexpectedTableState := by
  obtain ⟨s', heq, hs'⟩ := h.createInitialCopySnapshot
  rw [TableTasks.finishInitialCopy, heq, ok_bind]
  exact hs'.of_request (of_assert _ _ _)

/-! ## Flushes -/

theorem Consistent.flushStarted (h : s.Consistent) (lsns : List Nat) :
    Consistent { s with table := { s.table with ongoingFlushLsns := lsns } } :=
  { h with }

/-- A flush LSN that is set is not below the one before. -/
theorem Consistent.flushResult (h : s.Consistent) {lsn : Nat} {newFlushLsn : Option Nat}
    (hpermitted : s.Permitted (.flushResult lsn newFlushLsn)) :
    Consistent { s with table := { s.table with
      ongoingFlushLsns := s.table.ongoingFlushLsns.erase lsn
      nextSnapshotTask := { s.table.nextSnapshotTask with
        newFlushLsn := newFlushLsn.or s.table.nextSnapshotTask.newFlushLsn } } } := by
  refine { h with nextLsn := fun l hl => ?_ }
  cases newFlushLsn with
  | none => exact h.nextLsn l hl
  | some lsn' =>
    cases hl
    change s.flushLsn ≤ l
    simp only [Permitted] at hpermitted
    cases hnext : s.table.nextSnapshotTask.newFlushLsn with
    | some l' =>
      rw [hnext] at hpermitted
      exact (h.nextLsn l' hnext).trans (by simpa using hpermitted)
    | none =>
      rw [hnext, Option.none_or] at hpermitted
      rw [flushLsn]
      cases hflush : s.table.snapshotFlushLsn with
      | none => exact Nat.zero_le _
      | some l' =>
        rw [hflush] at hpermitted
        simpa using hpermitted

/-! ## Rounds of the event loop -/

/-- The result of a running task. -/
def IsResultOf : TaskInput → Prop
  | .mooncakeTableSnapshotResult _ => s.running.mooncakeSnapshot.isSome = true
  | .persistenceSnapshotResult _ => s.running.persistence.isSome = true
  | .indexMergeResult _ => s.running.indexMerge = true
  | .dataCompactionResult _ => s.running.dataCompaction = true
  | .periodicalWalPersistenceUpdateResult _ => s.running.walPersistence = true
  | _ => False

/-- What each permitted input does: it keeps the agreement, and after the result of a task no
requested drop is left to do. Only a request that does not fit the table's state panics. -/
theorem Consistent.handle (h : s.Consistent) {i : TaskInput} (hallows : s.allows i = true)
    (hpermitted : s.Permitted i) :
    Returns (s.handle i) (fun s' => s'.Consistent ∧ (s.IsResultOf i → s'.DropSettled)) ∨
      s.handle i = .error .unexpectedTableState := by
  cases i with
  | periodicalMooncakeTableSnapshot forced otherWork =>
    exact .inl ((h.periodicalMooncakeTableSnapshot forced otherWork).mono fun s' hs' =>
      ⟨hs'.1, False.elim⟩)
  | mooncakeTableSnapshotResult output =>
    exact .inl ((h.mooncakeTableSnapshotResult hallows).mono fun s' hs' => ⟨hs'.1, fun _ => hs'.2⟩)
  | regularIcebergSnapshot =>
    exact h.handleRegularIcebergSnapshot.imp_left (·.mono fun s' hs' => ⟨hs', False.elim⟩)
  | persistenceSnapshotResult succeeds =>
    cases show succeeds = true from hpermitted
    exact .inl h.persistenceSnapshotResult
  | indexMergeResult succeeds =>
    cases show succeeds = true from hpermitted
    exact .inl h.indexMergeResult
  | dataCompactionResult succeeds =>
    cases show succeeds = true from hpermitted
    exact .inl h.dataCompactionResult
  | periodicalPersistenceUpdateWal hasUpdate =>
    exact .inl (.ok ⟨h.periodicalPersistenceUpdateWal hasUpdate, False.elim⟩)
  | periodicalWalPersistenceUpdateResult succeeds =>
    cases show succeeds = true from hpermitted
    exact .inl h.periodicalWalPersistenceUpdateResult
  | forceRegularIndexMerge =>
    exact .inl (.ok ⟨h.requestMaintenance (h.of_requests _ _), False.elim⟩)
  | forceRegularDataCompaction =>
    exact .inl (.ok ⟨h.requestMaintenance (h.of_requests _ _), False.elim⟩)
  | forceFullMaintenance =>
    exact .inl (.ok ⟨h.requestMaintenance (h.of_requests _ _), False.elim⟩)
  | dropTable => exact h.requestDrop.imp_left (·.mono fun s' hs' => ⟨hs', False.elim⟩)
  | alterTable view => exact (h.alterTable view).imp_left (·.mono fun s' hs' => ⟨hs', False.elim⟩)
  | startInitialCopy =>
    exact (h.of_request (of_assert _ _ _)).imp_left (·.mono fun s' hs' => ⟨hs', False.elim⟩)
  | finishInitialCopy =>
    exact h.finishInitialCopy.imp_left (·.mono fun s' hs' => ⟨hs', False.elim⟩)
  | flushStarted lsn => exact .inl (.ok ⟨h.flushStarted _, False.elim⟩)
  | flushResult lsn newFlushLsn => exact .inl (.ok ⟨h.flushResult hpermitted, False.elim⟩)

/-! ## The invariant gives agreement -/

theorem Consistent.unrequested_of_done (h : s.Consistent) (hdone : s.maintenanceDone = true) :
    s.handler.tableMaintenanceProcessStatus = .unrequested := by
  simp only [maintenanceDone, Bool.and_eq_true, Bool.not_eq_true', beq_iff_eq, decide_eq_true_eq]
    at hdone
  obtain ⟨⟨⟨hmerge, hcompaction⟩, hnew⟩, hunpersisted⟩ := hdone
  have htasks := maintenanceTasks_eq_zero.mpr ⟨hmerge, hcompaction⟩
  cases hs : s.handler.tableMaintenanceProcessStatus with
  | unrequested => rfl
  | inProcess =>
    obtain ⟨hone, -⟩ := h.phase.of_inProcess hs
    omega
  | readyToPersist =>
    obtain ⟨-, hready, hpersisted⟩ := h.phase.of_readyToPersist hs
    omega
  | inPersist =>
    obtain ⟨-, -, hone, hpersisted, -⟩ := h.phase.of_inPersist hs
    omega

theorem Consistent.canDropTableNow (h : s.Consistent) (hidle : s.idle = true) :
    s.handler.canDropTableNow s.hasOngoingFlush = true := by
  simp only [idle, Bool.and_eq_true, Option.isNone_iff_eq_none, Bool.not_eq_true'] at hidle
  obtain ⟨⟨⟨⟨hsnapshot, hpersistence⟩, hdone⟩, hwal⟩, hflush⟩ := hidle
  simp [TableHandlerState.canDropTableNow, h.snapshot, h.persistence, h.wal,
    h.unrequested_of_done hdone, hsnapshot, hpersistence, hwal, hflush]

theorem Consistent.agrees (h : s.Consistent) : s.Agrees where
  mooncakeSnapshot _ :=
    (h.periodicalMooncakeTableSnapshot false true).mono fun _ hs' => hs'.2 rfl
  persistence hnone := by
    refine ⟨by simp [h.persistence, hnone], fun payload => ?_⟩
    have hmanager : s.table.icebergTableManager = true := by simp [h.manager, hnone]
    have hongoing : s.table.status.persistenceSnapshotOngoing = false := by
      simp [h.tablePersistence, hnone]
    simp only [TableTasks.persistIcebergSnapshot, hmanager, hongoing, Bool.not_false, assert_true,
      ok_bind]
    exact .pure rfl
  maintenance hdone := by
    have hstatus := h.unrequested_of_done hdone
    obtain ⟨htasks, hnew, -⟩ := h.phase.of_unrequested hstatus
    obtain ⟨hmerge, hcompaction⟩ := maintenanceTasks_eq_zero.mp htasks
    have hcompacting := h.not_compacting htasks hnew
    refine ⟨hstatus, ?_, ?_⟩
    · simp only [TableTasks.performIndexMerge, h.indexMerge, hmerge, Bool.not_false, assert_true,
        ok_bind]
      exact .pure rfl
    · simp only [TableTasks.performDataCompaction, h.dataCompaction, hcompaction, hcompacting,
        Bool.not_false, assert_true, ok_bind]
      exact .pure rfl
  walPersistence hnone := by
    simp [TableTasks.periodicalPersistenceUpdateWal, h.wal, hnone]
  drop hidle := by
    refine ⟨h.canDropTableNow hidle, (h.dropTable (h.canDropTableNow hidle)).mono ?_⟩
    rintro s' rfl
    rfl

theorem Consistent.next (h : s.Consistent) {i : TaskInput} (hpermitted : s.Permitted i) :
    Returns (s.next i) (fun s' => s'.Consistent ∧ (s.IsResultOf i → s'.DropSettled)) ∨
      s.next i = .error .unexpectedTableState := by
  simp only [TableTasks.next]
  split
  · rename_i hallows
    rw [Bool.and_eq_true] at hallows
    exact h.handle hallows.2 hpermitted
  · rename_i hnot
    refine .inl (.ok ⟨h, fun hresult _ hcan => ?_⟩)
    by_contra hdropped
    cases i with
    | mooncakeTableSnapshotResult output =>
      simp [TableHandlerState.canDropTableNow, h.snapshot,
        show s.running.mooncakeSnapshot.isSome = true from hresult] at hcan
    | persistenceSnapshotResult | indexMergeResult | dataCompactionResult
    | periodicalWalPersistenceUpdateResult => exact hnot (by simp [hdropped, allows])
    | _ => exact hresult

/-- What can happen in a run of permitted inputs is what keeps the invariant. -/
theorem Consistent.run {inputs : List TaskInput} (h : s.Consistent)
    (hpermitted : RunMeets (fun s i => (s.next i).toOption) Permitted s inputs)
    (hrun : s.run inputs = .ok s') : s'.Consistent := by
  refine hpermitted.invariant_ok (fun s i h hi s₁ hnext => ?_) hrun h
  obtain ⟨s₂, heq, hs₂, -⟩ | herror := h.next hi
  · cases hnext.symm.trans heq
    exact hs₂
  · cases hnext.symm.trans herror

/-! ## Failed tasks -/

theorem eq_or_of_dropIfRequested (hdrop : s.dropIfRequested = .ok s') :
    s' = s ∨ s' = { s with dropped := true } := by
  simp only [TableTasks.dropIfRequested] at hdrop
  split at hdrop
  · obtain ⟨_, -, hdrop⟩ := bind_eq_ok.mp hdrop
    cases hdrop
    exact .inr rfl
  · cases hdrop
    exact .inl rfl

/-- A dropped table agrees no more than the table before. -/
theorem Agrees.of_dropIfRequested (h : Returns s.dropIfRequested Agrees) :
    Agrees s ∨ Agrees { s with dropped := true } := by
  obtain ⟨s', hdrop, hs'⟩ := h
  obtain rfl | rfl := eq_or_of_dropIfRequested hdrop
  · exact .inl hs'
  · exact .inr hs'

/-- Without the manager no further persistence starts. -/
theorem Agrees.manager (h : s.Agrees) (hnone : s.running.persistence = none) :
    s.table.icebergTableManager = true := by
  obtain ⟨s', heq, -⟩ := (h.persistence hnone).2 ⟨0, 0, none⟩
  obtain ⟨_, hassert, -⟩ := bind_eq_ok.mp heq
  cases hmanager : s.table.icebergTableManager with
  | true => rfl
  | false =>
    rw [hmanager] at hassert
    cases hassert

/-- With the flag of a compaction no further compaction starts. -/
theorem Agrees.dataCompaction (h : s.Agrees) (hdone : s.maintenanceDone = true) :
    s.table.status.dataCompactionOngoing = false := by
  obtain ⟨s', heq, -⟩ := (h.maintenance hdone).2.2
  obtain ⟨_, hassert, -⟩ := bind_eq_ok.mp heq
  cases hongoing : s.table.status.dataCompactionOngoing with
  | false => rfl
  | true =>
    rw [hongoing] at hassert
    cases hassert

/-- A failed persistence keeps the table manager. -/
theorem not_agrees_of_failedPersistence (h : s.Consistent) (hrunning : s.running.persistence.isSome = true) :
    ¬ Returns (s.persistenceSnapshotResult false) Agrees := by
  obtain ⟨res, hres⟩ := Option.isSome_iff_exists.mp hrunning
  have hmanager : s.table.icebergTableManager = false := by simp [h.manager, hres]
  intro hagrees
  simp only [TableTasks.persistenceSnapshotResult, hres, Bool.false_eq_true, if_false, pure_bind]
    at hagrees
  obtain hs' | hs' := Agrees.of_dropIfRequested hagrees
  all_goals
    have hback := hs'.manager rfl
    rw [hmanager] at hback
    cases hback

/-- A failed merge counts as ready to be persisted. -/
theorem not_agrees_of_failedIndexMerge (h : s.Consistent) (hrunning : s.running.indexMerge = true) :
    ¬ Returns (s.indexMergeResult false) Agrees := by
  obtain ⟨hstatus, htasks⟩ := h.inProcess_of_running (by simp [maintenanceTasks, hrunning])
  obtain ⟨-, hnew, hunpersisted, -⟩ := h.phase.of_inProcess hstatus
  have hother : s.running.dataCompaction = false := by simpa [maintenanceTasks, hrunning] using htasks
  intro hagrees
  simp only [TableTasks.indexMergeResult, hrunning, TableHandlerState.markIndexMergeCompleted, hstatus,
    BEq.rfl, assert_true, ok_bind, pure_bind, Bool.false_eq_true, if_false, if_true] at hagrees
  obtain ⟨s', heq, hs'⟩ := hagrees
  cases heq
  have hunrequested := (hs'.maintenance (by simp [maintenanceDone, hother, hnew, hunpersisted])).1
  cases hunrequested

/-- A failed compaction leaves the table's flag. -/
theorem not_agrees_of_failedDataCompaction (h : s.Consistent)
    (hrunning : s.running.dataCompaction = true) :
    ¬ Returns (s.dataCompactionResult false) Agrees := by
  obtain ⟨hstatus, htasks⟩ := h.inProcess_of_running (by simp [maintenanceTasks, hrunning])
  obtain ⟨-, hnew, hunpersisted, -⟩ := h.phase.of_inProcess hstatus
  have hother : s.running.indexMerge = false := by simpa [maintenanceTasks, hrunning] using htasks
  intro hagrees
  simp only [TableTasks.dataCompactionResult, hrunning, Bool.false_eq_true, if_false, if_true,
    pure_bind] at hagrees
  obtain hs' | hs' := Agrees.of_dropIfRequested hagrees
  all_goals
    have hfree := hs'.dataCompaction (by simp [maintenanceDone, hother, hnew, hunpersisted])
    rw [h.dataCompaction, hrunning] at hfree
    cases hfree

/-- A failed WAL persistence leaves the handler's flag. -/
theorem not_agrees_of_failedWalPersistence (h : s.Consistent)
    (hrunning : s.running.walPersistence = true) :
    ¬ Returns (s.periodicalWalPersistenceUpdateResult false) Agrees := by
  have hongoing : s.handler.walPersistOngoing = true := h.wal.trans hrunning
  intro hagrees
  simp only [TableTasks.periodicalWalPersistenceUpdateResult, hrunning, Bool.false_eq_true, if_false,
    if_true] at hagrees
  obtain ⟨s', heq, hs'⟩ := hagrees
  cases heq
  have hstarts := hs'.walPersistence rfl
  simp [TableTasks.periodicalPersistenceUpdateWal, hongoing] at hstarts

theorem Consistent.not_agrees_of_fails (h : s.Consistent) {i : TaskInput}
    (hkept : s.dropped = false) (hresult : s.IsResultOf i) (hfails : i.Fails) :
    ¬ Returns (s.next i) Agrees := by
  have hhandles (hallows : s.allows i = true) : s.next i = s.handle i := by
    simp [TableTasks.next, hkept, hallows]
  cases i with
  | persistenceSnapshotResult succeeds =>
    cases show succeeds = false from hfails
    exact hhandles rfl ▸ not_agrees_of_failedPersistence h hresult
  | indexMergeResult succeeds =>
    cases show succeeds = false from hfails
    exact hhandles rfl ▸ not_agrees_of_failedIndexMerge h hresult
  | dataCompactionResult succeeds =>
    cases show succeeds = false from hfails
    exact hhandles rfl ▸ not_agrees_of_failedDataCompaction h hresult
  | periodicalWalPersistenceUpdateResult succeeds =>
    cases show succeeds = false from hfails
    exact hhandles rfl ▸ not_agrees_of_failedWalPersistence h hresult
  | _ => exact hfails.elim

/-! ## Agreement in every run -/

/-- While every task succeeds and no flush sets a lower flush LSN, no assertion of a task fails
and handler and table agree, also after the next input. A requested drop is done as soon as
the result of the last task is handled. After a failed task they do not agree. -/
theorem tasks_agree {persistenceSnapshotLsn : Option Nat} {inputs : List TaskInput}
    (hpermitted : RunMeets (fun s i => (next s i).toOption) Permitted (new persistenceSnapshotLsn) inputs)
    (hrun : run (new persistenceSnapshotLsn) inputs = .ok s) :
    s.Agrees ∧
      (∀ i, s.Permitted i →
        Returns (s.next i) (fun s' => s'.Agrees ∧ (s.IsResultOf i → s'.DropSettled)) ∨
          s.next i = .error .unexpectedTableState) ∧
      ∀ i, s.dropped = false → s.IsResultOf i → i.Fails → ¬ Returns (s.next i) Agrees := by
  have hs := (new_consistent persistenceSnapshotLsn).run hpermitted hrun
  refine ⟨hs.agrees, fun i hi => ?_, fun i hkept hresult hfails => hs.not_agrees_of_fails hkept hresult hfails⟩
  exact (hs.next hi).imp_left (·.mono fun s' hs' => ⟨hs'.1.agrees, hs'.2⟩)

/-- A flush is persisted, and so is the compaction that starts with it. -/
theorem tasks_agree_run : Returns (run (new none) [.flushStarted 5, .flushResult 5 (some 5),
      .periodicalMooncakeTableSnapshot false true,
      .mooncakeTableSnapshotResult ⟨5, true, .payload, .unknown⟩, .regularIcebergSnapshot,
      .periodicalPersistenceUpdateWal true, .persistenceSnapshotResult true,
      .dataCompactionResult true, .periodicalWalPersistenceUpdateResult true,
      .periodicalMooncakeTableSnapshot false false,
      .mooncakeTableSnapshotResult ⟨5, true, .unknown, .unknown⟩, .regularIcebergSnapshot,
      .persistenceSnapshotResult true]) fun s => s.idle = true ∧ s.Agrees := by
  have happly (inputs : List TaskInput)
      (hpermitted : RunMeets (fun s i => (next s i).toOption) Permitted (new none) inputs)
      (hidle : Returns (run (new none) inputs) fun s => s.idle = true) :
      Returns (run (new none) inputs) fun s => s.idle = true ∧ s.Agrees := by
    obtain ⟨s, hrun, hs⟩ := hidle
    exact ⟨s, hrun, hs, (tasks_agree hpermitted hrun).1⟩
  exact happly _ (by decide +kernel) (by decide +kernel)

/-- After a failed persistence the next one finds no table manager. After a failed index merge
nothing is left to do, but the table cannot be dropped. -/
theorem failed_tasks_disagree :
    run (new none) [.periodicalMooncakeTableSnapshot false true,
      .mooncakeTableSnapshotResult ⟨5, true, .unknown, .unknown⟩, .regularIcebergSnapshot,
      .persistenceSnapshotResult false, .periodicalMooncakeTableSnapshot false true,
      .mooncakeTableSnapshotResult ⟨6, true, .unknown, .unknown⟩, .regularIcebergSnapshot] =
        .error .persistIcebergSnapshot ∧
    Returns (run (new none) [.periodicalMooncakeTableSnapshot false true,
      .mooncakeTableSnapshotResult ⟨5, false, .nothing, .payload⟩, .indexMergeResult false])
      (fun s => s.idle = true ∧ s.handler.canDropTableNow s.hasOngoingFlush = false) := by
  decide +kernel

end TableTasks
end Moonlink.BackgroundTasks
