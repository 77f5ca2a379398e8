-- SUMMARY: The background tasks of a table: how the handler and the table start them, handle their results, and drop the table.
import Moonlink.Lib.TransitionSystem
import Moonlink.Storage.TableSystem

/-!
# Background tasks

Mooncake snapshots, Iceberg persistence, index merges, data compactions and WAL
persistence run in the background. The handler keeps flags and a maintenance status
that decide what it starts. The table keeps flags of its own, only to validate the
handler's decisions by assertions, and moves its table manager into each persistence.

What the tasks compute is left out: whether a snapshot has something to persist or to
maintain is an input, and of the snapshot's records only those of maintenance are
counted. Change events only appear as the flushes they start, and of an alteration only
the new schema is kept.
-/

namespace Moonlink.BackgroundTasks

open Lib
open Storage (MaintenanceProcessStatus)

/-- The assertions that the tasks meet, by the function that makes them. -/
inductive TaskPanic where
  | createSnapshotImpl
  | markMooncakeSnapshotCompleted
  | persistIcebergSnapshot
  | performIndexMerge
  | performDataCompaction
  | setPersistenceSnapshotRes
  | setFileIndicesMergeRes
  | setDataCompactionRes
  | markIndexMergeCompleted
  | resetIcebergState
  /-- The event loop: a snapshot that was forced is not created. -/
  | forceSnapshot
  /-- The event loop: a merge is offered together with a compaction. -/
  | startMaintenance
  | dropIcebergTable
  /-- `mark_drop_table`, `start_alter_table`, `should_complete_alter_table`,
  `start_initial_copy` and `finish_initial_copy`: the request does not fit the table's state. -/
  | unexpectedTableState
  deriving DecidableEq, Repr

def assert (c : Bool) (p : TaskPanic) : Except TaskPanic Unit :=
  if c then .ok () else .error p

/-! ## The handler's state -/

inductive SpecialTableState where
  | normal
  | initialCopy
  | alterTable (alterTableLsn : Nat)
  | dropTable
  deriving DecidableEq, Repr

inductive MaintenanceRequestStatus where
  | unrequested
  | forceRegular
  | forceFull
  deriving DecidableEq, Repr

def MaintenanceRequestStatus.isForceRequest : MaintenanceRequestStatus → Bool
  | .unrequested => false
  | .forceRegular | .forceFull => true

inductive MaintenanceOption where
  | bestEffort
  | forceRegular
  | forceFull
  | skip
  deriving DecidableEq, Repr

structure SnapshotOption where
  forceCreate : Bool
  /-- `IcebergSnapshotOption::BestEffort`. -/
  icebergSnapshot : Bool
  indexMergeOption : MaintenanceOption
  dataCompactionOption : MaintenanceOption
  deriving DecidableEq, Repr

structure TableHandlerState where
  /-- The result of the last persistence was taken over by a mooncake snapshot. -/
  persistenceSnapshotResultConsumed : Bool
  persistenceSnapshotOngoing : Bool
  mooncakeSnapshotOngoing : Bool
  specialTableState : SpecialTableState
  indexMergeRequestStatus : MaintenanceRequestStatus
  dataCompactionRequestStatus : MaintenanceRequestStatus
  tableMaintenanceProcessStatus : MaintenanceProcessStatus
  walPersistOngoing : Bool
  deriving DecidableEq, Repr

namespace TableHandlerState

def new : TableHandlerState where
  persistenceSnapshotResultConsumed := true
  persistenceSnapshotOngoing := false
  mooncakeSnapshotOngoing := false
  specialTableState := .normal
  indexMergeRequestStatus := .unrequested
  dataCompactionRequestStatus := .unrequested
  tableMaintenanceProcessStatus := .unrequested
  walPersistOngoing := false

variable (h : TableHandlerState)

def canDropTableNow (hasOngoingFlush : Bool) : Bool :=
  !h.mooncakeSnapshotOngoing && !h.persistenceSnapshotOngoing && !h.walPersistOngoing &&
    h.tableMaintenanceProcessStatus == .unrequested && !hasOngoingFlush

def canInitiateIcebergSnapshot (flushLsn : Nat) (ongoingFlushLsns : List Nat) : Bool :=
  h.persistenceSnapshotResultConsumed && !h.persistenceSnapshotOngoing &&
    ongoingFlushLsns.all (flushLsn < ·)

def resetIcebergStateAtMooncakeSnapshot : Except TaskPanic TableHandlerState := do
  assert (!h.persistenceSnapshotOngoing || h.persistenceSnapshotResultConsumed) .resetIcebergState
  return if h.persistenceSnapshotResultConsumed then h
    else { h with persistenceSnapshotResultConsumed := true, persistenceSnapshotOngoing := false }

def getMaintenanceTaskOption (request : MaintenanceRequestStatus) : MaintenanceOption :=
  if h.tableMaintenanceProcessStatus ≠ .unrequested then .skip
  else match request with
    | .unrequested => .bestEffort
    | .forceRegular => .forceRegular
    | .forceFull => .forceFull

def getMooncakeSnapshotOption (requestForce : Bool) : SnapshotOption where
  forceCreate := requestForce || h.tableMaintenanceProcessStatus == .readyToPersist ||
    ((h.indexMergeRequestStatus != .unrequested || h.dataCompactionRequestStatus != .unrequested) &&
      h.tableMaintenanceProcessStatus == .unrequested)
  icebergSnapshot := !h.persistenceSnapshotOngoing
  indexMergeOption := h.getMaintenanceTaskOption h.indexMergeRequestStatus
  dataCompactionOption := h.getMaintenanceTaskOption h.dataCompactionRequestStatus

/-- At most one maintenance operation is ongoing or requested. -/
def canStartNewMaintenance : Bool :=
  h.tableMaintenanceProcessStatus == .unrequested &&
    h.indexMergeRequestStatus == .unrequested && h.dataCompactionRequestStatus == .unrequested

def markIndexMergeCompleted (h : TableHandlerState) : Except TaskPanic TableHandlerState := do
  assert (h.tableMaintenanceProcessStatus == .inProcess) .markIndexMergeCompleted
  return { h with
    indexMergeRequestStatus := .unrequested
    tableMaintenanceProcessStatus := .readyToPersist }

def markDataCompactionCompleted (succeeds : Bool) : TableHandlerState :=
  { h with
    dataCompactionRequestStatus := .unrequested
    tableMaintenanceProcessStatus := if succeeds then .readyToPersist else .unrequested }

def markDropTable : Except TaskPanic TableHandlerState := do
  assert (h.specialTableState == .normal) .unexpectedTableState
  return { h with specialTableState := .dropTable }

/-- The table must be at a consistent view, whose LSN the persistence must reach. -/
def startAlterTable (tableConsistentViewLsn : Option Nat) : Except TaskPanic TableHandlerState :=
  match tableConsistentViewLsn with
  | none => .error .unexpectedTableState
  | some lsn => do
    assert (h.specialTableState == .normal) .unexpectedTableState
    return { h with specialTableState := .alterTable lsn }

def shouldCompleteAlterTable (persistenceSnapshotLsn : Nat) : Except TaskPanic Bool :=
  match h.specialTableState with
  | .alterTable alterTableLsn => do
    assert (persistenceSnapshotLsn ≤ alterTableLsn) .unexpectedTableState
    return persistenceSnapshotLsn = alterTableLsn
  | _ => .ok false

def startInitialCopy : Except TaskPanic TableHandlerState := do
  assert (h.specialTableState == .normal) .unexpectedTableState
  return { h with specialTableState := .initialCopy }

def finishInitialCopy : Except TaskPanic TableHandlerState := do
  assert (h.specialTableState == .initialCopy) .unexpectedTableState
  return { h with specialTableState := .normal }

end TableHandlerState

/-! ## The table -/

/-- `background_task_status_for_validation`. -/
structure BackgroundTaskStatus where
  mooncakeSnapshotOngoing : Bool
  persistenceSnapshotOngoing : Bool
  indexMergeOngoing : Bool
  dataCompactionOngoing : Bool
  deriving DecidableEq, Repr

/-- What a persistence takes, and what its result returns to the next snapshot. -/
structure PersistencePayload where
  flushLsn : Nat
  /-- The number of maintenance results that are persisted. -/
  maintenance : Nat
  /-- The version of the schema, if the table is altered. -/
  newTableSchema : Option Nat
  deriving DecidableEq, Repr

def PersistencePayload.containsTableMaintenancePayload (p : PersistencePayload) : Bool :=
  0 < p.maintenance

structure SnapshotTask where
  newFlushLsn : Option Nat
  /-- Data files are being compacted. -/
  compactingDataFiles : Bool
  indexMergeResult : Bool
  dataCompactionResult : Bool
  persistedRecords : Option PersistencePayload
  deriving DecidableEq, Repr

namespace SnapshotTask

def new : SnapshotTask := ⟨none, false, false, false, none⟩

/-- `otherWork` stands for the other reasons: new commits, streams and disk slices, many
deletions, or imported files that were persisted. -/
def shouldCreateSnapshot (task : SnapshotTask) (otherWork : Bool) : Bool :=
  otherWork || task.persistedRecords.any (·.containsTableMaintenancePayload)

/-- The maintenance results that the task adds to the snapshot. -/
def newMaintenance (task : SnapshotTask) : Nat :=
  task.indexMergeResult.toNat + task.dataCompactionResult.toNat

/-- The maintenance results that were persisted. -/
def persistedMaintenance (task : SnapshotTask) : Nat :=
  (task.persistedRecords.map (·.maintenance)).getD 0

end SnapshotTask

structure MooncakeTable where
  status : BackgroundTaskStatus
  nextSnapshotTask : SnapshotTask
  /-- The flush LSN of the current snapshot. -/
  snapshotFlushLsn : Option Nat
  /-- The number of maintenance results in the snapshot's unpersisted records. -/
  unpersistedMaintenance : Nat
  lastPersistenceSnapshotLsn : Option Nat
  /-- The table has its table manager. -/
  icebergTableManager : Bool
  /-- The version of the table's metadata. -/
  schema : Nat
  ongoingFlushLsns : List Nat
  deriving DecidableEq, Repr

/-- A mooncake snapshot that is being created, and what it can offer. -/
structure SnapshotRun where
  option : SnapshotOption
  payload : PersistencePayload
  deriving DecidableEq, Repr

/-- The tasks that have started and have not ended. -/
structure RunningTasks where
  mooncakeSnapshot : Option SnapshotRun
  persistence : Option PersistencePayload
  indexMerge : Bool
  dataCompaction : Bool
  walPersistence : Bool
  deriving DecidableEq, Repr

/-- Whether a snapshot found something to maintain. -/
inductive MaintenanceStatus where
  /-- It did not look, or too much is not persisted yet. -/
  | unknown
  | nothing
  | payload
  deriving DecidableEq, Repr

structure MooncakeSnapshotOutput where
  commitLsn : Nat
  hasPersistencePayload : Bool
  dataCompactionPayload : MaintenanceStatus
  fileIndicesMergePayload : MaintenanceStatus

/-- The table and its handler, with the tasks that run. -/
structure TableTasks where
  handler : TableHandlerState
  table : MooncakeTable
  running : RunningTasks
  /-- The payload of a `RegularIcebergSnapshot` event that is in the queue. -/
  regularIcebergSnapshot : Option PersistencePayload
  /-- The table was dropped, and the event loop has ended. -/
  dropped : Bool
  deriving DecidableEq, Repr

inductive TaskInput where
  /-- `forced` is set when a force snapshot request is pending and its LSN was flushed. -/
  | periodicalMooncakeTableSnapshot (forced otherWork : Bool)
  | mooncakeTableSnapshotResult (output : MooncakeSnapshotOutput)
  | regularIcebergSnapshot
  | persistenceSnapshotResult (succeeds : Bool)
  | indexMergeResult (succeeds : Bool)
  | dataCompactionResult (succeeds : Bool)
  | periodicalPersistenceUpdateWal (hasUpdate : Bool)
  | periodicalWalPersistenceUpdateResult (succeeds : Bool)
  | forceRegularIndexMerge
  | forceRegularDataCompaction
  | forceFullMaintenance
  | dropTable
  | alterTable (tableConsistentViewLsn : Option Nat)
  | startInitialCopy
  | finishInitialCopy
  | flushStarted (lsn : Nat)
  /-- The flush at `lsn` completes, and the next snapshot may get a flush LSN. -/
  | flushResult (lsn : Nat) (newFlushLsn : Option Nat)

namespace TableTasks

/-- A table at the start of a process, with the flush LSN of the loaded Iceberg snapshot. -/
def new (persistenceSnapshotLsn : Option Nat) : TableTasks where
  handler := .new
  table := {
    status := ⟨false, false, false, false⟩
    nextSnapshotTask := .new
    snapshotFlushLsn := persistenceSnapshotLsn
    unpersistedMaintenance := 0
    lastPersistenceSnapshotLsn := persistenceSnapshotLsn
    icebergTableManager := true
    schema := 0
    ongoingFlushLsns := [] }
  running := ⟨none, none, false, false, false⟩
  regularIcebergSnapshot := none
  dropped := false

variable (s : TableTasks)

def hasOngoingFlush : Bool := !s.table.ongoingFlushLsns.isEmpty

/-! ## Starting tasks -/

/-- The snapshot prunes what was persisted and buffers what maintenance has produced. -/
def createSnapshotImpl (s : TableTasks) (opt : SnapshotOption) : Except TaskPanic TableTasks := do
  assert (!s.table.status.mooncakeSnapshotOngoing) .createSnapshotImpl
  let task := s.table.nextSnapshotTask
  let flushLsn := task.newFlushLsn.or s.table.snapshotFlushLsn
  let unpersisted :=
    s.table.unpersistedMaintenance - task.persistedMaintenance + task.newMaintenance
  return { s with
    table := { s.table with
      status := { s.table.status with mooncakeSnapshotOngoing := true }
      nextSnapshotTask := .new
      snapshotFlushLsn := flushLsn
      unpersistedMaintenance := unpersisted }
    running := { s.running with
      mooncakeSnapshot := some ⟨opt, ⟨flushLsn.getD 0, unpersisted, none⟩⟩ } }

/-- The table after the attempt, and whether a snapshot is created. -/
def tryCreateMooncakeSnapshot (opt : SnapshotOption) (otherWork : Bool) :
    Except TaskPanic (TableTasks × Bool) :=
  if !s.table.nextSnapshotTask.shouldCreateSnapshot otherWork && !opt.forceCreate then .ok (s, false)
  else do return (← s.createSnapshotImpl opt, true)

def persistIcebergSnapshot (s : TableTasks) (payload : PersistencePayload) :
    Except TaskPanic TableTasks := do
  assert s.table.icebergTableManager .persistIcebergSnapshot
  assert (!s.table.status.persistenceSnapshotOngoing) .persistIcebergSnapshot
  return { s with
    table := { s.table with
      icebergTableManager := false
      status := { s.table.status with persistenceSnapshotOngoing := true } }
    running := { s.running with persistence := some payload } }

def performIndexMerge (s : TableTasks) : Except TaskPanic TableTasks := do
  assert (!s.table.status.indexMergeOngoing) .performIndexMerge
  return { s with
    table := { s.table with status := { s.table.status with indexMergeOngoing := true } }
    running := { s.running with indexMerge := true } }

def performDataCompaction (s : TableTasks) : Except TaskPanic TableTasks := do
  assert (!s.table.status.dataCompactionOngoing) .performDataCompaction
  assert (!s.table.nextSnapshotTask.compactingDataFiles) .performDataCompaction
  return { s with
    table := { s.table with
      status := { s.table.status with dataCompactionOngoing := true }
      nextSnapshotTask := { s.table.nextSnapshotTask with compactingDataFiles := true } }
    running := { s.running with dataCompaction := true } }

def periodicalMooncakeTableSnapshot (forced otherWork : Bool) : Except TaskPanic TableTasks :=
  if s.handler.mooncakeSnapshotOngoing then .ok s
  else do
    let handler ← s.handler.resetIcebergStateAtMooncakeSnapshot
    let (s, created) ← { s with handler }.tryCreateMooncakeSnapshot
      (handler.getMooncakeSnapshotOption forced) otherWork
    assert (created || !forced) .forceSnapshot
    return { s with handler := { s.handler with mooncakeSnapshotOngoing := created } }

def periodicalPersistenceUpdateWal (hasUpdate : Bool) : TableTasks :=
  if s.handler.walPersistOngoing then s
  else { s with
    handler := { s.handler with walPersistOngoing := hasUpdate }
    running := { s.running with walPersistence := hasUpdate } }

/-! ## Dropping the table -/

/-- Dropping the Iceberg table takes the table manager. -/
def dropTable : Except TaskPanic TableTasks := do
  assert s.table.icebergTableManager .dropIcebergTable
  return { s with dropped := true }

/-- Drop the table if it was requested and no background task is ongoing. -/
def dropIfRequested : Except TaskPanic TableTasks :=
  if s.handler.specialTableState == .dropTable && s.handler.canDropTableNow s.hasOngoingFlush then
    s.dropTable
  else .ok s

/-! ## Results -/

def markMooncakeSnapshotCompleted (s : TableTasks) : Except TaskPanic TableTasks := do
  assert s.table.status.mooncakeSnapshotOngoing .markMooncakeSnapshotCompleted
  return { s with
    table := { s.table with status := { s.table.status with mooncakeSnapshotOngoing := false } }
    handler := { s.handler with mooncakeSnapshotOngoing := false }
    running := { s.running with mooncakeSnapshot := none } }

/-- A force request for a compaction that finds nothing is answered. -/
def startDataCompaction (status : MaintenanceStatus) : Except TaskPanic TableTasks :=
  match status with
  | .nothing =>
    .ok (if s.handler.dataCompactionRequestStatus.isForceRequest then
      { s with handler := { s.handler with dataCompactionRequestStatus := .unrequested } } else s)
  | .unknown => .ok s
  | .payload =>
    { s with handler := { s.handler with
      tableMaintenanceProcessStatus := .inProcess } }.performDataCompaction

/-- A force request for a merge that finds nothing is answered. -/
def startIndexMerge (status : MaintenanceStatus) : Except TaskPanic TableTasks :=
  match status with
  | .nothing =>
    .ok (if s.handler.indexMergeRequestStatus.isForceRequest then
      { s with handler := { s.handler with indexMergeRequestStatus := .unrequested } } else s)
  | .unknown => .ok s
  | .payload => do
    assert (s.handler.tableMaintenanceProcessStatus == .unrequested) .startMaintenance
    { s with handler := { s.handler with
      tableMaintenanceProcessStatus := .inProcess } }.performIndexMerge

/-- New maintenance only starts when none is ongoing. -/
def startMaintenance (output : MooncakeSnapshotOutput) : Except TaskPanic TableTasks :=
  if s.handler.tableMaintenanceProcessStatus = .unrequested then do
    let s ← s.startDataCompaction output.dataCompactionPayload
    s.startIndexMerge output.fileIndicesMergePayload
  else .ok s

/-- The payload of the snapshot is queued, if it can be persisted now. -/
def queueIcebergSnapshot (run : SnapshotRun) (output : MooncakeSnapshotOutput) : TableTasks :=
  if s.handler.canInitiateIcebergSnapshot output.commitLsn s.table.ongoingFlushLsns &&
      output.hasPersistencePayload then
    { s with regularIcebergSnapshot := some run.payload }
  else s

def mooncakeTableSnapshotResult (output : MooncakeSnapshotOutput) : Except TaskPanic TableTasks :=
  match s.running.mooncakeSnapshot with
  | none => .ok s
  | some run => do
    let s ← s.markMooncakeSnapshotCompleted
    let s ← s.dropIfRequested
    if s.dropped then return s
    (s.queueIcebergSnapshot run output).startMaintenance output

/-- A maintenance result that is ready becomes one that is being persisted. The payload of an
alteration gets the new schema. -/
def handleRegularIcebergSnapshot : Except TaskPanic TableTasks :=
  match s.regularIcebergSnapshot with
  | none => .ok s
  | some payload => do
    let status := if payload.containsTableMaintenancePayload &&
        s.handler.tableMaintenanceProcessStatus == .readyToPersist then .inPersist
      else s.handler.tableMaintenanceProcessStatus
    let handler := { s.handler with
      tableMaintenanceProcessStatus := status
      persistenceSnapshotOngoing := true }
    let s := { s with handler, regularIcebergSnapshot := none }
    if ← handler.shouldCompleteAlterTable payload.flushLsn then
      let schema := s.table.schema + 1
      { s with
        handler := { s.handler with specialTableState := .normal }
        table := { s.table with schema } }.persistIcebergSnapshot
          { payload with newTableSchema := some schema }
    else s.persistIcebergSnapshot payload

def setPersistenceSnapshotRes (s : TableTasks) (res : PersistencePayload) :
    Except TaskPanic TableTasks := do
  assert s.table.status.persistenceSnapshotOngoing .setPersistenceSnapshotRes
  assert (s.table.lastPersistenceSnapshotLsn.all (· ≤ res.flushLsn)) .setPersistenceSnapshotRes
  assert (res.newTableSchema.all (· = s.table.schema)) .setPersistenceSnapshotRes
  assert (!s.table.icebergTableManager) .setPersistenceSnapshotRes
  assert s.table.nextSnapshotTask.persistedRecords.isNone .setPersistenceSnapshotRes
  return { s with table := { s.table with
    status := { s.table.status with persistenceSnapshotOngoing := false }
    lastPersistenceSnapshotLsn := some res.flushLsn
    icebergTableManager := true
    nextSnapshotTask := { s.table.nextSnapshotTask with persistedRecords := some res } } }

/-- After a failure the table is left as it is: the manager is not returned. -/
def persistenceSnapshotResult (succeeds : Bool) : Except TaskPanic TableTasks :=
  match s.running.persistence with
  | none => .ok s
  | some res => do
    let persisted := s.handler.tableMaintenanceProcessStatus == .inPersist &&
      (!succeeds || res.containsTableMaintenancePayload)
    let s := { s with
      handler := { s.handler with
        persistenceSnapshotOngoing := false
        tableMaintenanceProcessStatus :=
          if persisted then .unrequested else s.handler.tableMaintenanceProcessStatus }
      running := { s.running with persistence := none } }
    let s ← if succeeds then do
        let s ← s.setPersistenceSnapshotRes res
        pure { s with handler := { s.handler with persistenceSnapshotResultConsumed := false } }
      else pure s
    s.dropIfRequested

def setFileIndicesMergeRes (s : TableTasks) : Except TaskPanic TableTasks := do
  assert s.table.status.indexMergeOngoing .setFileIndicesMergeRes
  assert (!s.table.nextSnapshotTask.indexMergeResult) .setFileIndicesMergeRes
  return { s with table := { s.table with
    status := { s.table.status with indexMergeOngoing := false }
    nextSnapshotTask := { s.table.nextSnapshotTask with indexMergeResult := true } } }

/-- The merge is marked as completed before its result is looked at, and a failure is only logged. -/
def indexMergeResult (succeeds : Bool) : Except TaskPanic TableTasks :=
  if s.running.indexMerge then do
    let handler ← s.handler.markIndexMergeCompleted
    let s := { s with handler, running := { s.running with indexMerge := false } }
    if succeeds then do
      (← s.setFileIndicesMergeRes).dropIfRequested
    else return s
  else .ok s

def setDataCompactionRes (s : TableTasks) : Except TaskPanic TableTasks := do
  assert s.table.status.dataCompactionOngoing .setDataCompactionRes
  assert (!s.table.nextSnapshotTask.dataCompactionResult) .setDataCompactionRes
  return { s with table := { s.table with
    status := { s.table.status with dataCompactionOngoing := false }
    nextSnapshotTask := { s.table.nextSnapshotTask with dataCompactionResult := true } } }

def dataCompactionResult (succeeds : Bool) : Except TaskPanic TableTasks :=
  if s.running.dataCompaction then do
    let s := { s with
      handler := s.handler.markDataCompactionCompleted succeeds
      running := { s.running with dataCompaction := false } }
    let s ← if succeeds then s.setDataCompactionRes else pure s
    s.dropIfRequested
  else .ok s

/-- After a failure the flag stays. -/
def periodicalWalPersistenceUpdateResult (succeeds : Bool) : Except TaskPanic TableTasks :=
  if s.running.walPersistence then
    let s := { s with running := { s.running with walPersistence := false } }
    if succeeds then
      { s with handler := { s.handler with walPersistOngoing := false } }.dropIfRequested
    else .ok s
  else .ok s

/-! ## Requests -/

def requestMaintenance (f : TableHandlerState → TableHandlerState) : TableTasks :=
  if s.handler.canStartNewMaintenance then { s with handler := f s.handler } else s

def requestDrop : Except TaskPanic TableTasks :=
  if s.handler.canDropTableNow s.hasOngoingFlush then s.dropTable
  else do return { s with handler := ← s.handler.markDropTable }

/-- The snapshot at the start LSN is created without looking at the state of persistence. -/
def createInitialCopySnapshot : Except TaskPanic TableTasks :=
  if s.handler.mooncakeSnapshotOngoing then .ok s
  else do
    let (s, created) ← s.tryCreateMooncakeSnapshot ⟨true, true, .skip, .skip⟩ false
    return { s with handler := { s.handler with mooncakeSnapshotOngoing := created } }

def finishInitialCopy (s : TableTasks) : Except TaskPanic TableTasks := do
  let s ← s.createInitialCopySnapshot
  return { s with handler := ← s.handler.finishInitialCopy }

/-! ## The event loop -/

/-- What can happen in this state. The queue is in order, so the next snapshot's result comes
after the payload of the one before. A snapshot only offers what it was asked to look for, and
no merge with a compaction. -/
def allows : TaskInput → Bool
  | .periodicalMooncakeTableSnapshot forced _ => !forced || !s.handler.persistenceSnapshotOngoing
  | .mooncakeTableSnapshotResult output =>
    s.regularIcebergSnapshot.isNone && s.running.mooncakeSnapshot.any fun run =>
      (run.option.icebergSnapshot || !output.hasPersistencePayload) &&
      (run.option.dataCompactionOption != .skip || output.dataCompactionPayload == .unknown) &&
      (run.option.indexMergeOption != .skip || output.fileIndicesMergePayload == .unknown) &&
      (output.dataCompactionPayload != .payload || output.fileIndicesMergePayload == .unknown)
  | .flushResult lsn _ => lsn ∈ s.table.ongoingFlushLsns
  | _ => true

def handle : TaskInput → Except TaskPanic TableTasks
  | .periodicalMooncakeTableSnapshot forced otherWork =>
    s.periodicalMooncakeTableSnapshot forced otherWork
  | .mooncakeTableSnapshotResult output => s.mooncakeTableSnapshotResult output
  | .regularIcebergSnapshot => s.handleRegularIcebergSnapshot
  | .persistenceSnapshotResult succeeds => s.persistenceSnapshotResult succeeds
  | .indexMergeResult succeeds => s.indexMergeResult succeeds
  | .dataCompactionResult succeeds => s.dataCompactionResult succeeds
  | .periodicalPersistenceUpdateWal hasUpdate => .ok (s.periodicalPersistenceUpdateWal hasUpdate)
  | .periodicalWalPersistenceUpdateResult succeeds =>
    s.periodicalWalPersistenceUpdateResult succeeds
  | .forceRegularIndexMerge =>
    .ok (s.requestMaintenance fun h => { h with indexMergeRequestStatus := .forceRegular })
  | .forceRegularDataCompaction =>
    .ok (s.requestMaintenance fun h => { h with dataCompactionRequestStatus := .forceRegular })
  | .forceFullMaintenance =>
    .ok (s.requestMaintenance fun h => { h with dataCompactionRequestStatus := .forceFull })
  | .dropTable => s.requestDrop
  | .alterTable view => do return { s with handler := ← s.handler.startAlterTable view }
  | .startInitialCopy => do return { s with handler := ← s.handler.startInitialCopy }
  | .finishInitialCopy => s.finishInitialCopy
  | .flushStarted lsn =>
    .ok { s with table := { s.table with ongoingFlushLsns := s.table.ongoingFlushLsns ++ [lsn] } }
  | .flushResult lsn newFlushLsn =>
    .ok { s with table := { s.table with
      ongoingFlushLsns := s.table.ongoingFlushLsns.erase lsn
      nextSnapshotTask := { s.table.nextSnapshotTask with
        newFlushLsn := newFlushLsn.or s.table.nextSnapshotTask.newFlushLsn } } }

/-- One round of the event loop; what cannot happen changes nothing. -/
def next (i : TaskInput) : Except TaskPanic TableTasks :=
  if !s.dropped && s.allows i then s.handle i else .ok s

def run (inputs : List TaskInput) : Except TaskPanic TableTasks :=
  inputs.foldlM next s

end TableTasks
end Moonlink.BackgroundTasks
