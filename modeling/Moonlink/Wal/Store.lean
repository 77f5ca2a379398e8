-- SUMMARY: The WAL of one table over its whole life: the manager, the files on disk, background updates and crashes.
import Moonlink.Lib.TransitionSystem
import Moonlink.Wal.Replay

/-!
# The WAL store

The manager of a running process and what survives it: the WAL files, the
metadata file and the LSN of the last Iceberg snapshot. At most one persistence
update runs at a time. It works in the background, in the order of
`wal_persist_truncate_async`: the new file, then the metadata, then the deletion
of old files. The handler may push further events in between, and a crash may
come at any point.

The logs are ghost state. They record which events were pushed and to which file
each was assigned; `durableLog` is the part that the persisted metadata covers.
-/

namespace Moonlink

open Lib

/-- Pushed events with the number of the file each is assigned to. -/
abbrev WalLog (Row : Type) : Type := List (Nat × WalEvent Row)

/-- The progress of `wal_persist_truncate_async`. -/
inductive UpdateStage where
  | persistNewWalFile
  | persistMetadata
  | deleteFiles (remaining : List WalFileInfo)

structure OngoingUpdate (Row : Type) where
  update : PreparePersistentUpdate Row
  stage : UpdateStage
  /-- The log at the time the update was prepared. -/
  log : WalLog Row

structure WalStore (Row : Type) where
  manager : WalManager Row
  ongoing : Option (OngoingUpdate Row)
  files : Nat → Option (List (WalEvent Row))
  metadata : Option PersistentWalMetadata
  persistenceSnapshotLsn : Option Nat
  log : WalLog Row
  durableLog : WalLog Row

/-- What can happen to a store. -/
inductive WalAction (Row : Type) where
  | push (e : TableEvent Row)
  /-- An Iceberg snapshot with this flush LSN becomes durable. -/
  | icebergSnapshot (lsn : Nat)
  | prepare
  | persistNewWalFile
  | persistMetadata
  | deleteFile (f : WalFileInfo)
  | complete
  | crash

namespace WalStore

variable {Row : Type}

def init : WalStore Row where
  manager := WalManager.new
  ongoing := none
  files := fun _ => none
  metadata := none
  persistenceSnapshotLsn := none
  log := []
  durableLog := []

/-- The manager that a restarted process builds from the metadata file. -/
def recoveredManager (metadata : Option PersistentWalMetadata) : WalManager Row :=
  match metadata with
  | some m => WalManager.fromPersistentWalMetadata m
  | none => WalManager.new

/-- One action. There is no next state if the action is not possible, or if the
code that it runs panics. -/
def next (b : Build) (s : WalStore Row) : WalAction Row → Option (WalStore Row)
  | .push e =>
    match s.manager.push b e, WalEvent.new e with
    | .ok w, .ok e' =>
      some { s with manager := w, log := s.log ++ [(s.manager.currFileNumber, e')] }
    | _, _ => none
  | .icebergSnapshot lsn =>
    if s.persistenceSnapshotLsn.all (· ≤ lsn) then some { s with persistenceSnapshotLsn := some lsn }
    else none
  | .prepare =>
    match s.ongoing, s.manager.preparePersistentUpdate b s.persistenceSnapshotLsn with
    | none, .ok (w, u) =>
      some { s with
        manager := w
        ongoing := if u.shouldDoPersistence then some ⟨u, .persistNewWalFile, s.log⟩ else none }
    | _, _ => none
  | .persistNewWalFile =>
    match s.ongoing with
    | some ⟨u, .persistNewWalFile, log⟩ =>
      some { s with
        ongoing := some ⟨u, .persistMetadata, log⟩
        files := match u.filesToPersist with
          | some (events, f) => Function.update s.files f.fileNumber (some events)
          | none => s.files }
    | _ => none
  | .persistMetadata =>
    match s.ongoing with
    | some ⟨u, .persistMetadata, log⟩ =>
      some { s with
        ongoing := some ⟨u, .deleteFiles u.filesToDelete, log⟩
        metadata := some u.persistentWalMetadata
        durableLog := log }
    | _ => none
  | .deleteFile f =>
    match s.ongoing with
    | some ⟨u, .deleteFiles remaining, log⟩ =>
      if f ∈ remaining then
        some { s with
          ongoing := some ⟨u, .deleteFiles (remaining.erase f), log⟩
          files := Function.update s.files f.fileNumber none }
      else none
    | _ => none
  | .complete =>
    match s.ongoing with
    | some ⟨u, .deleteFiles [], _⟩ =>
      match s.manager.handleCompleteWalPersistenceUpdate b u with
      | .ok (w, _) => some { s with manager := w, ongoing := none }
      | .error _ => none
    | _ => none
  | .crash =>
    some { s with manager := recoveredManager s.metadata, ongoing := none, log := s.durableLog }

/-- The same step as a relation: what each action requires and does. -/
inductive Step (b : Build) (s : WalStore Row) : WalAction Row → WalStore Row → Prop where
  | push {e : TableEvent Row} {w : WalManager Row} {e' : WalEvent Row}
      (hpush : s.manager.push b e = .ok w) (hnew : WalEvent.new e = .ok e') :
      Step b s (.push e)
        { s with manager := w, log := s.log ++ [(s.manager.currFileNumber, e')] }
  | icebergSnapshot {lsn : Nat} (hle : s.persistenceSnapshotLsn.all (· ≤ lsn) = true) :
      Step b s (.icebergSnapshot lsn) { s with persistenceSnapshotLsn := some lsn }
  | prepare {w : WalManager Row} {u : PreparePersistentUpdate Row} (hidle : s.ongoing = none)
      (hprep : s.manager.preparePersistentUpdate b s.persistenceSnapshotLsn = .ok (w, u)) :
      Step b s .prepare
        { s with
          manager := w
          ongoing := if u.shouldDoPersistence then some ⟨u, .persistNewWalFile, s.log⟩ else none }
  | persistNewWalFile {u : PreparePersistentUpdate Row} {log : WalLog Row}
      (hon : s.ongoing = some ⟨u, .persistNewWalFile, log⟩) :
      Step b s .persistNewWalFile
        { s with
          ongoing := some ⟨u, .persistMetadata, log⟩
          files := match u.filesToPersist with
            | some (events, f) => Function.update s.files f.fileNumber (some events)
            | none => s.files }
  | persistMetadata {u : PreparePersistentUpdate Row} {log : WalLog Row}
      (hon : s.ongoing = some ⟨u, .persistMetadata, log⟩) :
      Step b s .persistMetadata
        { s with
          ongoing := some ⟨u, .deleteFiles u.filesToDelete, log⟩
          metadata := some u.persistentWalMetadata
          durableLog := log }
  | deleteFile {u : PreparePersistentUpdate Row} {remaining : List WalFileInfo} {log : WalLog Row}
      {f : WalFileInfo} (hon : s.ongoing = some ⟨u, .deleteFiles remaining, log⟩)
      (hmem : f ∈ remaining) :
      Step b s (.deleteFile f)
        { s with
          ongoing := some ⟨u, .deleteFiles (remaining.erase f), log⟩
          files := Function.update s.files f.fileNumber none }
  | complete {u : PreparePersistentUpdate Row} {log : WalLog Row} {w : WalManager Row}
      {walLsn : Option Nat} (hon : s.ongoing = some ⟨u, .deleteFiles [], log⟩)
      (hcomplete : s.manager.handleCompleteWalPersistenceUpdate b u = .ok (w, walLsn)) :
      Step b s .complete { s with manager := w, ongoing := none }
  | crash :
      Step b s .crash
        { s with manager := recoveredManager s.metadata, ongoing := none, log := s.durableLog }

theorem Step_of_next {b : Build} {s s' : WalStore Row} {a : WalAction Row}
    (h : s.next b a = some s') : Step b s a s' := by
  cases a with
  | push e =>
    simp only [next] at h
    split at h
    · rename_i w e' hpush hnew
      cases h
      exact .push hpush hnew
    · cases h
  | icebergSnapshot lsn =>
    simp only [next] at h
    split at h
    · rename_i hle
      cases h
      exact .icebergSnapshot hle
    · cases h
  | prepare =>
    simp only [next] at h
    split at h
    · rename_i w u hidle hprep
      cases h
      exact .prepare hidle hprep
    · cases h
  | persistNewWalFile =>
    simp only [next] at h
    split at h
    · rename_i u log hon
      cases h
      exact .persistNewWalFile hon
    · cases h
  | persistMetadata =>
    simp only [next] at h
    split at h
    · rename_i u log hon
      cases h
      exact .persistMetadata hon
    · cases h
  | deleteFile f =>
    simp only [next] at h
    split at h
    · rename_i u remaining log hon
      split at h
      · rename_i hmem
        cases h
        exact .deleteFile hon hmem
      · cases h
    · cases h
  | complete =>
    simp only [next] at h
    split at h
    · rename_i u log hon
      split at h
      · rename_i w walLsn hcomplete
        cases h
        exact .complete hon hcomplete
      · cases h
    · cases h
  | crash =>
    simp only [next] at h
    cases h
    exact .crash

/-- Which actions the environment may take in a state. -/
abbrev Environment (Row : Type) : Type := WalStore Row → WalAction Row → Bool

/-- Anything may be pushed that `WalManager::push` accepts. -/
def anyEvent : Environment Row := fun _ _ => true

/-- The handler pushes ingest events only, with non-decreasing commit LSNs. -/
def ingestEvents : Environment Row := fun s a =>
  match a with
  | .push e => e.isIngestEvent &&
      (WalManager.commitLsn? e).all fun lsn => s.manager.highestCompletionLsn ≤ lsn
  | _ => true

/-- The runs of a store in an environment. -/
def system (b : Build) (env : Environment Row) : TransitionSystem (WalStore Row) where
  init := fun s => s = WalStore.init
  step := fun s s' => ∃ a, env s a = true ∧ s.next b a = some s'

/-- A list of actions, taken one after the other as far as the environment allows. -/
def run (b : Build) (env : Environment Row) (s : WalStore Row) :
    List (WalAction Row) → Option (WalStore Row)
  | [] => some s
  | a :: rest => if env s a then (s.next b a).bind fun s' => run b env s' rest else none

theorem Reachable_of_run {b : Build} {env : Environment Row} {s s' : WalStore Row}
    (actions : List (WalAction Row)) (hs : (system b env).Reachable s)
    (hrun : run b env s actions = some s') : (system b env).Reachable s' := by
  induction actions generalizing s with
  | nil =>
    cases hrun
    exact hs
  | cons a rest ih =>
    simp only [run] at hrun
    split at hrun
    · rename_i henv
      obtain ⟨t, hnext, hrest⟩ := Option.bind_eq_some_iff.mp hrun
      exact ih (.step hs ⟨a, henv, hnext⟩) hrest
    · cases hrun

/-- Recovery from the current disk contents. -/
def replay (b : Build) (s : WalStore Row) : WalManager.ReplayOutcome Row :=
  WalManager.replayRecoveryFromWal b s.metadata s.files s.persistenceSnapshotLsn

end WalStore
end Moonlink
