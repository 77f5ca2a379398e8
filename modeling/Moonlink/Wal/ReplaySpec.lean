-- SUMMARY: What a replay sends and when it runs to its end, in terms of the log of a store.
import Moonlink.Wal.Coverage

namespace Moonlink

open Lib

namespace WalEvent

variable {Row : Type}

/-- The event as the replay forwards it. -/
def recovered : WalEvent Row → TableEvent Row
  | .append row x lsn => .append row x lsn true
  | .delete row lsn x d => .delete row lsn x d true
  | .commit lsn x => .commit lsn x true
  | .streamAbort x => .streamAbort x true false
  | .streamFlush x => .streamFlush x true

theorem setIsRecovery_intoTableEvent (e : WalEvent Row) :
    e.intoTableEvent.setIsRecovery true = .ok e.recovered := by
  cases e <;> rfl

theorem recovered_injective : Function.Injective (recovered : WalEvent Row → TableEvent Row) := by
  intro e e' h
  cases e <;> cases e' <;> cases h <;> rfl

end WalEvent

namespace WalManager

variable {Row : Type} {b : Build} {m : PersistentWalMetadata} {lsn : Option Nat}

/-- The decision of the replay on a WAL event. -/
def reapply (b : Build) (m : PersistentWalMetadata) (lsn : Option Nat) (e : WalEvent Row) :
    Except Panic Bool :=
  shouldReapplyWalEvent b e.intoTableEvent m.activeTransactions m.highestCompletionLsn lsn

/-- The filter returns on the event. -/
def decides (b : Build) (m : PersistentWalMetadata) (lsn : Option Nat) (e : WalEvent Row) : Bool :=
  (reapply b m lsn e).toOption.isSome

/-- The filter returns on the event and lets it through. -/
def forwards (b : Build) (m : PersistentWalMetadata) (lsn : Option Nat) (e : WalEvent Row) : Bool :=
  (reapply b m lsn e).toOption.getD false

theorem replayEvents_sent (b : Build) (m : PersistentWalMetadata) (lsn : Option Nat)
    (events : List (WalEvent Row)) :
    (replayEvents b m lsn (events.map (·.intoTableEvent))).sent =
      ((events.takeWhile (decides b m lsn)).filter (forwards b m lsn)).map (·.recovered) := by
  induction events with
  | nil => rfl
  | cons e rest ih =>
    rw [List.map_cons, replayEvents]
    cases hr : reapply b m lsn e with
    | error p =>
      have hr' := hr
      unfold reapply at hr'
      rw [hr', List.takeWhile_cons, decides, hr]
      rfl
    | ok d =>
      have hr' := hr
      unfold reapply at hr'
      have hdec : decides b m lsn e = true := by rw [decides, hr]; rfl
      rw [hr', List.takeWhile_cons, if_pos hdec]
      cases d with
      | false =>
        rw [List.filter_cons_of_neg (by rw [forwards, hr]; simp [Except.toOption])]
        exact ih
      | true =>
        rw [List.filter_cons_of_pos (by rw [forwards, hr]; rfl), List.map_cons, ← ih]
        simp only [WalEvent.setIsRecovery_intoTableEvent]

theorem replayEvents_result_eq_ok_iff (b : Build) (m : PersistentWalMetadata) (lsn : Option Nat)
    (events : List (WalEvent Row)) :
    (replayEvents b m lsn (events.map (·.intoTableEvent))).result = .ok () ↔
      ∀ e ∈ events, decides b m lsn e = true := by
  induction events with
  | nil => simp [replayEvents]
  | cons e rest ih =>
    rw [List.map_cons, replayEvents, List.forall_mem_cons]
    cases hr : reapply b m lsn e with
    | error p =>
      have hr' := hr
      unfold reapply at hr'
      simp [hr', decides, hr, Except.toOption]
    | ok d =>
      have hr' := hr
      unfold reapply at hr'
      have hdec : decides b m lsn e = true := by rw [decides, hr]; rfl
      rw [hr']
      cases d with
      | false => simpa [hdec] using ih
      | true => simpa [hdec, WalEvent.setIsRecovery_intoTableEvent] using ih

/-- Exactly two kinds of events stop a replay: a stream abort and, in a debug build, a
commit of an untracked transaction that the snapshot does not capture. -/
theorem decides_eq_true_iff {e : WalEvent Row} :
    decides b m lsn e = true ↔
      e.isStreamAbort = false ∧
        (b = .debug → ∀ l x, e = .commit l (some x) → m.activeTransactions.lookup x = none →
          eventAlreadyCapturedInIcebergSnapshot l lsn = true) := by
  have hrow : ∀ x, (shouldReapplyStreaming b (m.activeTransactions.lookup x) none
      lsn).toOption.isSome = true := by
    intro x
    unfold shouldReapplyStreaming
    split <;> rfl
  cases e with
  | append row x l =>
    cases x with
    | none => simp [decides, reapply, WalEvent.intoTableEvent, shouldReapplyWalEvent,
        WalEvent.isStreamAbort, Except.toOption]
    | some x => simpa [decides, reapply, WalEvent.intoTableEvent, shouldReapplyWalEvent,
        WalEvent.isStreamAbort] using hrow x
  | delete row l x d =>
    cases x with
    | none => simp [decides, reapply, WalEvent.intoTableEvent, shouldReapplyWalEvent,
        WalEvent.isStreamAbort, Except.toOption]
    | some x => simpa [decides, reapply, WalEvent.intoTableEvent, shouldReapplyWalEvent,
        WalEvent.isStreamAbort] using hrow x
  | streamAbort x =>
    simp [decides, reapply, WalEvent.intoTableEvent, shouldReapplyWalEvent,
      WalEvent.isStreamAbort, Except.toOption]
  | streamFlush x =>
    simp [decides, reapply, WalEvent.intoTableEvent, shouldReapplyWalEvent,
      WalEvent.isStreamAbort, Except.toOption]
  | commit l x =>
    cases x with
    | none => simp [decides, reapply, WalEvent.intoTableEvent, shouldReapplyWalEvent,
        WalEvent.isStreamAbort, Except.toOption]
    | some x =>
      simp only [decides, reapply, WalEvent.intoTableEvent, shouldReapplyWalEvent,
        WalEvent.isStreamAbort, WalEvent.commit.injEq, Option.some.injEq, and_imp, true_and]
      cases hlook : m.activeTransactions.lookup x with
      | some st =>
        have : ∀ (l' : Nat) (x' : XactId), l = l' → x = x' →
            m.activeTransactions.lookup x' = none →
            eventAlreadyCapturedInIcebergSnapshot l' lsn = true := by
          rintro l' x' rfl rfl hnone
          rw [hlook] at hnone
          cases hnone
        cases st <;> simpa [shouldReapplyStreaming, Except.toOption] using fun _ => this
      | none =>
        cases b with
        | release =>
          simp [shouldReapplyStreaming, Build.assert, Except.toOption]
        | debug =>
          cases hcap : eventAlreadyCapturedInIcebergSnapshot l lsn <;>
            simp [shouldReapplyStreaming, Build.assert, Moonlink.assert, hcap, hlook,
              Except.toOption, bind, Except.bind, pure, Except.pure]

end WalManager

/-! ## Replaying a store -/

/-- The row and commit events among those sent to the handler. -/
def TableEvent.isData {Row : Type} : TableEvent Row → Bool
  | .append .. | .delete .. | .commit .. => true
  | _ => false

namespace WalStore

variable {Row : Type} {b : Build} {s : WalStore Row}

/-- The part of the durable log that lies in live files. -/
def liveLog (s : WalStore Row) : WalLog Row :=
  match s.metadata with
  | none => []
  | some m => s.durableLog.filter fun p => m.liveWalFilesTracker.any (·.fileNumber = p.1)

variable {m : PersistentWalMetadata}

/-- The live files hold a suffix of the durable log. -/
theorem DiskInv.liveLog_suffix (h : DiskInv s) (hm : s.metadata = some m) :
    ∃ first, LiveRange m.liveWalFilesTracker first m.currFileNumber ∧
      s.liveLog = s.durableLog.filter (fun p => first ≤ p.1) ∧
      s.durableLog = s.durableLog.filter (fun p => p.1 < first) ++ s.liveLog := by
  obtain ⟨first, hrange⟩ := h.durable.range
  rw [hm] at hrange
  have hlive : s.liveLog = s.durableLog.filter (fun p => first ≤ p.1) := by
    unfold liveLog
    rw [hm]
    refine List.filter_congr ?_
    intro p hp
    have hlt := h.durable.lt p hp
    rw [hm] at hlt
    rw [Bool.eq_iff_iff, List.any_eq_true, decide_eq_true_eq]
    constructor
    · rintro ⟨f, hf, hfp⟩
      exact ((hrange.mem p.1).mp ⟨f, hf, by simpa using hfp⟩).1
    · intro hle
      obtain ⟨f, hf, hfp⟩ := (hrange.mem p.1).mpr ⟨hle, hlt⟩
      exact ⟨f, hf, by simpa using hfp⟩
  refine ⟨first, hrange, hlive, ?_⟩
  rw [hlive]
  exact (filter_lt_append_filter_le h.durable.segmented first).symm

/-- Recovery reads the events of the live log back. -/
theorem DiskInv.recoverFlushedWalsFlat_eq (h : DiskInv s) (hm : s.metadata = some m) :
    WalManager.recoverFlushedWalsFlat s.files m =
      (s.liveLog.map (·.2)).map (·.intoTableEvent) := by
  obtain ⟨first, hrange, hlive, -⟩ := h.liveLog_suffix hm
  have hread : ∀ n ∈ WalManager.filesToRecover m,
      ((s.files n).getD []).map (·.intoTableEvent) =
        (contents s.durableLog n).map (·.intoTableEvent) := by
    intro n hn
    rw [hrange.filesToRecover_eq, List.mem_range'_1] at hn
    have hle := hrange.le
    obtain ⟨f, hf, rfl⟩ := (hrange.mem n).mpr ⟨hn.1, by omega⟩
    rw [h.durable.readable f (by rw [hm]; exact hf), Option.getD_some]
  have hall : s.durableLog.filter (fun p => first ≤ p.1 ∧
      p.1 < first + (m.currFileNumber - first)) = s.liveLog := by
    rw [hlive]
    refine List.filter_congr ?_
    intro p hp
    have hlt := h.durable.lt p hp
    rw [hm] at hlt
    have hlt' : p.1 < m.currFileNumber := hlt
    have hle := hrange.le
    rw [Bool.eq_iff_iff, decide_eq_true_eq, decide_eq_true_eq]
    omega
  unfold WalManager.recoverFlushedWalsFlat
  rw [List.flatMap_congr hread, ← List.map_flatMap, hrange.filesToRecover_eq,
    flatMap_contents h.durable.segmented, hall]

/-- The events of the live log up to the first one on which the filter panics. -/
def readable (b : Build) (s : WalStore Row) (m : PersistentWalMetadata) : List (WalEvent Row) :=
  (s.liveLog.map (·.2)).takeWhile (WalManager.decides b m s.persistenceSnapshotLsn)

theorem replay_none (hm : s.metadata = none) : s.replay b = ⟨[], .ok ()⟩ := by
  unfold replay WalManager.replayRecoveryFromWal
  rw [hm]

theorem isData_closeIncompleteXacts (active : AssocMap XactId WalTransactionState) :
    (WalManager.closeIncompleteXacts active : List (TableEvent Row)).filter (·.isData) = [] := by
  rw [List.filter_eq_nil_iff]
  intro e he
  obtain ⟨⟨x, st⟩, -, heq⟩ := List.mem_filterMap.mp he
  cases st with
  | «open» f =>
    cases heq
    simp [TableEvent.isData]
  | commit f l g => cases heq
  | abort f l g => cases heq

/-- The data events that reach the handler, whether or not the replay panics later. -/
theorem DiskInv.replay_sent (h : DiskInv s) (hm : s.metadata = some m) :
    (s.replay b).sent.filter (·.isData) =
      (((readable b s m).filter (WalManager.forwards b m s.persistenceSnapshotLsn)).map
        (·.recovered)).filter (·.isData) := by
  have hsent := WalManager.replayEvents_sent b m s.persistenceSnapshotLsn (s.liveLog.map (·.2))
  rw [← h.recoverFlushedWalsFlat_eq hm] at hsent
  unfold replay WalManager.replayRecoveryFromWal
  rw [hm]
  simp only
  split
  · rename_i hempty
    have hnil : s.liveLog = [] := by
      unfold liveLog
      rw [hm, List.filter_eq_nil_iff]
      intro p _
      rw [List.isEmpty_iff.mp hempty]
      simp
    simp [readable, hnil]
  · split
    · rw [hsent]
      rfl
    · rw [hsent, List.filter_append, List.filter_append, isData_closeIncompleteXacts]
      simp [TableEvent.isData, readable]

/-- The replay runs to its end iff its filter returns on every event of the live log. -/
theorem DiskInv.replay_result_iff (h : DiskInv s) (hm : s.metadata = some m) :
    (s.replay b).result = .ok () ↔
      ∀ p ∈ s.liveLog, WalManager.decides b m s.persistenceSnapshotLsn p.2 = true := by
  have hres := WalManager.replayEvents_result_eq_ok_iff b m s.persistenceSnapshotLsn
    (s.liveLog.map (·.2))
  rw [← h.recoverFlushedWalsFlat_eq hm, List.forall_mem_map] at hres
  rw [← hres]
  unfold replay WalManager.replayRecoveryFromWal
  rw [hm]
  simp only
  split
  · rename_i hempty
    have hnil : WalManager.filesToRecover m = [] := by
      unfold WalManager.filesToRecover
      rw [List.isEmpty_iff.mp hempty]
      rfl
    simp [WalManager.recoverFlushedWalsFlat, hnil, WalManager.replayEvents]
  · split
    · rename_i p hp
      simp [hp]
    · rename_i hp
      simp [hp]

end WalStore
end Moonlink
