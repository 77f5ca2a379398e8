-- SUMMARY: What becomes of the streaming transactions that a WAL replay forwards to a restarted handler.
import Moonlink.Table.HandlerSpec
import Moonlink.Wal.Exactness

/-!
# Recovered streaming transactions

The persistent LSN of a restarted handler is at least the highest completion LSN of
the recovered WAL. The commit of a main transaction that the replay forwards is
marked as a recovery event and passes the discard of main events. The late discard at
the commit of a streaming transaction does not look at the mark, so every streaming
transaction that the replay forwards is aborted.
-/

namespace Moonlink

open Lib

def XactOrigin.isStream : XactOrigin → Bool
  | .stream _ => true
  | _ => false

/-! ## Only a stream commit applies a streaming transaction -/

namespace MooncakeTable

variable {Row : Type} {t : MooncakeTable Row} {lsn : Nat}

/-- The applied streaming transactions. -/
def appliedStreams (t : MooncakeTable Row) : List (AppliedXact Row) :=
  t.applied.filter (·.origin.isStream)

/-- The operation applies no streaming transaction. -/
abbrev KeepsStreams (t : MooncakeTable Row) (x : Except Panic (MooncakeTable Row)) : Prop :=
  Ensures x fun t' => t'.appliedStreams = t.appliedStreams

theorem KeepsStreams_of_sameContents {x : Except Panic (MooncakeTable Row)}
    (h : Ensures x (SameContents t)) : t.KeepsStreams x := by
  intro t' ht'
  rw [h t' ht']
  rfl

theorem appliedStreams_prepareDiskSlice :
    (t.prepareDiskSlice lsn).appliedStreams = t.appliedStreams := by
  unfold prepareDiskSlice appliedStreams
  simp only
  split
  · rfl
  · simp [XactOrigin.isStream]

theorem KeepsStreams_flush : t.KeepsStreams (t.flush lsn) := by
  intro t' ht'
  rcases flush_sameContents t' ht' with h | h
  · rw [h]
    rfl
  · rw [h]
    exact appliedStreams_prepareDiskSlice

theorem KeepsStreams_commit : t.KeepsStreams (t.commit lsn) := by
  refine Ensures.bind_any fun _ => Ensures.bind_any fun _ => Ensures.pure ?_
  simp [appliedStreams, XactOrigin.isStream]

end MooncakeTable

/-! ## Replayed events -/

namespace TableHandler

variable {Row : Type} {b : Build} {h : TableHandler Row} {e : TableEvent Row} {p : Nat}

/-- A replay only sends ingest events, with streaming commits at or below `p`, and the end
of the recovery. -/
def IsReplayed (p : Nat) (e : TableEvent Row) : Prop :=
  (e.isIngestEvent = true ∧ ∀ lsn x r, e = .commit lsn (some x) r → lsn ≤ p) ∨
    ∃ lsn, e = .finishRecovery lsn

/-- The persistent LSN is `p` and no streaming transaction was applied. -/
structure NoStreams (p : Nat) (h : TableHandler Row) : Prop where
  persistence : h.state.initialPersistenceLsn = some p
  applied : h.table.appliedStreams = []

/-- An operation on the table that applies no streaming transaction. -/
theorem NoStreams.onTable (hinv : NoStreams p h) {x : Except Panic (MooncakeTable Row)}
    (hkeeps : h.table.KeepsStreams x) : Ensures (do
      let table ← x
      return { h with table }) (NoStreams p) :=
  Ensures.bind hkeeps fun _ ht => Ensures.pure ⟨hinv.persistence, ht.trans hinv.applied⟩

theorem NoStreams.tryCreateSnapshot (hinv : NoStreams p h) (forceCreate otherWork : Bool) :
    NoStreams p (h.tryCreateSnapshot forceCreate otherWork) := by
  unfold TableHandler.tryCreateSnapshot MooncakeTable.tryCreateMooncakeSnapshot
  split
  · exact hinv
  · split
    · rename_i table heq
      split at heq
      · cases heq
      · cases heq
        exact ⟨hinv.persistence, hinv.applied⟩
    · exact hinv

theorem NoStreams.flushUnflushedCommits (hinv : NoStreams p h) :
    Ensures h.flushUnflushedCommits (NoStreams p) := by
  unfold TableHandler.flushUnflushedCommits
  split
  · exact Ensures.ok hinv
  · refine Ensures.bind MooncakeTable.KeepsStreams_flush ?_
    intro t ht
    exact Ensures.pure ⟨hinv.persistence, ht.trans hinv.applied⟩

/-- The late discard: a streaming transaction at or below the persistent LSN is aborted,
whether or not its commit is a recovery event. -/
theorem NoStreams.commitStreaming (hinv : NoStreams p h) {x : XactId} {lsn : Nat} (hle : lsn ≤ p) :
    Ensures (h.commitStreaming x lsn) (NoStreams p) := by
  refine Ensures.bind hinv.flushUnflushedCommits ?_
  intro h₁ hinv₁
  rw [hinv₁.persistence, if_pos (by simpa using hle)]
  exact hinv₁.onTable (MooncakeTable.KeepsStreams_of_sameContents MooncakeTable.abortInStreamBatch_sameContents)

theorem NoStreams.commitMain (hinv : NoStreams p h) (lsn : Nat) (forceFlushRequested : Bool) :
    Ensures (h.commitMain lsn forceFlushRequested) (NoStreams p) := by
  refine Ensures.bind MooncakeTable.KeepsStreams_commit ?_
  intro t ht
  split
  · refine Ensures.bind MooncakeTable.KeepsStreams_flush ?_
    intro t₁ ht₁
    exact Ensures.pure ⟨hinv.persistence, (ht₁.trans ht).trans hinv.applied⟩
  · exact Ensures.pure ⟨hinv.persistence, ht.trans hinv.applied⟩

theorem NoStreams.applyCdcTableEvent (hinv : NoStreams p h) (hreplayed : IsReplayed p e) :
    Ensures (h.applyCdcTableEvent e) (NoStreams p) := by
  cases e with
  | append row x lsn r =>
    cases x with
    | none => exact Ensures.ok ⟨hinv.persistence, hinv.applied⟩
    | some x =>
      refine Ensures.bind_any fun c => ?_
      split
      · exact NoStreams.onTable (h := { h with table := h.table.appendInStreamBatch row x })
          ⟨hinv.persistence, hinv.applied⟩ (MooncakeTable.KeepsStreams_of_sameContents MooncakeTable.flushStream_sameContents)
      · exact Ensures.pure ⟨hinv.persistence, hinv.applied⟩
  | delete row lsn x d r =>
    cases x with
    | none =>
      refine Ensures.ok ⟨hinv.persistence, ?_⟩
      simp only [MooncakeTable.delete, MooncakeTable.deleteIfExists, MooncakeTable.deleteImpl]
      split <;> split <;> exact hinv.applied
    | some x =>
      refine Ensures.bind_any fun c => Ensures.pure ⟨hinv.persistence, ?_⟩
      simp only [MooncakeTable.deleteInStreamBatch]
      split <;> exact hinv.applied
  | commit lsn x r =>
    cases x with
    | none => exact hinv.commitMain lsn false
    | some x =>
      rcases hreplayed with ⟨-, hle⟩ | ⟨l, hl⟩
      · exact hinv.commitStreaming (hle lsn x r rfl)
      · cases hl
  | streamAbort x r c =>
    simp only [TableHandler.applyCdcTableEvent]
    split
    · exact Ensures.ok hinv
    · exact hinv.onTable (MooncakeTable.KeepsStreams_of_sameContents MooncakeTable.abortInStreamBatch_sameContents)
  | loadFiles files lsn => exact Ensures.error
  | commitFlush lsn x r =>
    rcases hreplayed with ⟨hingest, -⟩ | ⟨l, hl⟩
    · cases hingest
    · cases hl
  | streamFlush x r => exact hinv.onTable (MooncakeTable.KeepsStreams_of_sameContents MooncakeTable.flushStream_sameContents)
  | startInitialCopy => exact Ensures.error
  | finishInitialCopy lsn => exact Ensures.error
  | finishRecovery lsn => exact Ensures.error

theorem NoStreams.processCdcTableEvent (hinv : NoStreams p h) (hreplayed : IsReplayed p e) :
    Ensures (h.processCdcTableEvent b e) (NoStreams p) := by
  have hstate : (h.state.updateTableLsns e).initialPersistenceLsn = h.state.initialPersistenceLsn := by
    cases e <;> rfl
  have hinv' : NoStreams p { h with state := h.state.updateTableLsns e } :=
    ⟨hstate.trans hinv.persistence, hinv.applied⟩
  unfold TableHandler.processCdcTableEvent
  split
  · exact Ensures.ok ⟨hinv.persistence, hinv.applied⟩
  · refine Ensures.bind_any fun isRecovery => ?_
    split
    · exact Ensures.pure hinv'
    · have hpush : Ensures (pushWalEvent b { h with state := h.state.updateTableLsns e } e isRecovery)
          (NoStreams p) := by
        unfold pushWalEvent
        split
        · exact Ensures.ok hinv'
        · exact Ensures.bind_any fun w => Ensures.pure ⟨hinv'.persistence, hinv'.applied⟩
      exact Ensures.bind hpush fun h₁ hinv₁ => hinv₁.applyCdcTableEvent hreplayed

theorem NoStreams.next (hinv : NoStreams p h) {i : HandlerInput Row}
    (hreplayed : ∀ e, i.event? = some e → IsReplayed p e) : Ensures (h.next b i) (NoStreams p) := by
  cases i with
  | event e =>
    have hevent := hreplayed e rfl
    simp only [TableHandler.next, handleEvent]
    split
    · exact hinv.processCdcTableEvent hevent
    · rename_i hnot
      rcases hevent with ⟨hingest, -⟩ | ⟨lsn, rfl⟩
      · exact absurd hingest hnot
      · exact Ensures.ok hinv
  | flushResult lsn =>
    simp only [TableHandler.next]
    split
    · exact hinv.onTable (MooncakeTable.KeepsStreams_of_sameContents
        MooncakeTable.applyFlushResult_sameContents)
    · exact Ensures.ok hinv
  | streamFlushResult x =>
    simp only [TableHandler.next]
    split
    · exact hinv.onTable (MooncakeTable.KeepsStreams_of_sameContents
      MooncakeTable.applyStreamFlushResult_sameContents)
    · exact Ensures.ok hinv
  | periodicalMooncakeTableSnapshot otherWork =>
    exact Ensures.ok (hinv.tryCreateSnapshot false otherWork)
  | mooncakeTableSnapshotResult =>
    simp only [TableHandler.next]
    split
    · exact Ensures.ok hinv
    · exact Ensures.ok ⟨hinv.persistence, hinv.applied⟩

theorem NoStreams.run (hinv : NoStreams p h) {inputs : List (HandlerInput Row)}
    (hreplayed : ∀ e ∈ HandlerInput.events inputs, IsReplayed p e) :
    Ensures (h.run b inputs) (NoStreams p) := by
  induction inputs generalizing h with
  | nil => exact Ensures.ok hinv
  | cons i rest ih =>
    have hi : ∀ e, i.event? = some e → IsReplayed p e :=
      fun e he => hreplayed e (List.mem_filterMap.mpr ⟨i, List.mem_cons_self, he⟩)
    have hrest : ∀ e ∈ HandlerInput.events rest, IsReplayed p e := by
      intro e he
      obtain ⟨j, hj, hje⟩ := List.mem_filterMap.mp he
      exact hreplayed e (List.mem_filterMap.mpr ⟨j, List.mem_cons_of_mem _ hj, hje⟩)
    exact Ensures.bind (hinv.next hi) fun h₁ hinv₁ => ih hinv₁ hrest

end TableHandler

/-! ## What a replay sends -/

namespace WalStore

variable {Row : Type} {b : Build} {s : WalStore Row}

/-- Besides rows and commits, a replay sends the aborts of open transactions and its end. -/
theorem replay_sent_cases {e : TableEvent Row} (hdisk : DiskInv s) (he : e ∈ (s.replay b).sent) :
    e.isData = true ∨ (∃ x, e = .streamAbort x false true) ∨ ∃ lsn, e = .finishRecovery lsn := by
  unfold replay WalManager.replayRecoveryFromWal at he
  split at he
  · cases he
  · rename_i m hm
    have hsent := WalManager.replayEvents_sent b m s.persistenceSnapshotLsn (s.liveLog.map (·.2))
    rw [← hdisk.recoverFlushedWalsFlat_eq hm] at hsent
    have hrecovered : ∀ e ∈ (WalManager.replayEvents b m s.persistenceSnapshotLsn
        (WalManager.recoverFlushedWalsFlat s.files m)).sent, e.isData = true := by
      intro e he
      rw [hsent] at he
      obtain ⟨e', he', rfl⟩ := List.mem_map.mp he
      exact isData_of_forwards (List.mem_filter.mp he').2
    split at he
    · cases he
    · simp only at he
      split at he
      · exact .inl (hrecovered e he)
      · rcases List.mem_append.mp he with he | he
        · rcases List.mem_append.mp he with he | he
          · exact .inl (hrecovered e he)
          · obtain ⟨⟨x, st⟩, -, heq⟩ := List.mem_filterMap.mp he
            cases st <;> cases heq
            exact .inr (.inl ⟨x, rfl⟩)
        · exact .inr (.inr ⟨_, List.mem_singleton.mp he⟩)

/-- A streaming commit is forwarded if it is read and its transaction, as tracked, is
completed above the snapshot LSN. -/
theorem commit_mem_replay_sent {lsn : Nat} {x : XactId} {r : Bool} (hdisk : DiskInv s)
    {m : PersistentWalMetadata} (hm : s.metadata = some m) :
    .commit lsn (some x) r ∈ (s.replay b).sent ↔ r = true ∧ .commit lsn (some x) ∈ s.readable b m ∧
      forwardsStreaming m s.persistenceSnapshotLsn x = true := by
  have hforwards : WalManager.forwards b m s.persistenceSnapshotLsn
      (.commit lsn (some x) : WalEvent Row) = forwardsStreaming m s.persistenceSnapshotLsn x :=
    forwards_streaming rfl rfl rfl
  have hmem : .commit lsn (some x) r ∈ (s.replay b).sent ↔
      .commit lsn (some x) r ∈ (s.replay b).sent.filter (·.isData) :=
    ⟨fun h => List.mem_filter.mpr ⟨h, rfl⟩, fun h => (List.mem_filter.mp h).1⟩
  rw [hmem, hdisk.replay_sent hm]
  constructor
  · intro h
    obtain ⟨e', he', heq⟩ := List.mem_map.mp (List.mem_filter.mp h).1
    obtain ⟨hread, hfwd⟩ := List.mem_filter.mp he'
    cases e' <;> cases heq
    exact ⟨rfl, hread, hforwards ▸ hfwd⟩
  · rintro ⟨rfl, hread, hfwd⟩
    refine List.mem_filter.mpr ⟨List.mem_map.mpr ⟨.commit lsn (some x), ?_, rfl⟩, rfl⟩
    exact List.mem_filter.mpr ⟨hread, hforwards.trans hfwd⟩

/-- Commits in the WAL are not above its highest completion LSN. -/
theorem replay_commit_le (hs : (system b ingestEvents).Reachable s) {lsn : Nat} {x : XactId}
    {r : Bool} (hmem : .commit lsn (some x) r ∈ (s.replay b).sent) :
    lsn ≤ (recoveredManager s.metadata : WalManager Row).highestCompletionLsn := by
  have hdisk := DiskInv_reachable hs
  cases hm : s.metadata with
  | none =>
    rw [replay_none hm] at hmem
    cases hmem
  | some m =>
    obtain ⟨-, hread, -⟩ := (commit_mem_replay_sent hdisk hm).mp hmem
    obtain ⟨⟨n, e⟩, hp, rfl⟩ := List.mem_map.mp ((List.takeWhile_sublist _).subset hread)
    have hlog : (n, WalEvent.commit lsn (some x)) ∈ s.durableLog := by
      unfold liveLog at hp
      rw [hm] at hp
      exact (List.mem_filter.mp hp).1
    exact ((TrackInv_reachable hs).durable m hm).1.tracks.commitLe _ hlog lsn rfl

/-- Every streaming transaction that the replay would forward has no commit in the part of
the live files that is read. -/
def NoStreamToRecover (b : Build) (s : WalStore Row) : Prop :=
  ∀ m, s.metadata = some m → ∀ lsn x, .commit lsn (some x) ∈ s.readable b m →
    forwardsStreaming m s.persistenceSnapshotLsn x = false

end WalStore

/-! ## Recovery -/

namespace TableEvent

variable {Row : Type}

/-- The changes of the streaming transaction `x` that the events leave open. -/
def streamOps (x : XactId) (events : List (TableEvent Row)) : List (RowOp Row) :=
  events.foldl (fun ops e =>
    match e with
    | .append row (some y) _ _ => if y = x then ops ++ [.append row] else ops
    | .delete row _ (some y) d _ => if y = x then ops ++ [.delete row d] else ops
    | .commit _ (some y) _ => if y = x then [] else ops
    | _ => ops) []

end TableEvent

namespace TableHandler

variable {Row : Type} {b : Build}

/-- Each streaming transaction whose commit is sent ends up in the table, with the changes
that were sent before. -/
def RecoversStreams (b : Build) (h : TableHandler Row) (sent : List (TableEvent Row))
    (inputs : List (HandlerInput Row)) : Prop :=
  ∀ pre lsn x post, sent = pre ++ .commit lsn (some x) true :: post →
    ∃ h', h.run b inputs = .ok h' ∧ ⟨.stream x, lsn, TableEvent.streamOps x pre⟩ ∈ h'.table.applied

/-- For each run of a WAL and each placement of background results among the replayed
events. The handler recovers the streaming transactions only if there are none. -/
theorem recovers_streams_iff {s : WalStore Row}
    (hs : (WalStore.system b WalStore.ingestEvents).Reachable s) (m : Nat) (appendOnly : Bool)
    {inputs : List (HandlerInput Row)} (hinputs : HandlerInput.events inputs = (s.replay b).sent) :
    RecoversStreams b (restart m appendOnly s) (s.replay b).sent inputs ↔ s.NoStreamToRecover b := by
  have hdisk := WalStore.DiskInv_reachable hs
  constructor
  · intro hrecovers md hm lsn x hread
    by_contra hfwd
    have hmem := (WalStore.commit_mem_replay_sent (b := b) hdisk hm).mpr
      ⟨rfl, hread, Bool.not_eq_false _ ▸ hfwd⟩
    obtain ⟨pre, post, hsent⟩ := List.append_of_mem hmem
    obtain ⟨h', hrun, happlied⟩ := hrecovers pre lsn x post hsent
    have hpos : 0 < (WalStore.recoveredManager s.metadata : WalManager Row).currFileNumber := by
      rw [hm]
      exact (WalStore.NumberInv_reachable hs).metadata md hm
    obtain ⟨p, hp, hle⟩ := le_initialPersistenceLsn s.persistenceSnapshotLsn hpos
    have hinv : NoStreams p (restart m appendOnly s) := ⟨hp, rfl⟩
    have hreplayed : ∀ e ∈ HandlerInput.events inputs, IsReplayed p e := by
      intro e he
      rw [hinputs] at he
      have hcommit : ∀ lsn x r, e = .commit lsn (some x) r → lsn ≤ p := by
        rintro lsn x r rfl
        exact Nat.le_trans (WalStore.replay_commit_le hs he) hle
      rcases WalStore.replay_sent_cases hdisk he with hdata | ⟨x, rfl⟩ | hfinish
      · have hingest : e.isIngestEvent = true := by
          cases e <;> first | rfl | cases hdata
        exact .inl ⟨hingest, hcommit⟩
      · exact .inl ⟨rfl, hcommit⟩
      · exact .inr hfinish
    have hnone := (hinv.run hreplayed h' hrun).applied
    rw [MooncakeTable.appliedStreams, List.filter_eq_nil_iff] at hnone
    exact hnone _ happlied rfl
  · intro hnone pre lsn x post hsent
    have hmem : .commit lsn (some x) true ∈ (s.replay b).sent := by
      rw [hsent]
      simp
    cases hm : s.metadata with
    | none =>
      rw [WalStore.replay_none hm] at hmem
      cases hmem
    | some md =>
      obtain ⟨-, hread, hfwd⟩ := (WalStore.commit_mem_replay_sent hdisk hm).mp hmem
      rw [hnone md hm lsn x hread] at hfwd
      cases hfwd

/-- A transaction with one row, persisted in the WAL. -/
def loggedRun (x : Option XactId) : List (WalAction Nat) :=
  [.push (.append 1 x 10 false), .push (.commit 20 x false), .prepare, .persistNewWalFile,
    .persistMetadata, .complete]

/-- With a main transaction alone there is no streaming transaction to recover. -/
theorem recovers_streams_iff_run :
    ∃ s : WalStore Nat, WalStore.run .debug WalStore.ingestEvents .init (loggedRun none) = some s ∧
      RecoversStreams .debug (restart 100 false s) (s.replay .debug).sent
        ((s.replay .debug).sent.map .event) ∧
      ∃ h', (restart 100 false s).run .debug ((s.replay .debug).sent.map .event) = .ok h' ∧
        h'.table.applied = [⟨.main, 20, [.append 1]⟩] := by
  have happly : ∀ s : WalStore Nat,
      WalStore.run .debug WalStore.ingestEvents .init (loggedRun none) = some s →
      HandlerInput.events ((s.replay .debug).sent.map .event) = (s.replay .debug).sent →
      s.NoStreamToRecover .debug →
      RecoversStreams .debug (restart 100 false s) (s.replay .debug).sent
        ((s.replay .debug).sent.map .event) := by
    intro s hrun hinputs hnone
    exact (recovers_streams_iff (WalStore.Reachable_of_run _ (.init rfl) hrun) 100 false
      hinputs).mpr hnone
  refine ⟨_, rfl, happly _ rfl rfl ?_, _, rfl, rfl⟩
  rintro m ⟨⟩ lsn x -
  rfl

/-- The row and the commit of a streaming transaction are forwarded, but the handler
aborts it at the commit. -/
theorem recovered_stream_aborted :
    ∃ s : WalStore Nat, WalStore.run .release WalStore.ingestEvents .init (loggedRun (some 7)) = some s ∧
      (s.replay .release).sent =
        [.append 1 (some 7) 10 true, .commit 20 (some 7) true, .finishRecovery 20] ∧
      (∃ h', (restart 100 false s).run .release ((s.replay .release).sent.map .event) = .ok h' ∧
        h'.table.applied = []) ∧
      ¬ RecoversStreams .release (restart 100 false s) (s.replay .release).sent
        ((s.replay .release).sent.map .event) := by
  refine ⟨_, rfl, by decide, ⟨_, rfl, rfl⟩, ?_⟩
  intro hrecovers
  obtain ⟨h', hrun, happlied⟩ := hrecovers [.append 1 (some 7) 10 true] 20 7 [.finishRecovery 20] rfl
  cases hrun
  cases happlied

end TableHandler
end Moonlink
