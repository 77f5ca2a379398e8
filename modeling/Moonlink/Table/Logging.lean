-- SUMMARY: How the WAL of a running handler grows: by pushes of the change events it processes, in their order.
import Moonlink.Table.HandlerSpec
import Moonlink.Wal.Completion

namespace Moonlink

open Lib

/-! ## Rounds of the event loop -/

theorem SpecialTableState.normal_of_ne {s : SpecialTableState} (h : s ≠ .initialCopy) : s = .normal := by
  cases s with
  | normal => rfl
  | initialCopy => exact absurd rfl h

/-- Events are buffered only during an initial copy. -/
def TableHandlerState.Settled {Row : Type} (s : TableHandlerState Row) : Prop :=
  s.specialTableState = .normal → s.initialCopyBufferedEvents = []

namespace TableHandler

variable {Row : Type} {b : Build} {h h' : TableHandler Row} {e : TableEvent Row}

/-- The WAL and the progress of the initial copy are the same. -/
structure SameQueue (h h' : TableHandler Row) : Prop where
  wal : h'.table.wal = h.table.wal
  special : h'.state.specialTableState = h.state.specialTableState
  buffered : h'.state.initialCopyBufferedEvents = h.state.initialCopyBufferedEvents
  persistence : h'.state.initialPersistenceLsn = h.state.initialPersistenceLsn

theorem SameQueue.trans {h₁ h₂ h₃ : TableHandler Row} (h : SameQueue h₁ h₂) (h' : SameQueue h₂ h₃) :
    SameQueue h₁ h₃ :=
  ⟨h'.wal.trans h.wal, h'.special.trans h.special, h'.buffered.trans h.buffered, h'.persistence.trans h.persistence⟩

/-- An operation on the table that leaves the WAL alone. -/
theorem SameQueue_onTable {x : Except Panic (MooncakeTable Row)}
    (hkeeps : Ensures x (MooncakeTable.SameContents h.table)) : Ensures (do
      let table ← x
      return { h with table }) (SameQueue h) :=
  Ensures.bind hkeeps fun _ ht => Ensures.pure ⟨ht.wal, rfl, rfl, rfl⟩

theorem flush_wal {t : MooncakeTable Row} {lsn : Nat} :
    Ensures (t.flush lsn) fun t' => t'.wal = t.wal := by
  intro t' ht'
  exact (MooncakeTable.flush_sameContents t' ht').elim (·.wal) (·.wal)

theorem SameQueue_flushUnflushedCommits : Ensures h.flushUnflushedCommits (SameQueue h) := by
  unfold flushUnflushedCommits
  split
  · exact Ensures.ok ⟨rfl, rfl, rfl, rfl⟩
  · exact Ensures.bind flush_wal fun t ht => Ensures.pure ⟨ht, rfl, rfl, rfl⟩

theorem SameQueue_commitStreaming {x : XactId} {lsn : Nat} :
    Ensures (h.commitStreaming x lsn) (SameQueue h) := by
  refine Ensures.bind SameQueue_flushUnflushedCommits ?_
  intro h₁ hsame
  split
  · exact fun h' hh' => hsame.trans
      (SameQueue_onTable MooncakeTable.abortInStreamBatch_sameContents h' hh')
  · have hcommit : Ensures (h₁.table.commitTransactionStream x lsn) fun t' =>
        t'.wal = h₁.table.wal := by
      refine Ensures.bind_any fun st => Ensures.bind ?_ fun t₁ ht₁ => Ensures.bind_any fun _ =>
        Ensures.pure (show t₁.wal = h₁.table.wal from ht₁)
      exact Ensures.bind_any fun _ => Ensures.pure rfl
    refine Ensures.bind hcommit ?_
    intro t ht
    exact Ensures.pure (hsame.trans ⟨ht, rfl, rfl, rfl⟩)

theorem SameQueue_commitMain {lsn : Nat} {forceFlushRequested : Bool} :
    Ensures (h.commitMain lsn forceFlushRequested) (SameQueue h) := by
  have hcommit : Ensures (h.table.commit lsn) fun t' => t'.wal = h.table.wal :=
    Ensures.bind_any fun _ => Ensures.bind_any fun _ => Ensures.pure rfl
  refine Ensures.bind hcommit ?_
  intro t ht
  split
  · refine Ensures.bind flush_wal ?_
    intro t₁ ht₁
    exact Ensures.pure ⟨ht₁.trans ht, rfl, rfl, rfl⟩
  · exact Ensures.pure ⟨ht, rfl, rfl, rfl⟩

theorem SameQueue_applyCdcTableEvent : Ensures (h.applyCdcTableEvent e) (SameQueue h) := by
  cases e with
  | append row x lsn r =>
    cases x with
    | none => exact Ensures.ok ⟨rfl, rfl, rfl, rfl⟩
    | some x =>
      refine Ensures.bind_any fun c => ?_
      split
      · exact Ensures.bind MooncakeTable.flushStream_sameContents fun t ht =>
          Ensures.pure ⟨ht.wal, rfl, rfl, rfl⟩
      · exact Ensures.pure ⟨rfl, rfl, rfl, rfl⟩
  | delete row lsn x d r =>
    cases x with
    | none =>
      refine Ensures.ok ⟨?_, rfl, rfl, rfl⟩
      simp only [MooncakeTable.delete, MooncakeTable.deleteIfExists, MooncakeTable.deleteImpl]
      split <;> split <;> rfl
    | some x =>
      refine Ensures.bind_any fun c => Ensures.pure ⟨?_, rfl, rfl, rfl⟩
      simp only [MooncakeTable.deleteInStreamBatch]
      split <;> rfl
  | commit lsn x r =>
    cases x with
    | none => exact SameQueue_commitMain
    | some x => exact SameQueue_commitStreaming
  | streamAbort x r c =>
    simp only [applyCdcTableEvent]
    split
    · exact Ensures.ok ⟨rfl, rfl, rfl, rfl⟩
    · exact SameQueue_onTable MooncakeTable.abortInStreamBatch_sameContents
  | commitFlush lsn x r =>
    cases x with
    | none => exact SameQueue_commitMain
    | some x => exact SameQueue_commitStreaming
  | streamFlush x r => exact SameQueue_onTable MooncakeTable.flushStream_sameContents
  | loadFiles files lsn => exact Ensures.error
  | startInitialCopy => exact Ensures.error
  | finishInitialCopy lsn => exact Ensures.error
  | finishRecovery lsn => exact Ensures.error

end TableHandler

namespace HandlerInput

variable {Row : Type}

/-- The change event of an input, if it is one. -/
def changes : HandlerInput Row → List (TableEvent Row)
  | .event e => if e.isIngestEvent then [e] else []
  | _ => []

end HandlerInput

namespace TableHandler

variable {Row : Type} {b : Build} {h h' : TableHandler Row} {e : TableEvent Row} {i : HandlerInput Row}

/-- The events that are not discarded. -/
def kept (h : TableHandler Row) (events : List (TableEvent Row)) : List (TableEvent Row) :=
  events.filter fun e => !h.state.shouldDiscardEvent e

theorem kept_congr (hpersistence : h'.state.initialPersistenceLsn = h.state.initialPersistenceLsn)
    (events : List (TableEvent Row)) : h'.kept events = h.kept events := by
  unfold kept TableHandlerState.shouldDiscardEvent
  rw [hpersistence]

/-- The events that the WAL gained, followed by those that are buffered now, are those that were buffered before and
the new one, without what is discarded once no copy is going on. -/
structure Logs (b : Build) (i : HandlerInput Row) (h h' : TableHandler Row) : Prop where
  settled : h'.state.Settled
  copying : h'.state.specialTableState = .initialCopy →
    h.state.specialTableState = .initialCopy ∨ i = .event .startInitialCopy
  persistence : h.state.specialTableState = .initialCopy ∨
    h'.state.initialPersistenceLsn = h.state.initialPersistenceLsn
  pushes : ∃ es, h.table.wal.pushAll b es = .ok h'.table.wal ∧
    if h'.state.specialTableState = .initialCopy then
      es = [] ∧ h'.state.initialCopyBufferedEvents = h.state.initialCopyBufferedEvents ++ i.changes
    else es = h'.kept (h.state.initialCopyBufferedEvents ++ i.changes)

/-- Nothing is pushed and nothing is buffered. -/
theorem SameQueue.logs (hsettled : h.state.Settled) (hsame : SameQueue h h') (hnone : i.changes = []) :
    Logs b i h h' where
  settled := by
    unfold TableHandlerState.Settled
    rw [hsame.special, hsame.buffered]
    exact hsettled
  copying hcopying := .inl (hsame.special ▸ hcopying)
  persistence := .inr hsame.persistence
  pushes := by
    refine ⟨[], by rw [hsame.wal]; rfl, ?_⟩
    rw [hnone, List.append_nil]
    split
    case isTrue => exact ⟨rfl, hsame.buffered⟩
    case isFalse hcopying =>
      rw [hsame.special] at hcopying
      rw [hsettled (SpecialTableState.normal_of_ne hcopying)]
      rfl

/-- A change event outside of the initial copy is discarded or pushed. -/
theorem processCdcTableEvent_pushes (hnormal : h.state.NotCopying) (hrecovery : e.isRecovery = .ok false) :
    Ensures (h.processCdcTableEvent b e) fun h' => h'.state.NotCopying ∧
      h'.state.initialPersistenceLsn = h.state.initialPersistenceLsn ∧
      h.table.wal.pushAll b (h.kept [e]) = .ok h'.table.wal := by
  have hstate : (h.state.updateTableLsns e).specialTableState = h.state.specialTableState ∧
      (h.state.updateTableLsns e).initialCopyBufferedEvents = h.state.initialCopyBufferedEvents ∧
      (h.state.updateTableLsns e).initialPersistenceLsn = h.state.initialPersistenceLsn := by
    cases e <;> exact ⟨rfl, rfl, rfl⟩
  have hnormal' : (h.state.updateTableLsns e).NotCopying :=
    ⟨hstate.1.trans hnormal.1, hstate.2.1.trans hnormal.2⟩
  cases hdiscard : h.state.shouldDiscardEvent e with
  | true =>
    rw [processCdcTableEvent_of_discard hnormal hrecovery hdiscard]
    exact .ok ⟨hnormal', hstate.2.2, by simp [kept, hdiscard]; rfl⟩
  | false =>
    rw [processCdcTableEvent_of_keep hnormal hrecovery hdiscard]
    intro h' hh'
    obtain ⟨w, hw, happly⟩ := bind_eq_ok.mp hh'
    have hsame := SameQueue_applyCdcTableEvent h' happly
    refine ⟨⟨hsame.special.trans hnormal'.1, hsame.buffered.trans hnormal'.2⟩, hsame.persistence.trans hstate.2.2, ?_⟩
    have hkept : h.kept [e] = [e] := by simp [kept, hdiscard]
    rw [hsame.wal, hkept]
    exact bind_eq_ok.mpr ⟨w, hw, rfl⟩

theorem processCdcTableEvents_pushes {events : List (TableEvent Row)}
    (hnormal : h.state.NotCopying) (hrecovery : ∀ e ∈ events, e.isRecovery = .ok false) :
    Ensures (h.processCdcTableEvents b events) fun h' => h'.state.NotCopying ∧
      h'.state.initialPersistenceLsn = h.state.initialPersistenceLsn ∧
      h.table.wal.pushAll b (h.kept events) = .ok h'.table.wal := by
  induction events generalizing h with
  | nil => exact Ensures.ok ⟨hnormal, rfl, rfl⟩
  | cons e rest ih =>
    refine Ensures.bind (processCdcTableEvent_pushes hnormal (hrecovery e List.mem_cons_self)) ?_
    rintro h₁ ⟨hnormal₁, hpersistence, hpush⟩ h' hh'
    obtain ⟨hnormal', hpersistence', hpush'⟩ := ih hnormal₁ (fun e' he' => hrecovery e' (List.mem_cons_of_mem _ he')) h' hh'
    refine ⟨hnormal', hpersistence'.trans hpersistence, ?_⟩
    have hcons : h.kept (e :: rest) = h.kept [e] ++ h₁.kept rest := by
      rw [kept_congr hpersistence]
      exact List.filter_append [e] rest
    rw [hcons]
    exact WalManager.pushAll_append hpush hpush'

theorem SameQueue_tryCreateSnapshot (forceCreate otherWork : Bool) :
    SameQueue h (h.tryCreateSnapshot forceCreate otherWork) := by
  unfold tryCreateSnapshot MooncakeTable.tryCreateMooncakeSnapshot
  split
  · exact ⟨rfl, rfl, rfl, rfl⟩
  · split
    · rename_i table heq
      split at heq
      · cases heq
      · cases heq
        exact ⟨rfl, rfl, rfl, rfl⟩
    · exact ⟨rfl, rfl, rfl, rfl⟩

/-- At the end of the initial copy the buffered events are processed. -/
theorem finishInitialCopy_logs {startLsn : Nat}
    (hrecovery : ∀ e ∈ h.state.initialCopyBufferedEvents, e.isRecovery = .ok false) :
    Ensures (h.finishInitialCopy b startLsn) (Logs b (.event (.finishInitialCopy startLsn)) h) := by
  have hsame : SameQueue h (h.tryCreateSnapshot true false) := SameQueue_tryCreateSnapshot _ _
  intro h' hh'
  obtain ⟨state, hstate, hblocked⟩ := bind_eq_ok.mp hh'
  obtain ⟨_, hassert, hstate⟩ := bind_eq_ok.mp hstate
  rw [pure_eq_ok_iff] at hstate
  subst hstate
  have hcopying : h.state.specialTableState = .initialCopy := by
    rw [← hsame.special]
    exact beq_iff_eq.mp (assert_eq_ok_iff.mp hassert)
  have hevents : ∀ e ∈ (h.tryCreateSnapshot true false).state.initialCopyBufferedEvents, e.isRecovery = .ok false := by
    rw [hsame.buffered]
    exact hrecovery
  obtain ⟨hnormal, hpersistence, hpush⟩ := processCdcTableEvents_pushes ⟨rfl, rfl⟩ hevents h' hblocked
  refine ⟨fun _ => hnormal.2, fun hcopy => ?_, .inl hcopying, _, by rw [← hsame.wal]; exact hpush, ?_⟩
  · rw [hnormal.1] at hcopy
    cases hcopy
  · rw [if_neg (by simp [hnormal.1]), kept_congr hpersistence, ← hsame.buffered]
    exact (List.append_nil _).symm ▸ rfl

/-- One round of the event loop. -/
theorem next_logs (hsettled : h.state.Settled)
    (hbuffered : ∀ e ∈ h.state.initialCopyBufferedEvents, e.isRecovery = .ok false) (i : HandlerInput Row)
    (hchanges : ∀ e ∈ i.changes, e.isRecovery = .ok false) : Ensures (h.next b i) (Logs b i h) := by
  cases i with
  | event e =>
    simp only [next, handleEvent]
    split
    · rename_i hingest
      have hevent : (HandlerInput.event e).changes = [e] := if_pos hingest
      cases hspecial : h.state.specialTableState with
      | initialCopy =>
        -- during the initial copy the event is buffered
        unfold processCdcTableEvent
        rw [if_pos (by simp [TableHandlerState.isInBlockingState, hspecial])]
        refine Ensures.ok ⟨fun hnormal => ?_, fun _ => .inl hspecial, .inl hspecial, [], rfl, ?_⟩
        · cases hspecial.symm.trans hnormal
        · rw [if_pos hspecial, hevent]
          exact ⟨rfl, rfl⟩
      | normal =>
        have hnormal : h.state.NotCopying := ⟨hspecial, hsettled hspecial⟩
        refine (processCdcTableEvent_pushes hnormal (hchanges e (by rw [hevent]; exact List.mem_cons_self))).mono ?_
        rintro h' ⟨hnormal', hpersistence, hpush⟩
        refine ⟨fun _ => hnormal'.2, fun hcopy => ?_, .inr hpersistence, _, hpush, ?_⟩
        · rw [hnormal'.1] at hcopy
          cases hcopy
        · rw [if_neg (by simp [hnormal'.1]), hevent, hnormal.2, kept_congr hpersistence]
          rfl
    · rename_i hingest
      have hevent : (HandlerInput.event e).changes = [] := if_neg hingest
      split
      · rename_i files lsn
        have hsame : SameQueue h { h with table := h.table.batchIngest files lsn } := ⟨rfl, rfl, rfl, rfl⟩
        exact Ensures.ok (hsame.logs hsettled hevent)
      · -- the copy begins with an empty buffer
        refine Ensures.bind (P := fun s => s = { h.state with specialTableState := .initialCopy })
          (Ensures.bind_any fun _ => Ensures.pure rfl) ?_
        rintro s rfl
        refine Ensures.pure ⟨fun hnormal => (by cases hnormal), fun _ => .inr rfl, .inr rfl, [], rfl, ?_⟩
        rw [if_pos rfl, hevent, List.append_nil]
        exact ⟨rfl, rfl⟩
      · exact finishInitialCopy_logs hbuffered
      · exact Ensures.ok (SameQueue.logs hsettled ⟨rfl, rfl, rfl, rfl⟩ hevent)
      · exact Ensures.error
  | flushResult lsn =>
    simp only [next]
    split
    · exact fun h' hh' => (SameQueue_onTable MooncakeTable.applyFlushResult_sameContents h' hh').logs hsettled rfl
    · exact Ensures.ok (SameQueue.logs hsettled ⟨rfl, rfl, rfl, rfl⟩ rfl)
  | streamFlushResult x =>
    simp only [next]
    split
    · exact fun h' hh' => (SameQueue_onTable MooncakeTable.applyStreamFlushResult_sameContents h' hh').logs hsettled rfl
    · exact Ensures.ok (SameQueue.logs hsettled ⟨rfl, rfl, rfl, rfl⟩ rfl)
  | periodicalMooncakeTableSnapshot otherWork =>
    exact Ensures.ok ((SameQueue_tryCreateSnapshot false otherWork).logs hsettled rfl)
  | mooncakeTableSnapshotResult =>
    simp only [next]
    split
    · exact Ensures.ok (SameQueue.logs hsettled ⟨rfl, rfl, rfl, rfl⟩ rfl)
    · exact Ensures.ok (SameQueue.logs hsettled ⟨rfl, rfl, rfl, rfl⟩ rfl)

end TableHandler
end Moonlink
