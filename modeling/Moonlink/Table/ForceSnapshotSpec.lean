-- SUMMARY: Every answered force snapshot request is persisted, if commits arrive once and in order; requests that are answered too early.
import Moonlink.Table.PendingRows

namespace Moonlink

open Lib

/-! ## Payloads -/

/-- The payload holds every applied commit at or below its flush LSN, also of those to come. -/
structure PersistencePayload.Complete (q : PersistencePayload) (loaded : Nat)
    (received applied : List Nat) : Prop where
  reached : q.flushLsn ≤ loaded ∨ q.flushLsn ∈ received
  holds : ∀ a ∈ applied, a ≤ q.flushLsn → a ∈ q.commits

theorem PersistencePayload.Complete.receive {q : PersistencePayload} {loaded lsn : Nat}
    {received applied : List Nat} (h : q.Complete loaded received applied) {discarded : Bool}
    (hlt : ∀ c ∈ received, c < lsn) (hloaded : discarded = false → loaded < lsn) :
    q.Complete loaded (received ++ [lsn]) (applied ++ if discarded then [] else [lsn]) where
  reached := h.reached.imp_right (List.mem_append_left _)
  holds a ha hle := by
    rcases List.mem_append.mp ha with ha | ha
    · exact h.holds a ha hle
    · split at ha
      · cases ha
      · rename_i hkept
        rw [List.mem_singleton] at ha
        subst ha
        rcases h.reached with hreached | hreached
        · exact absurd (hloaded (by simpa using hkept)) (Nat.not_lt.mpr (hle.trans hreached))
        · exact absurd (hlt _ hreached) (Nat.not_lt.mpr hle)

namespace PersistingHandler

variable {Row : Type} {b : Build} {p p' : PersistingHandler Row}

structure PersistInv (p : PersistingHandler Row) : Prop where
  normal : p.handler.state.specialTableState = .normal
  rows : RowsInv p.received (p.loaded.getD 0) p.handler.table p.handler.state.lastUnflushedCommitLsn
    p.handler.state.tableConsistentViewLsn p.rows
  applied : ∀ a ∈ p.applied, p.loaded.getD 0 < a
  received : ∀ c ∈ p.received, p.loaded.any (c ≤ ·) = true ∨ c ∈ p.applied
  created : ∀ q ∈ p.created, q.Complete (p.loaded.getD 0) p.received p.applied
  queued : ∀ q ∈ p.queued, q.Complete (p.loaded.getD 0) p.received p.applied
  persisting : ∀ q ∈ p.persisting, q.Complete (p.loaded.getD 0) p.received p.applied
  persisted : ∀ f ∈ p.lastPersistenceSnapshotLsn,
    PersistencePayload.Complete ⟨f, p.persisted⟩ (p.loaded.getD 0) p.received p.applied
  loaded : p.loaded.getD 0 ≤ p.lastPersistenceSnapshotLsn.getD 0
  requested : ∀ lsn ∈ p.handler.state.largestForceSnapshotLsn, p.loaded.getD 0 < lsn

/-- Commits arrive in order, each once, and are discarded exactly if the loaded snapshot has them.
Nothing follows the end of a streaming transaction. -/
def PermittedEvent (p : PersistingHandler Row) (e : TableEvent Row) : Prop :=
  p.handler.table.StreamOpen e ∧
    ∀ c ∈ commitOf p.handler e, (∀ lsn ∈ p.received, lsn < c.1) ∧
      if c.2 then p.loaded.any (c.1 ≤ ·) = true else p.loaded.getD 0 < c.1

/-- A request comes with nothing persisted and no consistent view only if no commit arrived. -/
def Permitted (p : PersistingHandler Row) : PersistingInput Row → Prop
  | .cdc e => p.PermittedEvent e
  | .forceSnapshot _ _ => p.lastPersistenceSnapshotLsn = none →
      p.handler.state.tableConsistentViewLsn = none → p.received = []
  | _ => True

instance {i : PersistingInput Row} : Decidable (p.Permitted i) := by
  cases i <;> unfold Permitted
  case cdc e =>
    unfold PermittedEvent MooncakeTable.StreamOpen
    infer_instance
  all_goals infer_instance

namespace PersistInv

theorem cdc (h : p.PersistInv) {e : TableEvent Row} (he : p.PermittedEvent e) :
    Ensures (p.processCdcTableEvent b e) PersistInv := by
  refine Ensures.bind (P := fun _ => e.isIngestEvent = true)
    (fun _ hassert => assert_eq_ok_iff.mp hassert) fun _ hingest => ?_
  obtain ⟨hopen, hcommit⟩ := he
  have hnext : TableHandler.NextCommit p.received (p.loaded.getD 0) p.handler e := by
    intro lsn discarded hc
    obtain ⟨hlt, hloaded⟩ := hcommit _ hc
    refine ⟨hlt, ?_⟩
    rintro rfl
    exact hloaded
  refine Ensures.bind (TableHandler.processCdcTableEvent_rows h.rows h.normal hingest hopen hnext) ?_
  rintro handler ⟨hrows, hsame⟩
  refine Ensures.pure ?_
  have hnormal : handler.state.specialTableState = .normal := hsame.normal.trans h.normal
  have hrequested : ∀ lsn ∈ handler.state.largestForceSnapshotLsn, p.loaded.getD 0 < lsn := by
    rw [hsame.requests]
    exact h.requested
  cases hc : commitOf p.handler e with
  | none =>
    rw [hc] at hrows
    simp only [Option.map_none, Option.toList_none, List.append_nil, Option.filter_none] at hrows ⊢
    exact { h with normal := hnormal, rows := hrows, requested := hrequested }
  | some c =>
    obtain ⟨lsn, discarded⟩ := c
    obtain ⟨hlt, hloaded⟩ := hcommit _ hc
    have hkept := (hnext lsn discarded hc).2
    rw [hc] at hrows
    have hfilter : (((some (lsn, discarded)).filter (!·.2)).map Prod.fst).toList =
        if discarded then [] else [lsn] := by
      cases discarded <;> rfl
    simp only [Option.map_some, Option.toList_some, hfilter] at hrows ⊢
    exact {
      normal := hnormal
      rows := hrows
      applied := by
        refine List.forall_mem_append.mpr ⟨h.applied, fun a ha => ?_⟩
        split at ha
        · cases ha
        · rename_i hdiscarded
          rw [List.mem_singleton.mp ha]
          exact hkept (by simpa using hdiscarded)
      received := by
        refine List.forall_mem_append.mpr
          ⟨fun c hc => (h.received c hc).imp_right (List.mem_append_left _), ?_⟩
        simp only [List.mem_singleton, forall_eq]
        cases discarded with
        | true => exact .inl hloaded
        | false => exact .inr (by simp)
      created := fun q hq => (h.created q hq).receive hlt hkept
      queued := fun q hq => (h.queued q hq).receive hlt hkept
      persisting := fun q hq => (h.persisting q hq).receive hlt hkept
      persisted := fun f hf => (h.persisted f hf).receive hlt hkept
      loaded := h.loaded
      requested := hrequested }

theorem flushResult (h : p.PersistInv) (lsn : Nat) : Ensures (p.flushResult b lsn) PersistInv := by
  simp only [PersistingHandler.flushResult, TableHandler.next]
  split
  · rename_i hmem
    have hflush : Ensures (p.handler.table.applyFlushResult lsn >>= fun table =>
        pure (⟨table, p.handler.state⟩ : TableHandler Row)) fun handler =>
          { p.handler.table with
            flushingDiskSlices := p.handler.table.flushingDiskSlices.erase lsn }.Quiet handler.table ∧
              handler.state = p.handler.state :=
      Ensures.bind (MooncakeTable.applyFlushResult_ensures h.rows.flushInv hmem)
        fun table hquiet => Ensures.pure ⟨hquiet, rfl⟩
    refine Ensures.bind hflush ?_
    rintro ⟨table, state⟩ ⟨hquiet, hstate⟩
    cases hstate
    exact Ensures.pure { h with rows := h.rows.flushResult hquiet }
  · rename_i hmem
    refine Ensures.pure ?_
    have hsame : p.rows.diskSlices.eraseP (·.1 = lsn) = p.rows.diskSlices := by
      refine List.eraseP_of_forall_not fun s hs heq => hmem ?_
      rw [← h.rows.slices, ← of_decide_eq_true heq]
      exact List.mem_map_of_mem hs
    rw [hsame]
    exact { h with }

theorem streamFlushResult (h : p.PersistInv) (x : XactId) :
    Ensures (p.streamFlushResult b x) PersistInv := by
  simp only [PersistingHandler.streamFlushResult, TableHandler.next]
  split
  · rename_i hany
    obtain ⟨st, hlook, hcount⟩ := (Option.any_eq_true _ _).mp hany
    have hflush : Ensures (p.handler.table.applyStreamFlushResult x >>= fun table =>
        pure (⟨table, p.handler.state⟩ : TableHandler Row)) fun handler =>
          p.handler.table.Quiet handler.table ∧ handler.state = p.handler.state :=
      Ensures.bind (MooncakeTable.applyStreamFlushResult_quiet h.rows.flushInv hlook (by simpa using hcount))
        fun table hquiet => Ensures.pure ⟨hquiet, rfl⟩
    refine Ensures.bind hflush ?_
    rintro ⟨table, state⟩ ⟨hquiet, hstate⟩
    cases hstate
    exact Ensures.pure { h with rows := h.rows.quiet hquiet }
  · exact Ensures.pure { h with }

/-! ### Snapshots -/

theorem forceFlush (h : p.PersistInv) : Ensures p.forceFlush PersistInv := by
  unfold PersistingHandler.forceFlush
  split
  · exact Ensures.ok h
  · rename_i v hv
    split
    · rename_i hforce
      obtain ⟨lsn, hlsn, hbounds⟩ := (Option.any_eq_true _ _).mp hforce
      simp only [Bool.and_eq_true, decide_eq_true_eq] at hbounds
      obtain ⟨hle, hlast⟩ := hbounds
      obtain ⟨hall, hview⟩ := h.rows.view v hv
      -- A request is above the loaded LSN, so the view is a commit that arrived.
      obtain ⟨hmem, hflushes⟩ := hview.resolve_left
        (Nat.not_le.mpr (Nat.lt_of_lt_of_le (h.requested lsn hlsn) hle))
      have hbelow := h.rows.flushed.mono hall
      have hlt : p.handler.table.memRows = 0 ∨ p.handler.table.FlushLsns (· < v) := by
        rcases hflushes with hzero | hsome | hlt
        · exact .inl hzero
        · simp only [MooncakeTable.getLastFlushLsn, hsome, Option.getD_some] at hlast
          exact absurd (Nat.lt_of_lt_of_le hlast hle) (Nat.lt_irrefl _)
        · exact .inr hlt
      refine Ensures.bind (MooncakeTable.flush_ensures h.rows.flushInv hbelow hlt) ?_
      intro table hflushed
      exact Ensures.pure { h with rows := h.rows.flush hmem hbelow hflushed }
    · exact Ensures.ok h

/-- A payload is offered when no flush at or below its flush LSN is ongoing. -/
theorem offerPayload (h : p.PersistInv) {hasPayload : Bool} :
    ∀ q ∈ p.offerPayload hasPayload, q.Complete (p.loaded.getD 0) p.received p.applied := by
  unfold PersistingHandler.offerPayload
  simp only
  split
  · rename_i hoffer
    rintro q ⟨⟩
    simp only [Bool.and_eq_true, MooncakeTable.getMinOngoingFlushLsn_all] at hoffer
    obtain ⟨-, hongoing⟩ := hoffer
    refine ⟨h.rows.taken, fun a ha hle => List.mem_filter.mpr ⟨ha, ?_⟩⟩
    have hflushed : a ∉ p.pendingCommits := by
      intro hpending
      rcases List.mem_append.mp hpending with hmain | hstream
      · simp only [MainRows.pending, List.mem_filterMap, List.mem_append, List.mem_flatMap, id] at hmain
        obtain ⟨o, hmem | ⟨s, hs, hmem⟩, rfl⟩ := hmain
        · exact absurd (h.rows.mem a hmem).2.2 (Nat.not_lt.mpr hle)
        · exact absurd (h.rows.disk s hs a hmem).2 (Nat.not_lt.mpr hle)
      · have hmem := h.rows.flushInv.tracked.mem_iff.mpr (List.mem_append_right _ hstream)
        exact absurd (hongoing a hmem) (Nat.not_lt.mpr hle)
    simp [hle, hflushed]
  · exact nofun

theorem tryCreateSnapshot (h : p.PersistInv) (forceCreate otherWork hasPayload : Bool) :
    (p.tryCreateSnapshot forceCreate otherWork hasPayload).PersistInv := by
  unfold PersistingHandler.tryCreateSnapshot
  simp only
  split
  · have hhandler : { p with handler := p.handler.tryCreateSnapshot forceCreate otherWork }.PersistInv := by
      unfold TableHandler.tryCreateSnapshot
      split
      · exact h
      · split
        · rename_i table htable
          unfold MooncakeTable.tryCreateMooncakeSnapshot at htable
          split at htable
          · cases htable
          · cases htable
            exact { h with
              rows := h.rows.snapshot (MooncakeTable.createSnapshotImpl_taken h.rows.flushInv forceCreate) }
        · exact h
    exact { hhandler with created := hhandler.offerPayload }
  · exact h

theorem periodicalMooncakeTableSnapshot (h : p.PersistInv) (otherWork hasPayload : Bool) :
    Ensures (p.periodicalMooncakeTableSnapshot otherWork hasPayload) PersistInv := by
  unfold PersistingHandler.periodicalMooncakeTableSnapshot
  split
  · exact Ensures.ok h
  · have hcreate (p₁ : PersistingHandler Row) (h₁ : p₁.PersistInv) (forces : Bool) :
        Ensures (p₁.resetIcebergStateAtMooncakeSnapshot >>= fun p₂ =>
          pure (p₂.tryCreateSnapshot forces otherWork hasPayload)) PersistInv := by
      have hreset : Ensures p₁.resetIcebergStateAtMooncakeSnapshot PersistInv := by
        refine Ensures.bind_any fun _ => ?_
        split
        · exact Ensures.pure h₁
        · exact Ensures.pure { h₁ with }
      exact Ensures.bind hreset fun p₂ h₂ => Ensures.pure (h₂.tryCreateSnapshot _ _ _)
    simp only
    split
    · exact Ensures.bind h.forceFlush fun p₁ h₁ => hcreate p₁ h₁ _
    · exact Ensures.bind (Ensures.ok h) fun p₁ h₁ => hcreate p₁ h₁ _

theorem mooncakeTableSnapshotResult (h : p.PersistInv) :
    Ensures (p.mooncakeTableSnapshotResult b) PersistInv := by
  unfold PersistingHandler.mooncakeTableSnapshotResult
  split
  · exact Ensures.ok h
  · rename_i hpanicked
    simp only [TableHandler.next, hpanicked, Bool.false_eq_true, if_false, ok_bind]
    refine Ensures.pure { h with
      created := fun q hq => by cases hq
      queued := ?_ }
    split
    · refine List.forall_mem_append.mpr ⟨h.queued, fun q hq => h.created q ?_⟩
      exact Option.mem_toList.mp hq
    · exact h.queued

/-! ### Persistence -/

theorem regularIcebergSnapshot (h : p.PersistInv) : Ensures p.regularIcebergSnapshot PersistInv := by
  unfold PersistingHandler.regularIcebergSnapshot
  split
  · exact Ensures.ok h
  · rename_i payload rest hqueued
    have hall := h.queued
    rw [hqueued, List.forall_mem_cons] at hall
    refine Ensures.bind_any fun _ => Ensures.pure { h with
      queued := hall.2
      persisting := ?_ }
    rintro q ⟨⟩
    exact hall.1

theorem new_inv (memSliceSize : Nat) (appendOnly : Bool) (persistenceSnapshotLsn : Option Nat)
    (wal : WalManager Row) : (new memSliceSize appendOnly persistenceSnapshotLsn wal).PersistInv where
  normal := rfl
  rows := {
    flushInv := ⟨nofun, List.Perm.refl []⟩
    flushed := ⟨nofun, nofun, by rintro l ⟨⟩, by rintro l ⟨⟩⟩
    taken := .inl (Nat.le_refl _)
    memRows := rfl
    slices := rfl
    mem := by rintro c ⟨⟩
    disk := by rintro s ⟨⟩
    unflushed := nofun
    view := by
      intro v hv
      have hv : persistenceSnapshotLsn = some v := hv
      refine ⟨by rintro c ⟨⟩, .inl ?_⟩
      simp [new, hv] }
  applied := by rintro a ⟨⟩
  received := by rintro c ⟨⟩
  created := by rintro q ⟨⟩
  queued := by rintro q ⟨⟩
  persisting := by rintro q ⟨⟩
  persisted := by
    intro f hf
    have hf : persistenceSnapshotLsn = some f := hf
    refine ⟨.inl ?_, by rintro a ⟨⟩⟩
    simp [new, hf]
  loaded := Nat.le_refl _
  requested := by rintro lsn ⟨⟩

/-! ### Answers -/

theorem persists_of_le (h : p.PersistInv) {f c : Nat} (hf : f = p.lastPersistenceSnapshotLsn.getD 0)
    (hc : c ∈ p.received) (hle : c ≤ f) : p.Persists c := by
  subst hf
  refine (h.received c hc).imp_right fun happlied => ?_
  cases hlast : p.lastPersistenceSnapshotLsn with
  | none =>
    have hpos := h.applied c happlied
    rw [hlast] at hle
    exact absurd hpos (Nat.not_lt.mpr (hle.trans (Nat.zero_le _)))
  | some f =>
    rw [hlast] at hle
    exact (h.persisted f hlast).holds c happlied hle

theorem loaded_le (h : p.PersistInv) (replicationLsn : Nat) : p.loaded.getD 0 ≤
    p.handler.state.getPersistedTableLsn p.lastPersistenceSnapshotLsn replicationLsn := by
  refine h.loaded.trans ?_
  unfold TableHandlerState.getPersistedTableLsn
  split
  · rename_i hcase
    simp only [Bool.and_eq_true, Option.isNone_iff_eq_none] at hcase
    rw [hcase.1]
    exact Nat.zero_le _
  · split
    · exact Nat.le_max_right _ _
    · exact Nat.le_refl _

/-- Everything up to the LSN that the handler reports is persisted. -/
theorem persists (h : p.PersistInv) {replicationLsn c : Nat}
    (hnone : p.lastPersistenceSnapshotLsn = none → p.handler.state.tableConsistentViewLsn = none →
      p.received = [])
    (hc : c ∈ p.received)
    (hle : c ≤ p.handler.state.getPersistedTableLsn p.lastPersistenceSnapshotLsn replicationLsn) :
    p.Persists c := by
  unfold TableHandlerState.getPersistedTableLsn at hle
  split at hle
  · rename_i hcase
    simp only [Bool.and_eq_true, Option.isNone_iff_eq_none] at hcase
    rw [hnone hcase.1 hcase.2] at hc
    cases hc
  · rename_i hcase
    split at hle
    · rename_i hview
      cases hlast : p.lastPersistenceSnapshotLsn with
      | none => simp [hlast, ← hview] at hcase
      | some f =>
        refine h.persists_of_le (f := f) (by rw [hlast]; rfl) hc ?_
        exact (h.rows.view f (hview.symm.trans hlast)).1 c hc
    · exact h.persists_of_le rfl hc hle

end PersistInv

/-- The request is answered at an LSN that is not below it, and every commit up to it is persisted. -/
def Keeps (p : PersistingHandler Row) (a : ForceSnapshotAnswer) : Prop :=
  a.requested ≤ a.lsn ∧ ∀ c ∈ p.received, c ≤ a.requested → p.Persists c

instance {a : ForceSnapshotAnswer} : Decidable (p.Keeps a) :=
  inferInstanceAs (Decidable (_ ∧ _))

theorem notifyPersistedTableLsn_keeps {lsn : Nat} (hall : ∀ c ∈ p.received, c ≤ lsn → p.Persists c) :
    ∀ a ∈ (p.notifyPersistedTableLsn lsn).2, (p.notifyPersistedTableLsn lsn).1.Keeps a := by
  intro a ha
  obtain ⟨requested, hmem, rfl⟩ := List.mem_map.mp ha
  have hle : requested ≤ lsn := by simpa using (List.mem_filter.mp hmem).2
  exact ⟨hle, fun c hc hcle => hall c hc (hcle.trans hle)⟩

namespace PersistInv

theorem forceSnapshot (h : p.PersistInv) {lsn : Option Nat} {replicationLsn : Nat}
    (hi : p.Permitted (.forceSnapshot lsn replicationLsn)) :
    (p.forceSnapshot lsn replicationLsn).1.PersistInv ∧
      ∀ a ∈ (p.forceSnapshot lsn replicationLsn).2, (p.forceSnapshot lsn replicationLsn).1.Keeps a := by
  unfold PersistingHandler.forceSnapshot
  split
  · refine ⟨{ h with }, notifyPersistedTableLsn_keeps fun c hc hle => ?_⟩
    exact h.persists_of_le rfl hc (hle.trans (Nat.zero_le _))
  · rename_i requestedLsn _
    have hwait : { p with waiting := p.waiting ++ [requestedLsn] }.PersistInv := { h with }
    simp only
    split
    · exact ⟨{ hwait with }, notifyPersistedTableLsn_keeps fun c hc hle => hwait.persists hi hc hle⟩
    · rename_i hlt
      refine ⟨{ hwait with requested := ?_ }, by rintro a ⟨⟩⟩
      rintro lsn ⟨⟩
      have hloaded := Nat.lt_of_le_of_lt (hwait.loaded_le replicationLsn) (Nat.not_le.mp hlt)
      cases hlargest : p.handler.state.largestForceSnapshotLsn with
      | none => exact hloaded
      | some largest => exact Nat.lt_of_lt_of_le (h.requested largest hlargest) (Nat.le_max_left _ _)

theorem persistenceSnapshotResult (h : p.PersistInv) (succeeds : Bool) (replicationLsn : Nat) :
    Ensures (p.persistenceSnapshotResult succeeds replicationLsn) fun out =>
      out.1.PersistInv ∧ ∀ a ∈ out.2, out.1.Keeps a := by
  unfold PersistingHandler.persistenceSnapshotResult
  split
  · exact Ensures.ok ⟨h, by rintro a ⟨⟩⟩
  · rename_i payload hpayload
    simp only
    split
    · refine Ensures.bind (P := fun _ => p.lastPersistenceSnapshotLsn.all (· ≤ payload.flushLsn) = true)
        (fun _ hassert => assert_eq_ok_iff.mp hassert) fun _ hall => Ensures.pure ?_
      have hpersisted : { p with
          persistenceSnapshotOngoing := false
          persisting := none
          lastPersistenceSnapshotLsn := some payload.flushLsn
          persisted := payload.commits
          icebergTableManager := true
          persistenceSnapshotResultConsumed := false }.PersistInv := { h with
        persisting := by rintro q ⟨⟩
        persisted := by
          rintro f ⟨⟩
          exact h.persisting payload hpayload
        loaded := by
          refine h.loaded.trans ?_
          cases hlast : p.lastPersistenceSnapshotLsn with
          | none => exact Nat.zero_le _
          | some f => simpa [hlast] using hall }
      refine ⟨{ hpersisted with requested := fun lsn hlsn => ?_ },
        notifyPersistedTableLsn_keeps fun c hc hle => ?_⟩
      · exact h.requested lsn (Option.mem_filter_iff.mp hlsn).1
      · exact hpersisted.persists nofun hc hle
    · exact Ensures.ok ⟨{ h with
        persisting := by rintro q ⟨⟩
        requested := by rintro lsn ⟨⟩ }, by rintro a ⟨⟩⟩

/-! ### Runs -/

theorem next (h : p.PersistInv) {i : PersistingInput Row} (hi : p.Permitted i) :
    Ensures (p.next b i) fun out => out.1.PersistInv ∧ ∀ a ∈ out.2, out.1.Keeps a := by
  have hsilent {x : Except Panic (PersistingHandler Row)} (hx : Ensures x PersistInv) :
      Ensures (x >>= fun p' => pure (p', [])) fun out =>
        out.1.PersistInv ∧ ∀ a ∈ (out.2 : List ForceSnapshotAnswer), out.1.Keeps a :=
    Ensures.bind hx fun p' hp' => Ensures.pure ⟨hp', by rintro a ⟨⟩⟩
  cases i with
  | cdc e => exact hsilent (h.cdc hi)
  | flushResult lsn => exact hsilent (h.flushResult lsn)
  | streamFlushResult x => exact hsilent (h.streamFlushResult x)
  | forceSnapshot lsn replicationLsn => exact Ensures.ok (h.forceSnapshot hi)
  | periodicalMooncakeTableSnapshot otherWork hasPayload =>
    exact hsilent (h.periodicalMooncakeTableSnapshot otherWork hasPayload)
  | mooncakeTableSnapshotResult => exact hsilent h.mooncakeTableSnapshotResult
  | regularIcebergSnapshot => exact hsilent h.regularIcebergSnapshot
  | persistenceSnapshotResult succeeds replicationLsn =>
    exact h.persistenceSnapshotResult succeeds replicationLsn

end PersistInv

/-- The handler after one round of the event loop. -/
def step (b : Build) (p : PersistingHandler Row) (i : PersistingInput Row) :
    Except Panic (PersistingHandler Row) := do
  return (← p.next b i).1

theorem PersistInv.run (h : p.PersistInv) {inputs : List (PersistingInput Row)}
    (hpermitted : RunMeets (fun p i => (step b p i).toOption) Permitted p inputs)
    (hrun : p.run b inputs = .ok p') : p'.PersistInv :=
  RunMeets.invariant_ok
    (fun _ _ hp hi => Ensures.bind (hp.next hi) fun _ hout => Ensures.pure hout.1) hpermitted hrun h

/-- In a run whose inputs are permitted, an answered request gets an LSN that is not below it, and
the persisted snapshot has every commit up to it. -/
theorem answered_persisted {memSliceSize : Nat} {appendOnly : Bool} {persistenceSnapshotLsn : Option Nat}
    {wal : WalManager Row} {inputs : List (PersistingInput Row)} {i : PersistingInput Row}
    {answers : List ForceSnapshotAnswer}
    (hpermitted : RunMeets (fun p i => (step b p i).toOption) Permitted
      (new memSliceSize appendOnly persistenceSnapshotLsn wal) inputs)
    (hrun : (new memSliceSize appendOnly persistenceSnapshotLsn wal).run b inputs = .ok p)
    (hi : p.Permitted i) (hnext : p.next b i = .ok (p', answers)) : ∀ a ∈ answers, p'.Keeps a :=
  (((PersistInv.new_inv memSliceSize appendOnly persistenceSnapshotLsn wal).run hpermitted hrun).next hi _
    hnext).2

/-- A commit is received, and a request for it waits until a forced flush is persisted. -/
def requestedInputs : List (PersistingInput Nat) :=
  [.cdc (.append 1 none 9 false), .cdc (.commit 10 none false), .forceSnapshot (some 10) 10,
    .periodicalMooncakeTableSnapshot false false, .mooncakeTableSnapshotResult, .flushResult 10,
    .periodicalMooncakeTableSnapshot false true, .mooncakeTableSnapshotResult, .regularIcebergSnapshot]

theorem answered_persisted_requestedInputs :
    Returns ((new 10 false none WalManager.new).run .release requestedInputs) fun p =>
      Returns (p.next .release (.persistenceSnapshotResult true 10)) fun out =>
        out.2 = [⟨10, 10⟩] ∧ out.1.received = [10] ∧ out.1.Persists 10 := by
  have hpermitted : RunMeets (fun p i => (step .release p i).toOption) Permitted
      (new 10 false none WalManager.new) requestedInputs := by
    decide +kernel
  have hanswers : Returns ((new 10 false none WalManager.new).run .release requestedInputs) fun p =>
      Returns (p.next .release (.persistenceSnapshotResult true 10)) fun out =>
        out.2 = [⟨10, 10⟩] ∧ out.1.received = [10] := by
    decide +kernel
  obtain ⟨p, hrun, ⟨p', answers⟩, hnext, hout, hreceived⟩ := hanswers
  have hkeeps := answered_persisted (i := .persistenceSnapshotResult true 10) hpermitted hrun trivial hnext
    ⟨10, 10⟩ (by rw [show answers = [⟨10, 10⟩] from hout]; simp)
  refine ⟨p, hrun, (p', answers), hnext, hout, hreceived, hkeeps.2 10 ?_ (Nat.le_refl _)⟩
  rw [hreceived]
  simp

/-- Two commits are recovered, of which the first is persisted and sent again. -/
def resentInputs : List (PersistingInput Nat) :=
  [.cdc (.append 1 none 9 true), .cdc (.commit 10 none true), .forceSnapshot (some 10) 0,
    .periodicalMooncakeTableSnapshot false false, .mooncakeTableSnapshotResult, .flushResult 10,
    .periodicalMooncakeTableSnapshot false true, .mooncakeTableSnapshotResult, .regularIcebergSnapshot,
    .persistenceSnapshotResult true 0, .cdc (.append 2 none 19 true), .cdc (.commit 20 none true),
    .cdc (.append 1 none 9 false), .cdc (.commit 10 none false)]

/-- With nothing persisted, the first row of the next transaction hides the commits before it. After
a commit is sent again, the view is that of the persisted snapshot. In both cases the answer is the
replication LSN. -/
theorem commits_answered_unpersisted :
    Returns ((new 10 false none WalManager.new).run .release
        [.cdc (.append 1 none 9 false), .cdc (.commit 10 none false), .cdc (.append 2 none 11 false)])
      (fun p => Returns (p.next .release (.forceSnapshot (some 10) 10)) fun out =>
        out.2 = [⟨10, 10⟩] ∧ 10 ∈ out.1.received ∧ ¬ out.1.Persists 10) ∧
    Returns ((new 10 false none { WalManager.new with
        currFileNumber := 1, highestCompletionLsn := 20 }).run .release resentInputs)
      (fun p => Returns (p.next .release (.forceSnapshot (some 20) 20)) fun out =>
        out.2 = [⟨20, 20⟩] ∧ 20 ∈ out.1.received ∧ ¬ out.1.Persists 20) := by
  decide +kernel

end PersistingHandler

end Moonlink
