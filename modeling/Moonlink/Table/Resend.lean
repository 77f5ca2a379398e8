-- SUMMARY: After a restart, which change streams that the source sends again are applied exactly once.
import Moonlink.Table.HandlerSpec

/-!
# Re-sent transactions after a restart

A restarted handler discards what is at or below its persistent LSN. It decides on
the rows of a main transaction by the begin LSN and on the commit by the end LSN, so a
transaction that the persistent LSN splits loses its rows. A streaming transaction is
discarded at its commit, but its events are pushed to the WAL before that, which
panics if the WAL has completed a later transaction.
-/

namespace Moonlink

open Lib

namespace TableHandler

variable {Row : Type} {b : Build} {S : Setting} {src src' : Source} {v : TableView Row}
variable {h h' : TableHandler Row} {e : TableEvent Row} {q : Nat}

/-! ## Kept and received streams -/

/-- An applied transaction stays applied. -/
theorem mem_applied_keepAll {p : Option Nat} {a : AppliedXact Row} (events : List (TableEvent Row))
    (ha : a ∈ v.applied) : a ∈ (v.keepAll p events).applied := by
  induction events generalizing v with
  | nil => exact ha
  | cons e rest ih =>
    refine ih (v := v.keep p e) ?_
    have happly : ∀ (v : TableView Row) origin lsn ops, a ∈ v.applied →
        a ∈ (v.applyXact origin lsn ops).applied :=
      fun v origin lsn ops ha => List.mem_append_left _ ha
    cases e with
    | append row x lsn r =>
      cases x with
      | none =>
        simp only [TableView.keep]
        split <;> exact ha
      | some x => exact ha
    | delete row lsn x d r =>
      cases x with
      | none =>
        simp only [TableView.keep]
        split <;> exact ha
      | some x => exact ha
    | commit lsn x r =>
      cases x with
      | none =>
        simp only [TableView.keep]
        split
        · exact ha
        · exact happly _ _ _ _ ha
      | some x =>
        simp only [TableView.keep]
        split
        · exact ha
        · exact happly _ _ _ _ ha
    | _ => exact ha

theorem receive_openMain {p : Option Nat} (i : SourceItem Row) :
    (v.receive p i).openMain = v.openMain := by
  cases i with
  | main f l ops => simp only [TableView.receive]; split <;> rfl
  | streamRows x ops => rfl
  | streamCommit x l => simp only [TableView.receive]; split <;> rfl
  | streamAbort x => rfl

variable {appendOnly : Bool}

theorem keepAll_openMain {i : SourceItem Row}
    (hstep : Source.ItemStep appendOnly src i src') (hv : v.openMain = []) :
    (v.keepAll (some q) i.events).openMain = [] := by
  rw [TableView.keepAll_item hstep hv]
  cases i with
  | main f l ops =>
    simp only
    split
    · exact hv
    · rw [receive_openMain, hv]
  | streamRows x ops => exact (receive_openMain _).trans hv
  | streamCommit x l => exact (receive_openMain _).trans hv
  | streamAbort x => exact (receive_openMain _).trans hv

variable {items : List (SourceItem Row)}

/-- Without split transactions, the handler keeps what it should. -/
theorem keepAll_eq_receiveAll
    (hitems : Trace (Source.ItemStep appendOnly) src items src') (hv : v.openMain = [])
    (hsplit : ∀ i ∈ items, i.splitBy q = false) :
    v.keepAll (some q) (items.flatMap (·.events)) = v.receiveAll (some q) items := by
  induction hitems generalizing v with
  | nil => rfl
  | cons hstep htail ih =>
    rename_i i rest
    have hkeep : v.keepAll (some q) i.events = v.receive (some q) i := by
      rw [TableView.keepAll_item hstep hv]
      cases i with
      | main f l ops => simp [hsplit _ List.mem_cons_self]
      | streamRows x ops => rfl
      | streamCommit x l => rfl
      | streamAbort x => rfl
    rw [List.flatMap_cons, TableView.keepAll_append, hkeep]
    exact ih ((receive_openMain i).trans hv) fun j hj => hsplit j (List.mem_cons_of_mem _ hj)

/-- A split transaction is applied without rows. -/
theorem mem_applied_of_split {f l : Nat}
    {ops : List (RowOp Row)} (hitems : Trace (Source.ItemStep appendOnly) src items src')
    (hv : v.openMain = []) (hmem : .main f l ops ∈ items)
    (hsplit : (SourceItem.main f l ops).splitBy q = true) :
    (⟨.main, l, []⟩ : AppliedXact Row) ∈ (v.keepAll (some q) (items.flatMap (·.events))).applied := by
  induction hitems generalizing v with
  | nil => cases hmem
  | cons hstep htail ih =>
    rename_i i rest
    rw [List.flatMap_cons, TableView.keepAll_append]
    rcases List.mem_cons.mp hmem with rfl | hrest
    · refine mem_applied_keepAll _ ?_
      rw [TableView.keepAll_item hstep hv]
      simp only [hsplit, if_true]
      exact List.mem_append_right _ List.mem_cons_self
    · exact ih (keepAll_openMain hstep hv) hrest

/-- A main transaction should be applied with its rows. -/
theorem ops_ne_nil_of_received {p : Option Nat}
    (hitems : Trace (Source.ItemStep appendOnly) src items src')
    (hv : ∀ a ∈ v.applied, a.origin = .main → a.ops ≠ []) :
    ∀ a ∈ (v.receiveAll p items).applied, a.origin = .main → a.ops ≠ [] := by
  induction hitems generalizing v with
  | nil => exact hv
  | cons hstep htail ih =>
    refine ih ?_
    cases hstep with
    | main hops hemit hmain hle hlt =>
      simp only [TableView.receive]
      split
      · exact hv
      · refine List.forall_mem_append.mpr ⟨hv, ?_⟩
        simpa using hops
    | streamRows hops hemit hmain hnew => exact hv
    | streamCommit hmain hopen hlt =>
      simp only [TableView.receive]
      split
      · exact hv
      · exact List.forall_mem_append.mpr ⟨hv, by simp⟩
    | streamAbort hmain hopen => exact hv

theorem keepAll_applied_iff (hitems : Trace (Source.ItemStep appendOnly) src items src') :
    ((TableView.empty : TableView Row).keepAll (some q) (items.flatMap (·.events))).applied =
        (TableView.empty.receiveAll (some q) items).applied ↔
      ∀ i ∈ items, i.splitBy q = false := by
  constructor
  · intro heq i hi
    cases i with
    | main f l ops =>
      by_contra hsplit
      have hmem := mem_applied_of_split (v := TableView.empty) hitems rfl hi
        (Bool.not_eq_false _ ▸ hsplit)
      rw [heq] at hmem
      exact ops_ne_nil_of_received hitems (by simp [TableView.empty]) _ hmem rfl rfl
    | streamRows x ops => rfl
    | streamCommit x l => rfl
    | streamAbort x => rfl
  · intro hsplit
    rw [keepAll_eq_receiveAll hitems rfl hsplit]

/-! ## Which streams the handler takes -/

/-- Without loaded files only the commit LSNs of streaming transactions matter. -/
theorem Trace_allowed_iff (hloaded : S.loaded = 0) {events : List (TableEvent Row)} :
    Trace (Allowed S) src events src' ↔ Source.Steps S.appendOnly src events src' ∧
      ∀ lsn x r, .commit lsn (some x) r ∈ events → S.walLsn ≤ lsn := by
  constructor
  · intro h
    induction h with
    | nil => exact ⟨.nil, nofun⟩
    | cons hstep _ ih =>
      refine ⟨.cons hstep.1 ih.1, ?_⟩
      intro lsn x r hmem
      rcases List.mem_cons.mp hmem with heq | hrest
      · exact (hstep.2 lsn x r heq.symm).1
      · exact ih.2 lsn x r hrest
  · rintro ⟨h, hcommit⟩
    induction h with
    | nil => exact .nil
    | cons hstep _ ih =>
      refine .cons ⟨hstep, ?_⟩ (ih fun lsn x r hmem => hcommit lsn x r (List.mem_cons_of_mem _ hmem))
      rintro lsn x r rfl
      exact ⟨hcommit lsn x r List.mem_cons_self, fun l _ => .inl hloaded⟩

/-- The WAL does not accept the commit of a streaming transaction below what it has
completed, not even if the handler is about to discard it. -/
theorem processCdcTableEvent_regressed {x : XactId} {lsn : Nat} (hinv : Inv S src v h)
    (hpos : 0 < lsn) (hlt : lsn < S.walLsn) :
    h.processCdcTableEvent b (.commit lsn (some x) false) = .error .walCommitLsnRegressed := by
  have hge := hinv.table.wal.ge
  have hpush : h.table.wal.push b (.commit lsn (some x) false) = .error .walCommitLsnRegressed := by
    unfold WalManager.push WalManager.updateHighestCompletionLsn
    have hbelow : ¬ h.table.wal.highestCompletionLsn ≤ lsn := by omega
    have hne : lsn ≠ 0 := by omega
    simp [TableEvent.isRecovery, Moonlink.assert, WalEvent.new, WalManager.commitLsn?, hbelow, hne]
    rfl
  rw [processCdcTableEvent_of_keep hinv.normal rfl (shouldDiscardEvent_streaming rfl), hpush]
  rfl

/-- A run that returns has met no such commit. -/
theorem Allowed_of_run (hS : S.WellFormed) (hloaded : S.loaded = 0)
    {inputs : List (HandlerInput Row)} (hinv : Inv S src v h)
    (htrace : Source.Steps S.appendOnly src (HandlerInput.events inputs) src')
    (hrun : h.run b inputs = .ok h') : Trace (Allowed S) src (HandlerInput.events inputs) src' := by
  induction inputs generalizing h src v with
  | nil =>
    cases htrace
    exact .nil
  | cons i rest ih =>
    unfold TableHandler.run at hrun
    obtain ⟨h₁, hnext, hrest⟩ := bind_eq_ok.mp hrun
    cases hi : i.event? with
    | none =>
      have hevents : HandlerInput.events (i :: rest) = HandlerInput.events rest :=
        List.filterMap_cons_none hi
      rw [hevents] at htrace ⊢
      obtain ⟨h₂, hnext', hinv₂⟩ := hinv.background (b := b) hi
      rw [hnext] at hnext'
      cases hnext'
      exact ih hinv₂ htrace hrest
    | some e =>
      have hevents : HandlerInput.events (i :: rest) = e :: HandlerInput.events rest :=
        List.filterMap_cons_some hi
      rw [hevents] at htrace ⊢
      obtain rfl : i = .event e := by
        cases i <;> cases hi
        rfl
      cases htrace with
      | cons hstep htail =>
        have hcond : CommitCondition S src e := by
          rintro lsn x r rfl
          refine ⟨?_, fun l _ => .inl hloaded⟩
          by_contra hlt
          obtain ⟨rfl, hlast⟩ := hstep.streamCommit_inv
          have herror : h.next b (.event (.commit lsn (some x) false)) =
              .error .walCommitLsnRegressed :=
            processCdcTableEvent_regressed hinv (by omega) (by omega)
          rw [herror] at hnext
          cases hnext
        obtain ⟨h₂, hnext', hinv₂⟩ := hinv.event (b := b) hS ⟨hstep, hcond⟩
        rw [hnext] at hnext'
        cases hnext'
        exact .cons ⟨hstep, hcond⟩ (ih hinv₂ htail hrest)

/-! ## The restarted handler -/

/-- What is fixed after a restart. -/
def restartSetting (appendOnly : Bool) (s : WalStore Row) : Setting where
  appendOnly
  persistence := initialPersistenceLsn s.persistenceSnapshotLsn
    (WalStore.recoveredManager s.metadata : WalManager Row)
  loaded := 0
  walLsn := (WalStore.recoveredManager s.metadata : WalManager Row).highestCompletionLsn
  snapshots := False

/-- The persistent LSN is not below what the WAL has completed. -/
theorem restartSetting_wellFormed {env : WalStore.Environment Row} {s : WalStore Row}
    (hs : (WalStore.system b env).Reachable s) (appendOnly : Bool) :
    (restartSetting appendOnly s).WellFormed where
  loaded := Nat.zero_le _
  walLsn := by
    by_cases hpos : 0 < (WalStore.recoveredManager s.metadata : WalManager Row).currFileNumber
    · obtain ⟨p, hp, hle⟩ := le_initialPersistenceLsn s.persistenceSnapshotLsn hpos
      have hp' : (restartSetting appendOnly s).persistence = some p := hp
      rw [hp']
      exact hle
    · have hzero : ¬ 0 < (restartSetting appendOnly s).walLsn :=
        mt (WalStore.recoveredManager_currFileNumber_pos hs) hpos
      omega
  snapshots := fun h => h.elim

theorem Inv_restart {s : WalStore Row} (hs : (WalStore.system b WalStore.ingestEvents).Reachable s)
    (m : Nat) (appendOnly : Bool) :
    Inv (restartSetting appendOnly s) Source.init TableView.empty (restart m appendOnly s) where
  normal := ⟨rfl, rfl⟩
  persistence := rfl
  unflushed := .inl rfl
  table := TableInv_new m _ rfl (WalStore.MainShape_recoveredManager hs) rfl fun h => h.elim

/-- The re-sent change stream is applied exactly once: each transaction above the
persistent LSN as a whole, in order, and no other. -/
def ResentOnce (b : Build) (h : TableHandler Row) (items : List (SourceItem Row))
    (inputs : List (HandlerInput Row)) : Prop :=
  ∃ h', h.run b inputs = .ok h' ∧
    h'.table.applied = (TableView.empty.receiveAll h.state.initialPersistenceLsn items).applied

/-- The persistent LSN splits no main transaction, and the WAL had completed nothing above
the commit of a streaming transaction. -/
structure ResendSafe (s : WalStore Row) (p : Nat) (items : List (SourceItem Row)) : Prop where
  noSplit : ∀ i ∈ items, i.splitBy p = false
  streamCommits : ∀ x lsn, .streamCommit x lsn ∈ items →
    (WalStore.recoveredManager s.metadata : WalManager Row).highestCompletionLsn ≤ lsn

/-- For each run of a WAL, each change stream after a restart from it, and each placement
of background results in it. -/
theorem resent_once_iff {s : WalStore Row}
    (hs : (WalStore.system b WalStore.ingestEvents).Reachable s) (m : Nat) (appendOnly : Bool)
    {p : Nat} (hp : (restart m appendOnly s).state.initialPersistenceLsn = some p)
    {items : List (SourceItem Row)} (hitems : Trace (Source.ItemStep appendOnly) .init items src)
    {inputs : List (HandlerInput Row)}
    (hinputs : HandlerInput.events inputs = items.flatMap (·.events)) :
    ResentOnce b (restart m appendOnly s) items inputs ↔ ResendSafe s p items := by
  have hS := restartSetting_wellFormed hs appendOnly
  have hinv := Inv_restart hs m appendOnly
  have hpersistence : (restartSetting appendOnly s).persistence = some p := hp
  have hsteps := Source.Steps_of_items hitems
  rw [← hinputs] at hsteps
  have hkeep := keepAll_applied_iff (q := p) hitems
  constructor
  · rintro ⟨h', hrun, happlied⟩
    have htrace := Allowed_of_run hS rfl hinv hsteps hrun
    obtain ⟨h'', hrun', hinv'⟩ := hinv.run (b := b) hS htrace
    rw [hrun] at hrun'
    cases hrun'
    rw [hinv'.table.contents.applied, hpersistence, hinputs, hp] at happlied
    refine ⟨hkeep.mp happlied, ?_⟩
    intro x lsn hmem
    refine ((Trace_allowed_iff rfl).mp htrace).2 lsn x false ?_
    rw [hinputs]
    exact List.mem_flatMap.mpr ⟨_, hmem, SourceItem.commit_mem_events.mpr ⟨rfl, rfl⟩⟩
  · rintro ⟨hsplit, hcommits⟩
    have htrace : Trace (Allowed (restartSetting appendOnly s)) Source.init
        (HandlerInput.events inputs) src := by
      refine (Trace_allowed_iff rfl).mpr ⟨hsteps, ?_⟩
      intro lsn x r hmem
      rw [hinputs] at hmem
      obtain ⟨i, hi, hcommit⟩ := List.mem_flatMap.mp hmem
      obtain ⟨-, rfl⟩ := SourceItem.commit_mem_events.mp hcommit
      exact hcommits x lsn hi
    obtain ⟨h', hrun, hinv'⟩ := hinv.run (b := b) hS htrace
    refine ⟨h', hrun, ?_⟩
    rw [hinv'.table.contents.applied, hpersistence, hinputs, hp]
    exact hkeep.mpr hsplit

/-- A main transaction that commits at 20, persisted in the WAL. -/
def persistedRun : List (WalAction Nat) :=
  [.push (.append 1 none 10 false), .push (.commit 20 none false), .prepare, .persistNewWalFile,
    .persistMetadata, .complete]

/-- The source sends that transaction again, and one more that begins at `finalLsn`. -/
def resentItems (finalLsn : Nat) : List (SourceItem Nat) :=
  [.main 10 20 [.append 1], .main finalLsn 30 [.append 2]]

theorem resentItems_steps {finalLsn : Nat} (hge : 20 ≤ finalLsn) (hlt : finalLsn < 30) :
    Trace (Source.ItemStep false) .init (resentItems finalLsn) ⟨30, none, some 30, [], []⟩ :=
  .cons (.main (List.cons_ne_nil _ _) (by decide) rfl (by decide) (by decide))
    (.cons (.main (List.cons_ne_nil _ _) (by decide) rfl hge hlt) .nil)

/-- A transaction that begins above the last commit is applied with its row. -/
theorem resent_once_iff_run :
    ∃ s : WalStore Nat, WalStore.run .debug WalStore.ingestEvents .init persistedRun = some s ∧
      (restart 100 false s).state.initialPersistenceLsn = some 20 ∧
      ResentOnce .debug (restart 100 false s) (resentItems 21)
        (((resentItems 21).flatMap (·.events)).map .event) := by
  have happly : ∀ s : WalStore Nat,
      WalStore.run .debug WalStore.ingestEvents .init persistedRun = some s →
      (restart 100 false s).state.initialPersistenceLsn = some 20 →
      ResentOnce .debug (restart 100 false s) (resentItems 21)
        (((resentItems 21).flatMap (·.events)).map .event) := by
    intro s hrun hp
    refine (resent_once_iff (WalStore.Reachable_of_run _ (.init rfl) hrun) 100 false hp
      (resentItems_steps (by decide) (by decide)) rfl).mpr ⟨by decide, ?_⟩
    intro x lsn hmem
    simp [resentItems] at hmem
  exact ⟨_, rfl, rfl, happly _ rfl rfl⟩

/-- A transaction that begins at the commit LSN of the one before it loses its row, since
the persistent LSN is that commit LSN; its commit is applied. -/
theorem boundary_row_discarded :
    ∃ s : WalStore Nat, WalStore.run .release WalStore.ingestEvents .init persistedRun = some s ∧
      (restart 100 false s).state.initialPersistenceLsn = some 20 ∧
      Trace (Source.ItemStep false) .init (resentItems 20) ⟨30, none, some 30, [], []⟩ ∧
      (∃ h', (restart 100 false s).run .release
          (((resentItems 20).flatMap (·.events)).map .event) = .ok h' ∧
        h'.table.applied = [⟨.main, 30, []⟩]) ∧
      ¬ ResentOnce .release (restart 100 false s) (resentItems 20)
        (((resentItems 20).flatMap (·.events)).map .event) := by
  refine ⟨_, rfl, rfl, resentItems_steps (by decide) (by decide), ⟨_, rfl, rfl⟩, ?_⟩
  rintro ⟨h', hrun, happlied⟩
  cases hrun
  revert happlied
  decide

end TableHandler
end Moonlink
