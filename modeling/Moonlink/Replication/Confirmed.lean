-- SUMMARY: The confirmed LSN over all tables, and when a crash loses nothing at or below it.
import Moonlink.Replication.FanOut
import Moonlink.Table.MainRecovery

/-!
# The confirmed LSN

The replication loop confirms the minimum over the registered tables of the WAL
watermark or, as long as that is zero, of the Iceberg watermark. Here each table is
a running handler together with its WAL store; tables are added and dropped, receive
change events and files of an initial copy, persist their WAL and are snapshotted, in
any order.

Rows that an initial copy loads never enter the WAL and are not copied again after a
crash. The WAL watermark passes them all the same. After the copy, changes at or below its
boundary are discarded, each by its own LSN, before they reach the WAL: a main transaction
that begins at or below the boundary and commits above it loses its rows.
-/

namespace Moonlink

open Lib

/-- The events that the task of the initial copy sends. -/
def TableEvent.isCopyEvent {Row : Type} : TableEvent Row → Bool
  | .startInitialCopy | .loadFiles .. | .finishInitialCopy .. => true
  | _ => false

/-- The steps of a background update of the WAL before its result arrives. -/
def WalAction.isBackground {Row : Type} : WalAction Row → Bool
  | .prepare | .persistNewWalFile | .persistMetadata | .deleteFile _ => true
  | _ => false

namespace WalStore

/-- The LSN that the result of the current update reports. -/
def completedLsn {Row : Type} (b : Build) (s : WalStore Row) : Option Nat :=
  match s.ongoing with
  | some o =>
    match s.manager.handleCompleteWalPersistenceUpdate b o.update with
    | .ok (_, lsn) => lsn
    | .error _ => none
  | none => none

end WalStore

/-- A running table: its handler and its WAL, the change stream that the source has sent, and
the watermarks that the replication loop reads. -/
structure ReplicatedTable (Row : Type) where
  appendOnly : Bool
  handler : TableHandler Row
  store : WalStore Row
  source : Source
  sent : List (TableEvent Row)
  flushLsn : Nat
  walFlushLsn : Nat

namespace ReplicatedTable

variable {Row : Type}

/-- A table that is registered for the first time. -/
def new (memSliceSize : Nat) (appendOnly : Bool) : ReplicatedTable Row where
  appendOnly
  handler := TableHandler.new memSliceSize appendOnly none WalManager.new
  store := WalStore.init
  source := Source.init
  sent := []
  flushLsn := 0
  walFlushLsn := 0

/-- The handler after an input; what it pushed is in the log. -/
def withHandler (t : ReplicatedTable Row) (h : TableHandler Row) : ReplicatedTable Row :=
  { t with handler := h, store := t.store.logPushes h.table.wal }

/-- The WAL store after an action; the handler has its manager. -/
def withStore (t : ReplicatedTable Row) (s : WalStore Row) : ReplicatedTable Row :=
  { t with
    handler := { t.handler with table := { t.handler.table with wal := s.manager } }
    store := s }

/-- What can happen to a table. -/
inductive Step (b : Build) (t : ReplicatedTable Row) : ReplicatedTable Row → Prop where
  /-- The next event of the change stream. -/
  | change {e : TableEvent Row} {src : Source} {h : TableHandler Row}
      (hsource : Source.Step t.appendOnly t.source e src)
      (hnext : t.handler.next b (.event e) = .ok h) :
      Step b t { t.withHandler h with source := src, sent := t.sent ++ [e] }
  /-- An event of the initial copy. It starts before the table is in the publication. -/
  | copy {e : TableEvent Row} {h : TableHandler Row} (hcopy : e.isCopyEvent = true)
      (hstart : e = .startInitialCopy → t.sent = []) (hnext : t.handler.next b (.event e) = .ok h) : Step b t (t.withHandler h)
  | background {i : HandlerInput Row} {h : TableHandler Row} (hi : i.event? = none)
      (hnext : t.handler.next b i = .ok h) : Step b t (t.withHandler h)
  | persistWal {a : WalAction Row} {s : WalStore Row} (ha : a.isBackground = true)
      (hnext : t.store.next b a = some s) : Step b t (t.withStore s)
  /-- The result of a WAL update arrives and is reported. -/
  | completeWal {s : WalStore Row} (hnext : t.store.next b .complete = some s) :
      Step b t { t.withStore s with walFlushLsn := (t.store.completedLsn b).getD t.walFlushLsn }
  /-- An Iceberg snapshot of a Mooncake snapshot becomes durable and is reported. -/
  | icebergSnapshot {lsn : Nat} {s : WalStore Row}
      (hsnapshot : t.handler.table.snapshotFlushLsn.any (lsn ≤ ·) = true)
      (hnext : t.store.next b (.icebergSnapshot lsn) = some s) :
      Step b t { t.withStore s with flushLsn := lsn }

/-- The change events that were processed and not discarded, and those that are buffered. -/
def changes (t : ReplicatedTable Row) : List (TableEvent Row) :=
  t.store.log.map (·.2.intoTableEvent) ++ t.handler.state.initialCopyBufferedEvents

/-- What the source has committed. -/
def committed (t : ReplicatedTable Row) : List (AppliedXact Row) :=
  (TableView.empty.keepAll none t.sent).applied

end ReplicatedTable

/-- No main transaction begins at or below `boundary` and commits above it: right before its
commit comes its last row, which has the LSN it begins at. -/
def TableEvent.Unsplit {Row : Type} (boundary : Nat) (events : List (TableEvent Row)) : Prop :=
  events.IsChain fun e e' => ∀ f l r, e.getLsnForIngestEvent = some f → e' = .commit l none r →
    ¬ (f ≤ boundary ∧ boundary < l)

namespace ReplicatedTable

variable {Row : Type}

/-- A change event as the source sends it. -/
def IsChange (appendOnly : Bool) (e : TableEvent Row) : Prop :=
  ∃ w : WalEvent Row, e = w.intoTableEvent ∧ w.isIngest = true ∧ w.isEmitted appendOnly = true ∧
    ∀ lsn, w.commitLsn? = some lsn → 0 < lsn

end ReplicatedTable

/-- The largest LSN that a change stream has reached. -/
def Source.top (s : Source) : Nat := s.openMain.getD s.lastEnd

theorem Source.Step.isChange {Row : Type} {appendOnly : Bool} {s s' : Source} {e : TableEvent Row}
    (h : Source.Step appendOnly s e s') : ReplicatedTable.IsChange appendOnly e := by
  have hrow : ∀ (op : RowOp Row) x lsn, op.isEmitted appendOnly = true →
      ReplicatedTable.IsChange appendOnly (op.event x lsn) := by
    intro op x lsn hop
    cases op with
    | append row => exact ⟨.append row x lsn, rfl, rfl, rfl, nofun⟩
    | delete row d => exact ⟨.delete row lsn x d, rfl, rfl, hop, nofun⟩
  cases h with
  | mainRow hop hmain => exact hrow _ _ _ hop
  | mainCommit hmain hlt =>
    refine ⟨.commit _ none, rfl, rfl, rfl, ?_⟩
    rintro lsn ⟨⟩
    omega
  | streamRow hop hmain hnew => exact hrow _ _ _ hop
  | streamCommit hmain hopen hlt =>
    refine ⟨.commit _ (some _), rfl, rfl, rfl, ?_⟩
    rintro lsn ⟨⟩
    omega
  | streamAbort hmain hopen => exact ⟨.streamAbort _, rfl, rfl, rfl, nofun⟩

/-- LSNs of a change stream do not decrease, and commits are above everything before. -/
theorem Source.Step.top_le {Row : Type} {appendOnly : Bool} {s s' : Source} {e : TableEvent Row}
    (h : Source.Step appendOnly s e s') :
    s.top ≤ s'.top ∧ (∀ n, e.getLsnForIngestEvent = some n → n ≤ s'.top) ∧
      ∀ l x r, e = .commit l x r → s.top < l := by
  cases h with
  | mainRow hop hmain =>
    rename_i op f
    have hle : s.top ≤ f := by
      unfold Source.top
      rcases hmain with hopen | ⟨hnone, hle⟩
      · rw [hopen]
        exact Nat.le_refl _
      · rw [hnone]
        exact hle
    refine ⟨hle, ?_, ?_⟩
    · intro n hn
      cases op <;> cases hn <;> exact Nat.le_refl _
    · intro l x r he
      cases op <;> cases he
  | mainCommit hmain hlt =>
    rename_i f endLsn
    have htop : s.top = f := by
      unfold Source.top
      rw [hmain, Option.getD_some]
    refine ⟨?_, ?_, ?_⟩
    · rw [htop]
      exact Nat.le_of_lt hlt
    · rintro n ⟨⟩
      exact Nat.le_refl _
    · rintro l x r ⟨⟩
      rw [htop]
      exact hlt
  | streamRow hop hmain hnew =>
    rename_i op x
    refine ⟨Nat.le_refl _, ?_, ?_⟩
    · intro n hn
      cases op <;> cases hn <;> exact Nat.zero_le _
    · intro l y r he
      cases op <;> cases he
  | streamCommit hmain hopen hlt =>
    have htop : s.top = s.lastEnd := by
      unfold Source.top
      rw [hmain, Option.getD_none]
    have htop' : ∀ {x lsn lastMain}, Source.top { s.endStream x with lastEnd := lsn, lastMain } = lsn := by
      intro x lsn lastMain
      simp [Source.top, Source.endStream, hmain]
    rw [htop, htop']
    refine ⟨Nat.le_of_lt hlt, ?_, ?_⟩
    · rintro n ⟨⟩
      exact Nat.le_refl _
    · rintro l x r ⟨⟩
      exact hlt
  | streamAbort hmain hopen =>
    exact ⟨Nat.le_refl _, fun n hn => (by cases hn), fun l x r he => (by cases he)⟩

/-- What leaves a main transaction open is a row of it, with the LSN at which it begins. -/
theorem Source.Step.openMain_lsn {Row : Type} {appendOnly : Bool} {s s' : Source} {e : TableEvent Row}
    (h : Source.Step appendOnly s e s') {f : Nat} (hopen : s'.openMain = some f) :
    e.getLsnForIngestEvent = some f := by
  cases h with
  | mainRow hop hmain =>
    rename_i op f
    cases hopen
    cases op <;> rfl
  | mainCommit hmain hlt => cases hopen
  | streamRow hop hmain hnew => exact absurd (hmain.symm.trans hopen) nofun
  | streamCommit hmain _ hlt => exact absurd (hmain.symm.trans hopen) nofun
  | streamAbort hmain _ => exact absurd (hmain.symm.trans hopen) nofun

section

variable {Row : Type} {appendOnly : Bool} {s s' : Source} {events : List (TableEvent Row)}

theorem Source.Steps.isChange (h : Source.Steps appendOnly s events s') :
    ∀ e ∈ events, ReplicatedTable.IsChange appendOnly e := by
  induction h with
  | nil => nofun
  | cons hstep _ ih => exact List.forall_mem_cons.mpr ⟨hstep.isChange, ih⟩

/-- Each commit is above what the change stream had reached. -/
theorem Source.Steps.top_lt (h : Source.Steps appendOnly s events s') :
    ∀ l x r, .commit l x r ∈ events → s.top < l := by
  induction h with
  | nil => nofun
  | cons hstep _ ih =>
    intro l x r hmem
    rcases List.mem_cons.mp hmem with heq | hrest
    · exact hstep.top_le.2.2 l x r heq.symm
    · exact Nat.lt_of_le_of_lt hstep.top_le.1 (ih l x r hrest)

theorem Source.Steps.ordered (h : Source.Steps appendOnly s events s') : TableEvent.Ordered events := by
  induction h with
  | nil => exact List.Pairwise.nil
  | cons hstep hrest ih =>
    refine List.Pairwise.cons ?_ ih
    rintro e' he' n l x r hn rfl
    exact Nat.lt_of_le_of_lt (hstep.top_le.2.1 n hn) (Source.Steps.top_lt hrest l x r he')

end

namespace ReplicatedTable

variable {Row : Type} {b : Build} {t t' : ReplicatedTable Row}

theorem IsChange.isRecovery {appendOnly : Bool} {e : TableEvent Row} (h : IsChange appendOnly e) :
    e.isRecovery = .ok false := by
  obtain ⟨w, rfl, -⟩ := h
  cases w <;> rfl

structure Inv (b : Build) (t : ReplicatedTable Row) : Prop where
  synced : t.handler.table.wal = t.store.manager
  reachable : (WalStore.system b WalStore.ingestEvents).Reachable t.store
  settled : t.handler.state.Settled
  steps : Source.Steps t.appendOnly .init t.sent t.source
  /-- During the initial copy all events are buffered; afterwards some are discarded. -/
  kept : if t.handler.state.specialTableState = .initialCopy then
      t.store.log = [] ∧ t.handler.state.initialCopyBufferedEvents = t.sent
    else t.store.log.map (·.2.intoTableEvent) = t.handler.kept t.sent
  walFlush : t.walFlushLsn ≤ t.store.durableHighestLsn
  flush : t.flushLsn = 0 ∨ t.store.persistenceSnapshotLsn = some t.flushLsn

theorem Inv_new (memSliceSize : Nat) (appendOnly : Bool) :
    Inv b (new memSliceSize appendOnly : ReplicatedTable Row) where
  synced := rfl
  reachable := .init rfl
  settled := fun _ => rfl
  steps := .nil
  kept := by rw [if_neg nofun]; rfl
  walFlush := Nat.zero_le _
  flush := .inl rfl

/-- Nothing is processed or buffered that the source has not sent. -/
theorem Inv.changes_sublist (hinv : Inv b t) : t.changes.Sublist t.sent := by
  have hkept := hinv.kept
  unfold ReplicatedTable.changes
  split at hkept
  case isTrue =>
    rw [hkept.1, hkept.2]
    exact List.Sublist.refl _
  case isFalse hnormal =>
    rw [hkept, hinv.settled (SpecialTableState.normal_of_ne hnormal), List.append_nil]
    exact List.filter_sublist

theorem Inv.changes (hinv : Inv b t) : ∀ e ∈ t.changes, IsChange t.appendOnly e :=
  fun e he => hinv.steps.isChange e (hinv.changes_sublist.subset he)

theorem Inv.ordered (hinv : Inv b t) : TableEvent.Ordered t.changes :=
  hinv.steps.ordered.sublist hinv.changes_sublist

theorem Inv.buffered_subset (hinv : Inv b t) : t.handler.state.initialCopyBufferedEvents ⊆ t.sent :=
  fun _ he => hinv.changes_sublist.subset (List.mem_append_right _ he)

/-- Change events come from WAL events. -/
theorem exists_walEvents {appendOnly : Bool} {es : List (TableEvent Row)}
    (h : ∀ e ∈ es, IsChange appendOnly e) :
    ∃ ws : List (WalEvent Row), es = ws.map (·.intoTableEvent) ∧
      ∀ w ∈ ws, w.isIngest = true ∧ ∀ lsn, w.commitLsn? = some lsn → 0 < lsn := by
  induction es with
  | nil => exact ⟨[], rfl, by simp⟩
  | cons e rest ih =>
    obtain ⟨ws, rfl, hws⟩ := ih fun e' he' => h e' (List.mem_cons_of_mem _ he')
    obtain ⟨w, rfl, hingest, -, hpos⟩ := h e List.mem_cons_self
    refine ⟨w :: ws, rfl, ?_⟩
    intro w' hw'
    rcases List.mem_cons.mp hw' with rfl | hw'
    · exact ⟨hingest, hpos⟩
    · exact hws w' hw'

/-- An input of the handler: its change event comes from the source. -/
theorem Inv.withHandler (hinv : Inv b t) {i : HandlerInput Row} {h : TableHandler Row} {src : Source}
    (hnext : t.handler.next b i = .ok h) (hsource : Source.Steps t.appendOnly t.source i.changes src)
    (hstart : i = .event .startInitialCopy → t.sent = []) :
    Inv b { t.withHandler h with source := src, sent := t.sent ++ i.changes } := by
  have hsteps : Source.Steps t.appendOnly .init (t.sent ++ i.changes) src := hinv.steps.append hsource
  have hall := hsteps.isChange
  obtain ⟨hsettled, hcopying, hpersistence, es, hpush, hes⟩ := TableHandler.next_logs hinv.settled
    (fun e he => (hall e (List.mem_append_left _ (hinv.buffered_subset he))).isRecovery) i
    (fun e he => (hall e (List.mem_append_right _ he)).isRecovery) h hnext
  have hpushed : ∀ e ∈ es, IsChange t.appendOnly e := by
    intro e he
    split at hes
    case isTrue =>
      rw [hes.1] at he
      cases he
    case isFalse =>
      rw [hes] at he
      rcases List.mem_append.mp (List.mem_filter.mp he).1 with hbuffered | hnew
      · exact hall e (List.mem_append_left _ (hinv.buffered_subset hbuffered))
      · exact hall e (List.mem_append_right _ hnew)
  obtain ⟨ws, rfl, hws⟩ := exists_walEvents hpushed
  rw [hinv.synced] at hpush
  obtain ⟨hreach, hlog⟩ := WalStore.Reachable_logPushes hinv.reachable hpush
    (fun w hw => (hws w hw).1) (fun w hw => (hws w hw).2)
  have hlog' : (t.store.logPushes h.table.wal).log.map (·.2.intoTableEvent) =
      t.store.log.map (·.2.intoTableEvent) ++ ws.map (·.intoTableEvent) := by
    have hmap : ∀ log : WalLog Row, log.map (·.2.intoTableEvent) = (log.map (·.2)).map (·.intoTableEvent) := by
      intro log
      rw [List.map_map]
      rfl
    rw [hmap, hlog, List.map_append, ← hmap]
  have hkept := hinv.kept
  have hkept' : if h.state.specialTableState = .initialCopy then
        (t.store.logPushes h.table.wal).log = [] ∧ h.state.initialCopyBufferedEvents = t.sent ++ i.changes
      else (t.store.logPushes h.table.wal).log.map (·.2.intoTableEvent) = h.kept (t.sent ++ i.changes) := by
    split at hes
    case isTrue hspecial =>
      -- nothing is pushed while the copy goes on, and nothing was before it
      have hbefore : t.store.log = [] ∧ t.handler.state.initialCopyBufferedEvents = t.sent := by
        split at hkept
        case isTrue => exact hkept
        case isFalse hnormal =>
          have hsent := hstart ((hcopying hspecial).resolve_left hnormal)
          rw [hsent] at hkept ⊢
          exact ⟨List.map_eq_nil_iff.mp hkept, hinv.settled (SpecialTableState.normal_of_ne hnormal)⟩
      rw [if_pos hspecial, hes.2, hbefore.2]
      rw [hbefore.1, hes.1] at hlog'
      exact ⟨List.map_eq_nil_iff.mp hlog', rfl⟩
    case isFalse hspecial =>
      rw [if_neg hspecial, hlog', hes]
      split at hkept
      case isTrue => rw [hkept.1, hkept.2, List.map_nil, List.nil_append]
      case isFalse hnormal =>
        rw [hkept, hinv.settled (SpecialTableState.normal_of_ne hnormal), List.nil_append,
          ← TableHandler.kept_congr (hpersistence.resolve_left hnormal)]
        exact (List.filter_append _ _).symm
  exact ⟨rfl, hreach, hsettled, hsteps, hkept', hinv.walFlush, hinv.flush⟩

/-- An input of the handler that is no change. -/
theorem Inv.withHandler_nil (hinv : Inv b t) {i : HandlerInput Row} {h : TableHandler Row}
    (hnext : t.handler.next b i = .ok h) (hnone : i.changes = [])
    (hstart : i = .event .startInitialCopy → t.sent = []) : Inv b (t.withHandler h) := by
  have hstep := hinv.withHandler hnext (by rw [hnone]; exact Trace.nil) hstart
  rw [hnone, List.append_nil] at hstep
  exact hstep

/-- An action of the store that pushes nothing. -/
theorem Inv.withStore (hinv : Inv b t) {a : WalAction Row} {s : WalStore Row}
    (hnext : t.store.next b a = some s) (ha : WalStore.ingestEvents t.store a = true)
    (hlog : s.log = t.store.log) (hsnapshot : s.persistenceSnapshotLsn = t.store.persistenceSnapshotLsn) :
    Inv b (t.withStore s) := by
  have hreach := hinv.reachable
  have hmono := WalStore.durableHighestLsn_mono (WalStore.DiskInv_reachable hreach)
    (WalStore.TrackInv_reachable hreach) (WalStore.HighestInv_reachable hreach)
    (WalStore.Step_of_next hnext)
  exact {
    synced := rfl
    reachable := .step hreach ⟨a, ha, hnext⟩
    settled := hinv.settled
    steps := hinv.steps
    kept := by
      change if _ then s.log = [] ∧ _ else s.log.map _ = _
      rw [hlog]
      exact hinv.kept
    walFlush := Nat.le_trans hinv.walFlush hmono
    flush := by
      change t.flushLsn = 0 ∨ s.persistenceSnapshotLsn = some t.flushLsn
      rw [hsnapshot]
      exact hinv.flush }

theorem isBackground_frame {s s' : WalStore Row} {a : WalAction Row} (ha : a.isBackground = true)
    (hnext : s.next b a = some s') :
    WalStore.ingestEvents s a = true ∧ s'.log = s.log ∧
      s'.persistenceSnapshotLsn = s.persistenceSnapshotLsn := by
  cases WalStore.Step_of_next hnext with
  | push => cases ha
  | icebergSnapshot => cases ha
  | complete => cases ha
  | crash => cases ha
  | prepare => exact ⟨rfl, rfl, rfl⟩
  | persistNewWalFile => exact ⟨rfl, rfl, rfl⟩
  | persistMetadata => exact ⟨rfl, rfl, rfl⟩
  | deleteFile => exact ⟨rfl, rfl, rfl⟩

/-- What the result of a WAL update reports is durable. -/
theorem completedLsn_eq {s s' : WalStore Row}
    (hs : (WalStore.system b WalStore.ingestEvents).Reachable s) (hnext : s.next b .complete = some s')
    {lsn : Nat} (hlsn : s.completedLsn b = some lsn) :
    lsn = s.durableHighestLsn := by
  have hstep := WalStore.Step_of_next hnext
  generalize ha : (WalAction.complete : WalAction Row) = a at hstep
  cases hstep with
  | complete hon hcomplete =>
    unfold WalStore.completedLsn at hlsn
    simp only [hon, hcomplete] at hlsn
    subst hlsn
    exact WalStore.complete_lsn_eq (WalStore.DiskInv_reachable hs)
      (WalStore.HighestInv_reachable hs) hon hcomplete
  | _ => cases ha

theorem Inv.step (hinv : Inv b t) (hstep : Step b t t') : Inv b t' := by
  cases hstep with
  | change hsource hnext =>
    rename_i e src h
    have hone : (HandlerInput.event e).changes = [e] := by
      obtain ⟨w, rfl, hingest, -⟩ := hsource.isChange
      cases w <;> first | rfl | cases hingest
    have hsteps : Source.Steps t.appendOnly t.source (HandlerInput.event e).changes src := by
      rw [hone]
      exact .cons hsource .nil
    have hstep := hinv.withHandler hnext hsteps (by
      rintro ⟨⟩
      cases hone)
    rw [hone] at hstep
    exact hstep
  | copy hcopy hstart hnext =>
    rename_i e h
    have hnone : (HandlerInput.event e).changes = [] := by
      cases e <;> first | rfl | cases hcopy
    exact hinv.withHandler_nil hnext hnone fun heq => hstart (HandlerInput.event.inj heq)
  | background hi hnext =>
    rename_i i h
    have hnone : i.changes = [] := by
      cases i <;> first | rfl | cases hi
    exact hinv.withHandler_nil hnext hnone (by rintro rfl; cases hi)
  | persistWal ha hnext =>
    obtain ⟨henv, hlog, hsnapshot⟩ := isBackground_frame ha hnext
    exact hinv.withStore hnext henv hlog hsnapshot
  | completeWal hnext =>
    rename_i s
    have hframe : s.log = t.store.log ∧ s.persistenceSnapshotLsn = t.store.persistenceSnapshotLsn ∧
        s.durableHighestLsn = t.store.durableHighestLsn := by
      have hstep := WalStore.Step_of_next hnext
      generalize ha : (WalAction.complete : WalAction Row) = a at hstep
      cases hstep with
      | complete => exact ⟨rfl, rfl, rfl⟩
      | _ => cases ha
    have hold := hinv.withStore hnext rfl hframe.1 hframe.2.1
    refine ⟨hold.synced, hold.reachable, hold.settled, hold.steps, hold.kept, ?_, hold.flush⟩
    change (t.store.completedLsn b).getD t.walFlushLsn ≤ s.durableHighestLsn
    cases hlsn : t.store.completedLsn b with
    | none => exact hold.walFlush
    | some lsn =>
      rw [Option.getD_some, completedLsn_eq hinv.reachable hnext hlsn, hframe.2.2]
  | icebergSnapshot hsnapshot hnext =>
    rename_i lsn s
    have hs : s = { t.store with persistenceSnapshotLsn := some lsn } := by
      simp only [WalStore.next] at hnext
      split at hnext
      · cases hnext
        rfl
      · cases hnext
    refine ⟨rfl, .step hinv.reachable ⟨_, rfl, hnext⟩, hinv.settled, hinv.steps, ?_, ?_, .inr ?_⟩
    · subst hs
      exact hinv.kept
    · subst hs
      exact hinv.walFlush
    · subst hs
      rfl

/-! ## What is discarded after the copy -/

/-- The view `w` of the events above `boundary` next to the view `v` of all events. -/
structure KeptView (boundary : Nat) (src : Source) (v w : TableView Row) : Prop where
  closed : src.openMain = none → v.openMain = []
  openMain : w.openMain = if src.openMain.any (· ≤ boundary) then [] else v.openMain
  openStreams : w.openStreams = v.openStreams
  applied : ∀ a ∈ v.applied, a.lsn ≤ boundary ∨ a ∈ w.applied

variable {boundary : Nat} {appendOnly : Bool} {src src' : Source} {v w : TableView Row} {e : TableEvent Row}

/-- The same transaction is applied to both views. -/
theorem KeptView.applyXact (hview : KeptView boundary src v w) (origin : XactOrigin) (lsn : Nat)
    (ops : List (RowOp Row)) : KeptView boundary src (v.applyXact origin lsn ops) (w.applyXact origin lsn ops) := by
  refine ⟨hview.closed, hview.openMain, hview.openStreams, ?_⟩
  intro a ha
  rcases List.mem_append.mp ha with ha | ha
  · exact (hview.applied a ha).imp_right (List.mem_append_left _)
  · exact .inr (List.mem_append_right _ ha)

variable {h : TableHandler Row}

theorem KeptView.step (hboundary : h.state.initialPersistenceLsn = some boundary)
    (hview : KeptView boundary src v w) (hstep : Source.Step appendOnly src e src')
    (hunsplit : ∀ f l r, src.openMain = some f → e = .commit l none r → ¬ (f ≤ boundary ∧ boundary < l)) :
    KeptView boundary src' (v.keep none e) (w.keepAll none (h.kept [e])) := by
  have hkept : ∀ e : TableEvent Row, w.keepAll none (h.kept [e]) =
      if !e.isStreamingUpdate && e.getLsnForIngestEvent.any (· ≤ boundary) then w else w.keep none e := by
    intro e
    have hdiscard : h.state.shouldDiscardEvent e =
        (!e.isStreamingUpdate && e.getLsnForIngestEvent.any (· ≤ boundary)) := by
      unfold TableHandlerState.shouldDiscardEvent
      rw [hboundary]
    rw [TableHandler.kept, List.filter_singleton, hdiscard]
    cases !e.isStreamingUpdate && e.getLsnForIngestEvent.any (· ≤ boundary) <;> rfl
  rw [hkept]
  cases hstep with
  | mainRow hop hmain =>
    rename_i op f
    have hrow : ∀ v : TableView Row, v.keep none (op.event none f) = { v with openMain := v.openMain ++ [op] } := by
      cases op <;> exact fun _ => rfl
    have hdiscard : (!(op.event none f).isStreamingUpdate &&
        (op.event none f).getLsnForIngestEvent.any (· ≤ boundary)) = decide (f ≤ boundary) := by
      cases op <;> rfl
    have hopen : w.openMain = if f ≤ boundary then [] else v.openMain := by
      rw [hview.openMain]
      rcases hmain with hsome | ⟨hnone, -⟩
      · simp [hsome]
      · simp [hnone, hview.closed hnone]
    rw [hdiscard, hrow, hrow]
    by_cases hle : f ≤ boundary
    · rw [if_pos hle] at hopen
      exact ⟨fun h => (by cases h), by simpa [hle] using hopen, by simpa [hle] using hview.openStreams,
        by simpa [hle] using hview.applied⟩
    · rw [if_neg hle] at hopen
      exact ⟨fun h => (by cases h), by simp [hle, hopen], by simpa [hle] using hview.openStreams,
        by simpa [hle] using hview.applied⟩
  | mainCommit hmain hlt =>
    rename_i f l
    have hsplit := hunsplit f l false hmain rfl
    have hopen := hview.openMain
    rw [hmain] at hopen
    have hdiscard : (!(TableEvent.commit l none false : TableEvent Row).isStreamingUpdate &&
        (TableEvent.commit l none false : TableEvent Row).getLsnForIngestEvent.any (· ≤ boundary)) =
          decide (l ≤ boundary) := rfl
    have hcommit : ∀ v : TableView Row, v.keep none (.commit l none false) =
        { v with openMain := [] }.applyXact .main l v.openMain := fun _ => rfl
    rw [hdiscard, hcommit, hcommit]
    by_cases hle : l ≤ boundary
    · -- the rows were discarded as well
      rw [if_pos (by simp; omega)] at hopen
      rw [if_pos (by simpa using hle)]
      refine ⟨fun _ => rfl, hopen, hview.openStreams, ?_⟩
      intro a ha
      rcases List.mem_append.mp ha with ha | ha
      · exact hview.applied a ha
      · rw [List.mem_singleton.mp ha]
        exact .inl hle
    · rw [if_neg (by simp; omega)] at hopen
      rw [if_neg (by simpa using hle), hopen]
      have hclosed : KeptView boundary { src with lastEnd := l, openMain := none, lastMain := some l }
          { v with openMain := [] } { w with openMain := [] } :=
        ⟨fun _ => rfl, rfl, hview.openStreams, hview.applied⟩
      exact hclosed.applyXact _ _ _
  | streamRow hop hmain hnew =>
    rename_i op x
    have hrow : ∀ v : TableView Row, v.keep none (op.event (some x) 0) = v.streamRows x [op] := by
      cases op <;> exact fun _ => rfl
    have hdiscard : (op.event (some x) 0).isStreamingUpdate = true := by
      cases op <;> rfl
    rw [hdiscard, hrow, hrow]
    refine ⟨hview.closed, hview.openMain, ?_, hview.applied⟩
    simp [TableView.streamRows, hview.openStreams]
  | streamCommit hmain hopen hlt =>
    rename_i x l
    have hended : KeptView boundary { src.endStream x with lastEnd := l, lastMain := none }
        (v.endStream x) (w.endStream x) :=
      ⟨hview.closed, hview.openMain, by simp [TableView.endStream, hview.openStreams], hview.applied⟩
    have hkeep : w.keep none (.commit l (some x) false) =
        (w.endStream x).applyXact (.stream x) l ((v.openStreams x).getD []) := by
      rw [← hview.openStreams]
      rfl
    change KeptView _ _ _ (w.keep none (.commit l (some x) false))
    rw [hkeep]
    exact hended.applyXact _ _ _
  | streamAbort hmain hopen =>
    rename_i x
    change KeptView _ _ (v.endStream x) (w.endStream x)
    exact ⟨hview.closed, hview.openMain, by simp [TableView.endStream, hview.openStreams], hview.applied⟩

/-- A transaction that the source has committed is at or below the boundary, or nothing of it is
discarded. -/
theorem KeptView.steps (hboundary : h.state.initialPersistenceLsn = some boundary)
    {events : List (TableEvent Row)} (hview : KeptView boundary src v w)
    (hsteps : Source.Steps appendOnly src events src') (hunsplit : TableEvent.Unsplit boundary events)
    (hhead : ∀ f l r, src.openMain = some f → events.head? = some (.commit l none r) →
      ¬ (f ≤ boundary ∧ boundary < l)) :
    KeptView boundary src' (v.keepAll none events) (w.keepAll none (h.kept events)) := by
  induction hsteps generalizing v w with
  | nil => exact hview
  | cons hstep hrest ih =>
    rename_i e rest
    have hcons : h.kept (e :: rest) = h.kept [e] ++ h.kept rest := List.filter_append [e] rest
    rw [hcons, TableView.keepAll_append]
    unfold TableEvent.Unsplit at hunsplit
    rw [List.isChain_cons] at hunsplit
    refine ih (hview.step hboundary hstep ?_) hunsplit.2 ?_
    · rintro f l r hopen rfl
      exact hhead f l r hopen rfl
    · intro f l r hopen hcommit
      exact hunsplit.1 _ hcommit f l r (hstep.openMain_lsn hopen) rfl

/-! ## Recovery -/

theorem changes_of_log {ext : WalLog Row} (hlog : t.store.log = t.store.durableLog ++ ext) :
    t.changes = t.store.durableLog.map (·.2.intoTableEvent) ++
      (ext.map (·.2.intoTableEvent) ++ t.handler.state.initialCopyBufferedEvents) := by
  unfold ReplicatedTable.changes
  rw [hlog, List.map_append, List.append_assoc]

/-- The durable part of the log is ordered, and its rows are those of the source. -/
theorem Inv.durable (hinv : Inv b t) :
    WalStore.LogOrdered t.store.durableLog ∧
      ∀ p ∈ t.store.durableLog, p.2.isEmitted t.appendOnly = true := by
  obtain ⟨ext, hlog⟩ := (WalStore.DiskInv_reachable hinv.reachable).durableLog_extends
  have hchanges := changes_of_log hlog
  have hevent : ∀ p ∈ t.store.durableLog, IsChange t.appendOnly p.2.intoTableEvent := by
    intro p hp
    refine hinv.changes _ ?_
    rw [hchanges]
    exact List.mem_append_left _ (List.mem_map.mpr ⟨p, hp, rfl⟩)
  have hsame : ∀ p ∈ t.store.durableLog, p.2.isEmitted t.appendOnly = true ∧
      ∀ lsn, p.2.commitLsn? = some lsn → 0 < lsn := by
    intro p hp
    obtain ⟨w, hw, -, hemit, hpos⟩ := hevent p hp
    have hnew := p.2.new_intoTableEvent
    rw [hw, w.new_intoTableEvent] at hnew
    cases hnew
    exact ⟨hemit, hpos⟩
  refine ⟨⟨?_, fun p hp => (hsame p hp).2⟩, fun p hp => (hsame p hp).1⟩
  have hordered := hinv.ordered
  rw [hchanges] at hordered
  exact hordered.sublist (List.sublist_append_left _ _)

end ReplicatedTable

/-! ## The replication system -/

/-- The registered tables. -/
abbrev Replication (Row : Type) : Type := AssocMap TableId (ReplicatedTable Row)

namespace Replication

variable {Row : Type} {b : Build} {s s' : Replication Row}

inductive Step (b : Build) (s : Replication Row) : Replication Row → Prop where
  | addTable (t : TableId) (memSliceSize : Nat) (appendOnly : Bool) :
      Step b s (s.insert t (ReplicatedTable.new memSliceSize appendOnly))
  | dropTable (t : TableId) : Step b s (s.erase t)
  | table {t : TableId} {tab tab' : ReplicatedTable Row} (hlook : s.lookup t = some tab)
      (hstep : tab.Step b tab') : Step b s (s.insert t tab')

def system (b : Build) : TransitionSystem (Replication Row) where
  init := fun s => s = ∅
  step := Step b

/-- The invariant holds of each table by itself. -/
theorem Inv_reachable (hs : (system b).Reachable s) {t : TableId} {tab : ReplicatedTable Row}
    (hlook : s.lookup t = some tab) : tab.Inv b := by
  have hinsert : ∀ {s : Replication Row} {t' : TableId} {tab' : ReplicatedTable Row}, tab'.Inv b →
      (∀ t tab, s.lookup t = some tab → tab.Inv b) →
      ∀ t tab, (s.insert t' tab').lookup t = some tab → tab.Inv b := by
    intro s t' tab' hinv hall t tab hlook
    by_cases ht : t = t'
    · subst ht
      rw [AList.lookup_insert] at hlook
      cases hlook
      exact hinv
    · rw [AList.lookup_insert_ne ht] at hlook
      exact hall t tab hlook
  have hind : (system b).Inductive fun s : Replication Row =>
      ∀ t tab, s.lookup t = some tab → tab.Inv b := by
    constructor
    · rintro s rfl t tab hlook
      cases hlook
    · intro s s' hall hstep
      cases hstep with
      | addTable t' m a => exact hinsert (ReplicatedTable.Inv_new m a) hall
      | dropTable t' =>
        intro t tab hlook
        by_cases ht : t = t'
        · subst ht
          rw [AList.lookup_erase] at hlook
          cases hlook
        · rw [AList.lookup_erase_ne ht] at hlook
          exact hall t tab hlook
      | table hlook hstep => exact hinsert ((hall _ _ hlook).step hstep) hall
  exact hind.reachable hs t tab hlook

end Replication
end Moonlink
