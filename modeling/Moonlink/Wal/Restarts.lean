-- SUMMARY: A store and its source over any number of restarts, and when a replay forwards no row twice.
import Moonlink.Wal.Exactness

/-!
# Restarts

After a crash the manager is rebuilt from the metadata, the persisted WAL is
replayed, the stream aborts that the replay sends are pushed, and then the source
sends again every transaction that had not committed inside the persisted WAL.
Rows stand for row changes of the source, so the source sends no row event twice
between two restarts.

A second copy of a row is told apart from the first one only by a stream abort in
between. For streaming transactions the replay provides it. A main transaction
that a crash leaves open in the persisted WAL gets none.
-/

namespace Moonlink

open Lib

section

variable {Row : Type} [DecidableEq Row]

/-- The row event belongs to a transaction that committed within the log. -/
def committedIn (e : WalEvent Row) : List (WalEvent Row) → Bool
  | [] => false
  | e' :: post =>
    (decide (e' = e) && match fate e' post with
      | .committed _ => true
      | _ => false) || committedIn e post

theorem committedIn_of_split {e : WalEvent Row} {lsn : Nat} {pre post : List (WalEvent Row)}
    (h : fate e post = .committed lsn) : committedIn e (pre ++ e :: post) = true := by
  induction pre with
  | nil => simp [committedIn, h]
  | cons e' pre ih => simp [committedIn, ih]

end

/-- A store together with what the source may still send. -/
structure RestartedWal (Row : Type) where
  store : WalStore Row
  /-- The log at the last restart. -/
  recovered : WalLog Row
  /-- The row events received since the last restart. -/
  received : List (WalEvent Row)
  /-- The stream aborts of the replay that the handler has not yet pushed. -/
  closing : List (TableEvent Row)

inductive RestartAction (Row : Type) where
  /-- The source sends an event. -/
  | deliver (e : TableEvent Row)
  /-- The handler pushes the next stream abort of the replay. -/
  | close
  /-- The store takes a step of its own: a snapshot or a step of an update. -/
  | background (a : WalAction Row)
  /-- The process crashes, and the recovery runs to its end. -/
  | restart

namespace TableEvent

variable {Row : Type}

def isStreamAbort : TableEvent Row → Bool
  | .streamAbort .. => true
  | _ => false

/-- Row events: appends and deletes. -/
def isRow : TableEvent Row → Bool
  | .append .. | .delete .. => true
  | _ => false

end TableEvent

namespace RestartedWal

variable {Row : Type} [DecidableEq Row]

def init : RestartedWal Row where
  store := WalStore.init
  recovered := []
  received := []
  closing := []

/-- The source sends a row event once, and not again if its transaction had committed
inside the persisted WAL. -/
def maySend (s : RestartedWal Row) (e : WalEvent Row) : Bool :=
  !e.isRow || (!decide (e ∈ s.received) && !committedIn e (s.recovered.map (·.2)))

/-- One action; `mayRestart` says in which states a crash may happen. -/
def next (b : Build) (mayRestart : WalStore Row → Bool) (s : RestartedWal Row) :
    RestartAction Row → Option (RestartedWal Row)
  | .deliver e =>
    match WalEvent.new e, s.closing with
    | .ok e', [] =>
      if s.maySend e' && WalStore.ingestEvents s.store (.push e) then
        (s.store.next b (.push e)).map fun store =>
          { s with store, received := s.received ++ [e'] }
      else none
    | _, _ => none
  | .close =>
    match s.closing with
    | .streamAbort x r c :: rest =>
      (s.store.next b (.push (.streamAbort x r c))).map fun store =>
        { s with store, closing := rest }
    | _ => none
  | .background a =>
    match a with
    | .push _ | .crash => none
    | a => (s.store.next b a).map fun store => { s with store }
  | .restart =>
    match mayRestart s.store, (s.store.replay b).result, s.store.next b .crash with
    | true, .ok (), some store =>
      some {
        store
        recovered := s.store.durableLog
        received := []
        closing := (s.store.replay b).sent.filter (·.isStreamAbort) }
    | _, _, _ => none

/-- The runs in which restarts happen only where `mayRestart` allows them. -/
def system (b : Build) (mayRestart : WalStore Row → Bool) :
    TransitionSystem (RestartedWal Row) where
  init := fun s => s = RestartedWal.init
  step := fun s s' => ∃ a, s.next b mayRestart a = some s'

/-- A crash may come at any point. -/
def anyRestart : WalStore Row → Bool := fun _ => true

/-- The persisted metadata has no open main transaction. -/
def mainClosed : WalStore Row → Bool := fun s =>
  s.metadata.all fun m => m.mainTransactionTracker.all (·.isClosed)

def run (b : Build) (mayRestart : WalStore Row → Bool) (s : RestartedWal Row) :
    List (RestartAction Row) → Option (RestartedWal Row)
  | [] => some s
  | a :: rest => (s.next b mayRestart a).bind fun s' => run b mayRestart s' rest

theorem Reachable_of_run {b : Build} {mayRestart : WalStore Row → Bool} {s s' : RestartedWal Row}
    (actions : List (RestartAction Row)) (hs : (system b mayRestart).Reachable s)
    (hrun : run b mayRestart s actions = some s') : (system b mayRestart).Reachable s' := by
  induction actions generalizing s with
  | nil =>
    cases hrun
    exact hs
  | cons a rest ih =>
    obtain ⟨t, hnext, hrest⟩ := Option.bind_eq_some_iff.mp hrun
    exact ih (.step hs ⟨a, hnext⟩) hrest

/-! ## Steps -/

variable {b : Build} {mayRestart : WalStore Row → Bool} {s s' : RestartedWal Row}

/-- What each action does to the store and to the source. -/
inductive Step (b : Build) (mayRestart : WalStore Row → Bool) (s : RestartedWal Row) :
    RestartedWal Row → Prop where
  | deliver {e : TableEvent Row} {e' : WalEvent Row} {store : WalStore Row}
      (hnew : WalEvent.new e = .ok e') (hclosing : s.closing = []) (hsend : s.maySend e' = true)
      (henv : WalStore.ingestEvents s.store (.push e) = true)
      (hnext : s.store.next b (.push e) = some store) :
      Step b mayRestart s { s with store, received := s.received ++ [e'] }
  | close {x : XactId} {r c : Bool} {rest : List (TableEvent Row)} {store : WalStore Row}
      (hclosing : s.closing = .streamAbort x r c :: rest)
      (hnext : s.store.next b (.push (.streamAbort x r c)) = some store) :
      Step b mayRestart s { s with store, closing := rest }
  | background {a : WalAction Row} {store : WalStore Row} (hpush : ∀ e, a ≠ .push e)
      (hcrash : a ≠ .crash) (hnext : s.store.next b a = some store) :
      Step b mayRestart s { s with store }
  | restart (hmay : mayRestart s.store = true) (hok : (s.store.replay b).result = .ok ())
      {store : WalStore Row} (hnext : s.store.next b .crash = some store) :
      Step b mayRestart s
        { store
          recovered := s.store.durableLog
          received := []
          closing := (s.store.replay b).sent.filter (·.isStreamAbort) }

theorem Step_of_next {a : RestartAction Row} (h : s.next b mayRestart a = some s') :
    Step b mayRestart s s' := by
  cases a with
  | deliver e =>
    simp only [next] at h
    split at h
    · rename_i e' hnew hclosing
      split at h
      · rename_i hcond
        obtain ⟨store, hnext, rfl⟩ := Option.map_eq_some_iff.mp h
        obtain ⟨hsend, henv⟩ := Bool.and_eq_true_iff.mp hcond
        exact .deliver hnew hclosing hsend henv hnext
      · cases h
    · cases h
  | close =>
    simp only [next] at h
    split at h
    · rename_i x r c rest hclosing
      obtain ⟨store, hnext, rfl⟩ := Option.map_eq_some_iff.mp h
      exact .close hclosing hnext
    · cases h
  | background a =>
    simp only [next] at h
    split at h
    · cases h
    · cases h
    · rename_i hpush hcrash
      obtain ⟨store, hnext, rfl⟩ := Option.map_eq_some_iff.mp h
      exact .background hpush hcrash hnext
  | restart =>
    simp only [next] at h
    split at h
    · rename_i store hmay hok hnext
      cases h
      exact .restart hmay hok hnext
    · cases h

/-- The store of a restarted WAL is one of ingest events. -/
theorem store_reachable (hs : (system b mayRestart).Reachable s) :
    (WalStore.system b WalStore.ingestEvents).Reachable s.store := by
  induction hs with
  | init h =>
    subst h
    exact .init rfl
  | step _ h ih =>
    obtain ⟨a, hnext⟩ := h
    cases Step_of_next hnext with
    | deliver hnew hclosing hsend henv hstore => exact .step ih ⟨_, henv, hstore⟩
    | close hclosing hstore => exact .step ih ⟨_, rfl, hstore⟩
    | background hpush hcrash hstore =>
      refine .step ih ⟨_, ?_, hstore⟩
      unfold WalStore.ingestEvents
      split
      · exact absurd rfl (hpush _)
      · rfl
    | restart hmay hok hstore => exact .step ih ⟨.crash, rfl, hstore⟩

/-! ## Copies of a row are separated by an abort -/

omit [DecidableEq Row] in
/-- Between two copies of a row event there is a stream abort. -/
def NoRepeat (log : WalLog Row) : Prop :=
  ∀ pre p mid q post, log = pre ++ p :: (mid ++ q :: post) → p.2.isRow = true → q.2 = p.2 →
    ∃ r ∈ mid, r.2.isStreamAbort = true

omit [DecidableEq Row] in
theorem NoRepeat.left {log ext : WalLog Row} (h : NoRepeat (log ++ ext)) : NoRepeat log := by
  intro pre p mid q post hlog
  exact h pre p mid q (post ++ ext) (by rw [hlog]; simp)

omit [DecidableEq Row] in
/-- A new last event repeats nothing if every earlier copy is followed by an abort. -/
theorem NoRepeat.append {log : WalLog Row} {p : Nat × WalEvent Row} (h : NoRepeat log)
    (hnew : ∀ pre q mid, log = pre ++ q :: mid → q.2.isRow = true → p.2 = q.2 →
      ∃ r ∈ mid, r.2.isStreamAbort = true) : NoRepeat (log ++ [p]) := by
  intro pre q mid q' post hlog hrow heq
  have hlog' : log ++ [p] = (pre ++ q :: mid) ++ q' :: post := by
    rw [hlog]
    simp
  rcases append_singleton_split hlog' with ⟨hl, rfl, -⟩ | ⟨post', -, hl⟩
  · exact hnew pre q mid hl hrow heq
  · exact h pre q mid q' post' (by rw [hl]; simp) hrow heq

structure RestartInv (s : RestartedWal Row) : Prop where
  fresh : ∃ fresh, s.store.log = s.recovered ++ fresh ∧
    (∀ p ∈ fresh, p.2.isRow = true → p.2 ∈ s.received) ∧
    ∀ pre p post x, s.recovered = pre ++ p :: post → p.2.xactId = some x →
      fate p.2 (post.map (·.2)) = .open →
      (∃ q ∈ fresh, q.2.isStreamAbort = true) ∨ ∃ r c, .streamAbort x r c ∈ s.closing
  mainClosed : ∀ pre p post, s.recovered = pre ++ p :: post → p.2.xactId = none →
    fate p.2 (post.map (·.2)) ≠ .open
  noRepeat : NoRepeat s.store.log

omit [DecidableEq Row] in
/-- What a push does to the log of a store. -/
theorem log_of_push {store store' : WalStore Row} {e : TableEvent Row} {e' : WalEvent Row}
    (hnew : WalEvent.new e = .ok e') (h : store.next b (.push e) = some store') :
    store'.log = store.log ++ [(store.manager.currFileNumber, e')] := by
  cases WalStore.Step_of_next h with
  | push hpush hnew' =>
    rw [hnew] at hnew'
    cases hnew'
    rfl

omit [DecidableEq Row] in
theorem log_of_background {store store' : WalStore Row} {a : WalAction Row}
    (hpush : ∀ e, a ≠ .push e) (hcrash : a ≠ .crash) (h : store.next b a = some store') :
    store'.log = store.log := by
  cases WalStore.Step_of_next h with
  | push _ _ => exact absurd rfl (hpush _)
  | crash => exact absurd rfl hcrash
  | icebergSnapshot _ => rfl
  | prepare _ _ => rfl
  | persistNewWalFile _ => rfl
  | persistMetadata _ => rfl
  | deleteFile _ _ => rfl
  | complete _ _ => rfl

omit [DecidableEq Row] in
theorem RestartInv_init : RestartInv (init : RestartedWal Row) where
  fresh := ⟨[], rfl, by simp, by simp [init]⟩
  mainClosed := by simp [init]
  noRepeat := by
    intro pre p mid q post h
    simp [init, WalStore.init] at h

variable {store : WalStore Row}

theorem RestartInv.deliver (h : RestartInv s) {e : TableEvent Row} {e' : WalEvent Row}
    (hnew : WalEvent.new e = .ok e') (hclosing : s.closing = [])
    (hsend : s.maySend e' = true) (hnext : s.store.next b (.push e) = some store) :
    RestartInv { s with store, received := s.received ++ [e'] } := by
  have hlog := log_of_push hnew hnext
  obtain ⟨fresh, hfresh, hreceived, hopen⟩ := h.fresh
  constructor
  case fresh =>
      refine ⟨fresh ++ [(s.store.manager.currFileNumber, e')], ?_, ?_, ?_⟩
      · rw [hlog, hfresh, List.append_assoc]
      · intro p hp hrow
        rcases List.mem_append.mp hp with hin | hin
        · exact List.mem_append_left _ (hreceived p hin hrow)
        · rw [List.mem_singleton.mp hin]
          simp
      · intro pre p post x hrec hx hfate
        rcases hopen pre p post x hrec hx hfate with ⟨q, hq, habort⟩ | hclose
        · exact .inl ⟨q, List.mem_append_left _ hq, habort⟩
        · exact .inr hclose
  case mainClosed => exact h.mainClosed
  case noRepeat =>
      simp only
      rw [hlog]
      refine h.noRepeat.append ?_
      intro pre q mid hl hrow heq
      have heq' : e' = q.2 := heq
      subst heq'
      simp only [maySend, hrow, Bool.not_true, Bool.false_or, Bool.and_eq_true,
        Bool.not_eq_true', decide_eq_false_iff_not] at hsend
      rw [hfresh] at hl
      rcases append_split hl with ⟨post, hrec, rfl⟩ | ⟨pre', -, hin⟩
      · -- a copy from before the restart, of a transaction that did not commit
        cases hfate : fate q.2 (post.map (·.2)) with
        | committed lsn =>
          have hcommitted : committedIn q.2 (s.recovered.map (·.2)) = true := by
            rw [hrec, List.map_append, List.map_cons]
            exact committedIn_of_split hfate
          rw [hcommitted] at hsend
          cases hsend.2
        | aborted =>
          obtain ⟨f, hf, habort⟩ := fateOf_eq_aborted hfate
          rcases List.mem_cons.mp hf with rfl | hf
          · cases hq : q.2 <;> rw [hq] at hrow habort <;> cases hrow <;> cases habort
          · obtain ⟨r, hr, rfl⟩ := List.mem_map.mp hf
            exact ⟨r, List.mem_append_left _ hr, habort⟩
        | «open» =>
          cases hx : q.2.xactId with
          | none => exact absurd hfate (h.mainClosed pre q post hrec hx)
          | some x =>
            rcases hopen pre q post x hrec hx hfate with ⟨r, hr, habort⟩ | ⟨r, c, hmem⟩
            · exact ⟨r, List.mem_append_right _ hr, habort⟩
            · rw [hclosing] at hmem
              cases hmem
      · -- a copy from after the restart
        have hmem : q ∈ fresh := by
          rw [hin]
          exact List.mem_append_right _ List.mem_cons_self
        exact absurd (hreceived q hmem hrow) hsend.1

omit [DecidableEq Row] in
theorem RestartInv.close (h : RestartInv s) {x : XactId} {r c : Bool} {rest : List (TableEvent Row)}
    (hnext : s.store.next b (.push (.streamAbort x r c)) = some store) :
    RestartInv { s with store, closing := rest } := by
  have hlog := log_of_push rfl hnext
  obtain ⟨fresh, hfresh, hreceived, hopen⟩ := h.fresh
  constructor
  case fresh =>
      refine ⟨fresh ++ [(s.store.manager.currFileNumber, .streamAbort x)], ?_, ?_, ?_⟩
      · rw [hlog, hfresh, List.append_assoc]
      · intro p hp hrow
        rcases List.mem_append.mp hp with hin | hin
        · exact hreceived p hin hrow
        · rw [List.mem_singleton.mp hin] at hrow
          cases hrow
      · intro _ _ _ _ _ _ _
        exact .inl ⟨(_, .streamAbort x), List.mem_append_right _ (List.mem_singleton_self _), rfl⟩
  case mainClosed => exact h.mainClosed
  case noRepeat =>
      simp only
      rw [hlog]
      refine h.noRepeat.append ?_
      intro pre q mid _ hrow heq
      rw [← heq] at hrow
      cases hrow

omit [DecidableEq Row] in
/-- A completed replay of a non-empty WAL closes every open transaction. -/
theorem streamAbort_mem_replay {m : PersistentWalMetadata} {x : XactId}
    {f : Nat} (hm : store.metadata = some m) (hok : (store.replay b).result = .ok ())
    (hlive : m.liveWalFilesTracker ≠ [])
    (hopen : m.activeTransactions.lookup x = some (.open f)) :
    .streamAbort x false true ∈ (store.replay b).sent := by
  unfold WalStore.replay WalManager.replayRecoveryFromWal at hok ⊢
  rw [hm] at hok ⊢
  simp only at hok ⊢
  rw [if_neg (by simpa using hlive)] at hok ⊢
  split at hok
  · cases hok
  · refine List.mem_append_left _ (List.mem_append_right _ ?_)
    exact List.mem_filterMap.mpr ⟨⟨x, .open f⟩, AssocMap.lookup_eq_some_iff.mp hopen, rfl⟩

omit [DecidableEq Row] in
theorem RestartInv.restart (h : RestartInv s) (hdisk : WalStore.DiskInv s.store)
    (htrack : WalStore.TrackInv s.store) (hmain : RestartedWal.mainClosed s.store = true)
    (hok : (s.store.replay b).result = .ok ()) (hnext : s.store.next b .crash = some store) :
    RestartInv
      { store
        recovered := s.store.durableLog
        received := []
        closing := (s.store.replay b).sent.filter (·.isStreamAbort) } := by
  have hlog : store.log = s.store.durableLog := by
    cases WalStore.Step_of_next hnext
    rfl
  constructor
  case fresh =>
      refine ⟨[], by rw [hlog, List.append_nil], by simp, ?_⟩
      rintro pre ⟨n, e⟩ post x hrec hx hfate
      right
      cases hm : s.store.metadata with
      | none =>
        rw [hdisk.durableLog_eq_nil hm] at hrec
        simp at hrec
      | some m =>
        obtain ⟨hagrees, -⟩ := htrack.durable m hm
        -- an open transaction is tracked as open and keeps its file live
        have hlive : m.liveWalFilesTracker ≠ [] := by
          intro hnil
          have hcap := hagrees.captured pre n e post hrec (by rw [hnil]; simp)
          rw [hfate] at hcap
          cases hcap
        obtain ⟨st, -, htracked, hst⟩ := hagrees.tracks.exists_open hrec hfate
          (m.activeTransactions.lookup x).toList (by
            intro st hst
            rw [hx] at hst
            rw [show m.activeTransactions.lookup x = some st from hst]
            simp)
        rw [hx] at htracked
        cases st with
        | commit f l g => cases hst
        | abort f l g => cases hst
        | «open» f =>
          exact ⟨false, true, List.mem_filter.mpr
            ⟨streamAbort_mem_replay hm hok hlive htracked, rfl⟩⟩
  case mainClosed =>
      rintro pre ⟨n, e⟩ post hrec hx hfate
      cases hm : s.store.metadata with
      | none =>
        rw [hdisk.durableLog_eq_nil hm] at hrec
        simp at hrec
      | some m =>
        obtain ⟨hagrees, -⟩ := htrack.durable m hm
        obtain ⟨st, hmem, -, hst⟩ := hagrees.tracks.exists_open hrec hfate
          m.mainTransactionTracker (by
            intro st hst
            rw [hx] at hst
            exact hst)
        unfold RestartedWal.mainClosed at hmain
        rw [hm] at hmain
        have := List.all_eq_true.mp (by simpa using hmain) st hmem
        rw [hst] at this
        cases this
  case noRepeat =>
      simp only
      rw [hlog]
      obtain ⟨ext, hext⟩ := hdisk.durableLog_extends
      have hrepeat := h.noRepeat
      rw [hext] at hrepeat
      exact hrepeat.left

theorem RestartInv_reachable (hs : (system b mainClosed).Reachable s) : RestartInv s := by
  induction hs with
  | init h =>
    subst h
    exact RestartInv_init
  | step hs hstep ih =>
    obtain ⟨a, hnext⟩ := hstep
    have hstore := store_reachable hs
    cases Step_of_next hnext with
    | deliver hnew hclosing hsend henv hpush => exact ih.deliver hnew hclosing hsend hpush
    | close hclosing hpush => exact ih.close hpush
    | background hpush hcrash hback =>
      have hlog := log_of_background hpush hcrash hback
      obtain ⟨fresh, hfresh, hrest⟩ := ih.fresh
      refine ⟨⟨fresh, hlog.trans hfresh, hrest⟩, ih.mainClosed, ?_⟩
      simp only
      rw [hlog]
      exact ih.noRepeat
    | restart hmay hok hcrash =>
      exact ih.restart (WalStore.DiskInv_reachable hstore)
        (WalStore.TrackInv_reachable hstore) hmay hok hcrash

omit [DecidableEq Row] in
theorem NoRepeat.right {log ext : WalLog Row} (h : NoRepeat (ext ++ log)) : NoRepeat log := by
  intro pre p mid q post hlog
  exact h (ext ++ pre) p mid q post (by rw [hlog]; simp)

omit [DecidableEq Row] in
/-- A replay of a log without repetition forwards no row twice: it stops at the first
stream abort. -/
theorem nodup_of_noRepeat (hdisk : WalStore.DiskInv store)
    (h : NoRepeat store.durableLog) : ((store.replay b).sent.filter (·.isRow)).Nodup := by
  cases hm : store.metadata with
  | none =>
    rw [WalStore.replay_none hm]
    exact List.nodup_nil
  | some m =>
    obtain ⟨first, -, -, hsplit⟩ := hdisk.liveLog_suffix hm
    rw [hsplit] at h
    let read := store.liveLog.takeWhile
      fun p => WalManager.decides b m store.persistenceSnapshotLsn p.2
    have hread : WalStore.readable b store m = read.map (·.2) := by
      unfold WalStore.readable
      rw [List.takeWhile_map]
      rfl
    have hnorepeat : NoRepeat read := by
      have hlive := h.right
      rw [← List.takeWhile_append_dropWhile (l := store.liveLog)
        (p := fun p => WalManager.decides b m store.persistenceSnapshotLsn p.2)] at hlive
      exact hlive.left
    have hnoabort : ∀ p ∈ read, p.2.isStreamAbort = false := by
      intro p hp
      have hdec := List.mem_takeWhile_imp hp
      exact (WalManager.decides_eq_true_iff.mp hdec).1
    have hnodup : ((WalStore.readable b store m).filter (·.isRow)).Nodup := by
      rw [hread]
      refine nodup_filter_map ?_
      intro pre p mid q post hl hrow heq
      obtain ⟨r, hr, habort⟩ := hnorepeat pre p mid q post hl hrow heq
      have hmem : r ∈ read := by
        rw [hl]
        simp [hr]
      rw [hnoabort r hmem] at habort
      cases habort
    have hrow : ∀ e : WalEvent Row, e.recovered.isRow = e.isRow := by
      intro e
      cases e <;> rfl
    have hdata : (store.replay b).sent.filter (·.isRow) =
        ((store.replay b).sent.filter (·.isData)).filter (·.isRow) := by
      rw [List.filter_filter]
      refine List.filter_congr ?_
      intro e _
      cases e <;> rfl
    rw [hdata, hdisk.replay_sent hm, List.filter_filter, List.filter_map]
    refine List.Nodup.map WalEvent.recovered_injective ?_
    refine hnodup.sublist ?_
    rw [List.filter_filter]
    refine List.monotone_filter_right _ ?_
    intro e he
    simp only [Function.comp, Bool.and_eq_true] at he
    rw [← hrow e]
    exact he.1.1

/-- In every run in which each crash finds the main transaction closed in the persisted
metadata, a later replay forwards no row event twice. -/
theorem replay_rows_nodup (hs : (system b mainClosed).Reachable s) :
    ((s.store.replay b).sent.filter (·.isRow)).Nodup := by
  have hdisk := WalStore.DiskInv_reachable (store_reachable hs)
  obtain ⟨ext, hext⟩ := hdisk.durableLog_extends
  have hrepeat := (RestartInv_reachable hs).noRepeat
  rw [hext] at hrepeat
  exact nodup_of_noRepeat hdisk hrepeat.left

/-- Persist what is in the buffer. -/
def persistActions : List (RestartAction Nat) :=
  [.background .prepare, .background .persistNewWalFile, .background .persistMetadata,
    .background .complete]

/-- A crash between the row and the commit of a transaction, which the source sends again. -/
def resentRun (x : Option XactId) : List (RestartAction Nat) :=
  [.deliver (.append 1 x 10 false)] ++ persistActions ++ [.restart] ++
    (if x.isSome then [.close] else []) ++
    [.deliver (.append 1 x 10 false), .deliver (.commit 20 x false)] ++ persistActions

/-- A streaming transaction is forwarded once. -/
theorem replay_rows_nodup_run :
    ∃ s : RestartedWal Nat, run .debug mainClosed init (resentRun (some 7)) = some s ∧
      (s.store.replay .debug).sent = [.append 1 (some 7) 10 true] ∧
      ((s.store.replay .debug).sent.filter (·.isRow)).Nodup := by
  have happly : ∀ s : RestartedWal Nat,
      run .debug mainClosed init (resentRun (some 7)) = some s →
        ((s.store.replay .debug).sent.filter (·.isRow)).Nodup :=
    fun s hrun => replay_rows_nodup (Reachable_of_run _ (.init rfl) hrun)
  exact ⟨_, rfl, by decide, happly _ rfl⟩

/-- A main transaction that a crash leaves open in the WAL is forwarded with both copies
of its row. -/
theorem main_row_repeated :
    ∃ s : RestartedWal Nat, run .release anyRestart init (resentRun none) = some s ∧
      (system .release anyRestart).Reachable s ∧
      (s.store.replay .release).sent =
        [.append 1 none 10 true, .append 1 none 10 true, .commit 20 none true, .finishRecovery 20] :=
  ⟨_, rfl, Reachable_of_run (resentRun none) (.init rfl) rfl, by decide⟩

end RestartedWal
end Moonlink
