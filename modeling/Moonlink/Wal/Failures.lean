-- SUMMARY: WAL persistence attempts that fail: what the handler still writes, and when every event stays covered.
import Moonlink.Wal.Coverage

/-!
# Failed persistence attempts

The handler starts at most one persistence task at a time and remembers in
`wal_persist_ongoing` that one runs. A task ends in one result event. On success the
manager is updated and the flag is cleared. On failure the error is only logged: the
events that the attempt took from the buffer are not put back, and the flag stays.
-/

namespace Moonlink

open Lib

/-- The WAL of a table handler. -/
structure WalHandler (Row : Type) where
  store : WalStore Row
  walPersistOngoing : Bool
  /-- The task of the update in `store.ongoing` still runs. If it has failed, that
  update only records how far it came. -/
  taskRunning : Bool

inductive WalHandlerEvent (Row : Type) where
  /-- An action of the store. `prepare` is `PeriodicalPersistenceUpdateWal`, `complete` is
  the successful result of a task, and `crash` is a restart. -/
  | store (a : WalAction Row)
  /-- The task ends with an error, wherever it is. -/
  | persistFailed

namespace WalHandler

variable {Row : Type}

def init : WalHandler Row where
  store := WalStore.init
  walPersistOngoing := false
  taskRunning := false

/-- The writes and the result of a task need one that runs. -/
def allows (h : WalHandler Row) : WalAction Row → Bool
  | .push e => WalStore.ingestEvents h.store (.push e)
  | .icebergSnapshot _ | .crash => true
  | .prepare => !h.walPersistOngoing
  | .persistNewWalFile | .persistMetadata | .deleteFile _ | .complete => h.taskRunning

/-- The handler after an action that leaves this store. -/
def handled (h : WalHandler Row) (store : WalStore Row) : WalAction Row → WalHandler Row
  | .prepare => ⟨store, store.ongoing.isSome, store.ongoing.isSome⟩
  | .complete | .crash => ⟨store, false, false⟩
  | _ => { h with store }

def next (b : Build) (h : WalHandler Row) : WalHandlerEvent Row → Option (WalHandler Row)
  | .store a =>
    if h.allows a then (h.store.next b a).map fun store => h.handled store a
    else match a with
      | .prepare => some h
      | _ => none
  | .persistFailed => if h.taskRunning then some { h with taskRunning := false } else none

def run (b : Build) (h : WalHandler Row) : List (WalHandlerEvent Row) → Option (WalHandler Row)
  | [] => some h
  | e :: rest => (h.next b e).bind fun h' => run b h' rest

theorem run_append (b : Build) (h : WalHandler Row) (events : List (WalHandlerEvent Row))
    (e : WalHandlerEvent Row) :
    run b h (events ++ [e]) = (run b h events).bind fun h' => h'.next b e := by
  induction events generalizing h with
  | nil => simp [run, Option.bind_fun_some]
  | cons e' rest ih =>
    simp only [List.cons_append, run, Option.bind_assoc]
    exact congrArg _ (funext ih)

/-! ## What must not be lost -/

/-- The event is in a live file of the last persisted metadata. -/
def InLiveFile (s : WalStore Row) (n : Nat) (e : WalEvent Row) : Prop :=
  ∃ m events, s.metadata = some m ∧ (∃ f ∈ m.liveWalFilesTracker, f.fileNumber = n) ∧
    s.files n = some events ∧ e ∈ events

/-- The event was truncated, and the persisted snapshot captures its transaction. -/
def Truncated (s : WalStore Row) (e : WalEvent Row) (post : List (WalEvent Row)) : Prop :=
  ∃ m, s.metadata = some m ∧ (fate e post).isCaptured m.persistenceSnapshotLsn = true

/-- The update in progress writes the event. -/
def BeingWritten (s : WalStore Row) (n : Nat) (e : WalEvent Row) : Prop :=
  ∃ o events f, s.ongoing = some o ∧ o.update.filesToPersist = some (events, f) ∧
    f.fileNumber = n ∧ e ∈ events

/-- No pushed event is lost, and no flag keeps the handler from trying again. -/
structure LosesNothing (h : WalHandler Row) : Prop where
  events : ∀ pre n e post, h.store.log = pre ++ (n, e) :: post →
    InLiveFile h.store n e ∨ Truncated h.store e (post.map (·.2)) ∨
      e ∈ h.store.manager.inMemBuf ∨ (h.taskRunning = true ∧ BeingWritten h.store n e)
  attempts : h.walPersistOngoing = true → h.taskRunning = true

/-- Whether an attempt of the running process has failed, after one more event. -/
def failedAfter (failed : Bool) : WalHandlerEvent Row → Bool
  | .persistFailed => true
  | .store .crash => false
  | .store _ => failed

/-- An attempt has failed since the process started. -/
def attemptFailed (events : List (WalHandlerEvent Row)) : Bool :=
  events.foldl failedAfter false

/-! ## Steps -/

variable {b : Build} {h h' : WalHandler Row}

@[simp] theorem handled_store (h : WalHandler Row) (store : WalStore Row) (a : WalAction Row) :
    (h.handled store a).store = store := by
  cases a <;> rfl

/-- What each event requires and does. -/
inductive Step (b : Build) (h : WalHandler Row) : WalHandlerEvent Row → WalHandler Row → Prop where
  | store {a : WalAction Row} {store : WalStore Row} (hallows : h.allows a = true)
      (hstore : WalStore.Step b h.store a store) : Step b h (.store a) (h.handled store a)
  | ignored (hongoing : h.walPersistOngoing = true) : Step b h (.store .prepare) h
  | persistFailed (hrunning : h.taskRunning = true) :
      Step b h .persistFailed { h with taskRunning := false }

theorem Step_of_next {e : WalHandlerEvent Row} (hnext : h.next b e = some h') : Step b h e h' := by
  cases e with
  | persistFailed =>
    simp only [next] at hnext
    split at hnext
    · rename_i hrunning
      cases hnext
      exact .persistFailed hrunning
    · cases hnext
  | store a =>
    simp only [next] at hnext
    split at hnext
    · rename_i hallows
      obtain ⟨store, hstore, rfl⟩ := Option.map_eq_some_iff.mp hnext
      exact .store hallows (WalStore.Step_of_next hstore)
    · rename_i hallows
      split at hnext
      · cases hnext
        exact .ignored (by simpa [allows] using hallows)
      · cases hnext

theorem ingestEvents_of_allows {a : WalAction Row} (hallows : h.allows a = true) :
    WalStore.ingestEvents h.store a = true := by
  cases a with
  | push e => exact hallows
  | _ => rfl

/-! ## Events that an update takes -/

/-- The log of an update in progress extends the durable one, and only in the next file. -/
theorem ongoing_extends {s : WalStore Row} (hdisk : s.DiskInv) {o : OngoingUpdate Row}
    (ho : s.ongoing = some o) :
    ∃ ext, o.log = s.durableLog ++ ext ∧
      ∀ p ∈ ext, p.1 = (WalStore.recoveredManager s.metadata : WalManager Row).currFileNumber := by
  have hstage := (hdisk.updating o ho).stage
  cases hst : o.stage with
  | persistNewWalFile =>
    rw [hst] at hstage
    exact hstage.extends_durable
  | persistMetadata =>
    rw [hst] at hstage
    exact hstage.1.extends_durable
  | deleteFiles remaining =>
    rw [hst] at hstage
    exact ⟨[], by rw [hstage.2.1, List.append_nil], by simp⟩

/-- What the log of an update in progress has beyond the metadata on disk is written by
the update. -/
def TakesAll (s : WalStore Row) : Prop :=
  ∀ o, s.ongoing = some o → ∀ p ∈ o.log,
    p.1 < (WalStore.recoveredManager s.metadata : WalManager Row).currFileNumber ∨
      ∃ events f, o.update.filesToPersist = some (events, f) ∧ f.fileNumber = p.1 ∧ p.2 ∈ events

theorem TakesAll.step {s s' : WalStore Row} {a : WalAction Row} (htakes : TakesAll s)
    (hdisk : s.DiskInv) (hstep : WalStore.Step b s a s') : TakesAll s' := by
  cases hstep with
  | push hpush hnew => exact htakes
  | icebergSnapshot hle => exact htakes
  | prepare hidle hprep =>
    have hspec := WalManager.preparePersistentUpdate_eq_ok hprep
    have hi := hdisk.idle hidle
    intro o ho p hp
    simp only at ho
    split at ho
    · cases ho
      rcases Nat.lt_or_eq_of_le (hi.filed.le p hp) with hlt | heq
      · exact .inl (hi.curr ▸ hlt)
      · -- the event is in the buffer, which becomes the new file
        have hbuf : p.2 ∈ s.manager.inMemBuf := by
          rw [hi.filed.buffer]
          exact mem_contents.mpr (by rw [← heq]; exact hp)
        refine .inr ⟨s.manager.inMemBuf,
          ⟨s.manager.currFileNumber, s.manager.highestCompletionLsn⟩, ?_, heq.symm, hbuf⟩
        rw [hspec.filesToPersist]
        unfold WalManager.extractNextPersistenceFile
        rw [if_neg]
        intro hempty
        rw [List.isEmpty_iff.mp hempty] at hbuf
        cases hbuf
    · cases ho
  | persistNewWalFile hon =>
    have hold := htakes _ hon
    rintro o ⟨⟩
    exact hold
  | persistMetadata hon =>
    rintro o ⟨⟩ p hp
    have hu := hdisk.updating _ hon
    exact .inl (Nat.lt_of_lt_of_eq (hu.filed.base_lt p hp) hu.curr.symm)
  | deleteFile hon hmem =>
    have hold := htakes _ hon
    rintro o ⟨⟩
    exact hold
  | complete hon hcomplete =>
    rintro o ⟨⟩
  | crash =>
    rintro o ⟨⟩

/-- An event of a reachable store is in the buffer, in the update in progress, in a live
file or in a truncated one. -/
theorem covered_or_beingWritten {s : WalStore Row} (hdisk : s.DiskInv) (htrack : s.TrackInv)
    (htakes : TakesAll s) {pre post : WalLog Row} {n : Nat} {e : WalEvent Row}
    (hlog : s.log = pre ++ (n, e) :: post) :
    InLiveFile s n e ∨ Truncated s e (post.map (·.2)) ∨ e ∈ s.manager.inMemBuf ∨
      BeingWritten s n e := by
  have hmem : (n, e) ∈ s.log := by
    rw [hlog]
    exact List.mem_append_right _ List.mem_cons_self
  -- an event of the durable log is in a live file or in a truncated one
  have hdurable : ∀ post' ext, post = post' ++ ext → s.durableLog = pre ++ (n, e) :: post' →
      InLiveFile s n e ∨ Truncated s e (post.map (·.2)) := by
    rintro post' ext rfl hdurable
    have hin : (n, e) ∈ s.durableLog := by
      rw [hdurable]
      exact List.mem_append_right _ List.mem_cons_self
    cases hm : s.metadata with
    | none =>
      rw [hdisk.durableLog_eq_nil hm] at hin
      cases hin
    | some m =>
      by_cases hlive : ∃ f ∈ m.liveWalFilesTracker, f.fileNumber = n
      · obtain ⟨f, hf, rfl⟩ := hlive
        have hread := hdisk.durable.readable f (by rw [hm]; exact hf)
        exact .inl ⟨m, _, hm, ⟨f, hf, rfl⟩, hread, mem_contents.mpr hin⟩
      · push Not at hlive
        have hcap := ((htrack.durable m hm).1).captured pre n e post' hdurable hlive
        refine .inr ⟨m, hm, ?_⟩
        rw [List.map_append, fate_append_of_isCaptured hcap]
        exact hcap
  cases ho : s.ongoing with
  | none =>
    have hi := hdisk.idle ho
    by_cases hn : n = s.manager.currFileNumber
    · subst hn
      right; right; left
      rw [hi.filed.buffer]
      exact mem_contents.mpr hmem
    · obtain ⟨post', ext, hpost, hbase⟩ := hi.filed.split hlog hn
      rcases hdurable post' ext hpost hbase with hlive | htrunc
      · exact .inl hlive
      · exact .inr (.inl htrunc)
  | some o =>
    have hu := hdisk.updating o ho
    by_cases hn : n = s.manager.currFileNumber
    · subst hn
      right; right; left
      rw [hu.filed.buffer]
      exact mem_contents.mpr hmem
    · obtain ⟨post', ext, rfl, hbase⟩ := hu.filed.split hlog hn
      have hin : (n, e) ∈ o.log := by
        rw [hbase]
        exact List.mem_append_right _ List.mem_cons_self
      rcases htakes o ho _ hin with hlt | ⟨events, f, hf, hfn, he⟩
      · obtain ⟨ext', hext', hcurr⟩ := ongoing_extends hdisk ho
        rw [hext'] at hbase
        rcases append_split hbase with ⟨post'', hdur, rfl⟩ | ⟨pre', -, hext''⟩
        · rcases hdurable post'' (ext' ++ ext) (by simp) hdur with hlive | htrunc
          · exact .inl hlive
          · exact .inr (.inl htrunc)
        · have := hcurr (n, e) (by rw [hext'']; exact List.mem_append_right _ List.mem_cons_self)
          simp only at this
          omega
      · exact .inr (.inr (.inr ⟨o, events, f, ho, hf, hfn, he⟩))

/-! ## Runs -/

/-- The handler's flags agree with the task unless an attempt has failed. Then the flag
stays set with no task behind it. -/
structure HandlerInv (h : WalHandler Row) (failed : Bool) : Prop where
  disk : h.store.DiskInv
  track : h.store.TrackInv
  takes : TakesAll h.store
  stuck : failed = true → h.walPersistOngoing = true ∧ h.taskRunning = false
  synced : failed = false →
    h.walPersistOngoing = h.store.ongoing.isSome ∧ h.taskRunning = h.store.ongoing.isSome

theorem HandlerInv_init : HandlerInv (init : WalHandler Row) false where
  disk := WalStore.DiskInv_init
  track := WalStore.TrackInv_init
  takes := by
    intro o ho
    cases ho
  stuck := by
    intro hfailed
    cases hfailed
  synced := fun _ => ⟨rfl, rfl⟩

theorem HandlerInv.step {failed : Bool} (hinv : HandlerInv h failed) {e : WalHandlerEvent Row}
    (hstep : Step b h e h') : HandlerInv h' (failedAfter failed e) := by
  cases hstep with
  | persistFailed hrunning =>
    refine ⟨hinv.disk, hinv.track, hinv.takes, ?_, by rintro ⟨⟩⟩
    rintro -
    cases hfailed : failed with
    | true => exact ⟨(hinv.stuck hfailed).1, rfl⟩
    | false =>
      obtain ⟨hongoing, htask⟩ := hinv.synced hfailed
      exact ⟨hongoing.trans (htask.symm.trans hrunning), rfl⟩
  | ignored hongoing => exact hinv
  | store hallows hstore =>
    rename_i a store
    have hdisk := hinv.disk.step hstore
    have htrack := hinv.track.step hinv.disk (ingestEvents_of_allows hallows) hstore
    have htakes := hinv.takes.step hinv.disk hstore
    rw [← handled_store h store a] at hdisk htrack htakes
    refine ⟨hdisk, htrack, htakes, ?_, ?_⟩
    · -- once an attempt has failed, only a restart gets past the flag
      intro hfailed
      cases hstore with
      | push hpush hnew => exact hinv.stuck hfailed
      | icebergSnapshot hle => exact hinv.stuck hfailed
      | prepare hidle hprep =>
        have hflag := (hinv.stuck hfailed).1
        simp [allows, hflag] at hallows
      | persistNewWalFile hon => exact hinv.stuck hfailed
      | persistMetadata hon => exact hinv.stuck hfailed
      | deleteFile hon hmem => exact hinv.stuck hfailed
      | complete hon hcomplete =>
        have hrunning : h.taskRunning = true := hallows
        rw [(hinv.stuck hfailed).2] at hrunning
        cases hrunning
      | crash => cases hfailed
    · intro hfailed
      cases hstore with
      | push hpush hnew => exact hinv.synced hfailed
      | icebergSnapshot hle => exact hinv.synced hfailed
      | prepare hidle hprep => exact ⟨rfl, rfl⟩
      | persistNewWalFile hon =>
        have hold := hinv.synced hfailed
        rw [hon] at hold
        exact hold
      | persistMetadata hon =>
        have hold := hinv.synced hfailed
        rw [hon] at hold
        exact hold
      | deleteFile hon hmem =>
        have hold := hinv.synced hfailed
        rw [hon] at hold
        exact hold
      | complete hon hcomplete => exact ⟨rfl, rfl⟩
      | crash => exact ⟨rfl, rfl⟩

theorem HandlerInv_run (events : List (WalHandlerEvent Row)) (hrun : run b init events = some h) :
    HandlerInv h (attemptFailed events) := by
  induction events using List.reverseRecOn generalizing h with
  | nil =>
    cases hrun
    exact HandlerInv_init
  | append_singleton events e ih =>
    rw [run_append] at hrun
    obtain ⟨h₀, hrun₀, hnext⟩ := Option.bind_eq_some_iff.mp hrun
    have hstep := (ih hrun₀).step (Step_of_next hnext)
    unfold attemptFailed
    rw [List.foldl_append]
    exact hstep

/-- After any run, every pushed event is still covered and the handler can try again if
and only if no attempt of the running process has failed. -/
theorem loses_nothing_iff_no_failure (events : List (WalHandlerEvent Row))
    (hrun : run b init events = some h) : LosesNothing h ↔ attemptFailed events = false := by
  have hinv := HandlerInv_run events hrun
  constructor
  · intro hkeeps
    cases hfailed : attemptFailed events with
    | false => rfl
    | true =>
      obtain ⟨hongoing, htask⟩ := hinv.stuck hfailed
      rw [hkeeps.attempts hongoing] at htask
      cases htask
  · intro hfailed
    obtain ⟨hongoing, htask⟩ := hinv.synced hfailed
    constructor
    case events =>
        intro pre n e post hlog
        rcases covered_or_beingWritten hinv.disk hinv.track hinv.takes hlog with
          hlive | htrunc | hbuf | hwriting
        · exact .inl hlive
        · exact .inr (.inl htrunc)
        · exact .inr (.inr (.inl hbuf))
        · obtain ⟨o, events, f, ho, hrest⟩ := hwriting
          refine .inr (.inr (.inr ⟨?_, o, events, f, ho, hrest⟩))
          rw [htask, ho]
          rfl
    case attempts =>
        intro hflag
        rw [htask, ← hongoing, hflag]

/-- A row is pushed and persisted, and another one is in the update in progress. -/
def persistingRun : List (WalHandlerEvent Nat) :=
  [.store (.push (.append 1 none 10 false)), .store .prepare, .store .persistNewWalFile,
    .store .persistMetadata, .store .complete, .store (.push (.append 2 none 11 false)),
    .store .prepare]

theorem loses_nothing_iff_no_failure_run :
    ∃ h : WalHandler Nat, run .debug init persistingRun = some h ∧ LosesNothing h := by
  have happly : ∀ h : WalHandler Nat, run .debug init persistingRun = some h → LosesNothing h :=
    fun h hrun => (loses_nothing_iff_no_failure persistingRun hrun).mpr rfl
  exact ⟨_, rfl, happly _ rfl⟩

/-- The attempt fails before its first write. The second row is neither on disk nor in
the buffer, no task runs, and the next tick is ignored. -/
theorem failed_attempt_loses_row :
    ∃ h : WalHandler Nat, run .debug init (persistingRun ++ [.persistFailed]) = some h ∧
      (1, .append 2 none 11) ∈ h.store.log ∧ h.store.files 1 = none ∧
      h.store.manager.inMemBuf = [] ∧ h.taskRunning = false ∧
      h.next .debug (.store .prepare) = some h ∧ ¬ LosesNothing h := by
  refine ⟨_, rfl, by decide, rfl, rfl, rfl, rfl, ?_⟩
  intro hkeeps
  have hrunning := hkeeps.attempts rfl
  cases hrunning

end WalHandler
end Moonlink
