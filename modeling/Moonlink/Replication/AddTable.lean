-- SUMMARY: Re-adding a table after a restart, with the WAL replay and the replication loop writing to one queue.
import Moonlink.Replication.FanOutSpec
import Moonlink.Table.Recovery

/-!
# Adding a table during recovery

The replication loop runs while a table is added again after a restart. `add_table`
registers the table with the sink and the stream, waits for that, adds the table to
the publication, and only then replays the WAL into the queue of the table. From the
registration on the loop sends source events to the same queue. The fetch of a changed
schema is left out.
-/

namespace Moonlink.FanOut

open Lib

variable {Row : Type}

def SinkEvent.table? : SinkEvent Row → Option (TableEvent Row)
  | .table e => some e
  | .alterTable _ => none

namespace UncachedSink

/-- The message is a row of the table, or the end of a transaction that touched it. -/
def concerns (u : UncachedSink) (t : TableId) : CdcEvent Row → Bool
  | .insert t' _ _ | .update t' _ _ _ | .delete t' _ _ => t' == t
  | .commit _ => (u.transaction none).touchedTables.contains t
  | .streamCommit x _ | .streamAbort x _ => (u.transaction (some x)).touchedTables.contains t
  | _ => false

variable {u u' : UncachedSink} {t : TableId} {c : Sender} {e : CdcEvent Row} {sent : Sent Row} {r : Option TableId}

theorem filterMap_channel_eq_nil_iff (h : ∀ p ∈ sent, ∃ e, p.2 = SinkEvent.table e) :
    (channel sent c).filterMap SinkEvent.table? = [] ↔ ¬ ∃ p ∈ sent, p.1 = c := by
  rw [List.filterMap_eq_nil_iff]
  constructor
  · rintro hnone ⟨p, hp, rfl⟩
    obtain ⟨e, he⟩ := h p hp
    have hchannel := hnone p.2 (List.mem_map_of_mem (List.mem_filter.mpr ⟨hp, beq_self_eq_true _⟩))
    rw [he] at hchannel
    cases hchannel
  · intro hnot a ha
    obtain ⟨p, hp, rfl⟩ := List.mem_map.mp ha
    obtain ⟨hmem, heq⟩ := List.mem_filter.mp hp
    exact absurd ⟨p, hmem, beq_iff_eq.mp heq⟩ hnot

theorem sendEnd_eq_nil_iff (hown : ∀ t', u.eventSenders.lookup t' = some c → t' = t) (x : Option XactId)
    (e : TableEvent Row) : (channel (u.sendEnd x e) c).filterMap SinkEvent.table? = [] ↔
      ¬ (u.eventSenders.lookup t = some c ∧ (u.transaction x).touchedTables.contains t = true) := by
  unfold sendEnd Sink.sendEnd
  rw [filterMap_channel_eq_nil_iff]
  · refine not_congr ⟨?_, fun ⟨hlookup, htouched⟩ => ?_⟩
    · rintro ⟨p, hp, rfl⟩
      obtain ⟨c, hc, rfl⟩ := List.mem_map.mp hp
      obtain ⟨t', ht', hlookup⟩ := List.mem_filterMap.mp hc
      cases hown t' hlookup
      exact ⟨hlookup, List.contains_iff_mem.mpr ht'⟩
    · exact ⟨_, List.mem_map_of_mem (List.mem_filterMap.mpr ⟨t, List.contains_iff_mem.mp htouched, hlookup⟩), rfl⟩
  · intro p hp
    obtain ⟨c, -, rfl⟩ := List.mem_map.mp hp
    exact ⟨e, rfl⟩

theorem sendRow_eq_nil_iff (hown : ∀ t', u.eventSenders.lookup t' = some c → t' = t) {t' : TableId}
    {x : Option XactId} {events : Nat → Except SinkPanic (List (TableEvent Row))}
    (h : u.sendRow t' x events = .ok (u', sent, r)) (hevents : ∀ lsn es, events lsn = .ok es → es ≠ []) :
    u'.eventSenders = u.eventSenders ∧ ((channel sent c).filterMap SinkEvent.table? = [] ↔
      ¬ (u.eventSenders.lookup t = some c ∧ (t' == t) = true)) := by
  unfold sendRow at h
  cases hlookup : u.eventSenders.lookup t' with
  | none =>
    simp only [hlookup] at h
    cases h
    refine ⟨rfl, iff_of_true rfl ?_⟩
    rintro ⟨hsome, heq⟩
    rw [beq_iff_eq.mp heq, hsome] at hlookup
    cases hlookup
  | some c' =>
    simp only [hlookup] at h
    obtain ⟨es, hes, heq⟩ := bind_eq_ok.mp h
    cases heq
    obtain ⟨e, rest, rfl⟩ := List.exists_cons_of_ne_nil (hevents _ _ hes)
    refine ⟨rfl, ?_⟩
    rw [filterMap_channel_eq_nil_iff]
    · refine not_congr ⟨?_, fun ⟨hsome, heq⟩ => ?_⟩
      · rintro ⟨p, hp, rfl⟩
        obtain ⟨_, -, rfl⟩ := List.mem_map.mp hp
        cases hown t' hlookup
        exact ⟨hlookup, beq_self_eq_true _⟩
      · rw [beq_iff_eq.mp heq, hsome] at hlookup
        cases hlookup
        exact ⟨_, List.mem_cons_self, rfl⟩
    · intro p hp
      obtain ⟨e', -, rfl⟩ := List.mem_map.mp hp
      exact ⟨e', rfl⟩

/-- A registered table gets an event exactly if the message concerns it. -/
theorem events_eq_nil_iff (hown : ∀ t', u.eventSenders.lookup t' = some c → t' = t)
    (h : u.processCdcEvent e = .ok (u', sent, r)) : u'.eventSenders = u.eventSenders ∧
      ((channel sent c).filterMap SinkEvent.table? = [] ↔
        ¬ (u.eventSenders.lookup t = some c ∧ u.concerns t e = true)) := by
  have hnone : (channel ([] : Sent Row) c).filterMap SinkEvent.table? = [] ↔
      ¬ (u.eventSenders.lookup t = some c ∧ false = true) := iff_of_true rfl (by simp)
  cases e with
  | insert t' row x =>
    have hsend : u.sendRow t' x (fun lsn => .ok [.append row x lsn false]) = .ok (u', sent, r) := h
    refine sendRow_eq_nil_iff hown hsend fun lsn es hes => ?_
    cases hes
    exact List.cons_ne_nil _ _
  | update t' oldRow newRow x =>
    refine sendRow_eq_nil_iff hown h fun lsn es hes => ?_
    cases oldRow with
    | none => cases hes
    | some oldRow =>
      cases hes
      exact List.cons_ne_nil _ _
  | delete t' row x =>
    have hsend : u.sendRow t' x (fun lsn => .ok [.delete row lsn x false false]) = .ok (u', sent, r) := h
    refine sendRow_eq_nil_iff hown hsend fun lsn es hes => ?_
    cases hes
    exact List.cons_ne_nil _ _
  | commit endLsn =>
    obtain ⟨_, -, heq⟩ := bind_eq_ok.mp h
    cases heq
    exact ⟨rfl, sendEnd_eq_nil_iff hown none _⟩
  | streamCommit x endLsn =>
    obtain ⟨_, -, heq⟩ := bind_eq_ok.mp h
    cases heq
    exact ⟨rfl, sendEnd_eq_nil_iff hown (some x) _⟩
  | streamAbort x subXactId =>
    cases h
    exact ⟨rfl, sendEnd_eq_nil_iff hown (some x) _⟩
  | begin _ | primaryKeepAlive _ =>
    obtain ⟨_, -, heq⟩ := bind_eq_ok.mp h
    cases heq
    exact ⟨rfl, hnone⟩
  | relation _ _ | type | streamStart _ | streamStop =>
    cases h
    exact ⟨rfl, hnone⟩

end UncachedSink
end Moonlink.FanOut

namespace Moonlink

open Lib FanOut

inductive EventOrigin where
  | replay
  | live
  deriving DecidableEq, Repr

structure QueuedEvent (Row : Type) where
  origin : EventOrigin
  event : TableEvent Row

/-- How far `add_table` has got. -/
inductive AddTableStage where
  | requested
  | registered
  /-- The table is in the publication; the replay runs. -/
  | published
  deriving DecidableEq, Repr

/-- The table that is added, with the channel of its queue. -/
structure AddedTable where
  tableId : TableId
  eventSender : Sender
  columns : List ColumnInfo

/-- The queue of a table that is being recovered, and its two producers. -/
structure RecoveringTable (Row : Type) where
  sink : FanOut.Sink
  /-- The tables whose row messages the stream decodes. -/
  tableSchemas : List TableId
  stage : AddTableStage
  /-- What the replay still has to send. -/
  toReplay : List (TableEvent Row)
  queue : List (QueuedEvent Row)

inductive AddTableAction (Row : Type) where
  /-- The loop handles the next message of the source. -/
  | source (e : CdcEvent Row)
  /-- The loop handles the `AddTable` command. -/
  | register
  | addTableToPublication
  /-- The replay sends its next event. -/
  | replay

namespace RecoveringTable

variable {Row : Type} {t : AddedTable} {s s' : RecoveringTable Row}

/-- What the sink sends on the channel of the table. Rows of a table without a schema are skipped. -/
def processSource (t : AddedTable) (s : RecoveringTable Row) (e : CdcEvent Row) :
    Except SinkPanic (FanOut.Sink × List (TableEvent Row)) :=
  if e.row?.all (s.tableSchemas.contains ·.1) then do
    let (sink, sent, _) ← s.sink.processCdcEvent e
    return (sink, (channel sent t.eventSender).filterMap SinkEvent.table?)
  else .ok (s.sink, [])

/-- One step of either producer. There is no next state if the step is not possible or
panics. -/
def next (t : AddedTable) (s : RecoveringTable Row) : AddTableAction Row → Option (RecoveringTable Row)
  | .source e =>
    match s.processSource t e with
    | .ok (sink, events) => some { s with sink, queue := s.queue ++ events.map (⟨.live, ·⟩) }
    | .error _ => none
  | .register =>
    if s.stage = .requested then
      some { s with
        sink := s.sink.addTable t.tableId t.eventSender t.columns
        tableSchemas := s.tableSchemas ++ [t.tableId]
        stage := .registered }
    else none
  | .addTableToPublication =>
    if s.stage = .registered then some { s with stage := .published } else none
  | .replay =>
    match s.stage, s.toReplay with
    | .published, e :: rest =>
      some { s with toReplay := rest, queue := s.queue ++ [⟨.replay, e⟩] }
    | _, _ => none

def run (t : AddedTable) (s : RecoveringTable Row) :
    List (AddTableAction Row) → Option (RecoveringTable Row)
  | [] => some s
  | a :: rest => (s.next t a).bind fun s' => run t s' rest

/-- Before the table is registered. The sink may be in any state, as other tables may be
replicated already, but none of them has the channel. -/
structure Initial (t : AddedTable) (replayed : List (TableEvent Row)) (s : RecoveringTable Row) : Prop where
  unregistered : s.sink.eventSenders.lookup t.tableId = none
  newSender : ∀ t', s.sink.eventSenders.lookup t' ≠ some t.eventSender
  cache : s.sink.CacheInv
  stage : s.stage = .requested
  toReplay : s.toReplay = replayed
  queue : s.queue = []

/-- What the queue holds and what the replay will add. -/
def allEvents (s : RecoveringTable Row) : List (QueuedEvent Row) :=
  s.queue ++ s.toReplay.map (QueuedEvent.mk .replay)

/-- Replayed events, sent or still to be sent, come before all live events. -/
def ReplayFirst (s : RecoveringTable Row) : Prop :=
  s.allEvents.Pairwise fun p q => p.origin = .live → q.origin = .live

/-- The table is registered, and the message is a row of it that is decoded, or the end of a
transaction that touched it. -/
def sendsLive (t : AddedTable) (s : RecoveringTable Row) (e : CdcEvent Row) : Bool :=
  e.row?.all (s.tableSchemas.contains ·.1) && s.sink.eventSenders.lookup t.tableId == some t.eventSender &&
    s.sink.uncached.concerns t.tableId e

/-- While the table is registered and the replay has not sent its last event, the step
delivers nothing from the source to the table. -/
def keepsOrder (t : AddedTable) (s : RecoveringTable Row) : AddTableAction Row → Bool
  | .source e => s.stage == .requested || s.toReplay.isEmpty || !s.sendsLive t e
  | _ => true

/-- All steps of the run do. -/
def allKeepOrder (t : AddedTable) (s : RecoveringTable Row) : List (AddTableAction Row) → Bool
  | [] => true
  | a :: rest => s.keepsOrder t a && (s.next t a).all fun s' => allKeepOrder t s' rest

/-! ## One step -/

/-- The table is registered only by its command. -/
structure RegistrationInv (t : AddedTable) (s : RecoveringTable Row) : Prop where
  unregistered : s.stage = .requested → s.sink.eventSenders.lookup t.tableId = none
  own : ∀ t', s.sink.eventSenders.lookup t' = some t.eventSender → t' = t.tableId
  cache : s.sink.CacheInv

theorem processSource_spec {e : CdcEvent Row} {sink : FanOut.Sink} {events : List (TableEvent Row)}
    (hreg : RegistrationInv t s) (h : s.processSource t e = .ok (sink, events)) :
    sink.CacheInv ∧ sink.eventSenders = s.sink.eventSenders ∧ (events = [] ↔ s.sendsLive t e = false) := by
  unfold processSource at h
  unfold sendsLive
  split at h
  · rename_i hdecoded
    obtain ⟨⟨sink', sent, r⟩, hsent, heq⟩ := bind_eq_ok.mp h
    cases heq
    have hagree := hreg.cache.processCdcEvent e
    have huncached : s.sink.uncached.processCdcEvent e = .ok (sink.uncached, sent, r) := by
      rw [hagree.eq, hsent]
      rfl
    obtain ⟨hsenders, hnil⟩ := UncachedSink.events_eq_nil_iff hreg.own huncached
    refine ⟨hagree.inv _ hsent, hsenders, ?_⟩
    rw [hnil, hdecoded]
    simp [FanOut.Sink.uncached]
  · rename_i hskipped
    cases h
    exact ⟨hreg.cache, rfl, iff_of_true rfl (by rw [Bool.eq_false_iff.mpr hskipped]; rfl)⟩

variable {a : AddTableAction Row}

theorem RegistrationInv.step (h : RegistrationInv t s)
    (hnext : s.next t a = some s') : RegistrationInv t s' := by
  cases a with
  | source e =>
    simp only [next] at hnext
    split at hnext
    · rename_i sink events hsource
      cases hnext
      obtain ⟨hcache, hsenders, -⟩ := processSource_spec h hsource
      exact ⟨fun hstage => hsenders ▸ h.unregistered hstage, hsenders ▸ h.own, hcache⟩
    · cases hnext
  | register =>
    simp only [next] at hnext
    split at hnext
    · rename_i hstage
      cases hnext
      refine ⟨fun h => (by cases h), fun t' ht' => ?_, ?_⟩
      · simp only [FanOut.Sink.addTable, AssocMap.lookup_insert_ite] at ht'
        split at ht'
        · assumption
        · exact h.own t' ht'
      · have hadds : FanOut.Sink.AddsNew s.sink.eventSenders
            (.addTable t.tableId t.eventSender t.columns : SinkInput Row) := h.unregistered hstage
        exact (h.cache.next hadds).inv _ rfl
    · cases hnext
  | addTableToPublication =>
    simp only [next] at hnext
    split at hnext
    · cases hnext
      exact ⟨fun h => (by cases h), h.own, h.cache⟩
    · cases hnext
  | replay =>
    simp only [next] at hnext
    split at hnext
    · rename_i hstage htoReplay
      cases hnext
      refine ⟨?_, h.own, h.cache⟩
      intro hrequested
      rw [hstage] at hrequested
      cases hrequested
    · cases hnext

/-- What a step does to the queue: the replay only moves on, and the source adds live
events in front of what is still to be replayed. -/
theorem next_cases (hnext : s.next t a = some s') :
    s'.allEvents = s.allEvents ∨ ∃ e sink events, a = .source e ∧
      s.processSource t e = .ok (sink, events) ∧
      s'.allEvents = s.queue ++ (events.map (QueuedEvent.mk .live) ++
        s.toReplay.map (QueuedEvent.mk .replay)) := by
  cases a with
  | source e =>
    simp only [next] at hnext
    split at hnext
    · rename_i sink events hsource
      cases hnext
      exact .inr ⟨e, sink, events, rfl, hsource, List.append_assoc _ _ _⟩
    · cases hnext
  | register =>
    simp only [next] at hnext
    split at hnext
    · cases hnext
      exact .inl rfl
    · cases hnext
  | addTableToPublication =>
    simp only [next] at hnext
    split at hnext
    · cases hnext
      exact .inl rfl
    · cases hnext
  | replay =>
    simp only [next] at hnext
    split at hnext
    · rename_i e rest hstage htoReplay
      cases hnext
      refine .inl ?_
      simp [allEvents, htoReplay]
    · cases hnext

theorem ReplayFirst_of_initial {replayed : List (TableEvent Row)} (h : Initial t replayed s) :
    ReplayFirst s := by
  unfold ReplayFirst allEvents
  rw [h.queue, List.nil_append, List.pairwise_map]
  exact List.pairwise_of_forall nofun

theorem ReplayFirst.step (h : ReplayFirst s) (hreg : RegistrationInv t s)
    (hkeeps : s.keepsOrder t a = true) (hnext : s.next t a = some s') : ReplayFirst s' := by
  unfold ReplayFirst at h ⊢
  rcases next_cases hnext with hsame | ⟨e, sink, events, rfl, hsource, hall⟩
  · rw [hsame]
    exact h
  · rw [hall]
    by_cases hnil : events = []
    · subst hnil
      exact h
    · have hdone : s.toReplay = [] := by
        obtain ⟨-, -, hlive⟩ := processSource_spec hreg hsource
        simp only [keepsOrder, Bool.or_eq_true, beq_iff_eq, List.isEmpty_iff, Bool.not_eq_true'] at hkeeps
        rcases hkeeps with (hstage | hdone) | hnone
        · exact absurd (hlive.mpr (by simp [sendsLive, hreg.unregistered hstage])) hnil
        · exact hdone
        · exact absurd (hlive.mpr hnone) hnil
      have hlive : ∀ q ∈ events.map (QueuedEvent.mk .live), q.origin = .live := by simp
      have hqueue := (List.pairwise_append.mp h).1
      rw [hdone, List.map_nil, List.append_nil, List.pairwise_append]
      exact ⟨hqueue, List.pairwise_map.mpr (List.pairwise_of_forall fun _ _ _ => rfl),
        fun p _ q hq _ => hlive q hq⟩

/-- A live event that overtakes the replay breaks the order. -/
theorem not_ReplayFirst_of_step (hreg : RegistrationInv t s) (hkeeps : s.keepsOrder t a = false)
    (hnext : s.next t a = some s') : ¬ ReplayFirst s' := by
  cases a with
  | source e =>
    simp only [keepsOrder, Bool.or_eq_false_iff, List.isEmpty_eq_false_iff, Bool.not_eq_false']
      at hkeeps
    obtain ⟨⟨-, hreplay⟩, hlive⟩ := hkeeps
    simp only [next] at hnext
    split at hnext
    rotate_left
    · cases hnext
    rename_i sink events hsource
    have hnil : events ≠ [] := by
      rw [Ne, (processSource_spec hreg hsource).2.2, hlive]
      decide
    cases hnext
    obtain ⟨l, lives, rfl⟩ := List.exists_cons_of_ne_nil hnil
    obtain ⟨r, replays, hr⟩ := List.exists_cons_of_ne_nil hreplay
    intro h
    unfold ReplayFirst allEvents at h
    have hcross := (List.pairwise_append.mp h).2.2 ⟨.live, l⟩ (by simp) ⟨.replay, r⟩ (by simp [hr])
    cases hcross rfl
  | register => cases hkeeps
  | addTableToPublication => cases hkeeps
  | replay => cases hkeeps

/-- Once broken, the order stays broken. -/
theorem ReplayFirst_of_step (hnext : s.next t a = some s')
    (h : ReplayFirst s') : ReplayFirst s := by
  unfold ReplayFirst at h ⊢
  rcases next_cases hnext with hsame | ⟨e, sink, events, rfl, hsource, hall⟩
  · rw [← hsame]
    exact h
  · rw [hall] at h
    refine h.sublist ?_
    exact (List.Sublist.refl _).append (List.sublist_append_right _ _)

/-! ## Runs -/

theorem ReplayFirst_of_run {actions : List (AddTableAction Row)} (hrun : s.run t actions = some s')
    (h : ReplayFirst s') : ReplayFirst s := by
  induction actions generalizing s with
  | nil =>
    cases hrun
    exact h
  | cons a rest ih =>
    obtain ⟨s₁, hnext, hrest⟩ := Option.bind_eq_some_iff.mp hrun
    exact ReplayFirst_of_step hnext (ih hrest)

theorem ReplayFirst_run_iff {actions : List (AddTableAction Row)} (hreg : RegistrationInv t s)
    (hfirst : ReplayFirst s) (hrun : s.run t actions = some s') :
    ReplayFirst s' ↔ s.allKeepOrder t actions = true := by
  induction actions generalizing s with
  | nil =>
    cases hrun
    exact ⟨fun _ => rfl, fun _ => hfirst⟩
  | cons a rest ih =>
    obtain ⟨s₁, hnext, hrest⟩ := Option.bind_eq_some_iff.mp hrun
    simp only [allKeepOrder, hnext, Option.all_some, Bool.and_eq_true]
    constructor
    · intro h
      have hkeeps : s.keepsOrder t a = true := by
        by_contra hnot
        exact not_ReplayFirst_of_step hreg (Bool.not_eq_true _ ▸ hnot) hnext (ReplayFirst_of_run hrest h)
      exact ⟨hkeeps, (ih (hreg.step hnext) (hfirst.step hreg hkeeps hnext) hrest).mp h⟩
    · rintro ⟨hkeeps, hall⟩
      exact (ih (hreg.step hnext) (hfirst.step hreg hkeeps hnext) hrest).mpr hall

/-- For each interleaving of the loop with `add_table`, over the replay of any store. -/
theorem replay_first_iff {b : Build} {store : WalStore Row}
    (hinit : Initial t (store.replay b).sent s) {actions : List (AddTableAction Row)}
    (hrun : s.run t actions = some s') : ReplayFirst s' ↔ s.allKeepOrder t actions = true :=
  ReplayFirst_run_iff ⟨fun _ => hinit.unregistered, fun t' h => absurd h (hinit.newSender t'), hinit.cache⟩ (ReplayFirst_of_initial hinit) hrun

/-- What the replay of `TableHandler.loggedRun none` sends. -/
def loggedEvents : List (TableEvent Nat) :=
  [.append 1 none 10 true, .commit 20 none true, .finishRecovery 20]

def firstTable : AddedTable := ⟨1, 0, []⟩

/-- A table with one main transaction to recover, before it is registered. -/
def beforeRegistration : RecoveringTable Nat := ⟨.new, [], .requested, loggedEvents, []⟩

theorem beforeRegistration_initial : Initial firstTable loggedEvents beforeRegistration :=
  ⟨rfl, nofun, .new, rfl, rfl, rfl⟩

/-- The source sends a transaction after the replay. -/
def quietActions : List (AddTableAction Nat) :=
  [.register, .source (.begin 30), .addTableToPublication, .replay, .replay, .replay,
    .source (.insert 1 2 none), .source (.commit 35)]

theorem replay_first_iff_run :
    ∃ store s', WalStore.run .release WalStore.ingestEvents .init (TableHandler.loggedRun none) = some store ∧
      (store.replay .release).sent = loggedEvents ∧
      beforeRegistration.run firstTable quietActions = some s' ∧ ReplayFirst s' ∧
      s'.queue = loggedEvents.map (QueuedEvent.mk .replay) ++
        [⟨.live, .append 2 none 30 false⟩, ⟨.live, .commit 35 none false⟩] := by
  have happly : ∀ store : WalStore Nat, (store.replay .release).sent = loggedEvents →
      ∀ s', beforeRegistration.run firstTable quietActions = some s' → ReplayFirst s' := by
    intro store hsent s' hrun
    have hinit := beforeRegistration_initial
    rw [← hsent] at hinit
    exact (replay_first_iff hinit hrun).mpr (by decide)
  obtain ⟨store, hstore, hsent⟩ : ∃ store : WalStore Nat,
      WalStore.run .release WalStore.ingestEvents .init (TableHandler.loggedRun none) = some store ∧
        (store.replay .release).sent = loggedEvents := ⟨_, rfl, rfl⟩
  exact ⟨store, _, hstore, hsent, rfl, happly store hsent _ rfl, rfl⟩

/-- The row of a live transaction arrives between the row and the commit of the recovered
one, and the recovered commit closes the half-received live transaction. -/
theorem live_row_overtakes_replay :
    ∃ store s', WalStore.run .release WalStore.ingestEvents .init (TableHandler.loggedRun none) = some store ∧
      Initial firstTable (store.replay .release).sent beforeRegistration ∧
      beforeRegistration.run firstTable [.register, .addTableToPublication, .replay, .source (.begin 30),
        .source (.insert 1 2 none), .replay, .replay, .source (.commit 35)] = some s' ∧
      s'.queue = [⟨.replay, .append 1 none 10 true⟩, ⟨.live, .append 2 none 30 false⟩,
        ⟨.replay, .commit 20 none true⟩, ⟨.replay, .finishRecovery 20⟩,
        ⟨.live, .commit 35 none false⟩] ∧
      ¬ ReplayFirst s' ∧
      ∃ h', (TableHandler.restart 100 false store).run .release (s'.queue.map (.event ·.event)) = .ok h' ∧
        h'.table.applied = [⟨.main, 20, [.append 1, .append 2]⟩, ⟨.main, 35, []⟩] := by
  refine ⟨_, _, rfl, beforeRegistration_initial, rfl, rfl, ?_, _, rfl, rfl⟩
  intro h
  have hcross := List.pairwise_iff_getElem.mp h 1 2 (by decide) (by decide) (by decide)
  cases hcross rfl

end RecoveringTable
end Moonlink
