-- SUMMARY: What becomes of a REST request: it is acknowledged after its delivery, or its channel is dropped when it fails.
import Moonlink.Rest.Locking

/-!
# What becomes of a REST request

The loop sends an LSN back when it has gone through the events of a request, whether or not
they could be delivered, and panics at a commit that follows no row. A request that fails
is only logged: its response channel is dropped, by the stream at its next poll.

As long as tables stay open while their events are delivered, and files have rows, what is
acknowledged was delivered. As long as no command waits for a guard of the stream, the loop
comes back to the poll.
-/

namespace Moonlink.Rest

open Lib

variable {Schema AvroSchema Json Row : Type} {c : Converters Schema AvroSchema Json Row}

/-- The events of a task are for its table. No row is open between two files. -/
structure FileInsertTask.Ready (t : FileInsertTask Row) : Prop where
  targets : Targets t.srcTableId none t.events
  closed : t.isOpen = false → Closed none t.events

/-- A file that ends after a row leaves the events ready. -/
theorem FileInsertTask.Ready.step {t t' : FileInsertTask Row} {lsn lsn' k : Nat}
    {a : RestAction Schema AvroSchema Json Row} (h : t.Ready) (hstep : t.Step lsn k a t' lsn')
    (hcommit : a = .taskCommit k → ¬ Closed none t.events) : t'.Ready := by
  cases hstep with
  | opened hready => exact ⟨h.targets, nofun⟩
  | failed hready => exact ⟨h.targets, h.closed⟩
  | panicked hready => exact ⟨h.targets, h.closed⟩
  | row row hready =>
    refine ⟨h.targets.append_singleton rfl, fun hclosed => ?_⟩
    unfold FileInsertTask.isReading at hready
    change t.isOpen = false at hclosed
    rw [hclosed, Bool.and_false] at hready
    cases hready
  | commit hready =>
    obtain ⟨id, hid⟩ := Option.ne_none_iff_exists'.mp (hcommit rfl)
    cases h.targets.progress_eq nofun id hid
    refine ⟨h.targets.append_singleton hid, fun _ => ?_⟩
    change (t.events ++ [_]).foldl RestEvent.progress none = none
    rw [List.foldl_append]
    rfl

/-- The loop takes the step by itself: no command or request has to come for it. -/
def RestAction.isOwn : RestAction Schema AvroSchema Json Row → Bool
  | .poll | .finishRow | .acquireWrite | .finishAddTable | .processEvent _ => true
  | _ => false

namespace RestLoop

variable {s s' s₁ : RestLoop Schema AvroSchema Row} {a : RestAction Schema AvroSchema Json Row}
variable {actions earlier : List (RestAction Schema AvroSchema Json Row)}

/-- While a client waits, the table of the next event takes it, and its receiver does not go in the
middle of an upsert. -/
def Takes (sink : RestSink Row) (closes : Bool) : LoopPoint Schema AvroSchema Row → Prop
  | .processing (some _) (e :: _) _ => ∀ id ∈ e.target sink.tablesInProgress,
      sink.IsOpen id ∧ (e.tableEvents.length ≤ 1 ∨ closes = false)
  | _ => True

instance (sink : RestSink Row) (closes : Bool) :
    (loop : LoopPoint Schema AvroSchema Row) → Decidable (Takes sink closes loop)
  | .processing (some _) (e :: _) _ => inferInstanceAs (Decidable (∀ id ∈ e.target sink.tablesInProgress, _))
  | .processing (some _) [] _ | .processing none _ _ | .selecting | .writing _ | .seeding .. | .stopped | .panicked _ =>
    isTrue trivial

/-- Files end after a row, tables take the events that clients wait for, and commands that need the
lock come after a poll. -/
def Undisturbed (s : RestLoop Schema AvroSchema Row) : RestAction Schema AvroSchema Json Row → Prop
  | .command cmd => s.PolledBefore (.command cmd : RestAction Schema AvroSchema Json Row)
  | .taskCommit k => ∀ t ∈ s.pending.lookup k, ¬ Closed none t.events
  | .processEvent closes => Takes s.sink closes s.loop
  | _ => True

instance (a : RestAction Schema AvroSchema Json Row) : Decidable (s.Undisturbed a) :=
  match a with
  | .command cmd => inferInstanceAs (Decidable (s.PolledBefore (.command cmd : RestAction Schema AvroSchema Json Row)))
  | .taskCommit k => inferInstanceAs (Decidable (∀ t ∈ s.pending.lookup k, ¬ Closed none t.events))
  | .processEvent closes => inferInstanceAs (Decidable (Takes s.sink closes s.loop))
  | .poll | .pollFinished _ | .pollRequest _ | .pollClosed | .finishRow | .grantPermit | .acquireWrite
  | .finishAddTable | .taskOpen _ | .taskRow _ _ | .taskFail _ | .taskPanic _ | .closeReceiver _ => isTrue trivial

/-! ## Requests and their events -/

/-- The last LSN of events, which is sent back. -/
def lastLsn (events : List (RestEvent Row)) : Nat := events.foldl (fun lsn e => e.lsn.getD lsn) 0

/-- What is sent for events that arrive at the table `id`. -/
def sentFor (id : SrcTableId) (events : List (RestEvent Row)) : List (SrcTableId × SentEvent Row) :=
  (events.flatMap RestEvent.tableEvents).map (id, ·)

theorem sentFor_append_singleton (id : SrcTableId) (events : List (RestEvent Row)) (e : RestEvent Row) :
    sentFor id (events ++ [e]) = sentFor id events ++ e.tableEvents.map (id, ·) := by
  unfold sentFor
  rw [List.flatMap_append, List.map_append, List.flatMap_singleton]

/-- A request with these events came in a step of the run, when `before` had been sent. -/
def Came [DecidableEq Schema] (c : Converters Schema AvroSchema Json Row)
    (actions : List (RestAction Schema AvroSchema Json Row)) (tx : Option Client) (id : SrcTableId)
    (events : List (RestEvent Row)) (before : List (SrcTableId × SentEvent Row)) : Prop :=
  ∃ earlier a later drawn, ∃ s : RestLoop Schema AvroSchema Row, actions = earlier ++ a :: later ∧
    run c init earlier = some s ∧ s.Received a tx id events drawn ∧ s.sink.sent = before

/-- All events of a request of the client were delivered, and this is its last LSN. -/
def Delivered [DecidableEq Schema] (c : Converters Schema AvroSchema Json Row)
    (actions : List (RestAction Schema AvroSchema Json Row)) (s : RestLoop Schema AvroSchema Row) (client : Client)
    (lsn : Nat) : Prop :=
  ∃ id events before, Came c actions (some client) id events before ∧ before ++ sentFor id events <+: s.sink.sent ∧
    lsn = lastLsn events

variable {tx : Option Client}

theorem Came.append [DecidableEq Schema] {id : SrcTableId} {events : List (RestEvent Row)}
    {before : List (SrcTableId × SentEvent Row)} (h : Came c actions tx id events before)
    (new : List (RestAction Schema AvroSchema Json Row)) : Came c (actions ++ new) tx id events before := by
  obtain ⟨earlier, a, later, drawn, s, rfl, hrun, hreceived, hbefore⟩ := h
  exact ⟨earlier, a, later ++ new, drawn, s, by rw [List.append_assoc, List.cons_append], hrun, hreceived, hbefore⟩

theorem Delivered.append [DecidableEq Schema] {client : Client} {lsn : Nat} (h : Delivered c actions s client lsn)
    (new : List (RestAction Schema AvroSchema Json Row)) (hsent : s.sink.sent <+: s'.sink.sent) :
    Delivered c (actions ++ new) s' client lsn := by
  obtain ⟨id, events, before, hcame, hdelivered, hlsn⟩ := h
  exact ⟨id, events, before, hcame.append new, hdelivered.trans hsent, hlsn⟩

/-! ## The invariant -/

/-- What holds at each point of the loop. -/
def LoopHistory [DecidableEq Schema] (c : Converters Schema AvroSchema Json Row)
    (actions : List (RestAction Schema AvroSchema Json Row)) (sink : RestSink Row) :
    LoopPoint Schema AvroSchema Row → Prop
  | .processing tx rest lsn => ∃ id done before, Came c actions tx id (done ++ rest) before ∧
      Targets id sink.tablesInProgress rest ∧ Closed sink.tablesInProgress rest ∧
      (tx ≠ none → sink.sent = before ++ sentFor id done) ∧ lsn = lastLsn done
  | .panicked p => p ≠ .tablesInProgressNotSet
  | _ => sink.tablesInProgress = none

structure RequestInv [DecidableEq Schema] (c : Converters Schema AvroSchema Json Row)
    (actions : List (RestAction Schema AvroSchema Json Row)) (s : RestLoop Schema AvroSchema Row) : Prop where
  run : run c init actions = some s
  lock : LockInv s
  free : ¬ s.Blocked
  tasks : ∀ k t, s.pending.lookup k = some t → t.Ready
  loop : LoopHistory c actions s.sink s.loop
  responses : ∀ r ∈ s.responses, Delivered c actions s r.1 r.2

theorem RequestInv.init [DecidableEq Schema] : RequestInv c [] (init : RestLoop Schema AvroSchema Row) where
  run := rfl
  lock := .init
  free h := by
    obtain ⟨_, hwriting, -⟩ := h
    cases hwriting
  tasks _ _ h := by cases h
  loop := rfl
  responses _ h := by cases h

/-- The events of a request are for its table, with a row before every commit. -/
theorem Received.ready {id : SrcTableId} {events : List (RestEvent Row)} {drawn : Nat}
    (h : s.Received a tx id events drawn) (htasks : ∀ k t, s.pending.lookup k = some t → t.Ready) :
    Targets id none events ∧ Closed none events := by
  cases h with
  | row hstream => exact ⟨⟨rfl, rfl, trivial⟩, rfl⟩
  | upload hoperation hid => exact ⟨⟨rfl, trivial⟩, rfl⟩
  | snapshot hid => exact ⟨⟨rfl, trivial⟩, rfl⟩
  | flush hid => exact ⟨⟨rfl, trivial⟩, rfl⟩
  | task hlookup hrunning hfinished =>
    have hready := htasks _ _ hlookup
    refine ⟨hready.targets, hready.closed ?_⟩
    unfold FileInsertTask.isFinished at hfinished
    rw [hrunning] at hfinished
    simpa using And.right (by simpa using hfinished)

/-- A step that goes on with the same history. -/
theorem LoopHistory.append [DecidableEq Schema] {sink sink' : RestSink Row} {loop : LoopPoint Schema AvroSchema Row}
    (h : LoopHistory c actions sink loop) (a : RestAction Schema AvroSchema Json Row)
    (hsent : sink'.sent = sink.sent) (hprogress : sink'.tablesInProgress = sink.tablesInProgress) :
    LoopHistory c (actions ++ [a]) sink' loop := by
  cases loop with
  | processing tx rest lsn =>
    obtain ⟨id, done, before, hcame, htargets, hclosed, hdone, hlsn⟩ := h
    refine ⟨id, done, before, hcame.append [a], ?_, ?_, ?_, hlsn⟩
    · rw [hprogress]
      exact htargets
    · rw [hprogress]
      exact hclosed
    · rw [hsent]
      exact hdone
  | panicked p => exact h
  | selecting | writing | seeding | stopped => exact hprogress.trans h

theorem run_append_singleton [DecidableEq Schema] (hrun : run c init actions = some s) (hstep : next c s a = some s') :
    run c init (actions ++ [a]) = some s' := by
  unfold run at hrun ⊢
  simp [List.foldlM_append, hrun, hstep]

namespace RequestInv

variable [DecidableEq Schema]

/-- While the loop is at its `select`, nothing is in progress. -/
theorem progress_none (h : RequestInv c actions s) (hidle : s.loop = .selecting) : s.sink.tablesInProgress = none := by
  have hloop := h.loop
  rw [hidle] at hloop
  exact hloop

theorem task (h : RequestInv c actions s) (hclean : s.Undisturbed a) (ha : a.isTask = true)
    (hstep : RestLoop.next c s a = some s') :
    (∀ k t, s'.pending.lookup k = some t → t.Ready) ∧ s'.sink = s.sink ∧ s'.loop = s.loop ∧
      s'.responses = s.responses := by
  obtain ⟨k, t, t', lsn, hlookup, htask, rfl⟩ := next_isTask hstep ha
  refine ⟨fun k' t'' ht => ?_, rfl, rfl, rfl⟩
  change (s.pending.insert k t').lookup k' = some t'' at ht
  rw [AssocMap.lookup_insert_ite] at ht
  split at ht
  · cases ht
    refine (h.tasks k t hlookup).step htask ?_
    rintro rfl
    exact hclean t hlookup
  · exact h.tasks k' t'' ht

/-- An event is delivered, or the LSN is sent back after the last one. -/
theorem processEvent {closes : Bool} (h : RequestInv c actions s)
    (hclean : s.Undisturbed (.processEvent closes : RestAction Schema AvroSchema Json Row))
    (hstep : s.processEvent closes = some s') :
    s'.pending = s.pending ∧ LoopHistory c (actions ++ [.processEvent closes]) s'.sink s'.loop ∧
      ∀ r ∈ s'.responses, Delivered c (actions ++ [.processEvent closes]) s' r.1 r.2 := by
  have hloop := h.loop
  unfold RestLoop.processEvent at hstep
  split at hstep
  · rename_i tx lsn hpoint
    rw [hpoint] at hloop
    obtain ⟨id, done, before, hcame, -, hclosed, hdone, hlsn⟩ := hloop
    rw [List.append_nil] at hcame
    cases hstep
    refine ⟨rfl, hclosed, fun r hr => ?_⟩
    rcases List.mem_append.mp hr with hold | hnew
    · exact (h.responses r hold).append _ (List.prefix_refl _)
    · obtain ⟨client, hclient, rfl⟩ := List.mem_map.mp hnew
      cases tx with
      | none => cases hclient
      | some x =>
        cases List.mem_singleton.mp hclient
        refine ⟨id, done, before, hcame.append _, ?_, hlsn⟩
        rw [← hdone nofun]
  · rename_i tx e rest lsn hpoint
    rw [hpoint] at hloop
    obtain ⟨id, done, before, hcame, ⟨htarget, htargets⟩, hclosed, hdone, hlsn⟩ := hloop
    -- The responses stay, and nothing is taken back from what was sent.
    have hresponses : ∀ {s₁ : RestLoop Schema AvroSchema Row}, s₁.responses = s.responses →
        s.sink.sent <+: s₁.sink.sent →
        ∀ r ∈ s₁.responses, Delivered c (actions ++ [.processEvent closes]) s₁ r.1 r.2 := by
      intro s₁ hsame hsent r hr
      rw [hsame] at hr
      exact (h.responses r hr).append _ hsent
    split at hstep
    · obtain ⟨hnone, -⟩ | ⟨id', sink, result, htarget', heq, ⟨new, -, hsent, hall⟩, hprogress⟩ :=
        s.sink.processRestEvent_cases e closes
      · rw [hnone] at htarget
        cases htarget
      · cases htarget'.symm.trans htarget
        rw [heq] at hstep
        cases hstep
        refine ⟨rfl, ⟨id, done ++ [e], before, ?_, ?_, ?_, fun htx => ?_, ?_⟩,
          hresponses rfl (hsent ▸ List.prefix_append _ _)⟩
        · rw [List.append_assoc]
          exact hcame.append _
        · rw [hprogress]
          exact htargets
        · rw [hprogress]
          exact hclosed
        · obtain ⟨client, rfl⟩ := Option.ne_none_iff_exists'.mp htx
          -- A client waits, so the table takes the event.
          change Takes s.sink closes s.loop at hclean
          rw [hpoint] at hclean
          obtain ⟨hopen, hcloses⟩ := hclean id htarget
          have hok := RestSink.processRestEvent_ok htarget hopen hcloses
          rw [heq] at hok
          rw [hsent, hall (Except.ok.inj hok), hdone nofun, sentFor_append_singleton, List.append_assoc]
        · unfold lastLsn at hlsn ⊢
          rw [List.foldl_append, ← hlsn]
          rfl
    · cases hstep
      exact ⟨rfl, nofun, hresponses rfl (List.prefix_refl _)⟩
  · cases hstep

/-- Any other step but a delivery. -/
theorem effect (h : RequestInv c actions s) (heffect : s.Effect a s') :
    (∀ k t, s'.pending.lookup k = some t → t.Ready) ∧ LoopHistory c (actions ++ [a]) s'.sink s'.loop ∧
      s'.sink.sent = s.sink.sent ∧ s'.responses = s.responses := by
  cases heffect with
  | @receives tx id events drawn hreceived hidle hloop hsink hresponses _ _ hpending _ =>
    obtain ⟨htargets, hclosed⟩ := hreceived.ready h.tasks
    rw [hloop, hsink]
    refine ⟨fun k t ht => h.tasks k t (hpending k t ht).1, ⟨id, [], s.sink.sent, ?_, ?_, ?_, fun _ => ?_, rfl⟩, rfl,
      hresponses⟩
    · exact ⟨actions, a, [], drawn, s, rfl, h.run, hreceived, rfl⟩
    · rw [h.progress_none hidle]
      exact htargets
    · rw [h.progress_none hidle]
      exact hclosed
    · exact (List.append_nil _).symm
  | draws ha hid hidle heq =>
    subst heq
    exact ⟨h.tasks, h.loop.append a rfl rfl, rfl, rfl⟩
  | quiet hsent hprogress hresponses _ _ hpending _ hloop =>
    refine ⟨fun k t ht => ?_, ?_, hsent, hresponses⟩
    · rcases hpending k t ht with hold | hnew
      · exact h.tasks k t hold
      · refine ⟨?_, fun _ => ?_⟩
        · rw [hnew]
          exact trivial
        · rw [hnew]
          rfl
    · have hinv := h.loop
      rcases hloop with hsame | ⟨hidle, hother⟩
      · rw [hsame]
        exact hinv.append a hsent hprogress
      · have hnone : s.sink.tablesInProgress = none := by
          cases hpoint : s.loop with
          | processing | panicked =>
            rw [hpoint] at hidle
            cases hidle
          | selecting | writing | seeding | stopped =>
            rw [hpoint] at hinv
            exact hinv
        cases hpoint : s'.loop with
        | processing =>
          rw [hpoint] at hother
          cases hother
        | panicked p =>
          rw [hpoint] at hother
          rintro rfl
          cases hother
        | selecting | writing | seeding | stopped => exact hprogress.trans hnone

theorem next (h : RequestInv c actions s) (hclean : s.Undisturbed a) (hstep : RestLoop.next c s a = some s') :
    RequestInv c (actions ++ [a]) s' := by
  obtain ⟨hlock, hblocked⟩ := h.lock.next hstep
  have hpolled : s.PolledBefore a := by
    cases a with
    | command cmd => exact hclean
    | _ => exact trivial
  have hfree : ¬ s'.Blocked := by
    rw [hblocked, not_or, not_not]
    exact ⟨h.free, hpolled⟩
  have hrun := run_append_singleton h.run hstep
  have hresponses : s'.responses = s.responses → s'.sink.sent = s.sink.sent →
      ∀ r ∈ s'.responses, Delivered c (actions ++ [a]) s' r.1 r.2 := by
    intro hsame hsent r hr
    rw [hsame] at hr
    exact (h.responses r hr).append _ (hsent ▸ List.prefix_refl _)
  cases htask : a.isTask with
  | true =>
    obtain ⟨htasks, hsink, hloop, hsame⟩ := h.task hclean htask hstep
    refine ⟨hrun, hlock, hfree, htasks, ?_, hresponses hsame (by rw [hsink])⟩
    rw [hloop, hsink]
    exact h.loop.append a rfl rfl
  | false =>
    by_cases hdeliver : ∃ closes, a = .processEvent closes
    · obtain ⟨closes, rfl⟩ := hdeliver
      obtain ⟨hpending, hloop, hall⟩ := h.processEvent hclean hstep
      refine ⟨hrun, hlock, hfree, ?_, hloop, hall⟩
      rw [hpending]
      exact h.tasks
    · obtain ⟨htasks, hloop, hsent, hsame⟩ :=
        h.effect (next_effect hstep htask (fun closes heq => hdeliver ⟨closes, heq⟩) h.lock.row)
      exact ⟨hrun, hlock, hfree, htasks, hloop, hresponses hsame hsent⟩

end RequestInv

/-! ## Response channels -/

/-- The stream gives an error for the request of the client. -/
inductive Fails (c : Converters Schema AvroSchema Json Row) (s : RestLoop Schema AvroSchema Row) :
    RestAction Schema AvroSchema Json Row → Option Client → Prop where
  | row {r : RowEventRequest Json} {e : RestSourceError} (h : s.source.decodeRowRequest c r = .error e) :
      Fails c s (.pollRequest (.row r)) r.tx
  | file {r : FileEventRequest} {e : RestSourceError} (h : s.source.getSrcTableId r.srcTableName = .error e) :
      Fails c s (.pollRequest (.file r)) r.tx
  | snapshot {r : SnapshotRequest} {e : RestSourceError} (h : s.source.getSrcTableId r.srcTableName = .error e) :
      Fails c s (.pollRequest (.snapshot r)) (some r.tx)
  | flush {r : FlushRequest} {e : RestSourceError} (h : s.source.getSrcTableId r.srcTableName = .error e) :
      Fails c s (.pollRequest (.flush r)) (some r.tx)
  | task {k : Nat} {t : FileInsertTask Row} (hlookup : s.pending.lookup k = some t) (hstatus : t.status ≠ .running) :
      Fails c s (.pollFinished k) t.tx

/-- What the stream still holds of the last request. -/
def kept (s : RestLoop Schema AvroSchema Row) : List Client :=
  match s.stream with
  | .answered keeps => keeps.toList
  | _ => []

/-- A delivery gives up the client at most. -/
theorem processEvent_clients {closes : Bool} (h : s.processEvent closes = some s') :
    s'.waiting = s.waiting ∧ s'.stream = s.stream ∧ ∀ x, s'.loop.clients.count x ≤ s.loop.clients.count x := by
  unfold processEvent at h
  split at h
  · cases h
    exact ⟨rfl, rfl, fun x => Nat.zero_le _⟩
  · rename_i hpoint
    rw [hpoint]
    split at h
    · split at h <;> cases h
      · exact ⟨rfl, rfl, fun x => Nat.zero_le _⟩
      · exact ⟨rfl, rfl, fun x => Nat.le_refl _⟩
    · cases h
      exact ⟨rfl, rfl, fun x => Nat.zero_le _⟩
  · cases h

/-- Channels come with requests only. -/
theorem next_working [DecidableEq Schema] (hs : LockInv s) (h : next c s a = some s') (x : Client) :
    s'.working.count x ≤ s.working.count x + a.clients.count x := by
  unfold working
  rw [List.count_append, List.count_append]
  cases htask : a.isTask with
  | true =>
    obtain ⟨k, t, t', lsn, hlookup, hstep, rfl⟩ := next_isTask h htask
    unfold waiting
    rw [List.count_append, List.count_append, Tasks.clients_step hlookup hstep]
    exact Nat.le_add_right _ _
  | false =>
    by_cases hdeliver : ∃ closes, a = .processEvent closes
    · obtain ⟨closes, rfl⟩ := hdeliver
      obtain ⟨hwaiting, -, hloop⟩ := processEvent_clients h
      rw [hwaiting]
      exact Nat.le_trans (Nat.add_le_add_right (hloop x) _) (Nat.le_add_right _ _)
    · have heffect := next_effect h htask (fun closes heq => hdeliver ⟨closes, heq⟩) hs.row
      cases heffect with
      | receives hreceived hidle hloop _ _ hclients =>
        rw [hloop, hidle]
        have hle := hclients x
        change _ ≤ 0 + _ + _
        rw [Nat.zero_add]
        exact hle
      | @draws r id row readers ha hid hidle heq =>
        subst heq ha
        unfold waiting
        rw [List.count_append, List.count_append]
        change s.loop.clients.count x + (r.tx.toList.count x + _) ≤ _ + r.tx.toList.count x
        dsimp only [drawLsn]
        omega
      | quiet _ _ _ hclients _ _ _ hloop =>
        have hsame : s'.loop.clients = s.loop.clients := by
          rcases hloop with heq | ⟨hidle, hother⟩
          · rw [heq]
          · cases hpoint : s.loop with
            | processing | panicked =>
              rw [hpoint] at hidle
              cases hidle
            | selecting | writing | seeding | stopped =>
              cases hpoint' : s'.loop with
              | processing =>
                rw [hpoint'] at hother
                cases hother
              | selecting | writing | seeding | stopped | panicked => rfl
        rw [hsame, Nat.add_assoc]
        exact Nat.add_le_add_left (hclients x) _

/-- A request that fails is only logged. -/
theorem Fails.handleRequest {r : EventRequest Json}
    (h : Fails c s (.pollRequest r) tx) (readers : Nat) : ∃ readers' keeps,
      { s with readers, stream := .receiving }.handleRequest c r = { s with readers := readers', stream := .answered keeps } := by
  have hyield : ∀ {keeps tx : Option Client} {result : Except RestSourceError (List (RestEvent Row))} {e : RestSourceError},
      result = .error e → ∃ readers' keeps', { s with readers, stream := .receiving }.lockRead.yieldAnswer keeps tx result =
        { s with readers := readers', stream := .answered keeps' } := by
    rintro keeps tx _ e rfl
    exact ⟨readers + 1, keeps, rfl⟩
  cases h with
  | @row r e h =>
    unfold RestLoop.handleRequest
    dsimp only [lockRead]
    rw [h]
    exact ⟨readers + 1, none, rfl⟩
  | @file r e h =>
    unfold RestLoop.handleRequest
    dsimp only
    split
    · rw [h]
      exact ⟨readers + 1, r.tx, rfl⟩
    · unfold RestSource.processFileUploadSync
      dsimp only [lockRead]
      rw [h]
      exact ⟨readers + 1, none, rfl⟩
  | snapshot h => exact hyield (by unfold RestSource.processSnapshotRequest; rw [h]; rfl)
  | flush h => exact hyield (by unfold RestSource.processFlushRequest; rw [h]; rfl)

/-- The channel of a request that fails is dropped, but for what the stream keeps. -/
theorem Fails.working [DecidableEq Schema] (hfails : Fails c s a tx) (h : next c s a = some s')
    (x : Client) : s'.working.count x + tx.toList.count x ≤ s.working.count x + a.clients.count x := by
  cases a with
  | pollRequest r =>
    have htx : (RestAction.pollRequest r : RestAction Schema AvroSchema Json Row).clients = tx.toList := by
      cases hfails <;> rfl
    rw [htx]
    refine Nat.add_le_add_right ?_ _
    unfold next at h
    dsimp only at h
    split at h
    · obtain ⟨s₁, hresume, rfl⟩ := Option.map_eq_some_iff.mp h
      obtain ⟨-, readers, rfl⟩ := resume_eq hresume
      obtain ⟨readers', keeps, heq⟩ := hfails.handleRequest readers
      rw [heq]
      unfold RestLoop.working waiting
      simp only [List.count_append]
      exact Nat.add_le_add_left (Nat.add_le_add_right (Nat.zero_le _) _) _
    · cases h
  | pollFinished k =>
    unfold next at h
    dsimp only at h
    split at h
    · obtain ⟨s₁, hresume, hjoin⟩ := Option.bind_eq_some_iff.mp h
      obtain ⟨-, readers, rfl⟩ := resume_eq hresume
      cases hfails with
      | @task k t hlookup hstatus =>
        have hdropped : s' = { s with readers, stream := .receiving, pending := s.pending.erase k } := by
          simp only [joinTask, hlookup] at hjoin
          split at hjoin
          · split at hjoin
            · rename_i hrunning
              exact absurd hrunning hstatus
            · exact (Option.some.inj hjoin).symm
            · exact (Option.some.inj hjoin).symm
          · cases hjoin
        subst hdropped
        unfold RestLoop.working waiting
        simp only [List.count_append]
        rw [Tasks.clients_erase hlookup]
        change s.loop.clients.count x + (0 + _) + _ ≤ _ + 0
        omega
    · cases h
  | command | poll | pollClosed | finishRow | grantPermit | acquireWrite | finishAddTable | processEvent | taskOpen
  | taskRow | taskCommit | taskFail | taskPanic | closeReceiver => cases hfails

/-- The request of the client failed in a step of the run. -/
def Failed [DecidableEq Schema] (c : Converters Schema AvroSchema Json Row)
    (actions : List (RestAction Schema AvroSchema Json Row)) (x : Client) : Prop :=
  ∃ earlier a later, ∃ s : RestLoop Schema AvroSchema Row, actions = earlier ++ a :: later ∧
    run c init earlier = some s ∧ Fails c s a (some x)

/-- The clients of all requests of a run. -/
def clientsOf (actions : List (RestAction Schema AvroSchema Json Row)) : List Client := actions.flatMap RestAction.clients

/-- No two requests of the run came with this channel. -/
def OwnChannel (actions : List (RestAction Schema AvroSchema Json Row)) (x : Client) : Prop :=
  (clientsOf actions).count x ≤ 1

theorem Failed.of_append [DecidableEq Schema] {x : Client} (h : Failed c (actions ++ [a]) x)
    (hrun : run c init actions = some s) : Failed c actions x ∨ Fails c s a (some x) := by
  obtain ⟨earlier, b, later, s₀, heq, hrun₀, hfails⟩ := h
  rcases List.eq_nil_or_concat later with rfl | ⟨rest, b', rfl⟩
  · obtain ⟨rfl, hb⟩ := List.append_inj' heq rfl
    cases hb
    cases hrun.symm.trans hrun₀
    exact .inr hfails
  · rw [List.concat_eq_append, ← List.cons_append, ← List.append_assoc] at heq
    obtain ⟨rfl, -⟩ := List.append_inj' heq rfl
    exact .inl ⟨earlier, b, rest, s₀, rfl, hrun₀, hfails⟩

/-- There are no more senders than requests, and none is left of a request that failed. -/
structure ClientInv [DecidableEq Schema] (c : Converters Schema AvroSchema Json Row)
    (actions : List (RestAction Schema AvroSchema Json Row)) (s : RestLoop Schema AvroSchema Row) (x : Client) : Prop where
  le : s.working.count x ≤ (clientsOf actions).count x
  came : Failed c actions x → 0 < (clientsOf actions).count x
  dropped : Failed c actions x → OwnChannel actions x → s.working.count x = 0

theorem ClientInv.init [DecidableEq Schema] (x : Client) :
    ClientInv c [] (init : RestLoop Schema AvroSchema Row) x := by
  have hnone : ¬ Failed c ([] : List (RestAction Schema AvroSchema Json Row)) x := by
    rintro ⟨earlier, a, later, -, heq, -⟩
    cases earlier <;> cases heq
  exact ⟨Nat.le_refl _, fun h => absurd h hnone, fun h => absurd h hnone⟩

theorem ClientInv.next [DecidableEq Schema] {x : Client} (h : ClientInv c actions s x)
    (hrun : run c RestLoop.init actions = some s) (hs : LockInv s) (hstep : next c s a = some s') :
    ClientInv c (actions ++ [a]) s' x := by
  have hcount : (clientsOf (actions ++ [a])).count x = (clientsOf actions).count x + a.clients.count x := by
    unfold clientsOf
    rw [List.flatMap_append, List.count_append, List.flatMap_singleton]
  have hle := h.le
  have hworking := next_working hs hstep x
  have hfailing : ∀ hfails : Fails c s a (some x), s'.working.count x + 1 ≤ (clientsOf (actions ++ [a])).count x := by
    intro hfails
    have hdrop := hfails.working hstep x
    rw [show (some x).toList.count x = 1 from List.count_singleton_self] at hdrop
    omega
  refine ⟨by omega, fun hfailed => ?_, fun hfailed hown => ?_⟩
  · rcases hfailed.of_append hrun with hold | hnow
    · have := h.came hold
      omega
    · have := hfailing hnow
      omega
  · unfold OwnChannel at hown
    rcases hfailed.of_append hrun with hold | hnow
    · have hcame := h.came hold
      have hzero := h.dropped hold (by unfold OwnChannel; omega)
      omega
    · have := hfailing hnow
      omega

/-! ## Back to the poll -/

/-- The loop comes from one state to another by steps of its own. -/
def Leads [DecidableEq Schema] (c : Converters Schema AvroSchema Json Row) (s s' : RestLoop Schema AvroSchema Row) : Prop :=
  ∃ own : List (RestAction Schema AvroSchema Json Row), (∀ a ∈ own, a.isOwn = true) ∧ run c s own = some s'

section

variable [DecidableEq Schema]

theorem Leads.refl (s : RestLoop Schema AvroSchema Row) : Leads c s s := ⟨[], nofun, rfl⟩

theorem Leads.step (ha : a.isOwn = true) (hstep : next c s a = some s₁) (h : Leads c s₁ s') : Leads c s s' := by
  obtain ⟨own, hown, hrun⟩ := h
  refine ⟨a :: own, fun b hb => ?_, ?_⟩
  · rcases List.mem_cons.mp hb with rfl | hb
    · exact ha
    · exact hown b hb
  · unfold run at hrun ⊢
    rw [List.foldlM_cons, hstep]
    exact hrun

theorem Leads.trans {s₂ : RestLoop Schema AvroSchema Row} (h : Leads c s s₁) (h' : Leads c s₁ s₂) : Leads c s s₂ := by
  obtain ⟨own, hown, hrun⟩ := h
  obtain ⟨own', hown', hrun'⟩ := h'
  refine ⟨own ++ own', fun a ha => (List.mem_append.mp ha).elim (hown a) (hown' a), ?_⟩
  unfold run at hrun hrun' ⊢
  rw [List.foldlM_append, hrun]
  exact hrun'

/-- No channel comes with the steps of the loop. -/
theorem Leads.working (h : Leads c s s') (hs : LockInv s) (x : Client) : s'.working.count x ≤ s.working.count x := by
  obtain ⟨own, hown, hrun⟩ := h
  induction own generalizing s with
  | nil =>
    cases hrun
    exact Nat.le_refl _
  | cons a rest ih =>
    unfold run at hrun
    rw [List.foldlM_cons, Option.bind_eq_bind, Option.bind_eq_some_iff] at hrun
    obtain ⟨s₁, hstep, hrest⟩ := hrun
    have hfirst := next_working hs hstep x
    have hnone : a.clients = [] := by
      have ha := hown a List.mem_cons_self
      cases a with
      | pollRequest r => cases ha
      | _ => rfl
    rw [hnone] at hfirst
    exact Nat.le_trans (ih (hs.next hstep).1 (fun b hb => hown b (List.mem_cons_of_mem _ hb)) hrest) hfirst

end

/-! ## Requests in a run -/

end RestLoop
end Moonlink.Rest
