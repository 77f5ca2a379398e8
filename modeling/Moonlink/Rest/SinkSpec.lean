-- SUMMARY: What the REST sink sends for an event: which table events, to which table, and when all of them arrive.
import Moonlink.Rest.Sink

namespace Moonlink.Rest

open Lib

variable {Row : Type}

namespace RestEvent

/-- The table events for an event. -/
def tableEvents : RestEvent Row → List (SentEvent Row)
  | row _ operation value lsn => RestSink.rowEvents operation value lsn
  | commit lsn => [.ingest (.commit lsn none false)]
  | fileUpload _ files lsn => [.loadFiles files lsn]
  | snapshot _ lsn => [.forceSnapshot lsn]
  | flush _ => [.periodicalPersistenceUpdateWal]

/-- The table of an event. A commit is for the table in progress. -/
def target (inProgress : Option SrcTableId) : RestEvent Row → Option SrcTableId
  | row id _ _ _ => some id
  | commit _ => inProgress
  | fileUpload id _ _ => some id
  | snapshot id _ => some id
  | flush id => some id

/-- The table in progress after an event. -/
def progress (inProgress : Option SrcTableId) : RestEvent Row → Option SrcTableId
  | row id _ _ _ => some id
  | commit _ => none
  | _ => inProgress

end RestEvent

/-- Every row is followed by a commit. -/
def Closed (inProgress : Option SrcTableId) (events : List (RestEvent Row)) : Prop :=
  events.foldl RestEvent.progress inProgress = none

instance (inProgress : Option SrcTableId) (events : List (RestEvent Row)) : Decidable (Closed inProgress events) :=
  inferInstanceAs (Decidable (_ = none))

/-- Every event is for the table `id`. -/
def Targets (id : SrcTableId) : Option SrcTableId → List (RestEvent Row) → Prop
  | _, [] => True
  | inProgress, e :: rest => e.target inProgress = some id ∧ Targets id (e.progress inProgress) rest

section

variable {id : SrcTableId} {inProgress : Option SrcTableId} {events : List (RestEvent Row)}

theorem Targets.append_singleton {e : RestEvent Row} (h : Targets id inProgress events)
    (he : e.target (events.foldl RestEvent.progress inProgress) = some id) : Targets id inProgress (events ++ [e]) := by
  induction events generalizing inProgress with
  | nil => exact ⟨he, trivial⟩
  | cons x rest ih => exact ⟨h.1, ih h.2 he⟩

/-- No other table comes into progress. -/
theorem Targets.progress_eq (h : Targets id inProgress events) (hstart : ∀ id', inProgress = some id' → id' = id) :
    ∀ id', events.foldl RestEvent.progress inProgress = some id' → id' = id := by
  induction events generalizing inProgress with
  | nil => exact hstart
  | cons e rest ih =>
    refine ih h.2 fun id' hid' => ?_
    have htarget := h.1
    cases e with
    | row id₀ operation row lsn => exact Option.some.inj (hid'.symm.trans htarget)
    | commit lsn => cases hid'
    | fileUpload | snapshot | flush => exact hstart id' hid'

end

namespace RestSink

variable {s s' : RestSink Row} {id : SrcTableId} {events : List (SentEvent Row)}

/-- The channel of the table takes events. -/
def IsOpen (s : RestSink Row) (id : SrcTableId) : Prop := ∃ status, s.tableStatus.lookup id = some status ∧ status.isOpen = true

instance (s : RestSink Row) (id : SrcTableId) : Decidable (s.IsOpen id) :=
  decidable_of_iff ((s.tableStatus.lookup id).any (·.isOpen) = true) (by unfold IsOpen; simp [Option.any_eq_true])

/-- Events are sent to the table `id`, all of them if there is no error. -/
structure Sends (s : RestSink Row) (id : SrcTableId) (events : List (SentEvent Row))
    (outcome : RestSink Row × Except RestSinkError Unit) : Prop where
  sent : ∃ new, new <+: events ∧ outcome.1.sent = s.sent ++ new.map (id, ·) ∧ (outcome.2 = .ok () → new = events)
  tablesInProgress : outcome.1.tablesInProgress = s.tablesInProgress

theorem Sends.error {e : RestSinkError} (hsent : s'.sent = s.sent) (hprogress : s'.tablesInProgress = s.tablesInProgress) :
    Sends s id events (s', .error e) :=
  ⟨⟨[], List.nil_prefix, by rw [hsent]; exact (List.append_nil _).symm, nofun⟩, hprogress⟩

theorem sendTableEvent_cases (s : RestSink Row) (id : SrcTableId) (e : SentEvent Row) :
    (¬ s.IsOpen id ∧ ∃ error, s.sendTableEvent id e = (s, .error error)) ∨
      (s.IsOpen id ∧ s.sendTableEvent id e = ({ s with sent := s.sent ++ [(id, e)] }, .ok ())) := by
  unfold sendTableEvent IsOpen
  cases s.tableStatus.lookup id with
  | none => exact .inl ⟨fun ⟨_, h, _⟩ => (nomatch h), _, rfl⟩
  | some status =>
    dsimp only
    split
    · rename_i hopen
      exact .inr ⟨⟨status, rfl, hopen⟩, rfl⟩
    · rename_i hclosed
      refine .inl ⟨?_, _, rfl⟩
      rintro ⟨_, ⟨⟩, hopen⟩
      exact hclosed hopen

theorem closeReceiver_same (s : RestSink Row) (id : SrcTableId) :
    (s.closeReceiver id).sent = s.sent ∧ (s.closeReceiver id).tablesInProgress = s.tablesInProgress := by
  unfold closeReceiver
  split <;> exact ⟨rfl, rfl⟩

theorem markCommit_same (s : RestSink Row) (id : SrcTableId) (lsn : Nat) :
    (s.markCommit id lsn).1.sent = s.sent ∧ (s.markCommit id lsn).1.tablesInProgress = s.tablesInProgress := by
  unfold markCommit
  split <;> exact ⟨rfl, rfl⟩

theorem sendTableEvent_sends (s : RestSink Row) (id : SrcTableId) (e : SentEvent Row) :
    Sends s id [e] (s.sendTableEvent id e) := by
  obtain ⟨-, error, heq⟩ | ⟨-, heq⟩ := s.sendTableEvent_cases id e
  · rw [heq]
    exact .error rfl rfl
  · rw [heq]
    exact ⟨⟨[e], List.prefix_refl _, rfl, fun _ => rfl⟩, rfl⟩

theorem sendAll_sends (s : RestSink Row) (id : SrcTableId) (closes : Bool) (events : List (SentEvent Row)) :
    Sends s id events (s.sendAll id closes events) := by
  induction events generalizing s with
  | nil => exact ⟨⟨[], List.prefix_refl _, (List.append_nil _).symm, fun _ => rfl⟩, rfl⟩
  | cons e rest ih =>
    unfold sendAll
    obtain ⟨-, error, heq⟩ | ⟨-, heq⟩ := s.sendTableEvent_cases id e
    · rw [heq]
      exact .error rfl rfl
    · rw [heq]
      dsimp only
      -- Whether or not the receiver goes now, the rest is sent after the event.
      have hrest : ∀ s₁ : RestSink Row, s₁.sent = s.sent ++ [(id, e)] → s₁.tablesInProgress = s.tablesInProgress →
          Sends s id (e :: rest) (s₁.sendAll id closes rest) := by
        intro s₁ hs₁ hp₁
        obtain ⟨⟨new, hnew, hsent, hall⟩, hprogress⟩ := ih s₁
        refine ⟨⟨e :: new, List.cons_prefix_cons.mpr ⟨rfl, hnew⟩, ?_, fun hok => by rw [hall hok]⟩, hprogress.trans hp₁⟩
        rw [hsent, hs₁, List.append_assoc]
        rfl
      split
      · obtain ⟨hsame, hprogress⟩ := closeReceiver_same { s with sent := s.sent ++ [(id, e)] } id
        exact hrest _ hsame hprogress
      · exact hrest _ rfl rfl

theorem sendCommitted_sends (s : RestSink Row) (id : SrcTableId) (e : SentEvent Row) (lsn : Nat) :
    Sends s id [e] (s.sendCommitted id e lsn) := by
  unfold sendCommitted
  obtain ⟨-, error, heq⟩ | ⟨-, heq⟩ := s.sendTableEvent_cases id e
  · rw [heq]
    exact .error rfl rfl
  · rw [heq]
    obtain ⟨hsent, hprogress⟩ := markCommit_same { s with sent := s.sent ++ [(id, e)] } id lsn
    exact ⟨⟨[e], List.prefix_refl _, hsent, fun _ => rfl⟩, hprogress⟩

/-- A channel that is open takes all events, unless the receiver goes between them. -/
theorem sendAll_ok (hopen : s.IsOpen id) {closes : Bool} (hcloses : events.length ≤ 1 ∨ closes = false) :
    (s.sendAll id closes events).2 = .ok () := by
  induction events generalizing s with
  | nil => rfl
  | cons e rest ih =>
    unfold sendAll
    obtain ⟨hclosed, -⟩ | ⟨-, heq⟩ := s.sendTableEvent_cases id e
    · exact absurd hopen hclosed
    · rw [heq]
      rcases hcloses with hone | hstays
      · obtain rfl : rest = [] := List.eq_nil_of_length_eq_zero (by
          rw [List.length_cons] at hone
          omega)
        rfl
      · subst hstays
        exact ih hopen (.inr rfl)

theorem sendCommitted_ok (hopen : s.IsOpen id) (e : SentEvent Row) (lsn : Nat) :
    (s.sendCommitted id e lsn).2 = .ok () := by
  unfold sendCommitted
  obtain ⟨hclosed, -⟩ | ⟨-, heq⟩ := s.sendTableEvent_cases id e
  · exact absurd hopen hclosed
  · rw [heq]
    obtain ⟨status, hstatus, -⟩ := hopen
    simp only [markCommit, hstatus]

theorem sendTableEvent_ok (hopen : s.IsOpen id) (e : SentEvent Row) : (s.sendTableEvent id e).2 = .ok () := by
  obtain ⟨hclosed, -⟩ | ⟨-, heq⟩ := s.sendTableEvent_cases id e
  · exact absurd hopen hclosed
  · rw [heq]

/-- An event arrives if its table takes events. -/
theorem processRestEvent_ok {e : RestEvent Row} {closes : Bool} (htarget : e.target s.tablesInProgress = some id)
    (hopen : s.IsOpen id) (hcloses : e.tableEvents.length ≤ 1 ∨ closes = false) :
    (s.processRestEvent e closes).2 = .ok (.ok ()) := by
  cases e with
  | row id' operation row lsn =>
    cases htarget
    exact congrArg Except.ok (sendAll_ok (s := { s with tablesInProgress := some id }) hopen hcloses)
  | commit lsn =>
    change s.tablesInProgress = some id at htarget
    simp only [processRestEvent, htarget]
    exact congrArg Except.ok (sendCommitted_ok (s := { s with tablesInProgress := none }) hopen _ lsn)
  | fileUpload id' files lsn =>
    cases htarget
    exact congrArg Except.ok (s.sendCommitted_ok hopen _ lsn)
  | snapshot id' lsn =>
    cases htarget
    exact congrArg Except.ok (s.sendTableEvent_ok hopen _)
  | flush id' =>
    cases htarget
    exact congrArg Except.ok (s.sendTableEvent_ok hopen _)

/-- An event without a target is a panic. Any other one sends table events to its target, all of
them if it does not fail. -/
theorem processRestEvent_cases (s : RestSink Row) (e : RestEvent Row) (closes : Bool) :
    (e.target s.tablesInProgress = none ∧ s.processRestEvent e closes = (s, .error .tablesInProgressNotSet)) ∨
      ∃ id s' result, e.target s.tablesInProgress = some id ∧ s.processRestEvent e closes = (s', .ok result) ∧
        (∃ new, new <+: e.tableEvents ∧ s'.sent = s.sent ++ new.map (id, ·) ∧ (result = .ok () → new = e.tableEvents)) ∧
        s'.tablesInProgress = e.progress s.tablesInProgress := by
  cases e with
  | row id operation row lsn =>
    obtain ⟨hsent, hprogress⟩ :=
      sendAll_sends { s with tablesInProgress := some id } id closes (rowEvents operation row lsn)
    exact .inr ⟨id, _, _, rfl, rfl, hsent, hprogress⟩
  | commit lsn =>
    cases hin : s.tablesInProgress with
    | none =>
      refine .inl ⟨rfl, ?_⟩
      simp only [processRestEvent, hin]
    | some id =>
      obtain ⟨hsent, hprogress⟩ :=
        sendCommitted_sends { s with tablesInProgress := none } id (.ingest (.commit lsn none false)) lsn
      refine .inr ⟨id, _, _, rfl, ?_, hsent, hprogress⟩
      simp only [processRestEvent, hin]
  | fileUpload id files lsn =>
    obtain ⟨hsent, hprogress⟩ := s.sendCommitted_sends id (.loadFiles files lsn) lsn
    exact .inr ⟨id, _, _, rfl, rfl, hsent, hprogress⟩
  | snapshot id lsn =>
    obtain ⟨hsent, hprogress⟩ := s.sendTableEvent_sends id (.forceSnapshot lsn)
    exact .inr ⟨id, _, _, rfl, rfl, hsent, hprogress⟩
  | flush id =>
    obtain ⟨hsent, hprogress⟩ := s.sendTableEvent_sends id .periodicalPersistenceUpdateWal
    exact .inr ⟨id, _, _, rfl, rfl, hsent, hprogress⟩

end RestSink
end Moonlink.Rest
