-- SUMMARY: What each step of the REST loop can do: commands, polls of the stream, background tasks.
import Moonlink.Rest.EventLoop
import Moonlink.Rest.SinkSpec

namespace Moonlink.Rest

open Lib

variable {Schema AvroSchema Json Row : Type} {c : Converters Schema AvroSchema Json Row}

/-- The stream is between the two LSNs of a row request. -/
def StreamPoint.isRowDrawn : StreamPoint Row → Bool
  | .rowDrawn .. => true
  | _ => false

/-! ## Background tasks -/

/-- What the task `k` does by itself in a step, with the LSN generator before and after. -/
inductive FileInsertTask.Step (lsn k : Nat) : RestAction Schema AvroSchema Json Row → FileInsertTask Row →
    FileInsertTask Row → Nat → Prop where
  | opened {t : FileInsertTask Row} (h : t.isBetweenFiles = true) :
      Step lsn k (.taskOpen k) t { t with isOpen := true } lsn
  | failed {t : FileInsertTask Row} (h : t.isBetweenFiles = true) :
      Step lsn k (.taskFail k) t { t with status := .failed } lsn
  | panicked {t : FileInsertTask Row} (h : t.isReading = true) :
      Step lsn k (.taskPanic k) t { t with status := .panicked } lsn
  | row {t : FileInsertTask Row} (row : Row) (h : t.isReading = true) :
      Step lsn k (.taskRow k row) t (t.pushEvent (.row t.srcTableId .insert row lsn)) (lsn + 1)
  | commit {t : FileInsertTask Row} (h : t.isReading = true) :
      Step lsn k (.taskCommit k) t { t.pushEvent (.commit lsn) with files := t.files.tail, isOpen := false } (lsn + 1)

def RestAction.isTask : RestAction Schema AvroSchema Json Row → Bool
  | .taskOpen _ | .taskRow _ _ | .taskCommit _ | .taskFail _ | .taskPanic _ => true
  | _ => false

/-! ## Response channels -/

/-- The client of the request that the stream works on. -/
def StreamPoint.clients : StreamPoint Row → List Client
  | .rowDrawn tx .. => tx.toList
  | .acquiring r _ => r.tx.toList
  | _ => []

/-- The client of the request whose events are delivered. -/
def LoopPoint.clients : LoopPoint Schema AvroSchema Row → List Client
  | .processing tx .. => tx.toList
  | _ => []

/-- The client of the request that comes with an action. -/
def RestAction.clients : RestAction Schema AvroSchema Json Row → List Client
  | .pollRequest r => r.getRequestTx.toList
  | _ => []

/-- The clients of the background tasks. -/
def Tasks.clients (tasks : AssocMap Nat (FileInsertTask Row)) : List Client :=
  AssocMap.flatMapValues (fun t => t.tx.toList) tasks

/-- The clients of the requests that are not handled yet. -/
def RestLoop.waiting (s : RestLoop Schema AvroSchema Row) : List Client := s.stream.clients ++ Tasks.clients s.pending

/-- The clients of the requests that are neither delivered nor failed. -/
def RestLoop.working (s : RestLoop Schema AvroSchema Row) : List Client := s.loop.clients ++ s.waiting

theorem Tasks.clients_erase {tasks : AssocMap Nat (FileInsertTask Row)} {k : Nat} {t : FileInsertTask Row}
    (h : tasks.lookup k = some t) (x : Client) :
    (Tasks.clients tasks).count x = t.tx.toList.count x + (Tasks.clients (tasks.erase k)).count x := by
  unfold Tasks.clients
  rw [AssocMap.count_flatMapValues _ tasks k x, h]
  rfl

theorem Tasks.clients_insert_le (tasks : AssocMap Nat (FileInsertTask Row)) (k : Nat) (t : FileInsertTask Row) (x : Client) :
    (Tasks.clients (tasks.insert k t)).count x ≤ t.tx.toList.count x + (Tasks.clients tasks).count x := by
  unfold Tasks.clients
  rw [AssocMap.flatMapValues_insert, List.count_append, AssocMap.count_flatMapValues _ tasks k x]
  omega

/-- A task keeps its client. -/
theorem Tasks.clients_step {tasks : AssocMap Nat (FileInsertTask Row)} {k lsn lsn' : Nat} {t t' : FileInsertTask Row}
    {a : RestAction Schema AvroSchema Json Row} (h : tasks.lookup k = some t) (hstep : t.Step lsn k a t' lsn') (x : Client) :
    (Tasks.clients (tasks.insert k t')).count x = (Tasks.clients tasks).count x := by
  have htx : t'.tx = t.tx := by
    cases hstep <;> rfl
  rw [Tasks.clients_erase h, Tasks.clients_erase (AList.lookup_insert tasks), AssocMap.erase_insert, htx]

namespace RestLoop

variable {s s' : RestLoop Schema AvroSchema Row}

/-- A task changes itself and the LSN generator only. -/
theorem next_isTask [DecidableEq Schema] {a : RestAction Schema AvroSchema Json Row} (h : next c s a = some s')
    (ha : a.isTask = true) :
    ∃ k t t' lsn, s.pending.lookup k = some t ∧ t.Step s.source.lsnGenerator k a t' lsn ∧
      s' = { s with source := { s.source with lsnGenerator := lsn }, pending := s.pending.insert k t' } := by
  have hinv : ∀ {k : Nat} {p : FileInsertTask Row → Bool} {f : FileInsertTask Row → RestLoop Schema AvroSchema Row},
      s.stepTask k p f = some s' → ∃ t, s.pending.lookup k = some t ∧ p t = true ∧ s' = f t := by
    intro k p f hstep
    obtain ⟨t, ht, hif⟩ := Option.bind_eq_some_iff.mp hstep
    split at hif
    · rename_i hp
      exact ⟨t, ht, hp, (Option.some.inj hif).symm⟩
    · cases hif
  cases a with
  | taskOpen k =>
    obtain ⟨t, ht, hp, rfl⟩ := hinv h
    exact ⟨k, t, _, _, ht, .opened hp, rfl⟩
  | taskFail k =>
    obtain ⟨t, ht, hp, rfl⟩ := hinv h
    exact ⟨k, t, _, _, ht, .failed hp, rfl⟩
  | taskPanic k =>
    obtain ⟨t, ht, hp, rfl⟩ := hinv h
    exact ⟨k, t, _, _, ht, .panicked hp, rfl⟩
  | taskRow k row =>
    obtain ⟨t, ht, hp, rfl⟩ := hinv h
    exact ⟨k, t, _, _, ht, .row row hp, rfl⟩
  | taskCommit k =>
    obtain ⟨t, ht, hp, rfl⟩ := hinv h
    exact ⟨k, t, _, _, ht, .commit hp, rfl⟩
  | command | poll | pollFinished | pollRequest | pollClosed | finishRow | grantPermit | acquireWrite
  | finishAddTable | processEvent | closeReceiver => cases ha

/-! ## The loop and its commands -/

/-- A poll of the stream changes nothing but the guard and the point. No request is at work there. -/
theorem resume_eq (h : s.resume = some s') :
    s.stream.clients = [] ∧ ∃ readers, s' = { s with readers, stream := .receiving } := by
  unfold resume at h
  split at h
  · rename_i hstream
    cases h
    refine ⟨by rw [hstream]; rfl, s.readers, by rw [← hstream]⟩
  · rename_i hstream
    cases h
    exact ⟨by rw [hstream]; rfl, s.readers - 1, rfl⟩
  · cases h

theorem isSelecting_iff : s.isSelecting = true ↔ s.loop = .selecting ∧ s.stream.isRowDrawn = false := by
  unfold isSelecting
  cases s.loop <;> cases s.stream <;> simp [StreamPoint.isRowDrawn]

/-- The sink lets the command through to the source. -/
def WantsLock (s : RestLoop Schema AvroSchema Row) : RestCommand Schema AvroSchema → Prop
  | .addTable _ id _ _ => s.sink.tableStatus.lookup id = none
  | .setAvroSchema _ _ => True
  | .dropTable _ id => s.sink.tableStatus.lookup id ≠ none
  | .shutdown => False

instance (cmd : RestCommand Schema AvroSchema) : Decidable (s.WantsLock cmd) :=
  match cmd with
  | .addTable .. => inferInstanceAs (Decidable (_ = none))
  | .setAvroSchema .. => isTrue trivial
  | .dropTable .. => inferInstanceAs (Decidable (_ ≠ none))
  | .shutdown => isFalse id

/-- A command waits for the lock if the sink lets it through. Nothing is sent. -/
theorem handleCommand_cases (s : RestLoop Schema AvroSchema Row) (cmd : RestCommand Schema AvroSchema) :
    ∃ sink, sink.sent = s.sink.sent ∧ sink.tablesInProgress = s.sink.tablesInProgress ∧
      ((¬ s.WantsLock cmd ∧ ∃ loop, (loop = s.loop ∨ loop = .stopped) ∧ s.handleCommand cmd = { s with sink, loop }) ∨
        (s.WantsLock cmd ∧ cmd ≠ .shutdown ∧ s.handleCommand cmd = { s with sink, loop := .writing cmd })) := by
  cases cmd with
  | addTable name id schema persistLsn =>
    obtain ⟨sink, hsent, hprogress, ⟨hold, e, heq⟩ | ⟨hnew, heq⟩⟩ := s.sink.addTable_cases id persistLsn
    · exact ⟨sink, hsent, hprogress, .inl ⟨hold, s.loop, .inl rfl, by simp only [handleCommand, heq]⟩⟩
    · exact ⟨sink, hsent, hprogress, .inr ⟨hnew, nofun, by simp only [handleCommand, heq]⟩⟩
  | setAvroSchema name avroSchema => exact ⟨s.sink, rfl, rfl, .inr ⟨trivial, nofun, rfl⟩⟩
  | dropTable name id =>
    obtain ⟨sink, hsent, hprogress, ⟨hnone, e, heq⟩ | ⟨hold, heq⟩⟩ := s.sink.dropTable_cases id
    · exact ⟨sink, hsent, hprogress, .inl ⟨fun h => h hnone, s.loop, .inl rfl, by simp only [handleCommand, heq]⟩⟩
    · exact ⟨sink, hsent, hprogress, .inr ⟨hold, nofun, by simp only [handleCommand, heq]⟩⟩
  | shutdown => exact ⟨s.sink, rfl, rfl, .inl ⟨id, .stopped, .inr rfl, rfl⟩⟩

end RestLoop

/-! ## Other steps -/

/-- The loop is at a request, or has panicked there. -/
def LoopPoint.isDelivering : LoopPoint Schema AvroSchema Row → Bool
  | .processing .. => true
  | .panicked p => p.isOfRequest
  | _ => false

/-- No request is in progress. -/
def LoopPoint.isIdle : LoopPoint Schema AvroSchema Row → Bool
  | .processing .. | .panicked _ => false
  | _ => true

namespace RestLoop

/-- How the loop comes to a request of the table `id` with these events. The last argument counts
the LSNs that are drawn in the step. -/
inductive Received (s : RestLoop Schema AvroSchema Row) : RestAction Schema AvroSchema Json Row → Option Client →
    SrcTableId → List (RestEvent Row) → Nat → Prop where
  | row {tx : Option Client} {id : SrcTableId} {operation : RowEventOperation} {row : Row} {rowLsn : Nat}
      (hstream : s.stream = .rowDrawn tx id operation row rowLsn) :
      Received s .finishRow tx id (RestSource.rowRequestEvents id operation row rowLsn s.source.lsnGenerator) 1
  | upload {r : FileEventRequest} {id : SrcTableId} (hoperation : r.operation ≠ .insert)
      (hid : s.source.srcTableNameToSrcId.lookup r.srcTableName = some id) :
      Received s (.pollRequest (.file r)) r.tx id [.fileUpload id r.files s.source.lsnGenerator] 1
  | snapshot {r : SnapshotRequest} {id : SrcTableId}
      (hid : s.source.srcTableNameToSrcId.lookup r.srcTableName = some id) :
      Received s (.pollRequest (.snapshot r)) (some r.tx) id [.snapshot id r.lsn] 0
  | flush {r : FlushRequest} {id : SrcTableId}
      (hid : s.source.srcTableNameToSrcId.lookup r.srcTableName = some id) :
      Received s (.pollRequest (.flush r)) (some r.tx) id [.flush id] 0
  | task {k : Nat} {t : FileInsertTask Row} (hlookup : s.pending.lookup k = some t)
      (hrunning : t.status = .running) (hfinished : t.isFinished = true) :
      Received s (.pollFinished k) t.tx t.srcTableId t.events 0

/-- What a step can do, other than a step of a task or the delivery of an event. -/
inductive Effect (s : RestLoop Schema AvroSchema Row) (a : RestAction Schema AvroSchema Json Row)
    (s' : RestLoop Schema AvroSchema Row) : Prop where
  | receives {tx : Option Client} {id : SrcTableId} {events : List (RestEvent Row)} {drawn : Nat}
      (hreceived : Received s a tx id events drawn) (hidle : s.loop = .selecting)
      (hloop : s'.loop = .processing tx events 0) (hsink : s'.sink = s.sink)
      (hresponses : s'.responses = s.responses)
      (hclients : ∀ x, tx.toList.count x + s'.waiting.count x ≤ s.waiting.count x + a.clients.count x)
      (hgenerator : s'.source.lsnGenerator = s.source.lsnGenerator + drawn)
      (hpending : ∀ k t, s'.pending.lookup k = some t → s.pending.lookup k = some t ∧ a ≠ .pollFinished k)
      (hstream : s'.stream.isRowDrawn = false)
  | draws {r : RowEventRequest Json} {id : SrcTableId} {row : Row} {readers : Nat} (ha : a = .pollRequest (.row r))
      (hid : s.source.srcTableNameToSrcId.lookup r.srcTableName = some id) (hidle : s.loop = .selecting)
      (heq : s' = { s.drawLsn with
        readers, stream := .rowDrawn r.tx id r.operation row s.source.lsnGenerator })
  | quiet (hsent : s'.sink.sent = s.sink.sent) (hprogress : s'.sink.tablesInProgress = s.sink.tablesInProgress)
      (hresponses : s'.responses = s.responses)
      (hclients : ∀ x, s'.waiting.count x ≤ s.waiting.count x + a.clients.count x)
      (hgenerator : s'.source.lsnGenerator = s.source.lsnGenerator ∨ ∃ name id schema persistLsn oldLsn,
        a = .finishAddTable ∧ s.loop = .seeding name id schema persistLsn oldLsn ∧
          s'.source.lsnGenerator = (s.source.storePersistLsn oldLsn persistLsn).lsnGenerator)
      (hpending : ∀ k t, s'.pending.lookup k = some t → s.pending.lookup k = some t ∨ t.events = [])
      (hstream : s'.stream.isRowDrawn = false ∨ s'.stream = s.stream ∧ (s'.loop = s.loop ∨ s.loop ≠ .selecting))
      (hloop : s'.loop = s.loop ∨ s.loop.isIdle = true ∧ s'.loop.isDelivering = false)

variable {s s' : RestLoop Schema AvroSchema Row} {a : RestAction Schema AvroSchema Json Row}

/-- A step that leaves the loop, the sink and the source alone. -/
theorem Effect.of_stream (hsink : s'.sink = s.sink) (hsource : s'.source = s.source)
    (hresponses : s'.responses = s.responses)
    (hclients : ∀ x, s'.waiting.count x ≤ s.waiting.count x + a.clients.count x)
    (hpending : ∀ k t, s'.pending.lookup k = some t → s.pending.lookup k = some t ∨ t.events = [])
    (hstream : s'.stream.isRowDrawn = false) (hloop : s'.loop = s.loop) : Effect s a s' :=
  .quiet (congrArg _ hsink) (congrArg _ hsink) hresponses hclients (.inl (congrArg _ hsource)) hpending (.inl hstream)
    (.inl hloop)

/-- The stream does not work on a request. -/
theorem waiting_le (hstream : s'.stream.clients = []) (hpending : s'.pending = s.pending) (x : Client) :
    s'.waiting.count x ≤ s.waiting.count x + a.clients.count x := by
  unfold waiting
  rw [hstream, hpending, List.nil_append, List.count_append]
  omega

/-- The stream answers in place. An error is only logged. -/
theorem Effect.of_answer {keeps tx : Option Client} {result : Except RestSourceError (List (RestEvent Row))}
    {readers : Nat} {source : RestSource Schema AvroSchema} (drawn : Nat) (hidle : s.loop = .selecting)
    (ha : ∀ k, a ≠ .pollFinished k) (hclients : s.stream.clients ++ a.clients = tx.toList)
    (herror : ∀ e, result = .error e → source = s.source)
    (hok : ∀ events, result = .ok events → source.lsnGenerator = s.source.lsnGenerator + drawn ∧
      ∃ id, Received s a tx id events drawn) :
    Effect s a ({ s with readers, source }.yieldAnswer keeps tx result) := by
  cases result with
  | error e =>
    exact .of_stream rfl (herror e rfl) rfl (waiting_le rfl rfl) (fun k t ht => .inl ht) rfl rfl
  | ok events =>
    obtain ⟨hgenerator, id, hreceived⟩ := hok events rfl
    refine .receives hreceived hidle rfl rfl rfl (fun x => ?_) hgenerator (fun k t ht => ⟨ht, ha k⟩) rfl
    change _ + (Tasks.clients s.pending).count x ≤ (s.stream.clients ++ Tasks.clients s.pending).count x + _
    rw [← hclients, List.count_append, List.count_append]
    omega

theorem getSrcTableId_eq_ok {source : RestSource Schema AvroSchema} {name : String} {id : SrcTableId}
    (h : source.getSrcTableId name = .ok id) : source.srcTableNameToSrcId.lookup name = some id := by
  unfold RestSource.getSrcTableId at h
  split at h
  · rename_i hid
    cases h
    exact hid
  · cases h

theorem handleRequest_effect {r : EventRequest Json} (hidle : s.loop = .selecting) (hclients : s.stream.clients = [])
    {readers : Nat} :
    Effect s (.pollRequest r) ({ s with readers, stream := .receiving }.handleRequest c r) := by
  have hrequest {r} (k) : (.pollRequest r : RestAction Schema AvroSchema Json Row) ≠ .pollFinished k := by rintro ⟨⟩
  cases r with
  | row r =>
    unfold handleRequest
    dsimp only
    split
    · exact .of_stream rfl rfl rfl (waiting_le rfl rfl) (fun k t ht => .inl ht) rfl rfl
    · rename_i id row hdecode
      refine .draws rfl ?_ hidle rfl
      unfold RestSource.decodeRowRequest at hdecode
      split at hdecode
      · cases hdecode
      · obtain ⟨id', hid, hrest⟩ := bind_eq_ok.mp hdecode
        obtain ⟨row', -, hpair⟩ := bind_eq_ok.mp hrest
        cases hpair
        exact getSrcTableId_eq_ok hid
  | file r =>
    unfold handleRequest
    dsimp only
    split
    · split
      · exact .of_stream rfl rfl rfl (waiting_le rfl rfl) (fun k t ht => .inl ht) rfl rfl
      · refine .of_stream rfl rfl rfl (fun x => ?_) (fun k t ht => .inl ht) rfl rfl
        change (r.tx.toList ++ Tasks.clients s.pending).count x ≤
          (s.stream.clients ++ Tasks.clients s.pending).count x + r.tx.toList.count x
        rw [List.count_append, List.count_append]
        omega
    · rename_i hoperation
      refine Effect.of_answer (s := s) 1 hidle hrequest (by rw [hclients]; rfl) ?_ ?_
      · intro e he
        unfold RestSource.processFileUploadSync at he ⊢
        split at he
        · rfl
        · cases he
      · intro events hevents
        unfold RestSource.processFileUploadSync at hevents ⊢
        split at hevents
        · cases hevents
        · rename_i id hid
          cases hevents
          exact ⟨rfl, id, .upload hoperation (getSrcTableId_eq_ok hid)⟩
  | snapshot r =>
    refine Effect.of_answer (s := s) 0 hidle hrequest (by rw [hclients]; rfl) (fun _ _ => rfl) fun events hevents => ?_
    unfold RestSource.processSnapshotRequest at hevents
    obtain ⟨id, hid, hok⟩ := bind_eq_ok.mp hevents
    cases hok
    exact ⟨rfl, id, .snapshot (getSrcTableId_eq_ok hid)⟩
  | flush r =>
    refine Effect.of_answer (s := s) 0 hidle hrequest (by rw [hclients]; rfl) (fun _ _ => rfl) fun events hevents => ?_
    unfold RestSource.processFlushRequest at hevents
    obtain ⟨id, hid, hok⟩ := bind_eq_ok.mp hevents
    cases hok
    exact ⟨rfl, id, .flush (getSrcTableId_eq_ok hid)⟩

theorem joinTask_effect {k : Nat} (hidle : s.loop = .selecting) {readers : Nat}
    (h : { s with readers, stream := .receiving }.joinTask k = some s') :
    Effect s (.pollFinished k : RestAction Schema AvroSchema Json Row) s' := by
  have herased : ∀ k' t, (s.pending.erase k).lookup k' = some t →
      s.pending.lookup k' = some t ∧ RestAction.pollFinished k ≠ (.pollFinished k' : RestAction Schema AvroSchema Json Row) := by
    intro k' t ht
    rw [AssocMap.lookup_erase_ite] at ht
    split at ht
    · cases ht
    · rename_i hne
      exact ⟨ht, fun heq => hne (RestAction.pollFinished.inj heq).symm⟩
  unfold joinTask at h
  split at h
  · cases h
  · rename_i t ht
    have hclients : ∀ x, t.tx.toList.count x + (Tasks.clients (s.pending.erase k)).count x ≤ s.waiting.count x + 0 := by
      intro x
      unfold waiting
      rw [List.count_append, Tasks.clients_erase ht]
      exact Nat.le_add_left _ _
    have hdropped : ∀ x, (Tasks.clients (s.pending.erase k)).count x ≤ s.waiting.count x + 0 :=
      fun x => Nat.le_trans (Nat.le_add_left _ _) (hclients x)
    split at h
    · rename_i hfinished
      dsimp only at h
      split at h
      · rename_i hrunning
        cases h
        exact .receives (.task ht hrunning hfinished) hidle rfl rfl rfl hclients rfl herased rfl
      · cases h
        exact .of_stream rfl rfl rfl hdropped (fun k' t' ht' => .inl (herased k' t' ht').1) rfl rfl
      · cases h
        exact .of_stream rfl rfl rfl hdropped (fun k' t' ht' => .inl (herased k' t' ht').1) rfl rfl
    · cases h

/-- A command does not lead to a request. -/
theorem finishCommand_isDelivering (s : RestLoop Schema AvroSchema Row)
    (outcome : RestSource Schema AvroSchema × Except RestPanic (Except RestSourceError Unit))
    (hpanic : ∀ p, outcome.2 = .error p → p.isOfRequest = false) :
    (s.finishCommand outcome).loop.isDelivering = false := by
  obtain ⟨source, result⟩ := outcome
  cases result with
  | error p => exact hpanic p rfl
  | ok result => rfl

theorem acquireWrite_effect [DecidableEq Schema] (h : s.acquireWrite c = some s') : Effect s a s' := by
  have hquiet : ∀ source loop cmd, source.lsnGenerator = s.source.lsnGenerator → s.loop = .writing cmd →
      loop.isDelivering = false → Effect s a { s with source, loop } := by
    intro source loop cmd hgenerator hwriting hloop
    refine .quiet rfl rfl rfl (fun _ => Nat.le_add_right _ _) (.inl hgenerator) (fun k t ht => .inl ht)
      (.inr ⟨rfl, .inr ?_⟩) (.inr ⟨?_, hloop⟩)
    · rw [hwriting]
      exact nofun
    · rw [hwriting]
      rfl
  have hfinish : ∀ cmd (outcome : RestSource Schema AvroSchema × Except RestPanic (Except RestSourceError Unit)),
      outcome.1.lsnGenerator = s.source.lsnGenerator → (∀ p, outcome.2 = .error p → p.isOfRequest = false) →
      s.loop = .writing cmd → Effect s a (s.finishCommand outcome) :=
    fun cmd outcome hgenerator hpanic hwriting =>
      hquiet outcome.1 _ cmd hgenerator hwriting (finishCommand_isDelivering s outcome hpanic)
  unfold acquireWrite at h
  split at h
  · cases h
  · split at h
    · rename_i hwriting
      cases h
      exact hquiet s.source _ _ rfl hwriting rfl
    · rename_i hwriting
      cases h
      exact hfinish _ _ (RestSource.setAvroSchema_lsnGenerator ..) (RestSource.setAvroSchema_panic c _ _ _) hwriting
    · rename_i hwriting
      cases h
      exact hfinish _ _ (RestSource.removeTable_lsnGenerator ..) (RestSource.removeTable_panic _ _) hwriting
    · cases h

theorem finishAddTable_effect (h : s.finishAddTable = some s') :
    Effect s (.finishAddTable : RestAction Schema AvroSchema Json Row) s' := by
  unfold finishAddTable at h
  split at h
  · rename_i hseeding
    cases h
    refine .quiet rfl rfl rfl (fun _ => Nat.le_add_right _ _)
      (.inr ⟨_, _, _, _, _, rfl, hseeding, RestSource.insertTable_lsnGenerator ..⟩) (fun k t ht => .inl ht)
      (.inr ⟨rfl, .inr ?_⟩) (.inr ⟨?_, finishCommand_isDelivering s _ (RestSource.insertTable_panic _ _ _ _)⟩)
    · rw [hseeding]
      exact nofun
    · rw [hseeding]
      rfl
  · cases h

/-- A step that is neither one of a task nor a delivery. A row request is only handled while the
loop is at its `select`. -/
theorem next_effect [DecidableEq Schema] (h : next c s a = some s') (htask : a.isTask = false)
    (hdeliver : ∀ closes, a ≠ .processEvent closes) (hdrawn : s.stream.isRowDrawn = true → s.loop = .selecting) :
    Effect s a s' := by
  have hselect : ∀ {x : Option (RestLoop Schema AvroSchema Row)}, (if s.isSelecting then x else none) = some s' →
      s.loop = .selecting ∧ s.stream.isRowDrawn = false ∧ x = some s' := by
    intro x hx
    split at hx
    · rename_i hselecting
      obtain ⟨hidle, hrow⟩ := isSelecting_iff.mp hselecting
      exact ⟨hidle, hrow, hx⟩
    · cases hx
  cases a with
  | command cmd =>
    obtain ⟨hidle, hrow, hsome⟩ := hselect h
    cases hsome
    obtain ⟨sink, hsent, hprogress, ⟨-, loop, hcases, heq⟩ | ⟨-, -, heq⟩⟩ := s.handleCommand_cases cmd
    · rw [heq]
      refine .quiet hsent hprogress rfl (fun _ => Nat.le_add_right _ _) (.inl rfl) (fun k t ht => .inl ht) (.inl hrow) ?_
      rcases hcases with rfl | rfl
      · exact .inl rfl
      · exact .inr ⟨by rw [hidle]; rfl, rfl⟩
    · rw [heq]
      exact .quiet hsent hprogress rfl (fun _ => Nat.le_add_right _ _) (.inl rfl) (fun k t ht => .inl ht) (.inl hrow)
        (.inr ⟨by rw [hidle]; rfl, rfl⟩)
  | poll =>
    obtain ⟨-, -, hresume⟩ := hselect h
    obtain ⟨-, readers, rfl⟩ := resume_eq hresume
    exact .of_stream rfl rfl rfl (waiting_le rfl rfl) (fun k t ht => .inl ht) rfl rfl
  | pollFinished k =>
    obtain ⟨hidle, -, hbind⟩ := hselect h
    obtain ⟨s₁, hresume, hjoin⟩ := Option.bind_eq_some_iff.mp hbind
    obtain ⟨-, readers, rfl⟩ := resume_eq hresume
    exact joinTask_effect hidle hjoin
  | pollRequest r =>
    unfold next at h
    dsimp only at h
    split at h
    · rename_i hselecting
      obtain ⟨s₁, hresume, rfl⟩ := Option.map_eq_some_iff.mp h
      obtain ⟨hclients, readers, rfl⟩ := resume_eq hresume
      exact handleRequest_effect (isSelecting_iff.mp hselecting.1).1 hclients
    · cases h
  | pollClosed =>
    obtain ⟨-, -, hmap⟩ := hselect h
    obtain ⟨s₁, hresume, rfl⟩ := Option.map_eq_some_iff.mp hmap
    obtain ⟨-, readers, rfl⟩ := resume_eq hresume
    refine .of_stream rfl rfl rfl (waiting_le ?_ rfl) (fun k t ht => .inl ht) ?_ rfl
    · dsimp only
      split <;> rfl
    · dsimp only
      split <;> rfl
  | finishRow =>
    change s.finishRow = some s' at h
    unfold finishRow at h
    split at h
    · rename_i hstream
      cases h
      refine Effect.of_answer (s := s) 1 (hdrawn (by rw [hstream]; rfl)) nofun
        (by rw [hstream]; exact List.append_nil _) nofun ?_
      rintro _ ⟨⟩
      exact ⟨rfl, _, .row hstream⟩
    · cases h
  | grantPermit =>
    obtain ⟨-, -, hgrant⟩ := hselect h
    unfold grantPermit at hgrant
    split at hgrant
    · rename_i r id hstream
      split at hgrant
      · cases hgrant
        refine .of_stream rfl rfl rfl (fun x => ?_) (fun k t ht => ?_) rfl rfl
        · change (Tasks.clients (s.pending.insert _ _)).count x ≤ (s.stream.clients ++ Tasks.clients s.pending).count x
          rw [hstream, List.count_append]
          exact Tasks.clients_insert_le s.pending s.nextTask ⟨r.tx, id, r.files, false, [], .running⟩ x
        change (s.pending.insert _ _).lookup k = some t at ht
        rw [AssocMap.lookup_insert_ite] at ht
        split at ht
        · cases ht
          exact .inr rfl
        · exact .inl ht
      · cases hgrant
    · cases hgrant
  | acquireWrite => exact acquireWrite_effect h
  | finishAddTable => exact finishAddTable_effect h
  | closeReceiver id =>
    cases h
    obtain ⟨hsent, hprogress⟩ := s.sink.closeReceiver_same id
    exact .quiet hsent hprogress rfl (fun _ => Nat.le_add_right _ _) (.inl rfl) (fun k t ht => .inl ht)
      (.inr ⟨rfl, .inl rfl⟩) (.inl rfl)
  | processEvent closes => exact absurd rfl (hdeliver closes)
  | taskOpen | taskRow | taskCommit | taskFail | taskPanic => cases htask

end RestLoop

/-! ## Small runs -/

/-- Converters that accept everything, for tables without columns. -/
def unitConverters : Converters Unit Unit Unit Unit where
  json _ _ := some ()
  protobuf _ := some ()
  avro _ _ := some ()
  arrowSchema _ := some ()

abbrev UnitAction : Type := RestAction Unit Unit Unit Unit

/-- A table is added. -/
def addTableRun (name : String) (id : SrcTableId) (persistLsn : Option Nat) : List UnitAction :=
  [.command (.addTable name id () persistLsn), .acquireWrite, .finishAddTable]

/-- A row is inserted and its client is answered. -/
def insertRowRun (name : String) (client : Client) : List UnitAction :=
  [.pollRequest (.row ⟨name, .insert, .json (), some client⟩), .finishRow, .processEvent false, .processEvent false,
    .processEvent false]

end Moonlink.Rest
