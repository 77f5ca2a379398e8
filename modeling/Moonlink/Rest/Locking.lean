-- SUMMARY: The read guards of the suspended stream, and when a command of the REST loop waits for one forever.
import Moonlink.Rest.Steps

/-!
# The lock of the source

The stream keeps its read guard over the `yield` of a request that it has answered in place,
until it is polled again. The loop polls it only when it is not busy with a command. So
a command that is taken right after such an answer and needs the write lock waits for a guard
that only the loop itself could have dropped.
-/

namespace Moonlink.Rest

open Lib

variable {Schema AvroSchema Json Row : Type} {c : Converters Schema AvroSchema Json Row}

/-- The read guards that are alive while the stream is at this point. -/
def StreamPoint.guards : StreamPoint Row → Nat
  | .rowDrawn .. | .answered _ => 1
  | _ => 0

/-- The stream was left at the `yield` of a request that it has answered in place. -/
def StreamPoint.IsAnswered (p : StreamPoint Row) : Prop := ∃ keeps, p = .answered keeps

instance (p : StreamPoint Row) : Decidable p.IsAnswered :=
  match p with
  | .answered keeps => isTrue ⟨keeps, rfl⟩
  | .receiving | .rowDrawn .. | .acquiring .. | .ended => isFalse fun ⟨_, h⟩ => (nomatch h)

namespace RestLoop

variable {s s' s₁ : RestLoop Schema AvroSchema Row}

/-- A command waits for the write lock although a read guard is alive. -/
def Blocked (s : RestLoop Schema AvroSchema Row) : Prop := ∃ cmd, s.loop = .writing cmd ∧ s.readers ≠ 0

/-- A command that needs the write lock is not taken right after the answer of a request: the
stream was polled in between. -/
def PolledBefore (s : RestLoop Schema AvroSchema Row) : RestAction Schema AvroSchema Json Row → Prop
  | .command cmd => s.WantsLock cmd → ¬ s.stream.IsAnswered
  | _ => True

instance (a : RestAction Schema AvroSchema Json Row) : Decidable (s.PolledBefore a) :=
  match a with
  | .command _ => inferInstanceAs (Decidable (_ → _))
  | .poll | .pollFinished _ | .pollRequest _ | .pollClosed | .finishRow | .grantPermit | .acquireWrite
  | .finishAddTable | .processEvent _ | .taskOpen _ | .taskRow _ _ | .taskCommit _ | .taskFail _ | .taskPanic _
  | .closeReceiver _ => isTrue trivial

/-- The guards are those of the stream, and only a command that needs the lock waits for it. -/
structure LockInv (s : RestLoop Schema AvroSchema Row) : Prop where
  readers : s.readers = s.stream.guards
  writing : s.loop ≠ .writing .shutdown
  row : s.stream.isRowDrawn = true → s.loop = .selecting

theorem LockInv.init : LockInv (init : RestLoop Schema AvroSchema Row) := ⟨rfl, nofun, nofun⟩

/-- The loop does not wait for the lock. -/
def NotWriting (s : RestLoop Schema AvroSchema Row) : Prop := ∀ cmd, s.loop ≠ .writing cmd

theorem NotWriting.not_blocked (h : NotWriting s) : ¬ s.Blocked := fun ⟨cmd, hcmd, _⟩ => h cmd hcmd

/-- The lock, the stream and the loop are as before. -/
structure SameLock (s s' : RestLoop Schema AvroSchema Row) : Prop where
  readers : s'.readers = s.readers
  stream : s'.stream = s.stream
  loop : s'.loop = s.loop

theorem SameLock.inv (h : SameLock s s') (hs : LockInv s) : LockInv s' where
  readers := by rw [h.readers, h.stream, hs.readers]
  writing := by
    rw [h.loop]
    exact hs.writing
  row := by
    rw [h.stream, h.loop]
    exact hs.row

theorem SameLock.blocked_iff (h : SameLock s s') : s'.Blocked ↔ s.Blocked := by
  unfold Blocked
  rw [h.loop, h.readers]

/-! ## The stream -/

theorem resume_lock (h : s.resume = some s') (hs : LockInv s) :
    s'.stream = .receiving ∧ s'.readers = 0 ∧ s'.loop = s.loop := by
  unfold resume at h
  split at h
  · rename_i hstream
    cases h
    refine ⟨hstream, ?_, rfl⟩
    rw [hs.readers, hstream]
    rfl
  · rename_i hstream
    cases h
    refine ⟨rfl, ?_, rfl⟩
    change s.readers - 1 = 0
    rw [hs.readers, hstream]
    rfl
  · cases h

theorem receive_lock (s : RestLoop Schema AvroSchema Row) (tx : Option Client)
    (result : Except RestSourceError (List (RestEvent Row))) :
    (s.receive tx result).readers = s.readers ∧ (s.receive tx result).stream = s.stream ∧
      (NotWriting s → NotWriting (s.receive tx result)) := by
  cases result with
  | error e => exact ⟨rfl, rfl, id⟩
  | ok events => exact ⟨rfl, rfl, nofun⟩

theorem yieldAnswer_lock {keeps tx : Option Client} {result : Except RestSourceError (List (RestEvent Row))}
    (hreaders : s.readers = 1) (hloop : NotWriting s) :
    LockInv (s.yieldAnswer keeps tx result) ∧ NotWriting (s.yieldAnswer keeps tx result) := by
  obtain ⟨hr, hst, hw⟩ := receive_lock { s with stream := .answered keeps } tx result
  change (s.yieldAnswer keeps tx result).readers = s.readers at hr
  change (s.yieldAnswer keeps tx result).stream = .answered keeps at hst
  refine ⟨⟨?_, hw hloop _, ?_⟩, hw hloop⟩
  · rw [hr, hst]
    exact hreaders
  · rw [hst]
    exact nofun

theorem handleRequest_lock {r : EventRequest Json} (hreaders : s.readers = 0) (hloop : s.loop = .selecting) :
    LockInv (s.handleRequest c r) ∧ NotWriting (s.handleRequest c r) := by
  have hlocked : s.lockRead.readers = 1 := by
    change s.readers + 1 = 1
    rw [hreaders]
  have hnot : NotWriting s := by
    intro cmd hcmd
    rw [hloop] at hcmd
    cases hcmd
  cases r with
  | row r =>
    unfold handleRequest
    dsimp only
    split
    · exact yieldAnswer_lock hlocked hnot
    · exact ⟨⟨hlocked, hnot _, fun _ => hloop⟩, hnot⟩
  | file r =>
    unfold handleRequest
    dsimp only
    split
    · split
      · exact yieldAnswer_lock hlocked hnot
      · exact ⟨⟨hreaders, hnot _, nofun⟩, hnot⟩
    · exact yieldAnswer_lock hlocked hnot
  | snapshot r => exact yieldAnswer_lock hlocked hnot
  | flush r => exact yieldAnswer_lock hlocked hnot

theorem joinTask_lock {k : Nat} (h : s.joinTask k = some s') (hreaders : s.readers = 0)
    (hstream : s.stream = .receiving) (hloop : NotWriting s) : LockInv s' ∧ NotWriting s' := by
  unfold joinTask at h
  split at h
  · cases h
  · rename_i t _
    split at h
    · have hreceive : ∀ tx result, s' = { s with pending := s.pending.erase k }.receive tx result →
          LockInv s' ∧ NotWriting s' := by
        rintro tx result rfl
        obtain ⟨hr, hst, hw⟩ := receive_lock { s with pending := s.pending.erase k } tx result
        refine ⟨⟨?_, hw hloop _, ?_⟩, hw hloop⟩
        · rw [hr, hst, hstream]
          exact hreaders
        · rw [hst, hstream]
          exact nofun
      dsimp only at h
      split at h <;> cases h <;> exact hreceive _ _ rfl
    · cases h

/-! ## Steps -/

theorem isSelecting_notWriting (h : s.isSelecting = true) : NotWriting s := by
  intro cmd hcmd
  rw [(isSelecting_iff.mp h).1] at hcmd
  cases hcmd

/-- At the `select`, a guard is alive exactly if the stream was left at an answer. -/
theorem LockInv.readers_ne_zero_iff (hs : LockInv s) (hselecting : s.isSelecting = true) :
    s.readers ≠ 0 ↔ s.stream.IsAnswered := by
  have hrow := (isSelecting_iff.mp hselecting).2
  rw [hs.readers]
  cases hstream : s.stream with
  | rowDrawn tx id operation row rowLsn =>
    rw [hstream] at hrow
    cases hrow
  | answered keeps => exact ⟨fun _ => ⟨keeps, rfl⟩, fun _ => Nat.one_ne_zero⟩
  | receiving => exact ⟨fun h => absurd rfl h, fun ⟨_, h⟩ => (nomatch h)⟩
  | acquiring r id => exact ⟨fun h => absurd rfl h, fun ⟨_, h⟩ => (nomatch h)⟩
  | ended => exact ⟨fun h => absurd rfl h, fun ⟨_, h⟩ => (nomatch h)⟩

theorem handleCommand_lock (hs : LockInv s) (hselecting : s.isSelecting = true)
    (cmd : RestCommand Schema AvroSchema) :
    LockInv (s.handleCommand cmd) ∧ ((s.handleCommand cmd).Blocked ↔ s.WantsLock cmd ∧ s.stream.IsAnswered) := by
  have hguards := hs.readers_ne_zero_iff hselecting
  have hloop := isSelecting_notWriting hselecting
  have hrow : ∀ {P : Prop}, s.stream.isRowDrawn = true → P := fun h => by
    rw [(isSelecting_iff.mp hselecting).2] at h
    cases h
  obtain ⟨sink, -, -, ⟨hwants, loop, hcases, heq⟩ | ⟨hwants, hcmd, heq⟩⟩ := s.handleCommand_cases cmd
  · have hnot : NotWriting (s.handleCommand cmd) := by
      rw [heq]
      rcases hcases with rfl | rfl
      · exact hloop
      · exact nofun
    refine ⟨⟨by rw [heq]; exact hs.readers, hnot _, ?_⟩, fun h => absurd h hnot.not_blocked, fun h => absurd h.1 hwants⟩
    rw [heq]
    exact hrow
  · rw [heq]
    refine ⟨⟨hs.readers, fun h => hcmd ?_, hrow⟩, fun ⟨_, _, h⟩ => ⟨hwants, hguards.mp h⟩, fun h => ⟨cmd, rfl, hguards.mpr h.2⟩⟩
    cases h
    rfl

theorem resume_selecting (hs : LockInv s) (hselecting : s.isSelecting = true) (h : s.resume = some s₁) :
    s₁.readers = 0 ∧ s₁.stream = .receiving ∧ s₁.loop = .selecting := by
  obtain ⟨hstream, hreaders, hloop⟩ := resume_lock h hs
  exact ⟨hreaders, hstream, hloop.trans (isSelecting_iff.mp hselecting).1⟩

/-- The lock is free of waiting commands before and after. -/
structure Quiet (s s' : RestLoop Schema AvroSchema Row) : Prop where
  inv : LockInv s'
  before : ¬ s.Blocked
  after : ¬ s'.Blocked

theorem Quiet.of_selecting (hselecting : s.isSelecting = true) (h : LockInv s' ∧ NotWriting s') : Quiet s s' :=
  ⟨h.1, (isSelecting_notWriting hselecting).not_blocked, h.2.not_blocked⟩

theorem lockInv_receiving (hreaders : s.readers = 0) (hstream : s.stream.guards = 0) (hloop : s.loop = .selecting) :
    LockInv s ∧ NotWriting s := by
  have hnot : NotWriting s := fun cmd => by
    rw [hloop]
    exact nofun
  exact ⟨⟨hreaders.trans hstream.symm, hnot _, fun _ => hloop⟩, hnot⟩

theorem poll_quiet (hs : LockInv s) (hselecting : s.isSelecting = true) (h : s.resume = some s') : Quiet s s' := by
  obtain ⟨hreaders, hstream, hloop⟩ := resume_selecting hs hselecting h
  exact .of_selecting hselecting (lockInv_receiving hreaders (by rw [hstream]; rfl) hloop)

theorem pollFinished_quiet {k : Nat} (hs : LockInv s) (hselecting : s.isSelecting = true)
    (h : s.resume.bind (·.joinTask k) = some s') : Quiet s s' := by
  obtain ⟨s₁, hresume, hjoin⟩ := Option.bind_eq_some_iff.mp h
  obtain ⟨hreaders, hstream, hloop⟩ := resume_selecting hs hselecting hresume
  exact .of_selecting hselecting
    (joinTask_lock hjoin hreaders hstream (lockInv_receiving hreaders (by rw [hstream]; rfl) hloop).2)

theorem pollRequest_quiet {r : EventRequest Json} (hs : LockInv s) (hselecting : s.isSelecting = true)
    (h : s.resume.map (·.handleRequest c r) = some s') : Quiet s s' := by
  obtain ⟨s₁, hresume, rfl⟩ := Option.map_eq_some_iff.mp h
  obtain ⟨hreaders, -, hloop⟩ := resume_selecting hs hselecting hresume
  exact .of_selecting hselecting (handleRequest_lock hreaders hloop)

theorem pollClosed_quiet {f : RestLoop Schema AvroSchema Row → StreamPoint Row} (hs : LockInv s)
    (hselecting : s.isSelecting = true) (hf : ∀ s₁, s₁.stream = .receiving → (f s₁).guards = 0)
    (h : s.resume.map (fun s => { s with requestsClosed := true, stream := f s }) = some s') : Quiet s s' := by
  obtain ⟨s₁, hresume, rfl⟩ := Option.map_eq_some_iff.mp h
  obtain ⟨hreaders, hstream, hloop⟩ := resume_selecting hs hselecting hresume
  exact .of_selecting hselecting (lockInv_receiving hreaders (hf s₁ hstream) hloop)

theorem finishRow_quiet (hs : LockInv s) (h : s.finishRow = some s') : Quiet s s' := by
  unfold finishRow at h
  split at h
  · rename_i hstream
    cases h
    have hloop := hs.row (by rw [hstream]; rfl)
    have hreaders : s.readers = 1 := by
      rw [hs.readers, hstream]
      rfl
    have hnot : NotWriting s := fun cmd => by
      rw [hloop]
      exact nofun
    obtain ⟨hinv, hnot'⟩ := yieldAnswer_lock (s := { s with source := s.source.drawLsn.2 }) hreaders hnot
    exact ⟨hinv, hnot.not_blocked, hnot'.not_blocked⟩
  · cases h

theorem grantPermit_quiet (hs : LockInv s) (hselecting : s.isSelecting = true) (h : s.grantPermit = some s') :
    Quiet s s' := by
  unfold grantPermit at h
  split at h
  · rename_i hstream
    split at h
    · cases h
      refine .of_selecting hselecting (lockInv_receiving ?_ rfl (isSelecting_iff.mp hselecting).1)
      change s.readers = 0
      rw [hs.readers, hstream]
      rfl
    · cases h
  · cases h

/-- A step of the loop itself, which does not touch the lock and is not in the way of one. -/
theorem Quiet.of_loop {source : RestSource Schema AvroSchema} {sink : RestSink Row} {responses : List (Client × Nat)}
    {loop : LoopPoint Schema AvroSchema Row} (hs : LockInv s) (hbefore : ¬ s.Blocked) (hloop : s.loop ≠ .selecting)
    (hnot : ∀ cmd, loop ≠ .writing cmd) : Quiet s { s with source, sink, responses, loop } := by
  refine ⟨⟨hs.readers, hnot _, fun hrow => absurd (hs.row hrow) hloop⟩, hbefore, ?_⟩
  rintro ⟨cmd, hcmd, -⟩
  exact hnot cmd hcmd

theorem finishCommand_loop (s : RestLoop Schema AvroSchema Row)
    (outcome : RestSource Schema AvroSchema × Except RestPanic (Except RestSourceError Unit))
    (cmd : RestCommand Schema AvroSchema) : (s.finishCommand outcome).loop ≠ .writing cmd := by
  obtain ⟨source, result⟩ := outcome
  cases result <;> exact nofun

theorem acquireWrite_quiet [DecidableEq Schema] (hs : LockInv s) (h : s.acquireWrite c = some s') : Quiet s s' := by
  unfold acquireWrite at h
  split at h
  · cases h
  · rename_i hreaders
    have hbefore : ¬ s.Blocked := fun ⟨_, _, hne⟩ => hreaders hne
    split at h <;> cases h <;> rename_i hloop
    · exact .of_loop hs hbefore (by rw [hloop]; exact nofun) fun _ => nofun
    · exact .of_loop hs hbefore (by rw [hloop]; exact nofun) (finishCommand_loop s _)
    · exact .of_loop hs hbefore (by rw [hloop]; exact nofun) (finishCommand_loop s _)

theorem finishAddTable_quiet (hs : LockInv s) (h : s.finishAddTable = some s') : Quiet s s' := by
  unfold finishAddTable at h
  split at h
  · rename_i hloop
    cases h
    refine .of_loop hs ?_ (by rw [hloop]; exact nofun) (finishCommand_loop s _)
    rintro ⟨cmd, hcmd, -⟩
    rw [hloop] at hcmd
    cases hcmd
  · cases h

theorem processEvent_quiet {closes : Bool} (hs : LockInv s) (h : s.processEvent closes = some s') : Quiet s s' := by
  have hbefore : ∀ {tx : Option Client} {events : List (RestEvent Row)} {lsn : Nat},
      s.loop = .processing tx events lsn → ¬ s.Blocked := by
    rintro tx events lsn hloop ⟨cmd, hcmd, -⟩
    rw [hloop] at hcmd
    cases hcmd
  unfold processEvent at h
  split at h
  · rename_i hloop
    cases h
    exact .of_loop hs (hbefore hloop) (by rw [hloop]; exact nofun) fun _ => nofun
  · rename_i hloop
    split at h
    · split at h <;> cases h <;> exact .of_loop hs (hbefore hloop) (by rw [hloop]; exact nofun) fun _ => nofun
    · cases h
      exact .of_loop hs (hbefore hloop) (by rw [hloop]; exact nofun) fun _ => nofun
  · cases h

/-- Whatever is not a command leaves a waiting command waiting, and lets no other one wait. -/
theorem next_lock [DecidableEq Schema] {a : RestAction Schema AvroSchema Json Row} (hs : LockInv s)
    (h : next c s a = some s') (hcmd : ∀ cmd, a ≠ .command cmd) : LockInv s' ∧ (s'.Blocked ↔ s.Blocked) := by
  have hquiet : Quiet s s' → LockInv s' ∧ (s'.Blocked ↔ s.Blocked) :=
    fun hq => ⟨hq.inv, iff_of_false hq.after hq.before⟩
  have hselected : ∀ {p : Prop} [Decidable p] {x : Option (RestLoop Schema AvroSchema Row)},
      (if p then x else none) = some s' → p ∧ x = some s' := by
    intro p _ x hif
    split at hif
    · rename_i hp
      exact ⟨hp, hif⟩
    · cases hif
  cases htask : a.isTask with
  | true =>
    obtain ⟨k, t, t', lsn, -, -, rfl⟩ := next_isTask h htask
    have hsame : SameLock s { s with source := { s.source with lsnGenerator := lsn }, pending := s.pending.insert k t' } :=
      ⟨rfl, rfl, rfl⟩
    exact ⟨hsame.inv hs, hsame.blocked_iff⟩
  | false =>
    cases a with
    | command cmd => exact absurd rfl (hcmd cmd)
    | taskOpen | taskRow | taskCommit | taskFail | taskPanic => cases htask
    | poll =>
      obtain ⟨hselecting, hresume⟩ := hselected h
      exact hquiet (poll_quiet hs hselecting hresume)
    | pollFinished k =>
      obtain ⟨hselecting, hjoin⟩ := hselected h
      exact hquiet (pollFinished_quiet hs hselecting hjoin)
    | pollRequest r =>
      obtain ⟨hselecting, hrequest⟩ := hselected h
      exact hquiet (pollRequest_quiet hs hselecting.1 hrequest)
    | pollClosed =>
      obtain ⟨hselecting, hclosed⟩ := hselected h
      refine hquiet (pollClosed_quiet hs hselecting (fun s₁ hstream => ?_) hclosed)
      split
      · rfl
      · rw [hstream]
        rfl
    | finishRow => exact hquiet (finishRow_quiet hs h)
    | grantPermit =>
      obtain ⟨hselecting, hgrant⟩ := hselected h
      exact hquiet (grantPermit_quiet hs hselecting hgrant)
    | acquireWrite => exact hquiet (acquireWrite_quiet hs h)
    | finishAddTable => exact hquiet (finishAddTable_quiet hs h)
    | processEvent closes => exact hquiet (processEvent_quiet hs h)
    | closeReceiver id =>
      cases h
      have hsame : SameLock s { s with sink := s.sink.closeReceiver id } := ⟨rfl, rfl, rfl⟩
      exact ⟨hsame.inv hs, hsame.blocked_iff⟩

/-- A step lets the loop wait for its own guard exactly if it is a command that needs the lock
right after an answer. A loop that waits so waits forever. -/
theorem LockInv.next [DecidableEq Schema] {a : RestAction Schema AvroSchema Json Row} (hs : LockInv s)
    (h : next c s a = some s') : LockInv s' ∧ (s'.Blocked ↔ s.Blocked ∨ ¬ s.PolledBefore a) := by
  by_cases hcmd : ∃ cmd, a = .command cmd
  · obtain ⟨cmd, rfl⟩ := hcmd
    change (if s.isSelecting = true then _ else none) = _ at h
    split at h
    · rename_i hselecting
      cases h
      obtain ⟨hinv, hblocked⟩ := handleCommand_lock hs hselecting cmd
      refine ⟨hinv, hblocked.trans ?_⟩
      have hbefore := (isSelecting_notWriting hselecting).not_blocked
      change _ ↔ s.Blocked ∨ ¬ (s.WantsLock cmd → ¬ s.stream.IsAnswered)
      rw [Classical.not_imp, not_not, or_iff_right hbefore]
    · cases h
  · have hother : ∀ cmd, a ≠ .command cmd := fun cmd hcmd' => hcmd ⟨cmd, hcmd'⟩
    obtain ⟨hinv, hblocked⟩ := next_lock hs h hother
    refine ⟨hinv, hblocked.trans (or_iff_left ?_).symm⟩
    rw [not_not]
    cases a with
    | command cmd => exact absurd rfl (hother cmd)
    | _ => exact trivial

/-- Whenever a command waits for the write lock, no read guard is alive and the lock is granted. -/
def NeverWaitsForItself [DecidableEq Schema] (c : Converters Schema AvroSchema Json Row)
    (s : RestLoop Schema AvroSchema Row) : Prop :=
  ∀ cmd, s.loop = .writing cmd → s.stream.guards = 0 ∧ (s.acquireWrite c).isSome = true

theorem LockInv.neverWaitsForItself_iff [DecidableEq Schema] (hs : LockInv s) :
    s.NeverWaitsForItself c ↔ ¬ s.Blocked := by
  constructor
  · rintro hnever ⟨cmd, hcmd, hne⟩
    exact hne (hs.readers.trans (hnever cmd hcmd).1)
  · intro hblocked cmd hcmd
    have hreaders : s.readers = 0 := by
      by_contra hne
      exact hblocked ⟨cmd, hcmd, hne⟩
    refine ⟨hs.readers.symm.trans hreaders, ?_⟩
    unfold acquireWrite
    rw [if_neg (not_not_intro hreaders), hcmd]
    cases cmd with
    | shutdown => exact absurd hcmd hs.writing
    | addTable | setAvroSchema | dropTable => rfl

/-- In the state that a run leads to, as in all states before it, the loop does not wait for
itself exactly if every command that needs the lock came after a poll of the stream. -/
theorem neverWaitsForItself_iff_polledBefore [DecidableEq Schema] {actions : List (RestAction Schema AvroSchema Json Row)}
    (hrun : run c init actions = some s) :
    s.NeverWaitsForItself c ↔ RunMeets (next c) PolledBefore init actions := by
  have hall : ∀ (actions : List (RestAction Schema AvroSchema Json Row)) (s₀ : RestLoop Schema AvroSchema Row),
      LockInv s₀ → run c s₀ actions = some s →
        LockInv s ∧ (s.Blocked ↔ s₀.Blocked ∨ ¬ RunMeets (next c) PolledBefore s₀ actions) := by
    intro actions
    induction actions with
    | nil =>
      intro s₀ hs₀ hrun
      cases hrun
      exact ⟨hs₀, (or_iff_left (not_not_intro trivial)).symm⟩
    | cons a rest ih =>
      intro s₀ hs₀ hrun
      unfold run at hrun
      rw [List.foldlM_cons, Option.bind_eq_bind, Option.bind_eq_some_iff] at hrun
      obtain ⟨s₁, hnext, hrest⟩ := hrun
      obtain ⟨hs₁, hstep⟩ := hs₀.next hnext
      obtain ⟨hs, hiff⟩ := ih s₁ hs₁ hrest
      refine ⟨hs, hiff.trans ?_⟩
      rw [hstep, or_assoc, RunMeets, not_and_or]
      simp [hnext]
  obtain ⟨hs, hiff⟩ := hall actions init .init hrun
  rw [hs.neverWaitsForItself_iff, hiff, or_iff_right (by rintro ⟨_, hcmd, _⟩; cases hcmd), not_not]

/-! ## Runs -/

/-- A table is added while the stream is still at the answer of a row request. -/
def addTableAfterRowRun : List UnitAction :=
  addTableRun "orders" 1 none ++ insertRowRun "orders" 7 ++ addTableRun "items" 2 none

/-- The stream is polled before the second table is added. -/
def addTableAfterPollRun : List UnitAction :=
  addTableRun "orders" 1 none ++ insertRowRun "orders" 7 ++ .poll :: addTableRun "items" 2 none

theorem neverWaitsForItself_addTableAfterPoll :
    ∃ s, run unitConverters init addTableAfterPollRun = some s ∧ s.NeverWaitsForItself unitConverters := by
  have happly : ∀ s, run unitConverters init addTableAfterPollRun = some s →
      s.NeverWaitsForItself unitConverters := fun s hrun =>
    (neverWaitsForItself_iff_polledBefore hrun).mpr (by decide)
  exact ⟨_, rfl, happly _ rfl⟩

/-- Without it, the command waits for a guard of the stream, which only the loop could drop. -/
theorem addTable_waits_for_answered_row :
    ∃ s, run unitConverters init (addTableRun "orders" 1 none ++ insertRowRun "orders" 7 ++
          [.command (.addTable "items" 2 () none)]) = some s ∧
      s.Blocked ∧ ¬ s.NeverWaitsForItself unitConverters ∧ run unitConverters init addTableAfterRowRun = none := by
  refine ⟨_, rfl, ⟨_, rfl, nofun⟩, fun hnever => ?_, rfl⟩
  cases (hnever _ rfl).1

end RestLoop
end Moonlink.Rest
