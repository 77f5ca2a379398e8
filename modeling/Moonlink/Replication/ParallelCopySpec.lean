-- SUMMARY: The parallel initial copy loads exactly the rows that were read, never after a failure, and does not get stuck while a writer runs.
import Moonlink.Replication.ParallelCopy

namespace Moonlink.Replication

open Lib

variable {Row : Type}

/-! ## Where the rows are -/

/-- The rows that are not in the queue yet. -/
def CopyReader.left : CopyReader Row → List Row
  | reading rest builder _ => builder.current ++ rest
  | sending batch rest builder _ => batch ++ (builder.current ++ rest)
  | sendingLast batch _ => batch
  | _ => []

/-- The rows that a writer took from the queue. -/
def CopyWriter.held : CopyWriter Row → List Row
  | receiving files current => files.flatten ++ current.getD []
  | writing batch files current => files.flatten ++ (current.getD [] ++ batch)
  | finishing files current => files.flatten ++ current.getD []
  | done files => files.flatten
  | failed => []

def CopyState.rows (s : CopyState Row) : List Row :=
  s.readers.flatMap (·.left) ++ (s.queue.flatten ++ s.writers.flatMap (·.held))

/-- No reader and no writer failed or was aborted. -/
structure CopyState.NoFailure (s : CopyState Row) : Prop where
  readers : ∀ r ∈ s.readers, r ≠ .failed ∧ r ≠ .aborted
  writers : ∀ w ∈ s.writers, w ≠ .failed

/-- The copied files hold the rows of the shards, each once. -/
structure CopyState.Loaded (cfg : CopyConfig Row) (s : CopyState Row) (rowsCopied : Nat)
    (files : List (List Row)) : Prop where
  noFailure : s.NoFailure
  perm : files.flatten.Perm cfg.shards.flatten
  count : rowsCopied = files.flatten.length

/-- The number of batches that will still be sent. -/
def batchesLeft (builder : BatchBuilder Row) : List Row → Nat
  | [] => if builder.finalizeCurrentBatch.1.isSome then 1 else 0
  | row :: rest =>
    (if (builder.appendTableRow row).1.isSome then 1 else 0) +
      batchesLeft (builder.appendTableRow row).2 rest

def CopyReader.batchesLeft : CopyReader Row → Nat
  | reading rest builder _ => Replication.batchesLeft builder rest
  | sending _ rest builder _ => Replication.batchesLeft builder rest + 1
  | sendingLast _ _ => 1
  | _ => 0

variable (cfg : CopyConfig Row)

/-- The batches of all readers, with those in the queue, fit into the queue. -/
def CopyState.RestFits (s : CopyState Row) : Prop :=
  (s.readers.map (·.batchesLeft)).sum + s.queue.length ≤ cfg.batchChannelCapacity

/-- The last writer does not fail while more batches are to come than fit into the queue. -/
def CopyStep.Careful (s : CopyState Row) : CopyStep → Prop
  | .writer j .fail =>
    (∃ j' w, j' ≠ j ∧ s.writers[j']? = some w ∧ w ≠ .failed) ∨ s.RestFits cfg
  | _ => True

/-- The copy as a transition system; with `careful`, only careful steps are taken. -/
def copySystem (careful : Prop) : TransitionSystem (CopyState Row) where
  init s := cfg.start = some s
  step s s' := ∃ l, s.step cfg l = some s' ∧ (careful → l.Careful cfg s)

/-! ## Replacing a task -/

section Replace

variable {α β : Type} {l : List α} {i : Nat} {a a' : α}

theorem flatMap_set_perm (f : α → List β) (h : l[i]? = some a) :
    (f a ++ (l.set i a').flatMap f).Perm (f a' ++ l.flatMap f) := by
  obtain ⟨hi, rfl⟩ := List.getElem?_eq_some_iff.mp h
  have hset := (List.set_perm_cons_eraseIdx hi a').flatMap_right f
  have hget := (List.getElem_cons_eraseIdx_perm hi).flatMap_right f
  rw [List.flatMap_cons] at hset hget
  exact (hset.append_left _).trans
    ((List.perm_append_comm_assoc _ _ _).trans (hget.append_left _))

theorem sum_map_set (f : α → Nat) (h : l[i]? = some a) :
    f a + ((l.set i a').map f).sum = f a' + (l.map f).sum := by
  obtain ⟨hi, rfl⟩ := List.getElem?_eq_some_iff.mp h
  have hset := ((List.set_perm_cons_eraseIdx hi a').map f).sum_nat
  have hget := ((List.getElem_cons_eraseIdx_perm hi).map f).sum_nat
  rw [List.map_cons, List.sum_cons] at hset hget
  omega

end Replace

/-! ## One step of a task -/

/-- The rows counted by a reader and those to come are `n`. -/
def CopyReader.Counts (n : Nat) : CopyReader Row → Prop
  | reading rest _ rows => rows + rest.length = n
  | sending _ rest _ rows => rows + 1 + rest.length = n
  | sendingLast _ rows => rows = n
  | committing rows => rows = n
  | finished rows => rows = n
  | failed => True
  | aborted => True

/-- What a step of a reader keeps. -/
structure CopyReader.Stepped (r r' : CopyReader Row) (sent : Option (List Row)) : Prop where
  rows : r' ≠ .failed → r.left = sent.getD [] ++ r'.left
  counts : ∀ n, r.Counts n → r'.Counts n
  batches : r'.batchesLeft + (if sent.isSome then 1 else 0) ≤ r.batchesLeft
  before : r.hasEnded = false
  after : r' ≠ .aborted

theorem BatchBuilder.appendTableRow_rows (b : BatchBuilder Row) (row : Row) :
    (b.appendTableRow row).1.getD [] ++ (b.appendTableRow row).2.current = b.current ++ [row] := by
  unfold appendTableRow finalizeCurrentBatch
  by_cases hfull : b.maxRows ≤ b.current.length
  · by_cases hempty : b.current.isEmpty
    · simp [hfull, hempty]
    · simp [hfull, hempty]
  · simp [hfull]

theorem CopyReader.step_spec {outcome : CopyOutcome} {r r' : CopyReader Row}
    {sent : Option (List Row)} (h : r.step outcome = some (r', sent)) : r.Stepped r' sent := by
  cases r with
  | reading rest builder rows =>
    simp only [CopyReader.step] at h
    split at h
    · cases h
      exact ⟨fun hne => absurd rfl hne, fun _ _ => trivial, Nat.zero_le _, rfl, by simp⟩
    · cases rest with
      | nil =>
        cases hfin : builder.finalizeCurrentBatch with
        | mk batch builder' =>
          simp only [hfin] at h
          cases batch with
          | none =>
            cases h
            have hcurrent : builder.current = [] := by
              unfold BatchBuilder.finalizeCurrentBatch at hfin
              split at hfin
              · rename_i hempty
                simpa using hempty
              · cases hfin
            refine ⟨?_, ?_, Nat.zero_le _, rfl, by simp⟩
            · simp [CopyReader.left, hcurrent]
            · simp [CopyReader.Counts]
          | some batch =>
            cases h
            have hcurrent : builder.current = batch := by
              unfold BatchBuilder.finalizeCurrentBatch at hfin
              split at hfin
              · cases hfin
              · cases hfin
                rfl
            refine ⟨?_, ?_, ?_, rfl, by simp⟩
            · simp [CopyReader.left, hcurrent]
            · simp [CopyReader.Counts]
            · simp [CopyReader.batchesLeft, Replication.batchesLeft, hfin]
      | cons row rest =>
        have hrows := builder.appendTableRow_rows row
        cases happ : builder.appendTableRow row with
        | mk batch builder' =>
          rw [happ] at hrows
          simp only [happ] at h
          cases batch with
          | none =>
            cases h
            refine ⟨?_, ?_, ?_, rfl, by simp⟩
            · intro _
              simp only [Option.getD_none, List.nil_append] at hrows
              simp [CopyReader.left, hrows]
            · intro n hn
              simp only [CopyReader.Counts, List.length_cons] at hn ⊢
              omega
            · simp [CopyReader.batchesLeft, Replication.batchesLeft, happ]
          | some batch =>
            cases h
            refine ⟨?_, ?_, ?_, rfl, by simp⟩
            · intro _
              simp only [Option.getD_some] at hrows
              rw [CopyReader.left, CopyReader.left, Option.getD_none, List.nil_append,
                ← List.append_assoc, hrows]
              simp
            · intro n hn
              simp only [CopyReader.Counts, List.length_cons] at hn ⊢
              omega
            · simp [CopyReader.batchesLeft, Replication.batchesLeft, happ, Nat.add_comm]
  | sending batch rest builder rows =>
    simp only [CopyReader.step] at h
    split at h
    · cases h
    · cases h
      refine ⟨?_, ?_, ?_, rfl, by simp⟩
      · simp [CopyReader.left]
      · simp [CopyReader.Counts]
      · simp [CopyReader.batchesLeft]
  | sendingLast batch rows =>
    simp only [CopyReader.step] at h
    split at h
    · cases h
    · cases h
      refine ⟨?_, ?_, ?_, rfl, by simp⟩
      · simp [CopyReader.left]
      · simp [CopyReader.Counts]
      · simp [CopyReader.batchesLeft]
  | committing rows =>
    simp only [CopyReader.step] at h
    split at h
    · cases h
      exact ⟨fun hne => absurd rfl hne, fun _ _ => trivial, Nat.zero_le _, rfl, by simp⟩
    · cases h
      refine ⟨?_, ?_, Nat.zero_le _, rfl, by simp⟩
      · simp [CopyReader.left]
      · simp [CopyReader.Counts]
  | finished rows => cases h
  | failed => cases h
  | aborted => cases h

/-- The writer knows that the queue is closed. -/
def CopyWriter.sawClose : CopyWriter Row → Bool
  | finishing .. | done _ => true
  | _ => false

def CopyWriter.isReceiving : CopyWriter Row → Bool
  | receiving .. => true
  | _ => false

def CopyWriter.hasEnded : CopyWriter Row → Bool
  | done _ | failed => true
  | _ => false

/-- What a step of a writer does with the queue and its rows. -/
inductive CopyWriter.Stepped (closed : Bool) (queue : List (List Row)) (w w' : CopyWriter Row)
    (queue' : List (List Row)) : Prop where
  | took (batch : List Row) (hqueue : queue = batch :: queue') (hrows : w'.held = w.held ++ batch)
      (hclose : w'.sawClose = false) (hafter : w' ≠ .failed)
  | wrote (hqueue : queue' = queue) (hrows : w' ≠ .failed → w'.held = w.held)
      (hclose : w'.sawClose = true → w.sawClose = true ∨ (closed = true ∧ queue = []))
      (hopen : w.isReceiving = true → closed = true)

theorem CopyWriter.step_spec {outcome : CopyOutcome} {closed : Bool} {queue queue' : List (List Row)}
    {w w' : CopyWriter Row} (h : w.step outcome closed queue = some (w', queue')) :
    w.hasEnded = false ∧ (w' = .failed → outcome = .fail) ∧ w.Stepped closed queue w' queue' := by
  cases w with
  | receiving files current =>
    refine ⟨rfl, ?_, ?_⟩
    · intro hfailed
      subst hfailed
      simp only [CopyWriter.step] at h
      split at h
      · cases h
      · split at h
        · cases h
        · split at h <;> cases h
    simp only [CopyWriter.step] at h
    split at h
    · cases h
    · split at h
      · cases h
        exact .took _ rfl (by simp [CopyWriter.held]) rfl (by simp)
      · split at h
        · rename_i hclosed
          cases h
          exact .wrote rfl (fun _ => rfl) (fun _ => .inr ⟨hclosed, rfl⟩) fun _ => hclosed
        · cases h
  | writing batch files current =>
    refine ⟨rfl, ?_, ?_⟩
    · intro hfailed
      subst hfailed
      simp only [CopyWriter.step] at h
      split at h
      · cases h
      · cases outcome <;> first | rfl | cases h
    simp only [CopyWriter.step] at h
    split at h
    · rename_i hempty
      cases h
      have hnil : batch = [] := by simpa using hempty
      exact .wrote rfl (fun _ => by simp [CopyWriter.held, hnil]) (fun hclose => by cases hclose)
        (by simp [CopyWriter.isReceiving])
    · cases outcome with
      | fail =>
        cases h
        exact .wrote rfl (fun hne => absurd rfl hne) (fun hclose => by cases hclose)
          (by simp [CopyWriter.isReceiving])
      | rotate =>
        cases h
        exact .wrote rfl (fun _ => by simp [CopyWriter.held]) (fun hclose => by cases hclose)
          (by simp [CopyWriter.isReceiving])
      | ok =>
        cases h
        exact .wrote rfl (fun _ => by simp [CopyWriter.held]) (fun hclose => by cases hclose)
          (by simp [CopyWriter.isReceiving])
  | finishing files current =>
    refine ⟨rfl, ?_, ?_⟩
    · intro hfailed
      subst hfailed
      simp only [CopyWriter.step] at h
      split at h
      · cases h
      · split at h
        · assumption
        · cases h
    simp only [CopyWriter.step] at h
    split at h
    · cases h
      exact .wrote rfl (fun _ => by simp [CopyWriter.held]) (fun _ => .inl rfl)
        (by simp [CopyWriter.isReceiving])
    · split at h
      · cases h
        exact .wrote rfl (fun hne => absurd rfl hne) (fun hclose => by cases hclose)
          (by simp [CopyWriter.isReceiving])
      · cases h
        exact .wrote rfl (fun _ => by simp [CopyWriter.held]) (fun _ => .inl rfl)
          (by simp [CopyWriter.isReceiving])
  | done files => cases h
  | failed => cases h

/-- What a step of the copy does. -/
inductive CopyState.Stepped (cfg : CopyConfig Row) (s : CopyState Row) (l : CopyStep)
    (s' : CopyState Row) : Prop where
  | reader (i : Nat) (r r' : CopyReader Row) (sent : Option (List Row)) (queue : List (List Row))
      (hget : s.readers[i]? = some r) (hstep : r.Stepped r' sent)
      (hsend : s.send cfg.batchChannelCapacity sent = some queue)
      (heq : s' = { s with readers := s.readers.set i r', queue })
  | cancel (i : Nat) (r : CopyReader Row) (hget : s.readers[i]? = some r)
      (hrunning : r.hasEnded = false) (hdraining : s.isDraining = true)
      (heq : s' = { s with readers := s.readers.set i .aborted })
  | writer (j : Nat) (w w' : CopyWriter Row) (queue : List (List Row))
      (hget : s.writers[j]? = some w) (hrunning : w.hasEnded = false)
      (hfailed : w' = .failed → l = .writer j .fail)
      (hstep : w.Stepped s.closed s.queue w' queue)
      (heq : s' = { s with writers := s.writers.set j w', queue })
  | main (fails : Bool) (hstep : s.mainStep cfg fails = some s')

theorem CopyState.step_spec {cfg : CopyConfig Row} {s s' : CopyState Row} {l : CopyStep}
    (h : s.step cfg l = some s') : s.Stepped cfg l s' := by
  cases l with
  | reader i outcome =>
    obtain ⟨r, hget, h⟩ := Option.bind_eq_some_iff.mp h
    obtain ⟨⟨r', sent⟩, hstep, h⟩ := Option.bind_eq_some_iff.mp h
    obtain ⟨queue, hsend, h⟩ := Option.bind_eq_some_iff.mp h
    cases h
    exact .reader i r r' sent queue hget (CopyReader.step_spec hstep) hsend rfl
  | cancelReader i =>
    obtain ⟨r, hget, h⟩ := Option.bind_eq_some_iff.mp h
    split at h
    · rename_i hcond
      cases h
      rw [Bool.and_eq_true, Bool.not_eq_true'] at hcond
      exact .cancel i r hget hcond.2 hcond.1 rfl
    · cases h
  | writer j outcome =>
    obtain ⟨w, hget, h⟩ := Option.bind_eq_some_iff.mp h
    obtain ⟨⟨w', queue⟩, hstep, h⟩ := Option.bind_eq_some_iff.mp h
    cases h
    obtain ⟨hrunning, hfailed, hstepped⟩ := CopyWriter.step_spec hstep
    refine .writer j w w' queue hget hrunning ?_ hstepped rfl
    intro hw'
    rw [hfailed hw']
  | main outcome => exact .main _ h

/-! ## The invariant -/

/-- All readers have finished, with this number of rows. -/
structure CopyState.AllRead (cfg : CopyConfig Row) (s : CopyState Row) (rowsCopied : Nat) : Prop where
  finished : ∀ r ∈ s.readers, ∃ rows, r = .finished rows
  count : rowsCopied = (cfg.shards.map List.length).sum

/-- What holds by the progress of `copy_table_stream`. -/
def CopyState.PhaseInv (s : CopyState Row) : Prop :=
  match s.main with
  | .setup => s.readers = []
  | .awaitingReaders left rowsCopied =>
    s.readers.length = cfg.shards.length ∧ left ≤ cfg.shards.length ∧
      (∀ i r, left ≤ i → s.readers[i]? = some r → ∃ rows, r = .finished rows) ∧
      rowsCopied = ((cfg.shards.drop left).map List.length).sum
  | .drainingReaders _ => True
  | .finalizingSnapshot success rowsCopied =>
    s.readers.all (·.hasEnded) = true ∧ (success = true → s.AllRead cfg rowsCopied)
  | .awaitingWriters success rowsCopied next files =>
    s.readers.all (·.hasEnded) = true ∧ (success = true → s.AllRead cfg rowsCopied ∧
      ∃ written : List (List (List Row)),
        s.writers.take next = written.map .done ∧ files = written.flatten)
  | .sendingLoadFiles rowsCopied files =>
    s.readers.all (·.hasEnded) = true ∧ s.writers.all (·.hasEnded) = true ∧
      s.Loaded cfg rowsCopied files
  | .returnedOk rowsCopied =>
    s.readers.all (·.hasEnded) = true ∧ s.writers.all (·.hasEnded) = true ∧
      ∃ files, s.loadFiles = some files ∧ s.Loaded cfg rowsCopied files
  | .returnedErr => s.readers.all (·.hasEnded) = true

/-- The rows of the readers that were spawned. -/
def CopyState.spawnedRows (s : CopyState Row) : List Row :=
  match s.main with
  | .setup => []
  | _ => cfg.shards.flatten

structure CopyState.Inv (cfg : CopyConfig Row) (s : CopyState Row) : Prop where
  phase : s.PhaseInv cfg
  counts : ∀ (i : Nat) (r : CopyReader Row) (rows : List Row), s.readers[i]? = some r →
    cfg.shards[i]? = some rows → r.Counts rows.length
  conserved : s.main ≠ .returnedErr → s.NoFailure → s.rows.Perm (s.spawnedRows cfg)
  close : ∀ w ∈ s.writers, w.sawClose = true → s.closed = true ∧ s.queue = []
  writers : 0 < s.writers.length
  unloaded : ∀ files, s.loadFiles = some files → ∃ rowsCopied, s.main = .returnedOk rowsCopied

namespace CopyState

variable {cfg : CopyConfig Row} {s s' : CopyState Row} {l : CopyStep} {queue : List (List Row)}

theorem send_spec {sent : Option (List Row)} {capacity : Nat}
    (h : s.send capacity sent = some queue) :
    queue.flatten = s.queue.flatten ++ sent.getD [] ∧
      queue.length = s.queue.length + (if sent.isSome then 1 else 0) := by
  unfold send at h
  split at h
  · cases h
    simp
  · split at h
    · cases h
      simp
    · cases h

variable {i : Nat}

/-- A reader that runs is not among readers that have all ended. -/
theorem not_all_ended {r : CopyReader Row} (hget : s.readers[i]? = some r)
    (hrunning : r.hasEnded = false) : s.readers.all (·.hasEnded) ≠ true := by
  intro hall
  rw [List.all_eq_true] at hall
  rw [hall r (List.mem_of_getElem? hget)] at hrunning
  cases hrunning

variable {r r' : CopyReader Row}

theorem counts_set (hinv : s.Inv cfg)
    (hget : s.readers[i]? = some r) (hcounts : ∀ n, r.Counts n → r'.Counts n) (k : Nat)
    (r'' : CopyReader Row) (rows : List Row) (hset : (s.readers.set i r')[k]? = some r'')
    (hshard : cfg.shards[k]? = some rows) : r''.Counts rows.length := by
  rw [List.getElem?_set] at hset
  split at hset
  · rename_i hik
    subst hik
    split at hset
    · cases hset
      exact hcounts _ (hinv.counts i r rows hget hshard)
    · cases hset
  · exact hinv.counts k r'' rows hset hshard

/-- While readers run, the phase only depends on those that have finished. -/
theorem phase_set_reader (hinv : s.Inv cfg)
    (hget : s.readers[i]? = some r) (hrunning : r.hasEnded = false) :
    PhaseInv cfg { s with readers := s.readers.set i r', queue } := by
  have hnot := not_all_ended hget hrunning
  have hphase := hinv.phase
  unfold PhaseInv at hphase ⊢
  cases hmain : s.main with
  | setup =>
    rw [hmain] at hphase
    simp only at hphase
    rw [hphase] at hget
    cases hget
  | awaitingReaders left rowsCopied =>
    rw [hmain] at hphase
    obtain ⟨hlen, hle, hfinished, hcount⟩ := hphase
    refine ⟨by simpa using hlen, hle, ?_, hcount⟩
    intro k r'' hk hset
    simp only [List.getElem?_set] at hset
    split at hset
    · -- The reader that runs is one that is not awaited yet.
      rename_i hik
      subst hik
      obtain ⟨rows, rfl⟩ := hfinished i r hk hget
      cases hrunning
    · exact hfinished k r'' hk hset
  | drainingReaders rowsCopied => trivial
  | finalizingSnapshot success rowsCopied =>
    rw [hmain] at hphase
    exact absurd hphase.1 hnot
  | awaitingWriters success rowsCopied next files =>
    rw [hmain] at hphase
    exact absurd hphase.1 hnot
  | sendingLoadFiles rowsCopied files =>
    rw [hmain] at hphase
    exact absurd hphase.1 hnot
  | returnedOk rowsCopied =>
    rw [hmain] at hphase
    exact absurd hphase.1 hnot
  | returnedErr =>
    rw [hmain] at hphase
    exact absurd hphase hnot

theorem close_of_running (hinv : s.Inv cfg) {r : CopyReader Row}
    (hget : s.readers[i]? = some r) (hrunning : r.hasEnded = false) :
    ∀ w ∈ s.writers, w.sawClose = false := by
  intro w hmem
  by_contra hclose
  have hclosed := (hinv.close w hmem (by simpa using hclose)).1
  unfold closed at hclosed
  rw [Bool.and_eq_true] at hclosed
  exact not_all_ended hget hrunning hclosed.2

theorem NoFailure.of_set_reader (hget : s.readers[i]? = some r) (hrunning : r.hasEnded = false)
    (h : NoFailure { s with readers := s.readers.set i r', queue }) : s.NoFailure := by
  refine ⟨?_, h.writers⟩
  intro r'' hmem
  obtain ⟨k, hk⟩ := List.mem_iff_getElem?.mp hmem
  by_cases hik : i = k
  · subst hik
    rw [hget] at hk
    cases hk
    refine ⟨?_, ?_⟩ <;> intro heq <;> rw [heq] at hrunning <;> cases hrunning
  · refine h.readers r'' (List.mem_iff_getElem?.mpr ⟨k, ?_⟩)
    simp only [List.getElem?_set, if_neg hik, hk]

theorem reader_set_mem (hget : s.readers[i]? = some r) :
    r' ∈ s.readers.set i r' := by
  obtain ⟨hi, -⟩ := List.getElem?_eq_some_iff.mp hget
  exact List.mem_set hi _

theorem rows_perm_sent {A A' S Q W : List Row} (h : (S ++ A').Perm A) :
    (A' ++ ((Q ++ S) ++ W)).Perm (A ++ (Q ++ W)) := by
  have hmove : ((Q ++ S) ++ W).Perm (S ++ (Q ++ W)) := by
    rw [← List.append_assoc S]
    exact List.perm_append_comm.append_right W
  refine (hmove.append_left A').trans ?_
  refine (List.perm_append_comm_assoc A' S (Q ++ W)).trans ?_
  rw [← List.append_assoc]
  exact h.append_right _

theorem Inv.step_reader (hinv : s.Inv cfg)
    {sent : Option (List Row)} (hget : s.readers[i]? = some r)
    (hstep : r.Stepped r' sent) (hsend : s.send cfg.batchChannelCapacity sent = some queue) :
    Inv cfg { s with readers := s.readers.set i r', queue } where
  phase := phase_set_reader hinv hget hstep.before
  counts := counts_set hinv hget hstep.counts
  conserved := by
    intro hmain hnone
    have hbefore := hinv.conserved hmain (hnone.of_set_reader hget hstep.before)
    have hr' := hnone.readers r' (reader_set_mem hget)
    have hset : (r.left ++ (s.readers.set i r').flatMap (·.left)).Perm
        (r'.left ++ s.readers.flatMap (·.left)) := flatMap_set_perm (·.left) hget
    rw [hstep.rows hr'.1, List.append_assoc] at hset
    have hcancel : (sent.getD [] ++ (s.readers.set i r').flatMap (·.left)).Perm
        (s.readers.flatMap (·.left)) := by
      refine (List.perm_append_left_iff r'.left).mp ?_
      exact (List.perm_append_comm_assoc _ _ _).trans hset
    refine List.Perm.trans ?_ hbefore
    unfold rows
    simp only
    rw [(send_spec hsend).1]
    exact rows_perm_sent hcancel
  close := by
    intro w hmem hclose
    rw [close_of_running hinv hget hstep.before w hmem] at hclose
    cases hclose
  writers := hinv.writers
  unloaded := hinv.unloaded

theorem Inv.step_cancel (hinv : s.Inv cfg) {r : CopyReader Row}
    (hget : s.readers[i]? = some r) (hrunning : r.hasEnded = false) :
    Inv cfg { s with readers := s.readers.set i .aborted } where
  phase := phase_set_reader hinv hget hrunning
  counts := counts_set hinv hget fun _ _ => trivial
  conserved := by
    intro _ hnone
    exact absurd rfl (hnone.readers _ (reader_set_mem hget)).2
  close := by
    intro w hmem hclose
    rw [close_of_running hinv hget hrunning w hmem] at hclose
    cases hclose
  writers := hinv.writers
  unloaded := hinv.unloaded

theorem not_all_writers_ended {j : Nat} {w : CopyWriter Row} (hget : s.writers[j]? = some w)
    (hrunning : w.hasEnded = false) : s.writers.all (·.hasEnded) ≠ true := by
  intro hall
  rw [List.all_eq_true] at hall
  rw [hall w (List.mem_of_getElem? hget)] at hrunning
  cases hrunning

/-- The writers that were awaited have ended, so the phase does not see the others. -/
theorem phase_set_writer (hinv : s.Inv cfg) {j : Nat} {w w' : CopyWriter Row}
    (hget : s.writers[j]? = some w) (hrunning : w.hasEnded = false) :
    PhaseInv cfg { s with writers := s.writers.set j w', queue } := by
  have hnot := not_all_writers_ended hget hrunning
  have hphase := hinv.phase
  unfold PhaseInv at hphase ⊢
  cases hmain : s.main with
  | setup =>
    rw [hmain] at hphase
    exact hphase
  | awaitingReaders left rowsCopied =>
    rw [hmain] at hphase
    exact hphase
  | drainingReaders rowsCopied => trivial
  | finalizingSnapshot success rowsCopied =>
    rw [hmain] at hphase
    exact ⟨hphase.1, fun h => ⟨(hphase.2 h).finished, (hphase.2 h).count⟩⟩
  | awaitingWriters success rowsCopied next files =>
    rw [hmain] at hphase
    refine ⟨hphase.1, fun h => ?_⟩
    obtain ⟨hread, written, htake, hfiles⟩ := hphase.2 h
    refine ⟨⟨hread.finished, hread.count⟩, written, ?_, hfiles⟩
    have hj : next ≤ j := by
      by_contra hlt
      have htaken : (s.writers.take next)[j]? = some w := by
        rw [List.getElem?_take_of_lt (by omega)]
        exact hget
      rw [htake] at htaken
      obtain ⟨fs, -, rfl⟩ := List.mem_map.mp (List.mem_of_getElem? htaken)
      cases hrunning
    simp only [List.take_set]
    rw [List.set_eq_of_length_le (by simp; omega), htake]
  | sendingLoadFiles rowsCopied files =>
    rw [hmain] at hphase
    exact absurd hphase.2.1 hnot
  | returnedOk rowsCopied =>
    rw [hmain] at hphase
    exact absurd hphase.2.1 hnot
  | returnedErr =>
    rw [hmain] at hphase
    exact hphase

theorem NoFailure.of_set_writer {j : Nat} {w w' : CopyWriter Row}
    (hget : s.writers[j]? = some w) (hrunning : w.hasEnded = false)
    (h : NoFailure { s with writers := s.writers.set j w', queue }) : s.NoFailure := by
  refine ⟨h.readers, ?_⟩
  intro w'' hmem heq
  obtain ⟨k, hk⟩ := List.mem_iff_getElem?.mp hmem
  by_cases hjk : j = k
  · subst hjk
    rw [hget] at hk
    cases hk
    rw [heq] at hrunning
    cases hrunning
  · refine h.writers w'' (List.mem_iff_getElem?.mpr ⟨k, ?_⟩) heq
    simp only [List.getElem?_set, if_neg hjk, hk]

theorem Inv.step_writer (hinv : s.Inv cfg) {j : Nat} {w w' : CopyWriter Row}
    (hget : s.writers[j]? = some w) (hrunning : w.hasEnded = false)
    (hstep : w.Stepped s.closed s.queue w' queue) :
    Inv cfg { s with writers := s.writers.set j w', queue } where
  phase := phase_set_writer hinv hget hrunning
  counts := hinv.counts
  conserved := by
    intro hmain hnone
    have hbefore := hinv.conserved hmain (hnone.of_set_writer hget hrunning)
    have hj : j < s.writers.length := (List.getElem?_eq_some_iff.mp hget).1
    have hw' : w' ≠ .failed := hnone.writers w' (List.mem_set hj _)
    have hset : (w.held ++ (s.writers.set j w').flatMap (·.held)).Perm
        (w'.held ++ s.writers.flatMap (·.held)) := flatMap_set_perm (·.held) hget
    refine List.Perm.trans ?_ hbefore
    unfold rows
    refine List.Perm.append_left _ ?_
    cases hstep with
    | took batch hqueue hrows _ _ =>
      rw [hrows, List.append_assoc] at hset
      have hcancel := (List.perm_append_left_iff w.held).mp hset
      rw [hqueue, List.flatten_cons, List.append_assoc]
      exact (hcancel.append_left _).trans (List.perm_append_comm_assoc _ _ _)
    | wrote hqueue hrows _ _ =>
      rw [hrows hw'] at hset
      rw [hqueue]
      exact ((List.perm_append_left_iff w.held).mp hset).append_left _
  close := by
    intro w'' hmem hclose
    have hclosed : closed { s with writers := s.writers.set j w', queue } = s.closed := rfl
    rw [hclosed]
    cases hstep with
    | took batch hqueue _ hopen _ =>
      rcases List.mem_or_eq_of_mem_set hmem with hmem | rfl
      · have hempty := (hinv.close w'' hmem hclose).2
        rw [hqueue] at hempty
        cases hempty
      · rw [hopen] at hclose
        cases hclose
    | wrote hqueue _ hsaw _ =>
      simp only [hqueue]
      rcases List.mem_or_eq_of_mem_set hmem with hmem | rfl
      · exact hinv.close w'' hmem hclose
      · rcases hsaw hclose with hsaw | hempty
        · exact hinv.close w (List.mem_of_getElem? hget) hsaw
        · exact hempty
  writers := by simpa using hinv.writers
  unloaded := hinv.unloaded

/-- All writers are done, so nothing is left in the queue and the files hold the rows. -/
theorem Inv.loaded (hinv : s.Inv cfg) {success : Bool} {rowsCopied next : Nat}
    {files : List (List Row)} (hmain : s.main = .awaitingWriters success rowsCopied next files)
    (hread : s.AllRead cfg rowsCopied) {written : List (List (List Row))}
    (hwriters : s.writers = written.map .done) (hfiles : files = written.flatten) :
    s.NoFailure ∧ files.flatten.Perm cfg.shards.flatten ∧ rowsCopied = files.flatten.length := by
  have hnone : s.NoFailure := by
    refine ⟨?_, ?_⟩
    · intro r hmem
      obtain ⟨rows, rfl⟩ := hread.finished r hmem
      exact ⟨by simp, by simp⟩
    · intro w hmem
      rw [hwriters] at hmem
      obtain ⟨fs, -, rfl⟩ := List.mem_map.mp hmem
      simp
  have hqueue : s.queue = [] := by
    obtain ⟨w, hmem⟩ := List.exists_mem_of_length_pos hinv.writers
    refine (hinv.close w hmem ?_).2
    rw [hwriters] at hmem
    obtain ⟨fs, -, rfl⟩ := List.mem_map.mp hmem
    rfl
  have hreaders : s.readers.flatMap (·.left) = [] := by
    rw [List.flatMap_eq_nil_iff]
    intro r hmem
    obtain ⟨rows, rfl⟩ := hread.finished r hmem
    rfl
  have hheld : s.writers.flatMap (·.held) = files.flatten := by
    rw [hwriters, hfiles, List.flatMap_map, List.flatten_flatten, List.flatMap_def]
    rfl
  have hperm := hinv.conserved (by rw [hmain]; simp) hnone
  unfold rows spawnedRows at hperm
  rw [hreaders, hqueue, hheld, hmain] at hperm
  have hperm : files.flatten.Perm cfg.shards.flatten := by simpa using hperm
  refine ⟨hnone, hperm, ?_⟩
  rw [hread.count, hperm.length_eq, List.length_flatten]

theorem Inv.loadFiles_none (hinv : s.Inv cfg) (h : ∀ rowsCopied, s.main ≠ .returnedOk rowsCopied) :
    s.loadFiles = none := by
  cases hfiles : s.loadFiles with
  | none => rfl
  | some files =>
    obtain ⟨rowsCopied, hmain⟩ := hinv.unloaded files hfiles
    exact absurd hmain (h rowsCopied)

/-- The readers are spawned, and `copy_table_stream` has not returned. -/
def isCopying : CopyMain Row → Bool
  | .setup | .returnedOk _ | .returnedErr => false
  | _ => true

/-- A step of `copy_table_stream` that leaves the other tasks alone. -/
theorem Inv.advance (hinv : s.Inv cfg) {main : CopyMain Row} (hcopying : isCopying s.main = true)
    (hnew : main ≠ .setup)
    (hdropped : s.main.hasDroppedSender = true → main.hasDroppedSender = true)
    (hphase : PhaseInv cfg { s with main }) : Inv cfg { s with main } where
  phase := hphase
  counts := hinv.counts
  conserved := by
    intro _ hnone
    have hperm := hinv.conserved (by rintro heq; simp [heq, isCopying] at hcopying)
      ⟨hnone.readers, hnone.writers⟩
    unfold spawnedRows at hperm ⊢
    cases main with
    | setup => exact absurd rfl hnew
    | _ =>
      cases hmain : s.main <;> rw [hmain] at hperm hcopying
      case setup => cases hcopying
      all_goals exact hperm
  close := by
    intro w hmem hclose
    obtain ⟨hclosed, hqueue⟩ := hinv.close w hmem hclose
    unfold closed at hclosed ⊢
    rw [Bool.and_eq_true] at hclosed ⊢
    exact ⟨⟨hdropped hclosed.1, hclosed.2⟩, hqueue⟩
  writers := hinv.writers
  unloaded := by
    intro files hfiles
    have hunloaded := hinv.loadFiles_none (by rintro rowsCopied heq; simp [heq, isCopying] at hcopying)
    simp only [hunloaded] at hfiles
    cases hfiles

theorem Inv.step_spawn (hinv : s.Inv cfg) (hmain : s.main = .setup) :
    Inv cfg { s with
      main := .awaitingReaders cfg.shards.length 0
      readers := cfg.spawnShardedCopyReaders } where
  phase := by
    refine ⟨by simp [CopyConfig.spawnShardedCopyReaders], Nat.le_refl _, ?_, by simp⟩
    intro i r hi hget
    have hlt := (List.getElem?_eq_some_iff.mp hget).1
    simp only [CopyConfig.spawnShardedCopyReaders, List.length_map] at hlt
    omega
  counts := by
    intro i r rows hget hshard
    simp only [CopyConfig.spawnShardedCopyReaders, List.getElem?_map, hshard, Option.map_some] at hget
    cases hget
    simp [CopyReader.Counts]
  conserved := by
    intro _ hnone
    have hphase := hinv.phase
    unfold PhaseInv at hphase
    rw [hmain] at hphase
    simp only at hphase
    have hnone' : s.NoFailure := ⟨by rw [hphase]; simp, hnone.writers⟩
    have hperm := hinv.conserved (by rw [hmain]; simp) hnone'
    unfold rows spawnedRows at hperm ⊢
    rw [hmain, hphase] at hperm
    have hempty : s.queue.flatten ++ s.writers.flatMap (·.held) = [] := by
      simpa using hperm.eq_nil
    simp only [hempty]
    rw [CopyConfig.spawnShardedCopyReaders, List.flatMap_map, List.append_nil]
    simp only [CopyReader.left, BatchBuilder.new, List.nil_append]
    rw [List.flatMap_id']
  close := by
    intro w hmem hclose
    have hclosed := (hinv.close w hmem hclose).1
    unfold closed at hclosed
    rw [hmain] at hclosed
    cases hclosed
  writers := hinv.writers
  unloaded := by
    intro files hfiles
    obtain ⟨rowsCopied, hreturned⟩ := hinv.unloaded files hfiles
    rw [hmain] at hreturned
    cases hreturned

theorem Inv.step_main (hinv : s.Inv cfg) {fails : Bool} (h : s.mainStep cfg fails = some s') :
    s'.Inv cfg := by
  have hphase := hinv.phase
  unfold PhaseInv at hphase
  unfold mainStep at h
  cases hmain : s.main with
  | setup =>
    rw [hmain] at h hphase
    simp only at h hphase
    split at h
    · cases h
      refine ⟨?_, hinv.counts, fun hne => absurd rfl hne, ?_, hinv.writers, ?_⟩
      · unfold PhaseInv
        simp [hphase]
      · intro w hmem hclose
        have hclosed := (hinv.close w hmem hclose).1
        unfold closed at hclosed
        rw [hmain] at hclosed
        cases hclosed
      · intro files hfiles
        obtain ⟨rowsCopied, hreturned⟩ := hinv.unloaded files hfiles
        rw [hmain] at hreturned
        cases hreturned
    · cases h
      exact hinv.step_spawn hmain
  | awaitingReaders left rowsCopied =>
    rw [hmain] at h hphase
    obtain ⟨hlen, hle, hfinished, hcount⟩ := hphase
    cases left with
    | zero =>
      cases h
      have hread : s.AllRead cfg rowsCopied := by
        refine ⟨?_, by simpa using hcount⟩
        intro r hmem
        obtain ⟨i, hi⟩ := List.mem_iff_getElem?.mp hmem
        exact hfinished i r (Nat.zero_le _) hi
      have hended : s.readers.all (·.hasEnded) = true := by
        rw [List.all_eq_true]
        intro r hmem
        obtain ⟨rows, rfl⟩ := hread.finished r hmem
        rfl
      exact hinv.advance (by rw [hmain]; rfl) (by simp)
        (by rw [hmain]; nofun)
        ⟨hended, fun _ => ⟨hread.finished, hread.count⟩⟩
    | succ left =>
      simp only at h
      split at h
      · rename_i rows hget
        cases h
        have hlt : left < cfg.shards.length := by omega
        refine hinv.advance (by rw [hmain]; rfl) (by simp)
          (by rw [hmain]; nofun) ⟨hlen, Nat.le_of_lt hlt, ?_, ?_⟩
        · intro i r hi hr
          by_cases heq : i = left
          · subst heq
            rw [hget] at hr
            cases hr
            exact ⟨rows, rfl⟩
          · exact hfinished i r (by omega) hr
        · have hrows := hinv.counts left _ _ hget (List.getElem?_eq_getElem hlt)
          simp only [CopyReader.Counts] at hrows
          rw [List.drop_eq_getElem_cons hlt, List.map_cons, List.sum_cons, hcount, hrows,
            Nat.add_comm]
      · cases h
        exact hinv.advance (by rw [hmain]; rfl) (by simp)
          (by rw [hmain]; nofun) trivial
      · cases h
  | drainingReaders rowsCopied =>
    rw [hmain] at h
    simp only at h
    split at h
    · rename_i hended
      cases h
      exact hinv.advance (by rw [hmain]; rfl) (by simp)
        (by rw [hmain]; nofun) ⟨hended, nofun⟩
    · cases h
  | finalizingSnapshot success rowsCopied =>
    rw [hmain] at h hphase
    obtain ⟨hended, hread⟩ := hphase
    simp only at h
    cases h
    cases fails with
    | true =>
      exact hinv.advance (by rw [hmain]; rfl) (by simp)
        (fun _ => rfl) hended
    | false =>
      refine hinv.advance (by rw [hmain]; rfl) (by simp)
        (fun _ => rfl) ⟨hended, fun hsuccess => ?_⟩
      exact ⟨⟨(hread hsuccess).finished, (hread hsuccess).count⟩, [], by simp, rfl⟩
  | awaitingWriters success rowsCopied next files =>
    have hadvance := fun main => @Inv.advance _ cfg s hinv main (by rw [hmain]; rfl)
    have hphase' := hphase
    rw [hmain] at h hphase'
    obtain ⟨hended, hsuccess⟩ := hphase'
    simp only at h
    split at h
    · -- All writers were awaited.
      rename_i hget
      cases h
      cases success with
      | false => exact hadvance _ (by simp) (fun _ => rfl) hended
      | true =>
        obtain ⟨hread, written, htake, hfiles⟩ := hsuccess rfl
        have hall : s.writers = written.map .done := by
          rw [← htake, List.take_of_length_le (List.getElem?_eq_none_iff.mp hget)]
        obtain ⟨hnone, hperm, hcount⟩ := hinv.loaded hmain hread hall hfiles
        refine hadvance _ (by simp) (fun _ => rfl) ⟨hended, ?_, ?_⟩
        · simp only [hall, List.all_map, Function.comp_def, CopyWriter.hasEnded]
          simp
        · exact ⟨⟨hnone.readers, hnone.writers⟩, hperm, hcount⟩
    · rename_i fs hget
      cases h
      refine hadvance _ (by simp) (fun _ => rfl) ⟨hended, fun heq => ?_⟩
      obtain ⟨hread, written, htake, hfiles⟩ := hsuccess heq
      refine ⟨⟨hread.finished, hread.count⟩, written ++ [fs], ?_, by simp [hfiles]⟩
      simp only [List.take_add_one, htake, hget, Option.toList_some, List.map_append, List.map_cons,
        List.map_nil]
    · cases h
      cases success with
      | false =>
        exact hadvance _ (by simp) (fun _ => rfl) ⟨hended, nofun⟩
      | true => exact hadvance _ (by simp) (fun _ => rfl) hended
    · cases h
  | sendingLoadFiles rowsCopied files =>
    rw [hmain] at h hphase
    obtain ⟨hended, hwriters, hloaded⟩ := hphase
    cases h
    have hnext := hinv.conserved (by rw [hmain]; simp)
    refine ⟨⟨hended, hwriters, files, rfl, ⟨hloaded.noFailure.readers, hloaded.noFailure.writers⟩,
      hloaded.perm, hloaded.count⟩, hinv.counts, ?_, ?_, hinv.writers, ?_⟩
    · intro _ hnone
      have hperm := hnext ⟨hnone.readers, hnone.writers⟩
      unfold spawnedRows at hperm ⊢
      rw [hmain] at hperm
      exact hperm
    · intro w hmem hclose
      obtain ⟨hclosed, hqueue⟩ := hinv.close w hmem hclose
      unfold closed at hclosed ⊢
      rw [Bool.and_eq_true] at hclosed ⊢
      exact ⟨⟨rfl, hclosed.2⟩, hqueue⟩
    · intro files' _
      exact ⟨rowsCopied, rfl⟩
  | returnedOk rowsCopied =>
    rw [hmain] at h
    cases h
  | returnedErr =>
    rw [hmain] at h
    cases h

theorem Inv.start (h : cfg.start = some s) : s.Inv cfg := by
  unfold CopyConfig.start at h
  split at h
  · cases h
  · cases h
    refine ⟨rfl, by simp, ?_, ?_, ?_, by simp⟩
    · intro _ _
      simp [rows, spawnedRows, CopyWriter.held]
    · intro w hmem hclose
      rw [List.eq_of_mem_replicate hmem] at hclose
      cases hclose
    · rw [List.length_replicate]
      exact Nat.lt_of_lt_of_le Nat.one_pos (Nat.le_max_right _ _)

theorem Inv.step (hinv : s.Inv cfg) (h : s.step cfg l = some s') : s'.Inv cfg := by
  cases step_spec h with
  | reader i r r' sent queue hget hstep hsend heq =>
    rw [heq]
    exact hinv.step_reader hget hstep hsend
  | cancel i r hget hrunning _ heq =>
    rw [heq]
    exact hinv.step_cancel hget hrunning
  | writer j w w' queue hget hrunning _ hstep heq =>
    rw [heq]
    exact hinv.step_writer hget hrunning hstep
  | main fails hstep => exact hinv.step_main hstep

end CopyState

/-! ## Progress -/

def CopyState.isAwaitingReaders (s : CopyState Row) : Bool :=
  match s.main with
  | .awaitingReaders .. => true
  | _ => false

/-- Someone drains the queue, or nobody has to. -/
structure CopyState.Drainable (cfg : CopyConfig Row) (s : CopyState Row) : Prop where
  capacity : 0 < cfg.batchChannelCapacity
  waiting : s.main = .setup → s.queue = [] ∧ ∀ w ∈ s.writers, w.isReceiving = true
  notAborted : s.isAwaitingReaders = true → ∀ r ∈ s.readers, r ≠ .aborted
  drained : (∃ w ∈ s.writers, w ≠ .failed) ∨ s.RestFits cfg

namespace CopyState

variable {cfg : CopyConfig Row} {s s' : CopyState Row} {l : CopyStep}

theorem mainStep_spec {fails : Bool} (h : s.mainStep cfg fails = some s') :
    s'.main ≠ .setup ∧ s'.writers = s.writers ∧ s'.queue = s.queue ∧
      ((s.main = .setup ∧ s'.readers = cfg.spawnShardedCopyReaders) ∨
        (s'.readers = s.readers ∧ (s'.isAwaitingReaders = true → s.isAwaitingReaders = true))) := by
  unfold mainStep at h
  unfold isAwaitingReaders
  split at h
  · rename_i hmain
    split at h <;> cases h
    · exact ⟨by simp, rfl, rfl, .inr ⟨rfl, nofun⟩⟩
    · exact ⟨by simp, rfl, rfl, .inl ⟨hmain, rfl⟩⟩
  · cases h
    exact ⟨by simp, rfl, rfl, .inr ⟨rfl, nofun⟩⟩
  · rename_i hmain
    rw [hmain]
    split at h <;> cases h <;> exact ⟨by simp, rfl, rfl, .inr ⟨rfl, fun _ => rfl⟩⟩
  · split at h <;> cases h
    exact ⟨by simp, rfl, rfl, .inr ⟨rfl, nofun⟩⟩
  · cases h
    cases fails <;> exact ⟨by simp, rfl, rfl, .inr ⟨rfl, nofun⟩⟩
  · rename_i success _ _ _ _
    split at h <;> cases h <;> cases success <;> exact ⟨by simp, rfl, rfl, .inr ⟨rfl, nofun⟩⟩
  · cases h
    exact ⟨by simp, rfl, rfl, .inr ⟨rfl, nofun⟩⟩
  · cases h
  · cases h

theorem Drainable.start (h : cfg.start = some s) : s.Drainable cfg := by
  unfold CopyConfig.start at h
  split at h
  · cases h
  · rename_i hcapacity
    cases h
    refine ⟨by omega, ?_, nofun, .inr (by simp [RestFits])⟩
    intro _
    refine ⟨rfl, ?_⟩
    intro w hmem
    rw [List.eq_of_mem_replicate hmem]
    rfl

theorem RestFits.step_reader {i : Nat} {r r' : CopyReader Row} {sent : Option (List Row)}
    {queue : List (List Row)} (hfits : s.RestFits cfg) (hget : s.readers[i]? = some r)
    (hbatches : r'.batchesLeft + (if sent.isSome then 1 else 0) ≤ r.batchesLeft)
    (hqueue : queue.length = s.queue.length + (if sent.isSome then 1 else 0)) :
    RestFits cfg { s with readers := s.readers.set i r', queue } := by
  have hsum : r.batchesLeft + ((s.readers.set i r').map (·.batchesLeft)).sum =
      r'.batchesLeft + (s.readers.map (·.batchesLeft)).sum := sum_map_set (·.batchesLeft) hget
  unfold RestFits at hfits ⊢
  simp only
  omega

theorem CopyWriter.Stepped.queue_length {closed : Bool} {queue queue' : List (List Row)}
    {w w' : CopyWriter Row} (h : w.Stepped closed queue w' queue') :
    queue'.length ≤ queue.length := by
  cases h with
  | took batch hqueue _ _ _ =>
    rw [hqueue]
    simp
  | wrote hqueue _ _ _ => exact Nat.le_of_eq (by rw [hqueue])

theorem Drainable.step (hinv : s.Inv cfg) (hdrain : s.Drainable cfg) (h : s.step cfg l = some s')
    (hcareful : l.Careful cfg s) : s'.Drainable cfg := by
  have hphase := hinv.phase
  unfold PhaseInv at hphase
  cases step_spec h with
  | reader i r r' sent queue hget hstep hsend heq =>
    rw [heq]
    refine ⟨hdrain.capacity, ?_, ?_, ?_⟩
    · intro hmain
      simp only at hmain
      rw [hmain] at hphase
      simp only at hphase
      rw [hphase] at hget
      cases hget
    · intro hawaiting r'' hmem
      rcases List.mem_or_eq_of_mem_set hmem with hmem | rfl
      · exact hdrain.notAborted hawaiting r'' hmem
      · exact hstep.after
    · exact hdrain.drained.imp id fun hfits =>
        hfits.step_reader hget hstep.batches (send_spec hsend).2
  | cancel i r hget hrunning hdraining heq =>
    rw [heq]
    refine ⟨hdrain.capacity, ?_, ?_, ?_⟩
    · intro hmain
      unfold isDraining at hdraining
      simp only at hmain
      rw [hmain] at hdraining
      cases hdraining
    · intro hawaiting
      unfold isDraining at hdraining
      unfold isAwaitingReaders at hawaiting
      split at hdraining
      · rename_i hmain
        simp only [hmain] at hawaiting
        cases hawaiting
      · cases hdraining
    · exact hdrain.drained.imp id fun hfits =>
        @RestFits.step_reader _ cfg s i r .aborted none s.queue hfits hget (Nat.zero_le _) rfl
  | writer j w w' queue hget hrunning hfailed hstep heq =>
    rw [heq]
    have hj : j < s.writers.length := (List.getElem?_eq_some_iff.mp hget).1
    refine ⟨hdrain.capacity, ?_, hdrain.notAborted, ?_⟩
    · intro hmain
      -- Before the readers are spawned, writers wait for an open, empty queue.
      obtain ⟨hempty, hreceiving⟩ := hdrain.waiting hmain
      simp only at hmain
      cases hstep with
      | took batch hqueue _ _ _ =>
        rw [hempty] at hqueue
        cases hqueue
      | wrote _ _ _ hopen =>
        have hclosed := hopen (hreceiving w (List.mem_of_getElem? hget))
        unfold closed at hclosed
        rw [hmain] at hclosed
        cases hclosed
    · by_cases hw' : w' = .failed
      · rw [hfailed hw'] at hcareful
        rcases hcareful with ⟨j', w'', hne, hget', hw''⟩ | hfits
        · refine .inl ⟨w'', List.mem_iff_getElem?.mpr ⟨j', ?_⟩, hw''⟩
          simp only [List.getElem?_set, if_neg (Ne.symm hne), hget']
        · right
          have hlen := CopyWriter.Stepped.queue_length hstep
          unfold RestFits at hfits ⊢
          simp only
          omega
      · exact .inl ⟨w', List.mem_set hj _, hw'⟩
  | main fails hstep =>
    obtain ⟨hmain, hwriters, hqueue, hreaders⟩ := mainStep_spec hstep
    refine ⟨hdrain.capacity, fun h => absurd h hmain, ?_, ?_⟩
    · intro hawaiting
      rcases hreaders with ⟨-, hspawned⟩ | ⟨hsame, hbefore⟩
      · rw [hspawned]
        intro r hmem
        obtain ⟨rows, -, rfl⟩ := List.mem_map.mp hmem
        simp
      · rw [hsame]
        exact hdrain.notAborted (hbefore hawaiting)
    · rcases hreaders with ⟨hsetup, -⟩ | ⟨hsame, -⟩
      · obtain ⟨w, hmem⟩ := List.exists_mem_of_length_pos hinv.writers
        refine .inl ⟨w, by rw [hwriters]; exact hmem, ?_⟩
        intro heq
        have hreceiving := (hdrain.waiting hsetup).2 w hmem
        rw [heq] at hreceiving
        cases hreceiving
      · have hdrained := hdrain.drained
        unfold RestFits at hdrained ⊢
        rw [hwriters, hqueue, hsame]
        exact hdrained

/-- Some task can take a step in which nothing fails. -/
def CanStep (cfg : CopyConfig Row) (s : CopyState Row) : Prop :=
  ∃ l s', l.fails = false ∧ s.step cfg l = some s'

theorem CanStep.reader {i : Nat} {r r' : CopyReader Row} {sent : Option (List Row)}
    {queue : List (List Row)} (hget : s.readers[i]? = some r) (hstep : r.step .ok = some (r', sent))
    (hsend : s.send cfg.batchChannelCapacity sent = some queue) : s.CanStep cfg := by
  refine ⟨.reader i .ok, { s with readers := s.readers.set i r', queue }, rfl, ?_⟩
  simp [step, hget, hstep, hsend]

theorem CanStep.writer {w w' : CopyWriter Row} {queue : List (List Row)} (hmem : w ∈ s.writers)
    (hstep : w.step .ok s.closed s.queue = some (w', queue)) : s.CanStep cfg := by
  obtain ⟨j, hget⟩ := List.mem_iff_getElem?.mp hmem
  refine ⟨.writer j .ok, { s with writers := s.writers.set j w', queue }, rfl, ?_⟩
  simp [step, hget, hstep]

theorem CanStep.main (hstep : s.mainStep cfg false = some s') : s.CanStep cfg :=
  ⟨.main .ok, s', rfl, hstep⟩

/-- A writer that has not ended can go on, unless it waits for an open, empty queue. -/
theorem canStep_of_writer {w : CopyWriter Row} (hmem : w ∈ s.writers) (hrunning : w.hasEnded = false)
    (hbatch : s.queue ≠ [] ∨ s.closed = true) : s.CanStep cfg := by
  cases w with
  | receiving files current =>
    cases hqueue : s.queue with
    | nil =>
      have hclosed : s.closed = true := hbatch.resolve_left fun hne => hne hqueue
      have hstep : (CopyWriter.receiving files current).step .ok s.closed s.queue =
          some (.finishing files current, []) := by
        simp [CopyWriter.step, hqueue, hclosed]
      exact CanStep.writer hmem hstep
    | cons batch queue =>
      have hstep : (CopyWriter.receiving files current).step .ok s.closed s.queue =
          some (.writing batch files current, queue) := by
        simp [CopyWriter.step, hqueue]
      exact CanStep.writer hmem hstep
  | writing batch files current =>
    by_cases hempty : batch.isEmpty = true
    · exact CanStep.writer hmem (if_pos hempty)
    · exact CanStep.writer hmem (if_neg hempty)
  | finishing files current =>
    cases current with
    | none => exact CanStep.writer hmem rfl
    | some rows => exact CanStep.writer hmem rfl
  | done files => cases hrunning
  | failed => cases hrunning

/-- A reader in `send` is not stuck: the queue has room, or a writer takes from it. -/
theorem canStep_of_sending (hinv : s.Inv cfg) (hdrain : s.Drainable cfg) {i : Nat}
    {r r' : CopyReader Row} {batch : List Row} (hget : s.readers[i]? = some r)
    (hstep : r.step .ok = some (r', some batch)) : s.CanStep cfg := by
  have hstepped := CopyReader.step_spec hstep
  by_cases hroom : s.queue.length < cfg.batchChannelCapacity
  · exact CanStep.reader hget hstep (if_pos hroom)
  · rcases hdrain.drained with ⟨w, hmem, hw⟩ | hfits
    · have hopen := close_of_running hinv hget hstepped.before w hmem
      have hrunning : w.hasEnded = false := by
        cases w with
        | done files => cases hopen
        | failed => exact absurd rfl hw
        | _ => rfl
      have hcapacity := hdrain.capacity
      refine canStep_of_writer hmem hrunning (.inl ?_)
      intro hempty
      rw [hempty] at hroom
      exact hroom hcapacity
    · have hbatches := hstepped.batches
      have hsum : r.batchesLeft + ((s.readers.set i .aborted).map (·.batchesLeft)).sum =
          0 + (s.readers.map (·.batchesLeft)).sum := sum_map_set (·.batchesLeft) hget
      unfold RestFits at hfits
      simp only [Option.isSome_some, if_true] at hbatches
      omega

theorem canStep_of_reader (hinv : s.Inv cfg) (hdrain : s.Drainable cfg) {i : Nat}
    {r : CopyReader Row} (hget : s.readers[i]? = some r) (hrunning : r.hasEnded = false) :
    s.CanStep cfg := by
  cases r with
  | reading rest builder rows =>
    cases rest with
    | nil =>
      cases hfin : builder.finalizeCurrentBatch with
      | mk batch builder' =>
        cases batch with
        | none => exact CanStep.reader hget (by simp only [CopyReader.step, hfin]; rfl) rfl
        | some batch => exact CanStep.reader hget (by simp only [CopyReader.step, hfin]; rfl) rfl
    | cons row rest =>
      cases happ : builder.appendTableRow row with
      | mk batch builder' =>
        cases batch with
        | none => exact CanStep.reader hget (by simp only [CopyReader.step, happ]; rfl) rfl
        | some batch => exact CanStep.reader hget (by simp only [CopyReader.step, happ]; rfl) rfl
  | sending batch rest builder rows => exact canStep_of_sending hinv hdrain hget rfl
  | sendingLast batch rows => exact canStep_of_sending hinv hdrain hget rfl
  | committing rows => exact CanStep.reader hget rfl rfl
  | finished rows => cases hrunning
  | failed => cases hrunning
  | aborted => cases hrunning

theorem canStep (hinv : s.Inv cfg) (hdrain : s.Drainable cfg) (hmain : s.main.hasReturned = false) :
    s.CanStep cfg := by
  have hphase := hinv.phase
  unfold PhaseInv at hphase
  cases hphaseEq : s.main with
  | setup => exact CanStep.main (by simp only [mainStep, hphaseEq]; rfl)
  | awaitingReaders left rowsCopied =>
    rw [hphaseEq] at hphase
    obtain ⟨hlen, hle, -, -⟩ := hphase
    cases left with
    | zero => exact CanStep.main (by simp only [mainStep, hphaseEq]; rfl)
    | succ left =>
      have hlt : left < s.readers.length := by omega
      have hget := List.getElem?_eq_getElem hlt
      by_cases hrunning : s.readers[left].hasEnded = false
      · exact canStep_of_reader hinv hdrain hget hrunning
      · cases hr : s.readers[left] with
        | finished rows =>
          exact CanStep.main (by simp only [mainStep, hphaseEq, hget, hr]; rfl)
        | failed => exact CanStep.main (by simp only [mainStep, hphaseEq, hget, hr]; rfl)
        | aborted =>
          refine absurd hr (hdrain.notAborted ?_ _ (List.getElem_mem hlt))
          simp only [isAwaitingReaders, hphaseEq]
        | _ =>
          rw [hr] at hrunning
          exact absurd rfl hrunning
  | drainingReaders rowsCopied =>
    by_cases hended : s.readers.all (·.hasEnded) = true
    · exact CanStep.main (by simp only [mainStep, hphaseEq, hended]; rfl)
    · rw [List.all_eq_true] at hended
      simp only [not_forall] at hended
      obtain ⟨r, hmem, hrunning⟩ := hended
      obtain ⟨i, hget⟩ := List.mem_iff_getElem?.mp hmem
      refine ⟨.cancelReader i, { s with readers := s.readers.set i .aborted }, rfl, ?_⟩
      simp [step, hget, isDraining, hphaseEq, hrunning]
  | finalizingSnapshot success rowsCopied =>
    exact CanStep.main (by simp only [mainStep, hphaseEq]; rfl)
  | awaitingWriters success rowsCopied next files =>
    rw [hphaseEq] at hphase
    have hclosed : s.closed = true := by
      simp only [closed, hphaseEq, hphase.1]
      rfl
    cases hget : s.writers[next]? with
    | none => exact CanStep.main (by simp only [mainStep, hphaseEq, hget]; rfl)
    | some w =>
      by_cases hrunning : w.hasEnded = false
      · exact canStep_of_writer (List.mem_of_getElem? hget) hrunning (.inr hclosed)
      · cases w with
        | done written => exact CanStep.main (by simp only [mainStep, hphaseEq, hget]; rfl)
        | failed => exact CanStep.main (by simp only [mainStep, hphaseEq, hget]; rfl)
        | _ => exact absurd rfl hrunning
  | sendingLoadFiles rowsCopied files =>
    exact CanStep.main (by simp only [mainStep, hphaseEq]; rfl)
  | returnedOk rowsCopied =>
    rw [hphaseEq] at hmain
    cases hmain
  | returnedErr =>
    rw [hphaseEq] at hmain
    cases hmain

end CopyState

/-! ## Runs -/

section Runs

variable {cfg : CopyConfig Row} {s : CopyState Row} {careful : Prop}

theorem copySystem_inv (hs : (copySystem cfg careful).Reachable s) : s.Inv cfg := by
  have hind : (copySystem cfg careful).Inductive (CopyState.Inv cfg) := by
    refine ⟨fun s h => CopyState.Inv.start h, ?_⟩
    rintro s s' hinv ⟨l, hstep, -⟩
    exact hinv.step hstep
  exact hind.reachable hs

theorem copySystem_drainable (hcareful : careful) (hs : (copySystem cfg careful).Reachable s) :
    s.Drainable cfg := by
  have hind : (copySystem cfg careful).Inductive fun s => s.Inv cfg ∧ s.Drainable cfg := by
    refine ⟨fun s h => ⟨.start h, .start h⟩, ?_⟩
    rintro s s' ⟨hinv, hdrain⟩ ⟨l, hstep, hl⟩
    exact ⟨hinv.step hstep, hdrain.step hinv hstep (hl hcareful)⟩
  exact (hind.reachable hs).2

theorem CopyState.Inv.noFailure_of_loadFiles (hinv : s.Inv cfg) {files : List (List Row)}
    (h : s.loadFiles = some files) : s.NoFailure := by
  obtain ⟨rowsCopied, hmain⟩ := hinv.unloaded files h
  have hphase := hinv.phase
  unfold CopyState.PhaseInv at hphase
  rw [hmain] at hphase
  obtain ⟨-, -, _, -, hloaded⟩ := hphase
  exact hloaded.noFailure

theorem CopyState.Inv.loaded_of_returnedOk (hinv : s.Inv cfg) {rowsCopied : Nat}
    (hmain : s.main = .returnedOk rowsCopied) :
    ∃ files, s.loadFiles = some files ∧ s.Loaded cfg rowsCopied files := by
  have hphase := hinv.phase
  unfold CopyState.PhaseInv at hphase
  rw [hmain] at hphase
  exact hphase.2.2

end Runs

/-- Three rows for one reader and one writer, in batches of one row. -/
def threeRows : CopyConfig Nat where
  shards := [[1, 2, 3]]
  maxRowsPerBatch := 1
  numWriterTasks := 1
  batchChannelCapacity := 1

/-- The steps of a run, one after the other. -/
def CopyState.runSteps (s : CopyState Row) (ls : List CopyStep) :
    Option (CopyState Row) := ls.foldlM (·.step cfg) s

theorem runSteps_reachable {cfg : CopyConfig Row} {careful : Prop} {s s' : CopyState Row}
    {ls : List CopyStep} (hs : (copySystem cfg careful).Reachable s)
    (h : s.runSteps cfg ls = some s')
    (hcareful : careful → ∀ l ∈ ls, ∀ j, l ≠ .writer j .fail) :
    (copySystem cfg careful).Reachable s' := by
  induction ls generalizing s with
  | nil =>
    cases h
    exact hs
  | cons l ls ih =>
    obtain ⟨s₁, hstep, h⟩ := Option.bind_eq_some_iff.mp h
    refine ih (.step hs ⟨l, hstep, ?_⟩) h ?_
    · intro hc
      have hne := hcareful hc l List.mem_cons_self
      cases l with
      | writer j outcome =>
        cases outcome with
        | fail => exact absurd rfl (hne j)
        | _ => trivial
      | _ => trivial
    · intro hc l' hl'
      exact hcareful hc l' (List.mem_cons_of_mem _ hl')

/-- As long as the last writer does not fail while more batches are to come than the
queue holds, the copy never gets stuck; and it loads all rows, or none after a failure. -/
theorem copy_loses_no_row (s : CopyState Row) (hs : (copySystem cfg True).Reachable s) :
    (s.main.hasReturned = false → s.CanStep cfg) ∧
      (∀ rowsCopied, s.main = .returnedOk rowsCopied →
        ∃ files, s.loadFiles = some files ∧ s.Loaded cfg rowsCopied files) ∧
      (s.loadFiles.isSome = true → s.NoFailure) := by
  have hinv := copySystem_inv hs
  refine ⟨CopyState.canStep hinv (copySystem_drainable trivial hs), ?_, ?_⟩
  · intro rowsCopied hmain
    exact hinv.loaded_of_returnedOk hmain
  · intro hloaded
    obtain ⟨files, hfiles⟩ := Option.isSome_iff_exists.mp hloaded
    exact hinv.noFailure_of_loadFiles hfiles

/-- The copy of three rows that ends well, with two files. -/
def threeRowsCopied : List CopyStep :=
  [.main .ok, .reader 0 .ok, .reader 0 .ok, .reader 0 .ok, .writer 0 .ok, .writer 0 .rotate,
    .reader 0 .ok, .reader 0 .ok, .writer 0 .ok, .writer 0 .ok, .reader 0 .ok, .reader 0 .ok,
    .writer 0 .ok, .writer 0 .ok, .reader 0 .ok, .main .ok, .main .ok, .main .ok, .writer 0 .ok,
    .writer 0 .ok, .main .ok, .main .ok, .main .ok]

theorem copy_loses_no_row_threeRows :
    ∃ s files, (copySystem threeRows True).Reachable s ∧ s.main = .returnedOk 3 ∧
      s.loadFiles = some files ∧ s.Loaded threeRows 3 files ∧ s.NoFailure := by
  obtain ⟨s₀, hstart⟩ : ∃ s₀, threeRows.start = some s₀ := ⟨_, rfl⟩
  obtain ⟨s, hrun, hmain⟩ : ∃ s, s₀.runSteps threeRows threeRowsCopied = some s ∧
      s.main = .returnedOk 3 := by
    cases hstart
    exact ⟨_, rfl, rfl⟩
  have hs : (copySystem threeRows True).Reachable s := by
    refine runSteps_reachable (.init hstart) hrun ?_
    intro _ l hl j heq
    subst heq
    revert hl
    simp [threeRowsCopied]
  obtain ⟨-, hok, hload⟩ := copy_loses_no_row threeRows s hs
  obtain ⟨files, hfiles, hloaded⟩ := hok 3 hmain
  exact ⟨s, files, hs, hmain, hfiles, hloaded, hload (by rw [hfiles]; rfl)⟩

/-- The queue is full and nobody takes from it. -/
def stuckCopy : CopyState Nat where
  main := .awaitingReaders 1 0
  readers := [.sendingLast [3] 3]
  writers := [.failed]
  queue := [[2]]
  loadFiles := none

/-- The only writer fails at the first batch: the second fills the queue, and the reader
waits to send the third one, while `copy_table_stream` waits for the reader. -/
theorem copy_stuck_after_last_writer_failed :
    ∃ s, (copySystem threeRows False).Reachable s ∧ s.main.hasReturned = false ∧
      ∀ l, s.step threeRows l = none := by
  obtain ⟨s₀, hstart⟩ : ∃ s₀, threeRows.start = some s₀ := ⟨_, rfl⟩
  refine ⟨stuckCopy, ?_, rfl, ?_⟩
  · refine @runSteps_reachable _ _ _ s₀ _
      [.main .ok, .reader 0 .ok, .reader 0 .ok, .reader 0 .ok, .writer 0 .ok, .writer 0 .fail,
        .reader 0 .ok, .reader 0 .ok, .reader 0 .ok] (.init hstart) ?_ nofun
    cases hstart
    rfl
  · intro l
    cases l with
    | reader i outcome =>
      cases i with
      | zero => cases outcome <;> rfl
      | succ i => rfl
    | cancelReader i =>
      cases i with
      | zero => rfl
      | succ i => rfl
    | writer j outcome =>
      cases j with
      | zero => rfl
      | succ j => rfl
    | main outcome => cases outcome <;> rfl

end Moonlink.Replication
