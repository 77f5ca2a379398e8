-- SUMMARY: Which events of a connection reach the sink, and when an error leaves no gap.
import Moonlink.Lib.TransitionSystem
import Moonlink.Replication.EventLoop

namespace Moonlink.EventLoop

open Lib FanOut

variable {Cell : Type}

/-- A batch without the skipped errors. -/
def kept (items : List (BatchItem Cell)) : List (BatchItem Cell) := items.filter fun i => !isSkipped i

def isEvent : BatchItem Cell → Bool
  | .ok _ => true
  | .error _ => false

namespace ReplicationLoop

variable {s s' : ReplicationLoop Cell} {text : TextFormatConverter Cell}

/-- What reached the sink is a prefix of the events of the connection. -/
def DropsNothing (s : ReplicationLoop Cell) : Prop :=
  s.delivered.map .ok <+: (s.batches.map kept).flatten

instance [DecidableEq Cell] : Decidable s.DropsNothing := inferInstanceAs (Decidable (_ <+: _))

/-- The sink got `d` from the items. -/
structure Delivers (s : ReplicationLoop Cell) (items : List (BatchItem Cell)) (s' : ReplicationLoop Cell) :
    Prop where
  batches : s'.batches = s.batches
  delivered : ∃ d, s'.delivered = s.delivered ++ d ∧ d.map .ok <+: (kept items).takeWhile isEvent ∧
    (d = [] → (kept items).takeWhile isEvent = []) ∧
    (s'.status = s.status ∧ d.map .ok = (kept items).takeWhile isEvent ∨ s'.status = .failed)

theorem processCdcEvent_ensures (s : ReplicationLoop Cell) (e : FanOut.CdcEvent (TableRow Cell)) :
    Ensures (s.processCdcEvent e) fun o =>
      o.1.batches = s.batches ∧ o.1.status = s.status ∧ o.1.delivered = s.delivered ++ [e] := by
  rintro ⟨s', request⟩ h
  obtain ⟨⟨sink, sent, request'⟩, -, heq⟩ := bind_eq_ok.mp h
  cases heq
  exact ⟨rfl, rfl, rfl⟩

theorem alterTable_ensures (s : ReplicationLoop Cell) (t : TableId) (columns : List ColumnInfo) :
    Ensures (s.alterTable t columns) fun s' =>
      s'.batches = s.batches ∧ s'.status = s.status ∧ s'.delivered = s.delivered := by
  intro s' h
  obtain ⟨⟨sink, sent⟩, -, h⟩ := bind_eq_ok.mp h
  obtain ⟨stream, -, heq⟩ := bind_eq_ok.mp h
  cases heq
  exact ⟨rfl, rfl, rfl⟩

theorem Delivers.cons {event : FanOut.CdcEvent (TableRow Cell)} {s₁ : ReplicationLoop Cell}
    {rest : List (BatchItem Cell)}
    (h₁ : s₁.batches = s.batches ∧ s₁.status = s.status ∧ s₁.delivered = s.delivered ++ [event])
    (h : Delivers s₁ rest s') : Delivers s (.ok event :: rest) s' := by
  obtain ⟨hbatches, hstatus, hdelivered⟩ := h₁
  obtain ⟨d, hd, hpre, -, hends⟩ := h.delivered
  have htake : (kept (.ok event :: rest)).takeWhile isEvent = .ok event :: (kept rest).takeWhile isEvent := rfl
  refine ⟨h.batches.trans hbatches, event :: d, ?_, ?_, nofun, ?_⟩
  · rw [hd, hdelivered, List.append_assoc, List.singleton_append]
  · rw [htake, List.map_cons]
    exact List.cons_prefix_cons.mpr ⟨rfl, hpre⟩
  · rw [htake, List.map_cons]
    exact hends.imp (fun ⟨hs, hall⟩ => ⟨hs.trans hstatus, by rw [hall]⟩) id

theorem processBatch_delivers (items : List (BatchItem Cell)) (fetched : List (Option (List ColumnInfo)))
    (s : ReplicationLoop Cell) : Ensures (s.processBatch items fetched) (Delivers s items) := by
  induction items generalizing s fetched with
  | nil => exact .ok ⟨rfl, [], by simp, by simp, fun _ => rfl, .inl ⟨rfl, rfl⟩⟩
  | cons item rest ih =>
    cases item with
    | error e =>
      unfold processBatch
      split
      · rename_i hskipped
        have hkept : kept (.error e :: rest : List (BatchItem Cell)) = kept rest := by
          simp [kept, hskipped]
        refine (ih fetched s).mono fun s' h => ?_
        exact ⟨h.batches, hkept ▸ h.delivered⟩
      · rename_i hstops
        have hkept : (kept (.error e :: rest : List (BatchItem Cell))).takeWhile isEvent = [] := by
          simp [kept, hstops, isEvent]
        refine .ok ⟨rfl, [], by simp, by simp, fun _ => hkept, .inl ⟨rfl, hkept.symm⟩⟩
    | ok event =>
      unfold processBatch
      refine .bind (processCdcEvent_ensures s event) ?_
      rintro ⟨s₁, request⟩ h₁
      cases request with
      | none => exact (ih fetched s₁).mono fun s' h => h.cons h₁
      | some t =>
        simp only
        split
        · refine .bind (alterTable_ensures s₁ t _) fun s₂ h₂ => ?_
          refine (ih _ s₂).mono fun s' h => h.cons ?_
          exact ⟨h₂.1.trans h₁.1, h₂.2.1.trans h₁.2.1, h₂.2.2.trans h₁.2.2⟩
        · refine .pure ⟨h₁.1, [event], h₁.2.2, ?_, nofun, .inr rfl⟩
          exact List.cons_prefix_cons.mpr ⟨rfl, List.nil_prefix⟩

/-- From all batches but the last everything up to the first error is delivered, and so it is from
the last one unless the loop failed in it. -/
structure Inv (s : ReplicationLoop Cell) : Prop where
  delivered : (s.batches = [] ∧ s.delivered = []) ∨ ∃ before items d,
    s.batches = before ++ [items] ∧
      s.delivered.map .ok = (before.map kept).flatMap (List.takeWhile isEvent) ++ d ∧
      d <+: (kept items).takeWhile isEvent ∧ (d = [] → (kept items).takeWhile isEvent = [])
  complete : s.status ≠ .failed →
    s.delivered.map .ok = (s.batches.map kept).flatMap (List.takeWhile isEvent)

theorem Inv.new : Inv (new : ReplicationLoop Cell) := ⟨.inl ⟨rfl, rfl⟩, fun _ => rfl⟩

theorem Inv.congr (h : s.Inv) (hbatches : s'.batches = s.batches) (hdelivered : s'.delivered = s.delivered)
    (hstatus : s'.status ≠ .failed → s.status ≠ .failed) : s'.Inv := by
  refine ⟨?_, fun hne => ?_⟩
  · rw [hbatches, hdelivered]
    exact h.delivered
  · rw [hbatches, hdelivered]
    exact h.complete (hstatus hne)

theorem Inv.handleBatch (h : s.Inv) (hconnected : s.status = .connected) (frames : List Frame)
    (fetched : List (Option (List ColumnInfo))) : Ensures (s.handleBatch text frames fetched) Inv := by
  have hne : s.status ≠ .failed := by simp [hconnected]
  refine .bind (P := fun _ => True) (fun _ _ => trivial) ?_
  rintro ⟨items, lastEndLsn⟩ -
  simp only
  split
  · split
    · exact .pure h
    · exact .pure (h.congr rfl rfl fun _ => hne)
  · refine .bind (processBatch_delivers items fetched _) fun s₁ h₁ => .pure ?_
    obtain ⟨d, hd, hpre, hnil, hends⟩ := h₁.delivered
    have hbefore := h.complete hne
    have hdelivered : s₁.delivered.map .ok =
        (s.batches.map kept).flatMap (List.takeWhile isEvent) ++ d.map .ok := by
      rw [hd, List.map_append]
      exact congrArg (· ++ _) hbefore
    refine ⟨.inr ⟨s.batches, items, d.map .ok, h₁.batches, hdelivered, hpre, fun hd' => hnil ?_⟩, fun hs => ?_⟩
    · exact List.map_eq_nil_iff.mp hd'
    · have hall := (hends.resolve_right hs).2
      change s₁.delivered.map .ok = (s₁.batches.map kept).flatMap (List.takeWhile isEvent)
      rw [hdelivered, hall, show s₁.batches = s.batches ++ [items] from h₁.batches]
      simp

theorem Inv.next (h : s.Inv) (i : LoopInput) : Ensures (s.next text i) Inv := by
  unfold ReplicationLoop.next
  split
  · exact .ok ⟨.inl ⟨rfl, rfl⟩, fun _ => rfl⟩
  · exact .ok (h.congr rfl rfl fun hne => absurd rfl hne)
  · rename_i hstatus
    have hne : s.status ≠ .failed := by simp [hstatus]
    exact .bind_any fun stream => .pure (h.congr rfl rfl fun _ => hne)
  · rename_i hstatus
    have hne : s.status ≠ .failed := by simp [hstatus]
    exact .bind_any fun sink => .bind_any fun stream => .pure (h.congr rfl rfl fun _ => hne)
  · rename_i hstatus
    have hne : s.status ≠ .failed := by simp [hstatus]
    exact .ok (h.congr rfl rfl fun _ => hne)
  · rename_i hstatus
    exact h.handleBatch hstatus _ _
  · rename_i hstatus
    have hne : s.status ≠ .failed := by simp [hstatus]
    exact .ok (h.congr rfl rfl fun _ => hne)
  · exact .ok h

/-- In every state of every run the sink has a prefix of the events of the connection exactly if,
after the first batch with an error that is not skipped, no batch began with an event. -/
theorem drops_nothing_iff {inputs : List LoopInput} (hrun : new.run text inputs = .ok s) :
    s.DropsNothing ↔ EndsAtFailure isEvent (s.batches.map kept) := by
  have hinv : s.Inv :=
    Ensures.foldlM (I := fun _ s => Inv s) .new (fun _ i _ _ _ h => h.next i) s hrun
  unfold DropsNothing
  rcases hinv.delivered with ⟨hbatches, hdelivered⟩ | ⟨before, items, d, hbatches, hdelivered, hpre, hnil⟩
  · rw [hbatches, hdelivered]
    simp [EndsAtFailure]
  · rw [hbatches, hdelivered, List.map_append, List.map_singleton]
    exact takeWhile_prefix_iff hpre hnil _

/-- Columns that keep their text. -/
def plainText : TextFormatConverter String := ⟨"", fun _ => "", fun _ str => some str⟩

def insertFrame (str : Option String) : Frame := some (.xLogData 10 1 (.insert 1 [.text str] none))

/-- A row that cannot be converted, before a new connection. -/
def failedRowInputs : List LoopInput :=
  [.connect, .addTable 1 7 [⟨"id", 23, -1⟩],
    .batch [some (.xLogData 10 1 (.begin 20)), insertFrame (some "1"), insertFrame none, insertFrame (some "3")] []]

theorem drops_nothing_iff_failedRowInputs :
    Returns (new.run plainText failedRowInputs) fun s =>
      s.delivered = [.begin 20, .insert 1 ["1"] none] ∧ s.DropsNothing := by
  have hruns : Returns (new.run plainText failedRowInputs) fun s =>
      s.delivered = [.begin 20, .insert 1 ["1"] none] ∧ EndsAtFailure isEvent (s.batches.map kept) := by
    decide +kernel
  obtain ⟨s, hrun, hdelivered, hends⟩ := hruns
  exact ⟨s, hrun, hdelivered, (drops_nothing_iff hrun).mpr hends⟩

/-- The loop stays connected after the error, and delivers the commit of a transaction that lost rows. -/
theorem commit_after_lost_rows :
    Returns (new.run plainText (failedRowInputs ++ [.batch [some (.xLogData 30 1 (.commit 40))] []])) fun s =>
      s.status = .connected ∧ s.delivered = [.begin 20, .insert 1 ["1"] none, .commit 40] ∧
        ¬ s.DropsNothing := by
  decide +kernel

end ReplicationLoop
end Moonlink.EventLoop
