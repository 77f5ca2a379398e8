-- SUMMARY: An outbox: entries wait in order, one batch at a time is sent, and what is acknowledged is confirmed with the next entry.

/-!
# Outboxes

Entries are put into an outbox and sent on in batches. A batch holds everything that is
not confirmed, and only one is outstanding. While it is, new entries wait. When the batch
is acknowledged, its entries are confirmed as soon as the next entry is put in; when it
fails, they wait again.

An outbox never forgets an entry: the confirmed entries, those of the outstanding batch
and those that wait are the entries that were put in, in this order.
-/

namespace Lib

variable {α β : Type}

/-- The batch that was sent last, until it is confirmed or has failed. -/
inductive Outstanding (α : Type) where
  | none
  | sent (batch : List α)
  | acknowledged (batch : List α)

namespace Outstanding

def batch : Outstanding α → List α
  | .none => []
  | .sent batch | .acknowledged batch => batch

/-- The entries that the next entry confirms. -/
def settled : Outstanding α → List α
  | .acknowledged batch => batch
  | .none | .sent _ => []

def settle : Outstanding α → Outstanding α
  | .acknowledged _ => .none
  | outstanding => outstanding

theorem settled_append_batch_settle (o : Outstanding α) : o.settled ++ o.settle.batch = o.batch := by
  cases o with
  | none => rfl
  | sent batch => rfl
  | acknowledged batch => exact List.append_nil batch

end Outstanding

structure Outbox (α : Type) where
  confirmed : List α
  outstanding : Outstanding α
  waiting : List α

inductive OutboxEvent (α : Type) where
  | put (a : α)
  | send
  | acknowledge
  | fail

namespace Outbox

def empty : Outbox α := ⟨[], .none, []⟩

variable (box : Outbox α)

/-- The entries that are not confirmed, in the order in which they were put in. -/
def unconfirmed : List α := box.outstanding.batch ++ box.waiting

/-- All entries, in the order in which they were put in. -/
def entries (box : Outbox α) : List α := box.confirmed ++ box.unconfirmed

/-- The acknowledged entries are confirmed. -/
def settle (box : Outbox α) : Outbox α where
  confirmed := box.confirmed ++ box.outstanding.settled
  outstanding := box.outstanding.settle
  waiting := box.waiting

def next : OutboxEvent α → Outbox α
  | .put a => { box.settle with waiting := box.waiting ++ [a] }
  | .send =>
    match box.outstanding with
    | .none => { box with outstanding := .sent box.waiting, waiting := [] }
    | _ => box
  | .acknowledge =>
    match box.outstanding with
    | .sent batch => { box with outstanding := .acknowledged batch }
    | _ => box
  | .fail =>
    match box.outstanding with
    | .sent batch => { box with outstanding := .none, waiting := batch ++ box.waiting }
    | _ => box

def run (events : List (OutboxEvent α)) : Outbox α := events.foldl next box

/-- The entries that events put in. -/
def puts (events : List (OutboxEvent α)) : List α :=
  events.filterMap fun
    | .put a => some a
    | _ => none

theorem entries_settle : box.settle.entries = box.entries := by
  unfold entries unconfirmed settle
  rw [List.append_assoc, ← List.append_assoc box.outstanding.settled,
    box.outstanding.settled_append_batch_settle]

@[simp] theorem unconfirmed_put (a : α) : (box.next (.put a)).unconfirmed = box.settle.unconfirmed ++ [a] :=
  (List.append_assoc _ _ _).symm

/-- Only a new entry changes what is not confirmed. -/
theorem unconfirmed_next {event : OutboxEvent α} (h : ∀ a, event ≠ .put a) :
    (box.next event).unconfirmed = box.unconfirmed := by
  obtain ⟨confirmed, outstanding, waiting⟩ := box
  cases event with
  | put a => exact absurd rfl (h a)
  | send => cases outstanding <;> simp [next, unconfirmed, Outstanding.batch]
  | acknowledge => cases outstanding <;> rfl
  | fail => cases outstanding <;> simp [next, unconfirmed, Outstanding.batch]

theorem confirmed_next {event : OutboxEvent α} (h : ∀ a, event ≠ .put a) :
    (box.next event).confirmed = box.confirmed := by
  obtain ⟨confirmed, outstanding, waiting⟩ := box
  cases event with
  | put a => exact absurd rfl (h a)
  | send | acknowledge | fail => cases outstanding <;> rfl

theorem entries_next (event : OutboxEvent α) : (box.next event).entries = box.entries ++ puts [event] := by
  cases event with
  | put a =>
    rw [← box.entries_settle]
    unfold entries
    rw [unconfirmed_put, ← List.append_assoc]
    rfl
  | send | acknowledge | fail =>
    unfold entries
    rw [unconfirmed_next box (by simp), confirmed_next box (by simp)]
    exact (List.append_nil _).symm

/-- Nothing is lost, and nothing is there twice. -/
theorem entries_run (events : List (OutboxEvent α)) :
    (box.run events).entries = box.entries ++ puts events := by
  induction events generalizing box with
  | nil => exact (List.append_nil _).symm
  | cons event rest ih =>
    have hputs : puts (event :: rest) = puts [event] ++ puts rest :=
      List.filterMap_append (l := [event])
    change ((box.next event).run rest).entries = _
    rw [ih, entries_next, List.append_assoc, hputs]

theorem entries_run_empty (events : List (OutboxEvent α)) :
    (empty.run events).entries = puts events := entries_run empty events

end Outbox
end Lib
