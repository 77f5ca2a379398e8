-- SUMMARY: The sink's caches change nothing, and what a table's channel means is what the stream says about the table.
import Moonlink.Lib.TransitionSystem
import Moonlink.Replication.FanOut

namespace Moonlink

/-- The last table that was touched is a touched one. -/
def TransactionState.CacheInv (st : TransactionState) : Prop :=
  ∀ t, st.lastTouchedTable = some t → t ∈ st.touchedTables

def TransactionState.uncached (st : TransactionState) : FanOut.UncachedTransaction :=
  ⟨st.finalLsn, st.touchedTables⟩

theorem TransactionState.CacheInv.touch {st : TransactionState} (h : st.CacheInv) (t : TableId) :
    (st.touch t).CacheInv ∧ (st.touch t).uncached = st.uncached.touch t := by
  unfold TransactionState.touch
  split
  · refine ⟨?_, ?_⟩
    · rintro _ ⟨⟩
      simp only
      split
      · rename_i hmem
        simpa using hmem
      · simp
    · by_cases hmem : t ∈ st.touchedTables <;>
        simp [TransactionState.uncached, FanOut.UncachedTransaction.touch, hmem]
  · rename_i hlast
    have hlast : st.lastTouchedTable = some t := by simpa using hlast
    refine ⟨h, ?_⟩
    simp [TransactionState.uncached, FanOut.UncachedTransaction.touch, h t hlast]

end Moonlink

namespace Moonlink.FanOut

open Lib

variable {Row : Type}

namespace Sink

/-- What is left of the sink without its caches. -/
def uncached (s : Sink) : UncachedSink where
  eventSenders := s.eventSenders
  transaction
    | none => s.transactionState.uncached
    | some x => (s.streamingState x).uncached
  relationCache := s.relationCache
  maxKeepaliveLsnSeen := s.maxKeepaliveLsnSeen

structure CacheInv (s : Sink) : Prop where
  sender : ∀ t c, s.cachedEventSender = some (t, c) → s.eventSenders.lookup t = some c
  current : s.transactionState.CacheInv
  streaming : ∀ x, (s.streamingState x).CacheInv
  lastKey : ∀ x t lsn, s.streamingLastKey = some (x, t, lsn) →
    t ∈ (s.streamingState x).touchedTables ∧ (s.streamingState x).finalLsn = lsn

variable {s : Sink}

theorem CacheInv.new : CacheInv new where
  sender _ _ h := nomatch h
  current _ h := nomatch h
  streaming _ _ h := nomatch h
  lastKey _ _ _ h := nomatch h

theorem CacheInv.touchStreaming (h : s.CacheInv) (x : XactId) (t : TableId) :
    (s.touchStreaming x t).1.CacheInv ∧
      (s.touchStreaming x t).1.uncached = s.uncached.set (some x) ((s.uncached.transaction (some x)).touch t) ∧
      (s.touchStreaming x t).2 = (s.uncached.transaction (some x)).finalLsn := by
  obtain ⟨hcache, htouch⟩ := (h.streaming x).touch t
  have hstate (x' : XactId) : (s.touchStreaming x t).1.streamingState x' =
      if x' = x then (s.streamingState x).touch t else s.streamingState x' := by
    simp only [Sink.touchStreaming, streamingState, AssocMap.lookup_insert_ite]
    split <;> rfl
  have hlsn : ((s.streamingState x).touch t).finalLsn = (s.streamingState x).finalLsn :=
    congrArg UncachedTransaction.finalLsn htouch
  refine ⟨⟨h.sender, h.current, fun x' => ?_, ?_⟩, ?_, hlsn⟩
  · rw [hstate]
    split
    · exact hcache
    · exact h.streaming x'
  · rintro _ _ _ ⟨⟩
    rw [hstate, if_pos rfl]
    refine ⟨?_, rfl⟩
    have hmem : t ∈ ((s.streamingState x).uncached.touch t).touchedTables :=
      UncachedTransaction.mem_touch.mpr (.inl rfl)
    rwa [← htouch] at hmem
  · unfold uncached UncachedSink.set
    congr 1
    funext y
    cases y with
    | none => rfl
    | some x' =>
      simp only [hstate]
      by_cases hx : x' = x
      · subst hx
        rw [if_pos rfl, Function.update_self]
        exact htouch
      · rw [if_neg hx, Function.update_of_ne (fun heq => hx (Option.some.inj heq))]

theorem CacheInv.getFinalLsn (h : s.CacheInv) (t : TableId) (x : Option XactId) :
    (s.getFinalLsn t x).1.CacheInv ∧
      (s.getFinalLsn t x).1.uncached = s.uncached.set x ((s.uncached.transaction x).touch t) ∧
      (s.getFinalLsn t x).2 = (s.uncached.transaction x).finalLsn := by
  unfold Sink.getFinalLsn
  cases x with
  | none =>
    obtain ⟨hcache, htouch⟩ := h.current.touch t
    refine ⟨{ h with current := hcache }, ?_, rfl⟩
    unfold uncached UncachedSink.set
    congr 1
    funext y
    cases y with
    | none => simpa using htouch
    | some x' => rfl
  | some x =>
    simp only
    split
    · rename_i lastXid lastTable cachedLsn hkey
      split
      · rename_i hsame
        obtain ⟨rfl, rfl⟩ := hsame
        obtain ⟨hmem, hlsn⟩ := h.lastKey _ _ _ hkey
        refine ⟨h, ?_, hlsn.symm⟩
        -- The table is touched already.
        have htouch : (s.uncached.transaction (some lastXid)).touch lastTable =
            s.uncached.transaction (some lastXid) := by
          have hmem' : lastTable ∈ (s.uncached.transaction (some lastXid)).touchedTables := hmem
          simp [UncachedTransaction.touch, hmem']
        rw [htouch, UncachedSink.set, Function.update_eq_self]
      · exact h.touchStreaming x t
    · exact h.touchStreaming x t

theorem CacheInv.lookupEventSender (h : s.CacheInv) (t : TableId) :
    (s.lookupEventSender t).1.CacheInv ∧ (s.lookupEventSender t).1.uncached = s.uncached ∧
      (s.lookupEventSender t).2 = s.eventSenders.lookup t := by
  unfold Sink.lookupEventSender
  split
  · rename_i c hlook
    refine ⟨⟨?_, h.current, h.streaming, h.lastKey⟩, rfl, hlook.symm⟩
    rintro _ _ ⟨⟩
    exact hlook
  · rename_i hlook
    exact ⟨h, rfl, hlook.symm⟩

theorem CacheInv.getEventSenderFor (h : s.CacheInv) (t : TableId) :
    (s.getEventSenderFor t).1.CacheInv ∧ (s.getEventSenderFor t).1.uncached = s.uncached ∧
      (s.getEventSenderFor t).2 = s.eventSenders.lookup t := by
  unfold Sink.getEventSenderFor
  split
  · rename_i cachedId c hcached
    split
    · rename_i hsame
      subst hsame
      exact ⟨h, rfl, (h.sender _ _ hcached).symm⟩
    · exact h.lookupEventSender t
  · exact h.lookupEventSender t

/-- A step of the sink is the step without caches, and the caches stay right. -/
structure CachesAgree (x : Except SinkPanic (Outcome Sink Row))
    (x' : Except SinkPanic (Outcome UncachedSink Row)) : Prop where
  eq : x' = x.map fun o => (o.1.uncached, o.2)
  inv : Ensures x fun o => o.1.CacheInv

theorem CacheInv.sendRow (h : s.CacheInv) (t : TableId) (x : Option XactId)
    (events : Nat → Except SinkPanic (List (TableEvent Row))) :
    CachesAgree (s.sendRow t x events) (s.uncached.sendRow t x events) := by
  obtain ⟨htouched, hset, hlsn⟩ := h.getFinalLsn t x
  obtain ⟨hinv, hsame, hsender⟩ := htouched.getEventSenderFor t
  have hsenders : (s.getFinalLsn t x).1.eventSenders = s.uncached.eventSenders :=
    (congrArg UncachedSink.eventSenders hset).trans rfl
  unfold Sink.sendRow UncachedSink.sendRow
  simp only [hsender, hsenders, hlsn]
  cases s.uncached.eventSenders.lookup t with
  | none => exact ⟨by rw [← hset, ← hsame]; rfl, .pure hinv⟩
  | some c =>
    cases hevents : events (s.uncached.transaction x).finalLsn with
    | error p => exact ⟨rfl, .error⟩
    | ok events => exact ⟨by rw [← hset, ← hsame]; rfl, .pure hinv⟩

theorem CacheInv.endStreaming (h : s.CacheInv) (x : XactId) (e : TableEvent Row) :
    (s.endStreaming x e).1.CacheInv ∧ (s.endStreaming x e).1.uncached = s.uncached.set (some x) .default ∧
      (s.endStreaming x e).2 = (s.uncached.sendEnd (some x) e, none) := by
  have hstate (x' : XactId) : (s.endStreaming x e).1.streamingState x' =
      if x' = x then TransactionState.default else s.streamingState x' := by
    simp only [Sink.endStreaming, streamingState, AssocMap.lookup_erase_ite]
    split <;> rfl
  refine ⟨⟨h.sender, h.current, fun x' => ?_, nofun⟩, ?_, ?_⟩
  · rw [hstate]
    split
    · exact nofun
    · exact h.streaming x'
  · unfold uncached UncachedSink.set
    congr 1
    funext y
    cases y with
    | none => rfl
    | some x' =>
      simp only [hstate]
      by_cases hx : x' = x
      · subst hx
        rw [if_pos rfl, Function.update_self]
        rfl
      · rw [if_neg hx, Function.update_of_ne (fun heq => hx (Option.some.inj heq))]
  · unfold Sink.endStreaming UncachedSink.sendEnd uncached streamingState
    simp only
    cases s.streamingTransactionsState.lookup x <;> rfl

/-- The keepalive check of a message with an LSN. -/
theorem CacheInv.checked {lsn : Nat} {o : Outcome Sink Row} {o' : Outcome UncachedSink Row}
    (hinv : o.1.CacheInv) (heq : (o.1.uncached, o.2) = o') :
    CachesAgree
      (do
        assert (s.maxKeepaliveLsnSeen ≤ lsn) .lsnBelowKeepalive
        return o)
      (do
        assert (s.uncached.maxKeepaliveLsnSeen ≤ lsn) .lsnBelowKeepalive
        return o') := by
  change CachesAgree
    (do
      assert (s.maxKeepaliveLsnSeen ≤ lsn) .lsnBelowKeepalive
      return o)
    (do
      assert (s.maxKeepaliveLsnSeen ≤ lsn) .lsnBelowKeepalive
      return o')
  cases assert (s.maxKeepaliveLsnSeen ≤ lsn) .lsnBelowKeepalive with
  | error p => exact ⟨rfl, .error⟩
  | ok _ => exact ⟨by rw [← heq]; rfl, .pure hinv⟩

theorem uncached_current (s : Sink) (st : TransactionState) (key : Option (XactId × TableId × Nat)) :
    { s with transactionState := st, streamingLastKey := key }.uncached = s.uncached.set none st.uncached := by
  unfold uncached UncachedSink.set
  congr 1
  funext y
  cases y with
  | none => simp
  | some x => rfl

theorem CacheInv.processCdcEvent (h : s.CacheInv) (e : CdcEvent Row) :
    CachesAgree (s.processCdcEvent e) (s.uncached.processCdcEvent e) := by
  cases e with
  | begin finalLsn =>
    refine CacheInv.checked ⟨h.sender, nofun, h.streaming, nofun⟩ ?_
    simp only [uncached_current]
    rfl
  | commit endLsn =>
    refine CacheInv.checked ⟨h.sender, nofun, h.streaming, nofun⟩ ?_
    simp only [uncached_current]
    rfl
  | insert t row x => exact h.sendRow t x fun lsn => .ok [.append row x lsn false]
  | update t oldRow newRow x => exact h.sendRow t x (updateEvents oldRow newRow x)
  | delete t row x => exact h.sendRow t x fun lsn => .ok [.delete row lsn x false false]
  | relation t columns => exact ⟨rfl, .ok h⟩
  | type => exact ⟨rfl, .ok h⟩
  | primaryKeepAlive walEnd =>
    exact CacheInv.checked ⟨h.sender, h.current, h.streaming, h.lastKey⟩ rfl
  | streamStart x => exact ⟨rfl, .ok h⟩
  | streamStop => exact ⟨rfl, .ok h⟩
  | streamCommit x endLsn =>
    obtain ⟨hinv, hset, hsent⟩ := h.endStreaming x (.commit endLsn (some x) false : TableEvent Row)
    exact CacheInv.checked hinv (by rw [hset, hsent])
  | streamAbort x subXactId =>
    obtain ⟨hinv, hset, hsent⟩ := h.endStreaming x (.streamAbort x false false : TableEvent Row)
    refine ⟨?_, .ok hinv⟩
    change .ok _ = Except.ok ((s.endStreaming x _).1.uncached, (s.endStreaming x _).2)
    rw [hset, hsent]

/-- A table is not added while it has a channel. -/
def AddsNew (eventSenders : AssocMap TableId Sender) : SinkInput Row → Prop
  | .addTable t _ _ => eventSenders.lookup t = none
  | _ => True

theorem CacheInv.next (h : s.CacheInv) {i : SinkInput Row} (hi : AddsNew s.eventSenders i) :
    CachesAgree (s.next i) (s.uncached.next i) := by
  cases i with
  | addTable t c columns =>
    refine ⟨rfl, .ok ⟨fun t' c' hcached => ?_, h.current, h.streaming, h.lastKey⟩⟩
    have hlook := h.sender t' c' hcached
    have hne : t' ≠ t := by
      rintro rfl
      cases hlook.symm.trans hi
    simp only [addTable, AssocMap.lookup_insert_ite, if_neg hne]
    exact hlook
  | dropTable t =>
    simp only [Sink.next, UncachedSink.next, dropTable]
    rw [show s.uncached.eventSenders = s.eventSenders from rfl]
    cases assert (s.eventSenders.lookup t).isSome .tableNotFound with
    | error p => exact ⟨rfl, .error⟩
    | ok _ =>
      refine ⟨rfl, .pure ⟨fun t' c' hcached => ?_, h.current, h.streaming, h.lastKey⟩⟩
      simp only at hcached
      split at hcached
      · rename_i cachedId c hcached'
        split at hcached
        · cases hcached
        · rename_i hne
          cases hcached
          rw [AssocMap.lookup_erase_ite, if_neg hne]
          exact h.sender _ _ hcached'
      · cases hcached
  | alterTable t columns =>
    have hcache : s.uncached.relationCache.lookup t = s.relationCache.lookup t := rfl
    simp only [Sink.next, UncachedSink.next, Sink.alterTable, hcache]
    cases s.relationCache.lookup t with
    | none => exact ⟨rfl, .error⟩
    | some oldColumns => exact ⟨rfl, .ok ⟨h.sender, h.current, h.streaming, h.lastKey⟩⟩
  | event e => exact h.processCdcEvent e

end Sink
/-! ## Channels -/

namespace UncachedSink

variable {u u' : UncachedSink} {p p' : PgOutput} {sent out : Sent Row} {t : TableId} {c : Sender}

theorem channel_append (sent sent' : Sent Row) (c : Sender) :
    channel (sent ++ sent') c = channel sent c ++ channel sent' c := by
  simp [channel]

theorem replica_append (sent sent' : Sent Row) (c : Sender) :
    replica (sent ++ sent') c = (channel sent' c).foldl .receive (replica sent c) := by
  unfold replica
  rw [channel_append, List.foldl_append]

theorem channel_map_self (events : List (SinkEvent Row)) (c : Sender) :
    channel (events.map fun e => (c, e)) c = events := by
  simp [channel, List.filter_map, Function.comp_def]

theorem channel_eq_nil (h : ∀ q ∈ sent, q.1 ≠ c) : channel sent c = [] := by
  unfold channel
  rw [List.map_eq_nil_iff, List.filter_eq_nil_iff]
  simpa using h

/-- The channels of the tables are different. -/
def Injective (eventSenders : AssocMap TableId Sender) : Prop :=
  ∀ t t' c, eventSenders.lookup t = some c → eventSenders.lookup t' = some c → t = t'

theorem channel_sendEnd {eventSenders : AssocMap TableId Sender} (hinj : Injective eventSenders)
    (hlook : eventSenders.lookup t = some c) {touchedTables : List TableId} (hnodup : touchedTables.Nodup)
    (e : TableEvent Row) :
    channel (Sink.sendEnd eventSenders touchedTables e) c = if t ∈ touchedTables then [.table e] else [] := by
  induction touchedTables with
  | nil => rfl
  | cons t' rest ih =>
    obtain ⟨hnot, hrest⟩ := List.nodup_cons.mp hnodup
    have ih := ih hrest
    unfold Sink.sendEnd at ih ⊢
    rw [List.filterMap_cons]
    by_cases ht : t = t'
    · subst ht
      rw [if_neg hnot] at ih
      rw [hlook, if_pos List.mem_cons_self]
      simp only [List.map_cons]
      rw [← List.singleton_append, channel_append, ih]
      simp [channel]
    · have hmem : t ∈ t' :: rest ↔ t ∈ rest := by simp [ht]
      simp only [hmem]
      cases hlook' : eventSenders.lookup t' with
      | none => exact ih
      | some c' =>
        have hne : c' ≠ c := by
          rintro rfl
          exact ht (hinj t t' c' hlook hlook')
        simp only [List.map_cons]
        rw [← List.singleton_append, channel_append, ih]
        simp [channel, hne]

theorem mem_sendEnd {eventSenders : AssocMap TableId Sender} {touchedTables : List TableId}
    {e : TableEvent Row} {q : Sender × SinkEvent Row} (hq : q ∈ Sink.sendEnd eventSenders touchedTables e) :
    ∃ t, eventSenders.lookup t = some q.1 := by
  obtain ⟨c, hc, rfl⟩ := List.mem_map.mp hq
  obtain ⟨t, -, ht⟩ := List.mem_filterMap.mp hc
  exact ⟨t, ht⟩

/-! ## One step without caches -/

/-- A handler has understood its table. -/
structure Matches (r : Replica Row) (v : TableView Row) : Prop where
  received : r.received = v.received
  committed : r.committed = v.committed
  pending : ∀ x, r.pending x = (v.pending x).changes.map Prod.snd

/-- What relates a table, seen through one of its channels, to the sink. -/
structure ViewInv (u : UncachedSink) (p : PgOutput) (sent : Sent Row) (t : TableId) (c : Sender)
    (v : TableView Row) : Prop where
  touched : ∀ x, t ∈ (u.transaction x).touchedTables ↔ (v.pending x).touched = true
  untouched : ∀ x, (v.pending x).touched = false → (v.pending x).changes = []
  fresh : (t, c) ∉ p.added → v.received = [] ∧ v.committed = [] ∧ ∀ x, (v.pending x).changes = []
  added : (t, c) ∈ p.added →
    (replica sent c).received = v.received ∧ (replica sent c).committed = v.committed
  registered : p.eventSenders.lookup t = some c → Matches (replica sent c) v

structure Inv (u : UncachedSink) (p : PgOutput) (sent : Sent Row)
    (view : TableId → Sender → TableView Row) : Prop where
  senders : u.eventSenders = p.eventSenders
  keepalive : u.maxKeepaliveLsnSeen = p.maxKeepaliveLsnSeen
  known : ∀ t ∈ p.added.map Prod.fst, (u.relationCache.lookup t).isSome = true
  added : ∀ t c, p.eventSenders.lookup t = some c → (t, c) ∈ p.added
  channels : (p.added.map Prod.snd).Nodup
  used : ∀ q ∈ sent, q.1 ∈ p.added.map Prod.snd
  nodup : ∀ x, (u.transaction x).touchedTables.Nodup
  view : ∀ t c, ViewInv u p sent t c (view t c)

variable {view view' : TableId → Sender → TableView Row}

theorem eq_of_added (h : (p.added.map Prod.snd).Nodup) {t t' : TableId} (ht : (t, c) ∈ p.added)
    (ht' : (t', c) ∈ p.added) : t = t' :=
  congrArg Prod.fst (List.inj_on_of_nodup_map h ht ht' rfl)

theorem Inv.injective (h : Inv u p sent view) : Injective p.eventSenders :=
  fun t t' c ht ht' => eq_of_added h.channels (h.added t c ht) (h.added t' c ht')

/-- What a step does to a table that has no channel now: transactions may touch it or end. -/
structure Unnoticed (v v' : TableView Row) : Prop where
  received : v'.received = v.received
  committed : v'.committed = v.committed
  pending : (∀ x, (v.pending x).changes = []) → ∀ x, (v'.pending x).changes = []

/-- The rule for steps that keep the registrations: it is enough to follow what the handlers of the
registered tables receive. -/
theorem Inv.step (h : Inv u p sent view) (hsenders : u'.eventSenders = u.eventSenders)
    (hrelation : ∀ t, (u.relationCache.lookup t).isSome = true → (u'.relationCache.lookup t).isSome = true)
    (hsenders' : p'.eventSenders = p.eventSenders) (hadded : p'.added = p.added)
    (hkeepalive : u'.maxKeepaliveLsnSeen = p'.maxKeepaliveLsnSeen)
    (hout : ∀ q ∈ out, ∃ t, p.eventSenders.lookup t = some q.1)
    (hnodup : ∀ x, (u'.transaction x).touchedTables.Nodup)
    (htouched : ∀ t c x, t ∈ (u'.transaction x).touchedTables ↔ ((view' t c).pending x).touched = true)
    (huntouched : ∀ t c x, ((view' t c).pending x).touched = false → ((view' t c).pending x).changes = [])
    (hunnoticed : ∀ t c, p.eventSenders.lookup t ≠ some c → Unnoticed (view t c) (view' t c))
    (hnoticed : ∀ t c, p.eventSenders.lookup t = some c → Matches (replica sent c) (view t c) →
      Matches ((channel out c).foldl .receive (replica sent c)) (view' t c)) :
    Inv u' p' (sent ++ out) view' where
  senders := hsenders.trans (h.senders.trans hsenders'.symm)
  keepalive := hkeepalive
  known t ht := hrelation t (h.known t (hadded ▸ ht))
  added t c hlook := hadded ▸ h.added t c (hsenders' ▸ hlook)
  channels := hadded ▸ h.channels
  used q hq := by
    rw [hadded]
    rcases List.mem_append.mp hq with hq | hq
    · exact h.used q hq
    · obtain ⟨t, ht⟩ := hout q hq
      exact List.mem_map.mpr ⟨(t, q.1), h.added t q.1 ht, rfl⟩
  nodup := hnodup
  view t c := by
    have hv := h.view t c
    refine ⟨htouched t c, huntouched t c, fun hfresh => ?_, fun hmem => ?_, fun hlook => ?_⟩
    · rw [hadded] at hfresh
      obtain ⟨hreceived, hcommitted, hpending⟩ := hv.fresh hfresh
      have hnot : p.eventSenders.lookup t ≠ some c := fun hlook => hfresh (h.added t c hlook)
      have hun := hunnoticed t c hnot
      exact ⟨hun.received.trans hreceived, hun.committed.trans hcommitted, hun.pending hpending⟩
    · rw [hadded] at hmem
      rw [replica_append]
      by_cases hlook : p.eventSenders.lookup t = some c
      · have hmatches := hnoticed t c hlook (hv.registered hlook)
        exact ⟨hmatches.received, hmatches.committed⟩
      · -- The table was dropped, so nothing was sent on its channel.
        have hnil : channel out c = [] := by
          refine channel_eq_nil fun q hq hsame => ?_
          obtain ⟨t', ht'⟩ := hout q hq
          rw [hsame] at ht'
          exact hlook (eq_of_added h.channels hmem (h.added t' c ht') ▸ ht')
        have hun := hunnoticed t c hlook
        rw [hnil, hun.received, hun.committed]
        exact hv.added hmem
    · rw [hsenders'] at hlook
      rw [replica_append]
      exact hnoticed t c hlook (hv.registered hlook)

/-! ### Rows -/

theorem foldl_row (x : Option XactId) (changes : List (Change Row)) (r : Replica Row) :
    changes.foldl (fun r a => r.row x a) r =
      ⟨r.received ++ changes, Function.update r.pending x (r.pending x ++ changes), r.committed⟩ := by
  induction changes generalizing r with
  | nil => simp
  | cons a rest ih =>
    rw [List.foldl_cons, ih]
    simp [Replica.row]

variable {e : CdcEvent Row}

theorem processCdcEvent_row {x : Option XactId} (hrow : e.row? = some (t, x))
    (hold : e.lacksOldRow = false) : ∃ events : Nat → List (TableEvent Row),
      u.processCdcEvent e = u.sendRow t x (fun lsn => .ok (events lsn)) ∧
      ∀ lsn (r : Replica Row), ((events lsn).map SinkEvent.table).foldl .receive r =
        e.changes.foldl (fun r a => r.row x a) r := by
  cases e with
  | insert t' row x' =>
    cases hrow
    exact ⟨fun lsn => [.append row x lsn false], rfl, fun _ _ => rfl⟩
  | update t' oldRow newRow x' =>
    cases hrow
    cases oldRow with
    | none => cases hold
    | some oldRow =>
      exact ⟨fun lsn => [.delete oldRow lsn x false false, .append newRow x lsn false], rfl, fun _ _ => rfl⟩
  | delete t' row x' =>
    cases hrow
    exact ⟨fun lsn => [.delete row lsn x false false], rfl, fun _ _ => rfl⟩
  | _ => cases hrow

theorem next_row {t' : TableId} {x key : Option XactId} (hrow : e.row? = some (t', x))
    (hcurrent : p.current = some key) (v : TableView Row) :
    p.next (.event e) = p ∧ v.next t c p (.event e) =
      if t' = t then v.row (p.eventSenders.lookup t == some c) key x e.changes else v := by
  cases e with
  | insert | update | delete =>
    cases hrow
    refine ⟨rfl, ?_⟩
    simp only [TableView.next, CdcEvent.row?, hcurrent]
  | _ => cases hrow

theorem Inv.row (h : Inv u p sent view) {t' : TableId} {x : Option XactId}
    (hrow : e.row? = some (t', x)) (hcurrent : p.current = some x) (hold : e.lacksOldRow = false) :
    Returns (u.processCdcEvent e) fun o => Inv o.1 (p.next (.event e)) (sent ++ o.2.1)
      (fun t c => (view t c).next t c p (.event e)) := by
  obtain ⟨events, hprocess, hreceive⟩ := processCdcEvent_row (u := u) hrow hold
  rw [hprocess, (next_row (t := t') (c := 0) hrow hcurrent (view t' 0)).1]
  have hview (t : TableId) (c : Sender) := (next_row (t := t) (c := c) hrow hcurrent (view t c)).2
  simp only [hview]
  have hkeep {out : Sent Row} (hout : ∀ q ∈ out, p.eventSenders.lookup t' = some q.1)
      (hsent : ∀ c, p.eventSenders.lookup t' = some c → ∃ lsn, channel out c = (events lsn).map .table) :
      Inv (u.set x ((u.transaction x).touch t')) p (sent ++ out)
        (fun t c => if t' = t then (view t c).row (p.eventSenders.lookup t == some c) x x e.changes
          else view t c) := by
    refine h.step rfl (fun _ ht => ht) rfl rfl h.keepalive (fun q hq => ⟨t', hout q hq⟩) (fun x' => ?_)
      (fun t c x' => ?_) (fun t c x' => ?_) (fun t c hnot => ?_) fun t c hlook hmatches => ?_
    · simp only [set]
      by_cases hx : x' = x
      · subst hx
        rw [Function.update_self]
        exact UncachedTransaction.nodup_touch (h.nodup x') t'
      · rw [Function.update_of_ne hx]
        exact h.nodup x'
    · have htouched := (h.view t c).touched x'
      simp only [set]
      by_cases hx : x' = x
      · subst hx
        rw [Function.update_self, UncachedTransaction.mem_touch]
        by_cases ht : t' = t
        · simp [ht, TableView.row]
        · rw [if_neg ht]
          simpa [Ne.symm ht] using htouched
      · rw [Function.update_of_ne hx]
        split
        · simpa [TableView.row, Function.update_of_ne hx] using htouched
        · exact htouched
    · have huntouched := (h.view t c).untouched x'
      split
      · by_cases hx : x' = x
        · subst hx
          simp [TableView.row]
        · simpa [TableView.row, Function.update_of_ne hx] using huntouched
      · exact huntouched
    · have hfalse : (p.eventSenders.lookup t == some c) = false := by simpa using hnot
      rw [hfalse]
      split
      · refine ⟨by simp [TableView.row], rfl, fun hall x' => ?_⟩
        by_cases hx : x' = x
        · subst hx
          simp [TableView.row, hall]
        · simp [TableView.row, Function.update_of_ne hx, hall]
      · exact ⟨rfl, rfl, fun hall => hall⟩
    · by_cases ht : t' = t
      · subst ht
        obtain ⟨lsn, hlsn⟩ := hsent c hlook
        rw [if_pos rfl, hlsn, hreceive, foldl_row, hlook, beq_self_eq_true]
        refine ⟨?_, hmatches.committed, fun x' => ?_⟩
        · simp [TableView.row, hmatches.received]
        · by_cases hx : x' = x
          · subst hx
            simp [TableView.row, hmatches.pending, Function.comp_def]
          · simp [TableView.row, Function.update_of_ne hx, hmatches.pending]
      · have hnil : channel out c = [] := by
          refine channel_eq_nil fun q hq hsame => ?_
          exact ht (h.injective t' t c (hsame ▸ hout q hq) hlook)
        rw [if_neg ht, hnil]
        exact hmatches
  unfold sendRow
  simp only
  rw [h.senders]
  cases hlook : p.eventSenders.lookup t' with
  | none => exact .ok (hkeep (by simp) (fun c hc => by cases hlook.symm.trans hc))
  | some c' =>
    refine .pure (hkeep (fun q hq => ?_) fun c hc => ⟨(u.transaction x).finalLsn, ?_⟩)
    · obtain ⟨ev, -, rfl⟩ := List.mem_map.mp hq
      exact hlook
    · cases hlook.symm.trans hc
      rw [← channel_map_self ((events _).map .table) c', List.map_map]
      rfl

/-! ### Ends of transactions -/

/-- The view after a commit with its end LSN, or an abort. -/
def TableView.ended (v : TableView Row) (registered : Bool) (key : Option XactId) (endLsn : Option Nat) :
    TableView Row :=
  { v with
    pending := Function.update v.pending key .empty
    committed := if (v.pending key).touched && registered then
      v.committed ++ endLsn.toList.map fun lsn => (lsn, (v.pending key).changes.map Prod.snd)
      else v.committed }

theorem Inv.ended (h : Inv u p sent view) (key : Option XactId) (endLsn : Option Nat) {ev : TableEvent Row}
    {st : UncachedTransaction} (hst : st.touchedTables = [])
    (hreceive : ∀ r : Replica Row, r.receive (.table ev) =
      { r with
        pending := Function.update r.pending key []
        committed := r.committed ++ endLsn.toList.map fun lsn => (lsn, r.pending key) })
    (hsenders : p'.eventSenders = p.eventSenders) (hadded : p'.added = p.added)
    (hkeepalive : p'.maxKeepaliveLsnSeen = p.maxKeepaliveLsnSeen) :
    Inv (u.set key st) p' (sent ++ u.sendEnd key ev) fun t c =>
      TableView.ended (view t c) (p.eventSenders.lookup t == some c) key endLsn := by
  refine h.step rfl (fun _ ht => ht) hsenders hadded (h.keepalive.trans hkeepalive.symm) (fun q hq => ?_)
    (fun x => ?_) (fun t c x => ?_) (fun t c x => ?_) (fun t c hnot => ?_) fun t c hlook hmatches => ?_
  · exact h.senders ▸ mem_sendEnd hq
  · simp only [set]
    by_cases hx : x = key
    · subst hx
      rw [Function.update_self, hst]
      exact List.nodup_nil
    · rw [Function.update_of_ne hx]
      exact h.nodup x
  · have htouched := (h.view t c).touched x
    simp only [set, TableView.ended]
    by_cases hx : x = key
    · subst hx
      simp [hst, TransactionView.empty]
    · simpa [Function.update_of_ne hx] using htouched
  · have huntouched := (h.view t c).untouched x
    by_cases hx : x = key
    · subst hx
      simp [TableView.ended, TransactionView.empty]
    · simpa [TableView.ended, Function.update_of_ne hx] using huntouched
  · have hfalse : (p.eventSenders.lookup t == some c) = false := by simpa using hnot
    refine ⟨rfl, by simp [TableView.ended, hfalse], fun hall x => ?_⟩
    by_cases hx : x = key
    · subst hx
      simp [TableView.ended, TransactionView.empty]
    · simp [TableView.ended, Function.update_of_ne hx, hall]
  · have hchannel : channel (u.sendEnd key ev) c =
        if t ∈ (u.transaction key).touchedTables then [.table ev] else [] := by
      unfold sendEnd
      rw [h.senders]
      exact channel_sendEnd h.injective hlook (h.nodup key) ev
    rw [hchannel, hlook, beq_self_eq_true]
    by_cases htouched : t ∈ (u.transaction key).touchedTables
    · have htrue := ((h.view t c).touched key).mp htouched
      rw [if_pos htouched]
      simp only [List.foldl_cons, List.foldl_nil, hreceive]
      refine ⟨hmatches.received, ?_, fun x => ?_⟩
      · simp [TableView.ended, htrue, hmatches.committed, hmatches.pending]
      · by_cases hx : x = key
        · subst hx
          simp [TableView.ended, TransactionView.empty]
        · simp [TableView.ended, Function.update_of_ne hx, hmatches.pending]
    · -- Nothing is pending, and nothing is sent.
      have hfalse : ((view t c).pending key).touched = false := by
        rw [← Bool.not_eq_true]
        exact fun htrue => htouched (((h.view t c).touched key).mpr htrue)
      rw [if_neg htouched]
      refine ⟨hmatches.received, ?_, fun x => ?_⟩
      · simpa [TableView.ended, hfalse] using hmatches.committed
      · by_cases hx : x = key
        · subst hx
          simp [TableView.ended, TransactionView.empty, hmatches.pending, (h.view t c).untouched x hfalse]
        · simpa [TableView.ended, Function.update_of_ne hx] using hmatches.pending x

/-! ### Other steps -/

/-- Steps that send nothing that a handler takes for a row or an end. -/
theorem Inv.same (h : Inv u p sent view) (hsenders : u'.eventSenders = u.eventSenders)
    (htransaction : ∀ x, (u'.transaction x).touchedTables = (u.transaction x).touchedTables)
    (hrelation : ∀ t, (u.relationCache.lookup t).isSome = true → (u'.relationCache.lookup t).isSome = true)
    (hsenders' : p'.eventSenders = p.eventSenders) (hadded : p'.added = p.added)
    (hkeepalive : u'.maxKeepaliveLsnSeen = p'.maxKeepaliveLsnSeen)
    (hout : ∀ q ∈ out, (∃ t, p.eventSenders.lookup t = some q.1) ∧
      ∀ r : Replica Row, r.receive q.2 = r) : Inv u' p' (sent ++ out) view := by
  refine h.step hsenders hrelation hsenders' hadded hkeepalive (fun q hq => (hout q hq).1)
    (fun x => htransaction x ▸ h.nodup x) (fun t c x => htransaction x ▸ (h.view t c).touched x)
    (fun t c => (h.view t c).untouched) (fun _ _ _ => ⟨rfl, rfl, fun hall => hall⟩) fun t c _ hmatches => ?_
  have hfold : ∀ (es : List (SinkEvent Row)) (r : Replica Row), (∀ e ∈ es, ∀ r : Replica Row, r.receive e = r) →
      es.foldl .receive r = r := by
    intro es
    induction es with
    | nil => exact fun _ _ => rfl
    | cons e rest ih =>
      intro r hall
      rw [List.foldl_cons, hall e List.mem_cons_self]
      exact ih r fun e he => hall e (List.mem_cons_of_mem _ he)
  rw [hfold _ _ fun e he r => ?_]
  · exact hmatches
  · obtain ⟨q, hq, rfl⟩ := List.mem_map.mp he
    exact (hout q (List.mem_filter.mp hq).1).2 r

theorem Inv.addTable (h : Inv u p sent view) {t : TableId} {c : Sender} (columns : List ColumnInfo)
    (ht : p.eventSenders.lookup t = none) (hc : c ∉ p.added.map Prod.snd) :
    Inv { u with
        eventSenders := u.eventSenders.insert t c
        relationCache := u.relationCache.insert t columns }
      { p with eventSenders := p.eventSenders.insert t c, added := (t, c) :: p.added } sent view where
  senders := by rw [h.senders]
  keepalive := h.keepalive
  known t' ht' := by
    rw [AssocMap.lookup_insert_ite]
    split
    · rfl
    · rename_i hne
      rcases List.mem_cons.mp ht' with heq | hmem
      · exact absurd heq hne
      · exact h.known t' hmem
  added t' c' hlook := by
    rw [AssocMap.lookup_insert_ite] at hlook
    split at hlook
    · rename_i heq
      cases hlook
      rw [heq]
      exact List.mem_cons_self
    · exact List.mem_cons_of_mem _ (h.added t' c' hlook)
  channels := List.nodup_cons.mpr ⟨hc, h.channels⟩
  used q hq := List.mem_cons_of_mem _ (h.used q hq)
  nodup := h.nodup
  view t' c' := by
    have hv := h.view t' c'
    refine ⟨hv.touched, hv.untouched, fun hfresh => hv.fresh fun hmem => hfresh (List.mem_cons_of_mem _ hmem),
      fun hmem => ?_, fun hlook => ?_⟩
    · rcases List.mem_cons.mp hmem with heq | hmem
      · obtain ⟨rfl, rfl⟩ := Prod.mk.inj heq
        have hfresh : (t', c') ∉ p.added := fun hmem => hc (List.mem_map.mpr ⟨_, hmem, rfl⟩)
        have hnil : channel sent c' = [] := channel_eq_nil fun q hq hsame => hc (hsame ▸ h.used q hq)
        unfold replica
        rw [hnil, (hv.fresh hfresh).1, (hv.fresh hfresh).2.1]
        exact ⟨rfl, rfl⟩
      · exact hv.added hmem
    · rw [AssocMap.lookup_insert_ite] at hlook
      split at hlook
      · rename_i heq
        cases hlook
        have hfresh : (t', c) ∉ p.added := fun hmem => hc (List.mem_map.mpr ⟨_, hmem, rfl⟩)
        have hnil : channel sent c = [] := channel_eq_nil fun q hq hsame => hc (hsame ▸ h.used q hq)
        obtain ⟨hreceived, hcommitted, hpending⟩ := hv.fresh hfresh
        unfold replica
        rw [hnil]
        exact ⟨hreceived.symm, hcommitted.symm, fun x => by simp [hpending, Replica.new]⟩
      · exact hv.registered hlook

theorem Inv.dropTable (h : Inv u p sent view) (t : TableId) :
    Inv { u with eventSenders := u.eventSenders.erase t } { p with eventSenders := p.eventSenders.erase t }
      sent view := by
  have hlookup {t' : TableId} {c' : Sender} (hlook : (p.eventSenders.erase t).lookup t' = some c') :
      p.eventSenders.lookup t' = some c' := by
    rw [AssocMap.lookup_erase_ite] at hlook
    split at hlook
    · cases hlook
    · exact hlook
  exact { h with
    senders := congrArg (AList.erase t) h.senders
    added := fun t' c' hlook => h.added t' c' (hlookup hlook)
    view := fun t' c' =>
      let hv := h.view t' c'
      ⟨hv.touched, hv.untouched, hv.fresh, hv.added, fun hlook => hv.registered (hlookup hlook)⟩ }

theorem checked_returns {lsn : Nat} {o : Outcome UncachedSink Row} {P : Outcome UncachedSink Row → Prop}
    (hlsn : u.maxKeepaliveLsnSeen ≤ lsn) (ho : P o) :
    Returns (do
      assert (u.maxKeepaliveLsnSeen ≤ lsn) .lsnBelowKeepalive
      return o) P := by
  refine .bind (P := fun _ => True) ⟨(), ?_, trivial⟩ fun _ _ => .pure ho
  simp [assert, hlsn]

theorem Inv.processCdcEvent (h : Inv u p sent view) (haccepts : p.Accepts (.event e))
    (hplain : p.Plain (.event e)) :
    Returns (u.processCdcEvent e) fun o => Inv o.1 (p.next (.event e)) (sent ++ o.2.1)
      (fun t c => (view t c).next t c p (.event e)) := by
  obtain ⟨-, hlsn, hold⟩ := haccepts
  cases e with
  | begin finalLsn =>
    refine checked_returns (h.keepalive ▸ hlsn _ rfl) ?_
    refine h.same rfl (fun x => ?_) (fun _ ht => ht) rfl rfl h.keepalive (by simp)
    simp only [set]
    cases x with
    | none => rw [Function.update_self]
    | some x => rfl
  | commit endLsn =>
    refine checked_returns (h.keepalive ▸ hlsn _ rfl) ?_
    exact h.ended none (some endLsn) rfl (fun r => rfl) rfl rfl rfl
  | insert t row x => exact h.row rfl (hplain _ rfl) hold
  | update t oldRow newRow x => exact h.row rfl (hplain _ rfl) hold
  | delete t row x => exact h.row rfl (hplain _ rfl) hold
  | relation t columns =>
    exact .ok (h.same rfl (fun _ => rfl) (fun _ ht => ht) rfl rfl h.keepalive (by simp))
  | type => exact .ok (h.same rfl (fun _ => rfl) (fun _ ht => ht) rfl rfl h.keepalive (by simp))
  | primaryKeepAlive walEnd =>
    refine checked_returns (h.keepalive ▸ hlsn _ rfl) ?_
    exact h.same rfl (fun _ => rfl) (fun _ ht => ht) rfl rfl rfl (by simp)
  | streamStart x => exact .ok (h.same rfl (fun _ => rfl) (fun _ ht => ht) rfl rfl h.keepalive (by simp))
  | streamStop => exact .ok (h.same rfl (fun _ => rfl) (fun _ ht => ht) rfl rfl h.keepalive (by simp))
  | streamCommit x endLsn =>
    refine checked_returns (h.keepalive ▸ hlsn _ rfl) ?_
    exact h.ended (some x) (some endLsn) rfl (fun r => rfl) rfl rfl rfl
  | streamAbort x subXactId =>
    have hsame : subXactId = x := hplain
    subst hsame
    refine .ok ?_
    have hreceive : ∀ r : Replica Row, r.receive (.table (.streamAbort subXactId false false)) =
        { r with
          pending := Function.update r.pending (some subXactId) []
          committed := r.committed ++
            (none : Option Nat).toList.map fun lsn => (lsn, r.pending (some subXactId)) } :=
      fun r => by simp [Replica.receive]
    have hended := h.ended (some subXactId) none (rfl : UncachedTransaction.default.touchedTables = [])
      hreceive rfl rfl (rfl : p.maxKeepaliveLsnSeen = _)
    refine (congrArg (Inv _ _ _) ?_).mp hended
    funext t c
    simp [TableView.ended, TableView.next, TableView.abort, CdcEvent.row?]

theorem Inv.next (h : Inv u p sent view) {i : SinkInput Row} (haccepts : p.Accepts i) (hplain : p.Plain i) :
    Returns (u.next i) fun o => Inv o.1 (p.next i) (sent ++ o.2.1)
      (fun t c => (view t c).next t c p i) := by
  cases i with
  | addTable t c columns =>
    refine .ok ?_
    rw [List.append_nil]
    exact h.addTable columns haccepts.1 haccepts.2
  | dropTable t =>
    refine .bind (P := fun _ => True) ⟨(), ?_, trivial⟩ fun _ _ => .pure ?_
    · rw [h.senders]
      exact if_pos haccepts
    · rw [List.append_nil]
      exact h.dropTable t
  | alterTable t columns =>
    obtain ⟨oldColumns, hold⟩ := Option.isSome_iff_exists.mp (h.known t haccepts)
    simp only [UncachedSink.next, hold]
    refine .ok (h.same rfl (fun _ => rfl) (fun t' ht' => ?_) rfl rfl h.keepalive fun q hq => ?_)
    · rw [AssocMap.lookup_insert_ite]
      split
      · rfl
      · exact ht'
    · rw [h.senders] at hq
      cases hlook : p.eventSenders.lookup t with
      | none =>
        rw [hlook] at hq
        cases hq
      | some c =>
        rw [hlook] at hq
        cases List.mem_singleton.mp hq
        exact ⟨⟨t, hlook⟩, fun _ => rfl⟩
  | event e => exact h.processCdcEvent haccepts hplain

end UncachedSink
/-! ## Runs -/

namespace SinkRun

variable {f : SinkRun Row}

/-- The stream follows the protocol, and has no sub-transactions. -/
def Permitted (f : SinkRun Row) (i : SinkInput Row) : Prop := f.source.Accepts i ∧ f.source.Plain i

structure Inv (f : SinkRun Row) : Prop where
  caches : f.sink.CacheInv
  uncached : f.sink.uncached.Inv f.source f.sent f.view

theorem Inv.new : Inv (new : SinkRun Row) where
  caches := .new
  uncached :=
    { senders := rfl
      keepalive := rfl
      known := nofun
      added := nofun
      channels := List.nodup_nil
      used := nofun
      nodup := fun x => by cases x <;> exact List.nodup_nil
      view := fun _ _ =>
        { touched := fun x => by cases x <;> exact ⟨nofun, nofun⟩
          untouched := fun _ _ => rfl
          fresh := fun _ => ⟨rfl, rfl, fun _ => rfl⟩
          added := nofun
          registered := nofun } }

theorem Inv.addsNew (h : f.Inv) {i : SinkInput Row} (hi : f.source.Accepts i) :
    Sink.AddsNew f.sink.eventSenders i := by
  have hsenders : f.sink.eventSenders = f.source.eventSenders := h.uncached.senders
  cases i with
  | addTable t c columns => exact hsenders ▸ hi.1
  | _ => trivial

theorem Inv.next (h : f.Inv) {i : SinkInput Row} (hi : f.Permitted i) : Returns (f.next i) Inv := by
  obtain ⟨heq, hcaches⟩ := h.caches.next (h.addsNew hi.1)
  obtain ⟨⟨u, sent, request⟩, hnext, huncached⟩ := h.uncached.next hi.1 hi.2
  rw [hnext] at heq
  unfold SinkRun.next
  cases hsink : f.sink.next i with
  | error p =>
    rw [hsink] at heq
    cases heq
  | ok o =>
    obtain ⟨sink, sent', request'⟩ := o
    rw [hsink] at heq
    cases heq
    exact .pure ⟨hcaches _ hsink, huncached⟩

/-- Every handler gets the rows of its table in order and understands from the events on its channel
which transactions committed and what they did, and what is pending. Nothing is sent elsewhere, and
the caches change nothing. -/
theorem fan_out_exact {inputs : List (SinkInput Row)}
    (hpermitted : RunMeets (fun f i => (SinkRun.next f i).toOption) Permitted new inputs) :
    Returns ((new : SinkRun Row).run inputs) fun f =>
      (∀ t c, (t, c) ∈ f.source.added → (replica f.sent c).received = (f.view t c).received ∧
        (replica f.sent c).committed = (f.view t c).committed) ∧
      (∀ t c, f.source.eventSenders.lookup t = some c →
        ∀ x, (replica f.sent c).pending x = ((f.view t c).pending x).changes.map Prod.snd) ∧
      (∀ q ∈ f.sent, q.1 ∈ f.source.added.map Prod.snd) ∧
      ∀ i : SinkInput Row, Sink.AddsNew f.sink.eventSenders i →
        f.sink.uncached.next i = (f.sink.next i).map fun o => (o.1.uncached, o.2) := by
  have hinv : Returns ((new : SinkRun Row).run inputs) Inv :=
    RunMeets.returns (fun _ _ h hi => Inv.next h hi) hpermitted Inv.new
  exact hinv.mono fun f hf => ⟨fun t c hmem => (hf.uncached.view t c).added hmem,
      fun t c hlook => ((hf.uncached.view t c).registered hlook).pending,
      hf.uncached.used, fun _ hi => (hf.caches.next hi).eq⟩

instance (p : PgOutput) (e : CdcEvent Row) : Decidable (p.Follows e) := by
  cases e with
  | streamStop =>
    exact decidable_of_iff (p.current.bind id).isSome (by
      unfold PgOutput.Follows
      rcases p.current with _ | _ | x <;> simp)
  | _ => unfold PgOutput.Follows; infer_instance

instance (p : PgOutput) (i : SinkInput Row) : Decidable (p.Accepts i) := by
  cases i <;> unfold PgOutput.Accepts <;> infer_instance

instance (p : PgOutput) (i : SinkInput Row) : Decidable (p.Plain i) := by
  cases i with
  | event e => cases e <;> unfold PgOutput.Plain <;> infer_instance
  | _ => unfold PgOutput.Plain; infer_instance

instance (f : SinkRun Row) (i : SinkInput Row) : Decidable (f.Permitted i) :=
  inferInstanceAs (Decidable (_ ∧ _))

/-- Two streams and a transaction, between which a table is dropped and added again. -/
def plainInputs : List (SinkInput Nat) :=
  [.addTable 1 7 [], .addTable 2 8 [], .event (.streamStart 5), .event (.insert 1 10 (some 5)),
    .event .streamStop, .event (.streamStart 6), .event (.insert 2 11 (some 6)), .event .streamStop,
    .event (.begin 90), .event (.update 1 (some 3) 4 none), .event (.commit 100),
    .event (.streamAbort 6 6), .dropTable 2, .addTable 2 9 [], .event (.streamCommit 5 110)]

theorem fan_out_exact_plainInputs :
    Returns ((new : SinkRun Nat).run plainInputs) fun f =>
      (replica f.sent 7).committed = [(100, [.delete 3, .append 4]), (110, [.append 10])] ∧
        (replica f.sent 7).committed = (f.view 1 7).committed := by
  have hpermitted : RunMeets (fun f i => (SinkRun.next f i).toOption) Permitted new plainInputs := by
    decide +kernel
  have hruns : Returns ((new : SinkRun Nat).run plainInputs) fun f => (1, 7) ∈ f.source.added ∧
      (replica f.sent 7).committed = [(100, [.delete 3, .append 4]), (110, [.append 10])] := by
    decide +kernel
  obtain ⟨f, hrun, hadded, hcommitted⟩ := hruns
  obtain ⟨f', hrun', hexact, -⟩ := fan_out_exact hpermitted
  cases hrun.symm.trans hrun'
  exact ⟨f, hrun, hcommitted, (hexact 1 7 hadded).2⟩

/-- A row of a sub-transaction is never committed; and the abort of a sub-transaction discards the
whole transaction, which is then not committed either. -/
theorem subtransactions_lost :
    Returns ((new : SinkRun Nat).run [.addTable 1 7 [], .event (.streamStart 5), .event (.insert 1 10 (some 5)),
        .event (.insert 1 11 (some 6)), .event .streamStop, .event (.streamCommit 5 100)])
      (fun f => (replica f.sent 7).committed = [(100, [.append 10])] ∧
        (f.view 1 7).committed = [(100, [.append 10, .append 11])]) ∧
    Returns ((new : SinkRun Nat).run [.addTable 1 7 [], .event (.streamStart 5), .event (.insert 1 10 (some 5)),
        .event (.insert 1 11 (some 6)), .event .streamStop, .event (.streamAbort 5 6),
        .event (.streamCommit 5 100)])
      (fun f => (replica f.sent 7).committed = [] ∧ (f.view 1 7).committed = [(100, [.append 10])]) := by
  decide +kernel

end SinkRun
end Moonlink.FanOut
