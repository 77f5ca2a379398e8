-- SUMMARY: Streams stay in protocol step as long as no provider gives one up in the middle of an exchange or a scan.
import Moonlink.Query.ConnectionPool

namespace Moonlink.Query

open Lib

variable {Uri Table : Type}

namespace Request

/-- The scan that is open when the request is sent. -/
def before : Request Table → Option Table
  | getTableSchema _ => none
  | scanTableBegin _ _ => none
  | scanTableEnd table => some table

/-- The scan that is open after the response. -/
def after : Request Table → Bool → Option Table
  | getTableSchema _, _ => none
  | scanTableBegin table _, ok => if ok then some table else none
  | scanTableEnd _, _ => none

end Request

/-! ## Streams -/

namespace Stream

/-- The server has the scan, unless the connection is closed. -/
inductive HasScan (s : Stream Uri Table) : Option Table → Prop where
  | noScan (hserver : s.server = .reading) (hmap : s.map = []) : HasScan s none
  | inserting (table : Table) (hserver : s.server = .inserting table) (hmap : s.map = []) : HasScan s (some table)
  | inserted (table : Table) (hserver : s.server = .reading) (hmap : s.map = [table]) : HasScan s (some table)
  | closed (scan : Option Table) (hserver : s.server = .closed) (hmap : s.map = []) : HasScan s scan

/-- Nothing is under way. -/
structure Quiet (s : Stream Uri Table) (scan : Option Table) : Prop where
  requests : s.requests = []
  responses : s.responses = []
  garbled : s.garbled = false
  hasScan : s.HasScan scan

/-- A message is under way, or its response, or neither on a connection that is closed. -/
inductive Asked (s : Stream Uri Table) (m : Message Table) : Prop where
  | sent (hrequests : s.requests = [m]) (hresponses : s.responses = []) (hgarbled : s.garbled = false)
      (hscan : s.HasScan m.request.before) (hopen : s.isOpen = true)
  | answered (ok : Bool) (hrequests : s.requests = []) (hresponses : s.responses = [⟨m, ok⟩])
      (hgarbled : s.garbled = false) (hscan : s.HasScan (m.request.after ok))
  | lost (hrequests : s.requests = []) (hresponses : s.responses = []) (hgarbled : s.garbled = false)
      (hserver : s.server = .closed) (hmap : s.map = [])

theorem quiet_connect (uri : Uri) : (Stream.connect uri : Stream Uri Table).Quiet none :=
  ⟨rfl, rfl, rfl, .noScan rfl rfl⟩

variable {scan : Option Table} {s s' : Stream Uri Table}

/-- Only the server matters. -/
theorem HasScan.congr (h : s.HasScan scan)
    (hserver : s'.server = s.server) (hmap : s'.map = s.map) : s'.HasScan scan := by
  cases h with
  | noScan hs hm => exact .noScan (hserver.trans hs) (hmap.trans hm)
  | inserting table hs hm => exact .inserting table (hserver.trans hs) (hmap.trans hm)
  | inserted table hs hm => exact .inserted table (hserver.trans hs) (hmap.trans hm)
  | closed _ hs hm => exact .closed _ (hserver.trans hs) (hmap.trans hm)

variable {s : Stream Uri Table}

theorem HasScan.closed_of_not_open (h : s.HasScan scan)
    (hopen : s.isOpen = false) : s.server = .closed ∧ s.map = [] := by
  cases h with
  | noScan hserver _ | inserting _ hserver _ | inserted _ hserver _ =>
    rw [isOpen, hserver] at hopen
    cases hopen
  | closed _ hserver hmap => exact ⟨hserver, hmap⟩

theorem HasScan.not_panicked (h : s.HasScan scan) :
    s.server ≠ .panicked := by
  cases h <;> simp_all

variable {m : Message Table}

theorem Asked.not_panicked (h : s.Asked m) : s.server ≠ .panicked := by
  cases h with
  | sent _ _ _ hscan _ => exact hscan.not_panicked
  | answered _ _ _ _ hscan => exact hscan.not_panicked
  | lost _ _ _ hserver => simp_all

/-- What is left of an exchange on a closed connection. -/
theorem Asked.quiet_of_closed (h : s.Asked m) (hclosed : s.isOpen = false)
    (hread : s.responses = []) : s.Quiet none := by
  cases h with
  | sent _ _ _ _ hopen =>
    rw [hclosed] at hopen
    cases hopen
  | answered _ _ hresponses _ _ =>
    rw [hread] at hresponses
    cases hresponses
  | lost hrequests hresponses hgarbled hserver hmap =>
    exact ⟨hrequests, hresponses, hgarbled, .closed _ hserver hmap⟩

theorem Quiet.write (h : s.Quiet m.request.before) :
    (s.write m).Asked m := by
  obtain ⟨hrequests, hresponses, hgarbled, hscan⟩ := h
  unfold Stream.write
  split
  case isTrue hopen =>
    have hsent : s.requests ++ [m] = [m] := by rw [hrequests]; rfl
    exact .sent hsent hresponses hgarbled (hscan.congr rfl rfl) (Bool.and_eq_true_iff.mp hopen).1
  case isFalse hclosed =>
    rw [hgarbled, Bool.not_false, Bool.and_true] at hclosed
    obtain ⟨hserver, hmap⟩ := hscan.closed_of_not_open (Bool.eq_false_iff.mpr hclosed)
    exact .lost hrequests hresponses hgarbled hserver hmap

/-- The response that is read is the one to the message that was sent. -/
theorem Asked.read {response : Response Table} {rest : List (Response Table)}
    (h : s.Asked m) (hread : s.responses = response :: rest) :
    response.message = m ∧ ({ s with responses := rest } : Stream Uri Table).Quiet (m.request.after response.ok) := by
  cases h with
  | sent _ hresponses _ _ _ | lost _ hresponses _ _ _ =>
    rw [hresponses] at hread
    cases hread
  | answered ok hrequests hresponses hgarbled hscan =>
    rw [hresponses] at hread
    cases hread
    exact ⟨rfl, hrequests, rfl, hgarbled, hscan.congr rfl rfl⟩

theorem Quiet.of_closed (h : s.Quiet scan) (hclosed : s.isOpen = false) :
    s.Quiet none :=
  have ⟨hserver, hmap⟩ := h.hasScan.closed_of_not_open hclosed
  ⟨h.requests, h.responses, h.garbled, .closed _ hserver hmap⟩

variable [DecidableEq Table]

/-- The map is updated with the scan that was begun. -/
theorem HasScan.serve_insert (h : s.HasScan scan)
    (hserve : s.serve .insert = some s') : s'.HasScan scan ∧ s'.requests = s.requests ∧
      s'.responses = s.responses ∧ s'.garbled = s.garbled ∧ s'.isOpen = true := by
  cases h with
  | inserting table hserver hmap =>
    simp only [serve, hserver, hmap, List.not_mem_nil, if_false] at hserve
    cases hserve
    exact ⟨.inserted table rfl rfl, rfl, rfl, rfl, rfl⟩
  | noScan hserver _ | inserted _ hserver _ | closed _ hserver _ =>
    simp only [serve, hserver] at hserve
    cases hserve

theorem serve_close (hserve : s.serve .close = some s') :
    s' = { s with requests := [], server := .closed, map := [] } := by
  rw [serve] at hserve
  split at hserve
  · cases hserve
    rfl
  · cases hserve

theorem serve_handle {ok : Bool} (hserve : s.serve (.handle ok) = some s') :
    s.server = .reading ∧ ∃ m rest, s.requests = m :: rest ∧ s' = { s with requests := rest }.handle m ok := by
  rw [serve] at hserve
  split at hserve
  case h_1 m rest hserver hrequests =>
    cases hserve
    exact ⟨hserver, m, rest, hrequests, rfl⟩
  case h_2 => cases hserve

theorem Quiet.serve {step : ServerStep} (h : s.Quiet scan)
    (hserve : s.serve step = some s') : s'.Quiet scan := by
  cases step with
  | handle ok =>
    obtain ⟨-, m, rest, hrequests, -⟩ := serve_handle hserve
    rw [h.requests] at hrequests
    cases hrequests
  | insert =>
    obtain ⟨hscan, hrequests, hresponses, hgarbled, -⟩ := h.hasScan.serve_insert hserve
    exact ⟨hrequests.trans h.requests, hresponses.trans h.responses, hgarbled.trans h.garbled, hscan⟩
  | close =>
    rw [serve_close hserve]
    exact ⟨rfl, h.responses, h.garbled, .closed scan rfl rfl⟩

/-- The only request under way is answered, and its scan begins or ends. -/
theorem Asked.handle (ok : Bool) (hrequests : s.requests = [])
    (hresponses : s.responses = []) (hgarbled : s.garbled = false) (hserver : s.server = .reading)
    (hscan : s.HasScan m.request.before) : (s.handle m ok).Asked m := by
  have hanswer : ∀ ok, (s.respond m ok).responses = [⟨m, ok⟩] := fun ok => by rw [respond, hresponses]; rfl
  obtain ⟨provider, request⟩ := m
  cases request with
  | getTableSchema table =>
    cases hscan with
    | noScan _ hmap => exact .answered ok hrequests (hanswer ok) hgarbled (.noScan hserver hmap)
    | closed _ hclosed _ => exact absurd (hserver.symm.trans hclosed) nofun
  | scanTableBegin table lsn =>
    cases hscan with
    | noScan _ hmap =>
      cases ok with
      | true => exact .answered true hrequests (hanswer true) hgarbled (.inserting table rfl hmap)
      | false => exact .answered false hrequests (hanswer false) hgarbled (.noScan hserver hmap)
    | closed _ hclosed _ => exact absurd (hserver.symm.trans hclosed) nofun
  | scanTableEnd table =>
    cases hscan with
    | inserting _ hinserting _ => exact absurd (hserver.symm.trans hinserting) nofun
    | inserted _ _ hmap =>
      have hmem : table ∈ s.map := by rw [hmap]; exact List.mem_singleton_self table
      rw [Stream.handle]
      simp only [if_pos hmem]
      refine .answered true hrequests (hanswer true) hgarbled (.noScan hserver ?_)
      rw [hmap]
      exact List.erase_cons_head (a := table) (l := [])
    | closed _ hclosed _ => exact absurd (hserver.symm.trans hclosed) nofun

theorem Asked.serve {step : ServerStep} (h : s.Asked m)
    (hserve : s.serve step = some s') : s'.Asked m := by
  cases step with
  | handle ok =>
    obtain ⟨hserver, m', rest, hm, rfl⟩ := serve_handle hserve
    cases h with
    | sent hrequests hresponses hgarbled hscan _ =>
      rw [hrequests] at hm
      cases hm
      exact Asked.handle ok rfl hresponses hgarbled hserver (hscan.congr rfl rfl)
    | answered _ hrequests _ _ _ =>
      rw [hrequests] at hm
      cases hm
    | lost hrequests _ _ _ _ =>
      rw [hrequests] at hm
      cases hm
  | insert =>
    cases h with
    | sent hrequests hresponses hgarbled hscan _ =>
      obtain ⟨hscan', hrequests', hresponses', hgarbled', hopen⟩ := hscan.serve_insert hserve
      exact .sent (hrequests'.trans hrequests) (hresponses'.trans hresponses) (hgarbled'.trans hgarbled) hscan' hopen
    | answered ok hrequests hresponses hgarbled hscan =>
      obtain ⟨hscan', hrequests', hresponses', hgarbled', -⟩ := hscan.serve_insert hserve
      exact .answered ok (hrequests'.trans hrequests) (hresponses'.trans hresponses)
        (hgarbled'.trans hgarbled) hscan'
    | lost _ _ _ hserver _ =>
      simp only [Stream.serve, hserver] at hserve
      cases hserve
  | close =>
    rw [serve_close hserve]
    cases h with
    | sent _ hresponses hgarbled _ _ => exact .lost rfl hresponses hgarbled rfl rfl
    | answered ok _ hresponses hgarbled _ => exact .answered ok rfl hresponses hgarbled (.closed _ rfl rfl)
    | lost _ hresponses hgarbled _ _ => exact .lost rfl hresponses hgarbled rfl rfl

end Stream

/-! ## The system -/

/-- What a stream holds where its provider awaits. -/
def Pc.InStep (pc : Pc) (i : Nat) (table : Table) (lsn : Nat) (stream : Stream Uri Table) : Prop :=
  match pc with
  | schemaRequest | beginRequest => stream.Quiet none
  | schemaResponse => stream.Asked ⟨i, .getTableSchema table⟩
  | beginResponse => stream.Asked ⟨i, .scanTableBegin table lsn⟩
  | scanning | endRequest => stream.Quiet (some table)
  | endResponse => stream.Asked ⟨i, .scanTableEnd table⟩

theorem Pc.InStep.not_panicked {pc : Pc} {i : Nat} {table : Table} {lsn : Nat} {s : Stream Uri Table}
    (h : pc.InStep i table lsn s) : s.server ≠ .panicked := by
  cases pc with
  | schemaRequest | beginRequest | scanning | endRequest => exact (Stream.Quiet.hasScan h).not_panicked
  | schemaResponse | beginResponse | endResponse => exact Stream.Asked.not_panicked h

theorem Pc.InStep.serve [DecidableEq Table] {pc : Pc} {i : Nat} {table : Table} {lsn : Nat} {s s' : Stream Uri Table} {step : ServerStep}
    (h : pc.InStep i table lsn s) (hserve : s.serve step = some s') : pc.InStep i table lsn s' := by
  cases pc with
  | schemaRequest | beginRequest | scanning | endRequest => exact Stream.Quiet.serve h hserve
  | schemaResponse | beginResponse | endResponse => exact Stream.Asked.serve h hserve

namespace QuerySystem

structure InStep (sys : QuerySystem Uri Table) : Prop where
  pool : ∀ uri, ∀ s ∈ sys.pool uri, s.Quiet none
  returning : ∀ s ∈ sys.returning, s.Quiet none
  dropped : ∀ s ∈ sys.dropped, s.Quiet none
  providers : ∀ i pc table lsn stream, sys.providers i = .running pc table lsn stream → pc.InStep i table lsn stream
  reads : ∀ r ∈ sys.reads, r.2.message = r.1

theorem inStep_init (maxEntriesPerUri : Nat) : (init maxEntriesPerUri : QuerySystem Uri Table).InStep :=
  ⟨fun _ => nofun, nofun, nofun, nofun, nofun⟩

variable {sys sys' : QuerySystem Uri Table}

@[simp] theorem setProvider_self (i : Nat) (p : Provider Uri Table) : (sys.setProvider i p).providers i = p :=
  Function.update_self ..

theorem setProvider_of_ne {i j : Nat} (p : Provider Uri Table) (h : j ≠ i) :
    (sys.setProvider i p).providers j = sys.providers j :=
  Function.update_of_ne h ..

variable {stream : Stream Uri Table}

theorem InStep.setProvider (h : sys.InStep) {i : Nat} {pc : Pc} {table : Table} {lsn : Nat}
    (hstream : pc.InStep i table lsn stream) : (sys.setProvider i (.running pc table lsn stream)).InStep := by
  refine ⟨h.pool, h.returning, h.dropped, ?_, h.reads⟩
  intro j pc' table' lsn' stream' hrunning
  by_cases heq : j = i
  · subst heq
    rw [setProvider_self] at hrunning
    cases hrunning
    exact hstream
  · rw [setProvider_of_ne _ heq] at hrunning
    exact h.providers j _ _ _ _ hrunning

theorem InStep.release (h : sys.InStep) (i : Nat) (hstream : stream.Quiet none) :
    (sys.release i stream).InStep := by
  refine ⟨h.pool, ?_, h.dropped, ?_, h.reads⟩
  · intro s hs
    rcases List.mem_append.mp hs with hs | hs
    · exact h.returning s hs
    · rw [List.mem_singleton.mp hs]
      exact hstream
  · intro j pc table lsn stream' hrunning
    by_cases heq : j = i
    · subst heq
      cases (setProvider_self j .finished).symm.trans hrunning
    · exact h.providers j _ _ _ _ ((setProvider_of_ne .finished heq).symm.trans hrunning)

theorem InStep.read (h : sys.InStep) {m : Message Table} {response : Response Table} (hm : response.message = m) :
    ({ sys with reads := sys.reads ++ [(m, response)] }).InStep := by
  refine ⟨h.pool, h.returning, h.dropped, h.providers, fun r hr => ?_⟩
  rcases List.mem_append.mp hr with hr | hr
  · exact h.reads r hr
  · rw [List.mem_singleton.mp hr]
    exact hm

/-- Every stream in the pool has nothing under way and no scan, every response was read by the provider that asked
for it, and no assertion of a server has failed. -/
structure InProtocol (sys : QuerySystem Uri Table) : Prop where
  pool : ∀ uri, ∀ s ∈ sys.pool uri, s.requests = [] ∧ s.responses = [] ∧ s.garbled = false ∧ s.map = [] ∧
    ∀ table, s.server ≠ .inserting table
  reads : ∀ r ∈ sys.reads, r.2.message = r.1
  server : ∀ place s, sys.stream? place = some s → s.server ≠ .panicked

theorem InStep.inProtocol (h : sys.InStep) : sys.InProtocol := by
  refine ⟨fun uri s hs => ?_, h.reads, fun place s hs => ?_⟩
  · obtain ⟨hrequests, hresponses, hgarbled, hscan⟩ := h.pool uri s hs
    refine ⟨hrequests, hresponses, hgarbled, ?_⟩
    cases hscan with
    | noScan hserver hmap =>
      refine ⟨hmap, fun table => ?_⟩
      rw [hserver]
      exact nofun
    | closed _ hserver hmap =>
      refine ⟨hmap, fun table => ?_⟩
      rw [hserver]
      exact nofun
  · cases place with
    | pooled uri n => exact (h.pool uri s (List.mem_of_getElem? hs)).hasScan.not_panicked
    | returning n => exact (h.returning s (List.mem_of_getElem? hs)).hasScan.not_panicked
    | dropped n => exact (h.dropped s (List.mem_of_getElem? hs)).hasScan.not_panicked
    | held i =>
      rw [stream?] at hs
      split at hs
      case h_1 pc table lsn stream hrunning =>
        cases hs
        exact (h.providers i pc table lsn s hrunning).not_panicked
      case h_2 => cases hs

/-- A response is read, and is the right one. -/
theorem InStep.readResponse (h : sys.InStep) {i : Nat} {pc : Pc} {table : Table} {lsn : Nat}
    {decoded : Bool} (hstream : pc.InStep i table lsn stream)
    (hdecoded : pc = .beginResponse → (!stream.responses.head?.any (·.ok) || decoded) = true)
    (hnext : sys.readResponse i pc table lsn stream decoded = some sys') : sys'.InStep := by
  unfold QuerySystem.readResponse at hnext
  cases hresponses : stream.responses with
  | nil =>
    rw [hresponses] at hnext
    cases pc <;> cases hnext
  | cons response rest =>
    rw [hresponses] at hnext hdecoded
    cases pc with
    | schemaRequest | beginRequest | scanning | endRequest => cases hnext
    | schemaResponse =>
      obtain ⟨hm, hquiet⟩ := Stream.Asked.read hstream hresponses
      cases hnext
      split
      · exact (h.read hm).setProvider hquiet
      · exact (h.read hm).release i hquiet
    | beginResponse =>
      obtain ⟨hm, hquiet⟩ := Stream.Asked.read hstream hresponses
      cases hnext
      split
      case isTrue hok =>
        rw [(Bool.and_eq_true_iff.mp hok).1] at hquiet
        exact (h.read hm).setProvider hquiet
      case isFalse hnot =>
        have hok : response.ok = false := by
          by_contra hok
          rw [Bool.not_eq_false] at hok
          have hboth := hdecoded rfl
          rw [List.head?_cons, Option.any_some, hok, Bool.not_true, Bool.false_or] at hboth
          exact hnot (by rw [hok, hboth]; rfl)
        rw [hok] at hquiet
        exact (h.read hm).release i hquiet
    | endResponse =>
      obtain ⟨hm, hquiet⟩ := Stream.Asked.read hstream hresponses
      cases hnext
      exact (h.read hm).release i hquiet

variable [DecidableEq Uri]

/-- The pool of one address changes, and gives some streams up. -/
theorem InStep.setPool (h : sys.InStep) (uri : Uri) {kept given : List (Stream Uri Table)}
    (hkept : ∀ s ∈ kept, s.Quiet none) (hgiven : ∀ s ∈ given, s ∈ sys.pool uri) :
    ({ sys with pool := Function.update sys.pool uri kept, dropped := sys.dropped ++ given }).InStep := by
  refine ⟨?_, h.returning, ?_, h.providers, h.reads⟩
  · intro uri' s hs
    by_cases heq : uri' = uri
    · subst heq
      dsimp only at hs
      rw [Function.update_self] at hs
      exact hkept s hs
    · dsimp only at hs
      rw [Function.update_of_ne heq] at hs
      exact h.pool uri' s hs
  · intro s hs
    rcases List.mem_append.mp hs with hs | hs
    · exact h.dropped s hs
    · exact h.pool uri s (hgiven s hs)

theorem InStep.getStream (h : sys.InStep) (uri : Uri) (expired : Nat) :
    (sys.getStream uri expired).1.Quiet none ∧ (sys.getStream uri expired).2.InStep := by
  have htake : ∀ s ∈ (sys.pool uri).take expired, s ∈ sys.pool uri := fun s => List.mem_of_mem_take
  have hdrop : ∀ s ∈ (sys.pool uri).drop expired, s.Quiet none := fun s hs => h.pool uri s (List.mem_of_mem_drop hs)
  unfold QuerySystem.getStream
  dsimp only
  cases heq : (sys.pool uri).drop expired with
  | nil => exact ⟨Stream.quiet_connect uri, h.setPool uri nofun htake⟩
  | cons stream rest =>
    rw [heq] at hdrop
    exact ⟨hdrop stream List.mem_cons_self,
      h.setPool uri (fun s hs => hdrop s (List.mem_cons_of_mem _ hs)) htake⟩

theorem InStep.putBack (h : sys.InStep) {n : Nat} (hn : sys.returning[n]? = some stream) :
    (sys.putBack n stream).InStep := by
  have hstream := h.returning stream (List.mem_of_getElem? hn)
  have hpool : ({ sys with returning := sys.returning.eraseIdx n }).InStep :=
    ⟨h.pool, fun s hs => h.returning s (List.mem_of_mem_eraseIdx hs), h.dropped, h.providers, h.reads⟩
  refine hpool.setPool stream.uri ?_ fun s => List.mem_of_mem_take
  intro s hs
  rcases List.mem_append.mp hs with hs | hs
  · exact h.pool stream.uri s (List.mem_of_mem_drop hs)
  · rw [List.mem_singleton.mp hs]
    exact hstream

variable [DecidableEq Table]

theorem InStep.setStream (h : sys.InStep) {place : Place Uri} {s s' : Stream Uri Table} {step : ServerStep}
    (hs : sys.stream? place = some s) (hserve : s.serve step = some s') : (sys.setStream place s').InStep := by
  have hset : ∀ {ss : List (Stream Uri Table)} {n : Nat}, (∀ s ∈ ss, s.Quiet none) → ss[n]? = some s →
      ∀ s ∈ ss.set n s', s.Quiet none := by
    intro ss n hss hn t ht
    rcases List.mem_or_eq_of_mem_set ht with ht | rfl
    · exact hss t ht
    · exact (hss s (List.mem_of_getElem? hn)).serve hserve
  cases place with
  | pooled uri n =>
    refine ⟨fun uri' t ht => ?_, h.returning, h.dropped, h.providers, h.reads⟩
    rw [QuerySystem.setStream] at ht
    dsimp only at ht
    by_cases heq : uri' = uri
    · subst heq
      rw [Function.update_self] at ht
      exact hset (h.pool uri') hs t ht
    · rw [Function.update_of_ne heq] at ht
      exact h.pool uri' t ht
  | returning n => exact ⟨h.pool, hset h.returning hs, h.dropped, h.providers, h.reads⟩
  | dropped n => exact ⟨h.pool, h.returning, hset h.dropped hs, h.providers, h.reads⟩
  | held i =>
    rw [stream?] at hs
    split at hs
    case h_1 pc table lsn stream hrunning =>
      cases hs
      rw [QuerySystem.setStream]
      simp only [hrunning]
      exact h.setProvider ((h.providers i _ _ _ _ hrunning).serve hserve)
    case h_2 => cases hs

/-- No stream is given up in the middle of an exchange, or with a scan that has begun. -/
def completes (sys : QuerySystem Uri Table) : QueryStep Uri Table → Bool
  | .read i decoded =>
    match sys.providers i with
    | .running .beginResponse _ _ stream => !stream.responses.head?.any (·.ok) || decoded
    | _ => true
  | .cancel i =>
    match sys.providers i with
    | .running pc _ _ _ => pc == .schemaRequest || pc == .beginRequest
    | _ => true
  | .cancelWrite _ => false
  | _ => true

theorem InStep.next (h : sys.InStep) {step : QueryStep Uri Table} (hcompletes : sys.completes step = true)
    (hnext : sys.next step = some sys') : sys'.InStep := by
  cases step with
  | tryNew i uri table lsn expired =>
    obtain ⟨hstream, hsys⟩ := h.getStream uri expired
    rw [QuerySystem.next] at hnext
    split at hnext
    case h_1 =>
      cases hnext
      exact hsys.setProvider hstream
    case h_2 => cases hnext
  | write i =>
    rw [QuerySystem.next] at hnext
    split at hnext
    case h_2 => cases hnext
    case h_1 pc table lsn stream hrunning =>
      have hstream := h.providers i pc table lsn stream hrunning
      cases pc with
      | schemaRequest | beginRequest | endRequest =>
        cases hnext
        exact h.setProvider (Stream.Quiet.write hstream)
      | schemaResponse | beginResponse | scanning | endResponse => cases hnext
  | read i decoded =>
    rw [QuerySystem.next] at hnext
    split at hnext
    case h_2 => cases hnext
    case h_1 pc table lsn stream hrunning =>
      refine h.readResponse (h.providers i pc table lsn stream hrunning) ?_ hnext
      rintro rfl
      simpa only [completes, hrunning] using hcompletes
  | broken i =>
    rw [QuerySystem.next] at hnext
    split at hnext
    case h_2 => cases hnext
    case h_1 pc table lsn stream hrunning =>
      have hstream := h.providers i pc table lsn stream hrunning
      split at hnext
      case isFalse => cases hnext
      case isTrue hbroken =>
        obtain ⟨hpc, hclosed, hread⟩ := hbroken
        cases hnext
        refine h.release i ?_
        cases pc with
        | scanning => exact absurd rfl hpc
        | schemaRequest | beginRequest | endRequest => exact Stream.Quiet.of_closed hstream hclosed
        | schemaResponse | beginResponse | endResponse =>
          exact Stream.Asked.quiet_of_closed hstream hclosed (hread.resolve_left nofun)
  | cancel i =>
    rw [QuerySystem.next] at hnext
    split at hnext
    case h_2 => cases hnext
    case h_1 pc table lsn stream hrunning =>
      have hstream := h.providers i pc table lsn stream hrunning
      split at hnext
      case isFalse => cases hnext
      case isTrue =>
        cases hnext
        simp only [completes, hrunning, Bool.or_eq_true, beq_iff_eq] at hcompletes
        rcases hcompletes with rfl | rfl
        · exact h.release i hstream
        · exact h.release i hstream
  | cancelWrite i => cases hcompletes
  | dropScan i =>
    rw [QuerySystem.next] at hnext
    split at hnext
    case h_2 => cases hnext
    case h_1 table lsn stream hrunning =>
      cases hnext
      exact h.setProvider (h.providers i .scanning table lsn stream hrunning)
  | putBack n =>
    obtain ⟨stream, hn, heq⟩ := Option.bind_eq_some_iff.mp hnext
    cases heq
    exact h.putBack hn
  | server place step =>
    obtain ⟨stream, hplace, hrest⟩ := Option.bind_eq_some_iff.mp hnext
    obtain ⟨stream', hserve, heq⟩ := Option.bind_eq_some_iff.mp hrest
    cases heq
    exact h.setStream hplace hserve

def run (sys : QuerySystem Uri Table) (steps : List (QueryStep Uri Table)) : Option (QuerySystem Uri Table) :=
  steps.foldlM next sys

/-- Streams stay in protocol step in every run in which no exchange and no scan that has begun is given up. -/
theorem inProtocol_of_completes (maxEntriesPerUri : Nat) {steps : List (QueryStep Uri Table)}
    (hcompletes : RunMeets next (fun sys step => sys.completes step = true) (init maxEntriesPerUri) steps)
    (hrun : (init maxEntriesPerUri).run steps = some sys) : sys.InProtocol :=
  InStep.inProtocol (RunMeets.invariant (fun _ _ _ h hc hn => h.next hc hn) hcompletes hrun
    (inStep_init maxEntriesPerUri))

/-- A provider goes through a whole scan, and the next takes its stream. -/
def scanSteps (i : Nat) : List (QueryStep Unit Nat) :=
  [.tryNew i () 7 0 0, .write i, .server (.held i) (.handle true), .read i true, .write i,
    .server (.held i) (.handle true), .read i true, .server (.held i) .insert, .dropScan i, .write i,
    .server (.held i) (.handle true), .read i true, .putBack 0]

theorem inProtocol_of_completes_scanSteps :
    ∃ sys, (init 30).run (scanSteps 0 ++ scanSteps 1) = some sys ∧ (sys.pool ()).length = 1 ∧ sys.reads.length = 6 ∧
      sys.InProtocol := by
  refine ⟨_, rfl, rfl, rfl, ?_⟩
  have hcompletes : RunMeets next (fun sys step => sys.completes step = true) (init 30)
      (scanSteps 0 ++ scanSteps 1) := by decide +kernel
  exact inProtocol_of_completes 30 hcompletes rfl

/-- A provider is cancelled while it waits for the schema of its table, and another takes its stream. -/
def cancelledSteps : List (QueryStep Unit Nat) :=
  [.tryNew 0 () 7 0 0, .write 0, .server (.held 0) (.handle true), .cancel 0, .putBack 0,
    .tryNew 1 () 8 0 0, .write 1, .read 1 true]

/-- The metadata of a scan cannot be decoded, and another provider scans the table on the same stream. -/
def undecodedSteps : List (QueryStep Unit Nat) :=
  [.tryNew 0 () 7 0 0, .write 0, .server (.held 0) (.handle true), .read 0 true, .write 0,
    .server (.held 0) (.handle true), .server (.held 0) .insert, .read 0 false, .putBack 0,
    .tryNew 1 () 7 0 0, .write 1, .server (.held 1) (.handle true), .read 1 true, .write 1,
    .server (.held 1) (.handle true), .server (.held 1) .insert]

theorem streams_out_of_step :
    (∃ sys, (init 30).run cancelledSteps = some sys ∧
      (⟨1, .getTableSchema 8⟩, ⟨⟨0, .getTableSchema 7⟩, true⟩) ∈ sys.reads ∧ ¬ sys.InProtocol) ∧
    ∃ sys, (init 30).run undecodedSteps = some sys ∧ ¬ sys.InProtocol := by
  refine ⟨⟨_, rfl, List.mem_singleton_self _, fun h => ?_⟩, _, rfl, fun h => ?_⟩
  · cases h.reads _ (List.mem_singleton_self _)
  · exact h.server (.held 1) _ rfl rfl

end QuerySystem

end Moonlink.Query
