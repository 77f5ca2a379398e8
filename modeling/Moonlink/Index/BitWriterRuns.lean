-- SUMMARY: Whole sessions of the bit writer: groups of calls, extra flushes and the close, and when the file is complete.
import Moonlink.Index.BitWriter
import Moonlink.Lib.TransitionSystem

namespace Moonlink.Index

open Lib Lib.Bits

/-- A call that gives bits to the writer. -/
inductive BitCall where
  | write (typeBits bits value : Nat)
  | writeBit (bit : Bool)

namespace BitCall

def run (w : BitWriter) : BitCall → Except IndexPanic (BitWriter × Bool)
  | write typeBits bits value => w.write typeBits bits value
  | writeBit bit => w.writeBit bit

/-- What the call stands for in the file. -/
def field : BitCall → List Bool
  | write _ bits value => encode bits value
  | writeBit bit => [bit]

/-- The value fits into the width and the width into the type. -/
def Valid : BitCall → Prop
  | write typeBits bits value => bits ≤ typeBits ∧ value < 2 ^ bits
  | writeBit _ => True

end BitCall

/-- What a caller does with the writer. -/
inductive WriterOp where
  /-- What the call returns is ignored. -/
  | ignore (call : BitCall)
  /-- The last call of a group, with a flush if it asks for one. -/
  | heed (call : BitCall)
  | flush

namespace WriterOp

def next (w : BitWriter) : WriterOp → Except IndexPanic BitWriter
  | ignore call => do
    let (w, _) ← call.run w
    return w
  | heed call => do
    let (w, toFlush) ← call.run w
    return if toFlush then w.flush else w
  | flush => return w.flush

def field : WriterOp → List Bool
  | ignore call => call.field
  | heed call => call.field
  | flush => []

def Valid : WriterOp → Prop
  | ignore call => call.Valid
  | heed call => call.Valid
  | flush => True

/-- Every group ends with a call that is heeded and is shorter than a buffer. A group with
`bits` so far may be open. -/
def Grouped (isOpen : Bool) (bits : Nat) : List WriterOp → Prop
  | [] => isOpen = false
  | flush :: rest => Grouped isOpen bits rest
  | ignore call :: rest => Grouped true (bits + call.field.length) rest
  | heed call :: rest =>
    bits + call.field.length < 8 * BitWriter.bufferSize ∧ Grouped false 0 rest

/-- The bytes that the operation completes fit behind the ones that are still buffered. -/
def HasRoom (w : BitWriter) (op : WriterOp) : Prop :=
  w.buffered.length + (w.bitqueue.length + op.field.length) / 8 ≤ 2 * BitWriter.bufferSize

/-- A group that reached the inactive buffer ends with a call that completes a byte. -/
def Reports (w : BitWriter) : WriterOp → Prop
  | heed call => w.inactive = [] ∨ 8 ≤ w.bitqueue.length + call.field.length
  | _ => True

instance (w : BitWriter) : (op : WriterOp) → Decidable (op.Reports w)
  | heed call => inferInstanceAs (Decidable (w.inactive = [] ∨ 8 ≤ w.bitqueue.length + call.field.length))
  | ignore _ => isTrue trivial
  | flush => isTrue trivial

/-- Every operation meets `p`, as long as those before it do not fail. -/
abbrev Steps (p : BitWriter → WriterOp → Prop) : BitWriter → List WriterOp → Prop :=
  RunMeets (fun w op => (next w op).toOption) p

/-- The file of a new writer after some operations and the close. -/
def session (ops : List WriterOp) : Except IndexPanic (List Byte) := do
  let w ← ops.foldlM next .new
  w.close

/-- The session ends, and the file holds the fields behind each other, padded to a byte. -/
def Concatenates (ops : List WriterOp) : Prop :=
  Returns (session ops) fun data =>
    ∃ n, n < 8 ∧ data.flatMap Byte.bits = ops.flatMap field ++ List.replicate n false

end WriterOp

namespace BitWriter

/-- At the close the inactive buffer is empty, or the byte that is padded goes there. -/
def ClosesWhole (w : BitWriter) : Prop :=
  w.inactive = [] ∨ w.bitqueue ≠ [] ∧ w.buffered.length < 2 * bufferSize

/-- The buffers hold what is buffered. -/
structure Bounded (w : BitWriter) : Prop where
  wf : w.WF
  buffered : w.buffered.length ≤ 2 * bufferSize

variable {w w' : BitWriter}

theorem Settled.bounded (h : w.Settled) : w.Bounded :=
  ⟨h.wf, Nat.le_trans h.buffered (Nat.le_mul_of_pos_left bufferSize Nat.two_pos)⟩

theorem buffered_length (w : BitWriter) : w.buffered.length = w.active.length + w.inactive.length :=
  List.length_append

theorem WF.inactive_eq_nil_iff (hwf : w.WF) : w.inactive = [] ↔ w.buffered.length ≤ bufferSize := by
  have hactive := hwf.active
  have htotal := w.buffered_length
  rw [← List.length_eq_zero_iff]
  omega

theorem Bounded.flush (h : w.Bounded) : w.flush.Settled := by
  have hactive := h.wf.active
  have hbuffered := h.buffered
  have htotal := w.buffered_length
  have hrest : w.flush.buffered = w.inactive := List.append_nil _
  refine ⟨⟨h.wf.queue, ?_⟩, ?_⟩
  · rw [hrest]
    show w.inactive.length = _
    omega
  · rw [hrest]
    omega

/-! ## Full buffers -/

theorem bufferByte_full (h : w.Bounded) (byte : Byte) (hfull : 2 * bufferSize ≤ w.buffered.length) :
    Ensures (w.bufferByte byte) fun _ => False := by
  have hactive := h.wf.active
  have htotal := w.buffered_length
  unfold bufferByte
  rw [if_neg (by omega), if_neg (by omega)]
  exact .error

theorem bufferBytes_full (h : w.Bounded) (toFlush : Bool) (acc : List Bool)
    (hfull : 2 * bufferSize < w.buffered.length + acc.length / 8) :
    Ensures (w.bufferBytes toFlush acc) fun _ => False := by
  induction w, toFlush, acc using bufferBytes.induct with
  | case1 w toFlush acc hlen ih =>
    have hsize : bitqueueSize = 8 := rfl
    rw [bufferBytes, if_pos hlen]
    by_cases hroom : w.buffered.length < 2 * bufferSize
    · refine Ensures.bind (bufferByte_returns h.wf _ hroom).ensures ?_
      rintro ⟨w₁, spilled⟩ ⟨hbuf, -⟩
      have hlen₁ : w₁.buffered.length = w.buffered.length + 1 := by
        rw [hbuf.buffered, List.length_append, List.length_singleton]
      refine ih w₁ spilled ⟨hbuf.wf, by omega⟩ ?_
      rw [List.length_drop]
      omega
    · refine Ensures.bind (bufferByte_full h _ (Nat.le_of_not_lt hroom)) ?_
      exact fun _ hfalse => hfalse.elim
  | case2 w toFlush acc hshort =>
    have hsize : bitqueueSize = 8 := rfl
    have hbuffered := h.buffered
    omega

theorem writeBit_full (h : w.Bounded) (bit : Bool)
    (hfull : 2 * bufferSize < w.buffered.length + (w.bitqueue.length + 1) / 8) :
    Ensures (w.writeBit bit) fun _ => False := by
  have hqueue := h.wf.queue
  have hbuffered := h.buffered
  have hqlen : (w.bitqueue ++ [bit]).length = w.bitqueue.length + 1 := List.length_append
  have hsize : bitqueueSize = 8 := rfl
  unfold writeBit
  refine Ensures.bind_any fun _ => ?_
  rw [if_neg (by omega)]
  exact bufferByte_full ⟨h.wf.emptyQueue, hbuffered⟩ _ (show _ ≤ w.buffered.length by omega)

theorem write_full (h : w.Bounded) {typeBits width value : Nat}
    (hfull : 2 * bufferSize < w.buffered.length + (w.bitqueue.length + width) / 8) :
    Ensures (w.write typeBits width value) fun _ => False := by
  have hqueue := h.wf.queue
  have hbuffered := h.buffered
  have hlen := encode_length width value
  have hsize : bitqueueSize = 8 := rfl
  unfold write
  refine Ensures.bind_any fun _ => Ensures.bind_any fun _ => Ensures.bind_any fun _ => ?_
  have hqlen : (w.bitqueue ++ (encode width value).take (min (bitqueueSize - w.bitqueue.length)
      (encode width value).length)).length = 8 := by
    rw [List.length_append, List.length_take]
    omega
  rw [if_neg (by omega)]
  by_cases hroom : w.buffered.length < 2 * bufferSize
  · refine Ensures.bind (bufferByte_returns h.wf.emptyQueue _ hroom).ensures ?_
    rintro ⟨w₁, spilled⟩ ⟨hbuf, -⟩
    have hlen₁ : w₁.buffered.length = w.buffered.length + 1 := by
      rw [hbuf.buffered, List.length_append, List.length_singleton]
      rfl
    refine Ensures.bind (bufferBytes_full (w := w₁) ⟨hbuf.wf, by omega⟩ _ _ ?_) fun _ hfalse => hfalse.elim
    rw [List.length_drop, hlen]
    omega
  · refine Ensures.bind (bufferByte_full ⟨h.wf.emptyQueue, hbuffered⟩ _ ?_) fun _ hfalse => hfalse.elim
    exact Nat.le_of_not_lt hroom

/-! ## One call -/

/-- A call appends its field, and asks for a flush if it puts a byte into the inactive buffer. -/
structure Writes (w : BitWriter) (call : BitCall) (r : BitWriter × Bool) : Prop where
  appends : w.Appends call.field r.1
  flag : r.2 = true ↔ w.buffered.length < r.1.buffered.length ∧ bufferSize < r.1.buffered.length

variable {call : BitCall}

theorem run_returns (h : w.Bounded) (hvalid : call.Valid)
    (hroom : w.buffered.length + (w.bitqueue.length + call.field.length) / 8 ≤ 2 * bufferSize) :
    Returns (call.run w) (w.Writes call) := by
  have hqueue := h.wf.queue
  have hsize : bitqueueSize = 8 := rfl
  cases call with
  | write typeBits bits value =>
    rw [BitCall.field, encode_length] at hroom
    exact (write_returns h.wf hvalid.1 hvalid.2 hroom).mono fun _ hr => ⟨hr.1, hr.2⟩
  | writeBit bit =>
    rw [BitCall.field, List.length_singleton] at hroom
    by_cases hlt : w.buffered.length < 2 * bufferSize
    · exact (writeBit_returns h.wf bit hlt).mono fun _ hr => ⟨hr.1, hr.2⟩
    · -- The buffers are full, but the bit does not complete a byte.
      have hqlen : (w.bitqueue ++ [bit]).length = w.bitqueue.length + 1 := List.length_append
      have hshort : (w.bitqueue ++ [bit]).length < bitqueueSize := by omega
      show Returns (w.writeBit bit) _
      unfold writeBit
      rw [IndexPanic.assert, if_pos (decide_eq_true hqueue), ok_bind, if_pos hshort]
      refine .pure ⟨.of_queue h.wf hshort, ?_⟩
      simp [BitWriter.buffered]

theorem run_full (h : w.Bounded)
    (hfull : 2 * bufferSize < w.buffered.length + (w.bitqueue.length + call.field.length) / 8) :
    Ensures (call.run w) fun _ => False := by
  cases call with
  | write typeBits bits value =>
    rw [BitCall.field, encode_length] at hfull
    exact write_full h hfull
  | writeBit bit =>
    exact writeBit_full h bit hfull

/-- How many bytes a call completes. -/
theorem Appends.buffered_length {bits : List Bool} (h : w.Appends bits w') (hwf : w.WF) :
    w'.buffered.length = w.buffered.length + (w.bitqueue.length + bits.length) / 8 := by
  have hlen := h.length
  have hqueue := h.wf.queue
  have hqueue₀ := hwf.queue
  have hsize : bitqueueSize = 8 := rfl
  omega

theorem Writes.bounded {r : BitWriter × Bool} (h : w.Writes call r) (hwf : w.WF)
    (hroom : w.buffered.length + (w.bitqueue.length + call.field.length) / 8 ≤ 2 * bufferSize) :
    r.1.Bounded := ⟨h.appends.wf, by rwa [h.appends.buffered_length hwf]⟩

theorem call_ensures (h : w.Bounded) (hvalid : call.Valid) :
    Ensures (call.run w) fun r => w.Writes call r ∧ r.1.Bounded := by
  by_cases hroom : w.buffered.length + (w.bitqueue.length + call.field.length) / 8 ≤ 2 * bufferSize
  · exact (run_returns h hvalid hroom).ensures.mono fun r hr => ⟨hr, hr.bounded h.wf hroom⟩
  · exact (run_full h (Nat.lt_of_not_le hroom)).mono fun _ hfalse => hfalse.elim

end BitWriter

namespace WriterOp

variable {w : BitWriter} {op : WriterOp}

/-- What an operation that does not fail leaves. -/
structure Extends (w : BitWriter) (op : WriterOp) (w' : BitWriter) : Prop where
  bounded : w'.Bounded
  output : w'.output = w.output ++ op.field

theorem next_returns (h : w.Bounded) (hvalid : op.Valid) (hroom : op.HasRoom w) :
    Returns (op.next w) (op.Extends w) := by
  cases op with
  | ignore call =>
    refine (BitWriter.run_returns h hvalid hroom).bind fun r hr => .pure ?_
    exact ⟨hr.bounded h.wf hroom, hr.appends.output⟩
  | heed call =>
    refine (BitWriter.run_returns h hvalid hroom).bind fun r hr => .pure ?_
    have hbounded := hr.bounded h.wf hroom
    refine ⟨?_, by rw [BitWriter.ite_flush_output, hr.appends.output]; rfl⟩
    cases r.2
    · exact hbounded
    · exact hbounded.flush.bounded
  | flush =>
    refine .pure ⟨h.flush.bounded, ?_⟩
    rw [BitWriter.flush_output, field, List.append_nil]

theorem next_full (h : w.Bounded) (hfull : ¬ op.HasRoom w) : Ensures (op.next w) fun _ => False := by
  have hqueue := h.wf.queue
  have hbuffered := h.buffered
  have hsize : BitWriter.bitqueueSize = 8 := rfl
  unfold HasRoom at hfull
  cases op with
  | ignore call =>
    exact Ensures.bind (BitWriter.run_full h (Nat.lt_of_not_le hfull)) fun _ hfalse => hfalse.elim
  | heed call =>
    exact Ensures.bind (BitWriter.run_full h (Nat.lt_of_not_le hfull)) fun _ hfalse => hfalse.elim
  | flush =>
    rw [field, List.length_nil] at hfull
    omega

theorem next_ensures (h : w.Bounded) (hvalid : op.Valid) : Ensures (op.next w) (op.Extends w) := by
  by_cases hroom : op.HasRoom w
  · exact (next_returns h hvalid hroom).ensures
  · exact (next_full h hroom).mono fun _ hfalse => hfalse.elim

theorem exists_next_iff (h : w.Bounded) (hvalid : op.Valid) :
    (∃ w', op.next w = .ok w') ↔ op.HasRoom w := by
  constructor
  · rintro ⟨w', hnext⟩
    by_contra hfull
    exact next_full h hfull w' hnext
  · intro hroom
    obtain ⟨w', hnext, -⟩ := next_returns h hvalid hroom
    exact ⟨w', hnext⟩

theorem run_ensures (h : w.Bounded) {ops : List WriterOp} (hvalid : ∀ op ∈ ops, op.Valid) :
    Ensures (ops.foldlM next w) fun w' =>
      w'.Bounded ∧ w'.output = w.output ++ ops.flatMap field := by
  refine Ensures.foldlM (I := fun done (w' : BitWriter) =>
    w'.Bounded ∧ w'.output = w.output ++ done.flatMap field) ?_ ?_
  · exact ⟨h, (List.append_nil _).symm⟩
  · intro done op rest w₁ heq hw₁
    have hmem : op ∈ ops := by
      rw [heq]
      exact List.mem_append_right _ List.mem_cons_self
    refine (next_ensures hw₁.1 (hvalid op hmem)).mono fun w₂ hw₂ => ⟨hw₂.bounded, ?_⟩
    rw [hw₂.output, hw₁.2, List.flatMap_append, List.flatMap_singleton, List.append_assoc]

theorem exists_run_iff (h : w.Bounded) {ops : List WriterOp} (hvalid : ∀ op ∈ ops, op.Valid) :
    (∃ w', ops.foldlM next w = .ok w') ↔ Steps HasRoom w ops :=
  RunMeets.exists_ok_iff (I := BitWriter.Bounded) (q := WriterOp.Valid)
    (fun _ _ hw hop => (next_ensures hw hop).mono fun _ hw' => hw'.bounded)
    (fun _ _ hw hop => exists_next_iff hw hop) hvalid h

end WriterOp

/-! ## The close -/

namespace BitWriter

variable {w w' : BitWriter}

/-- Everything is in the file after the close. -/
def Completes (w : BitWriter) (data : List Byte) : Prop :=
  ∃ n, n < 8 ∧ data.flatMap Byte.bits = w.output ++ List.replicate n false

/-- The byte that is padded asks for the flush of the active buffer. -/
theorem close_completes (h : w.Bounded) (hwhole : w.ClosesWhole) : Returns w.close w.Completes := by
  have hbuffered := h.buffered
  have hroom : w.bitqueue ≠ [] → w.buffered.length < 2 * bufferSize := by
    intro hne
    rcases hwhole with hempty | ⟨-, hlt⟩
    · have hle := h.wf.inactive_eq_nil_iff.mp hempty
      have hpos : 0 < bufferSize := Nat.zero_lt_succ 4095
      omega
    · exact hlt
  refine (byteAlign_appends h.wf hroom).bind ?_
  rintro ⟨w', toFlush⟩ ⟨n, hn, happ, hqueue, hflag⟩
  have hlen : w'.buffered.length = _ := happ.buffered_length h.wf
  have hqueue₀ := h.wf.queue
  have hsize : bitqueueSize = 8 := rfl
  rw [List.length_replicate] at hlen
  have hle : w'.buffered.length ≤ 2 * bufferSize := by
    by_cases hne : w.bitqueue = []
    · rw [hne, List.length_nil] at hlen
      omega
    · have hlt := hroom hne
      omega
  have hflag' : toFlush = true ↔ bufferSize < w'.buffered.length := by
    refine hflag.trans ⟨And.right, fun hlt => ⟨fun hnil => ?_, hlt⟩⟩
    rcases hwhole with hempty | ⟨hne, -⟩
    · have hle₀ := h.wf.inactive_eq_nil_iff.mp hempty
      rw [hnil, List.length_nil] at hlen
      have hlt : bufferSize < w'.buffered.length := hlt
      omega
    · exact hne hnil
  refine .pure ⟨n, hn, ?_⟩
  rw [flush_written (flush_settled happ.wf hle hflag') (by cases toFlush <;> exact hqueue),
    ite_flush_output, happ.output]

/-- There is no room for the byte that is padded. -/
theorem byteAlign_full (h : w.Bounded) (hne : w.bitqueue ≠ []) (hfull : 2 * bufferSize ≤ w.buffered.length) :
    Ensures w.byteAlign fun _ => False := by
  have hqueue := h.wf.queue
  have hsize : bitqueueSize = 8 := rfl
  have hnonempty : ¬ w.bitqueue.isEmpty := fun hempty => hne (List.isEmpty_iff.mp hempty)
  unfold byteAlign
  rw [if_neg hnonempty]
  refine (Ensures.foldlM (I := fun done r => w.Appends (List.replicate done.length false) r.1 ∧ r.1.Bounded)
    ?_ ?_).mono ?_
  · exact ⟨⟨h.wf, rfl, (List.append_nil _).symm⟩, h⟩
  · intro done i rest r _ ⟨happ, hbounded⟩
    have hvalid : (BitCall.writeBit false).Valid := trivial
    refine (call_ensures hbounded hvalid).mono fun r' hr' => ⟨?_, hr'.2⟩
    rw [List.length_append, List.length_singleton, List.replicate_succ']
    exact happ.trans hr'.1.appends
  · intro r ⟨happ, hbounded⟩
    have hlen := happ.buffered_length h.wf
    have hbuffered := hbounded.buffered
    rw [List.length_replicate, List.length_range] at hlen
    omega

/-- If the queue is empty nothing asks for the flush of the active buffer, and if it is not, there is no
room for the padded byte. -/
theorem not_close_completes (h : w.Bounded) (hwhole : ¬ w.ClosesWhole) : ¬ Returns w.close w.Completes := by
  obtain ⟨hinactive, hlost⟩ := not_or.mp hwhole
  rintro ⟨data, hclose, n, hn, hdata⟩
  by_cases hnil : w.bitqueue = []
  · -- Only the active buffer is written.
    have halign : w.byteAlign = .ok (w, false) := by
      unfold byteAlign
      rw [hnil]
      rfl
    unfold close at hclose
    rw [halign] at hclose
    cases hclose
    have hlen := congrArg List.length hdata
    have hpos := List.length_pos_iff.mpr hinactive
    simp only [Bool.false_eq_true, if_false, BitWriter.flush, output, hnil, buffered, List.append_nil,
      List.length_append, flatMap_bits_length, List.length_replicate] at hlen
    omega
  · have hfull : ¬ w.buffered.length < 2 * bufferSize := fun hlt => hlost ⟨hnil, hlt⟩
    have halign := byteAlign_full h hnil (Nat.le_of_not_lt hfull)
    exact Ensures.bind (Q := fun _ => False) halign (fun _ hfalse => hfalse.elim) data hclose

theorem close_completes_iff (h : w.Bounded) : Returns w.close w.Completes ↔ w.ClosesWhole := by
  constructor
  · intro hclose
    by_contra hwhole
    exact not_close_completes h hwhole hclose
  · exact close_completes h

end BitWriter

/-! ## Sessions -/

namespace WriterOp

variable {w w' : BitWriter} {ops : List WriterOp}

theorem session_iff (hvalid : ∀ op ∈ ops, op.Valid) :
    Concatenates ops ↔ Steps HasRoom .new ops ∧ ∀ w, ops.foldlM next .new = .ok w → w.ClosesWhole := by
  have hnew : BitWriter.new.Bounded := BitWriter.new_settled.bounded
  have houtput : BitWriter.new.output = [] := rfl
  have hens := run_ensures hnew hvalid
  rw [← exists_run_iff hnew hvalid]
  constructor
  · rintro ⟨data, hsession, hdata⟩
    obtain ⟨w, hrun, hclose⟩ := bind_eq_ok.mp hsession
    refine ⟨⟨w, hrun⟩, fun w' hrun' => ?_⟩
    obtain rfl : w = w' := Except.ok.inj (hrun.symm.trans hrun')
    obtain ⟨hbounded, hout⟩ := hens w hrun
    refine (BitWriter.close_completes_iff hbounded).mp ⟨data, hclose, ?_⟩
    unfold BitWriter.Completes
    rw [hout, houtput, List.nil_append]
    exact hdata
  · rintro ⟨⟨w, hrun⟩, hwhole⟩
    obtain ⟨hbounded, hout⟩ := hens w hrun
    obtain ⟨data, hclose, hdata⟩ := (BitWriter.close_completes_iff hbounded).mpr (hwhole w hrun)
    refine ⟨data, bind_eq_ok.mpr ⟨w, hrun, hclose⟩, ?_⟩
    unfold BitWriter.Completes at hdata
    rw [hout, houtput, List.nil_append] at hdata
    exact hdata

/-- The last call of a group reports what the group put into the inactive buffer. -/
theorem heed_settled {call : BitCall} {r : BitWriter × Bool} (h : w.Bounded) (hr : w.Writes call r)
    (hbounded : r.1.Bounded) (hreports : (heed call).Reports w) :
    (if r.2 then r.1.flush else r.1).Settled := by
  have hlen := hr.appends.buffered_length h.wf
  refine BitWriter.flush_settled hbounded.wf hbounded.buffered (hr.flag.trans ⟨And.right, fun hlt => ⟨?_, hlt⟩⟩)
  rcases hreports with hempty | hbyte
  · have hle := h.wf.inactive_eq_nil_iff.mp hempty
    omega
  · omega

theorem Grouped.bits_lt {bits : Nat} (h : Grouped true bits ops) : bits < 8 * BitWriter.bufferSize := by
  induction ops generalizing bits with
  | nil => cases h
  | cons op rest ih =>
    cases op with
    | ignore call => exact Nat.lt_of_le_of_lt (Nat.le_add_right ..) (ih h)
    | heed call => exact Nat.lt_of_le_of_lt (Nat.le_add_right ..) h.1
    | flush => exact ih h

/-- At most one buffer and the open group are buffered. -/
structure Within (bits : Nat) (w : BitWriter) : Prop where
  bounded : w.Bounded
  size : 8 * w.buffered.length + w.bitqueue.length ≤ 8 * BitWriter.bufferSize + 7 + bits

theorem Within.of_settled (h : w.Settled) (bits : Nat) : Within bits w := by
  have hqueue := h.wf.queue
  have hbuffered := h.buffered
  have hsize : BitWriter.bitqueueSize = 8 := rfl
  exact ⟨h.bounded, by omega⟩

theorem Within.hasRoom {bits : Nat} (h : Within bits w) (op : WriterOp)
    (hbits : bits + op.field.length < 8 * BitWriter.bufferSize) : op.HasRoom w := by
  have hsize := h.size
  unfold HasRoom
  omega

/-- Groups that report all they put into the inactive buffer always find room. -/
theorem Grouped.hasRoom {isOpen : Bool} {bits : Nat} (hgrouped : Grouped isOpen bits ops)
    (hvalid : ∀ op ∈ ops, op.Valid) (hreports : Steps Reports w ops) (h : Within bits w)
    (hopen : isOpen = false → bits = 0) :
    Steps HasRoom w ops ∧ ∀ w', ops.foldlM next w = .ok w' → w'.ClosesWhole := by
  induction ops generalizing w isOpen bits with
  | nil =>
    refine ⟨trivial, ?_⟩
    rintro _ ⟨⟩
    have hsize := h.size
    rw [hopen hgrouped] at hsize
    exact .inl (h.bounded.wf.inactive_eq_nil_iff.mpr (by omega))
  | cons op rest ih =>
    obtain ⟨hop, hrest⟩ := List.forall_mem_cons.mp hvalid
    -- What the operation leaves is within the bounds of the group that is open then.
    suffices hnext : op.HasRoom w ∧ ∃ w₁ isOpen bits, next w op = .ok w₁ ∧ Within bits w₁ ∧
        Grouped isOpen bits rest ∧ (isOpen = false → bits = 0) by
      obtain ⟨hroom, w₁, isOpen, bits, hnext, hw₁, hgrouped₁, hopen₁⟩ := hnext
      obtain ⟨hrooms, hwhole⟩ :=
        ih hgrouped₁ hrest ((RunMeets.cons_ok_iff hnext rest).mp hreports).2 hw₁ hopen₁
      refine ⟨(RunMeets.cons_ok_iff hnext rest).mpr ⟨hroom, hrooms⟩, fun w' hrun => ?_⟩
      rw [List.foldlM_cons, hnext] at hrun
      exact hwhole w' hrun
    cases op with
    | flush =>
      have hbits : bits < 8 * BitWriter.bufferSize := by
        cases isOpen with
        | false =>
          rw [hopen rfl]
          decide
        | true => exact Grouped.bits_lt hgrouped
      exact ⟨h.hasRoom flush hbits, w.flush, isOpen, bits, rfl, .of_settled h.bounded.flush bits, hgrouped, hopen⟩
    | ignore call =>
      have hroom := h.hasRoom (ignore call) (Grouped.bits_lt hgrouped)
      obtain ⟨r, hrun, hr⟩ := BitWriter.run_returns h.bounded hop hroom
      refine ⟨hroom, r.1, true, _, bind_eq_ok.mpr ⟨r, hrun, rfl⟩, ⟨hr.bounded h.bounded.wf hroom, ?_⟩,
        hgrouped, Bool.noConfusion⟩
      have hsize := h.size
      have hlen := hr.appends.length
      omega
    | heed call =>
      have hroom := h.hasRoom (heed call) hgrouped.1
      obtain ⟨r, hrun, hr⟩ := BitWriter.run_returns h.bounded hop hroom
      have hsettled := heed_settled h.bounded hr (hr.bounded h.bounded.wf hroom) hreports.1
      exact ⟨hroom, _, false, 0, bind_eq_ok.mpr ⟨r, hrun, rfl⟩, .of_settled hsettled 0, hgrouped.2, fun _ => rfl⟩

/-- The file is complete exactly if every operation finds room and the close finds nothing in the inactive
buffer that it does not write. It always is if each group reports what it put there. -/
theorem session_concatenates_iff (hvalid : ∀ op ∈ ops, op.Valid) (hgrouped : Grouped false 0 ops) :
    (Concatenates ops ↔ Steps HasRoom .new ops ∧ ∀ w, ops.foldlM next .new = .ok w → w.ClosesWhole) ∧
      (Steps Reports .new ops → Concatenates ops) := by
  refine ⟨session_iff hvalid, fun hreports => (session_iff hvalid).mpr ?_⟩
  exact hgrouped.hasRoom hvalid hreports (.of_settled BitWriter.new_settled 0) fun _ => rfl

/-- An entry with an ignored call, an extra flush, and a single bit. -/
def entryOps : List WriterOp :=
  [ignore (.write 64 5 19), heed (.write 32 9 300), flush, heed (.writeBit true)]

theorem session_concatenates_iff_entryOps : Concatenates entryOps := by
  have hvalid : ∀ op ∈ entryOps, op.Valid := by simp [entryOps, Valid, BitCall.Valid]
  have hgrouped : Grouped false 0 entryOps := ⟨by decide, by decide, rfl⟩
  exact (session_concatenates_iff hvalid hgrouped).2 (by decide +kernel)

/-- With three bits in the queue, the first call of the group completes eight bytes and the second one none. -/
def missedGroup : List WriterOp := [ignore (.write 64 63 0), heed (.writeBit false)]

def missedOps : List WriterOp := heed (.write 8 3 0) :: (List.replicate 1025 missedGroup).flatten

theorem missedGroup_ensures (h : w.Bounded) (hqueue : w.bitqueue.length = 3) :
    Ensures (missedGroup.foldlM next w) fun w' =>
      w'.Bounded ∧ w'.bitqueue.length = 3 ∧ w'.buffered.length = w.buffered.length + 8 := by
  have hvalid : (BitCall.write 64 63 0).Valid := ⟨by decide, by decide⟩
  refine Ensures.bind (P := fun w' => w'.Bounded ∧ w'.bitqueue.length = 2 ∧
    w'.buffered.length = w.buffered.length + 8) ?_ ?_
  · refine Ensures.bind (BitWriter.call_ensures h hvalid) fun r hr => .pure ⟨hr.2, ?_⟩
    have hlen := hr.1.appends.length
    have hqueue' := hr.1.appends.wf.queue
    have hsize : BitWriter.bitqueueSize = 8 := rfl
    rw [BitCall.field, encode_length] at hlen
    omega
  · intro w₁ hw₁
    refine Ensures.bind ?_ fun w₂ hw₂ => .pure hw₂
    have hbit : (BitCall.writeBit false).Valid := trivial
    refine Ensures.bind (BitWriter.call_ensures hw₁.1 hbit) fun r hr => .pure ?_
    have hlen := hr.1.appends.length
    have hqueue' := hr.1.appends.wf.queue
    have hsize : BitWriter.bitqueueSize = 8 := rfl
    rw [BitCall.field, List.length_singleton] at hlen
    -- No byte is completed, so nothing asks for the flush.
    have hflag : r.2 = false := by
      rw [← Bool.not_eq_true, hr.1.flag]
      omega
    rw [hflag]
    refine ⟨hr.2, ?_, ?_⟩
    · show r.1.bitqueue.length = 3
      omega
    · show r.1.buffered.length = _
      omega

theorem missedGroups_ensures (n : Nat) (h : w.Bounded) (hqueue : w.bitqueue.length = 3) :
    Ensures ((List.replicate n missedGroup).flatten.foldlM next w) fun w' =>
      w'.Bounded ∧ w'.buffered.length = w.buffered.length + 8 * n := by
  induction n generalizing w with
  | zero => exact .pure ⟨h, rfl⟩
  | succ n ih =>
    rw [List.replicate_succ, List.flatten_cons, List.foldlM_append]
    refine Ensures.bind (missedGroup_ensures h hqueue) fun w₁ hw₁ => ?_
    refine (ih hw₁.1 hw₁.2.1).mono fun w₂ hw₂ => ⟨hw₂.1, ?_⟩
    rw [hw₂.2, hw₁.2.2]
    omega

theorem missedGroups_grouped (n : Nat) : Grouped false 0 (List.replicate n missedGroup).flatten := by
  induction n with
  | zero => rfl
  | succ n ih => exact ⟨by decide, ih⟩

/-- Groups whose last call completes no byte never ask for a flush, and both buffers run over. -/
theorem missed_flushes_overflow :
    (∀ op ∈ missedOps, op.Valid) ∧ Grouped false 0 missedOps ∧ ¬ Concatenates missedOps := by
  have hgrouped : Grouped false 0 missedOps := by
    rw [missedOps]
    exact ⟨by decide, missedGroups_grouped 1025⟩
  refine ⟨?_, hgrouped, ?_⟩
  · intro op hop
    simp only [missedOps, List.mem_cons, List.mem_flatten, List.mem_replicate] at hop
    rcases hop with rfl | ⟨group, ⟨-, rfl⟩, hgroup⟩
    · exact ⟨by decide, by decide⟩
    · simp only [missedGroup, List.mem_cons, List.not_mem_nil, or_false] at hgroup
      rcases hgroup with rfl | rfl
      · exact ⟨by decide, by decide⟩
      · trivial
  · rintro ⟨data, hsession, -⟩
    obtain ⟨w, hrun, -⟩ := bind_eq_ok.mp hsession
    have hfirst : next .new (heed (.write 8 3 0)) = .ok { BitWriter.new with bitqueue := [false, false, false] } :=
      rfl
    have hwf : ({ BitWriter.new with bitqueue := [false, false, false] } : BitWriter).WF := ⟨by decide, rfl⟩
    unfold missedOps at hrun
    rw [List.foldlM_cons, hfirst, ok_bind] at hrun
    obtain ⟨hbounded, hlen⟩ := missedGroups_ensures 1025 ⟨hwf, Nat.zero_le _⟩ rfl w hrun
    have hbuffered := hbounded.buffered
    have hsize : BitWriter.bufferSize = 4096 := rfl
    rw [hlen, hsize] at hbuffered
    exact absurd hbuffered (by decide)

end WriterOp
end Moonlink.Index
