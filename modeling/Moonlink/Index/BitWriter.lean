-- SUMMARY: The buffered bit writer of index files, with its two buffers, and what it writes.
import Moonlink.Lib.Bits
import Moonlink.Lib.Panics

/-!
# The bit writer

Bits go through a queue of one byte to the active buffer, and to the inactive one once
that is full. The writer never writes to the file by itself: a caller that is told so
has to flush, which writes the active buffer and switches the two. Errors of the file
system are left out.
-/

namespace Moonlink.Index

open Lib Lib.Bits

/-- Why the code of the index panics. Arithmetic that overflows does, as in a build that
checks it. -/
inductive IndexPanic where
  | bitqueueFull
  | tooManyBits
  | valueTooLarge
  | bufferFull
  | arithmeticOverflow
  | bucketOutOfRange
  | endOfFile
  | fileOutOfRange
  | lookupOutOfRange
  | remapOutOfRange
  | invalidFileId
  | notADiskFile
  | doesNotTerminate
  deriving DecidableEq, Repr

def IndexPanic.assert (cond : Bool) (panic : IndexPanic) : Except IndexPanic Unit :=
  if cond then .ok () else .error panic

/-- A buffer is given by its bytes up to the write offset. -/
structure BitWriter where
  /-- What the underlying writer got. -/
  written : List Byte
  active : List Byte
  inactive : List Byte
  bitqueue : List Bool

namespace BitWriter

def bufferSize : Nat := 4096

def bitqueueSize : Nat := 8

def new : BitWriter := ⟨[], [], [], []⟩

variable (w : BitWriter)

def flush : BitWriter :=
  { w with written := w.written ++ w.active, active := w.inactive, inactive := [] }

/-- Also returns whether the byte went to the inactive buffer. -/
def bufferByte (byte : Byte) : Except IndexPanic (BitWriter × Bool) :=
  if w.active.length < bufferSize then
    .ok ({ w with active := w.active ++ [byte] }, false)
  else if w.inactive.length < bufferSize then
    .ok ({ w with inactive := w.inactive ++ [byte] }, true)
  else .error .bufferFull

def writeBit (bit : Bool) : Except IndexPanic (BitWriter × Bool) := do
  IndexPanic.assert (w.bitqueue.length < bitqueueSize) .bitqueueFull
  let queue := w.bitqueue ++ [bit]
  if queue.length < bitqueueSize then
    return ({ w with bitqueue := queue }, false)
  else
    bufferByte { w with bitqueue := [] } (Byte.ofBits queue)

/-- The whole bytes of `acc` go to the buffers directly; the other bits are returned. -/
def bufferBytes (w : BitWriter) (toFlush : Bool) (acc : List Bool) :
    Except IndexPanic ((BitWriter × Bool) × List Bool) :=
  if bitqueueSize ≤ acc.length then do
    let (w, spilled) ← w.bufferByte (Byte.ofBits (acc.take bitqueueSize))
    w.bufferBytes (toFlush || spilled) (acc.drop bitqueueSize)
  else .ok ((w, toFlush), acc)
  termination_by acc.length
  decreasing_by simp only [List.length_drop, bitqueueSize] at *; omega

/-- Write a value of a type of `typeBits` bits, and return whether to flush. -/
def write (typeBits bits value : Nat) : Except IndexPanic (BitWriter × Bool) := do
  IndexPanic.assert (w.bitqueue.length < bitqueueSize) .bitqueueFull
  IndexPanic.assert (bits ≤ typeBits) .tooManyBits
  IndexPanic.assert (!(bits < typeBits && 2 ^ bits ≤ value)) .valueTooLarge
  let acc := encode bits value
  let n := min (bitqueueSize - w.bitqueue.length) acc.length
  let queue := w.bitqueue ++ acc.take n
  if queue.length < bitqueueSize then
    return ({ w with bitqueue := queue }, false)
  else
    let (w, toFlush) ← bufferByte { w with bitqueue := [] } (Byte.ofBits queue)
    let ((w, toFlush), rest) ← w.bufferBytes toFlush (acc.drop n)
    return ({ w with bitqueue := w.bitqueue ++ rest }, toFlush)

/-- Pad with zeros to the next byte. -/
def byteAlign : Except IndexPanic (BitWriter × Bool) :=
  if w.bitqueue.isEmpty then .ok (w, false)
  else
    (List.range (bitqueueSize - w.bitqueue.length)).foldlM
      (fun acc _ => acc.1.writeBit false) (w, false)

/-- The bytes of the file in the end. -/
def close : Except IndexPanic (List Byte) := do
  let (w, toFlush) ← w.byteAlign
  let w := if toFlush then w.flush else w
  return w.flush.written

/-! ## What is written -/

def buffered : List Byte := w.active ++ w.inactive

/-- All bits that were given to the writer. -/
def output : List Bool :=
  (w.written ++ w.buffered).flatMap Byte.bits ++ w.bitqueue

/-- The inactive buffer is used once the active one is full. -/
structure WF (w : BitWriter) : Prop where
  queue : w.bitqueue.length < bitqueueSize
  active : w.active.length = min w.buffered.length bufferSize

/-- The step from `w` to `w'` buffers `bytes`. -/
structure Buffers (w : BitWriter) (bytes : List Byte) (w' : BitWriter) : Prop where
  wf : w'.WF
  written : w'.written = w.written
  buffered : w'.buffered = w.buffered ++ bytes
  bitqueue : w'.bitqueue = w.bitqueue

/-- The step from `w` to `w'` appends `bits`. -/
structure Appends (w : BitWriter) (bits : List Bool) (w' : BitWriter) : Prop where
  wf : w'.WF
  written : w'.written = w.written
  output : w'.output = w.output ++ bits

variable {w w' w'' : BitWriter} {bytes bytes' : List Byte} {bits bits' : List Bool}

theorem Buffers.trans (h : w.Buffers bytes w') (h' : w'.Buffers bytes' w'') :
    w.Buffers (bytes ++ bytes') w'' where
  wf := h'.wf
  written := h'.written.trans h.written
  buffered := by rw [h'.buffered, h.buffered, List.append_assoc]
  bitqueue := h'.bitqueue.trans h.bitqueue

theorem Appends.trans (h : w.Appends bits w') (h' : w'.Appends bits' w'') :
    w.Appends (bits ++ bits') w'' where
  wf := h'.wf
  written := h'.written.trans h.written
  output := by rw [h'.output, h.output, List.append_assoc]

theorem flatMap_bits_length (bytes : List Byte) :
    (bytes.flatMap Byte.bits).length = bytes.length * 8 := flatMap_length Byte.bits_length bytes

/-- How many bytes are buffered after some bits. -/
theorem Appends.length (h : w.Appends bits w') :
    8 * w'.buffered.length + w'.bitqueue.length =
      8 * w.buffered.length + w.bitqueue.length + bits.length := by
  have hlen := congrArg List.length h.output
  simp only [BitWriter.output, List.flatMap_append, List.length_append, flatMap_bits_length,
    h.written] at hlen
  omega

theorem bufferByte_returns (hwf : w.WF) (byte : Byte)
    (hroom : w.buffered.length < 2 * bufferSize) :
    Returns (w.bufferByte byte) fun r =>
      w.Buffers [byte] r.1 ∧ r.2 = decide (bufferSize ≤ w.buffered.length) := by
  have hactive := hwf.active
  have htotal : w.buffered.length = w.active.length + w.inactive.length := List.length_append
  unfold bufferByte
  by_cases hlt : w.active.length < bufferSize
  · have hinactive : w.inactive = [] := List.length_eq_zero_iff.mp (by omega)
    rw [if_pos hlt]
    refine .ok ⟨⟨⟨hwf.queue, ?_⟩, rfl, ?_, rfl⟩, ?_⟩
    · simp only [buffered, hinactive, List.append_nil, List.length_append, List.length_singleton]
      omega
    · simp only [buffered, hinactive, List.append_nil]
    · exact (decide_eq_false (by omega)).symm
  · rw [if_neg hlt, if_pos (by omega)]
    refine .ok ⟨⟨⟨hwf.queue, ?_⟩, rfl, ?_, rfl⟩, ?_⟩
    · simp only [buffered, List.length_append, List.length_singleton]
      omega
    · simp only [buffered, List.append_assoc]
    · exact (decide_eq_true (by omega)).symm

theorem bufferBytes_returns (hwf : w.WF) (toFlush : Bool) (acc : List Bool)
    (hroom : w.buffered.length + acc.length / 8 ≤ 2 * bufferSize) :
    Returns (w.bufferBytes toFlush acc) fun r => ∃ bytes, w.Buffers bytes r.1.1 ∧
      acc = bytes.flatMap Byte.bits ++ r.2 ∧ r.2.length < bitqueueSize ∧
      (r.1.2 = true ↔ toFlush = true ∨
        0 < bytes.length ∧ bufferSize < w.buffered.length + bytes.length) := by
  induction w, toFlush, acc using bufferBytes.induct with
  | case1 w toFlush acc hlen ih =>
    rw [bufferBytes, if_pos hlen]
    have hsize : bitqueueSize = 8 := rfl
    refine (bufferByte_returns hwf _ (by omega)).bind ?_
    rintro ⟨w₁, spilled⟩ ⟨hbuf, rfl⟩
    have hlen₁ : w₁.buffered.length = w.buffered.length + 1 := by
      rw [hbuf.buffered, List.length_append, List.length_singleton]
    refine (ih w₁ _ hbuf.wf (by rw [List.length_drop]; omega)).mono ?_
    rintro ⟨⟨w₂, toFlush'⟩, rest⟩ ⟨bytes, hbufs, hacc, hrest, hflag⟩
    refine ⟨_ :: bytes, hbuf.trans hbufs, ?_, hrest, ?_⟩
    · have htake : (acc.take bitqueueSize).length = 8 := List.length_take_of_le hlen
      rw [List.flatMap_cons, Byte.bits_ofBits htake, List.append_assoc, ← hacc,
        List.take_append_drop]
    · simp only [hflag, hlen₁, List.length_cons, Bool.or_eq_true, decide_eq_true_eq]
      cases toFlush
      · simp only [Bool.false_eq_true, false_or]
        omega
      · simp
  | case2 w toFlush acc hshort =>
    rw [bufferBytes, if_neg hshort]
    refine .ok ⟨[], ⟨hwf, rfl, (List.append_nil _).symm, rfl⟩, rfl, Nat.lt_of_not_le hshort, ?_⟩
    simp

/-- The queue and the new bits are cut into bytes and a new queue. -/
theorem Buffers.appends {rest : List Bool}
    (h : ({ w with bitqueue := [] } : BitWriter).Buffers bytes w')
    (hbits : w.bitqueue ++ bits = bytes.flatMap Byte.bits ++ rest)
    (hrest : rest.length < bitqueueSize) :
    w.Appends bits { w' with bitqueue := w'.bitqueue ++ rest } := by
  have hwritten : w'.written = w.written := h.written
  have hbuffered : w'.buffered = w.buffered ++ bytes := h.buffered
  have hqueue : w'.bitqueue = [] := h.bitqueue
  refine ⟨⟨?_, h.wf.active⟩, hwritten, ?_⟩
  · rw [hqueue]
    exact hrest
  · calc (w'.written ++ w'.buffered).flatMap Byte.bits ++ (w'.bitqueue ++ rest)
        = (w.written ++ w.buffered).flatMap Byte.bits ++ (bytes.flatMap Byte.bits ++ rest) := by
          rw [hwritten, hbuffered, hqueue]
          simp only [List.flatMap_append, List.append_assoc, List.nil_append]
      _ = w.output ++ bits := by rw [← hbits, output, List.append_assoc]

/-- The queue takes all bits. -/
theorem Appends.of_queue (hwf : w.WF) (h : (w.bitqueue ++ bits).length < bitqueueSize) :
    w.Appends bits { w with bitqueue := w.bitqueue ++ bits } where
  wf := ⟨h, hwf.active⟩
  written := rfl
  output := (List.append_assoc ..).symm

theorem WF.emptyQueue (hwf : w.WF) : ({ w with bitqueue := [] } : BitWriter).WF :=
  ⟨Nat.zero_lt_succ 7, hwf.active⟩

theorem writeBit_returns (hwf : w.WF) (bit : Bool) (hroom : w.buffered.length < 2 * bufferSize) :
    Returns (w.writeBit bit) fun r => w.Appends [bit] r.1 ∧
      (r.2 = true ↔ w.buffered.length < r.1.buffered.length ∧
        bufferSize < r.1.buffered.length) := by
  have hqueue := hwf.queue
  unfold writeBit
  rw [IndexPanic.assert, if_pos (decide_eq_true hqueue), ok_bind]
  have hqlen : (w.bitqueue ++ [bit]).length = w.bitqueue.length + 1 := List.length_append
  by_cases hshort : (w.bitqueue ++ [bit]).length < bitqueueSize
  · rw [if_pos hshort]
    refine .pure ⟨.of_queue hwf hshort, ?_⟩
    simp [buffered]
  · rw [if_neg hshort]
    have hlen : (w.bitqueue ++ [bit]).length = 8 := by
      unfold bitqueueSize at hqueue hshort
      omega
    refine (bufferByte_returns hwf.emptyQueue _ hroom).mono ?_
    rintro ⟨w', spilled⟩ ⟨hbuf, rfl⟩
    have hbits : w.bitqueue ++ [bit] =
        [Byte.ofBits (w.bitqueue ++ [bit])].flatMap Byte.bits ++ [] := by
      rw [List.flatMap_singleton, Byte.bits_ofBits hlen, List.append_nil]
    have happ := hbuf.appends hbits (Nat.zero_lt_succ 7)
    rw [List.append_nil] at happ
    have hbuffered : w'.buffered.length = w.buffered.length + 1 := by
      rw [hbuf.buffered, List.length_append, List.length_singleton]
      rfl
    refine ⟨happ, ?_⟩
    rw [decide_eq_true_eq, hbuffered]
    show bufferSize ≤ w.buffered.length ↔ _
    omega

theorem write_returns (hwf : w.WF) {typeBits width value : Nat} (hwidth : width ≤ typeBits)
    (hvalue : value < 2 ^ width)
    (hroom : w.buffered.length + (w.bitqueue.length + width) / 8 ≤ 2 * bufferSize) :
    Returns (w.write typeBits width value) fun r => w.Appends (encode width value) r.1 ∧
      (r.2 = true ↔ w.buffered.length < r.1.buffered.length ∧
        bufferSize < r.1.buffered.length) := by
  have hqueue := hwf.queue
  have hlen := encode_length width value
  have hfits : (!(decide (width < typeBits) && decide (2 ^ width ≤ value))) = true := by
    simp [hvalue]
  unfold write
  rw [IndexPanic.assert, if_pos (decide_eq_true hqueue), ok_bind, IndexPanic.assert,
    if_pos (decide_eq_true hwidth), ok_bind, IndexPanic.assert, if_pos hfits, ok_bind]
  simp only [bitqueueSize, hlen] at hqueue ⊢
  have hqlen : (w.bitqueue ++ (encode width value).take (min (8 - w.bitqueue.length) width)).length
      = w.bitqueue.length + min (8 - w.bitqueue.length) width := by
    rw [List.length_append, List.length_take, hlen]
    omega
  by_cases hshort :
      (w.bitqueue ++ (encode width value).take (min (8 - w.bitqueue.length) width)).length < 8
  · rw [if_pos hshort]
    have htake : (encode width value).take (min (8 - w.bitqueue.length) width) =
        encode width value := List.take_of_length_le (by omega)
    rw [htake] at hshort ⊢
    refine .pure ⟨.of_queue hwf hshort, ?_⟩
    simp [buffered]
  · rw [if_neg hshort]
    refine (bufferByte_returns hwf.emptyQueue _ (show w.buffered.length < _ by omega)).bind ?_
    rintro ⟨w₁, spilled⟩ ⟨hbuf, rfl⟩
    have hlen₁ : w₁.buffered.length = w.buffered.length + 1 := by
      rw [hbuf.buffered, List.length_append, List.length_singleton]
      rfl
    refine (bufferBytes_returns hbuf.wf _ _ ?_).bind ?_
    · show w₁.buffered.length + _ ≤ _
      rw [List.length_drop, hlen]
      omega
    rintro ⟨⟨w₂, toFlush⟩, rest⟩ ⟨bytes, hbufs, hacc, hrest, hflag⟩
    have hlen₂ : w₂.buffered.length = w.buffered.length + 1 + bytes.length := by
      rw [hbufs.buffered, List.length_append, hlen₁]
    refine .pure ⟨(hbuf.trans hbufs).appends ?_ hrest, ?_⟩
    · rw [List.flatMap_append, List.flatMap_singleton, Byte.bits_ofBits (by omega),
        List.append_assoc, List.append_assoc, ← hacc, List.take_append_drop]
    · show toFlush = true ↔ w.buffered.length < w₂.buffered.length ∧ _ < w₂.buffered.length
      rw [hflag, decide_eq_true_eq, hlen₁, hlen₂]
      show bufferSize ≤ w.buffered.length ∨ _ ↔ _
      omega

/-- A value that is too large for the given width is not written. -/
theorem write_ensures_lt {typeBits width value : Nat} (hwidth : width < typeBits) :
    Ensures (w.write typeBits width value) fun _ => value < 2 ^ width := by
  refine Ensures.bind_any fun _ => Ensures.bind_any fun _ => ?_
  by_cases hvalue : value < 2 ^ width
  · exact Ensures.mono (fun _ _ => trivial) fun _ _ => hvalue
  · have hle : 2 ^ width ≤ value := Nat.le_of_not_lt hvalue
    rw [IndexPanic.assert, if_neg (by simp [hwidth, hle])]
    exact .error

/-! ## Callers that flush -/

/-- All that is buffered is in the active buffer. -/
structure Settled (w : BitWriter) : Prop where
  wf : w.WF
  buffered : w.buffered.length ≤ bufferSize

theorem new_settled : new.Settled := ⟨⟨Nat.zero_lt_succ 7, rfl⟩, Nat.zero_le _⟩

theorem flush_output : w.flush.output = w.output := by
  simp only [output, flush, buffered, List.append_nil, List.append_assoc]

/-- What a caller has to do after some writes. -/
theorem flush_settled (hwf : w.WF) (hroom : w.buffered.length ≤ 2 * bufferSize) {toFlush : Bool}
    (hflag : toFlush = true ↔ bufferSize < w.buffered.length) :
    (if toFlush then w.flush else w).Settled := by
  cases toFlush with
  | false => exact ⟨hwf, Nat.le_of_not_lt fun h => Bool.false_ne_true (hflag.mpr h)⟩
  | true =>
    have hactive := hwf.active
    have htotal : w.buffered.length = w.active.length + w.inactive.length := List.length_append
    have hbuffered : w.flush.buffered = w.inactive := List.append_nil _
    have hlt := hflag.mp rfl
    rw [if_pos rfl]
    refine ⟨⟨hwf.queue, ?_⟩, ?_⟩
    · rw [hbuffered]
      show w.inactive.length = _
      omega
    · rw [hbuffered]
      omega

theorem ite_flush_output (toFlush : Bool) : (if toFlush then w.flush else w).output = w.output := by
  cases toFlush with
  | false => rfl
  | true => exact w.flush_output

/-- Padding asks for a flush if the last byte goes to the inactive buffer. -/
theorem byteAlign_appends (hwf : w.WF) (hroom : w.bitqueue ≠ [] → w.buffered.length < 2 * bufferSize) :
    Returns w.byteAlign fun r => ∃ n, n < 8 ∧ w.Appends (List.replicate n false) r.1 ∧
      r.1.bitqueue = [] ∧ (r.2 = true ↔ w.bitqueue ≠ [] ∧ bufferSize < r.1.buffered.length) := by
  have hqueue := hwf.queue
  unfold byteAlign
  by_cases hempty : w.bitqueue.isEmpty
  · have hnil := List.isEmpty_iff.mp hempty
    rw [if_pos hempty]
    refine .ok ⟨0, by decide, ⟨hwf, rfl, (List.append_nil _).symm⟩, hnil, ?_⟩
    simp [hnil]
  · have hne : w.bitqueue ≠ [] := fun hnil => hempty (List.isEmpty_iff.mpr hnil)
    have hpos : 0 < w.bitqueue.length := List.length_pos_iff.mpr hne
    have hlt := hroom hne
    rw [if_neg hempty]
    unfold bitqueueSize at hqueue ⊢
    refine (Returns.foldlM (I := fun done r =>
      w.Appends (List.replicate done.length false) r.1 ∧
        (r.2 = true ↔ w.buffered.length < r.1.buffered.length ∧ bufferSize < r.1.buffered.length)) ?_ ?_).mono ?_
    · refine ⟨⟨hwf, rfl, (List.append_nil _).symm⟩, ?_⟩
      simp
    · intro done i rest r heq ⟨happ, _⟩
      -- The queue is not full before the last bit, so nothing was buffered so far.
      have hlen := congrArg List.length heq
      rw [List.length_range, List.length_append, List.length_cons] at hlen
      have hsame := happ.length
      rw [List.length_replicate] at hsame
      have hq := happ.wf.queue
      unfold bitqueueSize at hq
      have heqlen : r.1.buffered.length = w.buffered.length := by omega
      refine (writeBit_returns happ.wf false (by omega)).mono ?_
      intro r' ⟨happ', hflag⟩
      rw [heqlen] at hflag
      refine ⟨?_, hflag⟩
      rw [List.length_append, List.length_singleton, List.replicate_succ']
      exact happ.trans happ'
    · intro r ⟨happ, hflag⟩
      have hlen := happ.length
      have hq := happ.wf.queue
      rw [List.length_range] at happ hlen
      rw [List.length_replicate] at hlen
      unfold bitqueueSize at hq
      refine ⟨_, by omega, happ, List.length_eq_zero_iff.mp (by omega), hflag.trans ?_⟩
      exact and_congr_left fun _ => iff_of_true (by omega) hne

theorem byteAlign_returns (h : w.Settled) :
    Returns w.byteAlign fun r => ∃ n, n < 8 ∧ w.Appends (List.replicate n false) r.1 ∧
      r.1.bitqueue = [] ∧ (r.2 = true ↔ bufferSize < r.1.buffered.length) := by
  have hbuffered := h.buffered
  have hpos : 0 < bufferSize := Nat.zero_lt_succ 4095
  refine (byteAlign_appends h.wf fun _ => by omega).mono ?_
  rintro ⟨w', toFlush⟩ ⟨n, hn, happ, hqueue, hflag⟩
  refine ⟨n, hn, happ, hqueue, hflag.trans ⟨And.right, fun hlt => ⟨fun hnil => ?_, hlt⟩⟩⟩
  have hlen : 8 * w'.buffered.length + w'.bitqueue.length = _ := happ.length
  have hlt : bufferSize < w'.buffered.length := hlt
  rw [hqueue, hnil, List.length_replicate, List.length_nil] at hlen
  omega

theorem flush_written (h : w.Settled) (hqueue : w.bitqueue = []) :
    w.flush.written.flatMap Byte.bits = w.output := by
  have htotal : w.buffered.length = w.active.length + w.inactive.length := List.length_append
  have hinactive : w.inactive = [] := by
    have hactive := h.wf.active
    have hbuffered := h.buffered
    exact List.length_eq_zero_iff.mp (by omega)
  rw [output, hqueue, buffered, hinactive, List.append_nil, List.append_nil, flush]

/-- The file holds what was written, padded to whole bytes. -/
theorem close_returns (h : w.Settled) :
    Returns w.close fun data => ∃ n, data.flatMap Byte.bits = w.output ++ List.replicate n false := by
  refine (byteAlign_returns h).bind ?_
  rintro ⟨w', toFlush⟩ ⟨n, hn, happ, hqueue, hflag⟩
  have hroom : w'.buffered.length ≤ 2 * bufferSize := by
    have hlen : 8 * w'.buffered.length + w'.bitqueue.length = _ := happ.length
    have hqueue₀ := h.wf.queue
    have hbuffered := h.buffered
    rw [List.length_replicate] at hlen
    unfold bitqueueSize at hqueue₀
    unfold bufferSize at hbuffered ⊢
    omega
  refine .pure ⟨n, ?_⟩
  rw [flush_written (flush_settled happ.wf hroom hflag) (by cases toFlush <;> exact hqueue),
    ite_flush_output, happ.output]

end BitWriter
end Moonlink.Index
