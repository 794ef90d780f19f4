import Sponge.Basic.Run
import Sponge.Reassembler.Advance
import Sponge.TCPReceiver

set_option autoImplicit false

/-! # The receiver under any input

A run of a receiver gives it segments with any flags, sequence numbers and payloads, and reads
from its stream. Whatever a segment makes the reassembler store, its output only ever gains
bytes and the end mark (`pushSubstring_advances`), so the counters of the stream and the
acknowledgment number stay in step (`Counted`). The window the peer is told about therefore
never shrinks (`window_grows`). -/

namespace Sponge

open Word Run

/-! ## Runs of a receiver -/

/-- What can happen to a receiver: a segment arrives, or its stream is read. -/
inductive ReceiverOp where
  | segment (seg : TCPSegment)
  | read (len : UInt64)
  | pop (len : UInt64)

namespace TCPReceiver

/-- Pop `len` bytes from the stream. -/
def popOutput (r : TCPReceiver) (len : Nat) : TCPReceiver :=
  { r with reassembler := r.reassembler.popOutput len }

def step (r : TCPReceiver) : ReceiverOp → TCPReceiver
  | .segment seg => r.segmentReceived seg
  | .read len => (r.readOutput len.toNat).2
  | .pop len => r.popOutput len.toNat

/-- The absolute acknowledgment position: how much of the peer's sequence space has been
assembled. -/
def ackPos (r : TCPReceiver) : Nat :=
  if r.synRecv then
    1 + r.streamOut.bytesWritten + (if r.streamOut.inputEnded then 1 else 0)
  else 0

theorem ackPos_eq {r : TCPReceiver} (hsyn : r.synRecv = true) :
    r.ackPos = 1 + r.streamOut.bytesWritten + (if r.streamOut.inputEnded then 1 else 0) := by
  unfold ackPos
  rw [if_pos hsyn]

theorem currentAckno_eq {r : TCPReceiver} (hsyn : r.synRecv = true) :
    r.currentAckno = wrap r.ackPos r.isn := by
  rw [ackPos_eq hsyn]
  unfold currentAckno
  split_ifs
  · rw [wrap_add, Nat.add_comm 1]
  · rw [Nat.add_comm 1, Nat.add_zero]

/-- The absolute sequence number of a segment, as the receiver computes it. -/
def absSeqno (r : TCPReceiver) (seg : TCPSegment) : Nat :=
  unwrap seg.header.seqno r.isn r.streamOut.bytesWritten

/-- The counters of the receiver agree with the bytes `data` that its stream has accepted. -/
structure Counted (r : TCPReceiver) (data : Bytes) : Prop where
  out : r.streamOut.Carries data
  exIdx_eq : r.reassembler.exIdx = data.length
  out_capacity : r.streamOut.capacity = r.capacity
  capacity_eq : r.reassembler.capacity = r.capacity
  noted : r.reassembler.EndNoted
  ackno_eq : r.synRecv = true → r.lastAckno = wrap r.ackPos r.isn

theorem counted_new (capacity : UInt64) : (new capacity).Counted [] where
  out := ByteStream.carries_new capacity
  exIdx_eq := rfl
  out_capacity := rfl
  capacity_eq := rfl
  noted := fun h => absurd h Bool.false_ne_true
  ackno_eq := fun h => absurd h Bool.false_ne_true

section

variable {r : TCPReceiver} {data : Bytes}

theorem Counted.popOutput (h : r.Counted data) (len : Nat) : (r.popOutput len).Counted data :=
  ⟨h.out.popOutput len, h.exIdx_eq, h.out_capacity, h.capacity_eq, h.noted, h.ackno_eq⟩

/-- Giving a payload to the reassembler, for the initial sequence number `isn`. -/
theorem Counted.push (h : r.Counted data) (isn : WrappingInt32) (seg : TCPSegment)
    (absIndex : Nat) :
    ∃ w, r.streamOut.Grows ({ r with synRecv := true, isn := isn }.push seg absIndex).streamOut w ∧
      ({ r with synRecv := true, isn := isn }.push seg absIndex).Counted (data ++ w) := by
  have hadv := r.reassembler.pushSubstring_advances seg.payload absIndex seg.header.fin
  obtain ⟨w, hw, hex⟩ := hadv.output
  refine ⟨w, hw, hw.carries data h.out, ?_, hw.capacity.trans h.out_capacity,
    hadv.capacity.trans h.capacity_eq, hadv.noted h.noted, fun _ => currentAckno_eq rfl⟩
  rw [List.length_append, ← h.exIdx_eq]
  exact hex

/-- A receiver that has a SYN goes on with its own initial sequence number. -/
theorem with_synRecv {isn : WrappingInt32} (hsyn : r.synRecv = true) (hisn : r.isn = isn) :
    { r with synRecv := true, isn := isn } = r := by
  rw [← hsyn, ← hisn]

theorem segmentReceived_error (r : TCPReceiver) (seg : TCPSegment) :
    (r.segmentReceived seg).streamOut.error = r.streamOut.error := by
  have hpush : ∀ i, (r.reassembler.pushSubstring seg.payload i seg.header.fin).output.error
      = r.streamOut.error := by
    intro i
    obtain ⟨w, hw, -⟩ := (r.reassembler.pushSubstring_advances seg.payload i seg.header.fin).output
    exact hw.error
  unfold TCPReceiver.segmentReceived
  split_ifs
  · rfl
  · exact hpush _
  · exact hpush _
  · rfl

/-- Whatever arrives, the stream only gains bytes and its end. -/
theorem Counted.segmentReceived (h : r.Counted data) (seg : TCPSegment) :
    ∃ w, r.streamOut.Grows (r.segmentReceived seg).streamOut w ∧
      (r.segmentReceived seg).Counted (data ++ w) := by
  have hsame : ∃ w, r.streamOut.Grows r.streamOut w ∧ r.Counted (data ++ w) :=
    ⟨[], ByteStream.Grows.refl _, by rwa [List.append_nil]⟩
  unfold TCPReceiver.segmentReceived
  split_ifs with hsyn hrecv hrecv
  · exact hsame
  · exact h.push seg.header.seqno seg 0
  · have hpush := h.push r.isn seg
      (sub64 (unwrap seg.header.seqno r.isn r.streamOut.bytesWritten) 1)
    rwa [with_synRecv hrecv rfl] at hpush
  · exact hsame

theorem Counted.step (h : r.Counted data) (op : ReceiverOp) : ∃ data', (r.step op).Counted data' := by
  cases op with
  | segment seg =>
      obtain ⟨w, -, hw⟩ := h.segmentReceived seg
      exact ⟨data ++ w, hw⟩
  | read len => exact ⟨data, h.popOutput len.toNat⟩
  | pop len => exact ⟨data, h.popOutput len.toNat⟩

theorem counted_run (capacity : UInt64) (ops : List ReceiverOp) :
    ∃ data, (run step (new capacity) ops).Counted data :=
  run_invariant' (I := fun r : TCPReceiver => ∃ data, r.Counted data)
    (fun _ op ⟨_, h⟩ => h.step op) ⟨[], counted_new capacity⟩ ops

/-! ## The window -/

theorem Counted.windowSize_eq (h : r.Counted data) :
    r.windowSize = r.capacity - r.streamOut.bufferSize := by
  have hle : r.streamOut.size ≤ r.capacity := h.out_capacity ▸ h.out.size_le
  have hlt : r.capacity < 2 ^ 64 := h.out_capacity ▸ h.out.cap_lt
  exact sub64_eq hle (by omega)

/-- The first absolute sequence number behind the window. -/
def rightEdge (r : TCPReceiver) : Nat := r.ackPos + r.windowSize

/-- The right edge is a full capacity behind what was read. -/
theorem Counted.rightEdge_eq (h : r.Counted data) (hsyn : r.synRecv = true) :
    r.rightEdge = 1 + r.streamOut.bytesRead + r.capacity +
      (if r.streamOut.inputEnded then 1 else 0) := by
  have hle : r.streamOut.size ≤ r.capacity := h.out_capacity ▸ h.out.size_le
  have hread := h.out.read_add
  unfold rightEdge
  rw [h.windowSize_eq, ackPos_eq hsyn]
  simp only [ByteStream.bytesWritten, ByteStream.bytesRead, ByteStream.bufferSize]
  omega

theorem step_capacity (r : TCPReceiver) (op : ReceiverOp) : (r.step op).capacity = r.capacity := by
  cases op with
  | segment seg => simp only [step, TCPReceiver.segmentReceived]; split_ifs <;> rfl
  | read len => rfl
  | pop len => rfl

theorem step_synRecv (hsyn : r.synRecv = true) (op : ReceiverOp) : (r.step op).synRecv = true := by
  cases op with
  | segment seg =>
      simp only [step, TCPReceiver.segmentReceived]
      split_ifs
      · exact hsyn
      · exact hsyn
  | read len => exact hsyn
  | pop len => exact hsyn

/-- What a step adds to the counters. -/
theorem Counted.step_counters (h : r.Counted data) (op : ReceiverOp) :
    r.streamOut.bytesWritten ≤ (r.step op).streamOut.bytesWritten ∧
    r.streamOut.bytesRead ≤ (r.step op).streamOut.bytesRead ∧
    (r.streamOut.inputEnded = true → (r.step op).streamOut.inputEnded = true) := by
  cases op with
  | segment seg =>
      obtain ⟨w, hw, hc⟩ := h.segmentReceived seg
      refine ⟨?_, hw.read.ge, fun he => (hw.ended he).1⟩
      have h1 := h.out.written
      have h2 := hc.out.written
      rw [List.length_append] at h2
      show r.streamOut.numBytesWritten ≤ (r.segmentReceived seg).streamOut.numBytesWritten
      omega
  | read len => exact ⟨le_rfl, Nat.le_add_right _ _, id⟩
  | pop len => exact ⟨le_rfl, Nat.le_add_right _ _, id⟩

end

/-- **The window never shrinks.** After any segments and reads the window size is the free
space of the stream; from there on no step moves the acknowledgment position or the right
edge of the window back. -/
theorem window_grows (capacity : UInt64) (ops : List ReceiverOp) :
    let r := run step (new capacity) ops
    (r.streamOut.bufferSize ≤ capacity.toNat ∧
      r.windowSize = capacity.toNat - r.streamOut.bufferSize ∧ r.windowSize ≤ capacity.toNat) ∧
    (r.synRecv = true →
      r.ackPos = 1 + r.streamOut.bytesWritten + (if r.streamOut.inputEnded then 1 else 0) ∧
      r.ackno = some (wrap r.ackPos r.isn)) ∧
    ∀ op, r.synRecv = true →
      r.ackPos ≤ (r.step op).ackPos ∧ r.rightEdge ≤ (r.step op).rightEdge := by
  intro r
  obtain ⟨data, h⟩ : ∃ data, r.Counted data := counted_run capacity ops
  have hcap : r.capacity = capacity.toNat :=
    run_invariant' (I := fun r => r.capacity = capacity.toNat)
      (fun s op hs => (step_capacity s op).trans hs) rfl ops
  have hwin : r.windowSize = capacity.toNat - r.streamOut.bufferSize := by
    rw [h.windowSize_eq, hcap]
  refine ⟨⟨?_, hwin, ?_⟩, fun hsyn => ⟨ackPos_eq hsyn, ?_⟩, fun op hsyn => ?_⟩
  · rw [← hcap, ← h.out_capacity]
    exact h.out.size_le
  · rw [hwin]
    exact Nat.sub_le _ _
  · unfold ackno
    rw [if_pos hsyn, h.ackno_eq hsyn]
  · obtain ⟨data', h'⟩ := h.step op
    have hsyn' := step_synRecv hsyn op
    obtain ⟨hwritten, hread, hend⟩ := h.step_counters op
    -- the counters of the stream only grow, and its end stays
    have hended : (if r.streamOut.inputEnded then 1 else 0)
        ≤ (if (r.step op).streamOut.inputEnded then 1 else 0) := by
      split_ifs with h1 h2
      · exact le_rfl
      · exact absurd (hend h1) h2
      · exact Nat.zero_le _
      · exact le_rfl
    constructor
    · rw [ackPos_eq hsyn, ackPos_eq hsyn']
      omega
    · rw [h.rightEdge_eq hsyn, h'.rightEdge_eq hsyn', step_capacity]
      omega

/-- A SYN with one byte for a stream of two, a spurious FIN far ahead, and a read. -/
theorem window_grows_synByte :
    let r := run step (new 2)
      [.segment { header := { seqno := ⟨7⟩, syn := true }, payload := [97] },
        .segment { header := { seqno := ⟨12⟩, fin := true }, payload := [98] }]
    r.synRecv = true ∧ r.windowSize ≤ 2 ∧
      r.ackPos ≤ (r.step (.read 1)).ackPos ∧ r.rightEdge ≤ (r.step (.read 1)).rightEdge :=
  ⟨by decide, (window_grows 2 _).1.2.2, (window_grows 2 _).2.2 (.read 1) (by decide)⟩

end TCPReceiver

end Sponge
