import Sponge.Reassembler.Memory
import Sponge.Receiver.Machine

set_option autoImplicit false

/-! # Segments outside the window

A segment none of whose sequence numbers lies in the window should have no effect, now or
later. `OutOfWindow` is that assumption. It is not enough: a FIN outside the window replaces
the recorded end of the stream (`staleFin_seen`), and a payload behind the window can overwrite
bytes that were stored there, or set off the flush loop. `Inert` excludes these three, and then
the segment leaves the receiver as it is (`outOfWindow_unseen`). What the reassembler reads of an
erased element counts as the same input of the run with the segment and the run without it. -/

namespace Sponge

open Word Run StreamReassembler

namespace TCPReceiver

/-- No sequence number of the segment lies in the window, or next in order when the window is
empty. -/
def OutOfWindow (r : TCPReceiver) (seg : TCPSegment) : Prop :=
  ∀ n < r.absSeqno seg + seg.lengthInSequenceSpace, r.absSeqno seg ≤ n →
    n < r.ackPos ∨ r.ackPos + max r.windowSize 1 ≤ n

instance (r : TCPReceiver) (seg : TCPSegment) : Decidable (r.OutOfWindow seg) :=
  inferInstanceAs (Decidable (∀ n < _, _ → _))

/-- The segment's FIN, if it has one, is the recorded one, and its payload is old, or there is
nothing stored at or behind it and nothing waits to be written. -/
def Inert (r : TCPReceiver) (seg : TCPSegment) : Prop :=
  r.streamOut.inputEnded = true ∨
    ((seg.header.fin = true → r.reassembler.eofSignRecv = true ∧
        r.reassembler.eofIdx = add64 (sub64 (r.absSeqno seg) 1) seg.payload.length) ∧
      (seg.payload = [] ∨ (1 ≤ r.absSeqno seg ∧ r.absSeqno seg < r.ackPos) ∨
        ∀ e ∈ r.reassembler.unassembledStrs.entries, e.1 ≠ r.reassembler.exIdx ∧
          e.1 < sub64 (r.absSeqno seg) 1 ∧ e.1 + e.2.length ≤ sub64 (r.absSeqno seg) 1))

instance (r : TCPReceiver) (seg : TCPSegment) : Decidable (r.Inert seg) :=
  inferInstanceAs (Decidable (_ ∨ _ ∧ (_ ∨ _ ∨ _)))

/-! ## What can be seen of a receiver -/

/-- The bytes that the reads of a run return. -/
def output (r : TCPReceiver) : List ReceiverOp → Bytes
  | [] => []
  | op :: ops =>
      (match op with
        | .segment _ => []
        | .read len => (r.readOutput len.toNat).1
        | .pop len => r.streamOut.peekOutput len.toNat) ++ (r.step op).output ops

/-- What can be seen of a receiver after a run. -/
structure View where
  output : Bytes
  ackno : Option WrappingInt32
  windowSize : Nat
  unassembledBytes : Nat
  inputEnded : Bool
  deriving DecidableEq

def view (r : TCPReceiver) (ops : List ReceiverOp) : View where
  output := r.output ops
  ackno := (run step r ops).ackno
  windowSize := (run step r ops).windowSize
  unassembledBytes := (run step r ops).unassembledBytes
  inputEnded := (run step r ops).streamOut.inputEnded

end TCPReceiver

namespace StreamReassembler

variable {r : StreamReassembler} {data : Bytes} {idx : Nat}

/-- Recording an end that is recorded already. -/
theorem recordEof_same (hsign : r.eofSignRecv = true) (heof : r.eofIdx = idx)
    (hne : idx ≠ r.exIdx) : r.recordEof idx = r := by
  unfold recordEof
  rw [if_neg hne, ← hsign, ← heof]

theorem store_old (hidx : idx < r.exIdx) (hend : add64 idx data.length ≤ r.exIdx) :
    r.store data idx = r := by
  unfold store cutData
  rw [if_pos hidx, if_pos hend]

theorem tryPush_waiting (h : ∀ e ∈ r.unassembledStrs, e.1 ≠ r.exIdx) : r.tryPush = r := by
  unfold tryPush
  cases hl : r.unassembledStrs.entries with
  | nil => rfl
  | cons a it =>
      have hne := h a (by rw [OrdMap.mem_def, hl]; exact List.mem_cons_self)
      simp only [if_neg (Ne.symm hne)]

theorem store_behind (hidx : idx < 2 ^ 64) (hex : r.exIdx ≤ idx)
    (hfu : r.firstUnacceptableIdx ≤ idx)
    (hends : ∀ e ∈ r.unassembledStrs, e.1 ≠ r.exIdx ∧ e.1 < idx ∧ e.1 + e.2.length ≤ idx) :
    r.store data idx = r := by
  have hcut := cutData_behind data hidx hex (fun e he => (hends e he).2)
  have hskip : r.tryInsert idx data = r := if_neg (by omega)
  unfold store
  rw [hcut]
  simp only [hskip]
  exact tryPush_waiting (fun e he => (hends e he).1)

end StreamReassembler

namespace TCPReceiver

variable {r : TCPReceiver} {seg : TCPSegment} {data : Bytes}

theorem Counted.firstUnacceptableIdx_le (h : r.Counted data) :
    r.reassembler.firstUnacceptableIdx ≤ r.reassembler.exIdx + r.windowSize := by
  have hle : r.streamOut.size ≤ r.capacity := h.out_capacity ▸ h.out.size_le
  have hlt : r.capacity < 2 ^ 64 := h.out_capacity ▸ h.out.cap_lt
  rw [h.windowSize_eq]
  unfold firstUnacceptableIdx
  rw [h.capacity_eq]
  show sub64 (add64 r.reassembler.exIdx r.capacity) r.streamOut.size ≤
    r.reassembler.exIdx + (r.capacity - r.streamOut.size)
  unfold add64 sub64
  omega

/-- The payload of a segment outside the window ends in front of it or starts behind it. -/
theorem OutOfWindow.payload (hout : r.OutOfWindow seg) (hd : seg.payload ≠ []) :
    r.absSeqno seg + seg.payload.length ≤ r.ackPos ∨
      r.ackPos + max r.windowSize 1 ≤ r.absSeqno seg := by
  have hpos := List.length_pos_iff.mpr hd
  have hlen : seg.payload.length ≤ seg.lengthInSequenceSpace := by
    unfold TCPSegment.lengthInSequenceSpace
    omega
  rcases hout (r.absSeqno seg) (by omega) le_rfl with hold | hnew
  · -- a payload that reached over `ackPos` would have a byte there
    refine Or.inl (not_lt.mp ?_)
    intro hover
    have := hout r.ackPos (by omega) hold.le
    omega
  · exact Or.inr hnew

/-- An inert payload outside the window is not stored. -/
theorem Counted.store_inert (h : r.Counted data) (hsyn : r.synRecv = true)
    (hend : r.streamOut.inputEnded = false) (hd : seg.payload ≠ []) (hout : r.OutOfWindow seg)
    (hinert : (1 ≤ r.absSeqno seg ∧ r.absSeqno seg < r.ackPos) ∨
      ∀ e ∈ r.reassembler.unassembledStrs, e.1 ≠ r.reassembler.exIdx ∧
        e.1 < sub64 (r.absSeqno seg) 1 ∧ e.1 + e.2.length ≤ sub64 (r.absSeqno seg) 1) :
    r.reassembler.store seg.payload (sub64 (r.absSeqno seg) 1) = r.reassembler := by
  have hpos := List.length_pos_iff.mpr hd
  have hs : r.absSeqno seg < 2 ^ 64 := BitVec.isLt _
  have hack : r.ackPos = 1 + r.reassembler.exIdx := by
    have hwritten : r.streamOut.bytesWritten = r.reassembler.exIdx :=
      h.out.written.trans h.exIdx_eq.symm
    rw [ackPos_eq hsyn, hend, hwritten]
    rfl
  have hfu := h.firstUnacceptableIdx_le
  have hidx : sub64 (r.absSeqno seg) 1 < 2 ^ 64 := Nat.mod_lt _ (by norm_num)
  by_cases hzero : r.absSeqno seg = 0
  · -- the index of a segment at the initial sequence number is the last one there is
    have hlast : sub64 (r.absSeqno seg) 1 = 2 ^ 64 - 1 := by rw [hzero]; rfl
    rcases hinert with hold | hends
    · omega
    · by_cases hex : r.reassembler.exIdx ≤ 2 ^ 64 - 1
      · have hmod : r.reassembler.firstUnacceptableIdx < 2 ^ 64 := Nat.mod_lt _ (by norm_num)
        exact store_behind hidx (by omega) (by omega) hends
      · have hmod : add64 (sub64 (r.absSeqno seg) 1) seg.payload.length < 2 ^ 64 :=
          Nat.mod_lt _ (by norm_num)
        exact store_old (by omega) (by omega)
  · have hsub : sub64 (r.absSeqno seg) 1 = r.absSeqno seg - 1 := sub64_eq (by omega) (by omega)
    rcases hout.payload hd with hold | hnew
    · refine store_old (by omega) ((add64_le _ _).trans (by omega))
    · rcases hinert with hfront | hends
      · omega
      · exact store_behind hidx (by omega) (by omega) hends

/-- An inert segment outside the window is pushed without effect. -/
theorem Counted.push_inert (h : r.Counted data) (hsyn : r.synRecv = true)
    (hout : r.OutOfWindow seg) (hinert : r.Inert seg) :
    r.reassembler.pushSubstring seg.payload (sub64 (r.absSeqno seg) 1) seg.header.fin
      = r.reassembler := by
  rcases hinert with hend | ⟨hfin, hpayload⟩
  · exact pushSubstring_of_ended _ _ _ hend
  · by_cases hend : r.streamOut.inputEnded = true
    · exact pushSubstring_of_ended _ _ _ hend
    · -- a FIN that was noted before is noted again, at the same index
      have hrecord : (if seg.header.fin = true then r.reassembler.recordEof
          (add64 (sub64 (r.absSeqno seg) 1) seg.payload.length) else r.reassembler)
          = r.reassembler := by
        split_ifs with hf
        · obtain ⟨hsign, heof⟩ := hfin hf
          refine recordEof_same hsign heof (fun heq => hend ?_)
          exact h.noted hsign (heof.trans heq)
        · rfl
      unfold pushSubstring
      rw [if_neg (show ¬ r.reassembler.output.inputEnded = true from hend)]
      simp only [hrecord]
      split_ifs with hlen
      · rfl
      · have hd : seg.payload ≠ [] := fun hnil => hlen (by rw [hnil]; rfl)
        exact h.store_inert hsyn (by simpa using hend) hd hout (hpayload.resolve_left hd)

/-- **An inert segment outside the window is never seen.** -/
theorem outOfWindow_unseen (capacity : UInt64) (ops : List ReceiverOp) (seg : TCPSegment)
    (hsyn : (run step (new capacity) ops).synRecv = true) (hseg : seg.header.syn = false)
    (hout : (run step (new capacity) ops).OutOfWindow seg)
    (hinert : (run step (new capacity) ops).Inert seg) (later : List ReceiverOp) :
    ((run step (new capacity) ops).segmentReceived seg).view later
      = (run step (new capacity) ops).view later := by
  obtain ⟨data, h⟩ := counted_run capacity ops
  set r := run step (new capacity) ops
  have hsame : r.segmentReceived seg = r := by
    have hpush := h.push_inert hsyn hout hinert
    have hackno : r.currentAckno = r.lastAckno := by
      rw [currentAckno_eq hsyn, h.ackno_eq hsyn]
    have hr : { r with
        reassembler := r.reassembler.pushSubstring seg.payload (sub64 (r.absSeqno seg) 1)
          seg.header.fin } = r := by
      rw [hpush]
    unfold segmentReceived
    rw [hseg, if_neg Bool.false_ne_true, if_pos hsyn]
    show ({ r with
      reassembler := r.reassembler.pushSubstring seg.payload (sub64 (r.absSeqno seg) 1)
        seg.header.fin
      lastAckno := ({ r with
        reassembler := r.reassembler.pushSubstring seg.payload (sub64 (r.absSeqno seg) 1)
          seg.header.fin } : TCPReceiver).currentAckno } : TCPReceiver) = r
    rw [hr, hpush, hackno]
  rw [hsame]

/-- A byte that was read is sent again after a FIN behind a gap. -/
theorem outOfWindow_unseen_again :
    let ops : List ReceiverOp :=
      [.segment { header := { seqno := ⟨7⟩, syn := true }, payload := [97] }, .read 1,
        .segment { header := { seqno := ⟨10⟩, fin := true }, payload := [99] }]
    let again : TCPSegment := { header := { seqno := ⟨8⟩ }, payload := [97] }
    (run step (new 4) ops).unassembledBytes = 1 ∧
      ∀ later, ((run step (new 4) ops).segmentReceived again).view later
        = (run step (new 4) ops).view later :=
  ⟨by decide, outOfWindow_unseen 4 _ _ (by decide) (by decide) (by decide) (by decide)⟩

/-- **A FIN in front of the window is seen.** It is recorded as the end of the stream, which
the next byte then reaches. -/
theorem staleFin_seen :
    let ops : List ReceiverOp :=
      [.segment { header := { seqno := ⟨7⟩, syn := true }, payload := [97, 98] }]
    let stale : TCPSegment := { header := { seqno := ⟨8⟩, fin := true } }
    let next : ReceiverOp := .segment { header := { seqno := ⟨10⟩ }, payload := [99] }
    (run step (new 4) ops).synRecv = true ∧ (run step (new 4) ops).OutOfWindow stale ∧
      ((run step (new 4) ops).segmentReceived stale).view [next]
        ≠ (run step (new 4) ops).view [next] := by
  decide

end TCPReceiver

end Sponge
