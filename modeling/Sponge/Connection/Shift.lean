import Sponge.Connection.Abort
import Sponge.Sender.Shift
import Sponge.TCPState

set_option autoImplicit false

/-! # Shifting the initial sequence numbers of a connection

The own numbers are shifted by `k` and those of the peer by `l`. A call on the shifted connection
with a shifted segment does what the call did, shifted, except that a timeout with nothing to
retransmit sends sequence number zero (`step_shift`). Two runs stay in step exactly if there is
no such timeout, or `k` is zero (`run_inStep_iff`). What is read behind the queue of unacknowledged
bytes and of an erased element counts as the same input of both runs. -/

namespace Sponge

open Word Run

/-! ## The receiver -/

namespace TCPReceiver

/-- The initial sequence number of the peer is known from its SYN on. -/
def shift (l : BitVec 32) (r : TCPReceiver) : TCPReceiver :=
  if r.synRecv then { r with isn := r.isn.shift l, lastAckno := r.lastAckno.shift l } else r

section

variable (k l : BitVec 32) (r : TCPReceiver)

theorem shift_of_synRecv {r : TCPReceiver} (hsyn : r.synRecv = true) :
    r.shift l = { r with isn := r.isn.shift l, lastAckno := r.lastAckno.shift l } := if_pos hsyn

theorem shift_of_not_synRecv {r : TCPReceiver} (hsyn : r.synRecv = false) : r.shift l = r :=
  if_neg (by simp [hsyn])

@[simp] theorem shift_reassembler : (r.shift l).reassembler = r.reassembler := by
  unfold shift
  split_ifs <;> rfl

@[simp] theorem shift_synRecv : (r.shift l).synRecv = r.synRecv := by
  unfold shift
  split_ifs <;> rfl

@[simp] theorem shift_capacity : (r.shift l).capacity = r.capacity := by
  unfold shift
  split_ifs <;> rfl

@[simp] theorem shift_streamOut : (r.shift l).streamOut = r.streamOut := by
  unfold streamOut
  rw [shift_reassembler]

@[simp] theorem shift_windowSize : (r.shift l).windowSize = r.windowSize := by
  simp [windowSize]

@[simp] theorem shift_ackno : (r.shift l).ackno = r.ackno.map (WrappingInt32.shift l) := by
  unfold ackno
  rw [shift_synRecv]
  split_ifs with hsyn
  · rw [shift_of_synRecv l hsyn]
    rfl
  · rfl

/-- Changes of the reassembler leave the numbers alone. -/
theorem shift_withReassembler (reassembler : StreamReassembler) :
    { r.shift l with reassembler := reassembler }
      = shift l { r with reassembler := reassembler } := by
  unfold shift
  split_ifs <;> rfl

theorem shift_push (hsyn : r.synRecv = true) (seg : TCPSegment) (absIndex : Nat) :
    (r.shift l).push (seg.shiftIn k l) absIndex = (r.push seg absIndex).shift l := by
  have hsyn' : (r.push seg absIndex).synRecv = true := hsyn
  rw [shift_of_synRecv l hsyn, shift_of_synRecv l hsyn']
  -- the assembled bytes are the same, and are wrapped relative to the shifted number
  unfold push currentAckno
  simp only [WrappingInt32.wrap_shift, WrappingInt32.shift_add, ← apply_ite (WrappingInt32.shift l)]
  rfl

theorem shift_segmentReceived (seg : TCPSegment) :
    (r.shift l).segmentReceived (seg.shiftIn k l) = (r.segmentReceived seg).shift l := by
  have hheader : (seg.shiftIn k l).header.syn = seg.header.syn := rfl
  unfold segmentReceived
  rw [hheader, shift_synRecv]
  split_ifs with hfirst hknown hsyn
  · rfl
  · -- the SYN brings the shifted initial sequence number
    rw [shift_of_not_synRecv l (by simpa using hknown)]
    exact shift_push k l { r with synRecv := true, isn := seg.header.seqno } rfl seg 0
  · have hindex : unwrap (seg.shiftIn k l).header.seqno (r.shift l).isn (r.shift l).streamOut.bytesWritten
        = unwrap seg.header.seqno r.isn r.streamOut.bytesWritten := by
      rw [shift_streamOut, shift_of_synRecv l hsyn]
      exact WrappingInt32.unwrap_shift l _ _ _
    dsimp only
    rw [hindex]
    exact shift_push k l r hsyn seg _
  · rfl

theorem shift_setError : (r.shift l).setError = r.setError.shift l := by
  unfold setError
  rw [shift_reassembler]
  exact shift_withReassembler l r _

theorem shift_readOutput (len : Nat) :
    (r.shift l).readOutput len = ((r.readOutput len).1, (r.readOutput len).2.shift l) := by
  unfold readOutput
  rw [shift_reassembler, shift_withReassembler]

end

end TCPReceiver

/-! ## The connection -/

/-- A configuration with a shifted initial sequence number. -/
def TCPConfig.shift (k : BitVec 32) (cfg : TCPConfig) : TCPConfig :=
  { cfg with fixedIsn := cfg.fixedIsn.map (WrappingInt32.shift k) }

/-- The same call, with a shifted segment. -/
def ConnectionOp.shift (k l : BitVec 32) : ConnectionOp → ConnectionOp
  | .segmentReceived seg => .segmentReceived (seg.shiftIn k l)
  | op => op

namespace TCPConnection

def shift (k l : BitVec 32) (c : TCPConnection) : TCPConnection :=
  { c with
    cfg := c.cfg.shift k
    receiver := c.receiver.shift l
    sender := c.sender.shift k l
    segmentsOut := c.segmentsOut.map (TCPSegment.shiftOut k l) }

/-- A call that sends a segment without any field set: a timeout has nothing to retransmit, and
no RST for what was queued before takes its place. -/
def SendsBlank (c : TCPConnection) : ConnectionOp → Prop
  | .tick ms => c.active = true ∧ c.sender.timer.expires ms.toNat = true ∧ c.sender.NothingDue ∧
      (c.segmentsOut ++ c.sender.segmentsOut = [] ∨
        c.sender.timer.retransmitted.consecutiveRetransmissions ≤ TCPConfig.maxRetxAttempts)
  | _ => False

instance decidableSendsBlank (c : TCPConnection) : ∀ op, Decidable (c.SendsBlank op)
  | .tick _ => inferInstanceAs (Decidable (_ ∧ _ ∧ _ ∧ (_ ∨ _)))
  | .connect | .write _ | .endInputStream | .segmentReceived _ | .readInbound _ | .popSegment =>
      .isFalse id

section

variable (k l : BitVec 32) (c : TCPConnection) (seg : TCPSegment)

theorem shift_new (cfg : TCPConfig) (isn : WrappingInt32) :
    new (cfg.shift k) (isn.shift k) = (new cfg isn).shift k l := by
  unfold new TCPConfig.shift
  rw [Option.getD_map]
  rfl

theorem shift_withAck (r : TCPReceiver) :
    withAck (r.shift l) (seg.shiftOut k l) = (withAck r seg).shiftOut k l := by
  unfold withAck
  rw [TCPReceiver.shift_ackno]
  cases r.ackno with
  | none => rfl
  | some ackno =>
      -- the segment takes the shifted number, or is a RST and takes none
      simp only [Option.map_some]
      by_cases hrst : seg.header.rst = true
      · rw [if_pos hrst, if_pos (show (seg.shiftOut k l).header.rst = true from hrst)]
      · rw [if_neg hrst, if_neg (show ¬(seg.shiftOut k l).header.rst = true from hrst),
          TCPReceiver.shift_windowSize]
        rfl

/-! ### The parts of a call -/

theorem shift_updateOutput : (c.shift k l).updateOutput = c.updateOutput.shift k l := by
  have hqueue : (c.segmentsOut.map (TCPSegment.shiftOut k l)) ++
        (c.sender.segmentsOut.map (TCPSegment.shiftOut k l)).map (withAck (c.receiver.shift l))
      = (c.segmentsOut ++ c.sender.segmentsOut.map (withAck c.receiver)).map
          (TCPSegment.shiftOut k l) := by
    rw [List.map_append, List.map_map, List.map_map]
    congr 2
    funext seg
    exact shift_withAck k l seg c.receiver
  unfold updateOutput shift
  dsimp only [TCPSender.shift]
  rw [hqueue]
  rfl

theorem shift_onSender {f f' : TCPSender → TCPSender}
    (hf : f' (c.sender.shift k l) = (f c.sender).shift k l) :
    (c.shift k l).onSender f' = (c.onSender f).shift k l := by
  unfold onSender
  show { c.shift k l with sender := f' (c.sender.shift k l) } = _
  rw [hf]
  rfl

theorem shift_onlyIf {f f' : TCPConnection → TCPConnection} (b : Bool)
    (hf : f' (c.shift k l) = (f c).shift k l) :
    (c.shift k l).onlyIf b f' = (c.onlyIf b f).shift k l := by
  unfold onlyIf
  rw [hf]
  split_ifs <;> rfl

theorem shift_fillWindow : (c.shift k l).fillWindow = c.fillWindow.shift k l :=
  shift_onSender k l c (TCPSender.shift_fillWindow k l c.sender)

theorem shift_sendEmptySegment :
    (c.shift k l).sendEmptySegment = c.sendEmptySegment.shift k l :=
  shift_onSender k l c (TCPSender.shift_sendEmptySegment k l c.sender)

theorem shift_fill : (c.shift k l).fill = c.fill.shift k l := by
  unfold fill
  rw [shift_fillWindow, shift_updateOutput]

theorem shift_reply : (c.shift k l).reply = c.reply.shift k l := by
  unfold reply
  rw [shift_sendEmptySegment, shift_updateOutput]

theorem shift_replyIfIdle : (c.shift k l).replyIfIdle = c.replyIfIdle.shift k l := by
  have hidle : (c.shift k l).segmentsOut.isEmpty = c.segmentsOut.isEmpty := List.isEmpty_map
  unfold replyIfIdle
  rw [hidle]
  exact shift_onlyIf k l c _ (shift_reply k l c)

theorem shift_nonempty : (c.shift k l).nonempty = c.nonempty.shift k l := by
  have hidle : (c.shift k l).sender.segmentsOut.isEmpty = c.sender.segmentsOut.isEmpty :=
    List.isEmpty_map
  unfold nonempty
  rw [hidle]
  exact shift_onlyIf k l c _ (shift_sendEmptySegment k l c)

theorem shift_receive : (c.shift k l).receive (seg.shiftIn k l) = (c.receive seg).shift k l := by
  unfold receive
  show { c.shift k l with
    receiver := (c.receiver.shift l).segmentReceived (seg.shiftIn k l) } = _
  rw [TCPReceiver.shift_segmentReceived]
  rfl

theorem shift_ackReceived :
    (c.shift k l).ackReceived (seg.shiftIn k l).header = (c.ackReceived seg.header).shift k l :=
  shift_onSender k l c (TCPSender.shift_ackReceived k l c.sender _ _)

theorem shift_uncleanShutdown : (c.shift k l).uncleanShutdown = c.uncleanShutdown.shift k l := by
  unfold uncleanShutdown
  show { c.shift k l with
    sender := { c.sender.shift k l with stream := c.sender.stream.setError }
    receiver := (c.receiver.shift l).setError
    active := false } = _
  rw [TCPReceiver.shift_setError]
  rfl

/-! ### Incoming segments -/

/-- A shift is injective, so the comparison with the acknowledgment number is the same. -/
theorem shift_outOfOrder : (c.shift k l).outOfOrder (seg.shiftIn k l) = c.outOfOrder seg := by
  have hackno : (c.shift k l).receiver.ackno = c.receiver.ackno.map (WrappingInt32.shift l) :=
    TCPReceiver.shift_ackno l c.receiver
  unfold outOfOrder
  rw [hackno]
  cases c.receiver.ackno with
  | none => rfl
  | some ackno =>
      have hne : (seg.header.seqno.shift l != ackno.shift l) = (seg.header.seqno != ackno) := by
        rw [bne, bne, Bool.not_inj_iff, Bool.eq_iff_iff, beq_iff_eq, beq_iff_eq,
          (WrappingInt32.shift_injective l).eq_iff]
      show (seg.header.seqno.shift l != ackno.shift l && _ && _) = _
      rw [hne]
      rfl

theorem shift_outOfOrderReceived :
    (c.shift k l).outOfOrderReceived (seg.shiftIn k l) = (c.outOfOrderReceived seg).shift k l := by
  unfold outOfOrderReceived
  rw [shift_receive, shift_onlyIf (f := fun c => (c.ackReceived seg.header).fillWindow), shift_nonempty,
    shift_updateOutput]
  · rfl
  · rw [shift_ackReceived, shift_fillWindow]

theorem shift_closeOrFill : (c.shift k l).closeOrFill = c.closeOrFill.shift k l := by
  unfold closeOrFill
  show (if c.sender.finAcked = true then (c.shift k l).cleanShutdown else (c.shift k l).fill) = _
  rw [shift_fill]
  split_ifs <;> rfl

theorem shift_finRecvReceived :
    (c.shift k l).finRecvReceived (seg.shiftIn k l) = (c.finRecvReceived seg).shift k l := by
  unfold finRecvReceived
  show (if seg.header.syn = true then c.shift k l
    else if (!c.lingerAfterStreamsFinish) = true then
      ((c.shift k l).onlyIf seg.header.fin reply).onlyIf seg.header.ack
        (fun c => (c.ackReceived (seg.shiftIn k l).header).closeOrFill)
    else
      ((c.shift k l).onlyIf seg.header.ack
        (fun c => c.ackReceived (seg.shiftIn k l).header)).onlyIf seg.header.fin reply) = _
  rw [shift_onlyIf k l c (f := reply) seg.header.fin (shift_reply k l c),
    shift_onlyIf k l _ (f := fun c => (c.ackReceived seg.header).closeOrFill) seg.header.ack
      (by rw [shift_ackReceived, shift_closeOrFill]),
    shift_onlyIf k l c (f := fun c => c.ackReceived seg.header) seg.header.ack
      (shift_ackReceived k l c seg),
    shift_onlyIf k l _ (f := reply) seg.header.fin (shift_reply k l _)]
  split_ifs <;> rfl

theorem shift_listenReceived :
    (c.shift k l).listenReceived (seg.shiftIn k l) = (c.listenReceived seg).shift k l := by
  unfold listenReceived
  show (if seg.header.syn = true then
      ((((c.shift k l).receive (seg.shiftIn k l)).onlyIf seg.header.ack
        (fun c => c.ackReceived (seg.shiftIn k l).header)).fill).replyIfIdle
    else c.shift k l) = _
  rw [shift_receive, shift_onlyIf k l _ (f := fun c => c.ackReceived seg.header) seg.header.ack
    (shift_ackReceived k l _ seg), shift_fill, shift_replyIfIdle]
  split_ifs <;> rfl

theorem shift_inboundEnded : (c.shift k l).inboundEnded = c.inboundEnded.shift k l := by
  have hcloseWait := shift_replyIfIdle k l { c with lingerAfterStreamsFinish := false }
  have hlinger := shift_replyIfIdle k l { c with timeWait := true }
  unfold inboundEnded
  show (if (!c.sender.unAckQueue.finSent) = true then
      (shift k l { c with lingerAfterStreamsFinish := false }).replyIfIdle
    else (shift k l { c with timeWait := true }).replyIfIdle) = _
  rw [hcloseWait, hlinger]
  split_ifs <;> rfl

theorem shift_synRecvReceived :
    (c.shift k l).synRecvReceived (seg.shiftIn k l) = (c.synRecvReceived seg).shift k l := by
  have hlength : (seg.shiftIn k l).lengthInSequenceSpace = seg.lengthInSequenceSpace := rfl
  have hack : ∀ c : TCPConnection,
      ((c.shift k l).ackReceived (seg.shiftIn k l).header).fill
        = ((c.ackReceived seg.header).fill).shift k l := by
    intro c
    rw [shift_ackReceived, shift_fill]
  have hended : ∀ c : TCPConnection, (c.shift k l).receiverFINRecv = c.receiverFINRecv := by
    intro c
    show (c.receiver.shift l).streamOut.inputEnded = _
    rw [TCPReceiver.shift_streamOut]
    rfl
  unfold synRecvReceived
  show (if seg.header.syn = true then c.shift k l else _) = _
  dsimp only
  rw [hlength, shift_onlyIf k l c (f := fun c => c.receive seg) _ (shift_receive k l c seg),
    shift_onlyIf k l _ (f := fun c => (c.ackReceived seg.header).fill) _ (hack _),
    shift_onlyIf k l _ (f := replyIfIdle) _ (shift_replyIfIdle k l _), hended,
    shift_onlyIf k l _ (f := inboundEnded) _ (shift_inboundEnded k l _)]
  split_ifs <;> rfl

theorem shift_segmentReceived :
    (c.shift k l).segmentReceived (seg.shiftIn k l) = (c.segmentReceived seg).shift k l := by
  have hlisten : (c.shift k l).receiver.ackno = none ↔ c.receiver.ackno = none := by
    show (c.receiver.shift l).ackno = none ↔ _
    rw [TCPReceiver.shift_ackno, Option.map_eq_none_iff]
  have hended : (c.shift k l).receiver.streamOut = c.receiver.streamOut :=
    TCPReceiver.shift_streamOut l c.receiver
  have hreceived : (c.shift k l).received = c.received.shift k l := rfl
  rw [segmentReceived_eq, segmentReceived_eq, shift_outOfOrder, hended, hreceived,
    shift_outOfOrderReceived, shift_uncleanShutdown, shift_finRecvReceived, shift_listenReceived,
    shift_synRecvReceived]
  simp only [hlisten, apply_ite (shift k l)]
  rfl

/-! ### Time -/

section

variable {k l c}

/-- A RST is made from what heads the queue. -/
theorem shift_sendRSTSeg : (c.shift k l).sendRSTSeg = c.sendRSTSeg.shift k l := by
  cases hqueue : c.segmentsOut ++ c.sender.segmentsOut with
  | cons first rest =>
      have hqueue' : (c.shift k l).segmentsOut ++ (c.shift k l).sender.segmentsOut
          = first.shiftOut k l :: rest.map (TCPSegment.shiftOut k l) := by
        show c.segmentsOut.map _ ++ c.sender.segmentsOut.map _ = _
        rw [← List.map_append, hqueue, List.map_cons]
      rw [sendRSTSeg_of_cons hqueue, sendRSTSeg_of_cons hqueue']
      rfl
  | nil =>
      have hqueue' : (c.shift k l).segmentsOut ++ (c.shift k l).sender.segmentsOut = [] := by
        show c.segmentsOut.map _ ++ c.sender.segmentsOut.map _ = _
        rw [← List.map_append, hqueue, List.map_nil]
      unfold sendRSTSeg
      rw [hqueue, hqueue', ← shift_updateOutput]
      show updateOutput { c.shift k l with sender := { c.sender.shift k l with
        segmentsOut := [rstSeg (wrap c.sender.unAckQueue.nextSeqno (c.sender.isn.shift k))] } } = _
      rw [WrappingInt32.wrap_shift]
      rfl

theorem shift_ticked (junk : Nat → UInt8) (ms : Nat)
    (hdue : c.sender.timer.expires ms = true → k = 0#32 ∨ ¬c.sender.NothingDue) :
    (c.shift k l).ticked junk ms = (c.ticked junk ms).shift k l := by
  unfold ticked
  rw [← shift_updateOutput]
  congr 1
  exact shift_onSender k l { c with
    timeSinceLastSegmentReceived := add64 c.timeSinceLastSegmentReceived ms }
    (TCPSender.shift_tick k l c.sender junk ms hdue)

/-- The connection when a timeout had nothing to retransmit. -/
theorem ticked_of_nothingDue (junk : Nat → UInt8) (ms : Nat)
    (hexp : c.sender.timer.expires ms = true) (hdue : c.sender.NothingDue) :
    c.ticked junk ms = { c with
      timeSinceLastSegmentReceived := add64 c.timeSinceLastSegmentReceived ms
      segmentsOut := c.segmentsOut ++ c.sender.segmentsOut.map (withAck c.receiver) ++
        [withAck c.receiver {}]
      sender := { c.sender with timer := c.sender.timer.retransmitted, segmentsOut := [] } } := by
  have hsend : c.sender.tick junk ms = { c.sender with
      timer := c.sender.timer.retransmitted
      segmentsOut := c.sender.segmentsOut ++ [{}] } := by
    have hblank := TCPSender.retransmitSeg_of_nothingDue junk
      (s := { c.sender with timer := c.sender.timer.elapse ms }) hdue
    rw [TCPSender.tick_eq, if_pos hexp]
    unfold TCPSender.timeoutRetransmit
    rw [hblank, if_neg (by simp [hdue.1])]
    rfl
  unfold ticked onSender updateOutput
  dsimp only
  rw [hsend, List.map_append, ← List.append_assoc]
  rfl

theorem shift_abortSeqno (hqueue : c.segmentsOut ++ c.sender.segmentsOut ≠ []) :
    (c.shift k l).abortSeqno = c.abortSeqno.shift k := by
  have hshift : (c.shift k l).segmentsOut ++ (c.shift k l).sender.segmentsOut
      = (c.segmentsOut ++ c.sender.segmentsOut).map (TCPSegment.shiftOut k l) :=
    List.map_append.symm
  unfold abortSeqno
  rw [hshift]
  cases hcases : c.segmentsOut ++ c.sender.segmentsOut with
  | nil => exact absurd hcases hqueue
  | cons first rest => rfl

/-- Time commutes with the shift, unless a timeout sends a segment without any field set. -/
theorem shift_tick (junk : Nat → UInt8) (ms : UInt64)
    (hblank : k = 0#32 ∨ ¬c.SendsBlank (.tick ms)) :
    (c.shift k l).tick junk ms.toNat = (c.tick junk ms.toNat).shift k l := by
  by_cases hactive : c.active = true
  swap
  · have hend : c.active = false := by simpa using hactive
    rw [tick_of_inactive junk ms.toNat hend, tick_of_inactive (c := c.shift k l) junk ms.toNat hend]
  by_cases hdue : c.sender.timer.expires ms.toNat = true → k = 0#32 ∨ ¬c.sender.NothingDue
  · -- the count, the flags and the time are the same, so that both take the same branch
    have hcount : ((c.ticked junk ms.toNat).shift k l).sender.consecutiveRetransmissions
        = (c.ticked junk ms.toNat).sender.consecutiveRetransmissions := rfl
    rw [tick_eq junk ms.toNat hactive, tick_eq (c := c.shift k l) junk ms.toNat hactive,
      shift_ticked junk ms.toNat hdue, hcount, shift_sendRSTSeg, shift_uncleanShutdown]
    simp only [apply_ite (shift k l)]
    rfl
  · -- the segment is dropped together with what was queued before it
    simp only [Classical.not_imp, not_or, not_not] at hdue
    obtain ⟨hexp, hk, hnothing⟩ := hdue
    have hgone := (or_iff_right hk).mp hblank
    simp only [SendsBlank, hactive, hexp, hnothing, true_and, not_or, Nat.not_le] at hgone
    obtain ⟨hqueue, hover⟩ := hgone
    have hticked := ticked_of_nothingDue junk ms.toNat hexp hnothing
    have hticked' := ticked_of_nothingDue (c := c.shift k l) junk ms.toNat hexp hnothing
    rw [tick_of_over junk ms.toNat hactive hexp hnothing.1 (by rw [hticked]; exact hover),
      tick_of_over (c := c.shift k l) junk ms.toNat hactive hexp hnothing.1
        (by rw [hticked']; exact hover), shift_abortSeqno hqueue, hticked, hticked',
      ← shift_uncleanShutdown]
    rfl

/-- What a timeout with nothing to retransmit leaves at the end of the queue. -/
theorem tick_of_sendsBlank (junk : Nat → UInt8) {ms : UInt64} (h : c.SendsBlank (.tick ms)) :
    ∃ queue, ∃ seg : TCPSegment, (c.tick junk ms.toNat).segmentsOut = queue ++ [seg] ∧
      seg.header.seqno = ⟨0⟩ := by
  obtain ⟨hactive, hexp, hnothing, hlast⟩ := h
  have hticked := ticked_of_nothingDue junk ms.toNat hexp hnothing
  by_cases hover : TCPConfig.maxRetxAttempts
      < (c.ticked junk ms.toNat).sender.consecutiveRetransmissions
  · -- the RST takes the sequence number of the segment
    have hqueue : c.segmentsOut ++ c.sender.segmentsOut = [] := by
      rw [hticked] at hover
      exact hlast.resolve_right (Nat.not_le.mpr hover)
    have hseqno : c.abortSeqno = ⟨0⟩ := by
      obtain ⟨-, hfin, hsyn, hempty⟩ := hnothing
      unfold abortSeqno
      rw [hqueue]
      show c.sender.repeatSeqno = _
      unfold TCPSender.repeatSeqno
      rw [if_neg (by simp [hfin]), if_neg (by simpa using hsyn),
        if_neg (by simp [UnAckQueue.empty, hempty])]
    rw [tick_of_over junk ms.toNat hactive hexp hnothing.1 hover, hseqno]
    exact ⟨[], _, rfl, rfl⟩
  · have hout : (c.tick junk ms.toNat).segmentsOut = (c.ticked junk ms.toNat).segmentsOut := by
      rw [tick_eq junk ms.toNat hactive, if_neg hover]
      split_ifs <;> rfl
    rw [hout, hticked]
    exact ⟨_, _, rfl, withAck_seqno c.receiver {}⟩

end

/-! ### A call -/

/-- **A call on a shifted connection.** -/
theorem step_shift (junk : Nat → UInt8) (op : ConnectionOp) (hblank : k = 0#32 ∨ ¬c.SendsBlank op) :
    (c.shift k l).step junk (op.shift k l) = (c.step junk op).shift k l := by
  cases op with
  | connect => exact shift_fill k l c
  | write data =>
      show ((c.shift k l).write data).1 = (c.write data).1.shift k l
      unfold TCPConnection.write
      split_ifs
      · rfl
      · exact shift_fill k l (c.onSender fun s => (s.writeStream data).1)
  | endInputStream => exact shift_fill k l (c.onSender TCPSender.endStream)
  | tick ms => exact shift_tick junk ms hblank
  | segmentReceived seg => exact shift_segmentReceived k l c seg
  | readInbound len =>
      show { c.shift k l with receiver := ((c.receiver.shift l).readOutput len).2 }
        = shift k l { c with receiver := (c.receiver.readOutput len).2 }
      rw [TCPReceiver.shift_readOutput]
      rfl
  | popSegment =>
      show { c.shift k l with segmentsOut := (c.segmentsOut.map (TCPSegment.shiftOut k l)).tail }
        = shift k l { c with segmentsOut := c.segmentsOut.tail }
      rw [← List.map_tail]
      rfl

end

end TCPConnection

/-! ## Runs -/

/-- Two segments that differ in their sequence numbers only, by a shift of the own ones by `k`
and of the peer's by `l`. -/
def TCPSegment.Shifted (k l : BitVec 32) (seg seg' : TCPSegment) : Prop :=
  seg'.header.seqno = seg.header.seqno.shift k ∧
    (seg.header.ack = true → seg'.header.ackno = seg.header.ackno.shift l) ∧
    { seg' with
      header := { seg'.header with
        seqno := seg.header.seqno
        ackno := seg.header.ackno } } = seg

instance (k l : BitVec 32) (seg seg' : TCPSegment) : Decidable (seg.Shifted k l seg') :=
  inferInstanceAs (Decidable (_ ∧ (_ → _) ∧ _))

theorem shifted_shiftOut (k l : BitVec 32) (seg : TCPSegment) : seg.Shifted k l (seg.shiftOut k l) :=
  ⟨rfl, fun hack => if_pos hack, rfl⟩

/-- A connection with the segments taken from its queue and the bytes read from its inbound
stream. -/
structure Observed where
  conn : TCPConnection
  sent : List TCPSegment := []
  delivered : Bytes := []

namespace Observed

def new (cfg : TCPConfig) (isn : WrappingInt32) : Observed := { conn := TCPConnection.new cfg isn }

def step (junk : Nat → UInt8) (o : Observed) (op : ConnectionOp) : Observed :=
  { conn := o.conn.step junk op
    sent :=
      match op with
      | .popSegment => o.sent ++ o.conn.popSegment.1.toList
      | _ => o.sent
    delivered :=
      match op with
      | .readInbound len => o.delivered ++ (o.conn.readInbound len).1
      | _ => o.delivered }

def shift (k l : BitVec 32) (o : Observed) : Observed :=
  { o with
    conn := o.conn.shift k l
    sent := o.sent.map (TCPSegment.shiftOut k l) }

/-- Two connections that show the same to their owners and, up to the shift, to their peers. -/
structure InStep (k l : BitVec 32) (o o' : Observed) : Prop where
  segments : List.Forall₂ (TCPSegment.Shifted k l) (o.sent ++ o.conn.segmentsOut)
    (o'.sent ++ o'.conn.segmentsOut)
  delivered : o'.delivered = o.delivered
  streamOut : o'.conn.receiver.streamOut = o.conn.receiver.streamOut
  active : o'.conn.active = o.conn.active
  state : o'.conn.state = o.conn.state
  bytesInFlight : o'.conn.bytesInFlight = o.conn.bytesInFlight
  unassembledBytes : o'.conn.unassembledBytes = o.conn.unassembledBytes

section

variable (k l : BitVec 32) (o : Observed)

theorem shift_inStep : o.InStep k l (o.shift k l) where
  segments := by
    have hqueue : (o.shift k l).sent ++ (o.shift k l).conn.segmentsOut
        = (o.sent ++ o.conn.segmentsOut).map (TCPSegment.shiftOut k l) := List.map_append.symm
    rw [hqueue, List.forall₂_map_right_iff, List.forall₂_same]
    exact fun seg _ => shifted_shiftOut k l seg
  delivered := rfl
  streamOut := TCPReceiver.shift_streamOut l o.conn.receiver
  active := rfl
  state := by
    have hreceiver : (o.conn.receiver.shift l).stateSummary = o.conn.receiver.stateSummary := by
      unfold TCPReceiver.stateSummary
      rw [TCPReceiver.shift_streamOut, TCPReceiver.shift_ackno, Option.isNone_map]
    show { o.conn.state with receiver := (o.conn.receiver.shift l).stateSummary } = _
    rw [hreceiver]
    rfl
  bytesInFlight := rfl
  unassembledBytes := by
    show (o.conn.receiver.shift l).reassembler.unassembledBytes = _
    rw [TCPReceiver.shift_reassembler]
    rfl

/-- What one call preserves. -/
theorem step_shift (junk : Nat → UInt8) (op : ConnectionOp)
    (hblank : k = 0#32 ∨ ¬o.conn.SendsBlank op) :
    (o.shift k l).step junk (op.shift k l) = (o.step junk op).shift k l := by
  have hconn := TCPConnection.step_shift k l o.conn junk op hblank
  have hsent : ((o.shift k l).step junk (op.shift k l)).sent
      = (o.step junk op).sent.map (TCPSegment.shiftOut k l) := by
    cases op with
    | popSegment =>
        show o.sent.map (TCPSegment.shiftOut k l) ++
            ((o.conn.segmentsOut.map (TCPSegment.shiftOut k l)).head?).toList
          = (o.sent ++ o.conn.segmentsOut.head?.toList).map (TCPSegment.shiftOut k l)
        rw [List.map_append, List.head?_map, Option.toList_map]
    | connect | write _ | endInputStream | tick _ | segmentReceived _ | readInbound _ => rfl
  have hdelivered : ((o.shift k l).step junk (op.shift k l)).delivered
      = (o.step junk op).delivered := by
    cases op with
    | readInbound len =>
        show o.delivered ++ ((o.conn.receiver.shift l).readOutput len).1 = _
        rw [TCPReceiver.shift_readOutput]
        rfl
    | connect | write _ | endInputStream | tick _ | segmentReceived _ | popSegment => rfl
  have heq : ∀ p q : Observed, p.conn = q.conn → p.sent = q.sent → p.delivered = q.delivered →
      p = q := by
    rintro ⟨⟩ ⟨⟩ rfl rfl rfl
    rfl
  exact heq _ _ hconn hsent hdelivered

/-- A run without such a timeout. -/
theorem run_shift (junk : Nat → UInt8) {ops : List ConnectionOp} :
    ∀ o : Observed,
      k = 0#32 ∨ Admits (step junk) (fun o op => ¬o.conn.SendsBlank op) o ops →
      run (step junk) (o.shift k l) (ops.map (ConnectionOp.shift k l))
        = (run (step junk) o ops).shift k l := by
  induction ops with
  | nil => exact fun _ _ => rfl
  | cons op ops ih =>
      intro o hok
      rw [List.map_cons, run_cons, run_cons, step_shift k l o junk op (hok.imp_right And.left)]
      exact ih _ (hok.imp_right And.right)

/-- A timeout with nothing to retransmit sends the same sequence number wherever the stream
started. -/
theorem eq_zero_of_inStep (junk : Nat → UInt8) {op : ConnectionOp} (hblank : o.conn.SendsBlank op)
    (h : (o.step junk op).InStep k l ((o.shift k l).step junk (op.shift k l))) : k = 0#32 := by
  cases op with
  | tick ms =>
      have hblank' : (o.conn.shift k l).SendsBlank (.tick ms) := by
        obtain ⟨hactive, hexp, hnothing, hlast⟩ := hblank
        refine ⟨hactive, hexp, hnothing, hlast.imp_left ?_⟩
        intro hqueue
        show o.conn.segmentsOut.map _ ++ o.conn.sender.segmentsOut.map _ = []
        rw [← List.map_append, hqueue, List.map_nil]
      obtain ⟨queue, seg, hout, hseqno⟩ := TCPConnection.tick_of_sendsBlank junk hblank
      obtain ⟨queue', seg', hout', hseqno'⟩ := TCPConnection.tick_of_sendsBlank junk hblank'
      have hsegments := h.segments
      change List.Forall₂ _ (o.sent ++ (o.conn.tick junk ms.toNat).segmentsOut)
        (_ ++ ((o.conn.shift k l).tick junk ms.toNat).segmentsOut) at hsegments
      rw [hout, hout', ← List.append_assoc, ← List.append_assoc, ← List.forall₂_reverse_iff,
        List.reverse_concat, List.reverse_concat] at hsegments
      -- the last segments of the two queues
      have hlast : seg.Shifted k l seg' := (List.forall₂_cons.mp hsegments).1
      have hshift := hlast.1
      rw [hseqno, hseqno'] at hshift
      exact WrappingInt32.shift_eq_self k hshift.symm
  | connect | write _ | endInputStream | segmentReceived _ | readInbound _ | popSegment =>
      exact absurd hblank id

end

/-- **Which runs do not depend on the initial sequence numbers.** Shift the own numbers by `k`
and those of the peer by `l`. The two runs stay in step, in every state, exactly if `k` is zero
or no timeout finds nothing to retransmit. -/
theorem run_inStep_iff (junk : Nat → UInt8) (cfg : TCPConfig) (isn : WrappingInt32)
    (k l : BitVec 32) (ops : List ConnectionOp) :
    (∀ before after, ops = before ++ after →
      InStep k l (run (step junk) (new cfg isn) before)
        (run (step junk) (new (cfg.shift k) (isn.shift k))
          (before.map (ConnectionOp.shift k l)))) ↔
      k = 0#32 ∨ Admits (step junk) (fun o op => ¬o.conn.SendsBlank op) (new cfg isn) ops := by
  have hnew : new (cfg.shift k) (isn.shift k) = (new cfg isn).shift k l := by
    unfold new shift
    rw [TCPConnection.shift_new k l]
    rfl
  rw [hnew]
  constructor
  · generalize new cfg isn = o
    intro hall
    by_cases hk : k = 0#32
    · exact Or.inl hk
    apply Or.inr
    -- the first timeout that sends a segment without any field set ends the induction
    induction ops generalizing o with
    | nil => trivial
    | cons op ops ih =>
        have hop : ¬o.conn.SendsBlank op := fun hblank =>
          hk (eq_zero_of_inStep k l o junk hblank (hall [op] ops rfl))
        refine ⟨hop, ih (o.step junk op) ?_⟩
        intro before after hops
        have hnext := hall (op :: before) after (by rw [hops, List.cons_append])
        rwa [List.map_cons, run_cons, run_cons, step_shift k l o junk op (Or.inr hop)] at hnext
  · rintro hok before after rfl
    rw [run_shift k l junk _ (hok.imp_right fun h => (admits_append.mp h).1)]
    exact shift_inStep k l _

/-- **A raw zero on the wire.** A SYN that acknowledges the own SYN arrives before this is sent.
The timeout then has nothing to retransmit, and sends sequence number zero in both runs. -/
theorem earlyAck_not_inStep :
    let ops : List ConnectionOp :=
      [.segmentReceived { header := { syn := true, ack := true, ackno := ⟨1⟩ } }, .tick 1000]
    ¬InStep 1 0 (run (step fun _ => 0) (new {} ⟨0⟩) ops)
      (run (step fun _ => 0) (new {} ⟨1⟩) (ops.map (ConnectionOp.shift 1 0))) := by
  intro ops h
  exact absurd h.segments (by decide +kernel)

end Observed

end Sponge
