import Sponge.Connection.Machine
import Sponge.Reassembler.Push

set_option autoImplicit false

/-! # The flags of a connection

Whether a connection is over is decided by its own flags, by the end of the inbound stream and
by the acknowledgment of the FIN. This file says for every branch of `segment_received` and for
the passage of time how these change. -/

namespace Sponge

open Word

/-! ## The acknowledgment of the FIN -/

namespace TCPSender

theorem fillWindow_finAcked {s : TCPSender} {data : Bytes} (h : s.Sound data) :
    s.fillWindow.unAckQueue.finAcked = s.unAckQueue.finAcked := by
  refine (fillWindow_rule
    (P := fun s' => s'.Sound data ∧ s'.unAckQueue.finAcked = s.unAckQueue.finAcked)
    (fun s' h' => ⟨data, h'.1.carries⟩) ?_ ⟨h, rfl⟩).2
  rintro s' s'' seg ⟨h', heq⟩ hsend
  exact ⟨h'.sends hsend, by rw [hsend.finAcked_eq, ← heq, hsend.finAcked_before]⟩

theorem tick_finAcked (junk : Nat → UInt8) (s : TCPSender) (ms : Nat) :
    (s.tick junk ms).unAckQueue.finAcked = s.unAckQueue.finAcked := by
  obtain ⟨q, timer, segs, heq, hq⟩ := tick_frame junk s ms
  rw [heq]
  rcases hq with rfl | ⟨-, rfl⟩ <;> rfl

/-- Once the FIN is acknowledged, time does not change the queue. -/
theorem tick_of_finAcked (junk : Nat → UInt8) {s : TCPSender} (ms : Nat)
    (hfin : s.unAckQueue.finAcked = true) :
    (s.tick junk ms).unAckQueue = s.unAckQueue := by
  obtain ⟨q, timer, segs, heq, hq⟩ := tick_frame junk s ms
  rw [heq]
  rcases hq with rfl | ⟨⟨-, -, -, hnot, -⟩, -⟩
  · rfl
  · exact absurd (hnot.symm.trans hfin) (by simp)

/-- The FIN becomes acknowledged only by its own acknowledgment. -/
theorem ackReceived_finAcked {s : TCPSender} {ackno : WrappingInt32} {w : UInt16}
    (hfin : ¬(s.unAckQueue.finSent = true ∧ s.absAckno ackno = s.unAckQueue.nextSeqno)) :
    (s.ackReceived ackno w).unAckQueue.finAcked = s.unAckQueue.finAcked := by
  rw [ackReceived_eq]
  split_ifs with hign
  · rfl
  · have hbase := base_lt_of_not_ignores w hign
    rcases UnAckQueue.updateBase_cases hbase with ⟨-, heq⟩ | ⟨-, hf, hn, -⟩ | ⟨-, hf, hn, -⟩ |
        ⟨-, -, -, heq⟩ | ⟨-, hf, -, heq⟩
    · rw [heq]; rfl
    · exact absurd ⟨hf, hn⟩ hfin
    · exact absurd ⟨hf, hn⟩ hfin
    · rw [heq]; rfl
    · obtain ⟨sizes, e, -, -, heq'⟩ := UnAckQueue.erase_spec hbase hf
      rw [heq, heq']; rfl

/-- An acknowledged FIN leaves nothing in flight. -/
def FinDone (s : TCPSender) : Prop :=
  s.unAckQueue.finAcked = true → s.unAckQueue.baseSqn = s.unAckQueue.nextSeqno

theorem FinDone.fillWindow {s : TCPSender} {data : Bytes} (hd : s.FinDone) (h : s.Sound data) :
    s.fillWindow.FinDone := by
  refine (fillWindow_rule (P := fun s => s.Sound data ∧ s.FinDone)
    (fun s' h' => ⟨data, h'.1.carries⟩) ?_ ⟨h, hd⟩).2
  rintro s' s'' seg ⟨h', -⟩ hsend
  exact ⟨h'.sends hsend, fun hf => absurd hf (by simp [hsend.finAcked_eq])⟩

/-- When the SYN was acknowledged before, the acknowledgment of the FIN completes the queue. -/
theorem FinDone.ackReceived {s : TCPSender} {data : Bytes} (hd : s.FinDone) (h : s.Sound data)
    {ackno : WrappingInt32} (w : UInt16)
    (hsyn : s.unAckQueue.synAcked = false → s.unAckQueue.finSent = true →
      s.absAckno ackno ≠ s.unAckQueue.nextSeqno) : (s.ackReceived ackno w).FinDone := by
  rw [ackReceived_eq]
  split_ifs with hign
  · exact hd
  · have hbase := base_lt_of_not_ignores w hign
    simp only [Ignores, not_or, not_and] at hign
    -- an acknowledged FIN would have the base at the end already
    have hnot : s.unAckQueue.finAcked = false := by
      by_contra hfa
      have hfa' : s.unAckQueue.finAcked = true := by simpa using hfa
      have := hd hfa'
      have := hign.1 (h.fin_sent hfa')
      omega
    rcases UnAckQueue.updateBase_cases hbase with ⟨-, heq⟩ | ⟨-, hf, hn, hu, heq⟩ |
        ⟨-, hf, hn, -, heq⟩ | ⟨-, -, -, heq⟩ | ⟨-, hf, -, heq⟩
    · rw [heq]
      exact fun hfa => absurd (hnot.symm.trans hfa) (by simp)
    · rw [heq]
      intro _
      show s.unAckQueue.baseSqn + 1 = s.unAckQueue.nextSeqno
      have hsyn' : s.unAckQueue.synAcked = true := by
        by_contra hns
        exact hsyn (by simpa using hns) hf hn
      have hcov := h.covered hsyn'
      have hu' : s.unAckQueue.unAcked = [] := hu
      have hf' : s.unAckQueue.finSent = true := hf
      have hn' : s.absAckno ackno = s.unAckQueue.nextSeqno := hn
      have hnext := h.next_eq
      rw [hf', if_pos rfl] at hnext
      rw [hu', List.length_nil] at hcov
      split_ifs at hnext <;> omega
    · rw [heq]
      exact fun _ => hn
    · rw [heq]
      exact fun hfa => absurd (hnot.symm.trans hfa) (by simp)
    · obtain ⟨sizes, e, -, -, heq'⟩ := UnAckQueue.erase_spec hbase hf
      rw [heq, heq']
      exact fun hfa => absurd (hnot.symm.trans hfa) (by simp)

/-- With the FIN acknowledged and nothing in flight, all that was written has arrived. -/
theorem Sound.written_of_finAcked {s : TCPSender} {data : Bytes} (h : s.Sound data)
    (hfin : s.unAckQueue.finAcked = true) :
    s.stream.inputEnded = true ∧ s.unAckQueue.nextSeqno = s.stream.bytesWritten + 2 := by
  have hsent := h.fin_sent hfin
  have heof := h.fin_eof hsent
  have hread := h.carries.read_eq_of_eof heof
  have hwritten := h.carries.written
  have hnext := h.next_eq
  have hsyn : s.unAckQueue.synSent = true := by
    by_contra hns
    have := h.fresh (by simpa using hns)
    rw [hsent, if_pos rfl] at hnext
    omega
  rw [hsyn, hsent, if_pos rfl] at hnext
  simp only [ByteStream.eof, Bool.and_eq_true] at heof
  refine ⟨heof.2, ?_⟩
  show s.unAckQueue.nextSeqno = s.stream.numBytesWritten + 2
  omega

end TCPSender

/-! ## The end of the inbound stream -/

theorem TCPReceiver.segmentReceived_ended {r : TCPReceiver} (seg : TCPSegment)
    (h : r.streamOut.inputEnded = true) : (r.segmentReceived seg).streamOut.inputEnded = true := by
  have hpush : ∀ (r : TCPReceiver) index, r.streamOut.inputEnded = true →
      (r.push seg index).streamOut.inputEnded = true := by
    intro r index h
    show (r.reassembler.pushSubstring seg.payload index seg.header.fin).output.isInputEnd = true
    rw [StreamReassembler.pushSubstring_of_ended _ _ _ h]
    exact h
  unfold TCPReceiver.segmentReceived
  split_ifs
  · exact h
  · exact hpush _ 0 h
  · exact hpush r _ h
  · exact h

namespace TCPConnection

/-- The inbound stream has ended. -/
def Ended (c : TCPConnection) : Prop := c.receiver.streamOut.inputEnded = true

theorem stable_ended : Stable Ended where
  flags := fun _ _ _ _ _ h => h
  fillWindow := fun _ h => h
  sendEmptySegment := fun _ h => h
  updateOutput := fun _ h => h
  uncleanShutdown := fun _ h => h

theorem sendRSTSeg_receiver (c : TCPConnection) : c.sendRSTSeg.receiver = c.receiver := by
  unfold sendRSTSeg
  split <;> rfl

/-- Once ended, the inbound stream stays so. -/
theorem Ended.step {c : TCPConnection} (h : c.Ended) (junk : Nat → UInt8) (op : ConnectionOp) :
    (c.step junk op).Ended := by
  cases op with
  | connect => exact h
  | write data =>
      show (c.write data).1.Ended
      unfold TCPConnection.write
      split_ifs <;> exact h
  | endInputStream => exact h
  | tick ms =>
      refine tick_rule stable_ended (fun c' h' _ => h') (fun c' h' => ?_) h
      show c'.sendRSTSeg.receiver.streamOut.inputEnded = true
      rw [sendRSTSeg_receiver]
      exact h'
  | segmentReceived seg =>
      exact segmentReceived_rule stable_ended (fun h' => c.receiver.segmentReceived_ended seg h')
        (fun _ _ h' _ => h') h
  | readInbound len => exact h
  | popSegment => exact h

/-! ## The flags -/

/-- The configuration and the flags that decide when a connection is over. -/
structure Flags where
  cfg : TCPConfig
  linger : Bool
  active : Bool
  time : Nat
  timeWait : Bool

def flags (c : TCPConnection) : Flags :=
  ⟨c.cfg, c.lingerAfterStreamsFinish, c.active, c.timeSinceLastSegmentReceived, c.timeWait⟩

section

variable {c : TCPConnection} {seg : TCPSegment}

theorem onlyIf_flags {b : Bool} {f : TCPConnection → TCPConnection}
    (hf : ∀ c, (f c).flags = c.flags) (c : TCPConnection) : (c.onlyIf b f).flags = c.flags := by
  unfold onlyIf
  split_ifs
  · exact hf c
  · rfl

theorem onlyIf_receiver {b : Bool} {f : TCPConnection → TCPConnection}
    (hf : ∀ c, (f c).receiver = c.receiver) (c : TCPConnection) :
    (c.onlyIf b f).receiver = c.receiver := by
  unfold onlyIf
  split_ifs
  · exact hf c
  · rfl

theorem replyIfIdle_flags : c.replyIfIdle.flags = c.flags :=
  onlyIf_flags (f := reply) (fun _ => rfl) c

theorem replyIfIdle_receiver : c.replyIfIdle.receiver = c.receiver :=
  onlyIf_receiver (f := reply) (fun _ => rfl) c

theorem replyIfIdle_queue : c.replyIfIdle.sender.unAckQueue = c.sender.unAckQueue := by
  unfold replyIfIdle onlyIf
  split_ifs <;> rfl

/-! ### The branches -/

theorem outOfOrderReceived_frame (c : TCPConnection) (seg : TCPSegment) :
    (c.outOfOrderReceived seg).flags = c.flags ∧
      (c.outOfOrderReceived seg).receiver = c.receiver.segmentReceived seg := by
  unfold outOfOrderReceived nonempty onlyIf
  split_ifs <;> exact ⟨rfl, rfl⟩

theorem listenReceived_flags : (c.listenReceived seg).flags = c.flags := by
  unfold listenReceived
  split_ifs
  · rw [replyIfIdle_flags]
    exact onlyIf_flags (f := fun c => c.ackReceived seg.header) (fun _ => rfl) (c.receive seg)
  · rfl

theorem listenReceived_receiver (hsyn : seg.header.syn = true) :
    (c.listenReceived seg).receiver = c.receiver.segmentReceived seg := by
  unfold listenReceived
  rw [if_pos hsyn, replyIfIdle_receiver]
  exact onlyIf_receiver (f := fun c => c.ackReceived seg.header) (fun _ => rfl) (c.receive seg)

/-- A segment after the end of the inbound stream ends the connection only when it does not
linger and the FIN is acknowledged; else the flags stay. -/
theorem finRecvReceived_flags (c : TCPConnection) (seg : TCPSegment) :
    (c.finRecvReceived seg).receiver = c.receiver ∧
      ((c.finRecvReceived seg).flags = c.flags ∨
        ((c.finRecvReceived seg).flags = { c.flags with active := false } ∧
          c.lingerAfterStreamsFinish = false ∧
          (c.finRecvReceived seg).sender.unAckQueue.finAcked = true)) := by
  unfold finRecvReceived
  split_ifs with hsyn hlinger
  · exact ⟨rfl, Or.inl rfl⟩
  · -- CLOSE_WAIT or LAST_ACK
    have hflags : (c.onlyIf seg.header.fin reply).flags = c.flags :=
      onlyIf_flags (f := reply) (fun _ => rfl) c
    have hrecv : (c.onlyIf seg.header.fin reply).receiver = c.receiver :=
      onlyIf_receiver (f := reply) (fun _ => rfl) c
    generalize c.onlyIf seg.header.fin reply = c₁ at hflags hrecv
    unfold onlyIf
    split_ifs with hack
    · dsimp only
      unfold closeOrFill
      split_ifs with hfin
      · refine ⟨hrecv, Or.inr ⟨?_, by simpa using hlinger, hfin⟩⟩
        rw [← hflags]
        rfl
      · exact ⟨hrecv, Or.inl hflags⟩
    · exact ⟨hrecv, Or.inl hflags⟩
  · unfold onlyIf
    split_ifs <;> exact ⟨rfl, Or.inl rfl⟩

/-- A segment on the open stream: when the stream ends with it, whoever has not sent the FIN
will not linger, and whoever has waits for the linger time. -/
theorem synRecvReceived_flags (seg : TCPSegment) (hopen : ¬c.Ended) :
    (¬(c.synRecvReceived seg).Ended ∧ (c.synRecvReceived seg).flags = c.flags) ∨
    ((c.synRecvReceived seg).Ended ∧
      (c.synRecvReceived seg).sender.unAckQueue.finSent = false ∧
      (c.synRecvReceived seg).flags = { c.flags with linger := false }) ∨
    ((c.synRecvReceived seg).Ended ∧
      (c.synRecvReceived seg).sender.unAckQueue.finSent = true ∧
      (c.synRecvReceived seg).flags = { c.flags with timeWait := true }) := by
  unfold synRecvReceived
  split_ifs with hsyn
  · exact Or.inl ⟨hopen, rfl⟩
  · have hflags : (((c.onlyIf (seg.lengthInSequenceSpace != 0) (fun c => c.receive seg)).onlyIf
        seg.header.ack (fun c => (c.ackReceived seg.header).fill)).onlyIf
          (decide (0 < seg.lengthInSequenceSpace)) replyIfIdle).flags = c.flags := by
      rw [onlyIf_flags (fun _ => replyIfIdle_flags),
        onlyIf_flags (f := fun c => (c.ackReceived seg.header).fill) (fun _ => rfl),
        onlyIf_flags (f := fun c => c.receive seg) (fun _ => rfl)]
    -- the flags depend on the connection in front of the last branch only
    dsimp only
    generalize ((c.onlyIf (seg.lengthInSequenceSpace != 0) (fun c => c.receive seg)).onlyIf
        seg.header.ack (fun c => (c.ackReceived seg.header).fill)).onlyIf
          (decide (0 < seg.lengthInSequenceSpace)) replyIfIdle = c₁ at hflags
    by_cases hended : c₁.receiverFINRecv = true
    · unfold onlyIf
      rw [if_pos hended]
      unfold inboundEnded
      split_ifs with hfin
      · refine Or.inr (Or.inl ⟨?_, ?_, ?_⟩)
        · unfold Ended
          rw [replyIfIdle_receiver]
          exact hended
        · rw [replyIfIdle_queue]
          simpa using hfin
        · rw [replyIfIdle_flags, ← hflags]
          rfl
      · refine Or.inr (Or.inr ⟨?_, ?_, ?_⟩)
        · unfold Ended
          rw [replyIfIdle_receiver]
          exact hended
        · rw [replyIfIdle_queue]
          simpa using hfin
        · rw [replyIfIdle_flags, ← hflags]
          rfl
    · unfold onlyIf
      rw [if_neg hended]
      exact Or.inl ⟨hended, hflags⟩

end

end TCPConnection

end Sponge
