import Sponge.Connection.Shutdown
import Sponge.Receiver.Machine

set_option autoImplicit false

/-! # Which RST segments are accepted

A RST should reset a connection only if it is acceptable: never before the handshake, in
answer to the connection's own SYN only with an acknowledgment of that SYN, and afterwards
only inside the receive window. The connection looks at a RST only behind the branch for
out-of-order segments, which takes short segments without SYN that are not the next ones.
Every RST that does not go there resets an active connection (`rst_ignored_iff`). -/

namespace Sponge

open Word

namespace TCPConnection

/-- The acknowledgment number acknowledges the SYN that was sent. -/
def AcksSyn (c : TCPConnection) (ackno : WrappingInt32) : Prop :=
  ∃ k < c.sender.nextSeqnoAbsolute + 1, 1 ≤ k ∧ ackno = wrap k c.sender.isn

instance (c : TCPConnection) (ackno : WrappingInt32) : Decidable (c.AcksSyn ackno) :=
  inferInstanceAs (Decidable (∃ k < _, _))

/-- A RST segment that may reset the connection: in front of the peer's SYN it answers the SYN
that was sent, and after it the sequence number is in the window, or the next one when the
window is empty. -/
def RstAcceptable (c : TCPConnection) (seg : TCPSegment) : Prop :=
  (c.receiver.ackno = none ∧ c.sender.unAckQueue.synSent = true ∧ seg.header.ack = true ∧
      c.AcksSyn seg.header.ackno) ∨
    (c.receiver.ackno ≠ none ∧ c.receiver.ackPos ≤ c.receiver.absSeqno seg ∧
      c.receiver.absSeqno seg < c.receiver.ackPos + max c.receiver.windowSize 1)

instance (c : TCPConnection) (seg : TCPSegment) : Decidable (c.RstAcceptable seg) :=
  inferInstanceAs (Decidable (_ ∧ _ ∨ _ ∧ _))

/-- Whether the connection is active, and the error flags of the outbound and the inbound
stream. -/
def status (c : TCPConnection) : Bool × Bool × Bool :=
  (c.active, c.sender.stream.error, c.receiver.streamOut.error)

section

variable {c : TCPConnection} {seg : TCPSegment}

theorem fillWindow_error {s : TCPSender} {data : Bytes} (h : s.Sound data) :
    s.fillWindow.stream.error = s.stream.error := by
  have hrule : s.fillWindow.Sound data ∧ s.fillWindow.stream.error = s.stream.error := by
    refine TCPSender.fillWindow_rule
      (P := fun s' => s'.Sound data ∧ s'.stream.error = s.stream.error)
      (fun _ h' => ⟨data, h'.1.carries⟩) ?_ ⟨h, rfl⟩
    rintro s' s'' seg ⟨h', herror⟩ hs
    refine ⟨h'.sends hs, ?_⟩
    rw [hs.stream_eq]
    exact herror
  exact hrule.2

/-- The branch for out-of-order segments resets nothing. -/
theorem outOfOrderReceived_status (h : ∃ data, c.sender.Sound data) :
    (c.outOfOrderReceived seg).status = c.status := by
  obtain ⟨hflags, hrecv⟩ := outOfOrderReceived_frame c seg
  have hactive : (c.outOfOrderReceived seg).active = c.active := congrArg Flags.active hflags
  have hinbound : (c.outOfOrderReceived seg).receiver.streamOut.error
      = c.receiver.streamOut.error := by
    rw [hrecv]
    exact c.receiver.segmentReceived_error seg
  have houtbound : (c.outOfOrderReceived seg).sender.stream.error = c.sender.stream.error := by
    obtain ⟨data, hs⟩ := h
    have hack : ((c.sender.ackReceived seg.header.ackno seg.header.win).fillWindow).stream.error
        = c.sender.stream.error := by
      rw [fillWindow_error (hs.ackReceived _ _), (TCPSender.ackReceived_frame _ _ _).2.1]
    unfold outOfOrderReceived nonempty onlyIf
    split_ifs
    · exact hack
    · exact hack
    · rfl
    · rfl
  unfold status
  rw [hactive, houtbound, hinbound]

end

/-- **When an unacceptable RST is ignored**: exactly when the connection is over, or the RST is
taken for an out-of-order segment. -/
theorem rst_ignored_iff (junk : Nat → UInt8) (cfg : TCPConfig) (isn : WrappingInt32)
    (ops : List ConnectionOp) (seg : TCPSegment) (hrst : seg.header.rst = true) :
    let c := after junk cfg isn ops
    (¬c.RstAcceptable seg → (c.segmentReceived seg).status = c.status) ↔
      c.active = false ∨ c.outOfOrder seg = true ∨ c.RstAcceptable seg := by
  intro c
  have hsound : ∃ data, c.sender.Sound data := after_sound junk cfg isn ops
  constructor
  · intro hprop
    by_contra hcond
    simp only [not_or, Bool.not_eq_false, Bool.not_eq_true] at hcond
    obtain ⟨hactive, hout, hacc⟩ := hcond
    have hstatus := congrArg Prod.fst (hprop hacc)
    rw [segmentReceived_eq, if_pos hactive, if_neg (by simp [hout]), if_pos hrst] at hstatus
    exact absurd (hstatus.trans hactive) Bool.false_ne_true
  · rintro (hactive | hout | hacc) hnot
    · rw [segmentReceived_of_inactive seg hactive]
    · rw [segmentReceived_eq]
      split_ifs with hactive
      · exact outOfOrderReceived_status (c := c.received) hsound
      · rfl
    · exact absurd hacc hnot

/-- A RST far from the window of a connection that has the peer's SYN. -/
theorem farRst_ignored :
    let c := after (fun _ => 0) {} ⟨0⟩ [.segmentReceived { header := { syn := true } }]
    let seg : TCPSegment := { header := { seqno := ⟨70000⟩, rst := true } }
    c.active = true ∧ ¬c.RstAcceptable seg ∧ (c.segmentReceived seg).status = c.status := by
  intro c seg
  have hout : c.outOfOrder seg = true := by decide +kernel
  have hacc : ¬c.RstAcceptable seg := by decide +kernel
  exact ⟨by decide +kernel, hacc, (rst_ignored_iff (fun _ => 0) {} ⟨0⟩
    [.segmentReceived { header := { syn := true } }] seg rfl).mpr (Or.inr (Or.inl hout)) hacc⟩

/-- **A RST in LISTEN resets the connection.** -/
theorem listenRst_resets :
    let c := after (fun _ => 0) {} ⟨0⟩ []
    let seg : TCPSegment := { header := { rst := true } }
    ¬c.RstAcceptable seg ∧ c.status = (true, false, false) ∧
      (c.segmentReceived seg).status = (false, true, true) := by
  decide +kernel

end TCPConnection

end Sponge
