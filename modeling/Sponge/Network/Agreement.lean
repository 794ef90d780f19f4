import Sponge.Connection.Orderly
import Sponge.Network.Delivery

set_option autoImplicit false

/-! # Agreement of the two sides

What the state of one side says about the other: nobody has received a SYN that was not sent, or
considers a SYN or a FIN acknowledged that the peer has not received, and both sides mean the same
initial sequence number (`run_statesAgree`). -/

namespace Sponge

/-- The phase of a sender and that of the receiver of its peer fit together. -/
def TCPSenderStateSummary.Allows : TCPSenderStateSummary → TCPReceiverStateSummary → Prop
  | .error, _ => True
  | _, .error => True
  | .closed, r => r = .listen
  | .synSent, r => r = .listen ∨ r = .synRecv
  | .synAcked, r => r = .synRecv
  | .finSent, r => r = .synRecv ∨ r = .finRecv
  | .finAcked, r => r = .finRecv

instance : ∀ s r, Decidable (TCPSenderStateSummary.Allows s r) := by
  intro s r
  cases s <;> cases r <;> unfold TCPSenderStateSummary.Allows <;> infer_instance

namespace Network

/-- What `x` shows of the direction to `y`, and `y` of it. -/
structure StatesAgree (x y : Endpoint) : Prop where
  isn : y.conn.receiver.synRecv = true → y.conn.receiver.isn = x.conn.sender.isn
  synSent : y.conn.receiver.synRecv = true → x.conn.sender.unAckQueue.synSent = true
  synAcked : x.conn.sender.unAckQueue.synAcked = true → y.conn.receiver.synRecv = true
  finSent : y.conn.receiver.streamOut.inputEnded = true →
    x.conn.sender.unAckQueue.finSent = true
  finAcked : x.conn.sender.finAcked = true → y.conn.receiver.streamOut.inputEnded = true
  phases : x.conn.state.sender.Allows y.conn.state.receiver

section

variable {x y : Endpoint}

/-- The flags of the two sides. -/
theorem link_synSent (h : Link x y) (hrecv : y.conn.receiver.synRecv = true) :
    x.conn.sender.unAckQueue.synSent = true :=
  (h.delivered.synced hrecv).1

theorem link_synRecv (h : Link x y) (hacked : x.conn.sender.unAckQueue.synAcked = true) :
    y.conn.receiver.synRecv = true := by
  have hpos := (h.tracks.synced hacked).1
  have hle := h.base_le
  by_contra hrecv
  unfold TCPReceiver.ackPos at hle
  rw [if_neg hrecv] at hle
  omega

theorem link_finSent (h : Link x y) (hended : y.conn.receiver.streamOut.inputEnded = true) :
    x.conn.sender.unAckQueue.finSent = true :=
  (h.delivered.ended hended).1

theorem link_opened (h : Link x y) (hended : y.conn.receiver.streamOut.inputEnded = true) :
    y.conn.receiver.synRecv = true := by
  by_contra hrecv
  have heof := (h.delivered.listen (by simpa using hrecv)).2
  exact Bool.false_ne_true (heof.symm.trans (h.delivered.assembles.ended_iff.mp hended).1)

/-- What the receiver shows, in terms of its flags. -/
theorem receiver_stateSummary_eq (r : TCPReceiver) (herror : r.streamOut.error = false) :
    r.stateSummary = if !r.synRecv then .listen
      else if r.streamOut.inputEnded then .finRecv else .synRecv := by
  unfold TCPReceiver.stateSummary TCPReceiver.ackno
  rw [herror]
  cases r.synRecv <;> rfl

theorem allows_of_link (h : Link x y) (hlen : x.accepted.length < 2 ^ 31) :
    x.conn.sender.stateSummary.Allows y.conn.receiver.stateSummary := by
  by_cases herrorY : y.conn.receiver.streamOut.error = true
  · have hy : y.conn.receiver.stateSummary = .error := by
      unfold TCPReceiver.stateSummary
      rw [if_pos herrorY]
    rw [hy]
    cases x.conn.sender.stateSummary <;> trivial
  by_cases herrorX : x.conn.sender.stream.error = true
  · have hx : x.conn.sender.stateSummary = .error := by
      unfold TCPSender.stateSummary
      rw [if_pos herrorX]
    rw [hx]
    trivial
  have hdeque : x.conn.sender.unAckQueue.unAcked.length ≤ TCPSender.dequeMax := by
    have hread := h.tracks.carries.read_le
    rw [h.tracks.unAcked_length]
    unfold TCPSender.dequeMax
    omega
  have hphases := h.tracks.phasesAgree (by simpa using herrorX) hdeque
  rw [receiver_stateSummary_eq _ (by simpa using herrorY)]
  -- what was acknowledged has arrived, and what has arrived was sent
  have hsyn : x.conn.sender.unAckQueue.synAcked = true → y.conn.receiver.synRecv = true :=
    link_synRecv h
  have hunsynced : x.conn.sender.unAckQueue.synAcked = false →
      y.conn.receiver.streamOut.inputEnded = false := by
    intro hacked
    by_contra hended
    have hfin := link_finSent h (by simpa using hended)
    exact Bool.false_ne_true ((h.tracks.opening hacked).2.2.symm.trans hfin)
  cases hsummary : x.conn.sender.stateSummary with
  | error =>
      unfold TCPSender.stateSummary at hsummary
      rw [if_neg herrorX] at hsummary
      split_ifs at hsummary
  | closed =>
      have hunsent := hphases.closed_iff.mp hsummary
      have hlisten : y.conn.receiver.synRecv = false := by
        by_contra hrecv
        have hsent := link_synSent h (by simpa using hrecv)
        exact Bool.false_ne_true (hunsent.symm.trans hsent)
      rw [hlisten]
      rfl
  | synSent =>
      have hopen := hunsynced (hphases.synSent_iff.mp hsummary).2
      rw [hopen]
      cases y.conn.receiver.synRecv
      · exact Or.inl rfl
      · exact Or.inr rfl
  | synAcked =>
      obtain ⟨hsent, hacked, hfin, hunfinished⟩ := hphases.synAcked_iff.mp hsummary
      have hopen : y.conn.receiver.streamOut.inputEnded = false := by
        by_contra hended
        exact hfin ⟨link_finSent h (by simpa using hended), by simpa using hunfinished⟩
      rw [hsyn (by simpa [hsent] using hacked), hopen]
      rfl
  | finSent =>
      obtain ⟨hfin, -⟩ := hphases.finSent_iff.mp hsummary
      have hacked : x.conn.sender.unAckQueue.synAcked = true := by
        by_contra hacked
        have hnot := (h.tracks.opening (by simpa using hacked)).2.2
        exact Bool.false_ne_true (hnot.symm.trans hfin)
      rw [hsyn hacked]
      cases y.conn.receiver.streamOut.inputEnded
      · exact Or.inl rfl
      · exact Or.inr rfl
  | finAcked =>
      have hended := link_finAcked h (hphases.finAcked_iff.mp hsummary)
      rw [link_opened h hended, hended]
      rfl

theorem link_statesAgree (h : Link x y) (hlen : x.accepted.length < 2 ^ 31) :
    StatesAgree x y where
  isn := fun hrecv => (h.delivered.synced hrecv).2.1
  synSent := link_synSent h
  synAcked := link_synRecv h
  finSent := link_finSent h
  finAcked := link_finAcked h
  phases := allows_of_link h hlen

end

/-- **The two sides agree about the handshake and about the end**, also when one of them has been
reset, in every state that the network reaches. -/
theorem run_statesAgree (freed : Nat × Bytes → Nat × Bytes) (junk : Nat → UInt8)
    (cfgA cfgB : TCPConfig) (isnA isnB : WrappingInt32) (ops : List (Side × EndpointOp))
    (hok : Run.Admits (Freed.step freed junk) Conforms (new cfgA cfgB isnA isnB) ops)
    (hshort : (Freed.after freed junk cfgA cfgB isnA isnB ops).Short) :
    let n := Freed.after freed junk cfgA cfgB isnA isnB ops
    StatesAgree n.a n.b ∧ StatesAgree n.b n.a := by
  have hjoined := Freed.after_joined freed junk cfgA cfgB isnA isnB ops hok hshort
  exact ⟨link_statesAgree hjoined.out hshort.1, link_statesAgree hjoined.back hshort.2⟩

/-- The peer of a connection that is established has received the SYN. -/
example : ¬(TCPState.ofState .established).sender.Allows (TCPState.ofState .listen).receiver := by
  decide

theorem lostSegment_statesAgree :
    let n := Freed.after (fun _ => (0, [])) (fun _ => 0) {} {} ⟨0⟩ ⟨0⟩ lostSegment
    n.a.conn.state.sender = .finAcked ∧ StatesAgree n.a n.b ∧ StatesAgree n.b n.a :=
  ⟨by decide +kernel,
    run_statesAgree (fun _ => (0, [])) (fun _ => 0) {} {} ⟨0⟩ ⟨0⟩ lostSegment (by decide +kernel)
      (by decide +kernel)⟩

end Network

end Sponge
