import Sponge.Connection.Machine

set_option autoImplicit false

/-! # Answers to incoming segments

A segment that occupies sequence space is answered: with a segment that carries the receiver's
acknowledgment and window. The connection does so for an out-of-order segment, for a repeated
FIN after the end of the inbound stream, and for a segment on the open stream when the
outgoing queue is empty. A repeated SYN is ignored on purpose. -/

namespace Sponge

open Word

/-- `seg` carries the acknowledgment number and the window of the receiver. -/
def TCPReceiver.Answers (r : TCPReceiver) (seg : TCPSegment) : Prop :=
  seg.header.ack = true ∧ r.ackno = some seg.header.ackno ∧
    seg.header.win = UInt16.ofNat r.windowSize

namespace TCPConnection

/-- While a segment is handled: the receiver has become `r`, and every segment that was added
to the outgoing queue `old` is an answer. -/
structure Answering (old : List TCPSegment) (r : TCPReceiver) (c : TCPConnection) : Prop where
  receiver_eq : c.receiver = r
  sound : ∃ data, c.sender.Sound data
  no_rst : ∀ seg ∈ c.sender.segmentsOut, seg.header.rst = false
  out_eq : ∃ new, c.segmentsOut = old ++ new ∧ ∀ seg ∈ new, r.Answers seg

/-- At least one answer was added. -/
def Answered (old : List TCPSegment) (r : TCPReceiver) (c : TCPConnection) : Prop :=
  Answering old r c ∧ old.length < c.segmentsOut.length

section

variable {old : List TCPSegment} {r : TCPReceiver} {c : TCPConnection}

theorem answers_withAck (hr : r.ackno ≠ none) {seg : TCPSegment} (hrst : seg.header.rst = false) :
    r.Answers (withAck r seg) := by
  obtain ⟨ackno, hackno⟩ := Option.ne_none_iff_exists'.mp hr
  simp [TCPReceiver.Answers, withAck, hackno, hrst]

theorem Answering.updateOutput (h : Answering old r c) (hr : r.ackno ≠ none) :
    Answering old r c.updateOutput := by
  obtain ⟨new, hnew, hans⟩ := h.out_eq
  refine ⟨h.receiver_eq, ?_, by simp [TCPConnection.updateOutput], ?_⟩
  · obtain ⟨data, hs⟩ := h.sound
    exact ⟨data, hs.segmentsOut []⟩
  · refine ⟨new ++ c.sender.segmentsOut.map (withAck r), ?_, ?_⟩
    · simp [TCPConnection.updateOutput, hnew, h.receiver_eq]
    · intro seg hseg
      rcases List.mem_append.mp hseg with hseg | hseg
      · exact hans seg hseg
      · obtain ⟨seg', hmem, rfl⟩ := List.mem_map.mp hseg
        exact answers_withAck hr (h.no_rst seg' hmem)

theorem Answering.sendEmptySegment (h : Answering old r c) :
    Answering old r c.sendEmptySegment := by
  refine ⟨h.receiver_eq, ?_, ?_, h.out_eq⟩
  · obtain ⟨data, hs⟩ := h.sound
    exact ⟨data, hs.segmentsOut _⟩
  · intro seg hseg
    rcases List.mem_append.mp hseg with hseg | hseg
    · exact h.no_rst seg hseg
    · obtain rfl := List.mem_singleton.mp hseg
      rfl

theorem Answering.fillWindow (h : Answering old r c) : Answering old r c.fillWindow := by
  obtain ⟨data, hs⟩ := h.sound
  exact ⟨h.receiver_eq, ⟨data, hs.fillWindow⟩, hs.fillWindow_no_rst h.no_rst, h.out_eq⟩

theorem Answering.ackReceived (h : Answering old r c) (hd : TCPHeader) :
    Answering old r (c.ackReceived hd) := by
  obtain ⟨data, hs⟩ := h.sound
  refine ⟨h.receiver_eq, ⟨data, hs.ackReceived hd.ackno hd.win⟩, ?_, h.out_eq⟩
  show ∀ seg ∈ (c.sender.ackReceived hd.ackno hd.win).segmentsOut, _
  rw [ackReceived_segmentsOut]
  exact h.no_rst

theorem Answering.fill (h : Answering old r c) (hr : r.ackno ≠ none) : Answering old r c.fill :=
  h.fillWindow.updateOutput hr

/-- An empty segment is an answer. -/
theorem Answering.reply (h : Answering old r c) (hr : r.ackno ≠ none) : Answered old r c.reply := by
  refine ⟨h.sendEmptySegment.updateOutput hr, ?_⟩
  obtain ⟨new, hnew, -⟩ := h.out_eq
  show old.length < (c.segmentsOut ++ _).length
  rw [hnew]
  simp [TCPConnection.sendEmptySegment, onSender, TCPSender.sendEmptySegment]

theorem Answered.updateOutput (h : Answered old r c) (hr : r.ackno ≠ none) :
    Answered old r c.updateOutput := by
  refine ⟨h.1.updateOutput hr, ?_⟩
  have hlt := h.2
  show old.length < (c.segmentsOut ++ _).length
  rw [List.length_append]
  omega

theorem Answered.fill (h : Answered old r c) (hr : r.ackno ≠ none) : Answered old r c.fill :=
  Answered.updateOutput ⟨h.1.fillWindow, h.2⟩ hr

theorem Answered.ackReceived (h : Answered old r c) (hd : TCPHeader) :
    Answered old r (c.ackReceived hd) :=
  ⟨h.1.ackReceived hd, h.2⟩

/-- With an empty queue the connection answers itself, else the queued answers stay. -/
theorem Answering.replyIfIdle (h : Answering [] r c) (hr : r.ackno ≠ none) :
    Answered [] r c.replyIfIdle := by
  unfold TCPConnection.replyIfIdle onlyIf
  split_ifs with hempty
  · exact h.reply hr
  · refine ⟨h, ?_⟩
    have hne : c.segmentsOut ≠ [] := by simpa using hempty
    exact List.length_pos_iff_ne_nil.mpr hne

theorem Answered.exists_answer (h : Answered old r c) :
    ∃ new, c.segmentsOut = old ++ new ∧ ∃ seg ∈ new, c.receiver.Answers seg := by
  obtain ⟨hans, hlt⟩ := h
  obtain ⟨new, hnew, hall⟩ := hans.out_eq
  refine ⟨new, hnew, ?_⟩
  rw [hnew, List.length_append] at hlt
  obtain ⟨seg, rest, rfl⟩ := List.exists_cons_of_length_pos (show 0 < new.length by omega)
  rw [hans.receiver_eq]
  exact ⟨seg, by simp, hall seg (by simp)⟩

/-! ## The branches -/

section

variable {seg : TCPSegment} (h : Answering old r c) (hr : (r.segmentReceived seg).ackno ≠ none)

include h

theorem Answering.receive (hout : c.segmentsOut = old) :
    Answering old (r.segmentReceived seg) (c.receive seg) :=
  ⟨congrArg (fun r : TCPReceiver => r.segmentReceived seg) h.receiver_eq, h.sound, h.no_rst, [],
    by simpa [TCPConnection.receive] using hout, by simp⟩

include hr

theorem Answering.outOfOrderReceived (hout : c.segmentsOut = old) :
    Answered old (r.segmentReceived seg) (c.outOfOrderReceived seg) := by
  have h₁ : Answering old (r.segmentReceived seg) ((c.receive seg).onlyIf seg.header.ack
      (fun c => (c.ackReceived seg.header).fillWindow)) :=
    onlyIf_rule (h.receive hout) (fun _ h' => (h'.ackReceived _).fillWindow)
  unfold TCPConnection.outOfOrderReceived
  generalize (c.receive seg).onlyIf seg.header.ack
    (fun c => (c.ackReceived seg.header).fillWindow) = c₁ at h₁
  unfold nonempty onlyIf
  split_ifs with hempty
  · exact h₁.reply hr
  · refine ⟨h₁.updateOutput hr, ?_⟩
    obtain ⟨new, hnew, -⟩ := h₁.out_eq
    have hne : 0 < c₁.sender.segmentsOut.length := by
      rw [List.length_pos_iff_ne_nil]
      simpa using hempty
    show old.length < (c₁.segmentsOut ++ c₁.sender.segmentsOut.map _).length
    rw [hnew, List.length_append, List.length_append, List.length_map]
    omega

omit h in
theorem Answering.synRecvReceived (h : Answering [] r c) (hsyn : seg.header.syn = false)
    (hout : c.segmentsOut = []) (hlen : 0 < seg.lengthInSequenceSpace) :
    Answered [] (r.segmentReceived seg) (c.synRecvReceived seg) := by
  have hne : (seg.lengthInSequenceSpace != 0) = true := by
    rw [bne_iff_ne]
    omega
  have h₁ : Answering [] (r.segmentReceived seg)
      (c.onlyIf (seg.lengthInSequenceSpace != 0) (fun c => c.receive seg)) := by
    unfold onlyIf
    rw [if_pos hne]
    exact h.receive hout
  -- the acknowledgment may already send something that answers
  have h₂ := onlyIf_rule (b := seg.header.ack)
    (f := fun c => (c.ackReceived seg.header).fill) h₁ (fun _ h' => (h'.ackReceived _).fill hr)
  unfold TCPConnection.synRecvReceived
  rw [if_neg (by simp [hsyn])]
  refine onlyIf_rule ?_ (fun _ h' => ?_)
  · unfold onlyIf at h₂ ⊢
    rw [if_pos (decide_eq_true hlen)]
    exact h₂.replyIfIdle hr
  · unfold inboundEnded
    split_ifs
    · exact Answering.replyIfIdle ⟨h'.1.receiver_eq, h'.1.sound, h'.1.no_rst, h'.1.out_eq⟩ hr
    · exact Answering.replyIfIdle ⟨h'.1.receiver_eq, h'.1.sound, h'.1.no_rst, h'.1.out_eq⟩ hr

end

theorem Answering.finRecvReceived {seg : TCPSegment} (h : Answering old r c)
    (hr : r.ackno ≠ none) (hsyn : seg.header.syn = false) (hfin : seg.header.fin = true) :
    Answered old r (c.finRecvReceived seg) := by
  unfold TCPConnection.finRecvReceived
  rw [if_neg (by simp [hsyn])]
  split_ifs
  · refine onlyIf_rule ?_ (fun _ h' => ?_)
    · unfold onlyIf
      rw [if_pos hfin]
      exact h.reply hr
    · unfold closeOrFill
      split_ifs
      · have h'' := h'.ackReceived seg.header
        exact ⟨⟨h''.1.receiver_eq, h''.1.sound, h''.1.no_rst, h''.1.out_eq⟩, h''.2⟩
      · exact (h'.ackReceived _).fill hr
  · have h₁ := onlyIf_rule (b := seg.header.ack) (f := fun c => c.ackReceived seg.header) h
      (fun _ h' => h'.ackReceived _)
    unfold onlyIf at h₁ ⊢
    rw [if_pos hfin]
    exact h₁.reply hr

end

/-! ## Runs -/

theorem ackno_segmentReceived {r : TCPReceiver} (seg : TCPSegment) (h : r.ackno ≠ none) :
    (r.segmentReceived seg).ackno ≠ none := by
  have hsyn : r.synRecv = true := by
    by_contra hns
    simp [TCPReceiver.ackno, hns] at h
  have hsyn' : (r.segmentReceived seg).synRecv = true := by
    unfold TCPReceiver.segmentReceived
    split_ifs
    · exact hsyn
    · exact hsyn
  simp [TCPReceiver.ackno, hsyn']

/-- The peer's SYN arrives, and the answer is taken from the queue. -/
def synAnswered : TCPConnection :=
  after (fun _ => 0) {} ⟨0⟩ [.segmentReceived { header := { syn := true } }, .popSegment]

/-- The next byte of the peer. -/
def nextByte : TCPSegment := { header := { seqno := ⟨1⟩ }, payload := [97] }

/-- Two bytes of the peer, and the same with the end of its stream. -/
def twoBytes : TCPSegment := { header := { seqno := ⟨1⟩ }, payload := [97, 98] }

def twoBytesEnd : TCPSegment :=
  { header := { seqno := ⟨1⟩, fin := true }, payload := [97, 98] }

/-- The peer's whole stream arrives after its SYN, and both answers are taken from the queue. -/
def finAnswered : TCPConnection :=
  after (fun _ => 0) {} ⟨0⟩ [.segmentReceived { header := { syn := true } }, .popSegment,
    .segmentReceived twoBytesEnd, .popSegment]

theorem not_answered_of_nil {c : TCPConnection} {seg : TCPSegment}
    (hnone : (c.segmentReceived seg).segmentsOut = []) :
    ¬∃ new, (c.segmentReceived seg).segmentsOut = c.segmentsOut ++ new ∧
      ∃ answer ∈ new, (c.segmentReceived seg).receiver.Answers answer := by
  rintro ⟨new, hnew, answer, hmem, -⟩
  rw [hnone, eq_comm, List.append_eq_nil_iff] at hnew
  rw [hnew.2] at hmem
  exact List.not_mem_nil hmem

end TCPConnection

end Sponge
