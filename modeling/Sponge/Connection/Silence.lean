import Sponge.Connection.Shutdown
import Sponge.Receiver.Machine
import Sponge.Sender.Fill

set_option autoImplicit false

/-! # When a connection should be silent

Two situations in which a connection should put nothing, or nothing empty, into its outgoing
queue. An acknowledgment without data that lies in the window needs no answer; the connection
answers it with an empty segment when its sequence number is not the next one and the sender
has nothing to send (`ack_unanswered_iff`). A connection that is over should send nothing more;
segments and time have no effect on it, but `write`, `end_input_stream` and `connect` still
fill the window (`silent_iff`). -/

namespace Sponge

open Word Run

namespace TCPConnection

section

variable {c : TCPConnection} {seg : TCPSegment}

theorem withAck_length (r : TCPReceiver) (seg : TCPSegment) :
    (withAck r seg).lengthInSequenceSpace = seg.lengthInSequenceSpace := by
  unfold withAck
  split
  · split_ifs <;> rfl
  · rfl

theorem map_withAck_length (r : TCPReceiver) {segs : List TCPSegment}
    (h : ∀ seg ∈ segs, 1 ≤ seg.lengthInSequenceSpace) :
    ∀ seg ∈ segs.map (withAck r), 1 ≤ seg.lengthInSequenceSpace := by
  intro seg hmem
  obtain ⟨seg₀, hseg₀, rfl⟩ := List.mem_map.mp hmem
  rw [withAck_length]
  exact h seg₀ hseg₀

/-- What filling the window adds to the outgoing queue. -/
theorem fill_adds (hdrained : c.Drained) (hsound : ∃ data, c.sender.Sound data) :
    ∃ segs, c.fill.segmentsOut = c.segmentsOut ++ segs.map (withAck c.receiver) ∧
      (∀ seg ∈ segs, 1 ≤ seg.lengthInSequenceSpace) ∧ (segs ≠ [] ↔ c.sender.CanSend) := by
  obtain ⟨data, h⟩ := hsound
  obtain ⟨segs, ⟨hout, hlen⟩, hne⟩ := TCPSender.fillWindow_sends h
  refine ⟨segs, ?_, hlen, hne⟩
  have hd : c.sender.segmentsOut = [] := hdrained
  rw [hd, List.nil_append] at hout
  show c.segmentsOut ++ c.sender.fillWindow.segmentsOut.map (withAck c.receiver) = _
  rw [hout]

/-! ## Acknowledgments without data -/

/-- Every segment that the call adds to the outgoing queue occupies sequence space. -/
def AddsNonempty (c c' : TCPConnection) : Prop :=
  ∃ new, c'.segmentsOut = c.segmentsOut ++ new ∧ ∀ seg ∈ new, 1 ≤ seg.lengthInSequenceSpace

theorem addsNonempty_iff {c' : TCPConnection} {new : List TCPSegment}
    (hout : c'.segmentsOut = c.segmentsOut ++ new) :
    AddsNonempty c c' ↔ ∀ seg ∈ new, 1 ≤ seg.lengthInSequenceSpace := by
  constructor
  · rintro ⟨new', hout', hlen⟩
    rw [hout] at hout'
    rwa [List.append_cancel_left hout']
  · exact fun hlen => ⟨new, hout, hlen⟩

/-- A sender with nothing to send answers with an empty segment. -/
theorem not_addsNonempty_nonempty {c₁ : TCPConnection} (hout : c₁.segmentsOut = c.segmentsOut)
    (hnil : c₁.sender.segmentsOut = []) : ¬AddsNonempty c c₁.nonempty.updateOutput := by
  intro hadds
  have hnew : c₁.nonempty.updateOutput.segmentsOut = c.segmentsOut ++
      [withAck c₁.receiver
        { header := { seqno := wrap c₁.sender.unAckQueue.nextSeqno c₁.sender.isn } }] := by
    simp [nonempty, onlyIf, sendEmptySegment, onSender, TCPSender.sendEmptySegment, updateOutput,
      hnil, hout]
  have hlen := (addsNonempty_iff hnew).mp hadds _ (List.mem_singleton.mpr rfl)
  rw [withAck_length] at hlen
  simp [TCPSegment.lengthInSequenceSpace] at hlen

/-- Lost data of the peer makes the acknowledgment an out-of-order segment. It is answered
with an empty segment unless it allows the sender to send. -/
theorem outOfOrderReceived_addsNonempty (hdrained : c.Drained)
    (hsound : ∃ data, c.sender.Sound data) :
    AddsNonempty c (c.outOfOrderReceived seg) ↔ seg.header.ack = true ∧
      (c.sender.ackReceived seg.header.ackno seg.header.win).CanSend := by
  have hd : c.sender.segmentsOut = [] := hdrained
  set r := c.receiver.segmentReceived seg
  unfold outOfOrderReceived
  by_cases hack : seg.header.ack = true
  · obtain ⟨data, h⟩ := hsound
    obtain ⟨segs, ⟨hout, hlen⟩, hne⟩ :=
      TCPSender.fillWindow_sends (h.ackReceived seg.header.ackno seg.header.win)
    rw [ackReceived_segmentsOut, hd, List.nil_append] at hout
    have honly : (c.receive seg).onlyIf seg.header.ack
        (fun c => (c.ackReceived seg.header).fillWindow)
        = ((c.receive seg).ackReceived seg.header).fillWindow := by
      unfold onlyIf
      rw [if_pos hack]
    rw [honly, ← hne]
    set c₁ := ((c.receive seg).ackReceived seg.header).fillWindow
    have hout₁ : c₁.sender.segmentsOut = segs := hout
    constructor
    · intro hadds
      refine ⟨hack, ?_⟩
      intro hnil
      exact not_addsNonempty_nonempty rfl (hout₁.trans hnil) hadds
    · rintro ⟨-, hsome⟩
      -- with something to send there is no empty segment
      have hskip : c₁.nonempty = c₁ := by
        unfold nonempty onlyIf
        rw [hout₁, if_neg (by simpa using hsome)]
      rw [hskip]
      have hnew : c₁.updateOutput.segmentsOut = c.segmentsOut ++ segs.map (withAck r) := by
        rw [← hout₁]
        rfl
      exact (addsNonempty_iff hnew).mpr (map_withAck_length r hlen)
  · have honly : (c.receive seg).onlyIf seg.header.ack
        (fun c => (c.ackReceived seg.header).fillWindow) = c.receive seg := by
      unfold onlyIf
      rw [if_neg hack]
    rw [honly]
    constructor
    · exact fun hadds => absurd hadds (not_addsNonempty_nonempty rfl hd)
    · exact fun h => absurd h.1 hack

/-- On the open stream an acknowledgment without data makes the sender send, and nothing
else. -/
theorem synRecvReceived_addsNonempty (hdrained : c.Drained)
    (hsound : ∃ data, c.sender.Sound data) (hopen : ¬c.Ended)
    (hlen : seg.lengthInSequenceSpace = 0) : AddsNonempty c (c.synRecvReceived seg) := by
  unfold synRecvReceived
  split_ifs with hsyn
  · exact ⟨[], by simp, by simp⟩
  · simp only [hlen, onlyIf, bne_self_eq_false, lt_irrefl, decide_false, if_neg Bool.false_ne_true]
    by_cases hack : seg.header.ack = true
    · simp only [if_pos hack]
      obtain ⟨data, h⟩ := hsound
      have hdrained' : (c.ackReceived seg.header).Drained := hdrained.ackReceived seg.header
      obtain ⟨segs, hout, hpos, -⟩ := fill_adds hdrained'
        ⟨data, h.ackReceived seg.header.ackno seg.header.win⟩
      have hend : ¬(c.ackReceived seg.header).fill.receiverFINRecv = true := hopen
      rw [if_neg hend]
      exact ⟨_, hout, map_withAck_length _ hpos⟩
    · have hend : ¬c.receiverFINRecv = true := hopen
      simp only [if_neg hack, if_neg hend]
      exact ⟨[], by simp, by simp⟩

end

/-- **When an acknowledgment without data is not answered with an empty segment**: exactly
when its sequence number is the next one, or it allows the sender to send. -/
theorem ack_unanswered_iff (junk : Nat → UInt8) (cfg : TCPConfig) (isn : WrappingInt32)
    (ops : List ConnectionOp) (c : TCPConnection) (hc : c = after junk cfg isn ops)
    (hactive : c.active = true) (hsyn : c.receiver.synRecv = true)
    (hopen : c.receiver.streamOut.inputEnded = false) (seg : TCPSegment)
    (hlen : seg.lengthInSequenceSpace = 0) (hrst : seg.header.rst = false) :
    AddsNonempty c (c.segmentReceived seg) ↔ c.receiver.ackno = some seg.header.seqno ∨
      (seg.header.ack = true ∧
        (c.sender.ackReceived seg.header.ackno seg.header.win).CanSend) := by
  have hdrained : c.received.Drained := hc ▸ after_drained junk cfg isn ops
  have hsound : ∃ data, c.received.sender.Sound data := hc ▸ after_sound junk cfg isn ops
  have hackno : c.receiver.ackno = some c.receiver.lastAckno := if_pos hsyn
  have hnosyn : seg.header.syn = false := by
    by_contra hs
    simp [TCPSegment.lengthInSequenceSpace, hs] at hlen
  rw [segmentReceived_eq, if_pos hactive]
  by_cases hnext : seg.header.seqno = c.receiver.lastAckno
  · -- in order, an empty segment is not answered
    have hout : ¬c.outOfOrder seg = true := by simp [outOfOrder, hackno, hnext]
    have hended : ¬c.received.Ended := by
      unfold Ended
      exact ne_of_eq_of_ne hopen Bool.false_ne_true
    rw [if_neg hout, if_neg (by simp [hrst]), if_neg (by simp [hopen]),
      if_neg (by simp [hackno])]
    have hadds := synRecvReceived_addsNonempty hdrained hsound hended hlen
    exact ⟨fun _ => Or.inl (hackno.trans (congrArg some hnext.symm)), fun _ => hadds⟩
  · -- out of order, it is answered with an empty segment if the sender has nothing else
    have hout : c.outOfOrder seg = true := by simp [outOfOrder, hackno, hnext, hlen, hnosyn]
    rw [if_pos hout]
    have hne : ¬c.receiver.ackno = some seg.header.seqno := by
      rw [hackno]
      exact fun h => hnext (Option.some.inj h).symm
    simp only [hne, false_or]
    exact outOfOrderReceived_addsNonempty hdrained hsound

/-- The peer's bytes are lost, but its acknowledgment opens the window for a byte that was
written. -/
theorem lostData_unanswered :
    let c := after (fun _ => 0) {} ⟨0⟩ [.segmentReceived { header := { syn := true } }, .write [97]]
    let seg : TCPSegment :=
      { header := { seqno := ⟨6⟩, ack := true, ackno := ⟨1⟩, win := 10 } }
    c.receiver.ackno ≠ some seg.header.seqno ∧ AddsNonempty c (c.segmentReceived seg) := by
  intro c seg
  have hiff := ack_unanswered_iff (fun _ => 0) {} ⟨0⟩ _ c rfl (by decide +kernel)
    (by decide +kernel) (by decide +kernel) seg (by decide +kernel) (by decide +kernel)
  exact ⟨by decide +kernel, hiff.mpr (Or.inr (by decide +kernel))⟩

/-- An established connection whose five bytes, like five bytes of the peer, are lost. -/
def fiveLost : TCPConnection :=
  after (fun _ => 0) {} ⟨0⟩
    [.segmentReceived { header := { syn := true } }, .popSegment,
      .segmentReceived { header := { seqno := ⟨1⟩, ack := true, ackno := ⟨1⟩, win := 64000 } },
      .write [97, 98, 99, 100, 101], .popSegment]

/-- The empty segment of a peer in the same state. -/
def emptyAck : TCPSegment :=
  { header := { seqno := ⟨6⟩, ack := true, ackno := ⟨1⟩, win := 64000 } }

/-- **An acknowledgment is acknowledged.** The empty segment lies in the window and is answered
with the same empty segment; the connection is then as it was, so that two connections in this
state answer each other without end. -/
theorem emptyAck_answered :
    fiveLost.active = true ∧ fiveLost.receiver.synRecv = true ∧
      fiveLost.receiver.streamOut.inputEnded = false ∧
      emptyAck.lengthInSequenceSpace = 0 ∧ emptyAck.header.rst = false ∧
      fiveLost.receiver.ackPos ≤ fiveLost.receiver.absSeqno emptyAck ∧
      fiveLost.receiver.absSeqno emptyAck
        ≤ fiveLost.receiver.ackPos + fiveLost.receiver.windowSize ∧
      ¬AddsNonempty fiveLost (fiveLost.segmentReceived emptyAck) ∧
      (fiveLost.segmentReceived emptyAck).popSegment = (some emptyAck, fiveLost) := by
  have hout : (fiveLost.segmentReceived emptyAck).segmentsOut
      = fiveLost.segmentsOut ++ [emptyAck] := by
    decide +kernel
  refine ⟨by decide +kernel, by decide +kernel, by decide +kernel, by decide +kernel,
    by decide +kernel, by decide +kernel, by decide +kernel, fun hadds => ?_, by decide +kernel⟩
  have hlen := (addsNonempty_iff hout).mp hadds emptyAck (List.mem_singleton.mpr rfl)
  exact absurd hlen (by decide +kernel)

/-! ## After the end -/

/-- The call leaves the outgoing queue alone, except for what the owner takes from it. -/
def AddsNothing (junk : Nat → UInt8) (c : TCPConnection) (op : ConnectionOp) : Prop :=
  (c.step junk op).segmentsOut = match op with
    | .popSegment => c.segmentsOut.tail
    | _ => c.segmentsOut

/-- The call finds nothing that the sender can send. -/
def Silent (c : TCPConnection) : ConnectionOp → Prop
  | .connect => ¬c.sender.CanSend
  | .write data => data = [] ∨ ¬(c.sender.writeStream data).1.CanSend
  | .endInputStream => ¬c.sender.endStream.CanSend
  | .tick _ | .segmentReceived _ | .readInbound _ | .popSegment => True

instance decidableSilent (c : TCPConnection) : ∀ op, Decidable (c.Silent op)
  | .connect => inferInstanceAs (Decidable (¬_))
  | .write _ => inferInstanceAs (Decidable (_ ∨ ¬_))
  | .endInputStream => inferInstanceAs (Decidable (¬_))
  | .tick _ | .segmentReceived _ | .readInbound _ | .popSegment => .isTrue trivial

section

variable {c : TCPConnection}

theorem fill_segmentsOut_iff (hdrained : c.Drained) (hsound : ∃ data, c.sender.Sound data) :
    c.fill.segmentsOut = c.segmentsOut ↔ ¬c.sender.CanSend := by
  obtain ⟨segs, hout, -, hne⟩ := fill_adds hdrained hsound
  rw [hout, ← hne, List.append_right_eq_self, List.map_eq_nil_iff, not_not]

/-- One call on a connection that is over. -/
theorem addsNothing_iff (junk : Nat → UInt8) (op : ConnectionOp) (hend : c.active = false)
    (hdrained : c.Drained) (hsound : ∃ data, c.sender.Sound data) :
    AddsNothing junk c op ↔ c.Silent op := by
  cases op with
  | connect => exact fill_segmentsOut_iff hdrained hsound
  | write data =>
      show (c.write data).1.segmentsOut = c.segmentsOut ↔ _
      unfold TCPConnection.write
      split_ifs with hdata
      · exact ⟨fun _ => Or.inl (List.isEmpty_iff.mp hdata), fun _ => rfl⟩
      · obtain ⟨sent, h⟩ := hsound
        have hne : ¬data = [] := fun h => hdata (List.isEmpty_iff.mpr h)
        simp only [Silent, hne, false_or]
        exact fill_segmentsOut_iff (c := c.onSender (fun s => (s.writeStream data).1)) hdrained
          ⟨_, h.write data⟩
  | endInputStream =>
      obtain ⟨sent, h⟩ := hsound
      exact fill_segmentsOut_iff (c := c.onSender TCPSender.endStream) hdrained
        ⟨sent, h.endStream⟩
  | tick ms =>
      refine ⟨fun _ => trivial, ?_⟩
      intro _
      exact congrArg segmentsOut (tick_of_inactive junk ms.toNat hend)
  | segmentReceived seg =>
      refine ⟨fun _ => trivial, ?_⟩
      intro _
      exact congrArg segmentsOut (segmentReceived_of_inactive seg hend)
  | readInbound len => exact ⟨fun _ => trivial, fun _ => rfl⟩
  | popSegment => exact ⟨fun _ => trivial, fun _ => rfl⟩

end

/-- **Silence after the end.** A connection that is over stays so, and a later run adds
nothing to the outgoing queue exactly when no call of it finds something to send. -/
theorem silent_iff (junk : Nat → UInt8) (cfg : TCPConfig) (isn : WrappingInt32)
    (ops : List ConnectionOp) (c : TCPConnection) (hc : c = after junk cfg isn ops)
    (hend : c.active = false) (later : List ConnectionOp) :
    (run (step junk) c later).active = false ∧
      (Admits (step junk) (AddsNothing junk) c later ↔ Admits (step junk) Silent c later) := by
  have hdrained : c.Drained := hc ▸ after_drained junk cfg isn ops
  have hsound : ∃ data, c.sender.Sound data := hc ▸ after_sound junk cfg isn ops
  constructor
  · exact run_invariant' (I := fun c : TCPConnection => c.active = false)
      (fun _ op => step_inactive junk op) hend later
  · refine admits_congr (I := fun c : TCPConnection => c.active = false ∧ c.Drained ∧
      ∃ data, c.sender.Sound data) ?_ ?_ ⟨hend, hdrained, hsound⟩ later
    · rintro c op ⟨hend, hdrained, hsound⟩
      exact ⟨step_inactive junk op hend, hdrained.step junk op, sound_step junk op hsound⟩
    · rintro c op ⟨hend, hdrained, hsound⟩
      exact addsNothing_iff junk op hend hdrained hsound

/-- The handshake, and a RST from the peer. -/
def resetByPeer : List ConnectionOp :=
  [.segmentReceived { header := { syn := true } },
    .segmentReceived { header := { seqno := ⟨1⟩, ack := true, ackno := ⟨1⟩, win := 100 } },
    .segmentReceived { header := { seqno := ⟨1⟩, rst := true } }]

/-- Time, segments and a second `connect` find nothing to send after a reset. -/
theorem resetByPeer_silent :
    let c := after (fun _ => 0) {} ⟨0⟩ resetByPeer
    let later : List ConnectionOp :=
      [.tick 5000, .connect, .segmentReceived { header := { seqno := ⟨1⟩ }, payload := [97] }]
    c.active = false ∧ (run (step fun _ => 0) c later).active = false ∧
      Admits (step fun _ => 0) (AddsNothing fun _ => 0) c later := by
  intro c later
  have hend : c.active = false := by decide +kernel
  obtain ⟨hactive, hiff⟩ := silent_iff (fun _ => 0) {} ⟨0⟩ resetByPeer c rfl hend later
  exact ⟨hend, hactive, hiff.mpr (by decide +kernel)⟩

/-- **A connection sends after its end.** After a reset the owner writes a byte, or ends the
outbound stream, and a segment is sent. -/
theorem resetByPeer_sends :
    let c := after (fun _ => 0) {} ⟨0⟩ resetByPeer
    c.active = false ∧ (c.write [97]).1.segmentsOut.length = c.segmentsOut.length + 1 ∧
      c.endInputStream.segmentsOut.length = c.segmentsOut.length + 1 := by
  decide +kernel

end TCPConnection

end Sponge
