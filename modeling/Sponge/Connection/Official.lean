import Sponge.Connection.Finish
import Sponge.Connection.Orderly
import Sponge.Connection.Reset

set_option autoImplicit false

/-! # Only official states

The state of a connection combines the summaries of its sender and its receiver with two of its
flags. Twelve of the combinations are official. The invariant `Regular` says how the parts
depend on each other in all of them but RESET; a step that does not run into one of the gaps
of the closing sequence (`InTurn`) keeps it, or resets the connection. -/

namespace Sponge

open Word Run

namespace TCPReceiver

theorem ackno_eq_none_iff {r : TCPReceiver} : r.ackno = none ↔ r.synRecv = false := by
  unfold ackno
  split_ifs with h <;> simp [h]

theorem segmentReceived_synRecv {r : TCPReceiver} (seg : TCPSegment)
    (h : r.synRecv = true ∨ seg.header.syn = true) : (r.segmentReceived seg).synRecv = true := by
  unfold segmentReceived
  split_ifs with hsyn hrecv hrecv
  · exact hrecv
  · rfl
  · exact hrecv
  · exact absurd h (by simp [hsyn, hrecv])

/-- A receiver that saw the segment, or did not. -/
theorem marks_of_received {r r' : TCPReceiver} {seg : TCPSegment}
    (h : r' = r ∨ r' = r.segmentReceived seg) :
    r'.streamOut.error = r.streamOut.error ∧ (r.synRecv = true → r'.synRecv = true) := by
  rcases h with rfl | rfl
  · exact ⟨rfl, id⟩
  · exact ⟨r.segmentReceived_error seg, fun hrecv => segmentReceived_synRecv seg (Or.inl hrecv)⟩

end TCPReceiver

namespace TCPConnection

/-! ## The condition -/

/-- The segment is given to the receiver, and completes the inbound stream. -/
def completes (c : TCPConnection) (seg : TCPSegment) : Bool :=
  c.active && !c.receiverFINRecv && (c.receive seg).receiverFINRecv &&
    (c.outOfOrder seg || (!seg.header.rst && (seg.header.syn == c.receiverInListen)))

/-- A step that does not run into a gap of the closing sequence. The inbound stream is not
completed by a SYN segment, not before the SYN that was sent is acknowledged, and in the
branch for out-of-order segments only after the FIN was sent. The acknowledgments are in turn,
and without lingering no out-of-order segment acknowledges the FIN. The linger time does not
run out before the FIN is acknowledged. -/
def InTurn (c : TCPConnection) : ConnectionOp → Prop
  | .segmentReceived seg =>
      (c.completes seg = true → c.receiver.ackno ≠ none ∧
        (c.sender.unAckQueue.synAcked = true ∨
          (seg.header.ack = true ∧ c.sender.absAckno seg.header.ackno = 1)) ∧
        (c.outOfOrder seg = true → c.sender.unAckQueue.finSent = true)) ∧
      (c.takesAck seg = true →
        c.sender.AcksInTurn (c.sender.absAckno seg.header.ackno) ∧
        (c.outOfOrder seg = true → c.lingerAfterStreamsFinish = false →
          c.sender.unAckQueue.finSent = true →
          c.sender.absAckno seg.header.ackno ≠ c.sender.unAckQueue.nextSeqno))
  | .tick ms => c.ClosesAcked (.tick ms)
  | .connect | .write _ | .endInputStream | .readInbound _ | .popSegment => True

instance decidableInTurn (c : TCPConnection) : ∀ op, Decidable (c.InTurn op)
  | .segmentReceived _ => inferInstanceAs (Decidable ((_ → _) ∧ (_ → _ ∧ _)))
  | .tick ms => inferInstanceAs (Decidable (c.ClosesAcked (.tick ms)))
  | .connect | .write _ | .endInputStream | .readInbound _ | .popSegment => .isTrue trivial

/-! ## The invariant -/

/-- A connection that was reset. -/
structure WasReset (c : TCPConnection) : Prop where
  sender : ∃ data, c.sender.Sound data
  inactive : c.active = false
  failed : c.Failed

/-- How the parts of a connection that was not reset depend on each other. -/
structure Regular (c : TCPConnection) : Prop where
  sender : ∃ data, c.sender.Sound data ∧ c.sender.Orderly
  sender_ok : c.sender.stream.error = false
  receiver_ok : c.receiver.streamOut.error = false
  listen : c.receiver.synRecv = false → c.sender.unAckQueue.synAcked = false ∧ ¬c.Ended
  opened : c.receiver.synRecv = true → c.sender.unAckQueue.synSent = true
  linger_ended : c.lingerAfterStreamsFinish = false → c.Ended
  timeWait_ended : c.timeWait = true → c.Ended
  synced : c.active = true → c.Ended → c.sender.unAckQueue.synAcked = true
  lingering : c.active = true → c.Ended → c.lingerAfterStreamsFinish = true →
    c.sender.unAckQueue.finSent = true
  closing : c.active = true → c.Ended → c.lingerAfterStreamsFinish = false →
    c.sender.unAckQueue.finAcked = false
  ended : c.active = false → c.Ended ∧ c.sender.unAckQueue.finAcked = true

theorem regular_new (cfg : TCPConfig) (isn : WrappingInt32) : (new cfg isn).Regular := by
  have hopen : ¬(new cfg isn).Ended := by
    simp [Ended, new, TCPReceiver.new, TCPReceiver.streamOut, StreamReassembler.new, ByteStream.new,
      ByteStream.inputEnded]
  refine ⟨⟨[], TCPSender.sound_new _ _ _, TCPSender.orderly_new _ _ _⟩, rfl, rfl,
    fun _ => ⟨rfl, hopen⟩, ?_, ?_, ?_, ?_, ?_, ?_, ?_⟩
  · simp [new, TCPReceiver.new]
  · simp [new]
  · simp [new]
  · exact fun _ h => absurd h hopen
  · exact fun _ h => absurd h hopen
  · exact fun _ h => absurd h hopen
  · simp [new]

section

variable {c : TCPConnection} {seg : TCPSegment}

/-- The state of a regular connection in terms of its flags. -/
theorem Regular.state_eq (h : c.Regular) (hsmall : c.sender.stream.bytesWritten + 2 < 2 ^ 64) :
    c.state =
      { sender :=
          if !c.sender.unAckQueue.synSent then .closed
          else if !c.sender.unAckQueue.synAcked then .synSent
          else if !c.sender.unAckQueue.finSent then .synAcked
          else if !c.sender.unAckQueue.finAcked then .finSent
          else .finAcked
        receiver :=
          if !c.receiver.synRecv then .listen
          else if c.receiver.streamOut.inputEnded then .finRecv
          else .synRecv
        active := c.active
        lingerAfterStreamsFinish := c.active && c.lingerAfterStreamsFinish } := by
  obtain ⟨data, hs, hordered⟩ := h.sender
  have hsynced : c.sender.unAckQueue.synAcked = true → c.sender.unAckQueue.synSent = true := by
    intro hsyn
    by_cases hrecv : c.receiver.synRecv = true
    · exact h.opened hrecv
    · exact absurd (hsyn.symm.trans (h.listen (by simpa using hrecv)).1) (by simp)
  have hackno : c.receiver.ackno.isNone = !c.receiver.synRecv := by
    rw [Bool.eq_iff_iff, Option.isNone_iff_eq_none, TCPReceiver.ackno_eq_none_iff, Bool.not_eq_true']
  -- at most the written bytes, the SYN and the FIN are in flight
  have hflight : c.sender.unAckQueue.nextSeqno - c.sender.unAckQueue.baseSqn < 2 ^ 64 := by
    have hnext := hs.next_eq
    have hread := hs.carries.read_add
    change c.sender.stream.numBytesWritten + 2 < 2 ^ 64 at hsmall
    split_ifs at hnext <;> omega
  unfold state TCPReceiver.stateSummary
  rw [hordered.stateSummary_eq hs hsynced hflight, h.sender_ok, h.receiver_ok, hackno]
  cases c.active <;> rfl

theorem Regular.active_of_open (h : c.Regular) (hopen : ¬c.Ended) : c.active = true := by
  by_contra hinactive
  exact hopen (h.ended (by simpa using hinactive)).1

theorem Regular.linger_of_open (h : c.Regular) (hopen : ¬c.Ended) :
    c.lingerAfterStreamsFinish = true := by
  by_contra hl
  exact hopen (h.linger_ended (by simpa using hl))

theorem Regular.official_of_listen (h : c.Regular)
    (hsmall : c.sender.stream.bytesWritten + 2 < 2 ^ 64) (hrecv : c.receiver.synRecv = false) :
    c.Official := by
  unfold Official
  rw [h.state_eq hsmall]
  obtain ⟨hsynAcked, hopen⟩ := h.listen hrecv
  have hactive := h.active_of_open hopen
  have hl := h.linger_of_open hopen
  by_cases hsyn : c.sender.unAckQueue.synSent = true
  · exact ⟨.synSent, by simp [TCPState.ofState, hrecv, hsyn, hactive, hsynAcked, hl]⟩
  · exact ⟨.listen, by simp [TCPState.ofState, hrecv, hsyn, hactive, hl]⟩

theorem Regular.official_of_open (h : c.Regular)
    (hsmall : c.sender.stream.bytesWritten + 2 < 2 ^ 64) (hrecv : c.receiver.synRecv = true)
    (hopen : ¬c.receiver.streamOut.inputEnded = true) : c.Official := by
  unfold Official
  rw [h.state_eq hsmall]
  have hsyn := h.opened hrecv
  have hactive := h.active_of_open hopen
  have hl := h.linger_of_open hopen
  by_cases hsynAcked : c.sender.unAckQueue.synAcked = true
  · by_cases hfin : c.sender.unAckQueue.finSent = true
    · by_cases hacked : c.sender.unAckQueue.finAcked = true
      · exact ⟨.finWait2, by
          simp [TCPState.ofState, hrecv, hsyn, hopen, hactive, hsynAcked, hl, hfin, hacked]⟩
      · exact ⟨.finWait1, by
          simp [TCPState.ofState, hrecv, hsyn, hopen, hactive, hsynAcked, hl, hfin, hacked]⟩
    · exact ⟨.established, by
        simp [TCPState.ofState, hrecv, hsyn, hopen, hactive, hsynAcked, hl, hfin]⟩
  · exact ⟨.synRcvd, by simp [TCPState.ofState, hrecv, hsyn, hopen, hactive, hsynAcked, hl]⟩

theorem Regular.official_of_ended (h : c.Regular)
    (hsmall : c.sender.stream.bytesWritten + 2 < 2 ^ 64) (hrecv : c.receiver.synRecv = true)
    (hended : c.receiver.streamOut.inputEnded = true) : c.Official := by
  obtain ⟨data, hs, hordered⟩ := h.sender
  unfold Official
  rw [h.state_eq hsmall]
  have hsyn := h.opened hrecv
  by_cases hactive : c.active = true
  · have hsynAcked := h.synced hactive hended
    by_cases hl : c.lingerAfterStreamsFinish = true
    · have hfin := h.lingering hactive hended hl
      by_cases hacked : c.sender.unAckQueue.finAcked = true
      · exact ⟨.timeWait, by
          simp [TCPState.ofState, hrecv, hsyn, hended, hactive, hsynAcked, hl, hfin, hacked]⟩
      · exact ⟨.closing, by
          simp [TCPState.ofState, hrecv, hsyn, hended, hactive, hsynAcked, hl, hfin, hacked]⟩
    · have hacked := h.closing hactive hended (by simpa using hl)
      by_cases hfin : c.sender.unAckQueue.finSent = true
      · exact ⟨.lastAck, by
          simp [TCPState.ofState, hrecv, hsyn, hended, hactive, hsynAcked, hl, hfin, hacked]⟩
      · exact ⟨.closeWait, by
          simp [TCPState.ofState, hrecv, hsyn, hended, hactive, hsynAcked, hl, hfin]⟩
  · have hacked := (h.ended (by simpa using hactive)).2
    have hfin := hs.fin_sent hacked
    -- the FIN is acknowledged after the SYN
    have hsynAcked : c.sender.unAckQueue.synAcked = true := by
      by_contra hns
      exact absurd ((hordered.base_zero (by simpa using hns)).2.symm.trans hacked) (by simp)
    exact ⟨.closed, by
      simp [TCPState.ofState, hrecv, hsyn, hended, hactive, hsynAcked, hfin, hacked]⟩

/-- **A regular connection is in an official state**, as long as its sequence numbers fit into
64 bits. -/
theorem Regular.official (h : c.Regular) (hsmall : c.sender.stream.bytesWritten + 2 < 2 ^ 64) :
    c.Official := by
  by_cases hrecv : c.receiver.synRecv = true
  · by_cases hended : c.receiver.streamOut.inputEnded = true
    · exact h.official_of_ended hsmall hrecv hended
    · exact h.official_of_open hsmall hrecv hended
  · exact h.official_of_listen hsmall (by simpa using hrecv)

theorem WasReset.official (h : c.WasReset) : c.Official := by
  refine ⟨.reset, ?_⟩
  unfold state TCPSender.stateSummary TCPReceiver.stateSummary
  rw [h.failed.1, h.failed.2, h.inactive]
  rfl

/-! ## The errors of the streams -/

/-- Either both streams are marked as failed, or none. -/
def SameErrors (c : TCPConnection) : Prop :=
  (∃ data, c.sender.Sound data) ∧ c.sender.stream.error = c.receiver.streamOut.error

theorem stable_sameErrors : Stable SameErrors where
  flags := fun _ _ _ _ _ h => h
  fillWindow := fun _ ⟨⟨data, hs⟩, h⟩ => ⟨⟨data, hs.fillWindow⟩, (fillWindow_error hs).trans h⟩
  sendEmptySegment := fun _ ⟨⟨data, hs⟩, h⟩ => ⟨⟨data, hs.segmentsOut _⟩, h⟩
  updateOutput := fun _ ⟨⟨data, hs⟩, h⟩ => ⟨⟨data, hs.segmentsOut _⟩, h⟩
  uncleanShutdown := fun _ ⟨⟨data, hs⟩, _⟩ => ⟨⟨data, hs.setError⟩, rfl⟩

theorem tick_stream (s : TCPSender) (junk : Nat → UInt8) (ms : Nat) :
    (s.tick junk ms).stream = s.stream := by
  obtain ⟨q, timer, segs, heq, -⟩ := TCPSender.tick_frame junk s ms
  rw [heq]

theorem SameErrors.step (h : c.SameErrors) (junk : Nat → UInt8) (op : ConnectionOp) :
    (c.step junk op).SameErrors := by
  obtain ⟨⟨data, hs⟩, herr⟩ := h
  have hst := stable_sameErrors
  cases op with
  | connect => exact hst.fill ⟨⟨data, hs⟩, herr⟩
  | write d =>
      show (c.write d).1.SameErrors
      unfold TCPConnection.write
      split_ifs
      · exact ⟨⟨data, hs⟩, herr⟩
      · refine hst.fill (c := c.onSender _) ⟨⟨_, hs.write d⟩, Eq.trans ?_ herr⟩
        exact ByteStream.write_error c.sender.stream d
  | endInputStream => exact hst.fill (c := c.onSender _) ⟨⟨data, hs.endStream⟩, herr⟩
  | tick ms =>
      refine tick_rule hst (fun c' h' _ => ?_) (fun c' h' => ?_) ⟨⟨data, hs⟩, herr⟩
      · obtain ⟨⟨data', hs'⟩, herr'⟩ := h'
        refine ⟨⟨data', hs'.tick junk ms.toNat⟩, Eq.trans ?_ herr'⟩
        exact congrArg ByteStream.error (tick_stream c'.sender junk ms.toNat)
      · obtain ⟨⟨data', hs'⟩, herr'⟩ := h'
        unfold SameErrors
        rw [sendRSTSeg_sender, sendRSTSeg_receiver]
        exact ⟨⟨data', hs'.segmentsOut _⟩, herr'⟩
  | segmentReceived seg =>
      refine segmentReceived_rule hst (fun h' => ⟨h'.1, ?_⟩) (fun _ c' h' _ => ?_)
        ⟨⟨data, hs⟩, herr⟩
      · exact h'.2.trans (c.receiver.segmentReceived_error seg).symm
      · obtain ⟨⟨data', hs'⟩, herr'⟩ := h'
        refine ⟨⟨data', hs'.ackReceived _ _⟩, Eq.trans ?_ herr'⟩
        exact congrArg ByteStream.error (TCPSender.ackReceived_frame c'.sender _ _).2.1
  | readInbound len => exact ⟨⟨data, hs⟩, herr⟩
  | popSegment => exact ⟨⟨data, hs⟩, herr⟩

/-- A connection that was reset stays so. -/
theorem WasReset.step (h : c.WasReset) (junk : Nat → UInt8) (op : ConnectionOp) :
    (c.step junk op).WasReset := by
  have herrors := SameErrors.step ⟨h.sender, h.failed.1.trans h.failed.2.symm⟩ junk op
  have hreceiver : (c.step junk op).receiver.streamOut.error = c.receiver.streamOut.error := by
    cases op with
    | tick ms =>
        exact congrArg (fun c : TCPConnection => c.receiver.streamOut.error)
          (tick_of_inactive junk ms.toNat h.inactive)
    | segmentReceived seg =>
        exact congrArg (fun c : TCPConnection => c.receiver.streamOut.error)
          (segmentReceived_of_inactive seg h.inactive)
    | write d =>
        show (c.write d).1.receiver.streamOut.error = c.receiver.streamOut.error
        unfold TCPConnection.write
        split_ifs <;> rfl
    | connect => rfl
    | endInputStream => rfl
    | readInbound len => rfl
    | popSegment => rfl
  have hfailed := hreceiver.trans h.failed.2
  exact ⟨herrors.1, step_inactive junk op h.inactive, herrors.2.trans hfailed, hfailed⟩

/-! ## Steps of a regular connection -/

theorem senderStable_orderly :
    SenderStable (fun s => ∃ data, s.Sound data ∧ s.Orderly) where
  segmentsOut := fun _ segs ⟨data, h, ho⟩ => ⟨data, h.segmentsOut segs, ho.congr rfl rfl⟩
  write := fun s d ⟨_, h, ho⟩ =>
    ⟨_, h.write d, ho.congr rfl (ByteStream.write_numBytesRead s.stream d)⟩
  endStream := fun _ ⟨data, h, ho⟩ => ⟨data, h.endStream, ho.congr rfl rfl⟩
  setError := fun _ ⟨data, h, ho⟩ => ⟨data, h.setError, ho.congr rfl rfl⟩
  fillWindow := fun _ ⟨data, h, ho⟩ => ⟨data, h.fillWindow, ho.fillWindow h⟩
  tick := fun _ junk ms ⟨data, h, ho⟩ => ⟨data, h.tick junk ms, ho.tick junk ms⟩

theorem senderStable_keeps (q₀ : UnAckQueue) :
    SenderStable (fun s => (∃ data, s.Sound data) ∧ q₀.Keeps s.unAckQueue) := by
  refine senderStable_queue (R := fun q => q₀.Keeps q) (fun s s' seg hs hk => hk.trans ?_)
    (fun q hk => hk.trans ⟨id, id, fun _ => rfl⟩)
  refine ⟨fun _ => hs.synSent_eq, fun hsyn => hs.synAcked_eq.trans hsyn, ?_⟩
  intro hfin
  exact absurd (hfin.symm.trans hs.finSent_before) (by simp)

theorem senderStable_synAcked (b : Bool) :
    SenderStable (fun s => (∃ data, s.Sound data) ∧ s.unAckQueue.synAcked = b) :=
  senderStable_queue (R := fun q => q.synAcked = b)
    (fun _ _ _ hs hb => hs.synAcked_eq.trans hb) (fun _ hb => hb)

/-- What every step in turn does, whichever branch it takes. -/
structure Follows (c c' : TCPConnection) : Prop where
  sender : ∃ data, c'.sender.Sound data ∧ c'.sender.Orderly
  keeps : c.sender.unAckQueue.Keeps c'.sender.unAckQueue
  errors : c'.sender.stream.error = c'.receiver.streamOut.error

theorem Regular.follows (h : c.Regular) (junk : Nat → UInt8) {op : ConnectionOp}
    (hop : c.InTurn op) : c.Follows (c.step junk op) := by
  obtain ⟨data, hs, ho⟩ := h.sender
  refine ⟨sender_rule senderStable_orderly junk ?_ h.sender,
    (sender_rule (senderStable_keeps c.sender.unAckQueue) junk ?_ ⟨⟨data, hs⟩, id, id, id⟩).2,
    (SameErrors.step ⟨⟨data, hs⟩, h.sender_ok.trans h.receiver_ok.symm⟩ junk op).2⟩
  · rintro seg segs rfl htakes ⟨data', hs', ho'⟩
    exact ⟨data', hs'.ackReceived _ _, ho'.ackReceived hs' _ (hop.2 htakes).1⟩
  · rintro seg segs - - ⟨⟨data', hs'⟩, hk⟩
    exact ⟨⟨data', hs'.ackReceived _ _⟩, hk.trans (TCPSender.ackReceived_keeps _ _ _)⟩

/-- What the state shows of a receiver. -/
def marks (r : TCPReceiver) : Bool × Bool × Bool :=
  (r.synRecv, r.streamOut.inputEnded, r.streamOut.error)

/-- A step that changes neither what the state shows of the receiver, nor whether the connection
lingers or waits. -/
theorem Regular.of_marks (h : c.Regular) {c' : TCPConnection} (hf : c.Follows c')
    (hmarks : marks c'.receiver = marks c.receiver)
    (hlinger : c'.lingerAfterStreamsFinish = c.lingerAfterStreamsFinish)
    (htimeWait : c'.timeWait = c.timeWait) (hactive : c'.active = true → c.active = true)
    (hsyn : c.sender.unAckQueue.synAcked = false → c.receiver.synRecv = false →
      c'.sender.unAckQueue.synAcked = false)
    (hclosing : c'.active = true → c.Ended → c.lingerAfterStreamsFinish = false →
      c'.sender.unAckQueue.finAcked = false)
    (hend : c'.active = false → c.Ended ∧ c'.sender.unAckQueue.finAcked = true) :
    c'.Regular := by
  simp only [marks, Prod.mk.injEq] at hmarks
  obtain ⟨hrecv, hended, herror⟩ := hmarks
  have hEnded : c'.Ended ↔ c.Ended := by
    unfold Ended
    rw [hended]
  refine ⟨hf.sender, hf.errors.trans (herror.trans h.receiver_ok), herror.trans h.receiver_ok,
    ?_, ?_, ?_, ?_, ?_, ?_, ?_, ?_⟩
  · rw [hrecv, hEnded]
    exact fun hr => ⟨hsyn (h.listen hr).1 hr, (h.listen hr).2⟩
  · rw [hrecv]
    exact fun hr => hf.keeps.synSent (h.opened hr)
  · rw [hlinger, hEnded]
    exact h.linger_ended
  · rw [htimeWait, hEnded]
    exact h.timeWait_ended
  · rw [hEnded]
    exact fun ha he => hf.keeps.synAcked (h.synced (hactive ha) he)
  · rw [hEnded, hlinger]
    exact fun ha he hl => hf.keeps.finSent (h.lingering (hactive ha) he hl)
  · rw [hEnded, hlinger]
    exact hclosing
  · rw [hEnded]
    exact hend

/-- Without a segment nothing becomes acknowledged. -/
theorem Regular.acked_eq (h : c.Regular) (junk : Nat → UInt8) (op : ConnectionOp)
    (hseg : ∀ seg, op ≠ .segmentReceived seg) :
    (c.step junk op).sender.unAckQueue.synAcked = c.sender.unAckQueue.synAcked ∧
      (c.step junk op).sender.unAckQueue.finAcked = c.sender.unAckQueue.finAcked := by
  obtain ⟨data, hs, -⟩ := h.sender
  refine ⟨?_, step_finAcked junk op ⟨data, hs⟩ (fun seg hop => absurd hop (hseg seg))⟩
  exact (sender_rule (senderStable_synAcked c.sender.unAckQueue.synAcked) junk
    (fun seg _ hop => absurd hop (hseg seg)) ⟨⟨data, hs⟩, rfl⟩).2

/-- The calls of the owner. -/
theorem Regular.other (h : c.Regular) (junk : Nat → UInt8) {op : ConnectionOp}
    (hop : c.InTurn op) (htick : ∀ ms, op ≠ .tick ms) (hseg : ∀ seg, op ≠ .segmentReceived seg) :
    (c.step junk op).Regular := by
  obtain ⟨hflags, -⟩ := step_flags (c := c) junk op htick hseg
  have hactive : (c.step junk op).active = c.active := congrArg Flags.active hflags
  obtain ⟨hsyn, hfin⟩ := h.acked_eq junk op hseg
  have hmarks : marks (c.step junk op).receiver = marks c.receiver := by
    cases op with
    | write d =>
        show marks (c.write d).1.receiver = marks c.receiver
        unfold TCPConnection.write
        split_ifs <;> rfl
    | tick ms => exact absurd rfl (htick ms)
    | segmentReceived seg => exact absurd rfl (hseg seg)
    | connect => rfl
    | endInputStream => rfl
    | readInbound len => rfl
    | popSegment => rfl
  refine h.of_marks (h.follows junk hop) hmarks (congrArg Flags.linger hflags)
    (congrArg Flags.timeWait hflags) ?_ (fun h' _ => hsyn.trans h') ?_ ?_
  · exact fun ha => hactive.symm.trans ha
  · exact fun ha he hl => hfin.trans (h.closing (hactive.symm.trans ha) he hl)
  · intro hend
    rw [hfin]
    exact h.ended (hactive.symm.trans hend)

/-- The passage of time. -/
theorem Regular.tick (h : c.Regular) (junk : Nat → UInt8) (ms : UInt64)
    (hop : c.InTurn (.tick ms)) :
    (c.tick junk ms.toNat).WasReset ∨ (c.tick junk ms.toNat).Regular := by
  have hf : c.Follows (c.tick junk ms.toNat) := h.follows junk hop
  have hacked := h.acked_eq junk (.tick ms) (by simp)
  change (c.tick junk ms.toNat).sender.unAckQueue.synAcked = _ ∧
    (c.tick junk ms.toNat).sender.unAckQueue.finAcked = _ at hacked
  obtain ⟨hsyn, hfin⟩ := hacked
  obtain ⟨htimeWait, hlinger, -⟩ := tick_flags c junk ms.toNat
  by_cases hactive : c.active = true
  · rcases tick_cases junk ms.toNat hactive with heq | ⟨htw, hle, heq⟩ | ⟨-, heq⟩
    · left
      obtain ⟨data, hs, -⟩ := hf.sender
      refine ⟨⟨data, hs⟩, ?_, ?_⟩
      · rw [heq]
        rfl
      · rw [heq]
        exact failed_uncleanShutdown _
    · -- the linger time is over
      right
      have hend : (c.tick junk ms.toNat).active = false := by
        rw [heq]
        rfl
      refine h.of_marks hf (by rw [heq]; rfl) hlinger htimeWait ?_ (fun h' _ => hsyn.trans h') ?_ ?_
      · exact fun _ => hactive
      · exact fun ha => absurd (hend.symm.trans ha) (by simp)
      · exact fun _ => ⟨h.timeWait_ended htw, hfin.trans (hop hactive htw hle)⟩
    · right
      have hsame : (c.tick junk ms.toNat).active = c.active := by
        rw [heq]
        rfl
      refine h.of_marks hf (by rw [heq]; rfl) hlinger htimeWait ?_ (fun h' _ => hsyn.trans h') ?_ ?_
      · exact fun _ => hactive
      · exact fun _ he hl => hfin.trans (h.closing hactive he hl)
      · exact fun hend => absurd ((hsame.symm.trans hend).symm.trans hactive) (by simp)
  · rw [tick_of_inactive junk ms.toNat (by simpa using hactive)]
    exact Or.inr h

/-! ### Incoming segments -/

theorem completes_of_ended (hactive : c.active = true) (hopen : ¬c.Ended)
    (hended : (c.receiver.segmentReceived seg).streamOut.inputEnded = true)
    (hbranch : c.outOfOrder seg = true ∨
      (¬seg.header.rst = true ∧ (seg.header.syn = true ↔ c.receiver.ackno = none))) :
    c.completes seg = true := by
  have hopen' : c.receiverFINRecv = false := Bool.eq_false_iff.mpr hopen
  have hended' : (c.receive seg).receiverFINRecv = true := hended
  have hlisten : c.receiverInListen = true ↔ c.receiver.ackno = none := Option.isNone_iff_eq_none
  rw [← hlisten, ← Bool.eq_iff_iff] at hbranch
  rcases hbranch with hout | ⟨hrst, hsyn⟩
  · simp [completes, hactive, hopen', hended', hout]
  · simp [completes, hactive, hopen', hended', hrst, hsyn]

/-- The segment that completes the inbound stream finds the SYN acknowledged, or acknowledges
it. -/
theorem Regular.synAcked_of_completes (h : c.Regular) (hop : c.InTurn (.segmentReceived seg))
    (hf : c.Follows (c.segmentReceived seg)) (hcompletes : c.completes seg = true)
    (htakes : seg.header.ack = true → c.takesAck seg = true) :
    (c.segmentReceived seg).sender.unAckQueue.synAcked = true := by
  rcases (hop.1 hcompletes).2.1 with hsyn | ⟨hack, hone⟩
  · exact hf.keeps.synAcked hsyn
  · have hrule : (∃ data, (c.segmentReceived seg).sender.Sound data) ∧
        (c.segmentReceived seg).sender.unAckQueue.synAcked = true := by
      refine takenAck_rule (P := fun c => ∃ data, c.sender.Sound data ∧ c.sender.Orderly)
        senderStable_orderly.stable (senderStable_synAcked true).stable (fun h' => h')
        (htakes hack) ?_ h.sender
      rintro c' ⟨data, hs, ho⟩ ⟨segs, hsender⟩
      refine ⟨⟨data, hs.ackReceived _ _⟩, ho.ackReceived_synAcked hs _ ?_⟩
      rw [hsender]
      exact hone
    exact hrule.2

theorem Regular.outOfOrder (h : c.Regular) (hop : c.InTurn (.segmentReceived seg))
    (hf : c.Follows (c.segmentReceived seg)) (hactive : c.active = true)
    (hout : c.outOfOrder seg = true) : (c.segmentReceived seg).Regular := by
  have heq : c.segmentReceived seg = c.received.outOfOrderReceived seg := by
    rw [segmentReceived_eq, if_pos hactive, if_pos hout]
  obtain ⟨hflags, hreceiver⟩ := outOfOrderReceived_frame c.received seg
  rw [← heq] at hflags hreceiver
  have hlinger : (c.segmentReceived seg).lingerAfterStreamsFinish = c.lingerAfterStreamsFinish :=
    congrArg Flags.linger hflags
  have htakes : seg.header.ack = true → c.takesAck seg = true :=
    fun hack => takesAck_iff.mpr ⟨hactive, hack, Or.inl hout⟩
  have hsynRecv : c.receiver.synRecv = true := by
    by_contra hns
    have hnone := TCPReceiver.ackno_eq_none_iff.mpr (by simpa using hns)
    simp [TCPConnection.outOfOrder, hnone] at hout
  obtain ⟨herror, hsynRecv'⟩ := TCPReceiver.marks_of_received (Or.inr hreceiver)
  replace herror := herror.trans h.receiver_ok
  have hstill : (c.segmentReceived seg).active = true := (congrArg Flags.active hflags).trans hactive
  have hstays : c.Ended → (c.segmentReceived seg).Ended := by
    unfold Ended
    rw [hreceiver]
    exact c.receiver.segmentReceived_ended seg
  have hcompletes : ¬c.Ended → (c.segmentReceived seg).Ended → c.completes seg = true := by
    intro hopen hended
    unfold Ended at hended
    rw [hreceiver] at hended
    exact completes_of_ended hactive hopen hended (Or.inl hout)
  refine ⟨hf.sender, hf.errors.trans herror, herror, ?_, ?_, ?_, ?_, ?_, ?_, ?_, ?_⟩
  · exact fun hns => absurd (hns.symm.trans (hsynRecv' hsynRecv)) (by simp)
  · exact fun _ => hf.keeps.synSent (h.opened hsynRecv)
  · rw [hlinger]
    exact fun hl => hstays (h.linger_ended hl)
  · exact fun htw => hstays (h.timeWait_ended ((congrArg Flags.timeWait hflags).symm.trans htw))
  · intro _ hended
    by_cases hopen : c.Ended
    · exact hf.keeps.synAcked (h.synced hactive hopen)
    · exact h.synAcked_of_completes hop hf (hcompletes hopen hended) htakes
  · intro _ hended hl
    by_cases hopen : c.Ended
    · exact hf.keeps.finSent (h.lingering hactive hopen (hlinger.symm.trans hl))
    · exact hf.keeps.finSent ((hop.1 (hcompletes hopen hended)).2.2 hout)
  · intro _ _ hl
    -- the FIN is not acknowledged in this branch
    have hl' := hlinger.symm.trans hl
    obtain ⟨data, hs, -⟩ := h.sender
    refine (step_finAcked (fun _ => 0) (.segmentReceived seg) ⟨data, hs⟩ ?_).trans
      (h.closing hactive (h.linger_ended hl') hl')
    rintro seg' hseg htakes' ⟨hfin, hnext⟩
    cases hseg
    exact (hop.2 htakes').2 hout hl' hfin hnext
  · exact fun hend => absurd (hend.symm.trans hstill) (by simp)

theorem Regular.finRecvReceived (h : c.Regular) (hf : c.Follows (c.segmentReceived seg))
    (hactive : c.active = true) (hended : c.Ended)
    (heq : c.segmentReceived seg = c.received.finRecvReceived seg) :
    (c.segmentReceived seg).Regular := by
  obtain ⟨hreceiver, hflags⟩ := finRecvReceived_flags c.received seg
  rw [← heq] at hreceiver hflags
  have hlinger : (c.segmentReceived seg).lingerAfterStreamsFinish = c.lingerAfterStreamsFinish := by
    rcases hflags with hflags | ⟨hflags, -⟩ <;> exact congrArg Flags.linger hflags
  have htimeWait : (c.segmentReceived seg).timeWait = c.timeWait := by
    rcases hflags with hflags | ⟨hflags, -⟩ <;> exact congrArg Flags.timeWait hflags
  refine h.of_marks hf (by rw [hreceiver]; rfl) hlinger htimeWait (fun _ => hactive) ?_ ?_ ?_
  · exact fun _ hr => absurd hended (h.listen hr).2
  · intro ha _ hl
    obtain ⟨data, hs, -⟩ := h.sender
    rw [heq] at ha ⊢
    exact finRecvReceived_unacked ⟨data, hs⟩ hl (h.closing hactive hended hl) ha
  · intro hend
    rcases hflags with hflags | ⟨-, -, hfin⟩
    · exact absurd (((congrArg Flags.active hflags).symm.trans hend).symm.trans hactive) (by simp)
    · exact ⟨hended, hfin⟩

/-- A segment that is not used. -/
theorem Regular.received (h : c.Regular) (hactive : c.active = true) : c.received.Regular := by
  have hend : ¬c.received.active = false := by simp [TCPConnection.received, hactive]
  exact ⟨h.sender, h.sender_ok, h.receiver_ok, h.listen, h.opened, h.linger_ended,
    h.timeWait_ended, h.synced, h.lingering, h.closing, fun he => absurd he hend⟩

/-- The answer to the peer's SYN carries the SYN of this side, unless it was sent before. -/
theorem listenReceived_synSent (hs : ∃ data, c.sender.Sound data) (hsyn : seg.header.syn = true) :
    (c.listenReceived seg).sender.unAckQueue.synSent = true := by
  unfold TCPConnection.listenReceived
  rw [if_pos hsyn, replyIfIdle_queue]
  have hs' : ∃ data, ((c.receive seg).onlyIf seg.header.ack
      (fun c => c.ackReceived seg.header)).sender.Sound data :=
    onlyIf_rule (P := fun c => ∃ data, c.sender.Sound data) hs
      (fun _ ⟨data, h'⟩ => ⟨data, h'.ackReceived _ _⟩)
  obtain ⟨data, hs'⟩ := hs'
  exact hs'.fillWindow_synSent

theorem Regular.listenReceived (h : c.Regular) (hop : c.InTurn (.segmentReceived seg))
    (hf : c.Follows (c.segmentReceived seg)) (hactive : c.active = true)
    (hrst : ¬seg.header.rst = true) (hopen : ¬c.Ended) (hlisten : c.receiver.ackno = none)
    (heq : c.segmentReceived seg = c.received.listenReceived seg) :
    (c.segmentReceived seg).Regular := by
  by_cases hsyn : seg.header.syn = true
  · have hflags : (c.segmentReceived seg).flags = c.received.flags := by
      rw [heq]
      exact listenReceived_flags
    have hreceiver : (c.segmentReceived seg).receiver = c.receiver.segmentReceived seg := by
      rw [heq]
      exact listenReceived_receiver hsyn
    -- a SYN segment in turn does not complete the stream
    have hopen' : ¬(c.segmentReceived seg).Ended := by
      intro hended
      unfold Ended at hended
      rw [hreceiver] at hended
      have hcompletes := completes_of_ended hactive hopen hended
        (Or.inr ⟨hrst, fun _ => hlisten, fun _ => hsyn⟩)
      exact (hop.1 hcompletes).1 hlisten
    have herror : (c.segmentReceived seg).receiver.streamOut.error = false := by
      rw [hreceiver]
      exact (c.receiver.segmentReceived_error seg).trans h.receiver_ok
    have hstill : (c.segmentReceived seg).active = true :=
      (congrArg Flags.active hflags).trans hactive
    have hsynSent : (c.segmentReceived seg).sender.unAckQueue.synSent = true := by
      obtain ⟨data, hs, -⟩ := h.sender
      rw [heq]
      exact listenReceived_synSent ⟨data, hs⟩ hsyn
    refine ⟨hf.sender, hf.errors.trans herror, herror, ?_, fun _ => hsynSent, ?_, ?_, ?_, ?_, ?_, ?_⟩
    · have hsynRecv := TCPReceiver.segmentReceived_synRecv (r := c.receiver) seg (Or.inr hsyn)
      rw [hreceiver]
      exact fun hns => absurd (hns.symm.trans hsynRecv) (by simp)
    · exact fun hl => absurd (h.linger_ended ((congrArg Flags.linger hflags).symm.trans hl)) hopen
    · exact fun htw =>
        absurd (h.timeWait_ended ((congrArg Flags.timeWait hflags).symm.trans htw)) hopen
    · exact fun _ he => absurd he hopen'
    · exact fun _ he => absurd he hopen'
    · exact fun _ he => absurd he hopen'
    · exact fun hend => absurd (hend.symm.trans hstill) (by simp)
  · have hsame : c.segmentReceived seg = c.received := by
      rw [heq]
      unfold TCPConnection.listenReceived
      rw [if_neg hsyn]
    rw [hsame]
    exact h.received hactive

theorem synRecvReceived_receiver (c : TCPConnection) (seg : TCPSegment) :
    (c.synRecvReceived seg).receiver = c.receiver ∨
      (c.synRecvReceived seg).receiver = c.receiver.segmentReceived seg := by
  unfold synRecvReceived
  split_ifs with hsyn
  · exact Or.inl rfl
  · have hended : ∀ c : TCPConnection, c.inboundEnded.receiver = c.receiver := by
      intro c
      unfold inboundEnded
      split_ifs <;> rw [replyIfIdle_receiver]
    dsimp only
    rw [onlyIf_receiver hended, onlyIf_receiver (fun _ => replyIfIdle_receiver),
      onlyIf_receiver (f := fun c => (c.ackReceived seg.header).fill) (fun _ => rfl)]
    unfold onlyIf
    split_ifs
    · exact Or.inr rfl
    · exact Or.inl rfl

theorem Regular.synRecvReceived (h : c.Regular) (hop : c.InTurn (.segmentReceived seg))
    (hf : c.Follows (c.segmentReceived seg)) (hactive : c.active = true)
    (hrst : ¬seg.header.rst = true) (hopen : ¬c.Ended) (hlisten : ¬c.receiver.ackno = none)
    (heq : c.segmentReceived seg = c.received.synRecvReceived seg) :
    (c.segmentReceived seg).Regular := by
  by_cases hsyn : seg.header.syn = true
  · have hsame : c.segmentReceived seg = c.received := by
      rw [heq]
      unfold TCPConnection.synRecvReceived
      rw [if_pos hsyn]
    rw [hsame]
    exact h.received hactive
  · have hsynRecv : c.receiver.synRecv = true := by
      by_contra hns
      exact hlisten (TCPReceiver.ackno_eq_none_iff.mpr (by simpa using hns))
    have hreceiver := synRecvReceived_receiver c.received seg
    have hflags := synRecvReceived_flags (c := c.received) seg hopen
    rw [← heq] at hreceiver hflags
    obtain ⟨herror, hsynRecv'⟩ := TCPReceiver.marks_of_received hreceiver
    replace herror := herror.trans h.receiver_ok
    -- the stream ends only with a segment that was given to the receiver
    have hsynAcked : (c.segmentReceived seg).Ended →
        (c.segmentReceived seg).sender.unAckQueue.synAcked = true := by
      intro hended
      refine h.synAcked_of_completes hop hf ?_
        (fun hack => takesAck_iff.mpr ⟨hactive, hack, Or.inr ⟨hrst, by simp [hsyn, hlisten]⟩⟩)
      unfold Ended at hended
      rcases hreceiver with hr | hr
      · rw [hr] at hended
        exact absurd hended hopen
      · rw [hr] at hended
        exact completes_of_ended hactive hopen hended (Or.inr ⟨hrst, by simp [hsyn, hlisten]⟩)
    have hlinger := h.linger_of_open hopen
    have hstill : (c.segmentReceived seg).active = true := by
      rcases hflags with ⟨-, hfl⟩ | ⟨-, -, hfl⟩ | ⟨-, -, hfl⟩ <;>
        exact (congrArg Flags.active hfl).trans hactive
    refine ⟨hf.sender, hf.errors.trans herror, herror, ?_, ?_, ?_, ?_, fun _ => hsynAcked, ?_, ?_, ?_⟩
    · exact fun hns => absurd (hns.symm.trans (hsynRecv' hsynRecv)) (by simp)
    · exact fun _ => hf.keeps.synSent (h.opened hsynRecv)
    · intro hl
      rcases hflags with ⟨-, hfl⟩ | ⟨hended, -, -⟩ | ⟨hended, -, -⟩
      · exact absurd (((congrArg Flags.linger hfl).trans hlinger).symm.trans hl) (by simp)
      · exact hended
      · exact hended
    · intro htw
      rcases hflags with ⟨-, hfl⟩ | ⟨hended, -, -⟩ | ⟨hended, -, -⟩
      · exact absurd (h.timeWait_ended ((congrArg Flags.timeWait hfl).symm.trans htw)) hopen
      · exact hended
      · exact hended
    · intro _ hended hl
      rcases hflags with ⟨hopen', -⟩ | ⟨-, -, hfl⟩ | ⟨-, hfin, -⟩
      · exact absurd hended hopen'
      · exact absurd ((congrArg Flags.linger hfl).symm.trans hl) (by simp)
      · exact hfin
    · intro _ hended hl
      rcases hflags with ⟨hopen', -⟩ | ⟨-, hfin, -⟩ | ⟨-, -, hfl⟩
      · exact absurd hended hopen'
      · -- the FIN was not sent, so it is not acknowledged
        obtain ⟨data, hs, -⟩ := hf.sender
        by_contra hacked
        exact absurd (hs.fin_sent (by simpa using hacked)) (by simp [hfin])
      · exact absurd (((congrArg Flags.linger hfl).trans hlinger).symm.trans hl) (by simp)
    · exact fun hend => absurd (hend.symm.trans hstill) (by simp)

theorem Regular.segmentReceived (h : c.Regular) (hop : c.InTurn (.segmentReceived seg)) :
    (c.segmentReceived seg).WasReset ∨ (c.segmentReceived seg).Regular := by
  have hf : c.Follows (c.segmentReceived seg) := h.follows (fun _ => 0) hop
  have heq := segmentReceived_eq c seg
  by_cases hactive : c.active = true
  · rw [if_pos hactive] at heq
    by_cases hout : c.outOfOrder seg = true
    · exact Or.inr (h.outOfOrder hop hf hactive hout)
    · rw [if_neg hout] at heq
      by_cases hrst : seg.header.rst = true
      · -- the only branch that resets
        rw [if_pos hrst] at heq
        obtain ⟨data, hs, -⟩ := hf.sender
        refine Or.inl ⟨⟨data, hs⟩, ?_, ?_⟩
        · rw [heq]
          rfl
        · rw [heq]
          exact failed_uncleanShutdown _
      · rw [if_neg hrst] at heq
        by_cases hended : c.receiver.streamOut.inputEnded = true
        · rw [if_pos hended] at heq
          exact Or.inr (h.finRecvReceived hf hactive hended heq)
        · rw [if_neg hended] at heq
          by_cases hlisten : c.receiver.ackno = none
          · rw [if_pos hlisten] at heq
            exact Or.inr (h.listenReceived hop hf hactive hrst hended hlisten heq)
          · rw [if_neg hlisten] at heq
            exact Or.inr (h.synRecvReceived hop hf hactive hrst hended hlisten heq)
  · rw [segmentReceived_of_inactive seg (by simpa using hactive)]
    exact Or.inr h

/-- A step in turn leaves a regular connection regular, or resets it. -/
theorem regular_step (junk : Nat → UInt8) {op : ConnectionOp} (h : c.WasReset ∨ c.Regular)
    (hop : c.InTurn op) : (c.step junk op).WasReset ∨ (c.step junk op).Regular := by
  rcases h with h | h
  · exact Or.inl (h.step junk op)
  · cases op using ConnectionOp.kindCases with
    | tick ms => exact h.tick junk ms hop
    | segmentReceived seg => exact h.segmentReceived hop
    | owner op htick hseg => exact Or.inr (h.other junk hop htick hseg)

end

/-- **Only official states are reached** in a run whose steps are all in turn, as long as the
sequence numbers fit into 64 bits. -/
theorem run_official (junk : Nat → UInt8) (cfg : TCPConfig) (isn : WrappingInt32)
    (ops : List ConnectionOp) (hops : Admits (step junk) InTurn (new cfg isn) ops)
    (hsmall : (after junk cfg isn ops).sender.stream.bytesWritten + 2 < 2 ^ 64) :
    (after junk cfg isn ops).Official := by
  have hinv : (after junk cfg isn ops).WasReset ∨ (after junk cfg isn ops).Regular :=
    run_invariant (I := fun c : TCPConnection => c.WasReset ∨ c.Regular)
      (fun _ _ h hop => regular_step junk h hop) (Or.inr (regular_new cfg isn)) hops
  rcases hinv with h | h
  · exact h.official
  · exact h.official hsmall

/-- The peer closes first, and the connection after it. -/
theorem passiveClose_official :
    (after (fun _ => 0) {} ⟨0⟩
      [.segmentReceived { header := { syn := true } },
        .segmentReceived { header := { seqno := ⟨1⟩, ack := true, ackno := ⟨1⟩, win := 100 } },
        .write [97],
        .segmentReceived { header := { seqno := ⟨1⟩, fin := true, ack := true, ackno := ⟨2⟩, win := 100 } },
        .endInputStream]).Official :=
  run_official (fun _ => 0) {} ⟨0⟩ _ (by decide +kernel) (by decide +kernel)

/-- **An unofficial state.** The peer's FIN arrives before the SYN that was sent in answer to its
own is acknowledged. -/
theorem earlyFin_not_official :
    ¬(after (fun _ => 0) {} ⟨0⟩
      [.segmentReceived { header := { syn := true } },
        .segmentReceived { header := { seqno := ⟨1⟩, fin := true } }]).Official := by
  rintro ⟨s, hs⟩
  cases s <;> revert hs <;> decide +kernel

end TCPConnection

end Sponge
