import Sponge.Sender.Invariant
import Sponge.TCPConnection

set_option autoImplicit false

/-! # The connection as a machine

Every call of a connection is a sequence of a few actions: the sender or the receiver is
called, the sender's segments are moved to the outgoing queue, or a flag changes. The rules
`segmentReceived_rule` and `tick_rule` say that what all these actions preserve, the call
preserves. -/

namespace Sponge

open Word

/-- The calls on a connection, and the owner's reads of the inbound stream and takes from the
outgoing queue. -/
inductive ConnectionOp where
  | connect
  | write (data : Bytes)
  | endInputStream
  | tick (msSinceLastTick : UInt64)
  | segmentReceived (seg : TCPSegment)
  | readInbound (len : Nat)
  | popSegment

/-- The kinds of calls: time, an incoming segment, and the calls of the owner. -/
@[elab_as_elim]
theorem ConnectionOp.kindCases {motive : ConnectionOp → Prop} (op : ConnectionOp)
    (tick : ∀ ms, motive (.tick ms)) (segmentReceived : ∀ seg, motive (.segmentReceived seg))
    (owner : ∀ op, (∀ ms, op ≠ .tick ms) → (∀ seg, op ≠ .segmentReceived seg) → motive op) :
    motive op := by
  cases op with
  | tick ms => exact tick ms
  | segmentReceived seg => exact segmentReceived seg
  | connect | write _ | endInputStream | readInbound _ | popSegment =>
      exact owner _ (by simp) (by simp)

namespace TCPConnection

def step (junk : Nat → UInt8) (c : TCPConnection) : ConnectionOp → TCPConnection
  | .connect => c.connect
  | .write data => (c.write data).1
  | .endInputStream => c.endInputStream
  | .tick ms => c.tick junk ms.toNat
  | .segmentReceived seg => c.segmentReceived seg
  | .readInbound len => (c.readInbound len).2
  | .popSegment => c.popSegment.2

/-- A connection that has done `ops`. -/
def after (junk : Nat → UInt8) (cfg : TCPConfig) (isn : WrappingInt32)
    (ops : List ConnectionOp) : TCPConnection :=
  Run.run (step junk) (new cfg isn) ops

/-! ## Rules -/

/-- What the actions that take part in every call preserve. -/
structure Stable (P : TCPConnection → Prop) : Prop where
  flags : ∀ c linger active time timeWait, P c → P { c with
    lingerAfterStreamsFinish := linger
    active := active
    timeSinceLastSegmentReceived := time
    timeWait := timeWait }
  fillWindow : ∀ c, P c → P c.fillWindow
  sendEmptySegment : ∀ c, P c → P c.sendEmptySegment
  updateOutput : ∀ c, P c → P c.updateOutput
  uncleanShutdown : ∀ c, P c → P c.uncleanShutdown

/-- The connection when a segment has just been received. -/
def received (c : TCPConnection) : TCPConnection := { c with timeSinceLastSegmentReceived := 0 }

/-- The branches for an incoming segment on an active connection. -/
theorem segmentReceived_eq (c : TCPConnection) (seg : TCPSegment) :
    c.segmentReceived seg =
      if c.active = true then
        if c.outOfOrder seg = true then c.received.outOfOrderReceived seg
        else if seg.header.rst = true then c.received.uncleanShutdown
        else if c.receiver.streamOut.inputEnded = true then c.received.finRecvReceived seg
        else if c.receiver.ackno = none then c.received.listenReceived seg
        else c.received.synRecvReceived seg
      else c := by
  have hlisten : c.received.receiverInListen = true ↔ c.receiver.ackno = none :=
    Option.isNone_iff_eq_none
  unfold segmentReceived
  by_cases hactive : c.active = true
  · rw [if_neg (by simp [hactive]), if_pos hactive]
    simp only [← hlisten]
    rfl
  · rw [if_pos (by simp [hactive]), if_neg hactive]

/-- The acknowledgment of an incoming segment reaches the sender: the connection is active, and
the segment goes to a branch that uses it. -/
def takesAck (c : TCPConnection) (seg : TCPSegment) : Bool :=
  c.active && seg.header.ack &&
    (c.outOfOrder seg || (!seg.header.rst &&
      (seg.header.syn == (!c.receiverFINRecv && c.receiverInListen))))

theorem takesAck_iff {c : TCPConnection} {seg : TCPSegment} :
    c.takesAck seg = true ↔ c.active = true ∧ seg.header.ack = true ∧
      (c.outOfOrder seg = true ∨ (¬seg.header.rst = true ∧
        (seg.header.syn = true ↔
          ¬c.receiver.streamOut.inputEnded = true ∧ c.receiver.ackno = none))) := by
  have hlisten : c.receiverInListen = true ↔ c.receiver.ackno = none :=
    Option.isNone_iff_eq_none
  have hbranch : ∀ x y z : Bool,
      (x == (!y && z)) = true ↔ (x = true ↔ ¬y = true ∧ z = true) := by
    decide
  rw [← hlisten]
  unfold takesAck receiverFINRecv
  simp only [Bool.and_eq_true, Bool.or_eq_true, Bool.not_eq_true', Bool.not_eq_true, hbranch,
    and_assoc]

section

variable {P : TCPConnection → Prop} {c : TCPConnection}

theorem onlyIf_pos {b : Bool} {f : TCPConnection → TCPConnection} (hb : b = true) :
    c.onlyIf b f = f c := if_pos hb

theorem onlyIf_rule {b : Bool} {f : TCPConnection → TCPConnection} (h : P c)
    (hf : b = true → P c → P (f c)) : P (c.onlyIf b f) := by
  unfold onlyIf
  split_ifs with hb
  · exact hf hb h
  · exact h

theorem Stable.fill (hst : Stable P) (h : P c) : P c.fill :=
  hst.updateOutput _ (hst.fillWindow _ h)

theorem Stable.reply (hst : Stable P) (h : P c) : P c.reply :=
  hst.updateOutput _ (hst.sendEmptySegment _ h)

theorem Stable.replyIfIdle (hst : Stable P) (h : P c) : P c.replyIfIdle :=
  onlyIf_rule h (fun _ => hst.reply)

theorem Stable.closeOrFill (hst : Stable P) (h : P c) : P c.closeOrFill := by
  unfold TCPConnection.closeOrFill
  split_ifs with hfin
  · exact hst.flags c _ false _ _ h
  · exact hst.fill h

theorem Stable.inboundEnded (hst : Stable P) (h : P c) : P c.inboundEnded := by
  unfold TCPConnection.inboundEnded
  split_ifs with hfin
  · exact hst.replyIfIdle (hst.flags c false _ _ _ h)
  · exact hst.replyIfIdle (hst.flags c _ _ _ true h)

/-- Nothing but the segments that the sender wants sent has changed in it. -/
def SenderSame (s : TCPSender) (c : TCPConnection) : Prop :=
  ∃ segs, c.sender = { s with segmentsOut := segs }

theorem SenderSame.reply {s : TCPSender} (h : SenderSame s c) : SenderSame s c.reply := by
  obtain ⟨segs, hsender⟩ := h
  refine ⟨[], ?_⟩
  simp [TCPConnection.reply, updateOutput, sendEmptySegment, onSender, TCPSender.sendEmptySegment,
    hsender]

/-- **The rule for incoming segments.** The segment is given to the receiver first, if at all.
The acknowledgment is given to the sender once if it is taken, when nothing but the sender's
queue of segments has changed, and else not at all. -/
theorem segmentReceived_rule {seg : TCPSegment} (hst : Stable P)
    (hrecv : P c.received → P (c.received.receive seg))
    (hack : c.takesAck seg = true → ∀ c', P c' → SenderSame c.sender c' →
      P (c'.ackReceived seg.header))
    (h : P c) : P (c.segmentReceived seg) := by
  rw [segmentReceived_eq]
  have h₀ : P c.received := hst.flags c _ _ 0 _ h
  have hsame₀ : SenderSame c.sender c.received := ⟨c.sender.segmentsOut, rfl⟩
  have hrecv₀ : P (c.received.receive seg) := hrecv h₀
  have hsame₁ : SenderSame c.sender (c.received.receive seg) := hsame₀
  split_ifs with hactive hout hrst hfin hlisten
  · -- out of order
    refine hst.updateOutput _ (onlyIf_rule ?_ (fun _ => hst.sendEmptySegment _))
    have htakes : seg.header.ack = true → c.takesAck seg = true :=
      fun hb => takesAck_iff.mpr ⟨hactive, hb, Or.inl hout⟩
    exact onlyIf_rule hrecv₀ (fun hb h' => hst.fillWindow _ (hack (htakes hb) _ h' hsame₁))
  · exact hst.uncleanShutdown _ h₀
  · -- the inbound stream has ended: the segment is not given to the receiver
    unfold finRecvReceived
    have htakes : ¬seg.header.syn = true → seg.header.ack = true → c.takesAck seg = true :=
      fun hsyn hb => takesAck_iff.mpr ⟨hactive, hb, Or.inr ⟨hrst, by simp [hsyn, hfin]⟩⟩
    split_ifs with hsyn hlinger
    · exact h₀
    · have h₁ : P (c.received.onlyIf seg.header.fin reply) ∧
          SenderSame c.sender (c.received.onlyIf seg.header.fin reply) :=
        onlyIf_rule (P := fun c' => P c' ∧ SenderSame c.sender c') ⟨h₀, hsame₀⟩
          (fun _ h' => ⟨hst.reply h'.1, h'.2.reply⟩)
      exact onlyIf_rule h₁.1 (fun hb h' => hst.closeOrFill (hack (htakes hsyn hb) _ h' h₁.2))
    · exact onlyIf_rule (onlyIf_rule h₀ (fun hb h' => hack (htakes hsyn hb) _ h' hsame₀))
        (fun _ => hst.reply)
  · -- before the SYN of the peer
    unfold listenReceived
    split_ifs with hsyn
    · have htakes : seg.header.ack = true → c.takesAck seg = true :=
        fun hb => takesAck_iff.mpr ⟨hactive, hb, Or.inr ⟨hrst, by simp [hsyn, hfin, hlisten]⟩⟩
      exact hst.replyIfIdle
        (hst.fill (onlyIf_rule hrecv₀ (fun hb h' => hack (htakes hb) _ h' hsame₁)))
    · exact h₀
  · -- the inbound stream is open: an empty segment is not given to the receiver
    unfold synRecvReceived
    split_ifs with hsyn
    · exact h₀
    · refine onlyIf_rule (onlyIf_rule ?_ (fun _ => hst.replyIfIdle)) (fun _ => hst.inboundEnded)
      have h₁ : P (c.received.onlyIf (seg.lengthInSequenceSpace != 0) (fun c => c.receive seg)) ∧
          SenderSame c.sender
            (c.received.onlyIf (seg.lengthInSequenceSpace != 0) (fun c => c.receive seg)) :=
        onlyIf_rule (P := fun c' => P c' ∧ SenderSame c.sender c') ⟨h₀, hsame₀⟩
          (fun _ h' => ⟨hrecv h'.1, h'.2⟩)
      have htakes : seg.header.ack = true → c.takesAck seg = true :=
        fun hb => takesAck_iff.mpr ⟨hactive, hb, Or.inr ⟨hrst, by simp [hsyn, hlisten]⟩⟩
      exact onlyIf_rule h₁.1 (fun hb h' => hst.fill (hack (htakes hb) _ h' h₁.2))
  · exact h

/-- The rule for an incoming segment whose acknowledgment is taken. What the acknowledgment
establishes holds at the end of the call. -/
theorem takenAck_rule {P₁ : TCPConnection → Prop} {seg : TCPSegment} (hst : Stable P)
    (hst₁ : Stable P₁) (hrecv : P c.received → P (c.received.receive seg))
    (htakes : c.takesAck seg = true)
    (hack : ∀ c', P c' → SenderSame c.sender c' → P₁ (c'.ackReceived seg.header))
    (h : P c) : P₁ (c.segmentReceived seg) := by
  obtain ⟨hactive, hb, hbranch⟩ := takesAck_iff.mp htakes
  have h₀ : P c.received := hst.flags c _ _ 0 _ h
  have hsame₀ : SenderSame c.sender c.received := ⟨c.sender.segmentsOut, rfl⟩
  have hrecv₁ : P₁ ((c.received.receive seg).ackReceived seg.header) := hack _ (hrecv h₀) hsame₀
  rw [segmentReceived_eq, if_pos hactive]
  by_cases hout : c.outOfOrder seg = true
  · rw [if_pos hout]
    refine hst₁.updateOutput _ (onlyIf_rule ?_ (fun _ => hst₁.sendEmptySegment _))
    rw [onlyIf_pos hb]
    exact hst₁.fillWindow _ hrecv₁
  · obtain ⟨hrst, hsyn⟩ := hbranch.resolve_left hout
    rw [if_neg hout, if_neg hrst]
    by_cases hended : c.receiver.streamOut.inputEnded = true
    · have hsyn' : ¬seg.header.syn = true := fun h' => (hsyn.mp h').1 hended
      rw [if_pos hended]
      unfold finRecvReceived
      rw [if_neg hsyn']
      split_ifs with hlinger
      · -- a repeated FIN is answered before the acknowledgment is used
        obtain ⟨h₁, hsame₁⟩ : P (c.received.onlyIf seg.header.fin reply) ∧
            SenderSame c.sender (c.received.onlyIf seg.header.fin reply) :=
          onlyIf_rule (P := fun c' => P c' ∧ SenderSame c.sender c') ⟨h₀, hsame₀⟩
            (fun _ h' => ⟨hst.reply h'.1, h'.2.reply⟩)
        rw [onlyIf_pos hb]
        exact hst₁.closeOrFill (hack _ h₁ hsame₁)
      · rw [onlyIf_pos hb]
        exact onlyIf_rule (hack _ h₀ hsame₀) (fun _ => hst₁.reply)
    · rw [if_neg hended]
      by_cases hlisten : c.receiver.ackno = none
      · have hsyn' : seg.header.syn = true := hsyn.mpr ⟨hended, hlisten⟩
        rw [if_pos hlisten]
        unfold listenReceived
        rw [if_pos hsyn', onlyIf_pos hb]
        exact hst₁.replyIfIdle (hst₁.fill hrecv₁)
      · have hsyn' : ¬seg.header.syn = true := fun h' => hlisten (hsyn.mp h').2
        rw [if_neg hlisten]
        unfold synRecvReceived
        rw [if_neg hsyn']
        refine onlyIf_rule (onlyIf_rule ?_ (fun _ => hst₁.replyIfIdle)) (fun _ => hst₁.inboundEnded)
        rw [onlyIf_pos hb]
        obtain ⟨h₁, hsame₁⟩ : P (c.received.onlyIf (seg.lengthInSequenceSpace != 0)
              (fun c => c.receive seg)) ∧
            SenderSame c.sender (c.received.onlyIf (seg.lengthInSequenceSpace != 0)
              (fun c => c.receive seg)) :=
          onlyIf_rule (P := fun c' => P c' ∧ SenderSame c.sender c') ⟨h₀, hsame₀⟩
            (fun _ h' => ⟨hrecv h'.1, h'.2⟩)
        exact hst₁.fill (hack _ h₁ hsame₁)

/-- **The rule for the passage of time.** -/
theorem tick_rule {junk : Nat → UInt8} {ms : Nat} (hst : Stable P)
    (htick : ∀ c', P c' → c'.sender = c.sender → P (c'.onSender (fun s => s.tick junk ms)))
    (hrst : ∀ c, P c → P c.sendRSTSeg) (h : P c) : P (c.tick junk ms) := by
  unfold tick
  dsimp only
  have h₀ : P { c with
      timeSinceLastSegmentReceived := add64 c.timeSinceLastSegmentReceived ms } :=
    hst.flags c _ _ _ _ h
  have h₁ := hst.updateOutput _ (htick _ h₀ rfl)
  split_ifs with hactive hretx hlinger
  · exact h
  · exact hst.uncleanShutdown _ (hrst _ h₁)
  · exact hst.flags _ _ false _ _ h₁
  · exact h₁

end

/-! ## The sender inside a connection -/

/-- What the calls of a connection preserve of its sender, the acknowledgments apart. -/
structure SenderStable (Q : TCPSender → Prop) : Prop where
  segmentsOut : ∀ s segs, Q s → Q { s with segmentsOut := segs }
  write : ∀ s data, Q s → Q (s.writeStream data).1
  endStream : ∀ s, Q s → Q s.endStream
  setError : ∀ s, Q s → Q { s with stream := s.stream.setError }
  fillWindow : ∀ s, Q s → Q s.fillWindow
  tick : ∀ s junk ms, Q s → Q (s.tick junk ms)

section

variable {Q : TCPSender → Prop} {c : TCPConnection}

theorem SenderStable.stable (hQ : SenderStable Q) : Stable (fun c => Q c.sender) where
  flags := fun _ _ _ _ _ h => h
  fillWindow := fun c h => hQ.fillWindow c.sender h
  sendEmptySegment := fun c h => hQ.segmentsOut c.sender _ h
  updateOutput := fun c h => hQ.segmentsOut c.sender _ h
  uncleanShutdown := fun c h => hQ.setError c.sender h

theorem sendRSTSeg_sender (c : TCPConnection) :
    c.sendRSTSeg.sender = { c.sender with segmentsOut := [] } := by
  unfold sendRSTSeg
  split <;> rfl

theorem withAck_seqno (r : TCPReceiver) (seg : TCPSegment) :
    (withAck r seg).header.seqno = seg.header.seqno := by
  unfold withAck
  split
  · split_ifs <;> rfl
  · rfl

/-- A RST carries no acknowledgment. -/
theorem withAck_of_rst (r : TCPReceiver) {seg : TCPSegment} (hrst : seg.header.rst = true) :
    withAck r seg = seg := by
  unfold withAck
  split
  · rw [if_pos hrst]
  · rfl

/-- The RST with a given sequence number. -/
def rstSeg (seqno : WrappingInt32) : TCPSegment := { header := { seqno := seqno, rst := true } }

/-- The RST takes the place of everything that is queued. -/
theorem sendRSTSeg_of_cons {first : TCPSegment} {rest : List TCPSegment}
    (hqueue : c.segmentsOut ++ c.sender.segmentsOut = first :: rest) :
    c.sendRSTSeg = { c with
      segmentsOut := [rstSeg first.header.seqno]
      sender := { c.sender with segmentsOut := [] } } := by
  have hout : [withAck c.receiver (rstSeg first.header.seqno)] = [rstSeg first.header.seqno] := by
    rw [withAck_of_rst c.receiver rfl]
  rw [← hout]
  unfold sendRSTSeg
  rw [hqueue]
  rfl

/-- **The rule for the sender.** The acknowledgments of incoming segments are the only thing
that remains to be looked at. -/
theorem sender_rule (hQ : SenderStable Q) (junk : Nat → UInt8) {op : ConnectionOp}
    (hack : ∀ seg segs, op = .segmentReceived seg → c.takesAck seg = true →
      Q { c.sender with segmentsOut := segs } →
      Q ({ c.sender with segmentsOut := segs }.ackReceived seg.header.ackno seg.header.win))
    (h : Q c.sender) : Q (c.step junk op).sender := by
  have hst := hQ.stable
  cases op with
  | connect => exact hst.fill (c := c) h
  | write data =>
      show Q (c.write data).1.sender
      unfold TCPConnection.write
      split_ifs
      · exact h
      · exact hst.fill (c := c.onSender _) (hQ.write c.sender data h)
  | endInputStream => exact hst.fill (c := c.onSender _) (hQ.endStream c.sender h)
  | tick ms =>
      refine tick_rule hst (fun c' h' _ => hQ.tick c'.sender junk ms.toNat h') (fun c' h' => ?_) h
      rw [sendRSTSeg_sender]
      exact hQ.segmentsOut c'.sender _ h'
  | segmentReceived seg =>
      refine segmentReceived_rule hst (fun h' => h') (fun htakes c' h' hsame => ?_) h
      obtain ⟨segs, hsender⟩ := hsame
      show Q (c'.sender.ackReceived seg.header.ackno seg.header.win)
      rw [hsender] at h' ⊢
      exact hack seg segs rfl htakes h'
  | readInbound len => exact h
  | popSegment => exact h

theorem senderStable_sound : SenderStable (fun s => ∃ data, s.Sound data) where
  segmentsOut := fun _ segs ⟨data, h⟩ => ⟨data, h.segmentsOut segs⟩
  write := fun _ d ⟨_, h⟩ => ⟨_, h.write d⟩
  endStream := fun _ ⟨data, h⟩ => ⟨data, h.endStream⟩
  setError := fun _ ⟨data, h⟩ => ⟨data, h.setError⟩
  fillWindow := fun _ ⟨data, h⟩ => ⟨data, h.fillWindow⟩
  tick := fun _ junk ms ⟨data, h⟩ => ⟨data, h.tick junk ms⟩

/-- What the sending of a segment preserves of the queue, and a SYN that takes the FIN along. -/
theorem senderStable_queue {R : UnAckQueue → Prop}
    (hsends : ∀ s s' seg, TCPSender.Sends s s' seg → R s.unAckQueue → R s'.unAckQueue)
    (hrepeat : ∀ q : UnAckQueue, R q →
      R { q with finSent := true, nextSeqno := q.nextSeqno + 1 }) :
    SenderStable (fun s => (∃ data, s.Sound data) ∧ R s.unAckQueue) where
  segmentsOut := fun _ segs ⟨⟨data, h⟩, hr⟩ => ⟨⟨data, h.segmentsOut segs⟩, hr⟩
  write := fun _ d ⟨⟨_, h⟩, hr⟩ => ⟨⟨_, h.write d⟩, hr⟩
  endStream := fun _ ⟨⟨data, h⟩, hr⟩ => ⟨⟨data, h.endStream⟩, hr⟩
  setError := fun _ ⟨⟨data, h⟩, hr⟩ => ⟨⟨data, h.setError⟩, hr⟩
  fillWindow := fun s ⟨⟨data, h⟩, hr⟩ => by
    have hrule : s.fillWindow.Sound data ∧ R s.fillWindow.unAckQueue := by
      refine TCPSender.fillWindow_rule (P := fun s => s.Sound data ∧ R s.unAckQueue)
        (fun _ h' => ⟨data, h'.1.carries⟩) ?_ ⟨h, hr⟩
      rintro s' s'' seg ⟨h', hr'⟩ hs
      exact ⟨h'.sends hs, hsends s' s'' seg hs hr'⟩
    exact ⟨⟨data, hrule.1⟩, hrule.2⟩
  tick := fun s junk ms ⟨⟨data, h⟩, hr⟩ => by
    refine ⟨⟨data, h.tick junk ms⟩, ?_⟩
    obtain ⟨q, timer, segs, heq, hq⟩ := TCPSender.tick_frame junk s ms
    rw [heq]
    rcases hq with rfl | ⟨-, rfl⟩
    · exact hr
    · exact hrepeat _ hr

theorem sound_step (junk : Nat → UInt8) (op : ConnectionOp) (h : ∃ data, c.sender.Sound data) :
    ∃ data, (c.step junk op).sender.Sound data :=
  sender_rule senderStable_sound junk
    (fun _ _ _ _ ⟨data, h'⟩ => ⟨data, h'.ackReceived _ _⟩) h

end

/-! ## The sender's segments are moved on -/

section

variable {c : TCPConnection}

theorem ackReceived_segmentsOut (s : TCPSender) (ackno : WrappingInt32) (w : UInt16) :
    (s.ackReceived ackno w).segmentsOut = s.segmentsOut := by
  rw [TCPSender.ackReceived_eq]
  split_ifs <;> rfl

/-- The sender has no segments of its own left. -/
def Drained (c : TCPConnection) : Prop := c.sender.segmentsOut = []

theorem drained_updateOutput (c : TCPConnection) : c.updateOutput.Drained := rfl

theorem Drained.ackReceived (h : c.Drained) (hd : TCPHeader) : (c.ackReceived hd).Drained :=
  (ackReceived_segmentsOut c.sender hd.ackno hd.win).trans h

theorem Drained.replyIfIdle (h : c.Drained) : c.replyIfIdle.Drained :=
  onlyIf_rule h (fun _ _ => drained_updateOutput _)

theorem Drained.segmentReceived (h : c.Drained) (seg : TCPSegment) :
    (c.segmentReceived seg).Drained := by
  have h₀ : c.received.Drained := h
  rw [segmentReceived_eq]
  split_ifs with hactive hout hrst hfin hlisten
  · exact drained_updateOutput _
  · exact h
  · unfold finRecvReceived
    split_ifs with hsyn hlinger
    · exact h₀
    · refine onlyIf_rule (onlyIf_rule h₀ (fun _ _ => drained_updateOutput _)) ?_
      intro _ h'
      unfold closeOrFill
      split_ifs
      · exact h'.ackReceived seg.header
      · exact drained_updateOutput _
    · exact onlyIf_rule (onlyIf_rule h₀ (fun _ h' => h'.ackReceived seg.header))
        (fun _ _ => drained_updateOutput _)
  · unfold listenReceived
    split_ifs with hsyn
    · exact Drained.replyIfIdle (drained_updateOutput _)
    · exact h₀
  · unfold synRecvReceived
    split_ifs with hsyn
    · exact h₀
    · refine onlyIf_rule (onlyIf_rule (onlyIf_rule (onlyIf_rule h₀ (fun _ h' => h'))
        (fun _ _ => drained_updateOutput _)) (fun _ => Drained.replyIfIdle)) (fun _ h' => ?_)
      unfold inboundEnded
      split_ifs
      · exact Drained.replyIfIdle h'
      · exact Drained.replyIfIdle h'
  · exact h

/-- Every call moves all segments of the sender to the outgoing queue. -/
theorem Drained.step (h : c.Drained) (junk : Nat → UInt8) (op : ConnectionOp) :
    (c.step junk op).Drained := by
  cases op with
  | connect => exact drained_updateOutput _
  | write data =>
      show (c.write data).1.Drained
      unfold TCPConnection.write
      split_ifs
      · exact h
      · exact drained_updateOutput _
  | endInputStream => exact drained_updateOutput _
  | tick ms =>
      show (c.tick junk ms.toNat).Drained
      unfold TCPConnection.tick
      dsimp only
      split_ifs
      · exact h
      · show (sendRSTSeg _).sender.segmentsOut = []
        rw [sendRSTSeg_sender]
      · exact drained_updateOutput _
      · exact drained_updateOutput _
  | segmentReceived seg => exact h.segmentReceived seg
  | readInbound len => exact h
  | popSegment => exact h

end

section

variable (junk : Nat → UInt8) (cfg : TCPConfig) (isn : WrappingInt32) (ops : List ConnectionOp)

theorem after_sound : ∃ data, (after junk cfg isn ops).sender.Sound data :=
  Run.run_invariant' (I := fun c : TCPConnection => ∃ data, c.sender.Sound data)
    (fun _ op => sound_step junk op) ⟨[], TCPSender.sound_new _ _ _⟩ ops

theorem after_drained : (after junk cfg isn ops).Drained := by
  have hnew : (new cfg isn).Drained := rfl
  exact Run.run_invariant' (I := Drained) (fun _ op h => h.step junk op) hnew ops

end

end TCPConnection

end Sponge
