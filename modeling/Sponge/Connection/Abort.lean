import Sponge.Connection.ZeroWindow

set_option autoImplicit false

/-! # Giving up

A connection that uses up its attempts replaces everything that is queued by one RST, which
takes the sequence number at the head of the queue (`tick_segmentsOut_of_givesUp`). A peer that
has the SYN accepts a RST only at its acknowledgment number; at any other it is taken for an
out-of-order segment (`rstSeg_resets_iff`). -/

namespace Sponge

open Word

namespace TCPSender

/-- The sequence number of the segment that a timeout retransmits. -/
def repeatSeqno (s : TCPSender) : WrappingInt32 :=
  if s.unAckQueue.finSent && !s.unAckQueue.finAcked then
    if s.unAckQueue.empty then wrap (s.unAckQueue.ackSqnForFin - 1) s.isn
    else wrap s.unAckQueue.baseSqn s.isn
  else if s.unAckQueue.synSent && !s.unAckQueue.synAcked then wrap 0 s.isn
  else if !s.unAckQueue.empty then wrap s.unAckQueue.baseSqn s.isn
  -- the segment without any field set
  else ⟨0⟩

theorem makeSynSeg_seqno (s : TCPSender) : s.makeSynSeg.1.header.seqno = wrap 0 s.isn := by
  unfold makeSynSeg
  dsimp only
  split_ifs <;> rfl

theorem retransmitSeg_seqno (junk : Nat → UInt8) (s : TCPSender) :
    (s.retransmitSeg junk).1.header.seqno = s.repeatSeqno := by
  unfold retransmitSeg repeatSeqno
  split_ifs
  · rfl
  · rfl
  · exact makeSynSeg_seqno s
  · rfl
  · rfl

end TCPSender

namespace TCPConnection

/-- The call of `tick` uses up the attempts of an active connection. -/
def GivesUp (junk : Nat → UInt8) (c : TCPConnection) (ms : UInt64) : Prop :=
  c.active = true ∧
    TCPConfig.maxRetxAttempts < (c.tick junk ms.toNat).sender.consecutiveRetransmissions

instance (junk : Nat → UInt8) (c : TCPConnection) (ms : UInt64) :
    Decidable (c.GivesUp junk ms) := inferInstanceAs (Decidable (_ ∧ _))

/-- The first sequence number of what is queued, or, when nothing is, of what the timeout
repeats. -/
def abortSeqno (c : TCPConnection) : WrappingInt32 :=
  match c.segmentsOut ++ c.sender.segmentsOut with
  | first :: _ => first.header.seqno
  | [] => c.sender.repeatSeqno

section

variable {c : TCPConnection}

/-- The queue when the attempts are used up: what was queued, and the repeated segment. -/
theorem ticked_segmentsOut_of_expires (junk : Nat → UInt8) (ms : Nat)
    (hexp : c.sender.timer.expires ms = true) (hfin : c.sender.unAckQueue.finAcked = false) :
    ∃ rest, ∃ first : TCPSegment, (c.ticked junk ms).segmentsOut = first :: rest ∧
      first.header.seqno = c.abortSeqno := by
  have hout : (c.ticked junk ms).segmentsOut = c.segmentsOut ++
      (c.sender.segmentsOut ++
        [({ c.sender with timer := c.sender.timer.elapse ms }.retransmitSeg junk).1]).map
          (withAck c.receiver) := by
    rw [← TCPSender.tick_segmentsOut_of_expires junk hexp hfin]
    rfl
  rw [hout]
  unfold abortSeqno
  -- the head of the outgoing queue, else of the sender's, else the repeated segment
  cases hqueue : c.segmentsOut with
  | cons first rest => exact ⟨_, first, rfl, rfl⟩
  | nil =>
      cases hpending : c.sender.segmentsOut with
      | cons first rest => exact ⟨_, _, rfl, withAck_seqno _ _⟩
      | nil =>
          refine ⟨[], _, rfl, ?_⟩
          rw [withAck_seqno, TCPSender.retransmitSeg_seqno]
          rfl

/-- When the attempts are used up, the RST is all that is left of the queue. -/
theorem tick_of_over (junk : Nat → UInt8) (ms : Nat) (hactive : c.active = true)
    (hexp : c.sender.timer.expires ms = true) (hfin : c.sender.unAckQueue.finAcked = false)
    (hover : TCPConfig.maxRetxAttempts < (c.ticked junk ms).sender.consecutiveRetransmissions) :
    c.tick junk ms
      = uncleanShutdown { c.ticked junk ms with segmentsOut := [rstSeg c.abortSeqno] } := by
  obtain ⟨rest, first, hqueue, hseqno⟩ := ticked_segmentsOut_of_expires junk ms hexp hfin
  have hall : (c.ticked junk ms).segmentsOut ++ (c.ticked junk ms).sender.segmentsOut
      = first :: (rest ++ (c.ticked junk ms).sender.segmentsOut) := by
    rw [hqueue, List.cons_append]
  rw [tick_eq junk ms hactive, if_pos hover, sendRSTSeg_of_cons hall, hseqno]
  rfl

/-- **What is sent when the attempts are used up**: one RST, with the sequence number at the
head of the queue. -/
theorem tick_segmentsOut_of_givesUp (h : c.Trying) {junk : Nat → UInt8} {ms : UInt64}
    (hgives : c.GivesUp junk ms) :
    (c.tick junk ms.toNat).segmentsOut = [rstSeg c.abortSeqno] := by
  obtain ⟨hactive, hover⟩ := hgives
  obtain ⟨p, hp, hle⟩ := h
  have hticked : TCPConfig.maxRetxAttempts
      < (c.ticked junk ms.toNat).sender.consecutiveRetransmissions := by
    rw [tick_eq junk ms.toNat hactive] at hover
    split_ifs at hover with hretx hlinger
    · exact hretx
    · exact hover
    · exact hover
  -- only a timeout adds to the count
  have hexp : c.sender.timer.expires ms.toNat = true := by
    by_contra hnot
    have hpace := hp.paced.rests.tick_pace junk ms.toNat
    rw [if_neg hnot, hp.paced.pace_eq] at hpace
    have hcount : (c.ticked junk ms.toNat).sender.consecutiveRetransmissions = p.2.1 :=
      congrArg (·.2.1) hpace
    omega
  -- and a timer that runs has something that is not acknowledged
  have hfin : c.sender.unAckQueue.finAcked = false := by
    by_contra hfin
    have hrun := (hp.paced.rests (by simpa using hfin)).2
    simp [Timer.running_of_expires hexp] at hrun
  rw [tick_of_over junk ms.toNat hactive hexp hfin hticked]
  rfl

/-- **Which RST is accepted** by a connection that has the peer's SYN: the one at its
acknowledgment number. -/
theorem rstSeg_resets_iff {seqno : WrappingInt32} (hactive : c.active = true)
    (hsyn : c.receiver.synRecv = true) :
    ((c.segmentReceived (rstSeg seqno)).active = false ∧ (c.segmentReceived (rstSeg seqno)).Failed) ↔
      c.receiver.ackno = some seqno := by
  have hackno : c.receiver.ackno = some c.receiver.lastAckno := if_pos hsyn
  have hout : c.outOfOrder (rstSeg seqno) = (seqno != c.receiver.lastAckno) := by
    simp [outOfOrder, hackno, rstSeg, TCPSegment.lengthInSequenceSpace]
  rw [segmentReceived_eq, if_pos hactive, hackno, hout]
  by_cases heq : seqno = c.receiver.lastAckno
  · -- the branch for RST segments
    rw [if_neg (by simp [heq]), if_pos (show (rstSeg seqno).header.rst = true from rfl), heq]
    exact ⟨fun _ => rfl, fun _ => ⟨rfl, failed_uncleanShutdown _⟩⟩
  · -- taken for an out-of-order segment: an answer, and no change of the flags
    rw [if_pos (by simp [heq])]
    have hflags := (outOfOrderReceived_frame c.received (rstSeg seqno)).1
    have hstays : (c.received.outOfOrderReceived (rstSeg seqno)).active = true :=
      (congrArg Flags.active hflags).trans hactive
    constructor
    · rintro ⟨hend, -⟩
      exact absurd (hstays.symm.trans hend) (by simp)
    · intro hsame
      exact absurd (Option.some.inj hsame).symm heq

end

end TCPConnection

end Sponge
