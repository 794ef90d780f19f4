import Sponge.Connection.Flags

set_option autoImplicit false

/-! # When a connection is over

A connection ends cleanly in two ways: it does not linger and its FIN is acknowledged, or its
linger time runs out. This file says what holds at a clean end. The law has exceptions, which
are the condition `ClosesAcked` on the single steps of a run. -/

namespace Sponge

open Word

namespace TCPConnection

section

variable {c : TCPConnection} {seg : TCPSegment}

/-! ## One step -/

/-- What an incoming segment does to the flags and the receiver of an active connection, branch
by branch. -/
theorem segmentReceived_cases (seg : TCPSegment) (hactive : c.active = true) :
    (c.outOfOrder seg = true ∧ (c.segmentReceived seg).flags = c.received.flags ∧
      (c.segmentReceived seg).receiver = c.receiver.segmentReceived seg) ∨
    (seg.header.rst = true ∧ c.segmentReceived seg = c.received.uncleanShutdown) ∨
    (c.Ended ∧ c.segmentReceived seg = c.received.finRecvReceived seg) ∨
    (¬c.Ended ∧ c.receiver.ackno = none ∧ seg.header.rst = false ∧ seg.header.syn = true ∧
      (c.segmentReceived seg).flags = c.received.flags ∧
      (c.segmentReceived seg).receiver = c.receiver.segmentReceived seg) ∨
    (¬c.Ended ∧ c.segmentReceived seg = c.received) ∨
    (¬c.Ended ∧ c.segmentReceived seg = c.received.synRecvReceived seg) := by
  have hcond := segmentReceived_eq c seg
  rw [if_pos hactive] at hcond
  by_cases hout : c.outOfOrder seg = true
  · rw [if_pos hout] at hcond
    rw [hcond]
    exact Or.inl ⟨hout, outOfOrderReceived_frame c.received seg⟩
  · rw [if_neg hout] at hcond
    by_cases hrst : seg.header.rst = true
    · rw [if_pos hrst] at hcond
      exact Or.inr (Or.inl ⟨hrst, hcond⟩)
    · rw [if_neg hrst] at hcond
      by_cases hended : c.receiver.streamOut.inputEnded = true
      · rw [if_pos hended] at hcond
        exact Or.inr (Or.inr (Or.inl ⟨hended, hcond⟩))
      · rw [if_neg hended] at hcond
        by_cases hlisten : c.receiver.ackno = none
        · rw [if_pos hlisten] at hcond
          by_cases hsyn : seg.header.syn = true
          · rw [hcond]
            exact Or.inr (Or.inr (Or.inr (Or.inl ⟨hended, hlisten, by simpa using hrst, hsyn,
              listenReceived_flags, listenReceived_receiver hsyn⟩)))
          · refine Or.inr (Or.inr (Or.inr (Or.inr (Or.inl ⟨hended, ?_⟩))))
            rw [hcond]
            unfold listenReceived
            rw [if_neg hsyn]
        · rw [if_neg hlisten] at hcond
          exact Or.inr (Or.inr (Or.inr (Or.inr (Or.inr ⟨hended, hcond⟩))))

/-- Both streams are marked as failed. -/
def Failed (c : TCPConnection) : Prop :=
  c.sender.stream.error = true ∧ c.receiver.streamOut.error = true

instance (c : TCPConnection) : Decidable c.Failed := inferInstanceAs (Decidable (_ ∧ _))

theorem failed_uncleanShutdown (c : TCPConnection) : c.uncleanShutdown.Failed := ⟨rfl, rfl⟩

/-- An incoming segment ends a connection by an error, or in LAST_ACK. -/
theorem segmentReceived_inactive (hactive : c.active = true)
    (hend : (c.segmentReceived seg).active = false) :
    (seg.header.rst = true ∧ (c.segmentReceived seg).Failed) ∨
      ((c.segmentReceived seg).Ended ∧
        (c.segmentReceived seg).lingerAfterStreamsFinish = false ∧
        (c.segmentReceived seg).sender.unAckQueue.finAcked = true) := by
  have hflags : ∀ {c' : TCPConnection} {f : Flags}, c'.flags = f → c'.active = f.active :=
    fun h => congrArg Flags.active h
  rcases segmentReceived_cases seg hactive with ⟨-, hf, -⟩ | ⟨hrst, heq⟩ | ⟨hended, heq⟩ |
      ⟨-, -, -, -, hf, -⟩ | ⟨-, heq⟩ | ⟨hopen, heq⟩
  · exact absurd ((hflags hf).symm.trans hend) (by simp [flags, received, hactive])
  · exact Or.inl ⟨hrst, heq ▸ failed_uncleanShutdown _⟩
  · rw [heq] at hend ⊢
    -- only LAST_ACK ends here
    obtain ⟨hrecv, hf | ⟨hf, hlinger, hfin⟩⟩ := finRecvReceived_flags c.received seg
    · exact absurd ((hflags hf).symm.trans hend) (by simp [flags, received, hactive])
    · refine Or.inr ⟨?_, (congrArg Flags.linger hf).trans hlinger, hfin⟩
      unfold Ended
      rw [hrecv]
      exact hended
  · exact absurd ((hflags hf).symm.trans hend) (by simp [flags, received, hactive])
  · exact absurd ((congrArg TCPConnection.active heq).symm.trans hend) (by simp [received, hactive])
  · rw [heq] at hend
    rcases synRecvReceived_flags (c := c.received) seg hopen with ⟨-, hf⟩ | ⟨-, -, hf⟩ |
        ⟨-, -, hf⟩ <;>
      exact absurd ((hflags hf).symm.trans hend) (by simp [flags, received, hactive])

/-- The sender's timer has moved on, and what it retransmits is queued. -/
def ticked (junk : Nat → UInt8) (c : TCPConnection) (ms : Nat) : TCPConnection :=
  ({ c with timeSinceLastSegmentReceived := add64 c.timeSinceLastSegmentReceived ms }.onSender
    (fun s => s.tick junk ms)).updateOutput

theorem tick_eq (junk : Nat → UInt8) (ms : Nat) (hactive : c.active = true) :
    c.tick junk ms =
      if TCPConfig.maxRetxAttempts < (c.ticked junk ms).sender.consecutiveRetransmissions then
        (c.ticked junk ms).sendRSTSeg.uncleanShutdown
      else if c.timeWait = true ∧
          c.lingerTimeout ≤ add64 c.timeSinceLastSegmentReceived ms then
        (c.ticked junk ms).cleanShutdown
      else c.ticked junk ms := by
  unfold tick
  rw [if_neg (by simp [hactive])]
  dsimp only
  congr 1
  simp only [Bool.and_eq_true, decide_eq_true_eq]
  rfl

/-- The three ends of a call of `tick` on an active connection. -/
theorem tick_cases (junk : Nat → UInt8) (ms : Nat) (hactive : c.active = true) :
    (c.tick junk ms = (c.ticked junk ms).sendRSTSeg.uncleanShutdown) ∨
    (c.timeWait = true ∧ c.lingerTimeout ≤ add64 c.timeSinceLastSegmentReceived ms ∧
      c.tick junk ms = (c.ticked junk ms).cleanShutdown) ∨
    (¬(c.timeWait = true ∧ c.lingerTimeout ≤ add64 c.timeSinceLastSegmentReceived ms) ∧
      c.tick junk ms = c.ticked junk ms) := by
  rw [tick_eq junk ms hactive]
  split_ifs with hretx hlinger
  · exact Or.inl rfl
  · exact Or.inr (Or.inl ⟨hlinger.1, hlinger.2, rfl⟩)
  · exact Or.inr (Or.inr ⟨hlinger, rfl⟩)

/-- Other calls leave the flags alone. -/
theorem step_flags (junk : Nat → UInt8) (op : ConnectionOp) (htick : ∀ ms, op ≠ .tick ms)
    (hseg : ∀ seg, op ≠ .segmentReceived seg) :
    (c.step junk op).flags = c.flags ∧
      (c.step junk op).receiver.streamOut.inputEnded = c.receiver.streamOut.inputEnded := by
  cases op with
  | connect => exact ⟨rfl, rfl⟩
  | write data =>
      show (c.write data).1.flags = c.flags ∧ (c.write data).1.receiver.streamOut.inputEnded = _
      unfold TCPConnection.write
      split_ifs <;> exact ⟨rfl, rfl⟩
  | endInputStream => exact ⟨rfl, rfl⟩
  | tick ms => exact absurd rfl (htick ms)
  | segmentReceived seg => exact absurd rfl (hseg seg)
  | readInbound len => exact ⟨rfl, rfl⟩
  | popSegment => exact ⟨rfl, rfl⟩

/-- A connection that is over does not react to time and segments. -/
theorem tick_of_inactive (junk : Nat → UInt8) (ms : Nat) (hend : c.active = false) :
    c.tick junk ms = c := by
  unfold TCPConnection.tick
  rw [if_pos (by simp [hend])]

theorem segmentReceived_of_inactive (seg : TCPSegment) (hend : c.active = false) :
    c.segmentReceived seg = c := by
  rw [segmentReceived_eq, if_neg (by simp [hend])]

/-- A connection that is over stays so. -/
theorem step_inactive (junk : Nat → UInt8) (op : ConnectionOp) (hend : c.active = false) :
    (c.step junk op).active = false := by
  cases op using ConnectionOp.kindCases with
  | tick ms => exact (congrArg TCPConnection.active (tick_of_inactive junk _ hend)).trans hend
  | segmentReceived seg =>
      exact (congrArg TCPConnection.active (segmentReceived_of_inactive seg hend)).trans hend
  | owner op htick hseg =>
      exact (congrArg Flags.active (step_flags junk op htick hseg).1).trans hend

/-! ## The time since the last segment -/

theorem sendRSTSeg_flags (c : TCPConnection) : c.sendRSTSeg.flags = c.flags := by
  unfold sendRSTSeg
  split <;> rfl

theorem segmentReceived_time (seg : TCPSegment) (hactive : c.active = true) :
    (c.segmentReceived seg).timeSinceLastSegmentReceived = 0 := by
  rcases segmentReceived_cases seg hactive with ⟨-, hf, -⟩ | ⟨-, heq⟩ | ⟨-, heq⟩ |
      ⟨-, -, -, -, hf, -⟩ | ⟨-, heq⟩ | ⟨hopen, heq⟩
  · exact congrArg Flags.time hf
  · rw [heq]
    rfl
  · rw [heq]
    rcases (finRecvReceived_flags c.received seg).2 with hf | ⟨hf, -⟩ <;>
      exact congrArg Flags.time hf
  · exact congrArg Flags.time hf
  · rw [heq]
    rfl
  · rw [heq]
    rcases synRecvReceived_flags (c := c.received) seg hopen with ⟨-, hf⟩ | ⟨-, -, hf⟩ |
        ⟨-, -, hf⟩ <;>
      exact congrArg Flags.time hf

theorem tick_time (junk : Nat → UInt8) (ms : Nat) (hactive : c.active = true) :
    (c.tick junk ms).timeSinceLastSegmentReceived
      = add64 c.timeSinceLastSegmentReceived ms := by
  rcases tick_cases junk ms hactive with heq | ⟨-, -, heq⟩ | ⟨-, heq⟩
  · rw [heq]
    exact congrArg Flags.time (sendRSTSeg_flags (c.ticked junk ms))
  · rw [heq]
    rfl
  · rw [heq]
    rfl

/-- The milliseconds of ticks since the last segment, after one more operation. -/
def quietStep (quiet : Nat) : ConnectionOp → Nat
  | .tick ms => quiet + ms.toNat
  | .segmentReceived _ => 0
  | _ => quiet

/-- The milliseconds of ticks since the last segment was received, or from the start. -/
def quietTime (ops : List ConnectionOp) : Nat := ops.foldl quietStep 0

theorem quietStep_other {quiet : Nat} {op : ConnectionOp} (htick : ∀ ms, op ≠ .tick ms)
    (hnoseg : ∀ seg, op ≠ .segmentReceived seg) : quietStep quiet op = quiet := by
  cases op with
  | tick ms => exact absurd rfl (htick ms)
  | segmentReceived seg => exact absurd rfl (hnoseg seg)
  | connect => rfl
  | write data => rfl
  | endInputStream => rfl
  | readInbound len => rfl
  | popSegment => rfl

theorem step_time_le (junk : Nat → UInt8) (op : ConnectionOp) (hactive : c.active = true)
    {quiet : Nat} (hle : c.timeSinceLastSegmentReceived ≤ quiet) :
    (c.step junk op).timeSinceLastSegmentReceived ≤ quietStep quiet op := by
  cases op using ConnectionOp.kindCases with
  | tick ms =>
      show (c.tick junk ms.toNat).timeSinceLastSegmentReceived ≤ quiet + ms.toNat
      have hsum := add64_le c.timeSinceLastSegmentReceived ms.toNat
      rw [tick_time junk ms.toNat hactive]
      omega
  | segmentReceived seg => exact Nat.le_of_eq (segmentReceived_time seg hactive)
  | owner op htick hseg =>
      have hflags := (step_flags (c := c) junk op htick hseg).1
      rw [quietStep_other htick hseg]
      exact Nat.le_trans (Nat.le_of_eq (congrArg Flags.time hflags)) hle

theorem time_le_quietTime (junk : Nat → UInt8) (ops : List ConnectionOp) {quiet : Nat}
    (hle : c.active = true → c.timeSinceLastSegmentReceived ≤ quiet)
    (hactive : (Run.run (step junk) c ops).active = true) :
    (Run.run (step junk) c ops).timeSinceLastSegmentReceived ≤ ops.foldl quietStep quiet := by
  induction ops generalizing c quiet with
  | nil => exact hle hactive
  | cons op ops ih =>
      refine ih (fun hactive' => ?_) hactive
      have hc : c.active = true := by
        by_contra hinactive
        simp [step_inactive junk op (by simpa using hinactive)] at hactive'
      exact step_time_le junk op hc (hle hc)

/-! ## A clean end -/

/-- A step that does not run into the two gaps of the closing sequence: the linger time does
not run out before the FIN is acknowledged, and no acknowledgment that reaches the sender
acknowledges the FIN together with the SYN. -/
def ClosesAcked (c : TCPConnection) : ConnectionOp → Prop
  | .tick ms => c.active = true → c.timeWait = true →
      c.lingerTimeout ≤ add64 c.timeSinceLastSegmentReceived ms.toNat →
      c.sender.finAcked = true
  | .segmentReceived seg => c.takesAck seg = true →
      c.sender.unAckQueue.synAcked = false → c.sender.unAckQueue.finSent = true →
      c.sender.absAckno seg.header.ackno ≠ c.sender.unAckQueue.nextSeqno
  | _ => True

instance decidableClosesAcked (c : TCPConnection) : ∀ op, Decidable (c.ClosesAcked op)
  | .tick _ => inferInstanceAs (Decidable (_ → _ → _ → _))
  | .segmentReceived _ => inferInstanceAs (Decidable (_ → _ → _ → _))
  | .connect | .write _ | .endInputStream | .readInbound _ | .popSegment => .isTrue trivial

/-- The invariant behind the clean end. -/
structure Closing (c : TCPConnection) : Prop where
  sender : ∃ data, c.sender.Sound data ∧ c.sender.FinDone
  timeWait_ended : c.timeWait = true → c.Ended

theorem senderStable_finDone :
    SenderStable (fun s => ∃ data, s.Sound data ∧ s.FinDone) where
  segmentsOut := fun _ segs ⟨data, h, hd⟩ => ⟨data, h.segmentsOut segs, hd⟩
  write := fun _ d ⟨_, h, hd⟩ => ⟨_, h.write d, hd⟩
  endStream := fun _ ⟨data, h, hd⟩ => ⟨data, h.endStream, hd⟩
  setError := fun _ ⟨data, h, hd⟩ => ⟨data, h.setError, hd⟩
  fillWindow := fun _ ⟨data, h, hd⟩ => ⟨data, h.fillWindow, hd.fillWindow h⟩
  tick := fun s junk ms ⟨data, h, hd⟩ => by
    refine ⟨data, h.tick junk ms, ?_⟩
    intro hfin
    rw [TCPSender.tick_finAcked] at hfin
    rw [TCPSender.tick_of_finAcked junk ms hfin]
    exact hd hfin

/-- Time changes neither who lingers nor whether the connection waits. -/
theorem tick_flags (c : TCPConnection) (junk : Nat → UInt8) (ms : Nat) :
    (c.tick junk ms).timeWait = c.timeWait ∧
      (c.tick junk ms).lingerAfterStreamsFinish = c.lingerAfterStreamsFinish ∧
      (c.tick junk ms).cfg = c.cfg := by
  by_cases hactive : c.active = true
  · rcases tick_cases junk ms hactive with heq | ⟨-, -, heq⟩ | ⟨-, heq⟩
    · have hf := sendRSTSeg_flags (c.ticked junk ms)
      rw [heq]
      exact ⟨congrArg Flags.timeWait hf, congrArg Flags.linger hf, congrArg Flags.cfg hf⟩
    · rw [heq]
      exact ⟨rfl, rfl, rfl⟩
    · rw [heq]
      exact ⟨rfl, rfl, rfl⟩
  · rw [tick_of_inactive junk ms (by simpa using hactive)]
    exact ⟨rfl, rfl, rfl⟩

/-- `TIME_WAIT` is entered only at the end of the inbound stream. -/
theorem segmentReceived_timeWait (seg : TCPSegment) (htw : (c.segmentReceived seg).timeWait = true) :
    c.timeWait = true ∨ (c.segmentReceived seg).Ended := by
  by_cases hactive : c.active = true
  · rcases segmentReceived_cases seg hactive with ⟨-, hf, -⟩ | ⟨-, heq⟩ | ⟨-, heq⟩ |
        ⟨-, -, -, -, hf, -⟩ | ⟨-, heq⟩ | ⟨hopen, heq⟩
    · exact Or.inl ((congrArg Flags.timeWait hf).symm.trans htw)
    · rw [heq] at htw
      exact Or.inl htw
    · rw [heq] at htw
      rcases (finRecvReceived_flags c.received seg).2 with hf | ⟨hf, -⟩ <;>
        exact Or.inl ((congrArg Flags.timeWait hf).symm.trans htw)
    · exact Or.inl ((congrArg Flags.timeWait hf).symm.trans htw)
    · rw [heq] at htw
      exact Or.inl htw
    · rw [heq] at htw ⊢
      -- of the branches of an open stream the one that ends it sets the flag
      rcases synRecvReceived_flags (c := c.received) seg hopen with ⟨-, hf⟩ | ⟨-, -, hf⟩ |
          ⟨hended, -⟩
      · exact Or.inl ((congrArg Flags.timeWait hf).symm.trans htw)
      · exact Or.inl ((congrArg Flags.timeWait hf).symm.trans htw)
      · exact Or.inr hended
  · rw [segmentReceived_of_inactive seg (by simpa using hactive)] at htw
    exact Or.inl htw

theorem timeWait_step (junk : Nat → UInt8) (op : ConnectionOp)
    (h : c.timeWait = true → c.Ended) (htw : (c.step junk op).timeWait = true) :
    (c.step junk op).Ended := by
  have hsame : c.timeWait = true → (c.step junk op).Ended := fun htw => (h htw).step junk op
  cases op using ConnectionOp.kindCases with
  | tick ms => exact hsame ((tick_flags c junk ms.toNat).1.symm.trans htw)
  | segmentReceived seg => exact (segmentReceived_timeWait seg htw).elim hsame id
  | owner op htick hseg =>
      have hflags := (step_flags (c := c) junk op htick hseg).1
      exact hsame ((congrArg Flags.timeWait hflags).symm.trans htw)

theorem Closing.step (h : c.Closing) (junk : Nat → UInt8) {op : ConnectionOp}
    (hop : c.ClosesAcked op) : (c.step junk op).Closing := by
  refine ⟨?_, timeWait_step junk op h.timeWait_ended⟩
  refine sender_rule senderStable_finDone junk ?_ h.sender
  rintro seg segs rfl htakes ⟨data, hs, hd⟩
  exact ⟨data, hs.ackReceived _ _, hd.ackReceived hs _ (hop htakes)⟩

end

/-- What a connection that ended cleanly has achieved: both streams are finished, all that was
written and the FIN are acknowledged, and it did not linger or `quiet` covers the linger
time. -/
structure CleanEnd (c : TCPConnection) (quiet : Nat) : Prop where
  inbound_ended : c.receiver.streamOut.inputEnded = true
  outbound_ended : c.sender.stream.inputEnded = true
  fin_acked : c.sender.finAcked = true
  all_acked : c.sender.unAckQueue.baseSqn = c.sender.stream.bytesWritten + 2
  no_flight : c.bytesInFlight = 0
  waited : c.lingerAfterStreamsFinish = false ∨ 10 * c.cfg.rtTimeout.toNat ≤ quiet

/-- The end of the inbound stream, the acknowledged FIN and the time give the rest. -/
theorem Closing.finish {c : TCPConnection} (h : c.Closing) {quiet : Nat} (hended : c.Ended)
    (hfin : c.sender.finAcked = true)
    (hwait : c.lingerAfterStreamsFinish = false ∨ 10 * c.cfg.rtTimeout.toNat ≤ quiet) :
    c.CleanEnd quiet := by
  obtain ⟨data, hs, hd⟩ := h.sender
  obtain ⟨hout, hnext⟩ := hs.written_of_finAcked hfin
  have hbase := hd hfin
  refine ⟨hended, hout, hfin, hbase.trans hnext, ?_, hwait⟩
  show sub64 _ _ = 0
  rw [hbase, sub64_self]

/-- The step that ends a connection cleanly. -/
theorem Closing.cleanEnd {c : TCPConnection} (h : c.Closing) (junk : Nat → UInt8)
    {op : ConnectionOp} (hop : c.ClosesAcked op) {quiet : Nat}
    (htime : c.timeSinceLastSegmentReceived ≤ quiet) (hactive : c.active = true)
    (hend : (c.step junk op).active = false) (hclean : ¬(c.step junk op).Failed) :
    (c.step junk op).CleanEnd (quietStep quiet op) := by
  have h' := h.step junk hop
  have hsame : (c.step junk op).active = c.active → (c.step junk op).CleanEnd
      (quietStep quiet op) :=
    fun heq => absurd (hactive.symm.trans (heq.symm.trans hend)) (by simp)
  cases op using ConnectionOp.kindCases with
  | segmentReceived seg =>
      rcases segmentReceived_inactive hactive hend with ⟨-, hfailed⟩ | ⟨hended, hlinger, hfin⟩
      · exact absurd hfailed hclean
      · exact h'.finish hended hfin (Or.inl hlinger)
  | tick ms =>
      have hflags := tick_flags c junk ms.toNat
      rcases tick_cases junk ms.toNat hactive with heq | ⟨htw, hle, heq⟩ | ⟨-, heq⟩
      · -- too many retransmissions, which is no clean end
        refine absurd ?_ hclean
        show (c.tick junk ms.toNat).Failed
        rw [heq]
        exact failed_uncleanShutdown _
      · -- the linger time is over
        refine h'.finish (h'.timeWait_ended (hflags.1.trans htw)) ?_ (Or.inr ?_)
        · have hfin := hop hactive htw hle
          show (c.tick junk ms.toNat).sender.unAckQueue.finAcked = true
          rw [heq]
          exact (TCPSender.tick_finAcked junk c.sender ms.toNat).trans hfin
        · show 10 * (c.tick junk ms.toNat).cfg.rtTimeout.toNat ≤ quiet + ms.toNat
          have hsum := add64_le c.timeSinceLastSegmentReceived ms.toNat
          unfold lingerTimeout at hle
          rw [hflags.2.2]
          omega
      · have hactive' : (c.tick junk ms.toNat).active = c.active := by
          rw [heq]
          rfl
        exact hsame hactive'
  | owner op htick hseg => exact hsame (congrArg Flags.active (step_flags junk op htick hseg).1)

/-- **A clean end is a complete one**, in every run without the two gaps of the closing
sequence. -/
theorem cleanEnd_of_inactive (junk : Nat → UInt8) (cfg : TCPConfig) (isn : WrappingInt32)
    (ops : List ConnectionOp) (hok : Run.Admits (step junk) ClosesAcked (new cfg isn) ops)
    (before rest : List ConnectionOp) (op : ConnectionOp) (hops : ops = before ++ op :: rest)
    (hactive : (after junk cfg isn before).active = true)
    (hend : (after junk cfg isn (before ++ [op])).active = false)
    (hclean : ¬(after junk cfg isn (before ++ [op])).Failed) :
    (after junk cfg isn (before ++ [op])).CleanEnd (quietTime (before ++ [op])) := by
  have hrun : after junk cfg isn (before ++ [op]) = (after junk cfg isn before).step junk op :=
    Run.run_append _ _ _ _
  have hquiet : quietTime (before ++ [op]) = quietStep (quietTime before) op := by
    simp [quietTime]
  rw [hops] at hok
  have hnew : (new cfg isn).Closing :=
    ⟨⟨[], TCPSender.sound_new _ _ _, fun h => absurd h (by simp [new, TCPSender.new])⟩,
      fun h => absurd h (by simp [new])⟩
  -- the invariants hold in front of the call that ends the connection
  have hclosing : (after junk cfg isn before).Closing :=
    Run.run_invariant (fun _ _ h => h.step junk) hnew (Run.admits_append.mp hok).1
  have htime : (after junk cfg isn before).timeSinceLastSegmentReceived ≤ quietTime before :=
    time_le_quietTime junk before (fun _ => Nat.le_refl 0) hactive
  rw [hrun] at hend hclean ⊢
  rw [hquiet]
  exact hclosing.cleanEnd junk hok.at_split htime hactive hend hclean

/-- The handshake, and the end of the outbound stream. -/
def finSentFirst : List ConnectionOp :=
  [.segmentReceived { header := { syn := true } },
    .segmentReceived { header := { seqno := ⟨1⟩, ack := true, ackno := ⟨1⟩, win := 100 } },
    .endInputStream]

/-- The peer's FIN, which acknowledges everything up to `ackno`. -/
def peerFin (ackno : BitVec 32) : ConnectionOp :=
  .segmentReceived
    { header := { seqno := ⟨1⟩, fin := true, ack := true, ackno := ⟨ackno⟩, win := 100 } }

theorem cleanEnd_timeWait :
    (after (fun _ => 0) {} ⟨0⟩ (finSentFirst ++ [peerFin 2] ++ [.tick 10000])).CleanEnd
      (quietTime (finSentFirst ++ [peerFin 2] ++ [.tick 10000])) :=
  cleanEnd_of_inactive (fun _ => 0) {} ⟨0⟩ (finSentFirst ++ [peerFin 2] ++ [.tick 10000])
    (by decide +kernel) _ [] _ rfl (by decide +kernel) (by decide +kernel)
    (by decide +kernel)

/-- When the peer's FIN crosses ours, the linger time starts at once, and its end closes the
connection with our FIN still unacknowledged. -/
theorem closing_not_cleanEnd :
    (after (fun _ => 0) {} ⟨0⟩ (finSentFirst ++ [peerFin 1])).active = true ∧
      (after (fun _ => 0) {} ⟨0⟩ (finSentFirst ++ [peerFin 1] ++ [.tick 10000])).active = false ∧
      ¬(after (fun _ => 0) {} ⟨0⟩ (finSentFirst ++ [peerFin 1] ++ [.tick 10000])).Failed ∧
      ¬(after (fun _ => 0) {} ⟨0⟩ (finSentFirst ++ [peerFin 1] ++ [.tick 10000])).CleanEnd
        (quietTime (finSentFirst ++ [peerFin 1] ++ [.tick 10000])) := by
  refine ⟨by decide +kernel, by decide +kernel, by decide +kernel, ?_⟩
  intro h
  exact absurd h.fin_acked (by decide +kernel)

end TCPConnection

end Sponge
