import Sponge.Connection.Finish
import Sponge.Sender.Tracking

set_option autoImplicit false

/-! # A peer with a full window

A window of zero is treated as one of size one: the sender keeps one byte in flight and
retransmits it as a probe. The timeout of the probes is not doubled, but every one of them
counts as a retransmission. `zeroWindow_run` follows the number of retransmissions through a
run in which the peer does no more than to repeat its acknowledgment with a window of zero:
the connection survives as many timeouts as there are attempts, and gives up at the next. -/

namespace Sponge

open Word Run

namespace TCPSender

/-! ## The pace of the sender -/

/-- The timeout, the number of retransmissions in a row and whether the timeout will be
doubled. -/
def pace (s : TCPSender) : Nat × Nat × Bool :=
  (s.timer.timeout, s.timer.consecutiveRetransmissions, s.timer.doubleTimeout)

/-- An acknowledged FIN leaves nothing to retransmit. -/
def FinRests (s : TCPSender) : Prop :=
  s.unAckQueue.finAcked = true → s.unAckQueue.unAcked = [] ∧ s.timer.isTimerRunning = false

section

variable {s : TCPSender} {data : Bytes}

/-- A timer that does not run has the initial timeout and no retransmissions, so that starting
it changes neither. -/
theorem Sends.pace_eq {s' : TCPSender} {seg : TCPSegment} (hs : s.Sends s' seg)
    (h : s.Sound data) : s'.pace = s.pace := by
  unfold pace
  rw [hs.timer_eq]
  split_ifs with hrun
  · rfl
  · have hidle := h.idle (by simpa using hrun)
    show (s.timer.stopTimer.timeout, s.timer.stopTimer.consecutiveRetransmissions, _) = _
    rw [hidle]
    rfl

/-- A sound sender with a given pace. -/
structure Paced (p : Nat × Nat × Bool) (s : TCPSender) : Prop where
  sound : ∃ data, s.Sound data
  rests : s.FinRests
  pace_eq : s.pace = p

theorem Paced.fillWindow {p : Nat × Nat × Bool} (h : s.Paced p) : s.fillWindow.Paced p := by
  refine fillWindow_rule (P := Paced p) (fun _ h' => ?_) (fun s' s'' seg h' hs => ?_) h
  · obtain ⟨data, hsound⟩ := h'.sound
    exact ⟨data, hsound.carries⟩
  · obtain ⟨data, hsound⟩ := h'.sound
    exact ⟨⟨data, hsound.sends hs⟩, fun hfin => absurd hfin (by simp [hs.finAcked_eq]),
      (hs.pace_eq hsound).trans h'.pace_eq⟩

theorem FinRests.ackReceived (hr : s.FinRests) (ackno : WrappingInt32) (w : UInt16) :
    (s.ackReceived ackno w).FinRests := by
  rw [ackReceived_eq]
  split_ifs with hign
  · exact hr
  · have hbase := base_lt_of_not_ignores w hign
    -- the timer is stopped as soon as the queue is empty
    have hempty : ((s.setWindowSize w).unAckQueue.updateBase (s.absAckno ackno)).finAcked = true →
        ((s.setWindowSize w).unAckQueue.updateBase (s.absAckno ackno)).unAcked = [] := by
      rcases UnAckQueue.updateBase_cases hbase with ⟨-, heq⟩ | ⟨-, -, -, hu, heq⟩ | ⟨-, -, -, -, heq⟩ |
          ⟨-, -, hu, heq⟩ | ⟨-, hf, hu, heq⟩
      · rw [heq]
        exact fun hfin => (hr hfin).1
      · rw [heq]
        exact fun _ => hu
      · rw [heq]
        exact fun _ => rfl
      · rw [heq]
        exact fun _ => hu
      · obtain ⟨sizes, e, -, -, heq'⟩ := UnAckQueue.erase_spec hbase hf
        rw [heq, heq']
        exact fun hfin => absurd (hr hfin).1 hu
    intro hfin
    refine ⟨hempty hfin, ?_⟩
    by_contra hrun
    rcases (restarted_running _ _).mp (by simpa using hrun) with hu | ⟨-, hnot⟩
    · exact hu (hempty hfin)
    · exact absurd (hnot.symm.trans hfin) (by simp)

theorem FinRests.tick (hr : s.FinRests) (junk : Nat → UInt8) (ms : Nat) :
    (s.tick junk ms).FinRests := by
  intro hfin
  rw [tick_finAcked] at hfin
  have hsame : s.tick junk ms = s := by
    unfold TCPSender.tick
    rw [if_neg (by simp [(hr hfin).2])]
  rw [hsame]
  exact hr hfin

/-- Time changes the pace by a retransmission only. -/
theorem FinRests.tick_pace (hr : s.FinRests) (junk : Nat → UInt8) (ms : Nat) :
    (s.tick junk ms).pace =
      if s.timer.expires ms = true then { s with timer := s.timer.retransmitted }.pace
      else s.pace := by
  rw [tick_eq]
  split_ifs with hexp hrun
  · have hfin : s.unAckQueue.finAcked = false := by
      by_contra hf
      have hrun := (hr (by simpa using hf)).2
      simp [Timer.running_of_expires hexp] at hrun
    obtain ⟨q, heq, -⟩ := timeoutRetransmit_frame junk { s with timer := s.timer.elapse ms } hfin
    rw [heq]
    rfl
  · rfl
  · rfl

/-- An acknowledgment of nothing new with a window of zero leaves the pace of the probes. -/
theorem Paced.ackReceived_repeated {t n : Nat} (h : s.Paced (t, n, false))
    {ackno : WrappingInt32} (hold : s.absAckno ackno ≤ s.unAckQueue.baseSqn) :
    (s.ackReceived ackno 0).Paced (t, n, false) ∧
      (s.ackReceived ackno 0).unAckQueue.finAcked = s.unAckQueue.finAcked := by
  obtain ⟨data, hsound⟩ := h.sound
  rw [ackReceived_eq, if_pos (show s.Ignores _ from Or.inr hold)]
  refine ⟨⟨⟨data, hsound.setWindowSize 0⟩, h.rests, ?_⟩, rfl⟩
  have hpace := h.pace_eq
  simp only [pace, Prod.mk.injEq] at hpace
  simp [pace, setWindowSize, hpace.1, hpace.2.1]

end

end TCPSender

namespace TCPConnection

/-! ## The window that the peer advertises -/

/-- The window that the sender learns from a call. -/
def advertised (c : TCPConnection) : ConnectionOp → Option UInt16
  | .segmentReceived seg => if c.takesAck seg then some seg.header.win else none
  | _ => none

section

variable {c : TCPConnection} {seg : TCPSegment}

/-- A sound sender that doubles its timeout, or not. -/
def Doubles (b : Bool) (s : TCPSender) : Prop :=
  (∃ data, s.Sound data) ∧ s.FinRests ∧ s.timer.doubleTimeout = b

theorem senderStable_doubles (b : Bool) : SenderStable (Doubles b) where
  segmentsOut := fun _ segs ⟨⟨data, h⟩, hr, hb⟩ => ⟨⟨data, h.segmentsOut segs⟩, hr, hb⟩
  write := fun _ d ⟨⟨_, h⟩, hr, hb⟩ => ⟨⟨_, h.write d⟩, hr, hb⟩
  endStream := fun _ ⟨⟨data, h⟩, hr, hb⟩ => ⟨⟨data, h.endStream⟩, hr, hb⟩
  setError := fun _ ⟨⟨data, h⟩, hr, hb⟩ => ⟨⟨data, h.setError⟩, hr, hb⟩
  fillWindow := fun _ ⟨h, hr, hb⟩ => by
    have h' := TCPSender.Paced.fillWindow ⟨h, hr, rfl⟩
    exact ⟨h'.sound, h'.rests, (congrArg (·.2.2) h'.pace_eq).trans hb⟩
  tick := fun s junk ms ⟨⟨data, h⟩, hr, hb⟩ => by
    refine ⟨⟨data, h.tick junk ms⟩, hr.tick junk ms, Eq.trans ?_ hb⟩
    have hpace := congrArg (·.2.2) (hr.tick_pace junk ms)
    split_ifs at hpace <;> exact hpace

/-- The acknowledgment of a segment makes its window count. -/
theorem doubles_ackReceived {b : Bool} {s : TCPSender} (h : Doubles b s) (hd : TCPHeader) :
    Doubles (hd.win != 0) (s.ackReceived hd.ackno hd.win) := by
  obtain ⟨⟨data, hs⟩, hr, -⟩ := h
  refine ⟨⟨data, hs.ackReceived _ _⟩, hr.ackReceived _ _, ?_⟩
  rw [TCPSender.ackReceived_eq]
  split_ifs
  · rfl
  · unfold TCPSender.restarted
    split_ifs <;> rfl

/-- The timeout will be doubled exactly if the last window that the sender learned is not
zero. -/
theorem step_doubles (junk : Nat → UInt8) {b : Bool} (h : Doubles b c.sender)
    (op : ConnectionOp) :
    Doubles ((c.advertised op).elim b (· != 0)) (c.step junk op).sender := by
  by_cases hseg : ∃ seg, op = .segmentReceived seg
  · obtain ⟨seg, rfl⟩ := hseg
    show Doubles (Option.elim (if c.takesAck seg then some seg.header.win else none) b (· != 0))
      (c.segmentReceived seg).sender
    split_ifs with htakes
    · exact takenAck_rule (senderStable_doubles b).stable (senderStable_doubles _).stable
        (fun h' => h') htakes (fun _ h' _ => doubles_ackReceived h' seg.header) h
    · exact segmentReceived_rule (senderStable_doubles b).stable (fun h' => h')
        (fun htakes' => absurd htakes' htakes) h
  · have hnone : c.advertised op = none := by
      unfold advertised
      split
      · exact absurd ⟨_, rfl⟩ hseg
      · rfl
    rw [hnone]
    exact sender_rule (senderStable_doubles b) junk
      (fun seg _ hop => absurd ⟨seg, hop⟩ hseg) h

end

end TCPConnection

namespace TCPConnection

/-! ## Probes -/

/-- No RST has been sent, and the pace of the sender is `p`. -/
structure Probing (p : Nat × Nat × Bool) (c : TCPConnection) : Prop where
  paced : c.sender.Paced p
  no_rst : ∀ seg ∈ c.segmentsOut ++ c.sender.segmentsOut, seg.header.rst = false

theorem retransmitSeg_rst (junk : Nat → UInt8) (s : TCPSender) :
    (s.retransmitSeg junk).1.header.rst = false := by
  unfold TCPSender.retransmitSeg
  split_ifs
  · rfl
  · rfl
  · unfold TCPSender.makeSynSeg
    dsimp only
    split_ifs <;> rfl
  · rfl
  · rfl

theorem withAck_rst (r : TCPReceiver) (seg : TCPSegment) :
    (withAck r seg).header.rst = seg.header.rst := by
  unfold withAck
  split
  · split_ifs <;> rfl
  · rfl

/-- The RST is all that is left in the outgoing queue. -/
theorem sendRSTSeg_segmentsOut (c : TCPConnection) :
    ∃ seg, c.sendRSTSeg.segmentsOut = [seg] ∧ seg.header.rst = true := by
  have hrst : ∀ seqno,
      (withAck c.receiver { header := { seqno := seqno, rst := true } }).header.rst = true :=
    fun _ => withAck_rst _ _
  unfold sendRSTSeg
  split
  · exact ⟨_, rfl, hrst _⟩
  · rename_i hnil
    refine ⟨_, ?_, hrst (wrap c.sender.unAckQueue.nextSeqno c.sender.isn)⟩
    show c.segmentsOut ++ [_] = [_]
    rw [(List.append_eq_nil_iff.mp hnil).1]
    rfl

section

variable {c : TCPConnection} {p : Nat × Nat × Bool} {t n : Nat}

theorem stable_probing (p : Nat × Nat × Bool) : Stable (Probing p) where
  flags := fun _ _ _ _ _ h => ⟨h.paced, h.no_rst⟩
  fillWindow := fun c h => by
    refine ⟨h.paced.fillWindow, ?_⟩
    intro seg hmem
    obtain ⟨data, hs⟩ := h.paced.sound
    rcases List.mem_append.mp hmem with hmem | hmem
    · exact h.no_rst seg (List.mem_append_left _ hmem)
    · refine hs.fillWindow_no_rst ?_ seg hmem
      exact fun seg' h' => h.no_rst seg' (List.mem_append_right _ h')
  sendEmptySegment := fun c h => by
    obtain ⟨data, hs⟩ := h.paced.sound
    refine ⟨⟨⟨data, hs.segmentsOut _⟩, h.paced.rests, h.paced.pace_eq⟩, ?_⟩
    intro seg hmem
    change seg ∈ c.segmentsOut ++ (c.sender.segmentsOut ++ [_]) at hmem
    rw [← List.append_assoc] at hmem
    rcases List.mem_append.mp hmem with hmem | hmem
    · exact h.no_rst seg hmem
    · rw [List.mem_singleton.mp hmem]
  updateOutput := fun c h => by
    obtain ⟨data, hs⟩ := h.paced.sound
    refine ⟨⟨⟨data, hs.segmentsOut _⟩, h.paced.rests, h.paced.pace_eq⟩, ?_⟩
    intro seg hmem
    change seg ∈ (c.segmentsOut ++ c.sender.segmentsOut.map (withAck c.receiver)) ++ [] at hmem
    rw [List.append_nil] at hmem
    rcases List.mem_append.mp hmem with hmem | hmem
    · exact h.no_rst seg (List.mem_append_left _ hmem)
    · obtain ⟨seg₀, hseg₀, rfl⟩ := List.mem_map.mp hmem
      rw [withAck_rst]
      exact h.no_rst seg₀ (List.mem_append_right _ hseg₀)
  uncleanShutdown := fun c h => by
    obtain ⟨data, hs⟩ := h.paced.sound
    exact ⟨⟨⟨data, hs.setError⟩, h.paced.rests, h.paced.pace_eq⟩, h.no_rst⟩

theorem Probing.ticked (h : c.Probing p) (junk : Nat → UInt8) (ms : Nat) :
    (c.ticked junk ms).Probing (c.sender.tick junk ms).pace := by
  obtain ⟨data, hs⟩ := h.paced.sound
  refine (stable_probing _).updateOutput _
    ⟨⟨⟨data, hs.tick junk ms⟩, h.paced.rests.tick junk ms, rfl⟩, fun seg hmem => ?_⟩
  have hout : (c.sender.tick junk ms).segmentsOut = c.sender.segmentsOut ∨
      ∃ s : TCPSender, (c.sender.tick junk ms).segmentsOut
        = c.sender.segmentsOut ++ [(s.retransmitSeg junk).1] := by
    rw [TCPSender.tick_eq]
    split_ifs with hexp hrun
    · by_cases hfin : c.sender.unAckQueue.finAcked = true
      · unfold TCPSender.timeoutRetransmit
        rw [if_pos hfin]
        exact Or.inl rfl
      · obtain ⟨q, heq, -⟩ := TCPSender.timeoutRetransmit_frame junk
          { c.sender with timer := c.sender.timer.elapse ms } (by simpa using hfin)
        rw [heq]
        exact Or.inr ⟨_, rfl⟩
    · exact Or.inl rfl
    · exact Or.inl rfl
  -- queued before, or repeated by a timeout
  rcases List.mem_append.mp hmem with hmem | hmem
  · exact h.no_rst seg (List.mem_append_left _ hmem)
  · change seg ∈ (c.sender.tick junk ms).segmentsOut at hmem
    rcases hout with hout | ⟨s, hout⟩
    · rw [hout] at hmem
      exact h.no_rst seg (List.mem_append_right _ hmem)
    · rw [hout] at hmem
      rcases List.mem_append.mp hmem with hmem | hmem
      · exact h.no_rst seg (List.mem_append_right _ hmem)
      · rw [List.mem_singleton.mp hmem]
        exact retransmitSeg_rst junk s

/-- An active connection has not sent a RST, and has not used up its attempts. -/
def Trying (c : TCPConnection) : Prop := ∃ p, c.Probing p ∧ p.2.1 ≤ TCPConfig.maxRetxAttempts

theorem stable_trying : Stable Trying where
  flags := fun c _ _ _ _ ⟨p, h, hle⟩ => ⟨p, (stable_probing p).flags c _ _ _ _ h, hle⟩
  fillWindow := fun c ⟨p, h, hle⟩ => ⟨p, (stable_probing p).fillWindow c h, hle⟩
  sendEmptySegment := fun c ⟨p, h, hle⟩ => ⟨p, (stable_probing p).sendEmptySegment c h, hle⟩
  updateOutput := fun c ⟨p, h, hle⟩ => ⟨p, (stable_probing p).updateOutput c h, hle⟩
  uncleanShutdown := fun c ⟨p, h, hle⟩ => ⟨p, (stable_probing p).uncleanShutdown c h, hle⟩

theorem Trying.ackReceived (h : c.Trying) (hd : TCPHeader) : (c.ackReceived hd).Trying := by
  obtain ⟨p, ⟨⟨⟨data, hs⟩, hr, hp⟩, hrst⟩, hle⟩ := h
  refine ⟨_, ⟨⟨⟨data, hs.ackReceived hd.ackno hd.win⟩, hr.ackReceived hd.ackno hd.win, rfl⟩, ?_⟩, ?_⟩
  · show ∀ seg ∈ c.segmentsOut ++ (c.sender.ackReceived hd.ackno hd.win).segmentsOut, _
    rw [ackReceived_segmentsOut]
    exact hrst
  · rw [← hp] at hle
    show (c.sender.ackReceived hd.ackno hd.win).timer.consecutiveRetransmissions ≤ _
    rw [TCPSender.ackReceived_eq]
    split_ifs
    · exact hle
    · unfold TCPSender.restarted
      split_ifs <;> exact Nat.zero_le _

/-- The calls of the owner change nothing of this. -/
theorem Probing.other (h : c.Probing p) (junk : Nat → UInt8) {op : ConnectionOp}
    (htick : ∀ ms, op ≠ .tick ms) (hseg : ∀ seg, op ≠ .segmentReceived seg) :
    (c.step junk op).Probing p := by
  obtain ⟨data, hs⟩ := h.paced.sound
  cases op with
  | connect => exact (stable_probing p).fill h
  | write d =>
      show (c.write d).1.Probing p
      unfold TCPConnection.write
      split_ifs
      · exact h
      · exact (stable_probing p).fill
          (c := c.onSender _) ⟨⟨⟨_, hs.write d⟩, h.paced.rests, h.paced.pace_eq⟩, h.no_rst⟩
  | endInputStream =>
      exact (stable_probing p).fill
        (c := c.onSender _) ⟨⟨⟨data, hs.endStream⟩, h.paced.rests, h.paced.pace_eq⟩, h.no_rst⟩
  | tick ms => exact absurd rfl (htick ms)
  | segmentReceived seg => exact absurd rfl (hseg seg)
  | readInbound len => exact ⟨h.paced, h.no_rst⟩
  | popSegment =>
      refine ⟨h.paced, fun seg hmem => h.no_rst seg ?_⟩
      rcases List.mem_append.mp hmem with hmem | hmem
      · exact List.mem_append_left _ (List.mem_of_mem_tail hmem)
      · exact List.mem_append_right _ hmem

theorem Trying.step (h : c.active = true → c.Trying) (junk : Nat → UInt8) (op : ConnectionOp)
    (hactive : (c.step junk op).active = true) : (c.step junk op).Trying := by
  have hc : c.active = true := by
    by_contra hinactive
    simp [step_inactive junk op (by simpa using hinactive)] at hactive
  obtain ⟨p, hp, hle⟩ := h hc
  cases op using ConnectionOp.kindCases with
  | tick ms =>
      change (c.tick junk ms.toNat).active = true at hactive
      show (c.tick junk ms.toNat).Trying
      rw [tick_eq junk ms.toNat hc] at hactive ⊢
      split_ifs at hactive ⊢ with hretx hlinger
      · exact absurd hactive (by simp [uncleanShutdown])
      · exact absurd hactive (by simp [cleanShutdown])
      · exact ⟨_, hp.ticked junk ms.toNat, Nat.not_lt.mp hretx⟩
  | segmentReceived seg =>
      refine segmentReceived_rule stable_trying (fun h' => ?_) (fun _ _ h' _ => h'.ackReceived _)
        ⟨p, hp, hle⟩
      obtain ⟨p', hp', hle'⟩ := h'
      exact ⟨p', ⟨hp'.paced, hp'.no_rst⟩, hle'⟩
  | owner op htick hseg => exact ⟨p, hp.other junk htick hseg, hle⟩

/-! ## A peer that repeats itself -/

/-- The only segments that arrive are pure acknowledgments of nothing new, with a window of
zero. -/
def Repeats (c : TCPConnection) : ConnectionOp → Prop
  | .segmentReceived seg => seg.lengthInSequenceSpace = 0 ∧ seg.header.rst = false ∧
      seg.header.win = 0 ∧
      c.sender.absAckno seg.header.ackno ≤ c.sender.unAckQueue.baseSqn
  | _ => True

instance decidableRepeats (c : TCPConnection) : ∀ op, Decidable (c.Repeats op)
  | .segmentReceived _ => inferInstanceAs (Decidable (_ ∧ _ ∧ _ ∧ _))
  | .connect | .write _ | .endInputStream | .tick _ | .readInbound _ | .popSegment => .isTrue trivial

/-- The call lets the retransmission timer expire. -/
def timesOut (c : TCPConnection) : ConnectionOp → Bool
  | .tick ms => c.active && c.sender.timer.expires ms.toNat
  | _ => false

/-- The number of retransmission timeouts in a run. -/
def timeouts (junk : Nat → UInt8) : TCPConnection → List ConnectionOp → Nat
  | _, [] => 0
  | c, op :: ops => (c.timesOut op).toNat + timeouts junk (c.step junk op) ops

/-- A connection that is over has been closed, not reset. -/
def Closes (c : TCPConnection) : Prop :=
  c.active = false → c.timeWait = true ∨ c.sender.finAcked = true

theorem Closes.step_of_inactive (h : c.Closes) (hs : ∃ data, c.sender.Sound data)
    (junk : Nat → UInt8) (op : ConnectionOp) (hend : c.active = false) :
    (c.step junk op).Closes := by
  intro _
  have htw : (c.step junk op).timeWait = c.timeWait := by
    cases op using ConnectionOp.kindCases with
    | tick ms => exact (tick_flags c junk ms.toNat).1
    | segmentReceived seg =>
        exact congrArg TCPConnection.timeWait (segmentReceived_of_inactive seg hend)
    | owner op htick hseg => exact congrArg Flags.timeWait (step_flags junk op htick hseg).1
  have hfin : (c.step junk op).sender.finAcked = c.sender.finAcked :=
    step_finAcked junk op hs fun _ _ htakes =>
      absurd (hend.symm.trans (takesAck_iff.mp htakes).1) (by simp)
  rw [htw, hfin]
  exact h hend

/-- Time in front of a window of zero: the timeout stays, the attempts are counted, and the
connection gives up when they are used up. -/
theorem Probing.tick (h : c.Probing (t, n, false)) (junk : Nat → UInt8) (ms : Nat)
    (hactive : c.active = true) (hle : n ≤ TCPConfig.maxRetxAttempts) (n' : Nat)
    (hn' : n' = n + (c.sender.timer.expires ms).toNat) :
    (c.tick junk ms).sender.pace = (t, n', false) ∧
      (n' ≤ TCPConfig.maxRetxAttempts →
        (c.tick junk ms).Probing (t, n', false) ∧ (c.tick junk ms).Closes) ∧
      (TCPConfig.maxRetxAttempts < n' → (c.tick junk ms).active = false ∧
        ∃ seg, (c.tick junk ms).segmentsOut = [seg] ∧ seg.header.rst = true) := by
  have hpace : (c.sender.tick junk ms).pace = (t, n', false) := by
    have hp := h.paced.pace_eq
    simp only [TCPSender.pace, Prod.mk.injEq] at hp
    rw [h.paced.rests.tick_pace junk ms, hn']
    unfold TCPConfig.maxRetxAttempts at hle
    -- the count stays far below its 32 bits
    split_ifs with hexp
    · simp [TCPSender.pace, Timer.retransmitted, hp.1, hp.2.1, hp.2.2, hexp]
      omega
    · simp [TCPSender.pace, hp.1, hp.2.1, hp.2.2, hexp]
  have hprobing := h.ticked junk ms
  rw [hpace] at hprobing
  have hcount : (c.ticked junk ms).sender.consecutiveRetransmissions = n' :=
    congrArg (·.2.1) hprobing.paced.pace_eq
  rw [tick_eq junk ms hactive, hcount]
  split_ifs with hretx hlinger
  · refine ⟨?_, fun hle' => absurd hretx (Nat.not_lt.mpr hle'), fun _ => ⟨rfl, ?_⟩⟩
    · show { (c.ticked junk ms).sendRSTSeg.sender with stream := _ }.pace = (t, n', false)
      rw [sendRSTSeg_sender]
      exact hpace
    · exact sendRSTSeg_segmentsOut (c.ticked junk ms)
  · refine ⟨hpace, fun _ => ⟨⟨hprobing.paced, hprobing.no_rst⟩, fun _ => Or.inl hlinger.1⟩,
      fun hgt => absurd hgt hretx⟩
  · refine ⟨hpace, fun _ => ⟨hprobing, fun hend => ?_⟩, fun hgt => absurd hgt hretx⟩
    exact absurd (hactive.symm.trans hend) (by simp)

/-- After `n` attempts: the connection has counted them, has sent no RST and is not reset, or
they are too many and it is over. -/
def Attempted (t n : Nat) (c : TCPConnection) : Prop :=
  (n ≤ TCPConfig.maxRetxAttempts → c.Probing (t, n, false) ∧ c.Closes) ∧
    (TCPConfig.maxRetxAttempts < n → c.active = false)

/-- A repeated acknowledgment changes nothing of the probes. -/
theorem Probing.repeated (h : c.Probing (t, n, false)) (hcloses : c.Closes) {seg : TCPSegment}
    (hseg : c.Repeats (.segmentReceived seg)) :
    (c.segmentReceived seg).Probing (t, n, false) ∧ (c.segmentReceived seg).Closes := by
  obtain ⟨-, hrst, hwin, hold⟩ := hseg
  constructor
  · refine segmentReceived_rule (stable_probing _) (fun h' => ⟨h'.paced, h'.no_rst⟩) ?_ h
    rintro - c' h' ⟨segs, hsender⟩
    have hold' : c'.sender.absAckno seg.header.ackno ≤ c'.sender.unAckQueue.baseSqn := by
      rw [hsender]
      exact hold
    refine ⟨?_, ?_⟩
    · show (c'.sender.ackReceived seg.header.ackno seg.header.win).Paced _
      rw [hwin]
      exact (h'.paced.ackReceived_repeated hold').1
    · show ∀ seg' ∈ c'.segmentsOut ++ (c'.sender.ackReceived seg.header.ackno
        seg.header.win).segmentsOut, _
      rw [ackReceived_segmentsOut]
      exact h'.no_rst
  · by_cases hactive : c.active = true
    · intro hend
      rcases segmentReceived_inactive hactive hend with ⟨hrst', -⟩ | ⟨-, -, hfin⟩
      · exact absurd (hrst.symm.trans hrst') (by simp)
      · exact Or.inr hfin
    · rw [segmentReceived_of_inactive seg (by simpa using hactive)]
      exact hcloses

/-- One call in front of a peer that repeats itself. -/
theorem Probing.step (h : c.Probing (t, n, false)) (hcloses : c.Closes)
    (hle : n ≤ TCPConfig.maxRetxAttempts) (junk : Nat → UInt8) {op : ConnectionOp}
    (hop : c.Repeats op) : (c.step junk op).Attempted t (n + (c.timesOut op).toNat) := by
  -- a call that is no timeout uses up no attempt
  have hsame : c.timesOut op = false → (c.step junk op).Probing (t, n, false) →
      (c.step junk op).Closes → (c.step junk op).Attempted t (n + (c.timesOut op).toNat) := by
    intro hnot hprobing hcloses'
    rw [hnot]
    exact ⟨fun _ => ⟨hprobing, hcloses'⟩, fun hgt => absurd hgt (Nat.not_lt.mpr hle)⟩
  cases op using ConnectionOp.kindCases with
  | tick ms =>
      by_cases hactive : c.active = true
      · have hout : c.timesOut (.tick ms) = c.sender.timer.expires ms.toNat := by
          simp [timesOut, hactive]
        rw [hout]
        obtain ⟨-, hon, hover⟩ := h.tick junk ms.toNat hactive hle _ rfl
        exact ⟨hon, fun hgt => (hover hgt).1⟩
      · have hend : c.active = false := by simpa using hactive
        have hid : c.step junk (.tick ms) = c := tick_of_inactive junk ms.toNat hend
        refine hsame (by simp [timesOut, hend]) ?_ ?_
        · rw [hid]
          exact h
        · rw [hid]
          exact hcloses
  | segmentReceived seg =>
      obtain ⟨hprobing, hcloses'⟩ := h.repeated hcloses hop
      exact hsame rfl hprobing hcloses'
  | owner op htick hseg =>
      have hflags := (step_flags (c := c) junk op htick hseg).1
      have hnot : c.timesOut op = false := by
        unfold timesOut
        split
        · exact absurd rfl (htick _)
        · rfl
      apply hsame hnot (h.other junk htick hseg)
      by_cases hactive : c.active = true
      · exact fun hend => absurd (((congrArg Flags.active hflags).symm.trans hend).symm.trans hactive)
          (by simp)
      · exact hcloses.step_of_inactive h.paced.sound junk op (by simpa using hactive)

/-- A run in front of a peer that repeats itself. -/
theorem Probing.run (h : c.Probing (t, n, false)) (hcloses : c.Closes)
    (hle : n ≤ TCPConfig.maxRetxAttempts) (junk : Nat → UInt8) {later : List ConnectionOp}
    (hlater : Admits (TCPConnection.step junk) Repeats c later) :
    (Run.run (TCPConnection.step junk) c later).Attempted t (n + timeouts junk c later) := by
  induction later generalizing c n with
  | nil => exact ⟨fun _ => ⟨h, hcloses⟩, fun hgt => absurd hgt (Nat.not_lt.mpr hle)⟩
  | cons op later ih =>
      obtain ⟨hop, hlater'⟩ := hlater
      obtain ⟨hon, hover⟩ := h.step hcloses hle junk hop
      have hsum : n + timeouts junk c (op :: later)
          = n + (c.timesOut op).toNat + timeouts junk (c.step junk op) later :=
        (Nat.add_assoc _ _ _).symm
      rw [hsum]
      by_cases hle' : n + (c.timesOut op).toNat ≤ TCPConfig.maxRetxAttempts
      · obtain ⟨hprobing, hcloses'⟩ := hon hle'
        exact ih hprobing hcloses' hle' hlater'
      · refine ⟨fun hle'' => absurd hle'' (by omega), ?_⟩
        intro _
        exact run_inactive junk later (hover (Nat.lt_of_not_le hle'))

end

end TCPConnection

/-- A connection, and the window that its peer has advertised most recently. -/
structure Watched where
  conn : TCPConnection
  window : Option UInt16 := none

namespace Watched

def new (cfg : TCPConfig) (isn : WrappingInt32) : Watched := { conn := TCPConnection.new cfg isn }

def step (junk : Nat → UInt8) (g : Watched) (op : ConnectionOp) : Watched :=
  { conn := g.conn.step junk op, window := (g.conn.advertised op).or g.window }

/-- The flag of the sender is about the window that was advertised. -/
theorem run_doubles (junk : Nat → UInt8) (cfg : TCPConfig) (isn : WrappingInt32)
    (ops : List ConnectionOp) :
    let g := run (step junk) (new cfg isn) ops
    TCPConnection.Doubles (g.window.elim true (· != 0)) g.conn.sender := by
  refine run_invariant'
    (I := fun g : Watched => TCPConnection.Doubles (g.window.elim true (· != 0)) g.conn.sender)
    (fun g op h => ?_) ⟨⟨[], TCPSender.sound_new _ _ _⟩, ?_, rfl⟩ ops
  · have hstep := TCPConnection.step_doubles junk h op
    show TCPConnection.Doubles (Option.elim ((g.conn.advertised op).or g.window) true (· != 0))
      (g.conn.step junk op).sender
    cases hadv : g.conn.advertised op with
    | none => simpa [hadv] using hstep
    | some w => simpa [hadv] using hstep
  · exact fun hfin => absurd hfin (by simp [new, TCPConnection.new, TCPSender.new])

theorem run_trying (junk : Nat → UInt8) (cfg : TCPConfig) (isn : WrappingInt32)
    (ops : List ConnectionOp) :
    (run (step junk) (new cfg isn) ops).conn.active = true →
      (run (step junk) (new cfg isn) ops).conn.Trying := by
  refine run_invariant' (I := fun g : Watched => g.conn.active = true → g.conn.Trying)
    (fun g op h => TCPConnection.Trying.step h junk op) (fun _ => ?_) ops
  refine ⟨_, ⟨⟨⟨[], TCPSender.sound_new _ _ _⟩, fun hfin => ?_, rfl⟩, ?_⟩, ?_⟩
  · exact absurd hfin (by simp [new, TCPConnection.new, TCPSender.new])
  · simp [new, TCPConnection.new, TCPSender.new]
  · simp [TCPSender.pace, new, TCPConnection.new, TCPSender.new, Timer.new]

/-- **Probes of a window of zero.** In every run, while the window that the peer has advertised
most recently is zero, a retransmission timeout leaves the timeout as it is and counts as one
retransmission; with no attempts left it resets the connection. While the peer only repeats
itself, the connection sends no RST, and does not end but by being closed, as long as the
retransmissions are at most the attempts; one more, and it is over. -/
theorem zeroWindow_run (junk : Nat → UInt8) (cfg : TCPConfig) (isn : WrappingInt32)
    (ops : List ConnectionOp) (g : Watched) (hg : g = run (step junk) (new cfg isn) ops)
    (hactive : g.conn.active = true) (hzero : g.window = some 0) :
    (∀ ms : UInt64, g.conn.sender.timer.expires ms.toNat = true →
      (g.conn.tick junk ms.toNat).sender.timer.timeout = g.conn.sender.timer.timeout ∧
      (g.conn.tick junk ms.toNat).sender.consecutiveRetransmissions
        = g.conn.sender.consecutiveRetransmissions + 1 ∧
      (g.conn.sender.consecutiveRetransmissions = TCPConfig.maxRetxAttempts →
        (g.conn.tick junk ms.toNat).active = false ∧
        ∃ seg, (g.conn.tick junk ms.toNat).segmentsOut = [seg] ∧ seg.header.rst = true)) ∧
    ∀ later, Admits (TCPConnection.step junk) TCPConnection.Repeats g.conn later →
      ∀ c n, c = run (TCPConnection.step junk) g.conn later →
      n = g.conn.sender.consecutiveRetransmissions + TCPConnection.timeouts junk g.conn later →
      (n ≤ TCPConfig.maxRetxAttempts →
        c.sender.timer.timeout = g.conn.sender.timer.timeout ∧
        c.sender.consecutiveRetransmissions = n ∧
        (∀ seg ∈ c.segmentsOut, seg.header.rst = false) ∧
        (c.active = true ∨ c.timeWait = true ∨ c.sender.finAcked = true)) ∧
      (TCPConfig.maxRetxAttempts < n → c.active = false) := by
  obtain ⟨p, hprobing, hle⟩ := run_trying junk cfg isn ops (by rwa [← hg])
  obtain ⟨-, -, hdouble⟩ := run_doubles junk cfg isn ops
  rw [← hg] at hprobing hdouble
  rw [hzero] at hdouble
  -- the window of zero switches the doubling of the timeout off
  have hp : p = (g.conn.sender.timer.timeout, g.conn.sender.consecutiveRetransmissions, false) := by
    rw [← hprobing.paced.pace_eq]
    unfold TCPSender.pace
    rw [hdouble]
    rfl
  rw [hp] at hprobing hle
  constructor
  · intro ms hexp
    obtain ⟨hpace, -, hover⟩ := hprobing.tick junk ms.toNat hactive hle _ rfl
    rw [hexp] at hpace hover
    refine ⟨congrArg (·.1) hpace, congrArg (·.2.1) hpace, fun hmax => hover ?_⟩
    rw [hmax]
    exact Nat.lt_succ_self _
  · rintro later hlater c n rfl rfl
    have hcloses : g.conn.Closes := fun hend => absurd (hactive.symm.trans hend) (by simp)
    obtain ⟨hon, hover⟩ := hprobing.run hcloses hle junk hlater
    refine ⟨fun hle' => ?_, hover⟩
    obtain ⟨hprobing', hcloses'⟩ := hon hle'
    have hpace := hprobing'.paced.pace_eq
    refine ⟨congrArg (·.1) hpace, congrArg (·.2.1) hpace,
      fun seg hmem => hprobing'.no_rst seg (List.mem_append_left _ hmem), ?_⟩
    by_cases hactive' : (run (TCPConnection.step junk) g.conn later).active = true
    · exact Or.inl hactive'
    · exact Or.inr (hcloses' (by simpa using hactive'))

/-- The handshake with a window of zero, and two bytes, the first of which is sent as a
probe. -/
def zeroWindow : List ConnectionOp :=
  [.segmentReceived { header := { syn := true } },
    .segmentReceived { header := { seqno := ⟨1⟩, ack := true, ackno := ⟨1⟩, win := 0 } },
    .write [97, 98]]

/-- A timeout, and the answer of the peer to the probe. -/
def probe : List ConnectionOp :=
  [.tick 1000,
    .segmentReceived { header := { seqno := ⟨1⟩, ack := true, ackno := ⟨1⟩, win := 0 } }]

/-- Two probes are survived. -/
theorem zeroWindow_twoProbes :
    let g := run (step fun _ => 0) (new {} ⟨0⟩) zeroWindow
    let c := run (TCPConnection.step fun _ => 0) g.conn (probe ++ probe)
    g.window = some 0 ∧ c.sender.timer.timeout = 1000 ∧
      c.sender.consecutiveRetransmissions = 2 ∧
      (c.active = true ∨ c.timeWait = true ∨ c.sender.finAcked = true) := by
  intro g c
  have hzero : g.window = some 0 := by decide +kernel
  obtain ⟨-, hlater⟩ := zeroWindow_run (fun _ => 0) {} ⟨0⟩ zeroWindow g rfl (by decide +kernel) hzero
  obtain ⟨hon, -⟩ := hlater (probe ++ probe) (by decide +kernel) c 2 rfl (by decide +kernel)
  obtain ⟨htimeout, hcount, -, halive⟩ := hon (by decide)
  exact ⟨hzero, htimeout.trans (by decide +kernel), hcount, halive⟩

/-- **A peer with a full window is given up.** Every one of nine probes is answered with the
same acknowledgment and a window of zero. The first timeout already changes the number of
retransmissions, and after the last one the connection has sent a RST and is over. -/
theorem zeroWindow_givenUp :
    let g := run (step fun _ => 0) (new {} ⟨0⟩) zeroWindow
    let c := run (TCPConnection.step fun _ => 0) g.conn (List.replicate 9 probe).flatten
    g.conn.active = true ∧ g.window = some 0 ∧
      (g.conn.tick (fun _ => 0) 1000).sender.consecutiveRetransmissions
        ≠ g.conn.sender.consecutiveRetransmissions ∧
      Admits (TCPConnection.step fun _ => 0) TCPConnection.Repeats g.conn
        (List.replicate 9 probe).flatten ∧
      c.active = false ∧ ∃ seg ∈ c.segmentsOut, seg.header.rst = true := by
  decide +kernel

end Watched

end Sponge
