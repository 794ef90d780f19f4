import Sponge.Sender.Invariant

set_option autoImplicit false

/-! # Acknowledgments outside the window

An acknowledgment below the base is outdated, one above the next sequence number is for
something that was never sent. `ack_received` takes the window of both before it looks at the
number, and rejects the second kind only after the FIN was sent. The theorem below says
exactly when such a call leaves the sender as it was. -/

namespace Sponge

open Word

namespace TCPSender

/-- The window of an acknowledgment is the one that the sender already has. -/
def SameWindow (s : TCPSender) (w : UInt16) : Prop :=
  s.timer.doubleTimeout = (w != 0) ∧ s.unAckQueue.winSize = max w.toNat 1

/-- An acknowledgment of something never sent finds nothing that it could change: the FIN was
sent, which makes it rejected, or there is nothing outstanding and the timer is off. -/
def RejectsUnsent (s : TCPSender) (absAckno : Nat) : Prop :=
  s.unAckQueue.finSent = true ∨
    (absAckno ≠ 1 ∧ s.unAckQueue.unAcked = [] ∧ s.timer.isTimerRunning = false)

instance (s : TCPSender) (w : UInt16) : Decidable (s.SameWindow w) :=
  inferInstanceAs (Decidable (_ ∧ _))

instance (s : TCPSender) (absAckno : Nat) : Decidable (s.RejectsUnsent absAckno) :=
  inferInstanceAs (Decidable (_ ∨ _))

section

variable {s : TCPSender} {data : Bytes}

theorem setWindowSize_winSize (s : TCPSender) (w : UInt16) :
    (s.setWindowSize w).unAckQueue.winSize = max w.toNat 1 := by
  show (if 0 < w.toNat then w.toNat else 1) = max w.toNat 1
  split_ifs <;> omega

theorem setWindowSize_eq_self_iff (w : UInt16) : s.setWindowSize w = s ↔ s.SameWindow w := by
  have hwin := s.setWindowSize_winSize w
  constructor
  · intro h
    rw [h] at hwin
    exact ⟨(congrArg (fun s : TCPSender => s.timer.doubleTimeout) h).symm, hwin⟩
  · rintro ⟨hdouble, hsize⟩
    change (if 0 < w.toNat then w.toNat else 1) = max w.toNat 1 at hwin
    unfold setWindowSize
    rw [hwin, ← hdouble, ← hsize]

/-- An acknowledgment of something never sent that is not rejected changes the queue or the
timer, unless nothing is outstanding. -/
theorem Sound.updateBase_eq_self_iff (h : s.Sound data) {a : Nat}
    (hbase : s.unAckQueue.baseSqn < a) (hfin : s.unAckQueue.finSent = false) :
    { s with
        unAckQueue := s.unAckQueue.updateBase a
        timer := restarted s.timer (s.unAckQueue.updateBase a) } = s ↔
      a ≠ 1 ∧ s.unAckQueue.unAcked = [] ∧ s.timer.isTimerRunning = false := by
  have hq : { s with
        unAckQueue := s.unAckQueue.updateBase a
        timer := restarted s.timer (s.unAckQueue.updateBase a) } = s →
      s.unAckQueue.updateBase a = s.unAckQueue := congrArg unAckQueue
  rcases UnAckQueue.updateBase_cases hbase with ⟨ha, heq⟩ | ⟨-, hf, -⟩ | ⟨-, hf, -⟩ |
      ⟨ha, -, hu, heq⟩ | ⟨ha, hf, hu, heq⟩
  · refine ⟨fun hsame => ?_, fun hsame => absurd ha hsame.1⟩
    have hb := congrArg UnAckQueue.baseSqn (heq.symm.trans (hq hsame))
    exact absurd hb (by show ¬1 = s.unAckQueue.baseSqn; omega)
  · exact absurd (hf.symm.trans hfin) (by simp)
  · exact absurd (hf.symm.trans hfin) (by simp)
  · -- nothing is outstanding, and the timer is stopped
    have hstop : restarted s.timer s.unAckQueue = s.timer.stopTimer := by
      simp [restarted, UnAckQueue.empty, hu, hfin]
    rw [heq, hstop]
    constructor
    · intro hsame
      have ht : s.timer.stopTimer = s.timer := congrArg timer hsame
      refine ⟨ha, hu, ?_⟩
      rw [← ht]
      rfl
    · rintro ⟨-, -, hrun⟩
      rw [h.idle hrun]
  · -- bytes are removed from the queue
    refine ⟨fun hsame => ?_, fun hsame => absurd hsame.2.1 hu⟩
    obtain ⟨sizes, e, he, -, heq'⟩ := UnAckQueue.erase_spec hbase hf
    have hb := congrArg UnAckQueue.baseSqn ((heq.trans heq').symm.trans (hq hsame))
    have hlen : 0 < s.unAckQueue.unAcked.length := List.length_pos_iff_ne_nil.mpr hu
    have hge := h.sizes_ge
    have hb' : s.unAckQueue.baseSqn + e = s.unAckQueue.baseSqn := hb
    omega

theorem restarted_doubleTimeout (t : Timer) (q : UnAckQueue) :
    (restarted t q).doubleTimeout = t.doubleTimeout := by
  unfold restarted
  split_ifs <;> rfl

theorem Sound.ackReceived_eq_self_iff (h : s.Sound data) (ackno : WrappingInt32) (w : UInt16)
    (hout : s.absAckno ackno < s.unAckQueue.baseSqn ∨
      s.unAckQueue.nextSeqno < s.absAckno ackno) :
    s.ackReceived ackno w = s ↔
      s.SameWindow w ∧
        (s.absAckno ackno ≤ s.unAckQueue.baseSqn ∨ s.RejectsUnsent (s.absAckno ackno)) := by
  rw [ackReceived_eq]
  split_ifs with hign
  · rw [setWindowSize_eq_self_iff]
    have hrej : s.absAckno ackno ≤ s.unAckQueue.baseSqn ∨
        s.RejectsUnsent (s.absAckno ackno) := by
      rcases hign with ⟨hfin, -⟩ | hle
      · exact Or.inr (Or.inl hfin)
      · exact Or.inl hle
    simp only [hrej, and_true]
  · simp only [Ignores, not_or, not_and] at hign
    have hbase : s.unAckQueue.baseSqn < s.absAckno ackno := by omega
    have hfin : s.unAckQueue.finSent = false := by
      by_contra hf
      have := hign.1 (by simpa using hf)
      omega
    have hnle : ¬s.absAckno ackno ≤ s.unAckQueue.baseSqn := by omega
    have hrej : s.RejectsUnsent (s.absAckno ackno) ↔ s.absAckno ackno ≠ 1 ∧
        s.unAckQueue.unAcked = [] ∧ s.timer.isTimerRunning = false := by
      simp [RejectsUnsent, hfin]
    rw [hrej]
    simp only [hnle, false_or]
    -- neither the queue nor the timer forgets the new window
    have hsame : { s.setWindowSize w with
          unAckQueue := (s.setWindowSize w).unAckQueue.updateBase (s.absAckno ackno)
          timer := restarted (s.setWindowSize w).timer
            ((s.setWindowSize w).unAckQueue.updateBase (s.absAckno ackno)) } = s →
        s.setWindowSize w = s := by
      intro heq
      have hdouble := congrArg (fun s : TCPSender => s.timer.doubleTimeout) heq
      have hwin := congrArg (fun s : TCPSender => s.unAckQueue.winSize) heq
      simp only [restarted_doubleTimeout, UnAckQueue.updateBase_fixed, setWindowSize_winSize]
        at hdouble hwin
      exact (setWindowSize_eq_self_iff w).mpr ⟨hdouble.symm, hwin.symm⟩
    constructor
    · intro heq
      have hs := hsame heq
      rw [hs] at heq
      exact ⟨(setWindowSize_eq_self_iff w).mp hs, (h.updateBase_eq_self_iff hbase hfin).mp heq⟩
    · rintro ⟨hs, hnone⟩
      rw [(setWindowSize_eq_self_iff w).mpr hs]
      exact (h.updateBase_eq_self_iff hbase hfin).mpr hnone

end

/-! ## Runs -/

/-- **When an outdated or impossible acknowledgment changes nothing.** In every state that a
sender can reach, it leaves the sender and all its later runs unchanged exactly when its
window is the current one and, if it is above the base, the FIN was sent or nothing is
outstanding. -/
theorem run_ackReceived_eq_self_iff (junk : Nat → UInt8) (capacity : UInt64)
    (retxTimeout : UInt16) (isn : WrappingInt32) (ops : List SenderOp) (s : TCPSender)
    (hs : s = Run.run (step junk) (new capacity retxTimeout isn) ops)
    (ackno : WrappingInt32) (w : UInt16)
    (hout : s.absAckno ackno < s.unAckQueue.baseSqn ∨
      s.unAckQueue.nextSeqno < s.absAckno ackno) :
    (s.ackReceived ackno w = s ∧
        ∀ later, Run.run (step junk) (s.ackReceived ackno w) later
          = Run.run (step junk) s later) ↔
      s.SameWindow w ∧
        (s.absAckno ackno ≤ s.unAckQueue.baseSqn ∨ s.RejectsUnsent (s.absAckno ackno)) := by
  obtain ⟨data, h⟩ := run_sound junk capacity retxTimeout isn ops
  rw [← hs] at h
  rw [← h.ackReceived_eq_self_iff ackno w hout]
  refine ⟨fun heq => heq.1, fun heq => ⟨heq, ?_⟩⟩
  intro later
  rw [heq]

/-- The handshake with a window of ten, and three bytes that are sent. -/
def threeBytes : List SenderOp :=
  [.fillWindow, .ackReceived ⟨1⟩ 10, .write [97, 98, 99], .fillWindow]

/-- The sender after the three bytes have been acknowledged. -/
def threeBytesAcked : TCPSender :=
  Run.run (step fun _ => 0) (new 64000 1000 ⟨0⟩) (threeBytes ++ [.ackReceived ⟨4⟩ 10])

theorem threeBytesAcked_ackReceived_eq_self :
    threeBytesAcked.ackReceived ⟨2⟩ 10 = threeBytesAcked ∧
      ∀ later, Run.run (step fun _ => 0) (threeBytesAcked.ackReceived ⟨2⟩ 10) later
        = Run.run (step fun _ => 0) threeBytesAcked later :=
  (run_ackReceived_eq_self_iff (fun _ => 0) 64000 1000 ⟨0⟩ _ threeBytesAcked rfl ⟨2⟩ 10
    (by decide +kernel)).mpr (by decide +kernel)

/-- An outdated acknowledgment with another window changes the window, and one for something
that was never sent removes the bytes that are in flight. -/
theorem ackReceived_outside_changes :
    (threeBytesAcked.absAckno ⟨2⟩ < threeBytesAcked.unAckQueue.baseSqn ∧
      threeBytesAcked.ackReceived ⟨2⟩ 3 ≠ threeBytesAcked) ∧
    ∃ s, s = Run.run (step fun _ => 0) (new 64000 1000 ⟨0⟩) threeBytes ∧
      s.unAckQueue.nextSeqno < s.absAckno ⟨9⟩ ∧
      (s.ackReceived ⟨9⟩ 10).unAckQueue.unAcked ≠ s.unAckQueue.unAcked := by
  refine ⟨by decide +kernel, _, rfl, ?_, ?_⟩ <;> decide +kernel

end TCPSender

end Sponge
