import Sponge.Connection.Flags
import Sponge.Sender.InFlight
import Sponge.Sender.Queue
import Sponge.TCPState

set_option autoImplicit false

/-! # The summary of the sender

`state_summary` computes the state of a sender from its counters. The sender itself goes by
its flags. In a sender that is in order (`Orderly`) the counters agree with the flags
(`Orderly.stateSummary_eq`), and it stays in order as long as the acknowledgments do not
acknowledge the FIN before the SYN and do not remove bytes that were never sent. -/

namespace Sponge

open Word

/-- What was sent or acknowledged stays so. -/
structure UnAckQueue.Keeps (q q' : UnAckQueue) : Prop where
  synSent : q.synSent = true → q'.synSent = true
  synAcked : q.synAcked = true → q'.synAcked = true
  finSent : q.finSent = true → q'.finSent = true

theorem UnAckQueue.Keeps.trans {q q' q'' : UnAckQueue} (h : q.Keeps q') (h' : q'.Keeps q'') :
    q.Keeps q'' :=
  ⟨fun hs => h'.synSent (h.synSent hs), fun hs => h'.synAcked (h.synAcked hs),
    fun hs => h'.finSent (h.finSent hs)⟩

namespace TCPSender

/-- The acknowledgment number acknowledges the FIN only after the SYN, and in front of the FIN
it removes no more bytes than are outstanding. -/
def AcksInTurn (s : TCPSender) (absAckno : Nat) : Prop :=
  (s.unAckQueue.finSent = true → absAckno = s.unAckQueue.nextSeqno →
    s.unAckQueue.synAcked = true) ∧
  (s.unAckQueue.finSent = false → s.unAckQueue.unAcked ≠ [] →
    min (absAckno - s.unAckQueue.baseSqn) s.unAckQueue.unAckedPayloadSize.sum
      ≤ s.unAckQueue.unAcked.length)

instance (s : TCPSender) (absAckno : Nat) : Decidable (s.AcksInTurn absAckno) :=
  inferInstanceAs (Decidable (_ ∧ _))

/-- The counters of the sender are in order: nothing is acknowledged before the SYN, the base
and the outstanding bytes end where the sent bytes end, and an acknowledged FIN leaves nothing
in flight. -/
structure Orderly (s : TCPSender) : Prop where
  base_zero : s.unAckQueue.synAcked = false →
    s.unAckQueue.baseSqn = 0 ∧ s.unAckQueue.finAcked = false
  base_pos : s.unAckQueue.synAcked = true → 1 ≤ s.unAckQueue.baseSqn
  base_le : s.unAckQueue.synAcked = true → s.unAckQueue.finAcked = false →
    s.unAckQueue.baseSqn + s.unAckQueue.unAcked.length ≤ s.stream.numBytesRead + 1
  done : s.FinDone

theorem orderly_new (capacity : UInt64) (retxTimeout : UInt16) (isn : WrappingInt32) :
    (new capacity retxTimeout isn).Orderly := by
  constructor <;> simp [new, FinDone]

section

variable {s : TCPSender} {data : Bytes}

theorem Orderly.congr (h : s.Orderly) {s' : TCPSender} (hq : s'.unAckQueue = s.unAckQueue)
    (hr : s'.stream.numBytesRead = s.stream.numBytesRead) : s'.Orderly := by
  refine ⟨?_, ?_, ?_, ?_⟩
  · rw [hq]; exact h.base_zero
  · rw [hq]; exact h.base_pos
  · rw [hq, hr]; exact h.base_le
  · unfold FinDone; rw [hq]; exact h.done

theorem Orderly.sends (h : s.Orderly) {s' : TCPSender} {seg : TCPSegment} (hs : s.Sends s' seg) :
    s'.Orderly := by
  refine ⟨?_, ?_, ?_, fun hfin => absurd hfin (by simp [hs.finAcked_eq])⟩
  · rw [hs.synAcked_eq, hs.base_eq]
    exact fun hsyn => ⟨(h.base_zero hsyn).1, hs.finAcked_eq⟩
  · rw [hs.synAcked_eq, hs.base_eq]
    exact h.base_pos
  · intro hsyn _
    have hle := h.base_le (hs.synAcked_eq ▸ hsyn) hs.finAcked_before
    rw [hs.base_eq, hs.unAcked_eq, hs.read_eq, List.length_append]
    omega

theorem Orderly.fillWindow (h : s.Orderly) (hs : s.Sound data) : s.fillWindow.Orderly := by
  refine (fillWindow_rule (P := fun s => s.Sound data ∧ s.Orderly)
    (fun _ h' => ⟨data, h'.1.carries⟩) ?_ ⟨hs, h⟩).2
  rintro s' s'' seg ⟨hs', h'⟩ hsend
  exact ⟨hs'.sends hsend, h'.sends hsend⟩

theorem Orderly.tick (h : s.Orderly) (junk : Nat → UInt8) (ms : Nat) :
    (s.tick junk ms).Orderly := by
  obtain ⟨q, timer, segs, heq, hq⟩ := tick_frame junk s ms
  rw [heq]
  rcases hq with rfl | ⟨⟨-, -, -, hnot, -⟩, rfl⟩
  · exact h.congr rfl rfl
  · refine ⟨h.base_zero, h.base_pos, h.base_le, ?_⟩
    intro hfin
    exact absurd (hnot.symm.trans hfin) (by simp)

/-- An acknowledgment in turn that does not reach the FIN removes only bytes that are
outstanding. -/
theorem Sound.erased_le (hs : s.Sound data) (hsyn : s.unAckQueue.synAcked = true)
    (hne : s.unAckQueue.unAcked ≠ []) {a : Nat} (hack : s.AcksInTurn a) (hign : ¬s.Ignores a)
    (hfin : ¬(s.unAckQueue.finSent = true ∧ a = s.unAckQueue.nextSeqno)) :
    min (a - s.unAckQueue.baseSqn) s.unAckQueue.unAckedPayloadSize.sum
      ≤ s.unAckQueue.unAcked.length := by
  by_cases hsent : s.unAckQueue.finSent = true
  · -- the acknowledgment is in front of the FIN, and the queue holds all bytes up to there
    have hbefore : a ≠ s.unAckQueue.nextSeqno := fun hn => hfin ⟨hsent, hn⟩
    have hnext := hs.next_eq
    have hcov := hs.covered hsyn
    simp only [Ignores, not_or, not_and] at hign
    have hnot := hign.1 hsent
    rw [if_pos hsent] at hnext
    split_ifs at hnext <;> omega
  · exact hack.2 (by simpa using hsent) hne

theorem Orderly.ackReceived (h : s.Orderly) (hs : s.Sound data) {ackno : WrappingInt32}
    (w : UInt16) (hack : s.AcksInTurn (s.absAckno ackno)) : (s.ackReceived ackno w).Orderly := by
  have hdone : (s.ackReceived ackno w).FinDone := by
    apply h.done.ackReceived hs w
    intro hsyn hfin hnext
    exact absurd (hsyn.symm.trans (hack.1 hfin hnext)) (by simp)
  revert hdone
  rw [ackReceived_eq]
  split_ifs with hign
  · exact fun _ => ⟨h.base_zero, h.base_pos, h.base_le, h.done⟩
  · intro hdone
    have hbase := base_lt_of_not_ignores w hign
    have hlt : s.unAckQueue.baseSqn < s.absAckno ackno := hbase
    rcases UnAckQueue.updateBase_cases hbase with ⟨hone, heq⟩ | ⟨-, hf, hn, -, heq⟩ |
        ⟨-, hf, hn, -, heq⟩ | ⟨-, -, -, heq⟩ | ⟨-, hf, hu, heq⟩
    · -- the SYN, in front of which nothing was acknowledged
      have hzero : s.unAckQueue.baseSqn = 0 := by omega
      have hsyn : s.unAckQueue.synAcked = false := by
        by_contra hsyn
        have := h.base_pos (by simpa using hsyn)
        omega
      have hnone := (hs.unsynced hsyn).2.1
      rw [heq] at hdone ⊢
      refine ⟨fun hf => absurd hf (by simp), fun _ => Nat.le_refl 1, fun _ _ => ?_, hdone⟩
      show 1 + s.unAckQueue.unAcked.length ≤ s.stream.numBytesRead + 1
      rw [hnone, List.length_nil]
      omega
    · -- the FIN, with no bytes or some in front of it
      have hsyn : s.unAckQueue.synAcked = true := hack.1 hf hn
      rw [heq] at hdone ⊢
      exact ⟨fun hf => absurd (hsyn.symm.trans hf) (by simp),
        fun _ => Nat.succ_le_succ (Nat.zero_le _), fun _ hf => absurd hf (by simp), hdone⟩
    · have hsyn : s.unAckQueue.synAcked = true := hack.1 hf hn
      rw [heq] at hdone ⊢
      refine ⟨fun hf => absurd (hsyn.symm.trans hf) (by simp), fun _ => ?_,
        fun _ hf => absurd hf (by simp), hdone⟩
      show 1 ≤ s.absAckno ackno
      omega
    · rw [heq] at hdone ⊢
      exact ⟨h.base_zero, h.base_pos, h.base_le, hdone⟩
    · obtain ⟨sizes, e, he, -, heq'⟩ := UnAckQueue.erase_spec hbase hf
      rw [heq, heq'] at hdone ⊢
      have hsyn : s.unAckQueue.synAcked = true := by
        by_contra hsyn
        exact hu (hs.unsynced (by simpa using hsyn)).2.1
      refine ⟨fun hf => absurd (hsyn.symm.trans hf) (by simp), fun _ => ?_, fun _ hfin => ?_, hdone⟩
      · have := h.base_pos hsyn
        show 1 ≤ s.unAckQueue.baseSqn + e
        omega
      · have hle := h.base_le hsyn hfin
        have hlen : e ≤ s.unAckQueue.unAcked.length :=
          he.trans_le (hs.erased_le hsyn hu hack hign hf)
        show s.unAckQueue.baseSqn + e + (s.unAckQueue.unAcked.drop e).length
          ≤ s.stream.numBytesRead + 1
        rw [List.length_drop]
        omega

/-! ## The summary -/

/-- The bytes in flight of a sender in order, when their number fits into 64 bits. -/
theorem Orderly.bytesInFlight_eq (h : s.Orderly) (hs : s.Sound data)
    (hsynced : s.unAckQueue.synAcked = true → s.unAckQueue.synSent = true)
    (hsmall : s.unAckQueue.nextSeqno - s.unAckQueue.baseSqn < 2 ^ 64) :
    s.unAckQueue.baseSqn ≤ s.unAckQueue.nextSeqno ∧
      s.bytesInFlight = s.unAckQueue.nextSeqno - s.unAckQueue.baseSqn := by
  have hle : s.unAckQueue.baseSqn ≤ s.unAckQueue.nextSeqno := by
    by_cases hsyn : s.unAckQueue.synAcked = true
    · by_cases hfin : s.unAckQueue.finAcked = true
      · exact Nat.le_of_eq (h.done hfin)
      · have hbase := h.base_le hsyn (by simpa using hfin)
        have hnext := hs.next_eq
        rw [if_pos (hsynced hsyn)] at hnext
        omega
    · rw [(h.base_zero (by simpa using hsyn)).1]
      exact Nat.zero_le _
  exact ⟨hle, sub64_eq hle hsmall⟩

/-- The counters of a sender in order say what its flags say. -/
theorem Orderly.stateSummary_eq (h : s.Orderly) (hs : s.Sound data)
    (hsynced : s.unAckQueue.synAcked = true → s.unAckQueue.synSent = true)
    (hsmall : s.unAckQueue.nextSeqno - s.unAckQueue.baseSqn < 2 ^ 64) :
    s.stateSummary =
      if s.stream.error then .error
      else if !s.unAckQueue.synSent then .closed
      else if !s.unAckQueue.synAcked then .synSent
      else if !s.unAckQueue.finSent then .synAcked
      else if !s.unAckQueue.finAcked then .finSent
      else .finAcked := by
  have hnext := hs.next_eq
  have hread := hs.carries.read_add
  obtain ⟨hbase, hflight⟩ := h.bytesInFlight_eq hs hsynced hsmall
  unfold stateSummary nextSeqnoAbsolute
  rw [hflight]
  by_cases herror : s.stream.error = true
  · simp only [herror, if_true]
  by_cases hsyn : s.unAckQueue.synSent = true
  swap
  · simp [herror, hsyn, hs.fresh (by simpa using hsyn)]
  rw [if_pos hsyn] at hnext
  have hpos : s.unAckQueue.nextSeqno ≠ 0 := by omega
  by_cases hsynAcked : s.unAckQueue.synAcked = true
  swap
  · have hzero := (h.base_zero (by simpa using hsynAcked)).1
    simp [herror, hsyn, hsynAcked, hpos, hzero]
  have hne : s.unAckQueue.nextSeqno ≠ s.unAckQueue.nextSeqno - s.unAckQueue.baseSqn := by
    have := h.base_pos hsynAcked
    omega
  by_cases hfin : s.unAckQueue.finSent = true
  · -- the FIN is behind all bytes that were written
    have heof := hs.fin_eof hfin
    have hall := hs.carries.read_eq_of_eof heof
    have hwritten := hs.carries.written
    have hnot : ¬s.unAckQueue.nextSeqno < s.stream.bytesWritten + 2 := by
      show ¬s.unAckQueue.nextSeqno < s.stream.numBytesWritten + 2
      rw [if_pos hfin] at hnext
      omega
    by_cases hacked : s.unAckQueue.finAcked = true
    · have hdone := h.done hacked
      simp [herror, hsyn, hsynAcked, hpos, heof, hnot, hfin, hacked, hdone]
    · have hle := h.base_le hsynAcked (by simpa using hacked)
      rw [if_pos hfin] at hnext
      have hsome : s.unAckQueue.nextSeqno - s.unAckQueue.baseSqn ≠ 0 := by omega
      simp [herror, hsyn, hsynAcked, hpos, hne, heof, hnot, hfin, hacked, hsome]
  · have hlt : s.unAckQueue.nextSeqno < s.stream.bytesWritten + 2 := by
      show s.unAckQueue.nextSeqno < s.stream.numBytesWritten + 2
      rw [if_neg hfin] at hnext
      omega
    simp [herror, hsyn, hsynAcked, hpos, hne, hlt, hfin]

end

/-! ## The flags of the sender -/

section

variable {s : TCPSender} {data : Bytes}

theorem ackReceived_keeps (s : TCPSender) (ackno : WrappingInt32) (w : UInt16) :
    s.unAckQueue.Keeps (s.ackReceived ackno w).unAckQueue := by
  rw [ackReceived_eq]
  split_ifs with hign
  · exact ⟨id, id, id⟩
  · obtain ⟨hsyn, hfin, hsynAcked, -⟩ :=
      UnAckQueue.updateBase_frame (base_lt_of_not_ignores w hign)
    exact ⟨fun h => hsyn.trans h, hsynAcked, fun h => hfin.trans h⟩

/-- `fill_window` sends the SYN first. -/
theorem Sound.fillWindow_synSent (h : s.Sound data) : s.fillWindow.unAckQueue.synSent = true := by
  by_cases hsyn : s.unAckQueue.synSent = true
  · have hstable := TCPConnection.senderStable_queue (R := fun q => q.synSent = true)
      (fun _ _ _ hs _ => hs.synSent_eq) (fun _ hsyn => hsyn)
    exact (hstable.fillWindow s ⟨⟨data, h⟩, hsyn⟩).2
  · have hsyn' : s.unAckQueue.synSent = false := by simpa using hsyn
    have hfin : s.unAckQueue.finSent = false := by
      by_contra hf
      have hnext := h.next_eq
      have hzero := h.fresh hsyn'
      have hf' : s.unAckQueue.finSent = true := by simpa using hf
      rw [if_pos hf'] at hnext
      omega
    have hfinAcked : s.unAckQueue.finAcked = false := by
      by_contra hf
      exact absurd (h.fin_sent (by simpa using hf)) (by simp [hfin])
    unfold TCPSender.fillWindow
    rw [if_neg (by simp [hfinAcked, hfin]), if_pos (by simp [hsyn'])]
    obtain ⟨seg, hs⟩ := sends_syn hfin hfinAcked hsyn'
    exact hs.synSent_eq

/-- The acknowledgment of the SYN is used when it is the first one. -/
theorem Orderly.ackReceived_synAcked (h : s.Orderly) (hs : s.Sound data) {ackno : WrappingInt32}
    (w : UInt16) (hone : s.absAckno ackno = 1) :
    (s.ackReceived ackno w).unAckQueue.synAcked = true := by
  by_cases hsyn : s.unAckQueue.synAcked = true
  · exact (s.ackReceived_keeps ackno w).synAcked hsyn
  · have hzero := (h.base_zero (by simpa using hsyn)).1
    have hign : ¬s.Ignores (s.absAckno ackno) := by
      rintro (⟨hfin, hlt⟩ | hle)
      · have hnext := hs.next_eq
        rw [if_pos hfin] at hnext
        omega
      · omega
    rw [ackReceived_eq, if_neg hign, hone]
    rw [hone] at hign
    rw [UnAckQueue.updateBase_one (base_lt_of_not_ignores w hign)]

end

/-! ## Runs -/

/-- The summary says of the phase of the sender what its flags say. -/
structure PhasesAgree (s : TCPSender) : Prop where
  closed_iff : s.stateSummary = .closed ↔ s.unAckQueue.synSent = false
  synSent_iff : s.stateSummary = .synSent ↔
    s.unAckQueue.synSent = true ∧ s.unAckQueue.synAcked = false
  finSent_iff : s.stateSummary = .finSent ↔
    s.unAckQueue.finSent = true ∧ s.unAckQueue.finAcked = false
  finAcked_iff : s.stateSummary = .finAcked ↔ s.unAckQueue.finAcked = true
  synAcked_iff : s.stateSummary = .synAcked ↔ s.unAckQueue.synSent = true ∧
    ¬(s.unAckQueue.synSent = true ∧ s.unAckQueue.synAcked = false) ∧
    ¬(s.unAckQueue.finSent = true ∧ s.unAckQueue.finAcked = false) ∧
    ¬s.unAckQueue.finAcked = true

/-- A sender whose peer conforms is in order. -/
theorem Tracks.orderly {s : TCPSender} {data : Bytes} (h : s.Tracks data) : s.Orderly := by
  refine ⟨fun hsyn => ?_, fun hsyn => (h.synced hsyn).1, fun hsyn hfin => ?_,
    fun hfin => (h.finAcked_iff.mp hfin).2⟩
  · obtain ⟨hbase, -, hfin⟩ := h.opening hsyn
    refine ⟨hbase, ?_⟩
    by_contra hacked
    exact absurd (h.fin_sent (by simpa using hacked)) (by simp [hfin])
  · have hle := h.base_le_read hfin
    have hpos := (h.synced hsyn).1
    rw [h.unAcked_length]
    omega

theorem Tracks.phasesAgree {s : TCPSender} {data : Bytes} (h : s.Tracks data)
    (herror : s.stream.error = false) (hdeque : s.unAckQueue.unAcked.length ≤ dequeMax) :
    s.PhasesAgree := by
  have hflight : s.unAckQueue.nextSeqno - s.unAckQueue.baseSqn < 2 ^ 64 := by
    have hle := h.toSound.flight_le_unAcked
    unfold dequeMax at hdeque
    omega
  have heq := h.orderly.stateSummary_eq h.toSound (fun hsyn => (h.synced hsyn).2) hflight
  rw [herror, if_neg Bool.false_ne_true] at heq
  -- a flag is set only after those in front of it, which leaves five combinations
  have hsent : s.unAckQueue.synAcked = true → s.unAckQueue.synSent = true :=
    fun hsyn => (h.synced hsyn).2
  have hfinSent : s.unAckQueue.finSent = true → s.unAckQueue.synAcked = true := by
    intro hfin
    by_contra hsyn
    exact absurd hfin (by simp [(h.opening (by simpa using hsyn)).2.2])
  have hfinAcked := h.fin_sent
  by_cases h1 : s.unAckQueue.synSent = true
  swap
  · have h2 : ¬s.unAckQueue.synAcked = true := fun hf => h1 (hsent hf)
    have h3 : ¬s.unAckQueue.finSent = true := fun hf => h2 (hfinSent hf)
    have h4 : ¬s.unAckQueue.finAcked = true := fun hf => h3 (hfinAcked hf)
    constructor <;> simp [heq, h1, h3, h4]
  by_cases h2 : s.unAckQueue.synAcked = true
  swap
  · have h3 : ¬s.unAckQueue.finSent = true := fun hf => h2 (hfinSent hf)
    have h4 : ¬s.unAckQueue.finAcked = true := fun hf => h3 (hfinAcked hf)
    constructor <;> simp [heq, h1, h2, h3, h4]
  by_cases h3 : s.unAckQueue.finSent = true
  swap
  · have h4 : ¬s.unAckQueue.finAcked = true := fun hf => h3 (hfinAcked hf)
    constructor <;> simp [heq, h1, h2, h3, h4]
  by_cases h4 : s.unAckQueue.finAcked = true
  · constructor <;> simp [heq, h1, h2, h3, h4]
  · constructor <;> simp [heq, h1, h2, h3, h4]

/-- **The two encodings of the phase agree** in every run with a conforming peer. -/
theorem run_phasesAgree (junk : Nat → UInt8) (capacity : UInt64) (retxTimeout : UInt16)
    (isn : WrappingInt32) (ops : List SenderOp)
    (hok : Run.Admits (step junk) Conforming (new capacity retxTimeout isn) ops)
    (herror : (Run.run (step junk) (new capacity retxTimeout isn) ops).stream.error = false)
    (hdeque : (Run.run (step junk) (new capacity retxTimeout isn) ops).unAckQueue.unAcked.length
      ≤ dequeMax) :
    (Run.run (step junk) (new capacity retxTimeout isn) ops).PhasesAgree := by
  have hstep : ∀ (s : TCPSender) (op : SenderOp), (∃ data, s.Tracks data) → s.Conforming op →
      ∃ data, (s.step junk op).Tracks data := by
    rintro s op ⟨data, h⟩ hop
    exact ⟨_, h.step junk hop⟩
  obtain ⟨data, h⟩ := Run.run_invariant hstep ⟨[], tracks_new capacity retxTimeout isn⟩ hok
  exact h.phasesAgree herror hdeque

/-- Three bytes and the FIN, all of them acknowledged. -/
theorem threeBytes_phasesAgree :
    (Run.run (step fun _ => 0) (new 64000 1000 ⟨0⟩)
      [.fillWindow, .ackReceived ⟨1⟩ 10, .write [97, 98, 99], .endInput, .fillWindow,
        .ackReceived ⟨5⟩ 10]).PhasesAgree :=
  run_phasesAgree (fun _ => 0) 64000 1000 ⟨0⟩ _ (by decide +kernel) (by decide +kernel)
    (by decide +kernel)

end TCPSender

end Sponge
