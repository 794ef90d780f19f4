import Sponge.Sender.Invariant

set_option autoImplicit false

/-! # Acknowledgments of a conforming peer

A conforming peer acknowledges only what has been sent. Under such acknowledgments the base
and the queue of unacknowledged bytes follow the stream: the queue holds exactly the sent
bytes from the base on. This does not depend on the segment sizes, which may be stale. -/

namespace Sponge

open Word

namespace TCPSender

/-- Before the SYN is acknowledged the base and the window are the first ones, and the FIN is
not sent. -/
def Opening (s : TCPSender) : Prop :=
  s.unAckQueue.synAcked = false → s.unAckQueue.baseSqn = 0 ∧
    s.unAckQueue.winSize = 1 ∧ s.unAckQueue.finSent = false

/-- The invariant of a sender whose peer conforms; `data` has been written to its stream. -/
structure Tracks (s : TCPSender) (data : Bytes) : Prop extends s.Sound data where
  base_le : s.unAckQueue.baseSqn ≤ s.unAckQueue.nextSeqno
  opening : s.unAckQueue.synAcked = false → s.unAckQueue.baseSqn = 0 ∧
    s.unAckQueue.winSize = 1 ∧ s.unAckQueue.finSent = false
  synced : s.unAckQueue.synAcked = true →
    1 ≤ s.unAckQueue.baseSqn ∧ s.unAckQueue.synSent = true
  unAcked_eq : s.unAckQueue.unAcked
    = (data.take s.stream.numBytesRead).drop (s.unAckQueue.baseSqn - 1)
  finAcked_iff : s.unAckQueue.finAcked = true ↔
    s.unAckQueue.finSent = true ∧ s.unAckQueue.baseSqn = s.unAckQueue.nextSeqno
  running_iff : s.timer.isTimerRunning = true ↔
    s.unAckQueue.baseSqn < s.unAckQueue.nextSeqno

theorem tracks_new (capacity : UInt64) (retxTimeout : UInt16) (isn : WrappingInt32) :
    (new capacity retxTimeout isn).Tracks [] where
  toSound := sound_new capacity retxTimeout isn
  base_le := Nat.le_refl _
  opening := fun _ => ⟨rfl, rfl, rfl⟩
  synced := fun h => absurd h (by simp [new])
  unAcked_eq := by simp [new]
  finAcked_iff := by simp [new]
  running_iff := by simp [new, Timer.new]

section

variable {s : TCPSender} {data : Bytes}

/-- The next sequence number, once the SYN was sent. -/
theorem Sound.next_of_syn (h : s.Sound data) (hsyn : s.unAckQueue.synSent = true) :
    s.unAckQueue.nextSeqno
      = s.stream.numBytesRead + 1 + if s.unAckQueue.finSent then 1 else 0 := by
  rw [h.next_eq, hsyn]
  simp [Nat.add_comm]

/-- The base stays at or before the end of the sent bytes until the FIN is acknowledged. -/
theorem Tracks.base_le_read (h : s.Tracks data) (hfin : s.unAckQueue.finAcked = false) :
    s.unAckQueue.baseSqn ≤ s.stream.numBytesRead + 1 := by
  have hnext := h.next_eq
  have hle := h.base_le
  by_cases hfinSent : s.unAckQueue.finSent = true
  · have hne : s.unAckQueue.baseSqn ≠ s.unAckQueue.nextSeqno := by
      intro heq
      simpa [hfin] using h.finAcked_iff.mpr ⟨hfinSent, heq⟩
    split_ifs at hnext <;> omega
  · rw [if_neg hfinSent] at hnext
    split_ifs at hnext <;> omega

theorem Tracks.unAcked_length (h : s.Tracks data) :
    s.unAckQueue.unAcked.length = s.stream.numBytesRead - (s.unAckQueue.baseSqn - 1) := by
  have hread := h.carries.read_le
  rw [h.unAcked_eq, List.length_drop, List.length_take]
  omega

/-- What is in flight: the unacknowledged bytes, the SYN and the FIN. -/
theorem Tracks.base_add (h : s.Tracks data) :
    s.unAckQueue.baseSqn + s.unAckQueue.unAcked.length
        + (if s.unAckQueue.synSent && !s.unAckQueue.synAcked then 1 else 0)
        + (if s.unAckQueue.finSent && !s.unAckQueue.finAcked then 1 else 0)
      = s.unAckQueue.nextSeqno := by
  have hlen := h.unAcked_length
  by_cases hsyn : s.unAckQueue.synAcked = true
  · obtain ⟨hpos, hsent⟩ := h.synced hsyn
    have hnext := h.next_of_syn hsent
    by_cases hfin : s.unAckQueue.finAcked = true
    · obtain ⟨hfinSent, heq⟩ := h.finAcked_iff.mp hfin
      rw [if_pos hfinSent] at hnext
      simp only [hsyn, hfin, Bool.not_true, Bool.and_false, if_neg Bool.false_ne_true]
      omega
    · have hle := h.base_le_read (by simpa using hfin)
      simp only [hsyn, hfin, Bool.not_true, Bool.not_false, Bool.and_false, Bool.and_true,
        if_neg Bool.false_ne_true]
      omega
  · have hsyn' : s.unAckQueue.synAcked = false := by simpa using hsyn
    obtain ⟨hbase, -, hfinSent⟩ := h.opening hsyn'
    obtain ⟨hread, hnil, -⟩ := h.unsynced hsyn'
    rw [h.next_eq, hbase, hnil, hread, hsyn', hfinSent]
    simp

/-- The bytes and the FIN that are left are what the base has not passed. -/
theorem Tracks.outstanding_iff (h : s.Tracks data) (hsyn : s.unAckQueue.synAcked = true) :
    s.unAckQueue.baseSqn < s.unAckQueue.nextSeqno ↔
      s.unAckQueue.unAcked ≠ [] ∨
        (s.unAckQueue.finSent = true ∧ s.unAckQueue.finAcked = false) := by
  have hadd := h.base_add
  rw [← List.length_pos_iff_ne_nil]
  simp only [hsyn, Bool.not_true, Bool.and_false, if_neg Bool.false_ne_true, Bool.and_eq_true,
    Bool.not_eq_true'] at hadd
  split_ifs at hadd with hfin
  · simp only [hfin, and_self, or_true, iff_true]
    omega
  · simp only [hfin, or_false]
    omega

/-! ## Writing and sending -/

/-- What does not touch the queue, the timer and the sent bytes. -/
theorem Tracks.congr (h : s.Tracks data) {s' : TCPSender} {data' : Bytes}
    (h' : s'.Sound data') (hq : s'.unAckQueue = s.unAckQueue) (ht : s'.timer = s.timer)
    (hr : s'.stream.numBytesRead = s.stream.numBytesRead)
    (hd : data'.take s.stream.numBytesRead = data.take s.stream.numBytesRead) :
    s'.Tracks data' := by
  refine ⟨h', ?_, ?_, ?_, ?_, ?_, ?_⟩
  · rw [hq]; exact h.base_le
  · rw [hq]; exact h.opening
  · rw [hq]; exact h.synced
  · rw [hq, hr, hd]; exact h.unAcked_eq
  · rw [hq]; exact h.finAcked_iff
  · rw [hq, ht]; exact h.running_iff

theorem Tracks.write (h : s.Tracks data) (d : Bytes) :
    (s.writeStream d).1.Tracks (data ++ d.take (s.writeStream d).2) :=
  h.congr (h.toSound.write d) rfl rfl (ByteStream.write_numBytesRead s.stream d)
    (List.take_append_of_le_length h.carries.read_le)

theorem Tracks.endStream (h : s.Tracks data) : s.endStream.Tracks data :=
  h.congr h.toSound.endStream rfl rfl rfl rfl

theorem Tracks.setError (h : s.Tracks data) :
    { s with stream := s.stream.setError }.Tracks data :=
  h.congr h.toSound.setError rfl rfl rfl rfl

theorem Tracks.segmentsOut (h : s.Tracks data) (segs : List TCPSegment) :
    { s with segmentsOut := segs }.Tracks data :=
  h.congr (h.toSound.segmentsOut segs) rfl rfl rfl rfl

/-- Before the SYN is acknowledged the window holds nothing but the SYN. -/
theorem Opening.remainSpace_eq (ho : s.Opening) (h : s.Sound data)
    (hsyn : s.unAckQueue.synAcked = false) (hsent : s.unAckQueue.synSent = true) :
    s.remainSpace = 0 := by
  obtain ⟨hbase, hwin, hfinSent⟩ := ho hsyn
  have hnext := h.next_of_syn hsent
  rw [hfinSent, (h.unsynced hsyn).1] at hnext
  simp only [remainSpace, UnAckQueue.bytesInFlight, hbase, hwin, hnext]
  decide

/-- The FIN is not sent before the SYN is acknowledged. -/
theorem Opening.fin_eq_false (ho : s.Opening) (h : s.Sound data) {s' : TCPSender}
    {seg : TCPSegment} (hs : s.Sends s' seg) (hsyn : s.unAckQueue.synAcked = false) :
    seg.header.fin = false := by
  obtain ⟨hbase, hwin, -⟩ := ho hsyn
  by_contra hfin
  by_cases hseg : seg.header.syn = true
  · have hroom := hs.room_syn hseg (by simpa using hfin)
    rw [hbase, hwin, h.fresh (by simpa [hseg] using hs.syn_eq)] at hroom
    exact absurd hroom (by decide)
  · have hsent : s.unAckQueue.synSent = true := by simpa [hseg] using hs.syn_eq
    have hroom := hs.room (by simpa using hseg)
    have hpos := hs.length_pos
    rw [ho.remainSpace_eq h hsyn hsent] at hroom
    omega

theorem Opening.sends (ho : s.Opening) (h : s.Sound data) {s' : TCPSender} {seg : TCPSegment}
    (hs : s.Sends s' seg) : s'.Opening := by
  intro hsyn
  rw [hs.synAcked_eq] at hsyn
  obtain ⟨hbase, hwin, -⟩ := ho hsyn
  exact ⟨hs.base_eq.trans hbase, hs.win_eq.trans hwin,
    hs.finSent_eq.trans (ho.fin_eq_false h hs hsyn)⟩

/-- A repeated SYN does not take the FIN along. -/
theorem Opening.not_repeatsSynWithFin (ho : s.Opening) (h : s.Sound data) :
    ¬s.RepeatsSynWithFin := by
  rintro ⟨hsent, hsyn, -, -, -, hroom⟩
  rw [ho.remainSpace_eq h hsyn hsent] at hroom
  omega

/-- The payload of a new segment are the bytes behind the sent ones. -/
theorem Sends.take_eq {s' : TCPSender} {seg : TCPSegment} (hs : s.Sends s' seg)
    (hc : s.stream.Carries data) :
    data.take s'.stream.numBytesRead = data.take s.stream.numBytesRead ++ seg.payload := by
  have hpay := hs.payload_eq
  rw [hc.buf_eq] at hpay
  rw [hs.read_eq, List.take_add]
  exact congrArg _ hpay.symm

theorem Tracks.sends (h : s.Tracks data) {s' : TCPSender} {seg : TCPSegment}
    (hs : s.Sends s' seg) : s'.Tracks data := by
  have hpos := hs.length_pos
  have hle := h.base_le
  refine ⟨h.toSound.sends hs, ?_, ?_, ?_, ?_, ?_, ?_⟩
  · rw [hs.base_eq, hs.next_eq]
    omega
  · exact Opening.sends h.opening h.toSound hs
  · intro hsyn
    rw [hs.synAcked_eq] at hsyn
    exact ⟨hs.base_eq ▸ (h.synced hsyn).1, hs.synSent_eq⟩
  · -- the new bytes come behind those that are stored
    have hbase := h.base_le_read hs.finAcked_before
    have hread := h.carries.read_le
    rw [hs.unAcked_eq, hs.base_eq, hs.take_eq h.carries, h.unAcked_eq,
      List.drop_append_of_le_length]
    rw [List.length_take]
    omega
  · rw [hs.finAcked_eq, hs.finSent_eq, hs.base_eq, hs.next_eq]
    constructor
    · exact fun hf => absurd hf Bool.false_ne_true
    · intro hf
      omega
  · have hrun : s'.timer.isTimerRunning = true := by
      rw [hs.timer_eq]
      split_ifs with hrun
      · exact hrun
      · rfl
    rw [hs.base_eq, hs.next_eq]
    simp only [hrun, true_iff]
    omega

theorem Tracks.fillWindow (h : s.Tracks data) : s.fillWindow.Tracks data :=
  fillWindow_rule (P := fun s => s.Tracks data) (fun _ hs => ⟨data, hs.carries⟩)
    (fun _ _ _ hs => hs.sends) h

/-! ## Acknowledgments -/

theorem restarted_running (t : Timer) (q : UnAckQueue) :
    (restarted t q).isTimerRunning = true ↔
      q.unAcked ≠ [] ∨ (q.finSent = true ∧ q.finAcked = false) := by
  have hcond : (!q.empty || (q.finSent && !q.finAcked)) = true ↔
      q.unAcked ≠ [] ∨ (q.finSent = true ∧ q.finAcked = false) := by
    simp [UnAckQueue.empty]
  rw [← hcond]
  unfold restarted
  split_ifs with h
  · simp [h, Timer.startTimer]
  · simp [h, Timer.stopTimer]

theorem Tracks.setWindowSize (h : s.Tracks data) (hsyn : s.unAckQueue.synAcked = true)
    (w : UInt16) : (s.setWindowSize w).Tracks data :=
  ⟨h.toSound.setWindowSize w, h.base_le, fun hf => absurd (hsyn.symm.trans hf) (by simp),
    h.synced, h.unAcked_eq, h.finAcked_iff, h.running_iff⟩

/-- An acknowledgment of sent bytes that is not the one of the FIN. -/
theorem Tracks.erase (h : s.Tracks data) (hsyn : s.unAckQueue.synAcked = true) {a : Nat}
    (hbase : s.unAckQueue.baseSqn < a) (hle : a ≤ s.unAckQueue.nextSeqno)
    (hfin : ¬(s.unAckQueue.finSent = true ∧ a = s.unAckQueue.nextSeqno)) :
    ∃ sizes, s.unAckQueue.erase a = { s.unAckQueue with
      unAckedPayloadSize := sizes
      baseSqn := a
      unAcked := (data.take s.stream.numBytesRead).drop (a - 1) } := by
  obtain ⟨hpos, hsent⟩ := h.synced hsyn
  have hnext := h.next_of_syn hsent
  have hlen := h.unAcked_length
  have hge := h.sizes_ge
  obtain ⟨sizes, e, he, -, heq⟩ := UnAckQueue.erase_spec hbase hfin
  -- below the FIN the walk is not stopped by the end of the sizes
  have hle' : a ≤ s.stream.numBytesRead + 1 := by
    by_cases hfinSent : s.unAckQueue.finSent = true
    · have hne : a ≠ s.unAckQueue.nextSeqno := fun h' => hfin ⟨hfinSent, h'⟩
      rw [if_pos hfinSent] at hnext
      omega
    · rw [if_neg hfinSent] at hnext
      omega
  obtain rfl : e = a - s.unAckQueue.baseSqn := by omega
  refine ⟨sizes, ?_⟩
  have hbase' : s.unAckQueue.baseSqn + (a - s.unAckQueue.baseSqn) = a := by omega
  have hdrop : s.unAckQueue.baseSqn - 1 + (a - s.unAckQueue.baseSqn) = a - 1 := by omega
  rw [heq, hbase', h.unAcked_eq, List.drop_drop, hdrop]

/-- An acknowledgment above the base moves the base to itself. -/
theorem Tracks.updateBase_eq (h : s.Tracks data) (hsyn : s.unAckQueue.synAcked = true) {a : Nat}
    (hbase : s.unAckQueue.baseSqn < a) (hle : a ≤ s.unAckQueue.nextSeqno) :
    ∃ sizes finAcked, s.unAckQueue.updateBase a = { s.unAckQueue with
        unAckedPayloadSize := sizes
        finAcked := finAcked
        baseSqn := a
        unAcked := (data.take s.stream.numBytesRead).drop (a - 1) } ∧
      (finAcked = true ↔ s.unAckQueue.finSent = true ∧ a = s.unAckQueue.nextSeqno) := by
  obtain ⟨hpos, hsent⟩ := h.synced hsyn
  have hnext := h.next_of_syn hsent
  have hlen := h.unAcked_length
  have hread := h.carries.read_le
  rcases UnAckQueue.updateBase_cases hbase with ⟨ha, -⟩ | ⟨-, hf, hn, hu, heq⟩ |
      ⟨-, hf, hn, hu, heq⟩ | ⟨-, hf, hu, -⟩ | ⟨-, hf, hu, heq⟩
  · omega
  · rw [if_pos hf] at hnext
    rw [hu, List.length_nil] at hlen
    have hbase' : s.unAckQueue.baseSqn + 1 = a := by omega
    have hnil : (data.take s.stream.numBytesRead).drop (a - 1) = [] := by
      apply List.drop_eq_nil_of_le
      rw [List.length_take]
      omega
    refine ⟨s.unAckQueue.unAckedPayloadSize, true, ?_, by simp [hf, hn]⟩
    rw [heq, hbase', hnil, ← hu]
  · rw [if_pos hf] at hnext
    have hnil : (data.take s.stream.numBytesRead).drop (a - 1) = [] := by
      apply List.drop_eq_nil_of_le
      rw [List.length_take]
      omega
    exact ⟨[], true, by rw [heq, hnil], by simp [hf, hn]⟩
  · -- with no byte in the queue, only the FIN is above the base
    rw [hu, List.length_nil] at hlen
    by_cases hfinSent : s.unAckQueue.finSent = true
    · have hne : a ≠ s.unAckQueue.nextSeqno := fun h' => hf ⟨hfinSent, h'⟩
      rw [if_pos hfinSent] at hnext
      omega
    · rw [if_neg hfinSent] at hnext
      omega
  · obtain ⟨sizes, heq'⟩ := h.erase hsyn hbase hle hf
    have hnot : s.unAckQueue.finAcked = false := by
      by_contra hfa
      have := (h.finAcked_iff.mp (by simpa using hfa)).2
      omega
    exact ⟨sizes, s.unAckQueue.finAcked, by rw [heq, heq'], by simp [hnot, hf]⟩

theorem Tracks.updateBase (h : s.Tracks data) (hsyn : s.unAckQueue.synAcked = true) {a : Nat}
    (hbase : s.unAckQueue.baseSqn < a) (hle : a ≤ s.unAckQueue.nextSeqno) :
    { s with
      unAckQueue := s.unAckQueue.updateBase a
      timer := restarted s.timer (s.unAckQueue.updateBase a) }.Tracks data := by
  have hsound := h.toSound.updateBase hbase
  obtain ⟨hpos, hsent⟩ := h.synced hsyn
  have hnext := h.next_of_syn hsent
  have hread := h.carries.read_le
  have hrun := restarted_running s.timer (s.unAckQueue.updateBase a)
  obtain ⟨sizes, finAcked, heq, hfin⟩ := h.updateBase_eq hsyn hbase hle
  rw [heq] at hsound hrun ⊢
  refine ⟨hsound, hle, fun hf => absurd (hsyn.symm.trans hf) (by simp),
    fun _ => ⟨by show 1 ≤ a; omega, hsent⟩, rfl, hfin, ?_⟩
  -- the timer runs as long as a byte or the FIN is left
  rw [hrun]
  show ((data.take s.stream.numBytesRead).drop (a - 1) ≠ [] ∨
    (s.unAckQueue.finSent = true ∧ finAcked = false)) ↔ a < s.unAckQueue.nextSeqno
  rw [ne_eq, List.drop_eq_nil_iff, List.length_take]
  by_cases hfinSent : s.unAckQueue.finSent = true
  · rw [if_pos hfinSent] at hnext
    simp only [hfinSent, true_and] at hfin ⊢
    rw [← Bool.not_eq_true, hfin]
    omega
  · rw [if_neg hfinSent] at hnext
    have hno : ¬(s.unAckQueue.finSent = true ∧ finAcked = false) := fun h' => hfinSent h'.1
    simp only [hno, or_false]
    omega

/-- The acknowledgment of the SYN. -/
theorem Tracks.synAck (h : s.Tracks data) (hsyn : s.unAckQueue.synAcked = false)
    (hsent : s.unAckQueue.synSent = true) (w : UInt16) :
    { s.setWindowSize w with
      unAckQueue := (s.setWindowSize w).unAckQueue.updateBase 1
      timer := restarted (s.setWindowSize w).timer
        ((s.setWindowSize w).unAckQueue.updateBase 1) }.Tracks data := by
  obtain ⟨hbase, hwin, hfinSent⟩ := h.opening hsyn
  obtain ⟨hread, hnil, hsizes⟩ := h.unsynced hsyn
  have hnext := h.next_of_syn hsent
  rw [hread, hfinSent] at hnext
  have hbase' : (s.setWindowSize w).unAckQueue.baseSqn < 1 := by
    show s.unAckQueue.baseSqn < 1
    omega
  have hsound := (h.toSound.setWindowSize w).updateBase hbase'
  have hrun := restarted_running (s.setWindowSize w).timer
    ((s.setWindowSize w).unAckQueue.updateBase 1)
  have heq : (s.setWindowSize w).unAckQueue.updateBase 1
      = { (s.setWindowSize w).unAckQueue with synAcked := true, baseSqn := 1 } :=
    UnAckQueue.updateBase_one hbase'
  rw [heq] at hsound hrun ⊢
  -- no FIN is sent before the acknowledgment of the SYN
  have hfinAcked : s.unAckQueue.finAcked = false := by
    by_contra hf
    exact absurd (h.fin_sent (by simpa using hf)) (by simp [hfinSent])
  refine ⟨hsound, ?_, fun hf => absurd hf (by simp), fun _ => ⟨Nat.le_refl 1, hsent⟩, ?_, ?_, ?_⟩
  · show 1 ≤ s.unAckQueue.nextSeqno
    omega
  · show s.unAckQueue.unAcked = (data.take s.stream.numBytesRead).drop (1 - 1)
    rw [hnil, hread]
    rfl
  · show s.unAckQueue.finAcked = true ↔ s.unAckQueue.finSent = true ∧ 1 = s.unAckQueue.nextSeqno
    simp [hfinAcked, hfinSent]
  · rw [hrun]
    show (s.unAckQueue.unAcked ≠ [] ∨
      (s.unAckQueue.finSent = true ∧ s.unAckQueue.finAcked = false)) ↔ 1 < s.unAckQueue.nextSeqno
    simp [hnil, hfinSent, hnext]

/-- Acknowledgments of a conforming peer keep the invariant. What lies beyond the next sequence
number does no harm once the FIN was sent. -/
theorem Tracks.ackReceived (h : s.Tracks data) {ackno : WrappingInt32}
    (hpos : 1 ≤ s.absAckno ackno)
    (hle : s.absAckno ackno ≤ s.unAckQueue.nextSeqno ∨ s.unAckQueue.finSent = true) (w : UInt16) :
    (s.ackReceived ackno w).Tracks data := by
  rw [ackReceived_eq]
  by_cases hsyn : s.unAckQueue.synAcked = true
  · split_ifs with hign
    · exact h.setWindowSize hsyn w
    · simp only [Ignores, not_or, not_and] at hign
      refine (h.setWindowSize hsyn w).updateBase hsyn ?_ ?_
      · show s.unAckQueue.baseSqn < s.absAckno ackno
        omega
      · show s.absAckno ackno ≤ s.unAckQueue.nextSeqno
        rcases hle with hle | hfin
        · exact hle
        · have := hign.1 hfin
          omega
  · -- only the SYN is in flight
    have hsyn' : s.unAckQueue.synAcked = false := by simpa using hsyn
    obtain ⟨hbase, -, hfinSent⟩ := h.opening hsyn'
    have hle' : s.absAckno ackno ≤ s.unAckQueue.nextSeqno := by
      rcases hle with hle | hfin
      · exact hle
      · exact absurd hfin (by simp [hfinSent])
    have hsent : s.unAckQueue.synSent = true := by
      by_contra hns
      have := h.fresh (by simpa using hns)
      omega
    have hnext := h.next_of_syn hsent
    rw [hfinSent, (h.unsynced hsyn').1] at hnext
    rw [if_neg Bool.false_ne_true] at hnext
    have hone : s.absAckno ackno = 1 := by omega
    rw [if_neg, hone]
    · exact h.synAck hsyn' hsent w
    · simp only [Ignores, hfinSent, Bool.false_eq_true, false_and, false_or]
      omega

/-! ## Time -/

theorem Tracks.elapse (h : s.Tracks data) (hrun : s.timer.isTimerRunning = true) (ms : Nat) :
    { s with timer := s.timer.elapse ms }.Tracks data :=
  ⟨h.toSound.elapse hrun ms, h.base_le, h.opening, h.synced, h.unAcked_eq, h.finAcked_iff,
    h.running_iff⟩

theorem Tracks.finAcked_of_running (h : s.Tracks data) (hrun : s.timer.isTimerRunning = true) :
    s.unAckQueue.finAcked = false := by
  by_contra hfin
  have hbase := (h.finAcked_iff.mp (by simpa using hfin)).2
  have hlt := h.running_iff.mp hrun
  omega

/-- The three segments that a timeout can retransmit. -/
theorem Tracks.retransmitSeg_cases (h : s.Tracks data) (hrun : s.timer.isTimerRunning = true)
    (junk : Nat → UInt8) :
    (s.unAckQueue.synAcked = false ∧ s.unAckQueue.baseSqn = 0 ∧ s.unAckQueue.nextSeqno = 1 ∧
      s.retransmitSeg junk = ({ header := { seqno := s.isn, syn := true } }, s)) ∨
    (s.unAckQueue.synAcked = true ∧ s.unAckQueue.finSent = true ∧ s.unAckQueue.unAcked = [] ∧
      s.unAckQueue.baseSqn + 1 = s.unAckQueue.nextSeqno ∧
      s.retransmitSeg junk =
        ({ header := { seqno := wrap s.unAckQueue.baseSqn s.isn, fin := true } }, s)) ∨
    (s.unAckQueue.synAcked = true ∧ s.unAckQueue.unAcked ≠ [] ∧
      s.retransmitSeg junk = (s.unAckQueue.frontSeg junk s.isn, s)) := by
  have hlt := h.running_iff.mp hrun
  have hfinAcked := h.finAcked_of_running hrun
  by_cases hsyn : s.unAckQueue.synAcked = true
  · by_cases hnil : s.unAckQueue.unAcked = []
    · -- only the FIN is left
      have hfin : s.unAckQueue.finSent = true := by
        rcases (h.outstanding_iff hsyn).mp hlt with hne | hfin
        · exact absurd hnil hne
        · exact hfin.1
      have hadd := h.base_add
      simp only [hsyn, hfin, hfinAcked, hnil, List.length_nil, Bool.not_true, Bool.not_false,
        Bool.and_false, Bool.and_true, if_neg Bool.false_ne_true, if_true] at hadd
      have hbase : s.unAckQueue.nextSeqno - 1 = s.unAckQueue.baseSqn := by omega
      refine Or.inr (Or.inl ⟨hsyn, hfin, hnil, by omega, ?_⟩)
      simp [retransmitSeg, hfin, hfinAcked, UnAckQueue.empty, hnil, makeNotFirstFinSeg,
        UnAckQueue.ackSqnForFin, hbase]
    · refine Or.inr (Or.inr ⟨hsyn, hnil, ?_⟩)
      simp [retransmitSeg, hsyn, hfinAcked, UnAckQueue.empty, hnil]
  · have hsyn' : s.unAckQueue.synAcked = false := by simpa using hsyn
    obtain ⟨hbase, -, hfin⟩ := h.opening hsyn'
    have hsent : s.unAckQueue.synSent = true := by
      by_contra hns
      have := h.fresh (by simpa using hns)
      omega
    have hnext := h.next_of_syn hsent
    rw [hfin, (h.unsynced hsyn').1, if_neg Bool.false_ne_true] at hnext
    refine Or.inl ⟨hsyn', hbase, by omega, ?_⟩
    simp [retransmitSeg, makeSynSeg, hfin, hsent, hsyn', Opening.remainSpace_eq h.opening h.toSound hsyn' hsent]

theorem Tracks.timeoutRetransmit_eq (h : s.Tracks data) (hrun : s.timer.isTimerRunning = true)
    (junk : Nat → UInt8) :
    s.timeoutRetransmit junk =
      { s with
        segmentsOut := s.segmentsOut ++ [(s.retransmitSeg junk).1]
        timer := s.timer.retransmitted } := by
  have hsame : (s.retransmitSeg junk).2 = s := by
    rcases h.retransmitSeg_cases hrun junk with ⟨-, -, -, heq⟩ | ⟨-, -, -, -, heq⟩ | ⟨-, -, heq⟩ <;>
      rw [heq]
  unfold timeoutRetransmit
  rw [if_neg (by simp [h.finAcked_of_running hrun]), hsame]

/-- What is retransmitted does not depend on the timer. -/
theorem retransmitSeg_timer (junk : Nat → UInt8) (s : TCPSender) (timer : Timer) :
    ({ s with timer := timer }.retransmitSeg junk).1 = (s.retransmitSeg junk).1 := by
  simp only [retransmitSeg, makeSynSeg, remainSpace]
  split_ifs <;> rfl

/-- What letting time pass does: the timer moves on, and when it expires one segment is
retransmitted. -/
theorem Tracks.tick_eq (h : s.Tracks data) (junk : Nat → UInt8) (ms : Nat) :
    ∃ timer, s.tick junk ms =
      { s with
        segmentsOut := s.segmentsOut ++
          if s.timer.expires ms then [(s.retransmitSeg junk).1] else []
        timer := timer } := by
  rw [TCPSender.tick_eq]
  split_ifs with hexp hrun
  · have hrun := Timer.running_of_expires hexp
    refine ⟨(s.timer.elapse ms).retransmitted, ?_⟩
    rw [(h.elapse hrun ms).timeoutRetransmit_eq hrun junk, retransmitSeg_timer]
  · exact ⟨_, by rw [List.append_nil]⟩
  · exact ⟨s.timer, by rw [List.append_nil]⟩

theorem Tracks.tick (h : s.Tracks data) (junk : Nat → UInt8) (ms : Nat) :
    (s.tick junk ms).Tracks data := by
  have hsound := h.toSound.tick junk ms
  have hrunning : (s.tick junk ms).timer.isTimerRunning = s.timer.isTimerRunning := by
    rw [TCPSender.tick_eq]
    split_ifs with hexp hrun
    · have hrun := Timer.running_of_expires hexp
      rw [(h.elapse hrun ms).timeoutRetransmit_eq hrun junk]
      rfl
    · rfl
    · rfl
  obtain ⟨timer, heq⟩ := h.tick_eq junk ms
  rw [heq] at hsound hrunning ⊢
  exact ⟨hsound, h.base_le, h.opening, h.synced, h.unAcked_eq, h.finAcked_iff,
    hrunning ▸ h.running_iff⟩

end

end TCPSender

end Sponge
