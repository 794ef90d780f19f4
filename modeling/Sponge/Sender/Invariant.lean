import Sponge.Basic.Run
import Sponge.Sender.Send

set_option autoImplicit false

/-! # The sender as a machine

The calls of a sender are the operations of a machine. `Sound s data` is the invariant of
every run, whatever acknowledgments arrive: `data` are the bytes that the outgoing stream has
accepted. Nothing here assumes that an acknowledgment is one the peer may send. -/

namespace Sponge

open Word

/-! ## The acknowledgment of bytes -/

namespace UnAckQueue

/-- The walk over the segment sizes moves the base to the acknowledgment, or over all sizes
when the acknowledgment is beyond them. The sizes that stay cover at least what is not
acknowledged; they cover more when a segment behind the first one is cut, because the passed
ones stay as well. -/
theorem eraseLoop_spec (ackno : Nat) (sizes passed : List Nat) (base bytesToErase : Nat)
    (hbase : base < ackno) (hpassed : passed.sum ≤ bytesToErase) :
    ∃ e, e = min (ackno - base) sizes.sum ∧
      (eraseLoop ackno passed sizes base bytesToErase).2.1 = base + e ∧
      (eraseLoop ackno passed sizes base bytesToErase).2.2 = bytesToErase + e ∧
      passed.sum + sizes.sum
        ≤ (eraseLoop ackno passed sizes base bytesToErase).1.sum + (bytesToErase + e) := by
  induction sizes generalizing passed base bytesToErase with
  | nil =>
      refine ⟨0, by simp, rfl, rfl, ?_⟩
      simp [eraseLoop]
  | cons size rest ih =>
      unfold eraseLoop
      simp only [List.sum_cons]
      split_ifs with heq hlt
      · -- the passed sizes are dropped here, and are counted as erased
        refine ⟨size, by omega, by simp only [heq], rfl, ?_⟩
        simp only
        omega
      · have hsum : (passed ++ [size]).sum = passed.sum + size := by simp
        obtain ⟨e, he, hb, hn, hs⟩ :=
          ih (passed ++ [size]) (base + size) (bytesToErase + size) hlt (by omega)
        refine ⟨size + e, by omega, by rw [hb]; omega, by rw [hn]; omega, ?_⟩
        rw [hsum] at hs
        omega
      · -- a cut size brings the passed ones back
        refine ⟨ackno - base, by omega, by simp only; omega, rfl, ?_⟩
        simp only [List.sum_append, List.sum_cons]
        omega

/-- What the acknowledgment of bytes does to the queue. -/
theorem erase_spec {q : UnAckQueue} {ackno : Nat} (hbase : q.baseSqn < ackno)
    (hfin : ¬(q.finSent = true ∧ ackno = q.nextSeqno)) :
    ∃ sizes e, e = min (ackno - q.baseSqn) q.unAckedPayloadSize.sum ∧
      q.unAckedPayloadSize.sum ≤ sizes.sum + e ∧
      q.erase ackno = { q with
        unAckedPayloadSize := sizes
        baseSqn := q.baseSqn + e
        unAcked := q.unAcked.drop e } := by
  obtain ⟨e, he, hb, hn, hs⟩ :=
    eraseLoop_spec ackno q.unAckedPayloadSize [] q.baseSqn 0 hbase (by simp)
  refine ⟨(eraseLoop ackno [] q.unAckedPayloadSize q.baseSqn 0).1, e, he, by simpa using hs, ?_⟩
  have hcond : ¬((q.finSent && ackno == q.ackSqnForFin) = true) := by
    simpa [ackSqnForFin] using hfin
  unfold erase
  rw [if_neg hcond]
  simp only [hb, hn, Nat.zero_add]

/-- The five things that an acknowledgment above the base can do. -/
theorem updateBase_cases {q : UnAckQueue} {ackno : Nat} (hbase : q.baseSqn < ackno) :
    (ackno = 1 ∧ q.updateBase ackno = { q with synAcked := true, baseSqn := 1 }) ∨
    (ackno ≠ 1 ∧ q.finSent = true ∧ ackno = q.nextSeqno ∧ q.unAcked = [] ∧
      q.updateBase ackno = { q with finAcked := true, baseSqn := q.baseSqn + 1 }) ∨
    (ackno ≠ 1 ∧ q.finSent = true ∧ ackno = q.nextSeqno ∧ q.unAcked ≠ [] ∧
      q.updateBase ackno = { q with
        finAcked := true
        baseSqn := ackno
        unAcked := []
        unAckedPayloadSize := [] }) ∨
    (ackno ≠ 1 ∧ ¬(q.finSent = true ∧ ackno = q.nextSeqno) ∧ q.unAcked = [] ∧
      q.updateBase ackno = q) ∨
    (ackno ≠ 1 ∧ ¬(q.finSent = true ∧ ackno = q.nextSeqno) ∧ q.unAcked ≠ [] ∧
      q.updateBase ackno = q.erase ackno) := by
  have hnle : ¬ackno ≤ q.baseSqn := by omega
  unfold updateBase
  rw [if_neg hnle]
  by_cases h1 : ackno = 1
  · -- the number of the SYN is above the base only if this is zero
    have hb : q.baseSqn = 0 := by omega
    exact Or.inl ⟨h1, by rw [if_pos h1, hb]⟩
  · rw [if_neg h1]
    by_cases hfin : q.finSent = true ∧ ackno = q.nextSeqno
    · have hcond : (q.finSent && ackno == q.ackSqnForFin) = true := by
        simpa [ackSqnForFin] using hfin
      rw [if_pos hcond]
      by_cases hempty : q.unAcked = []
      · exact Or.inr (Or.inl ⟨h1, hfin.1, hfin.2, hempty, by simp [empty, hempty]⟩)
      · refine Or.inr (Or.inr (Or.inl ⟨h1, hfin.1, hfin.2, hempty, ?_⟩))
        simp [empty, hempty, erase, ackSqnForFin, hfin.1, hfin.2]
    · have hcond : ¬((q.finSent && ackno == q.ackSqnForFin) = true) := by
        simpa [ackSqnForFin] using hfin
      rw [if_neg hcond]
      by_cases hempty : q.unAcked = []
      · exact Or.inr (Or.inr (Or.inr (Or.inl ⟨h1, hfin, hempty, by simp [empty, hempty]⟩)))
      · exact Or.inr (Or.inr (Or.inr (Or.inr ⟨h1, hfin, hempty, by simp [empty, hempty]⟩)))

/-- The acknowledgment of the SYN. -/
theorem updateBase_one {q : UnAckQueue} (hbase : q.baseSqn < 1) :
    q.updateBase 1 = { q with synAcked := true, baseSqn := 1 } := by
  rcases updateBase_cases hbase with ⟨-, heq⟩ | ⟨hne, -⟩ | ⟨hne, -⟩ | ⟨hne, -⟩ | ⟨hne, -⟩
  · exact heq
  all_goals exact absurd rfl hne

/-- An acknowledgment is not about what comes next, nor about the window. -/
theorem updateBase_fixed (q : UnAckQueue) (a : Nat) :
    (q.updateBase a).nextSeqno = q.nextSeqno ∧ (q.updateBase a).winSize = q.winSize := by
  simp only [updateBase, erase]
  split_ifs <;> exact ⟨rfl, rfl⟩

/-- What an acknowledgment above the base leaves alone, and how far it moves the base. -/
theorem updateBase_frame {q : UnAckQueue} {a : Nat} (hbase : q.baseSqn < a) :
    (q.updateBase a).synSent = q.synSent ∧ (q.updateBase a).finSent = q.finSent ∧
      (q.synAcked = true → (q.updateBase a).synAcked = true) ∧ (q.updateBase a).baseSqn ≤ a := by
  rcases updateBase_cases hbase with ⟨ha, heq⟩ | ⟨-, -, -, -, heq⟩ |
      ⟨-, -, -, -, heq⟩ | ⟨-, -, -, heq⟩ | ⟨-, hfin, -, heq⟩
  · rw [heq]
    exact ⟨rfl, rfl, fun _ => rfl, ha.ge⟩
  · rw [heq]
    exact ⟨rfl, rfl, id, hbase⟩
  · rw [heq]
    exact ⟨rfl, rfl, id, le_rfl⟩
  · rw [heq]
    exact ⟨rfl, rfl, id, hbase.le⟩
  · obtain ⟨sizes, e, he, -, heq'⟩ := erase_spec hbase hfin
    rw [heq, heq']
    refine ⟨rfl, rfl, id, ?_⟩
    show q.baseSqn + e ≤ a
    omega

end UnAckQueue

/-! ## The calls of a sender -/

/-- The calls on a sender: those on its stream, its own and those of the owner who takes
segments from its queue. -/
inductive SenderOp where
  | write (data : Bytes)
  | endInput
  | setError
  | fillWindow
  | ackReceived (ackno : WrappingInt32) (windowSize : UInt16)
  | tick (msSinceLastTick : UInt64)
  | sendEmptySegment
  | popSegments (n : Nat)

namespace TCPSender

def step (junk : Nat → UInt8) (s : TCPSender) : SenderOp → TCPSender
  | .write data => (s.writeStream data).1
  | .endInput => s.endStream
  | .setError => { s with stream := s.stream.setError }
  | .fillWindow => s.fillWindow
  | .ackReceived ackno windowSize => s.ackReceived ackno windowSize
  | .tick ms => s.tick junk ms.toNat
  | .sendEmptySegment => s.sendEmptySegment
  | .popSegments n => { s with segmentsOut := s.segmentsOut.drop n }

/-- The bytes that an operation adds to the outgoing stream. -/
def accepts (s : TCPSender) : SenderOp → Bytes
  | .write data => data.take (s.writeStream data).2
  | _ => []

/-! ## The invariant -/

/-- The invariant of every sender: `data` has been written to its stream. -/
structure Sound (s : TCPSender) (data : Bytes) : Prop where
  carries : s.stream.Carries data
  win_pos : 1 ≤ s.unAckQueue.winSize
  win_lt : s.unAckQueue.winSize < 2 ^ 16
  next_eq : s.unAckQueue.nextSeqno = (if s.unAckQueue.synSent then 1 else 0)
    + s.stream.numBytesRead + (if s.unAckQueue.finSent then 1 else 0)
  fresh : s.unAckQueue.synSent = false → s.unAckQueue.nextSeqno = 0
  fin_eof : s.unAckQueue.finSent = true → s.stream.eof = true
  fin_sent : s.unAckQueue.finAcked = true → s.unAckQueue.finSent = true
  sizes_ge : s.unAckQueue.unAcked.length ≤ s.unAckQueue.unAckedPayloadSize.sum
  unsynced : s.unAckQueue.synAcked = false → s.stream.numBytesRead = 0 ∧
    s.unAckQueue.unAcked = [] ∧ s.unAckQueue.unAckedPayloadSize = []
  covered : s.unAckQueue.synAcked = true →
    s.stream.numBytesRead + 1 ≤ s.unAckQueue.baseSqn + s.unAckQueue.unAcked.length
  -- a timer that does not run is ready to start
  idle : s.timer.isTimerRunning = false → s.timer.stopTimer = s.timer

theorem sound_new (capacity : UInt64) (retxTimeout : UInt16) (isn : WrappingInt32) :
    (new capacity retxTimeout isn).Sound [] := by
  constructor <;> simp [new, Timer.new, Timer.startTimer, Timer.stopTimer, ByteStream.new]
  exact ByteStream.carries_new capacity

section

variable {s : TCPSender} {data : Bytes}

/-- Only the four parts of the sender matter, and the queue of segments is none of them. -/
theorem Sound.congr (h : s.Sound data) {s' : TCPSender} {data' : Bytes}
    (hq : s'.unAckQueue = s.unAckQueue) (ht : s'.timer = s.timer)
    (hc : s'.stream.Carries data') (hr : s'.stream.numBytesRead = s.stream.numBytesRead)
    (he : s.stream.eof = true → s'.stream.eof = true) : s'.Sound data' := by
  refine ⟨hc, ?_, ?_, ?_, ?_, ?_, ?_, ?_, ?_, ?_, ?_⟩
  · rw [hq]; exact h.win_pos
  · rw [hq]; exact h.win_lt
  · rw [hq, hr]; exact h.next_eq
  · rw [hq]; exact h.fresh
  · rw [hq]; exact fun hf => he (h.fin_eof hf)
  · rw [hq]; exact h.fin_sent
  · rw [hq]; exact h.sizes_ge
  · rw [hq, hr]; exact h.unsynced
  · rw [hq, hr]; exact h.covered
  · rw [ht]; exact h.idle

theorem Sound.write (h : s.Sound data) (d : Bytes) :
    (s.writeStream d).1.Sound (data ++ d.take (s.writeStream d).2) :=
  h.congr rfl rfl (h.carries.write d) (ByteStream.write_numBytesRead s.stream d)
    (ByteStream.eof_write s.stream d)

theorem Sound.endStream (h : s.Sound data) : s.endStream.Sound data := by
  refine h.congr rfl rfl h.carries.endInput rfl ?_
  simp only [ByteStream.eof, Bool.and_eq_true]
  exact fun he => ⟨he.1, rfl⟩

theorem Sound.setError (h : s.Sound data) :
    { s with stream := s.stream.setError }.Sound data :=
  h.congr rfl rfl h.carries.setError rfl id

theorem Sound.segmentsOut (h : s.Sound data) (segs : List TCPSegment) :
    { s with segmentsOut := segs }.Sound data :=
  h.congr rfl rfl h.carries rfl id

theorem Sound.sends (h : s.Sound data) {s' : TCPSender} {seg : TCPSegment}
    (hs : s.Sends s' seg) : s'.Sound data := by
  have hread := hs.read_eq
  have hlen : seg.lengthInSequenceSpace = seg.payload.length
      + (if s.unAckQueue.synSent then 0 else 1) + (if seg.header.fin then 1 else 0) := by
    simp only [TCPSegment.lengthInSequenceSpace, hs.syn_eq]
    cases s.unAckQueue.synSent <;> rfl
  refine ⟨?_, ?_, ?_, ?_, ?_, ?_, ?_, ?_, ?_, ?_, ?_⟩
  · rw [hs.stream_eq]
    exact h.carries.popOutput _
  · rw [hs.win_eq]; exact h.win_pos
  · rw [hs.win_eq]; exact h.win_lt
  · have hnext := h.next_eq
    rw [hs.finSent_before] at hnext
    rw [hs.next_eq, hs.synSent_eq, hs.finSent_eq, hread, hnext, hlen]
    cases s.unAckQueue.synSent <;> simp <;> omega
  · rw [hs.synSent_eq]
    exact fun hf => absurd hf (by simp)
  · rw [hs.finSent_eq]; exact hs.fin_eof
  · rw [hs.finAcked_eq]
    exact fun hf => absurd hf (by simp)
  · -- a segment without payload may stay out of the sizes
    have hge := h.sizes_ge
    rw [hs.unAcked_eq]
    rcases hs.sizes_eq with ⟨hnil, hsz⟩ | ⟨-, hsz⟩
    · rw [hsz, hnil, List.append_nil]
      exact hge
    · simp only [hsz, List.length_append, List.sum_append, List.sum_singleton]
      omega
  · intro hsyn
    rw [hs.synAcked_eq] at hsyn
    obtain ⟨hr, hu, hz⟩ := h.unsynced hsyn
    rcases hs.sizes_eq with ⟨hnil, hsz⟩ | ⟨hacked, -⟩
    · refine ⟨?_, ?_, ?_⟩
      · rw [hread, hr, hnil, List.length_nil]
      · rw [hs.unAcked_eq, hu, hnil, List.append_nil]
      · rw [hsz, hz]
    · exact absurd hacked (by simp [hsyn])
  · intro hsyn
    have hcov := h.covered (hs.synAcked_eq ▸ hsyn)
    rw [hread, hs.base_eq, hs.unAcked_eq, List.length_append]
    omega
  · rw [hs.timer_eq]
    split_ifs with hrun
    · exact fun hidle => absurd (hrun.symm.trans hidle) (by simp)
    · exact fun hidle => absurd hidle (by simp [Timer.startTimer])

theorem Sound.fillWindow (h : s.Sound data) : s.fillWindow.Sound data :=
  fillWindow_rule (P := fun s => s.Sound data) (fun _ hs => ⟨data, hs.carries⟩)
    (fun _ _ _ hs => hs.sends) h

/-- What is sent carries no RST. -/
theorem Sound.fillWindow_no_rst (h : s.Sound data)
    (hrst : ∀ seg ∈ s.segmentsOut, seg.header.rst = false) :
    ∀ seg ∈ s.fillWindow.segmentsOut, seg.header.rst = false := by
  refine (fillWindow_rule
    (P := fun s => s.Sound data ∧ ∀ seg ∈ s.segmentsOut, seg.header.rst = false)
    (fun _ h' => ⟨data, h'.1.carries⟩) ?_ ⟨h, hrst⟩).2
  rintro s' s'' seg ⟨h', hrst'⟩ hs
  refine ⟨h'.sends hs, ?_⟩
  intro seg' hmem
  rw [hs.out_eq] at hmem
  rcases List.mem_append.mp hmem with hmem | hmem
  · exact hrst' seg' hmem
  · rw [List.mem_singleton.mp hmem]
    exact hs.no_rst

theorem Sound.setWindowSize (h : s.Sound data) (size : UInt16) :
    (s.setWindowSize size).Sound data := by
  have hlt := size.toNat_lt
  refine ⟨h.carries, ?_, ?_, h.next_eq, h.fresh, h.fin_eof, h.fin_sent, h.sizes_ge, h.unsynced,
    h.covered, ?_⟩
  · show 1 ≤ if 0 < size.toNat then size.toNat else 1
    split_ifs <;> omega
  · show (if 0 < size.toNat then size.toNat else 1) < 2 ^ 16
    split_ifs <;> omega
  · intro hrun
    have hidle := h.idle hrun
    exact congrArg (fun t : Timer => { t with doubleTimeout := size != 0 }) hidle

/-- The timer after an acknowledgment that was used: it runs if something is left. -/
def restarted (t : Timer) (q : UnAckQueue) : Timer :=
  if !q.empty || (q.finSent && !q.finAcked) then t.startTimer else t.stopTimer

theorem restarted_idle (t : Timer) (q : UnAckQueue)
    (hrun : (restarted t q).isTimerRunning = false) :
    (restarted t q).stopTimer = restarted t q := by
  unfold restarted at hrun ⊢
  split_ifs at hrun ⊢ with h
  · exact absurd hrun (by simp [Timer.startTimer])
  · rfl

theorem Sound.updateBase (h : s.Sound data) {a : Nat} (hbase : s.unAckQueue.baseSqn < a) :
    { s with
      unAckQueue := s.unAckQueue.updateBase a
      timer := restarted s.timer (s.unAckQueue.updateBase a) }.Sound data := by
  have hidle := restarted_idle s.timer (s.unAckQueue.updateBase a)
  rcases UnAckQueue.updateBase_cases hbase with ⟨ha, heq⟩ | ⟨-, hf, hn, hu, heq⟩ |
      ⟨-, hf, hn, hu, heq⟩ | ⟨-, -, -, heq⟩ | ⟨-, hf, hu, heq⟩
  · -- the SYN: no payload has been sent before
    rw [heq] at hidle ⊢
    refine ⟨h.carries, h.win_pos, h.win_lt, h.next_eq, h.fresh, h.fin_eof, h.fin_sent, h.sizes_ge,
      fun hf => absurd hf (by simp), fun _ => ?_, hidle⟩
    show s.stream.numBytesRead + 1 ≤ 1 + s.unAckQueue.unAcked.length
    by_cases hsyn : s.unAckQueue.synAcked = true
    · have hcov := h.covered hsyn
      omega
    · have hr := (h.unsynced (by simpa using hsyn)).1
      omega
  · -- the FIN, with no byte left
    rw [heq] at hidle ⊢
    refine ⟨h.carries, h.win_pos, h.win_lt, h.next_eq, h.fresh, h.fin_eof, fun _ => hf, h.sizes_ge,
      h.unsynced, fun hsyn => ?_, hidle⟩
    have hcov := h.covered hsyn
    show s.stream.numBytesRead + 1
      ≤ s.unAckQueue.baseSqn + 1 + s.unAckQueue.unAcked.length
    omega
  · -- the FIN and all bytes
    rw [heq] at hidle ⊢
    refine ⟨h.carries, h.win_pos, h.win_lt, h.next_eq, h.fresh, h.fin_eof, fun _ => hf,
      Nat.zero_le _, fun hsyn => ⟨(h.unsynced hsyn).1, rfl, rfl⟩, fun _ => ?_, hidle⟩
    have hnext := h.next_eq
    rw [hf, if_pos rfl] at hnext
    show s.stream.numBytesRead + 1 ≤ a + 0
    omega
  · -- nothing that could be acknowledged
    rw [heq] at hidle ⊢
    exact ⟨h.carries, h.win_pos, h.win_lt, h.next_eq, h.fresh, h.fin_eof, h.fin_sent, h.sizes_ge,
      h.unsynced, h.covered, hidle⟩
  · -- bytes in front of the FIN
    obtain ⟨sizes, e, he, hsum, heq'⟩ := UnAckQueue.erase_spec hbase hf
    rw [heq, heq'] at hidle ⊢
    have hge := h.sizes_ge
    refine ⟨h.carries, h.win_pos, h.win_lt, h.next_eq, h.fresh, h.fin_eof, h.fin_sent, ?_, ?_, ?_,
      hidle⟩
    · show (s.unAckQueue.unAcked.drop e).length ≤ sizes.sum
      rw [List.length_drop]
      omega
    · intro hsyn
      exact absurd (h.unsynced hsyn).2.1 hu
    · intro hsyn
      have hcov := h.covered hsyn
      show s.stream.numBytesRead + 1
        ≤ s.unAckQueue.baseSqn + e + (s.unAckQueue.unAcked.drop e).length
      rw [List.length_drop]
      omega

/-- An acknowledgment is not above the base, or beyond a FIN that was sent. Only its window is
used then. -/
def Ignores (s : TCPSender) (absAckno : Nat) : Prop :=
  (s.unAckQueue.finSent = true ∧ s.unAckQueue.nextSeqno < absAckno) ∨
    absAckno ≤ s.unAckQueue.baseSqn

instance (s : TCPSender) (absAckno : Nat) : Decidable (s.Ignores absAckno) :=
  inferInstanceAs (Decidable (_ ∨ _))

theorem base_lt_of_not_ignores {s : TCPSender} {absAckno : Nat} (w : UInt16)
    (h : ¬s.Ignores absAckno) : (s.setWindowSize w).unAckQueue.baseSqn < absAckno := by
  show s.unAckQueue.baseSqn < absAckno
  unfold Ignores at h
  omega

/-- What an acknowledgment does: the window is always taken, the rest only when it is not
ignored. -/
theorem ackReceived_eq (s : TCPSender) (ackno : WrappingInt32) (w : UInt16) :
    s.ackReceived ackno w =
      if s.Ignores (s.absAckno ackno) then s.setWindowSize w
      else { s.setWindowSize w with
        unAckQueue := (s.setWindowSize w).unAckQueue.updateBase (s.absAckno ackno)
        timer := restarted (s.setWindowSize w).timer
          ((s.setWindowSize w).unAckQueue.updateBase (s.absAckno ackno)) } := by
  have habs : (s.setWindowSize w).absAckno ackno = s.absAckno ackno := rfl
  unfold ackReceived
  simp only [habs]
  generalize s.absAckno ackno = a
  by_cases hfin : s.unAckQueue.finSent = true ∧ s.unAckQueue.nextSeqno < a
  · rw [if_pos (by simp [setWindowSize, UnAckQueue.ackSqnForFin, hfin]),
      if_pos (show s.Ignores a from Or.inl hfin)]
  · by_cases hle : a ≤ s.unAckQueue.baseSqn
    · rw [if_pos (show s.Ignores a from Or.inr hle)]
      have hgt : ¬(s.setWindowSize w).unAckQueue.baseSqn < a := Nat.not_lt.mpr hle
      rw [if_neg hgt, ite_self]
    · rw [if_neg (show ¬s.Ignores a from fun h => h.elim hfin hle), if_neg ?_, if_pos ?_]
      · rfl
      · show s.unAckQueue.baseSqn < a
        omega
      · have hpos : a ≠ 0 := by omega
        have hge : s.unAckQueue.baseSqn ≤ a := by omega
        show ¬(((s.unAckQueue.finSent && decide (s.unAckQueue.nextSeqno < a)) || decide (a ≤ 0) ||
          decide (a < s.unAckQueue.baseSqn)) = true)
        simpa [hpos, hge] using hfin

/-- An acknowledgment changes neither the stream nor the numbers of what was sent. -/
theorem ackReceived_frame (s : TCPSender) (ackno : WrappingInt32) (w : UInt16) :
    (s.ackReceived ackno w).isn = s.isn ∧ (s.ackReceived ackno w).stream = s.stream ∧
      (s.ackReceived ackno w).unAckQueue.nextSeqno = s.unAckQueue.nextSeqno ∧
      (s.ackReceived ackno w).unAckQueue.finSent = s.unAckQueue.finSent := by
  rw [ackReceived_eq]
  split_ifs with hign
  · exact ⟨rfl, rfl, rfl, rfl⟩
  · exact ⟨rfl, rfl, (UnAckQueue.updateBase_fixed _ _).1,
      (UnAckQueue.updateBase_frame (base_lt_of_not_ignores w hign)).2.1⟩

theorem Sound.ackReceived (h : s.Sound data) (ackno : WrappingInt32) (w : UInt16) :
    (s.ackReceived ackno w).Sound data := by
  rw [ackReceived_eq]
  have hw := h.setWindowSize w
  split_ifs with hign
  · exact hw
  · exact hw.updateBase (base_lt_of_not_ignores w hign)

/-! ### Time -/

/-- A repeated SYN takes the FIN along. -/
def RepeatsSynWithFin (s : TCPSender) : Prop :=
  s.unAckQueue.synSent = true ∧ s.unAckQueue.synAcked = false ∧ s.unAckQueue.finSent = false ∧
    s.unAckQueue.finAcked = false ∧ s.stream.eof = true ∧ 2 ≤ s.remainSpace

theorem retransmitSeg_frame (junk : Nat → UInt8) (s : TCPSender)
    (hfin : s.unAckQueue.finAcked = false) :
    ∃ q, (s.retransmitSeg junk).2 = { s with unAckQueue := q } ∧
      (q = s.unAckQueue ∨ (s.RepeatsSynWithFin ∧
        q = { s.unAckQueue with finSent := true, nextSeqno := s.unAckQueue.nextSeqno + 1 })) := by
  unfold retransmitSeg
  split_ifs with h1 h2 h3 h4
  · exact ⟨_, rfl, Or.inl rfl⟩
  · exact ⟨_, rfl, Or.inl rfl⟩
  · have hfinSent : s.unAckQueue.finSent = false := by simpa [hfin] using h1
    simp only [Bool.and_eq_true, Bool.not_eq_true'] at h3
    unfold makeSynSeg
    simp only [h3.1, if_true]
    split_ifs with h
    · simp only [Bool.and_eq_true, decide_eq_true_eq] at h
      exact ⟨_, rfl, Or.inr ⟨⟨h3.1, h3.2, hfinSent, hfin, h⟩, rfl⟩⟩
    · exact ⟨_, rfl, Or.inl rfl⟩
  · exact ⟨_, rfl, Or.inl rfl⟩
  · exact ⟨_, rfl, Or.inl rfl⟩

/-- What a timeout does to the sender. -/
theorem timeoutRetransmit_frame (junk : Nat → UInt8) (s : TCPSender)
    (hfin : s.unAckQueue.finAcked = false) :
    ∃ q, s.timeoutRetransmit junk =
        { s with
          unAckQueue := q
          segmentsOut := s.segmentsOut ++ [(s.retransmitSeg junk).1]
          timer := s.timer.retransmitted } ∧
      (q = s.unAckQueue ∨ (s.RepeatsSynWithFin ∧
        q = { s.unAckQueue with finSent := true, nextSeqno := s.unAckQueue.nextSeqno + 1 })) := by
  obtain ⟨q, heq, hq⟩ := retransmitSeg_frame junk s hfin
  refine ⟨q, ?_, hq⟩
  unfold timeoutRetransmit
  rw [if_neg (by simp [hfin]), heq]

theorem tick_eq (junk : Nat → UInt8) (s : TCPSender) (ms : Nat) :
    s.tick junk ms =
      if s.timer.expires ms = true then { s with timer := s.timer.elapse ms }.timeoutRetransmit junk
      else if s.timer.isTimerRunning = true then { s with timer := s.timer.elapse ms }
      else s := by
  unfold tick Timer.expires
  by_cases hrun : s.timer.isTimerRunning = true
  · simp only [hrun, if_true, Bool.true_and, decide_eq_true_eq]
    rfl
  · simp [hrun]

/-- A timeout sends the segment that is due, unless the FIN is acknowledged. -/
theorem tick_segmentsOut_of_expires (junk : Nat → UInt8) {s : TCPSender} {ms : Nat}
    (hexp : s.timer.expires ms = true) (hfin : s.unAckQueue.finAcked = false) :
    (s.tick junk ms).segmentsOut = s.segmentsOut ++
      [({ s with timer := s.timer.elapse ms }.retransmitSeg junk).1] := by
  obtain ⟨q, heq, -⟩ := timeoutRetransmit_frame junk { s with timer := s.timer.elapse ms } hfin
  rw [tick_eq, if_pos hexp, heq]

/-- What time leaves alone: the stream, and the queue unless a repeated SYN takes the FIN
along. -/
theorem tick_frame (junk : Nat → UInt8) (s : TCPSender) (ms : Nat) :
    ∃ q timer segs, s.tick junk ms =
        { s with unAckQueue := q, timer := timer, segmentsOut := segs } ∧
      (q = s.unAckQueue ∨ (s.RepeatsSynWithFin ∧
        q = { s.unAckQueue with finSent := true, nextSeqno := s.unAckQueue.nextSeqno + 1 })) := by
  rw [tick_eq]
  split_ifs with hexp hrun
  · by_cases hfin : s.unAckQueue.finAcked = true
    · refine ⟨s.unAckQueue, s.timer.elapse ms, s.segmentsOut, ?_, Or.inl rfl⟩
      unfold timeoutRetransmit
      rw [if_pos hfin]
    · obtain ⟨q, heq, hq⟩ := timeoutRetransmit_frame junk { s with timer := s.timer.elapse ms }
        (by simpa using hfin)
      exact ⟨q, _, _, heq, hq⟩
  · exact ⟨_, _, _, rfl, Or.inl rfl⟩
  · exact ⟨_, _, _, rfl, Or.inl rfl⟩

theorem Sound.elapse (h : s.Sound data) (hrun : s.timer.isTimerRunning = true) (ms : Nat) :
    { s with timer := s.timer.elapse ms }.Sound data :=
  ⟨h.carries, h.win_pos, h.win_lt, h.next_eq, h.fresh, h.fin_eof, h.fin_sent, h.sizes_ge,
    h.unsynced, h.covered, fun hidle => absurd (hrun.symm.trans hidle) (by simp)⟩

theorem Sound.timeoutRetransmit (h : s.Sound data) (hrun : s.timer.isTimerRunning = true)
    (junk : Nat → UInt8) : (s.timeoutRetransmit junk).Sound data := by
  by_cases hfin : s.unAckQueue.finAcked = true
  · unfold TCPSender.timeoutRetransmit
    rwa [if_pos hfin]
  · obtain ⟨q, heq, hq⟩ := timeoutRetransmit_frame junk s (by simpa using hfin)
    rw [heq]
    have hidle : s.timer.retransmitted.isTimerRunning = false →
        s.timer.retransmitted.stopTimer = s.timer.retransmitted :=
      fun hidle => absurd (hrun.symm.trans hidle) (by simp)
    rcases hq with rfl | ⟨⟨hsyn, -, hfinSent, -, heof, -⟩, rfl⟩
    · exact ⟨h.carries, h.win_pos, h.win_lt, h.next_eq, h.fresh, h.fin_eof, h.fin_sent, h.sizes_ge,
        h.unsynced, h.covered, hidle⟩
    · refine ⟨h.carries, h.win_pos, h.win_lt, ?_, fun hf => absurd (hsyn.symm.trans hf) (by simp),
        fun _ => heof, fun _ => rfl, h.sizes_ge, h.unsynced, h.covered, hidle⟩
      have hnext := h.next_eq
      rw [hfinSent] at hnext
      simp only [hnext, if_true]
      simp

theorem Sound.tick (h : s.Sound data) (junk : Nat → UInt8) (ms : Nat) :
    (s.tick junk ms).Sound data := by
  rw [tick_eq]
  split_ifs with hexp hrun
  · have hrun := Timer.running_of_expires hexp
    exact (h.elapse hrun ms).timeoutRetransmit hrun junk
  · exact h.elapse hrun ms
  · exact h

/-! ### Runs -/

theorem Sound.step (h : s.Sound data) (junk : Nat → UInt8) (op : SenderOp) :
    (s.step junk op).Sound (data ++ s.accepts op) := by
  cases op with
  | write d => exact h.write d
  | endInput => simpa [accepts, TCPSender.step] using h.endStream
  | setError => simpa [accepts, TCPSender.step] using h.setError
  | fillWindow => simpa [accepts, TCPSender.step] using h.fillWindow
  | ackReceived ackno w => simpa [accepts, TCPSender.step] using h.ackReceived ackno w
  | tick ms => simpa [accepts, TCPSender.step] using h.tick junk ms.toNat
  | sendEmptySegment =>
      simpa [accepts, TCPSender.step, TCPSender.sendEmptySegment] using h.segmentsOut _
  | popSegments n => simpa [accepts, TCPSender.step] using h.segmentsOut _

end

/-- **Every run of a sender keeps the invariant**, whatever acknowledgments it receives. -/
theorem run_sound (junk : Nat → UInt8) (capacity : UInt64) (retxTimeout : UInt16)
    (isn : WrappingInt32) (ops : List SenderOp) :
    ∃ data, (Run.run (step junk) (new capacity retxTimeout isn) ops).Sound data :=
  Run.run_invariant' (I := fun s : TCPSender => ∃ data, s.Sound data)
    (fun _ op ⟨_, h⟩ => ⟨_, h.step junk op⟩) ⟨[], sound_new capacity retxTimeout isn⟩ ops

end TCPSender

end Sponge
