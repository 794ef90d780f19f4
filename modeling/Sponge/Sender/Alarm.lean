import Sponge.Sender.InFlight
import Sponge.Sender.Queue

set_option autoImplicit false

/-! # The retransmission timer and the bytes in flight

While a conforming peer acknowledges, the timer runs exactly while something is in flight, and
what a timeout repeats occupies sequence space (`Sized`). `Watch` carries along the time that
really passed since the timer was started or a segment was repeated. The timer counts it in a
`size_t`, so that the two agree until `2 ^ 64` milliseconds are over. -/

namespace Sponge

open Word

namespace TCPSender

/-- **What a timeout repeats occupies sequence space.** -/
theorem Sized.retransmitSeg_pos {s : TCPSender} {data : Bytes} (h : s.Sized) (ht : s.Tracks data)
    (hrun : s.timer.isTimerRunning = true) (junk : Nat → UInt8) :
    1 ≤ (s.retransmitSeg junk).1.lengthInSequenceSpace := by
  rcases ht.retransmitSeg_cases hrun junk with ⟨-, -, -, heq⟩ | ⟨-, -, -, -, heq⟩ | ⟨-, hne, heq⟩
  · rw [heq]
    simp [TCPSegment.lengthInSequenceSpace]
  · rw [heq]
    simp [TCPSegment.lengthInSequenceSpace]
  · rw [heq]
    have hhead := h.head_pos ht.sizes_ge hne
    unfold TCPSegment.lengthInSequenceSpace UnAckQueue.frontSeg UnAckQueue.readFront
    simp only [List.length_append, List.length_take, List.length_map, List.length_range]
    omega

end TCPSender

/-! ## The time that passed -/

/-- A sender together with the time in milliseconds that has passed since its timer was started
or a segment was repeated. -/
structure Watch where
  sender : TCPSender
  elapsed : Nat := 0

namespace Watch

def new (capacity : UInt64) (retxTimeout : UInt16) (isn : WrappingInt32) : Watch :=
  { sender := TCPSender.new capacity retxTimeout isn }

/-- The timer is started by what is sent while it does not run, and started again (or stopped)
by an acknowledgment that is used. -/
def step (junk : Nat → UInt8) (g : Watch) (op : SenderOp) : Watch :=
  { sender := g.sender.step junk op
    elapsed := match op with
      | .tick ms =>
          if (g.sender.step junk op).segmentsOut = g.sender.segmentsOut then g.elapsed + ms.toNat
          else 0
      | .fillWindow => if g.sender.timer.isTimerRunning then g.elapsed else 0
      | .ackReceived ackno _ =>
          if g.sender.Ignores (g.sender.absAckno ackno) then g.elapsed else 0
      | _ => g.elapsed }

/-- What the timer is for, in a state and for a tick of `ms` milliseconds. -/
structure Alarms (junk : Nat → UInt8) (g : Watch) (ms : UInt64) : Prop where
  running_iff : g.sender.timer.isTimerRunning = true ↔ 0 < g.sender.bytesInFlight
  repeats : 0 < g.sender.bytesInFlight → g.sender.timer.timeout ≤ g.elapsed + ms.toNat →
    ∃ seg, (g.sender.tick junk ms.toNat).segmentsOut = g.sender.segmentsOut ++ [seg] ∧
      1 ≤ seg.lengthInSequenceSpace
  silent : g.sender.bytesInFlight = 0 →
    (g.sender.tick junk ms.toNat).segmentsOut = g.sender.segmentsOut

/-- The timer's count of the time that passed. -/
def Counts (g : Watch) : Prop :=
  g.sender.timer.isTimerRunning = true →
    g.sender.timer.msSinceBaseSegSent = g.elapsed % 2 ^ 64

section

variable {g : Watch} {data : Bytes}

/-- A call of `fill_window` leaves a running timer alone, and starts it at zero otherwise. -/
theorem fillWindow_timer {s : TCPSender} (h : s.Sound data) :
    s.fillWindow.timer = s.timer ∨
      (s.timer.isTimerRunning = false ∧ s.fillWindow.timer = s.timer.startTimer) := by
  refine (TCPSender.fillWindow_rule (P := fun s' => s'.Sound data ∧ (s'.timer = s.timer ∨
    (s.timer.isTimerRunning = false ∧ s'.timer = s.timer.startTimer)))
    (fun _ h' => ⟨data, h'.1.carries⟩) ?_ ⟨h, Or.inl rfl⟩).2
  rintro s' s'' seg ⟨hs', htimer⟩ hs
  refine ⟨hs'.sends hs, ?_⟩
  rw [hs.timer_eq]
  -- the first segment starts the timer, and the later ones find it running
  rcases htimer with heq | ⟨hstopped, heq⟩
  · rw [heq]
    split_ifs with hrun
    · exact Or.inl rfl
    · exact Or.inr ⟨by simpa using hrun, rfl⟩
  · have hstarted : s.timer.startTimer.isTimerRunning = true := rfl
    rw [heq, if_pos hstarted]
    exact Or.inr ⟨hstopped, rfl⟩

/-- The timer after a tick, and whether the tick repeats a segment. -/
theorem tick_timer {s : TCPSender} (ht : s.Tracks data) (junk : Nat → UInt8) (ms : Nat) :
    (s.timer.expires ms = true ∧ (s.tick junk ms).timer = (s.timer.elapse ms).retransmitted ∧
      (s.tick junk ms).segmentsOut = s.segmentsOut ++ [(s.retransmitSeg junk).1]) ∨
    (s.timer.expires ms = false ∧ (s.tick junk ms).segmentsOut = s.segmentsOut ∧
      (s.timer.isTimerRunning = true → (s.tick junk ms).timer = s.timer.elapse ms) ∧
      (s.timer.isTimerRunning = false → (s.tick junk ms).timer = s.timer)) := by
  rw [TCPSender.tick_eq]
  split_ifs with hexp hrun
  · have hrun := Timer.running_of_expires hexp
    refine Or.inl ⟨hexp, ?_⟩
    rw [(ht.elapse hrun ms).timeoutRetransmit_eq hrun junk, TCPSender.retransmitSeg_timer]
    exact ⟨rfl, rfl⟩
  · refine Or.inr ⟨by simpa using hexp, rfl, fun _ => rfl, ?_⟩
    intro hstopped
    exact absurd (hrun.symm.trans hstopped) (by simp)
  · exact Or.inr ⟨by simpa using hexp, rfl, fun hrun' => absurd hrun' hrun, fun _ => rfl⟩

theorem Counts.tick (hg : g.Counts) (ht : g.sender.Tracks data) (junk : Nat → UInt8)
    (ms : UInt64) : (g.step junk (.tick ms)).Counts := by
  intro hrun
  change (g.sender.tick junk ms.toNat).timer.isTimerRunning = true at hrun
  show (g.sender.tick junk ms.toNat).timer.msSinceBaseSegSent
    = (if (g.sender.tick junk ms.toNat).segmentsOut = g.sender.segmentsOut
        then g.elapsed + ms.toNat else 0) % 2 ^ 64
  rcases tick_timer ht junk ms.toNat with ⟨-, htimer, hout⟩ | ⟨-, hout, hrunning, hstopped⟩
  · -- both counts start again
    rw [htimer, hout, if_neg (by simp)]
    rfl
  · have hrun' : g.sender.timer.isTimerRunning = true := by
      by_contra hnot
      rw [hstopped (by simpa using hnot)] at hrun
      exact hnot hrun
    rw [hrunning hrun', if_pos hout]
    show (g.sender.timer.msSinceBaseSegSent + ms.toNat) % 2 ^ 64 = _
    rw [hg hrun']
    omega

theorem Counts.step (hg : g.Counts) (ht : g.sender.Tracks data) (junk : Nat → UInt8)
    (op : SenderOp) : (g.step junk op).Counts := by
  cases op with
  | fillWindow =>
      intro hrun
      change g.sender.fillWindow.timer.isTimerRunning = true at hrun
      show g.sender.fillWindow.timer.msSinceBaseSegSent
        = (if g.sender.timer.isTimerRunning then g.elapsed else 0) % 2 ^ 64
      rcases fillWindow_timer ht.toSound with heq | ⟨hstopped, heq⟩
      · rw [heq] at hrun ⊢
        rw [if_pos hrun]
        exact hg hrun
      · rw [heq, if_neg (by simp [hstopped])]
        rfl
  | ackReceived ackno w =>
      intro hrun
      change (g.sender.ackReceived ackno w).timer.isTimerRunning = true at hrun
      show (g.sender.ackReceived ackno w).timer.msSinceBaseSegSent
        = (if g.sender.Ignores (g.sender.absAckno ackno) then g.elapsed else 0) % 2 ^ 64
      rw [TCPSender.ackReceived_eq] at hrun ⊢
      split_ifs at hrun ⊢ with hign
      · exact hg hrun
      · -- started or stopped, the count is zero
        unfold TCPSender.restarted
        split_ifs <;> rfl
  | tick ms => exact hg.tick ht junk ms
  | write d | endInput | setError | sendEmptySegment | popSegments n => exact hg

/-- In the 64 bits of the timer the time since the last start has come to the timeout. -/
def Noticed (g : Watch) (ms : UInt64) : Prop :=
  g.sender.timer.isTimerRunning = true → g.sender.timer.timeout ≤ g.elapsed + ms.toNat →
    g.sender.timer.timeout ≤ (g.elapsed + ms.toNat) % 2 ^ 64

/-- A tick repeats a segment exactly if the time in the timer reaches the timeout. -/
theorem Counts.expires_iff (hg : g.Counts) (hrun : g.sender.timer.isTimerRunning = true)
    (ms : UInt64) : g.sender.timer.expires ms.toNat = true ↔
      g.sender.timer.timeout ≤ (g.elapsed + ms.toNat) % 2 ^ 64 := by
  have hcount : (g.sender.timer.elapse ms.toNat).msSinceBaseSegSent
      = (g.elapsed + ms.toNat) % 2 ^ 64 := by
    show (g.sender.timer.msSinceBaseSegSent + ms.toNat) % 2 ^ 64 = _
    rw [hg hrun]
    omega
  simp [Timer.expires, hrun, hcount]

/-- **The timer watches over what is in flight**: at a tick, if and only if the time that passed
is noticed. -/
theorem alarms_iff (hg : g.Counts) (ht : g.sender.Tracks data) (hs : g.sender.Sized)
    (hdeque : g.sender.unAckQueue.unAcked.length ≤ TCPSender.dequeMax) (junk : Nat → UInt8)
    (ms : UInt64) : g.Alarms junk ms ↔ g.Noticed ms := by
  have hflight := (ht.toSound.countsFlight_iff.mpr ht.base_le).flight_eq hdeque
  have hrunning : g.sender.timer.isTimerRunning = true ↔ 0 < g.sender.bytesInFlight := by
    rw [ht.running_iff, hflight]
    exact Nat.sub_pos_iff_lt.symm
  have htick := tick_timer ht junk ms.toNat
  constructor
  · -- a segment is repeated only when the timer expires
    intro halarms hrun hpassed
    obtain ⟨seg, hout, -⟩ := halarms.repeats (hrunning.mp hrun) hpassed
    rw [← hg.expires_iff hrun]
    rcases htick with ⟨hexp, -⟩ | ⟨-, hsame, -⟩
    · exact hexp
    · rw [hsame] at hout
      simp at hout
  · intro hnoticed
    refine ⟨hrunning, fun hpos hpassed => ?_, fun hzero => ?_⟩
    · have hrun := hrunning.mpr hpos
      have hexp := (hg.expires_iff hrun ms).mpr (hnoticed hrun hpassed)
      rcases htick with ⟨-, -, hout⟩ | ⟨hnot, -⟩
      · exact ⟨_, hout, hs.retransmitSeg_pos ht hrun junk⟩
      · exact absurd (hexp.symm.trans hnot) (by simp)
    · rcases htick with ⟨hexp, -⟩ | ⟨-, hsame, -⟩
      · have hrun := hrunning.mp (Timer.running_of_expires hexp)
        omega
      · exact hsame

end

/-! ## Runs -/

/-- **In every run with a conforming peer the timer watches over what is in flight**, at every
tick at which the time that passed is noticed, and only there. -/
theorem run_alarms_iff (junk : Nat → UInt8) (capacity : UInt64) (retxTimeout : UInt16)
    (isn : WrappingInt32) (ops : List SenderOp) (ms : UInt64)
    (hok : Run.Admits (step junk) (fun g op => g.sender.Conforming op)
      (new capacity retxTimeout isn) ops)
    (hdeque : (Run.run (step junk) (new capacity retxTimeout isn)
      ops).sender.unAckQueue.unAcked.length ≤ TCPSender.dequeMax) :
    (Run.run (step junk) (new capacity retxTimeout isn) ops).Alarms junk ms ↔
      (Run.run (step junk) (new capacity retxTimeout isn) ops).Noticed ms := by
  have hstep : ∀ (g : Watch) (op : SenderOp),
      ((∃ data, g.sender.Tracks data) ∧ g.sender.Sized ∧ g.Counts) → g.sender.Conforming op →
      ((∃ data, (g.step junk op).sender.Tracks data) ∧ (g.step junk op).sender.Sized ∧
        (g.step junk op).Counts) := by
    rintro g op ⟨⟨data, ht⟩, hs, hg⟩ hop
    exact ⟨⟨_, ht.step junk hop⟩, hs.step ht junk op, hg.step ht junk op⟩
  have hnew : ((∃ data, (new capacity retxTimeout isn).sender.Tracks data) ∧
      (new capacity retxTimeout isn).sender.Sized ∧ (new capacity retxTimeout isn).Counts) :=
    ⟨⟨[], TCPSender.tracks_new capacity retxTimeout isn⟩,
      TCPSender.sized_new capacity retxTimeout isn, fun hrun => absurd hrun Bool.false_ne_true⟩
  obtain ⟨⟨data, ht⟩, hs, hg⟩ := Run.run_invariant hstep hnew hok
  exact alarms_iff hg ht hs hdeque junk ms

/-- The SYN is repeated after a second. -/
theorem syn_alarms :
    (Run.run (step fun _ => 0) (new 64000 1000 ⟨0⟩) [.fillWindow]).Alarms (fun _ => 0) 1000 := by
  refine (run_alarms_iff (fun _ => 0) 64000 1000 ⟨0⟩ [.fillWindow] 1000 ⟨trivial, trivial⟩
    (by decide +kernel)).mpr ?_
  unfold Noticed
  decide +kernel

/-- After one millisecond and another `2 ^ 64 - 1` the count of the timer is zero. -/
theorem syn_not_alarms :
    ¬(Run.run (step fun _ => 0) (new 64000 1000 ⟨0⟩) [.fillWindow, .tick 1]).Alarms (fun _ => 0)
      0xffffffffffffffff := by
  intro halarms
  obtain ⟨seg, hout, -⟩ := halarms.repeats (by decide +kernel) (by decide +kernel)
  have hlength := congrArg List.length hout
  rw [List.length_append, List.length_singleton] at hlength
  exact absurd hlength (by decide +kernel)

end Watch

end Sponge
