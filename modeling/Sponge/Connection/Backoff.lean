import Sponge.Connection.ZeroWindow

set_option autoImplicit false

/-! # Exponential backoff

The timeout is doubled at every retransmission, unless the window that the peer advertised last
is zero, and it has no cap of its own. `Backoff` counts the doublings since the timer was
restarted. The timeout is always the configured one times a power of two, and it does not wrap
around its 32 bits, because the connection gives up after a few retransmissions. -/

namespace Sponge

open Word Run

namespace TCPSender

/-- The sender has doubled the timeout `rt` for `k` times since its timer was restarted, and
goes on to do so or not. -/
structure BacksOff (rt k : Nat) (b : Bool) (s : TCPSender) : Prop where
  sound : ∃ data, s.Sound data
  rests : s.FinRests
  initial_eq : s.timer.initialRetransmissionTimeout = rt
  timeout_eq : s.timer.timeout = rt * 2 ^ k
  le_count : k ≤ s.timer.consecutiveRetransmissions
  double_eq : s.timer.doubleTimeout = b

section

variable {s : TCPSender} {rt k : Nat} {b : Bool}

/-- Nothing is doubled while the timer does not run. -/
theorem BacksOff.eq_zero (h : s.BacksOff rt k b) (hidle : s.timer.isTimerRunning = false) :
    k = 0 := by
  obtain ⟨data, hs⟩ := h.sound
  have hcount : s.timer.stopTimer.consecutiveRetransmissions = 0 := rfl
  rw [hs.idle hidle] at hcount
  have hle := h.le_count
  omega

theorem BacksOff.segmentsOut (h : s.BacksOff rt k b) (segs : List TCPSegment) :
    { s with segmentsOut := segs }.BacksOff rt k b := by
  obtain ⟨data, hs⟩ := h.sound
  exact ⟨⟨data, hs.segmentsOut segs⟩, h.rests, h.initial_eq, h.timeout_eq, h.le_count, h.double_eq⟩

theorem BacksOff.setError (h : s.BacksOff rt k b) :
    { s with stream := s.stream.setError }.BacksOff rt k b := by
  obtain ⟨data, hs⟩ := h.sound
  exact ⟨⟨data, hs.setError⟩, h.rests, h.initial_eq, h.timeout_eq, h.le_count, h.double_eq⟩

theorem BacksOff.sends (h : s.BacksOff rt k b) {s' : TCPSender} {seg : TCPSegment}
    (hs : s.Sends s' seg) : s'.BacksOff rt k b := by
  obtain ⟨data, hsound⟩ := h.sound
  have hpace := hs.pace_eq hsound
  simp only [pace, Prod.mk.injEq] at hpace
  obtain ⟨htimeout, hcount, hdouble⟩ := hpace
  refine ⟨⟨data, hsound.sends hs⟩, fun hfin => absurd hfin (by simp [hs.finAcked_eq]), ?_, ?_, ?_, ?_⟩
  · -- the timer may have been started by the segment
    rw [hs.timer_eq]
    split_ifs
    · exact h.initial_eq
    · exact h.initial_eq
  · rw [htimeout]; exact h.timeout_eq
  · rw [hcount]; exact h.le_count
  · rw [hdouble]; exact h.double_eq

theorem BacksOff.fillWindow (h : s.BacksOff rt k b) : s.fillWindow.BacksOff rt k b := by
  refine fillWindow_rule (P := BacksOff rt k b) (fun _ h' => ?_) (fun _ _ _ h' hs => h'.sends hs) h
  obtain ⟨data, hs⟩ := h'.sound
  exact ⟨data, hs.carries⟩

/-- An acknowledgment that is used restarts the timer or stops it; one that is ignored only
brings a window. -/
theorem BacksOff.ackReceived (h : s.BacksOff rt k b) (ackno : WrappingInt32) (w : UInt16) :
    (s.ackReceived ackno w).BacksOff rt (if s.Ignores (s.absAckno ackno) then k else 0)
      (w != 0) := by
  obtain ⟨data, hs⟩ := h.sound
  have hsound := hs.ackReceived ackno w
  have hrests := h.rests.ackReceived ackno w
  rw [ackReceived_eq] at hsound hrests ⊢
  split_ifs at hsound hrests ⊢ with hign
  · -- ignored: nothing but the flag of the window is new
    exact ⟨⟨data, hsound⟩, hrests, h.initial_eq, h.timeout_eq, h.le_count, rfl⟩
  · refine ⟨⟨data, hsound⟩, hrests, ?_, ?_, Nat.zero_le _, ?_⟩
    · show (restarted _ _).initialRetransmissionTimeout = rt
      unfold restarted
      split_ifs <;> exact h.initial_eq
    · show (restarted _ _).timeout = rt * 2 ^ 0
      unfold restarted
      rw [pow_zero, Nat.mul_one]
      split_ifs <;> exact h.initial_eq
    · show (restarted _ _).doubleTimeout = (w != 0)
      unfold restarted
      split_ifs <;> rfl

theorem tick_initial (junk : Nat → UInt8) (s : TCPSender) (ms : Nat) :
    (s.tick junk ms).timer.initialRetransmissionTimeout
      = s.timer.initialRetransmissionTimeout := by
  rw [tick_eq]
  split_ifs with hexp hrun
  · by_cases hfin : s.unAckQueue.finAcked = true
    · unfold timeoutRetransmit
      rw [if_pos hfin]
      rfl
    · obtain ⟨q, heq, -⟩ := timeoutRetransmit_frame junk { s with timer := s.timer.elapse ms }
        (by simpa using hfin)
      rw [heq]
      rfl
  · rfl
  · rfl

/-- A timeout doubles, unless the last window was zero. -/
theorem BacksOff.tick (h : s.BacksOff rt k b) (hrt : rt < 2 ^ 16)
    (hcount : s.timer.consecutiveRetransmissions ≤ TCPConfig.maxRetxAttempts)
    (junk : Nat → UInt8) (ms : Nat) :
    (s.tick junk ms).BacksOff rt (if s.timer.expires ms = true ∧ b = true then k + 1 else k) b := by
  obtain ⟨data, hs⟩ := h.sound
  have hsound : ∃ data, (s.tick junk ms).Sound data := ⟨data, hs.tick junk ms⟩
  have hrests := h.rests.tick junk ms
  have hpace := h.rests.tick_pace junk ms
  have hinitial : (s.tick junk ms).timer.initialRetransmissionTimeout = rt :=
    (tick_initial junk s ms).trans h.initial_eq
  by_cases hexp : s.timer.expires ms = true
  · rw [if_pos hexp] at hpace
    simp only [pace, Prod.mk.injEq] at hpace
    obtain ⟨htimeout, hcount', hdouble⟩ := hpace
    have hdouble' : s.timer.retransmitted.doubleTimeout = b := h.double_eq
    have hnext : s.timer.retransmitted.consecutiveRetransmissions
        = s.timer.consecutiveRetransmissions + 1 := by
      unfold TCPConfig.maxRetxAttempts at hcount
      exact Nat.mod_eq_of_lt (by omega)
    refine ⟨hsound, hrests, hinitial, ?_, ?_, hdouble.trans hdouble'⟩
    · -- a power that the attempts allow leaves the product below `2 ^ 32`
      rw [htimeout]
      have hk : k ≤ 8 := h.le_count.trans hcount
      have hlt : rt * 2 ^ k * 2 < 2 ^ 32 := by
        have hpow : 2 ^ k ≤ 2 ^ 8 := Nat.pow_le_pow_right (by norm_num) hk
        calc rt * 2 ^ k * 2 ≤ rt * 2 ^ 8 * 2 := by gcongr
          _ < 2 ^ 16 * 2 ^ 8 * 2 := by omega
          _ < 2 ^ 32 := by norm_num
      show (if s.timer.doubleTimeout then s.timer.timeout * 2 % 2 ^ 32 else s.timer.timeout) = _
      rw [h.double_eq, h.timeout_eq]
      cases b with
      | false => simp [hexp]
      | true => rw [if_pos rfl, if_pos ⟨hexp, rfl⟩, Nat.mod_eq_of_lt hlt, pow_succ, Nat.mul_assoc]
    · rw [hcount', hnext]
      have hle := h.le_count
      split_ifs <;> omega
  · rw [if_neg hexp] at hpace
    simp only [pace, Prod.mk.injEq] at hpace
    obtain ⟨htimeout, hcount', hdouble⟩ := hpace
    rw [if_neg (fun hc => hexp hc.1)]
    exact ⟨hsound, hrests, hinitial, htimeout.trans h.timeout_eq, hcount' ▸ h.le_count,
      hdouble.trans h.double_eq⟩

end

end TCPSender

/-! ## Connections -/

/-- A connection with the window that its peer has advertised most recently, and the number of
timeouts that have doubled the timeout since the timer was restarted. -/
structure Backoff where
  watched : Watched
  doublings : Nat := 0

namespace TCPConnection

/-- The timer does not run, or is restarted by an acknowledgment that is used. -/
def restartsTimer (c : TCPConnection) : ConnectionOp → Bool
  | .segmentReceived seg => !c.sender.timer.isTimerRunning ||
      (c.takesAck seg && !decide (c.sender.Ignores (c.sender.absAckno seg.header.ackno)))
  | _ => !c.sender.timer.isTimerRunning

section

variable {c : TCPConnection} {rt k : Nat} {b : Bool}

theorem stable_backsOff (rt k : Nat) (b : Bool) :
    Stable (fun c => c.sender.BacksOff rt k b) where
  flags := fun _ _ _ _ _ h => h
  fillWindow := fun _ h => h.fillWindow
  sendEmptySegment := fun _ h => h.segmentsOut _
  updateOutput := fun _ h => h.segmentsOut _
  uncleanShutdown := fun _ h => h.setError

/-- An incoming segment. -/
theorem segmentReceived_backsOff (h : c.sender.BacksOff rt k b) (seg : TCPSegment) :
    (c.segmentReceived seg).sender.BacksOff rt
      (if c.takesAck seg = true ∧ ¬c.sender.Ignores (c.sender.absAckno seg.header.ackno) then 0
        else k)
      ((c.advertised (.segmentReceived seg)).elim b (· != 0)) := by
  have hadv : c.advertised (.segmentReceived seg)
      = if c.takesAck seg then some seg.header.win else none := rfl
  by_cases htakes : c.takesAck seg = true
  · rw [hadv, if_pos htakes]
    refine takenAck_rule (stable_backsOff rt k b) (stable_backsOff rt _ _) (fun h' => h') htakes ?_ h
    rintro c' h' ⟨segs, hsender⟩
    -- the sender has queued segments at most before it gets the acknowledgment
    have hack := h'.ackReceived seg.header.ackno seg.header.win
    have hign : c'.sender.Ignores (c'.sender.absAckno seg.header.ackno) ↔
        c.sender.Ignores (c.sender.absAckno seg.header.ackno) := by
      rw [hsender]
      exact Iff.rfl
    have hk : (if c.takesAck seg = true ∧ ¬c.sender.Ignores (c.sender.absAckno seg.header.ackno)
        then 0 else k)
          = if c'.sender.Ignores (c'.sender.absAckno seg.header.ackno) then k else 0 := by
      simp only [htakes, true_and, ite_not, hign]
    rw [hk]
    exact hack
  · rw [hadv, if_neg htakes, if_neg (fun hc => htakes hc.1)]
    exact segmentReceived_rule (stable_backsOff rt k b) (fun h' => h')
      (fun htakes' => absurd htakes' htakes) h

/-- Time. -/
theorem tick_backsOff (h : c.sender.BacksOff rt k b) (hrt : rt < 2 ^ 16)
    (htrying : c.active = true → c.Trying) (junk : Nat → UInt8) (ms : UInt64) :
    (c.tick junk ms.toNat).sender.BacksOff rt
      (if c.timesOut (.tick ms) = true ∧ b = true then k + 1 else k) b := by
  by_cases hactive : c.active = true
  · obtain ⟨p, hp, hle⟩ := htrying hactive
    have hcount : c.sender.timer.consecutiveRetransmissions ≤ TCPConfig.maxRetxAttempts := by
      rwa [← hp.paced.pace_eq] at hle
    have hout : c.timesOut (.tick ms) = c.sender.timer.expires ms.toNat := by
      simp [timesOut, hactive]
    have hticked := (h.tick hrt hcount junk ms.toNat).segmentsOut []
    rw [← hout] at hticked
    -- giving up and closing leave the timer alone
    rw [tick_eq junk ms.toNat hactive]
    generalize (if c.timesOut (.tick ms) = true ∧ b = true then k + 1 else k) = k' at hticked ⊢
    split_ifs with hretx hlinger
    · have hrst : (c.ticked junk ms.toNat).sendRSTSeg.sender.BacksOff rt k' b := by
        rw [sendRSTSeg_sender]
        exact hticked
      exact hrst.setError
    · exact hticked
    · exact hticked
  · have hout : c.timesOut (.tick ms) = false := by simp [timesOut, hactive]
    rw [tick_of_inactive junk ms.toNat (by simpa using hactive), hout]
    simpa using h

/-- The calls of the owner. -/
theorem other_backsOff (h : c.sender.BacksOff rt k b) (junk : Nat → UInt8) {op : ConnectionOp}
    (htick : ∀ ms, op ≠ .tick ms) (hseg : ∀ seg, op ≠ .segmentReceived seg) :
    (c.step junk op).sender.BacksOff rt k b := by
  have hst := stable_backsOff rt k b
  obtain ⟨data, hs⟩ := h.sound
  cases op with
  | connect => exact hst.fill (c := c) h
  | write d =>
      show (c.write d).1.sender.BacksOff rt k b
      unfold TCPConnection.write
      split_ifs
      · exact h
      · exact hst.fill (c := c.onSender _) ⟨⟨_, hs.write d⟩, h.rests, h.initial_eq, h.timeout_eq,
          h.le_count, h.double_eq⟩
  | endInputStream =>
      exact hst.fill (c := c.onSender _) ⟨⟨data, hs.endStream⟩, h.rests, h.initial_eq,
        h.timeout_eq, h.le_count, h.double_eq⟩
  | tick ms => exact absurd rfl (htick ms)
  | segmentReceived seg => exact absurd rfl (hseg seg)
  | readInbound len => exact h
  | popSegment => exact h

/-- The tick that uses up the attempts ends the connection. -/
theorem tick_givesUp (junk : Nat → UInt8) (ms : Nat) (hactive : c.active = true)
    (hover : TCPConfig.maxRetxAttempts < (c.tick junk ms).sender.consecutiveRetransmissions) :
    (c.tick junk ms).active = false ∧ (c.tick junk ms).Failed := by
  rw [tick_eq junk ms hactive] at hover ⊢
  split_ifs at hover ⊢ with hretx hlinger
  · exact ⟨rfl, failed_uncleanShutdown _⟩
  · exact absurd hover hretx
  · exact absurd hover hretx

end

end TCPConnection

namespace Backoff

def new (cfg : TCPConfig) (isn : WrappingInt32) : Backoff := { watched := Watched.new cfg isn }

/-- A timeout counts unless the last window that was advertised is zero; the count starts again
when the timer does. -/
def step (junk : Nat → UInt8) (g : Backoff) (op : ConnectionOp) : Backoff :=
  { watched := g.watched.step junk op
    doublings :=
      if g.watched.conn.timesOut op then
        if g.watched.window = some 0 then g.doublings else g.doublings + 1
      else if g.watched.conn.restartsTimer op then 0
      else g.doublings }

/-- The flag that a window sets: the timeout is doubled unless the window is zero. -/
def doubles (window : Option UInt16) : Bool := window.elim true (· != 0)

theorem doubles_iff (window : Option UInt16) : doubles window = true ↔ window ≠ some 0 := by
  cases window with
  | none => simp [doubles]
  | some w => simp [doubles]

/-- The invariant: the sender has backed off as often as was counted, and an active connection
has attempts left. -/
structure Counted (rt : Nat) (g : Backoff) : Prop where
  backsOff : g.watched.conn.sender.BacksOff rt g.doublings (doubles g.watched.window)
  trying : g.watched.conn.active = true → g.watched.conn.Trying

section

variable {rt : Nat} {g : Backoff}

/-- Starting the count again while the timer does not run changes nothing. -/
theorem Counted.idle_eq (h : g.Counted rt) :
    (if (!g.watched.conn.sender.timer.isTimerRunning) = true then 0 else g.doublings)
      = g.doublings := by
  cases hrun : g.watched.conn.sender.timer.isTimerRunning with
  | false => exact (h.backsOff.eq_zero hrun).symm
  | true => rfl

theorem Counted.tick (h : g.Counted rt) (hrt : rt < 2 ^ 16) (junk : Nat → UInt8) (ms : UInt64) :
    (g.watched.conn.tick junk ms.toNat).sender.BacksOff rt (g.step junk (.tick ms)).doublings
      (doubles g.watched.window) := by
  have htick := TCPConnection.tick_backsOff h.backsOff hrt h.trying junk ms
  have hcount : (g.step junk (.tick ms)).doublings
      = if g.watched.conn.timesOut (.tick ms) = true ∧ doubles g.watched.window = true
        then g.doublings + 1 else g.doublings := by
    simp only [Backoff.step, TCPConnection.restartsTimer, doubles_iff]
    by_cases hout : g.watched.conn.timesOut (.tick ms) = true
    · by_cases hzero : g.watched.window = some 0
      · simp [hout, hzero]
      · simp [hout, hzero]
    · simp only [hout, Bool.false_eq_true, false_and, if_false]
      exact h.idle_eq
  rwa [hcount]

theorem Counted.segmentReceived (h : g.Counted rt) (junk : Nat → UInt8) (seg : TCPSegment) :
    (g.watched.conn.segmentReceived seg).sender.BacksOff rt
      (g.step junk (.segmentReceived seg)).doublings
      (doubles (g.step junk (.segmentReceived seg)).watched.window) := by
  have hseg := TCPConnection.segmentReceived_backsOff h.backsOff seg
  have hidle := h.backsOff.eq_zero
  have hwindow : doubles (g.step junk (.segmentReceived seg)).watched.window
      = (g.watched.conn.advertised (.segmentReceived seg)).elim
          (doubles g.watched.window) (· != 0) := by
    show doubles ((g.watched.conn.advertised (.segmentReceived seg)).or g.watched.window) = _
    cases g.watched.conn.advertised (.segmentReceived seg) <;> rfl
  have hcount : (g.step junk (.segmentReceived seg)).doublings
      = if g.watched.conn.takesAck seg = true ∧
          ¬g.watched.conn.sender.Ignores (g.watched.conn.sender.absAckno seg.header.ackno)
        then 0 else g.doublings := by
    have hout : g.watched.conn.timesOut (.segmentReceived seg) = false := rfl
    simp only [Backoff.step, TCPConnection.restartsTimer, hout, Bool.false_eq_true, if_false,
      Bool.or_eq_true, Bool.and_eq_true, Bool.not_eq_true', decide_eq_false_iff_not]
    -- with a timer that does not run the count is zero already
    by_cases hrun : g.watched.conn.sender.timer.isTimerRunning = true
    · simp [hrun]
    · simp [hidle (by simpa using hrun)]
  rw [hwindow, hcount]
  exact hseg

/-- **What a call preserves.** -/
theorem Counted.step (h : g.Counted rt) (hrt : rt < 2 ^ 16) (junk : Nat → UInt8)
    (op : ConnectionOp) : (g.step junk op).Counted rt := by
  refine ⟨?_, TCPConnection.Trying.step h.trying junk op⟩
  cases op using ConnectionOp.kindCases with
  | tick ms => exact h.tick hrt junk ms
  | segmentReceived seg => exact h.segmentReceived junk seg
  | owner op htick hseg =>
      have hsame : (g.step junk op).doublings = g.doublings ∧
          (g.step junk op).watched.window = g.watched.window := by
        cases op with
        | tick ms => exact absurd rfl (htick ms)
        | segmentReceived seg => exact absurd rfl (hseg seg)
        | connect | write d | endInputStream | readInbound len | popSegment =>
            exact ⟨h.idle_eq, rfl⟩
      rw [hsame.1, hsame.2]
      exact TCPConnection.other_backsOff h.backsOff junk htick hseg

end

/-! ## Runs -/

theorem run_counted (junk : Nat → UInt8) (cfg : TCPConfig) (isn : WrappingInt32)
    (ops : List ConnectionOp) :
    (run (step junk) (new cfg isn) ops).Counted cfg.rtTimeout.toNat := by
  refine run_invariant' (fun g op h => h.step cfg.rtTimeout.toNat_lt junk op) ⟨?_, fun _ => ?_⟩ ops
  · exact ⟨⟨[], TCPSender.sound_new _ _ _⟩, fun hfin => absurd hfin Bool.false_ne_true, rfl,
      (Nat.mul_one _).symm, Nat.zero_le _, rfl⟩
  · exact Watched.run_trying junk cfg isn [] rfl

/-- **Backoff without overflow.** In every state the timeout is the configured one times a power
of two, with an exponent that is at most the number of retransmissions, which is at most the
number of attempts while the connection is active; and the tick that uses up the attempts ends
the connection with both streams in error. -/
theorem run_backoff (junk : Nat → UInt8) (cfg : TCPConfig) (isn : WrappingInt32)
    (ops : List ConnectionOp) (g : Backoff) (hg : g = run (step junk) (new cfg isn) ops) :
    g.watched.conn.sender.timer.timeout = cfg.rtTimeout.toNat * 2 ^ g.doublings ∧
    (g.watched.conn.active = true →
      g.doublings ≤ g.watched.conn.sender.consecutiveRetransmissions ∧
      g.watched.conn.sender.consecutiveRetransmissions ≤ TCPConfig.maxRetxAttempts) ∧
    ∀ ms : UInt64, g.watched.conn.active = true →
      TCPConfig.maxRetxAttempts
        < (g.watched.conn.tick junk ms.toNat).sender.consecutiveRetransmissions →
      (g.watched.conn.tick junk ms.toNat).active = false ∧
        (g.watched.conn.tick junk ms.toNat).Failed := by
  have h := run_counted junk cfg isn ops
  rw [← hg] at h
  refine ⟨h.backsOff.timeout_eq, fun hactive => ⟨h.backsOff.le_count, ?_⟩,
    fun ms hactive hover => TCPConnection.tick_givesUp junk ms.toNat hactive hover⟩
  obtain ⟨p, hp, hle⟩ := h.trying hactive
  rwa [← hp.paced.pace_eq] at hle

/-- A SYN that is sent three times. -/
theorem syn_backoff :
    let g := run (step fun _ => 0) (new {} ⟨0⟩) [.connect, .tick 1000, .tick 2000]
    g.doublings = 2 ∧ g.watched.conn.sender.timer.timeout = 1000 * 2 ^ 2 := by
  intro g
  have hcount : g.doublings = 2 := by decide +kernel
  have htimeout := (run_backoff (fun _ => 0) {} ⟨0⟩ _ g rfl).1
  rw [hcount] at htimeout
  exact ⟨hcount, htimeout⟩

end Backoff

end Sponge
