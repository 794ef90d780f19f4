import Sponge.Connection.Shutdown

set_option autoImplicit false

/-! # A finished connection goes away

When the inbound stream has ended and the FIN is acknowledged, a connection that does not
linger is over, and one that lingers is over after the linger time. This holds as long as the
inbound stream ends in the branch of `segment_received` that sets the closing flags, and the
last acknowledgment arrives in the one that tests them. -/

namespace Sponge

open Word

namespace TCPConnection

/-- A segment does not bypass the closing flags: neither a SYN segment nor an out-of-order one
completes the inbound stream, and without lingering no out-of-order segment acknowledges the
FIN. -/
def EndsInOrder (c : TCPConnection) : ConnectionOp → Prop
  | .segmentReceived seg => c.active = true →
      (c.receiver.ackno = none → seg.header.rst = false → seg.header.syn = true →
        (c.receiver.segmentReceived seg).streamOut.inputEnded = false) ∧
      (c.outOfOrder seg = true → c.receiver.streamOut.inputEnded = false →
        (c.receiver.segmentReceived seg).streamOut.inputEnded = false) ∧
      (c.outOfOrder seg = true → c.lingerAfterStreamsFinish = false → seg.header.ack = true →
        c.sender.unAckQueue.finSent = true →
        c.sender.absAckno seg.header.ackno ≠ c.sender.unAckQueue.nextSeqno)
  | _ => True

instance decidableEndsInOrder (c : TCPConnection) : ∀ op, Decidable (c.EndsInOrder op)
  | .segmentReceived _ => inferInstanceAs (Decidable (_ → _ ∧ _ ∧ _))
  | .connect | .write _ | .endInputStream | .tick _ | .readInbound _ | .popSegment => .isTrue trivial

/-- The invariant behind the end: an active connection whose inbound stream has ended waits for
the acknowledgment of its FIN or for the linger time. -/
structure Finishing (c : TCPConnection) : Prop where
  sender : ∃ data, c.sender.Sound data
  linger_ended : c.lingerAfterStreamsFinish = false → c.Ended
  unacked : c.active = true → c.Ended → c.lingerAfterStreamsFinish = false →
    c.sender.unAckQueue.finAcked = false
  waiting : c.active = true → c.Ended → c.lingerAfterStreamsFinish = true → c.timeWait = true
  time_lt : c.active = true → c.timeWait = true →
    c.timeSinceLastSegmentReceived < c.lingerTimeout ∨ c.timeSinceLastSegmentReceived = 0

theorem finishing_new (cfg : TCPConfig) (isn : WrappingInt32) : (new cfg isn).Finishing where
  sender := ⟨[], TCPSender.sound_new _ _ _⟩
  linger_ended := fun h => absurd h (by simp [new])
  unacked := fun _ h => absurd h (by simp [Ended, new, TCPReceiver.new, TCPReceiver.streamOut,
    StreamReassembler.new, ByteStream.new, ByteStream.inputEnded])
  waiting := fun _ h => absurd h (by simp [Ended, new, TCPReceiver.new, TCPReceiver.streamOut,
    StreamReassembler.new, ByteStream.new, ByteStream.inputEnded])
  time_lt := fun _ h => absurd h (by simp [new])

section

variable {c : TCPConnection} {seg : TCPSegment}

/-! ## The acknowledgment of the FIN -/

theorem senderStable_finAcked (b : Bool) :
    SenderStable (fun s => (∃ data, s.Sound data) ∧ s.unAckQueue.finAcked = b) :=
  senderStable_queue (R := fun q => q.finAcked = b)
    (fun _ _ _ hs hb => hs.finAcked_eq.trans (hs.finAcked_before.symm.trans hb)) (fun _ hb => hb)

/-- Only a segment with the acknowledgment of the FIN changes whether it is acknowledged. -/
theorem step_finAcked (junk : Nat → UInt8) (op : ConnectionOp)
    (hs : ∃ data, c.sender.Sound data)
    (hack : ∀ seg, op = .segmentReceived seg → c.takesAck seg = true →
      ¬(c.sender.unAckQueue.finSent = true ∧
        c.sender.absAckno seg.header.ackno = c.sender.unAckQueue.nextSeqno)) :
    (c.step junk op).sender.unAckQueue.finAcked = c.sender.unAckQueue.finAcked := by
  refine (sender_rule (senderStable_finAcked c.sender.unAckQueue.finAcked) junk ?_ ⟨hs, rfl⟩).2
  rintro seg segs hop htakes ⟨⟨data, h⟩, heq⟩
  refine ⟨⟨data, h.ackReceived _ _⟩, Eq.trans ?_ heq⟩
  exact TCPSender.ackReceived_finAcked (hack seg hop htakes)

/-- In CLOSE_WAIT and LAST_ACK, a connection that is still active waits for its FIN to be
acknowledged. -/
theorem finRecvReceived_unacked (hs : ∃ data, c.sender.Sound data)
    (hlinger : c.lingerAfterStreamsFinish = false) (hfin : c.sender.unAckQueue.finAcked = false)
    (hactive : (c.finRecvReceived seg).active = true) :
    (c.finRecvReceived seg).sender.unAckQueue.finAcked = false := by
  unfold finRecvReceived at hactive ⊢
  by_cases hsyn : seg.header.syn = true
  · rwa [if_pos hsyn]
  · rw [if_neg hsyn, if_pos (by simp [hlinger])] at hactive ⊢
    obtain ⟨⟨data, hs₁⟩, hfin₁⟩ : (∃ data, (c.onlyIf seg.header.fin reply).sender.Sound data) ∧
        (c.onlyIf seg.header.fin reply).sender.unAckQueue.finAcked = false :=
      onlyIf_rule
        (P := fun c => (∃ data, c.sender.Sound data) ∧ c.sender.unAckQueue.finAcked = false)
        ⟨hs, hfin⟩ (fun _ h => (senderStable_finAcked false).stable.reply h)
    -- a repeated FIN is answered first, which acknowledges nothing
    generalize c.onlyIf seg.header.fin reply = c₁ at *
    unfold onlyIf at hactive ⊢
    split_ifs at hactive ⊢ with hack
    · dsimp only at hactive ⊢
      unfold closeOrFill at hactive ⊢
      split_ifs at hactive ⊢ with hacked
      · exact absurd hactive (by simp [cleanShutdown])
      · have hs₂ := hs₁.ackReceived seg.header.ackno seg.header.win
        exact (TCPSender.fillWindow_finAcked hs₂).trans (Bool.eq_false_iff.mpr hacked)
    · exact hfin₁

/-! ## The invariant -/

/-- A segment that leaves the flags and the end of the inbound stream as they are. -/
theorem Finishing.of_flags {c' : TCPConnection} (h : c.Finishing)
    (hs : ∃ data, c'.sender.Sound data) (hf : c'.flags = c.received.flags)
    (hended : c'.Ended ↔ c.Ended)
    (hfin : c.active = true → c.Ended → c.lingerAfterStreamsFinish = false →
      c'.sender.unAckQueue.finAcked = false) : c'.Finishing := by
  have hlinger : c'.lingerAfterStreamsFinish = c.lingerAfterStreamsFinish :=
    congrArg Flags.linger hf
  have hactive : c'.active = c.active := congrArg Flags.active hf
  have htw : c'.timeWait = c.timeWait := congrArg Flags.timeWait hf
  have htime : c'.timeSinceLastSegmentReceived = 0 := congrArg Flags.time hf
  refine ⟨hs, ?_, ?_, ?_, fun _ _ => Or.inr htime⟩
  · rw [hlinger, hended]
    exact h.linger_ended
  · rw [hactive, hended, hlinger]
    exact hfin
  · rw [hactive, hended, hlinger, htw]
    exact h.waiting

/-- A connection that is over has nothing to wait for. -/
theorem Finishing.of_inactive {c' : TCPConnection} (hs : ∃ data, c'.sender.Sound data)
    (hlinger : c'.lingerAfterStreamsFinish = false → c'.Ended) (hend : c'.active = false) :
    c'.Finishing where
  sender := hs
  linger_ended := hlinger
  unacked := fun hactive => absurd (hend.symm.trans hactive) (by simp)
  waiting := fun hactive => absurd (hend.symm.trans hactive) (by simp)
  time_lt := fun hactive => absurd (hend.symm.trans hactive) (by simp)

/-- The inbound stream ends in the branch that sets the closing flags. -/
theorem Finishing.synRecvReceived (h : c.Finishing) (hopen : ¬c.Ended)
    (hs : ∃ data, (c.received.synRecvReceived seg).sender.Sound data) :
    (c.received.synRecvReceived seg).Finishing := by
  have hlinger : c.lingerAfterStreamsFinish = true := by
    by_contra hl
    exact hopen (h.linger_ended (by simpa using hl))
  obtain ⟨data, hs'⟩ := hs
  rcases synRecvReceived_flags (c := c.received) seg hopen with ⟨hopen', hf⟩ | ⟨hended, hfin, hf⟩ |
      ⟨hended, -, hf⟩
  · exact h.of_flags ⟨data, hs'⟩ hf ⟨fun hc => absurd hc hopen', fun hc => absurd hc hopen⟩
      (fun _ hc => absurd hc hopen)
  · -- the peer ends its stream first: CLOSE_WAIT
    have hlinger' : (c.received.synRecvReceived seg).lingerAfterStreamsFinish = false :=
      congrArg Flags.linger hf
    refine ⟨⟨data, hs'⟩, fun _ => hended, fun _ _ _ => ?_,
      fun _ _ hl => absurd (hlinger'.symm.trans hl) (by simp),
      fun _ _ => Or.inr (congrArg Flags.time hf)⟩
    by_contra hacked
    exact absurd (hs'.fin_sent (by simpa using hacked)) (by simp [hfin])
  · -- the own FIN was sent first
    have hlinger' : (c.received.synRecvReceived seg).lingerAfterStreamsFinish = true :=
      (congrArg Flags.linger hf).trans hlinger
    exact ⟨⟨data, hs'⟩, fun _ => hended,
      fun _ _ hl => absurd (hlinger'.symm.trans hl) (by simp),
      fun _ _ _ => congrArg Flags.timeWait hf, fun _ _ => Or.inr (congrArg Flags.time hf)⟩

theorem Finishing.segmentReceived (h : c.Finishing) (junk : Nat → UInt8)
    (hop : c.EndsInOrder (.segmentReceived seg)) (hactive : c.active = true) :
    (c.segmentReceived seg).Finishing := by
  obtain ⟨hlisten, hout, hlate⟩ := hop hactive
  have hs' : ∃ data, (c.segmentReceived seg).sender.Sound data :=
    sound_step junk (.segmentReceived seg) h.sender
  have hended' : c.Ended → (c.segmentReceived seg).Ended :=
    fun hc => hc.step junk (.segmentReceived seg)
  rcases segmentReceived_cases seg hactive with ⟨hooo, hf, hr⟩ | ⟨-, heq⟩ | ⟨hended, heq⟩ |
      ⟨hopen, hnone, hrst, hsyn, hf, hr⟩ | ⟨hopen, heq⟩ | ⟨hopen, heq⟩
  · -- out of order: neither the stream nor the FIN is completed here
    refine h.of_flags hs' hf ⟨fun hc => ?_, hended'⟩ (fun _ hc hlinger => ?_)
    · by_contra hopen
      have hnot := hout hooo (by simpa [Ended] using hopen)
      unfold Ended at hc
      rw [hr, hnot] at hc
      exact absurd hc (by simp)
    · refine Eq.trans ?_ (h.unacked hactive hc hlinger)
      apply step_finAcked junk (.segmentReceived seg) h.sender
      rintro seg' hseg htakes ⟨hfin, habs⟩
      obtain rfl : seg = seg' := by simpa using hseg
      exact hlate hooo hlinger (takesAck_iff.mp htakes).2.1 hfin habs
  · refine Finishing.of_inactive hs' (fun hl => ?_) (congrArg TCPConnection.active heq)
    rw [heq] at hl
    exact hended' (h.linger_ended hl)
  · rw [heq] at hs' hended' ⊢
    obtain ⟨hr, hf | ⟨hf, hlinger, -⟩⟩ := finRecvReceived_flags c.received seg
    · apply h.of_flags hs' hf ⟨fun _ => hended, hended'⟩
      intro _ _ hlinger
      exact finRecvReceived_unacked (c := c.received) h.sender hlinger
        (h.unacked hactive hended hlinger) ((congrArg Flags.active hf).trans hactive)
    · exact Finishing.of_inactive hs' (fun _ => hended' hended) (congrArg Flags.active hf)
  · -- a SYN segment that does not complete the stream
    have hopen' : ¬(c.segmentReceived seg).Ended := by
      unfold Ended
      rw [hr, hlisten hnone hrst hsyn]
      simp
    exact h.of_flags hs' hf ⟨fun hc => absurd hc hopen', fun hc => absurd hc hopen⟩
      (fun _ hc => absurd hc hopen)
  · rw [heq] at hs' ⊢
    exact h.of_flags hs' rfl Iff.rfl (fun _ hc => absurd hc hopen)
  · rw [heq] at hs' ⊢
    exact h.synRecvReceived hopen hs'

theorem Finishing.tick (h : c.Finishing) (junk : Nat → UInt8) (ms : UInt64)
    (hactive : c.active = true) : (c.step junk (.tick ms)).Finishing := by
  have hs' := sound_step junk (.tick ms) h.sender
  have hended := fun hc : c.Ended => hc.step junk (.tick ms)
  obtain ⟨-, hlinger, -⟩ := tick_flags c junk ms.toNat
  have hover : (c.step junk (.tick ms)).active = false → (c.step junk (.tick ms)).Finishing :=
    Finishing.of_inactive hs' (fun hl => hended (h.linger_ended (hlinger.symm.trans hl)))
  rcases tick_cases junk ms.toNat hactive with heq | ⟨-, -, heq⟩ | ⟨hwait, heq⟩
  · exact hover (congrArg TCPConnection.active heq)
  · exact hover (congrArg TCPConnection.active heq)
  · -- the linger time has not run out
    change c.step junk (.tick ms) = c.ticked junk ms.toNat at heq
    have hfin := step_finAcked junk (.tick ms) h.sender (fun _ hseg => absurd hseg (by simp))
    rw [heq] at hs' hfin ⊢
    refine ⟨hs', h.linger_ended, fun _ hc hl => hfin.trans (h.unacked hactive hc hl),
      fun _ hc hl => h.waiting hactive hc hl, fun _ htw => Or.inl ?_⟩
    have hnle : ¬c.lingerTimeout ≤ add64 c.timeSinceLastSegmentReceived ms.toNat :=
      fun hle => hwait ⟨htw, hle⟩
    exact Nat.lt_of_not_le hnle

/-- The operations that leave the flags and the inbound stream alone. -/
theorem Finishing.other (h : c.Finishing) (junk : Nat → UInt8) {op : ConnectionOp}
    (htick : ∀ ms, op ≠ .tick ms) (hseg : ∀ seg, op ≠ .segmentReceived seg) :
    (c.step junk op).Finishing := by
  obtain ⟨hf, hended⟩ := step_flags (c := c) junk op htick hseg
  have hfin := step_finAcked junk op h.sender (fun seg hop' => absurd hop' (hseg seg))
  have hlinger : (c.step junk op).lingerAfterStreamsFinish = c.lingerAfterStreamsFinish :=
    congrArg Flags.linger hf
  have hactive : (c.step junk op).active = c.active := congrArg Flags.active hf
  have htw : (c.step junk op).timeWait = c.timeWait := congrArg Flags.timeWait hf
  have htime : (c.step junk op).timeSinceLastSegmentReceived
      = c.timeSinceLastSegmentReceived := congrArg Flags.time hf
  have hcfg : (c.step junk op).cfg = c.cfg := congrArg Flags.cfg hf
  have hended' : (c.step junk op).Ended ↔ c.Ended := by
    unfold Ended
    rw [hended]
  refine ⟨sound_step junk op h.sender, ?_, ?_, ?_, ?_⟩
  · rw [hlinger, hended']
    exact h.linger_ended
  · rw [hactive, hended', hlinger, hfin]
    exact h.unacked
  · rw [hactive, hended', hlinger, htw]
    exact h.waiting
  · unfold lingerTimeout
    rw [hactive, htw, htime, hcfg]
    exact h.time_lt

theorem Finishing.step (h : c.Finishing) (junk : Nat → UInt8) {op : ConnectionOp}
    (hop : c.EndsInOrder op) : (c.step junk op).Finishing := by
  cases op using ConnectionOp.kindCases with
  | tick ms =>
      by_cases hactive : c.active = true
      · exact h.tick junk ms hactive
      · show (c.tick junk ms.toNat).Finishing
        rwa [tick_of_inactive junk ms.toNat (by simpa using hactive)]
  | segmentReceived seg =>
      by_cases hactive : c.active = true
      · exact h.segmentReceived junk hop hactive
      · show (c.segmentReceived seg).Finishing
        rwa [segmentReceived_of_inactive seg (by simpa using hactive)]
  | owner op htick hseg => exact h.other junk htick hseg

end

/-! ## The linger time -/

/-- Operations without an incoming segment, whose ticks are too short to carry the clock over
`2 ^ 64`. -/
def Quiet (limit : Nat) (ops : List ConnectionOp) : Prop :=
  ∀ op ∈ ops, (∀ seg, op ≠ .segmentReceived seg) ∧
    ∀ ms, op = .tick ms → ms.toNat + limit ≤ 2 ^ 64

theorem run_inactive (junk : Nat → UInt8) {c : TCPConnection} (ops : List ConnectionOp)
    (hend : c.active = false) : (Run.run (step junk) c ops).active = false :=
  Run.run_invariant' (I := fun c : TCPConnection => c.active = false)
    (fun _ op => step_inactive junk op) hend ops

theorem active_of_run {junk : Nat → UInt8} {c : TCPConnection} {ops : List ConnectionOp}
    (hactive : (Run.run (step junk) c ops).active = true) : c.active = true := by
  by_contra hend
  exact absurd ((run_inactive junk ops (by simpa using hend)).symm.trans hactive) (by simp)

/-- One quiet operation that leaves a waiting connection active. -/
theorem quiet_step (junk : Nat → UInt8) {c : TCPConnection} {op : ConnectionOp}
    (htw : c.timeWait = true) (hactive : c.active = true)
    (htime : c.timeSinceLastSegmentReceived < c.lingerTimeout ∨
      c.timeSinceLastSegmentReceived = 0)
    (hnoseg : ∀ seg, op ≠ .segmentReceived seg)
    (hshort : ∀ ms, op = .tick ms → ms.toNat + c.lingerTimeout ≤ 2 ^ 64)
    (hactive' : (c.step junk op).active = true) :
    (c.step junk op).timeWait = true ∧ (c.step junk op).lingerTimeout = c.lingerTimeout ∧
      (c.step junk op).timeSinceLastSegmentReceived
        = quietStep c.timeSinceLastSegmentReceived op ∧
      (∀ ms, op = .tick ms →
        (c.step junk op).timeSinceLastSegmentReceived < c.lingerTimeout) := by
  have hother : (∀ ms, op ≠ .tick ms) →
      (c.step junk op).timeWait = true ∧ (c.step junk op).lingerTimeout = c.lingerTimeout ∧
        (c.step junk op).timeSinceLastSegmentReceived
          = quietStep c.timeSinceLastSegmentReceived op ∧
        (∀ ms, op = .tick ms →
          (c.step junk op).timeSinceLastSegmentReceived < c.lingerTimeout) := by
    intro htick
    obtain ⟨hf, -⟩ := step_flags (c := c) junk op htick hnoseg
    refine ⟨(congrArg Flags.timeWait hf).trans htw, ?_,
      (congrArg Flags.time hf).trans (quietStep_other htick hnoseg).symm,
      fun ms hop => absurd hop (htick ms)⟩
    exact congrArg (fun f : Flags => 10 * f.cfg.rtTimeout.toNat) hf
  cases op with
  | tick ms =>
      have hms := ms.toNat_lt
      have hbound := hshort ms rfl
      have hsum : add64 c.timeSinceLastSegmentReceived ms.toNat
          = c.timeSinceLastSegmentReceived + ms.toNat := add64_eq (by omega)
      have htime' := tick_time junk ms.toNat hactive
      obtain ⟨htw', -, hcfg⟩ := tick_flags c junk ms.toNat
      -- otherwise the tick would have ended the connection
      have hlt : add64 c.timeSinceLastSegmentReceived ms.toNat < c.lingerTimeout := by
        rcases tick_cases junk ms.toNat hactive with heq | ⟨-, -, heq⟩ | ⟨hwait, -⟩
        · exact absurd ((congrArg TCPConnection.active heq).symm.trans hactive')
            Bool.false_ne_true
        · exact absurd ((congrArg TCPConnection.active heq).symm.trans hactive')
            Bool.false_ne_true
        · exact Nat.lt_of_not_le (fun hle => hwait ⟨htw, hle⟩)
      refine ⟨htw'.trans htw, ?_, htime'.trans hsum, fun _ _ => ?_⟩
      · exact congrArg (fun cfg : TCPConfig => 10 * cfg.rtTimeout.toNat) hcfg
      · exact htime'.trans_lt hlt
  | segmentReceived seg => exact absurd rfl (hnoseg seg)
  | connect => exact hother (by simp)
  | write data => exact hother (by simp)
  | endInputStream => exact hother (by simp)
  | readInbound len => exact hother (by simp)
  | popSegment => exact hother (by simp)

/-- A connection in `TIME_WAIT` that is still active after quiet operations has counted all
their ticks, and they were not enough. -/
theorem time_of_quiet (junk : Nat → UInt8) {c : TCPConnection} (htw : c.timeWait = true)
    (htime : c.timeSinceLastSegmentReceived < c.lingerTimeout ∨
      c.timeSinceLastSegmentReceived = 0)
    (ops : List ConnectionOp) (hquiet : Quiet c.lingerTimeout ops)
    (hactive : (Run.run (step junk) c ops).active = true) :
    (Run.run (step junk) c ops).timeSinceLastSegmentReceived
        = ops.foldl quietStep c.timeSinceLastSegmentReceived ∧
      ((∃ ms, ConnectionOp.tick ms ∈ ops) ∨
          c.timeSinceLastSegmentReceived < c.lingerTimeout →
        (Run.run (step junk) c ops).timeSinceLastSegmentReceived < c.lingerTimeout) := by
  -- a connection that is active at the end of the run was so at every step of it
  induction ops generalizing c with
  | nil => exact ⟨rfl, by simp⟩
  | cons op ops ih =>
      have hrun : (Run.run (step junk) (c.step junk op) ops).active = true := hactive
      obtain ⟨hnoseg, hshort⟩ := hquiet op (by simp)
      have hrest : Quiet c.lingerTimeout ops := fun op' hmem => hquiet op' (by simp [hmem])
      obtain ⟨htw', hlimit, htime', htick⟩ := quiet_step junk htw (active_of_run hactive) htime
        hnoseg hshort (active_of_run hrun)
      rw [← hlimit] at hrest htick ⊢
      rw [List.foldl_cons, ← htime', Run.run_cons]
      by_cases hop : ∃ ms, op = .tick ms
      · obtain ⟨ms, hms⟩ := hop
        obtain ⟨hsum, hlt⟩ := ih htw' (Or.inl (htick ms hms)) hrest hrun
        exact ⟨hsum, fun _ => hlt (Or.inr (htick ms hms))⟩
      · have hsame : quietStep c.timeSinceLastSegmentReceived op
            = c.timeSinceLastSegmentReceived := quietStep_other (by simpa using hop) hnoseg
        rw [hsame] at htime'
        rw [hlimit] at hrest ⊢
        rw [← htime'] at htime ⊢
        obtain ⟨hsum, hlt⟩ := ih htw' (by rwa [hlimit]) (by rwa [hlimit]) hrun
        rw [hlimit] at hlt
        refine ⟨hsum, fun hcase => hlt ?_⟩
        rcases hcase with ⟨ms, hmem⟩ | hcase
        · rcases List.mem_cons.mp hmem with hms | hmem
          · exact absurd ⟨ms, hms.symm⟩ hop
          · exact Or.inl ⟨ms, hmem⟩
        · exact Or.inr hcase

/-- Without segments the ticks just add up. -/
theorem foldl_quietStep (quiet : Nat) (ops : List ConnectionOp)
    (hnoseg : ∀ seg, ConnectionOp.segmentReceived seg ∉ ops) :
    ops.foldl quietStep quiet = quiet + quietTime ops := by
  unfold quietTime
  induction ops generalizing quiet with
  | nil => rfl
  | cons op ops ih =>
      have hrest : ∀ seg, ConnectionOp.segmentReceived seg ∉ ops :=
        fun seg hmem => hnoseg seg (by simp [hmem])
      have hop : quietStep quiet op = quiet + quietStep 0 op := by
        by_cases htick : ∃ ms, op = .tick ms
        · obtain ⟨ms, rfl⟩ := htick
          simp [quietStep]
        · have hother : ∀ q, quietStep q op = q := fun q =>
            quietStep_other (by simpa using htick) (fun seg h => hnoseg seg (h ▸ List.mem_cons_self))
          rw [hother, hother, Nat.add_zero]
      calc (op :: ops).foldl quietStep quiet
          = quietStep quiet op + ops.foldl quietStep 0 := ih _ hrest
        _ = quiet + (quietStep 0 op + ops.foldl quietStep 0) := by rw [hop, Nat.add_assoc]
        _ = quiet + (op :: ops).foldl quietStep 0 := by
            rw [List.foldl_cons, ih (quietStep 0 op) hrest]

/-- **A finished connection goes away**, in every run in which no segment bypasses the closing
flags. -/
theorem finished_inactive (junk : Nat → UInt8) (cfg : TCPConfig) (isn : WrappingInt32)
    (ops : List ConnectionOp) (hok : Run.Admits (step junk) EndsInOrder (new cfg isn) ops)
    (hended : (after junk cfg isn ops).receiver.streamOut.inputEnded = true)
    (hfin : (after junk cfg isn ops).sender.finAcked = true) :
    ((after junk cfg isn ops).lingerAfterStreamsFinish = false →
      (after junk cfg isn ops).active = false) ∧
    ((after junk cfg isn ops).lingerAfterStreamsFinish = true →
      ∀ later, Quiet (10 * (after junk cfg isn ops).cfg.rtTimeout.toNat) later →
        (∃ ms, ConnectionOp.tick ms ∈ later) →
        10 * (after junk cfg isn ops).cfg.rtTimeout.toNat ≤ quietTime later →
        (after junk cfg isn (ops ++ later)).active = false) := by
  have h : (after junk cfg isn ops).Finishing :=
    Run.run_invariant (fun _ _ h => h.step junk) (finishing_new cfg isn) hok
  have hrun : ∀ later, after junk cfg isn (ops ++ later)
      = Run.run (step junk) (after junk cfg isn ops) later := Run.run_append _ _ _
  generalize after junk cfg isn ops = c at *
  constructor
  · intro hlinger
    by_contra hactive
    exact absurd ((h.unacked (by simpa using hactive) hended hlinger).symm.trans hfin) (by simp)
  · intro hlinger later hquiet htick hlong
    rw [hrun]
    by_contra hactive
    have hactive' : (Run.run (step junk) c later).active = true := by simpa using hactive
    have hc := active_of_run hactive'
    have htw := h.waiting hc hended hlinger
    obtain ⟨htime, hlt⟩ := time_of_quiet junk htw (h.time_lt hc htw) later hquiet hactive'
    have hlt' := hlt (Or.inl htick)
    rw [htime, foldl_quietStep _ _ (fun seg hmem => (hquiet _ hmem).1 seg rfl)] at hlt'
    unfold lingerTimeout at hlt'
    omega

theorem finished_inactive_timeWait :
    (after (fun _ => 0) {} ⟨0⟩ (finSentFirst ++ [peerFin 2] ++ [.tick 4000, .tick 6000])).active
      = false :=
  (finished_inactive (fun _ => 0) {} ⟨0⟩ (finSentFirst ++ [peerFin 2]) (by decide +kernel)
    (by decide +kernel) (by decide +kernel)).2 (by decide +kernel) [.tick 4000, .tick 6000]
    (by
      intro op hop
      rcases List.mem_pair.mp hop with rfl | rfl
      · exact ⟨by simp, fun ms hms => by cases hms; decide +kernel⟩
      · exact ⟨by simp, fun ms hms => by cases hms; decide +kernel⟩)
    ⟨4000, by simp⟩ (by decide +kernel)

/-- The peer opens and closes its stream with one segment; then our stream is ended, and the
peer acknowledges our SYN and our FIN. -/
def synFinReceived : List ConnectionOp :=
  [.segmentReceived { header := { syn := true, fin := true } },
    .segmentReceived { header := { seqno := ⟨2⟩, ack := true, ackno := ⟨1⟩, win := 100 } },
    .endInputStream,
    .segmentReceived { header := { seqno := ⟨2⟩, ack := true, ackno := ⟨2⟩, win := 100 } }]

/-- A SYN segment that carries the FIN sets no closing flag, and the linger time never runs. -/
theorem synFin_stays_active :
    (after (fun _ => 0) {} ⟨0⟩ synFinReceived).receiver.streamOut.inputEnded = true ∧
      (after (fun _ => 0) {} ⟨0⟩ synFinReceived).sender.finAcked = true ∧
      (after (fun _ => 0) {} ⟨0⟩ synFinReceived).lingerAfterStreamsFinish = true ∧
      10 * (after (fun _ => 0) {} ⟨0⟩ synFinReceived).cfg.rtTimeout.toNat ≤ 10000 ∧
      (after (fun _ => 0) {} ⟨0⟩ (synFinReceived ++ [.tick 10000])).active = true := by
  decide +kernel

end TCPConnection

end Sponge
