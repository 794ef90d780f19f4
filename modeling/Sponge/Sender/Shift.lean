import Sponge.Sender.Invariant

set_option autoImplicit false

/-! # Shifting the initial sequence number of a sender

`wrap` and `unwrap` depend on the initial sequence number only through differences, so a sender
whose initial sequence number is shifted by `k` does the same on acknowledgments shifted by `k`.
Every operation commutes with the shift, except a timeout that finds nothing to retransmit: it
sends a segment without any field set, whose sequence number is zero wherever the stream
started. -/

namespace Sponge

open Word

/-! ## Numbers and segments -/

namespace WrappingInt32

/-- The sequence number `k` steps further. -/
def shift (k : BitVec 32) (a : WrappingInt32) : WrappingInt32 := ⟨a.rawValue + k⟩

section

variable (k : BitVec 32)

theorem shift_injective : Function.Injective (shift k) := by
  rintro ⟨a⟩ ⟨b⟩ h
  have hraw : a + k = b + k := congrArg rawValue h
  rw [(BitVec.add_left_inj k).mp hraw]

theorem shift_eq_self {a : WrappingInt32} (h : a.shift k = a) : k = 0#32 := by
  have hraw : a.rawValue + k = a.rawValue := congrArg rawValue h
  simpa using hraw

@[simp] theorem shift_zero (a : WrappingInt32) : a.shift 0#32 = a := by
  simp [shift]

@[simp] theorem shift_add (a : WrappingInt32) (n : Nat) :
    (a.shift k).add n = (a.add n).shift k := by
  simp only [shift, add]
  rw [BitVec.add_assoc, BitVec.add_comm k, ← BitVec.add_assoc]

@[simp] theorem wrap_shift (n : Nat) (isn : WrappingInt32) :
    wrap n (isn.shift k) = (wrap n isn).shift k := shift_add k isn n

theorem shift_sub (a b : WrappingInt32) : (a.shift k).sub (b.shift k) = a.sub b := by
  have hraw : a.rawValue + k - (b.rawValue + k) = a.rawValue - b.rawValue := by
    bv_omega
  simp only [sub, shift, hraw]

/-- The absolute number depends only on the distance from the initial one. -/
@[simp] theorem unwrap_shift (n isn : WrappingInt32) (checkpoint : Nat) :
    unwrap (n.shift k) (isn.shift k) checkpoint = unwrap n isn checkpoint := by
  simp only [unwrap, wrap_shift, shift_sub]

end

end WrappingInt32

/-- A segment that is sent when the own numbers are shifted by `k` and those of the peer by
`l`: the acknowledgment number counts only with ACK. -/
def TCPSegment.shiftOut (k l : BitVec 32) (seg : TCPSegment) : TCPSegment :=
  { seg with
    header := { seg.header with
      seqno := seg.header.seqno.shift k
      ackno := if seg.header.ack then seg.header.ackno.shift l else seg.header.ackno } }

/-- A segment from the peer. -/
def TCPSegment.shiftIn (k l : BitVec 32) (seg : TCPSegment) : TCPSegment :=
  { seg with
    header := { seg.header with
      seqno := seg.header.seqno.shift l
      ackno := seg.header.ackno.shift k } }

namespace TCPSender

def shift (k l : BitVec 32) (s : TCPSender) : TCPSender :=
  { s with
    isn := s.isn.shift k
    segmentsOut := s.segmentsOut.map (TCPSegment.shiftOut k l) }

/-- A timeout has nothing to retransmit. -/
def NothingDue (s : TCPSender) : Prop :=
  s.unAckQueue.finAcked = false ∧ s.unAckQueue.finSent = false ∧
    (s.unAckQueue.synSent = true → s.unAckQueue.synAcked = true) ∧ s.unAckQueue.unAcked = []

instance (s : TCPSender) : Decidable s.NothingDue := inferInstanceAs (Decidable (_ ∧ _ ∧ _ ∧ _))

section

variable (k l : BitVec 32) (s : TCPSender)

@[simp] theorem shift_timer : (s.shift k l).timer = s.timer := rfl

@[simp] theorem shift_stream : (s.shift k l).stream = s.stream := rfl

@[simp] theorem shift_unAckQueue : (s.shift k l).unAckQueue = s.unAckQueue := rfl

@[simp] theorem shift_isn : (s.shift k l).isn = s.isn.shift k := rfl

@[simp] theorem shift_remainSpace : (s.shift k l).remainSpace = s.remainSpace := rfl

@[simp] theorem shift_hasContentToPush : (s.shift k l).hasContentToPush = s.hasContentToPush := rfl

/-- Another segment in the queue. -/
theorem shift_push (seg : TCPSegment) (timer : Timer) (q : UnAckQueue) (stream : ByteStream) :
    ({ s.shift k l with
        segmentsOut := (s.shift k l).segmentsOut ++ [seg.shiftOut k l]
        timer := timer
        unAckQueue := q
        stream := stream } : TCPSender)
      = TCPSender.shift k l
        { s with
          segmentsOut := s.segmentsOut ++ [seg]
          timer := timer
          unAckQueue := q
          stream := stream } := by
  simp [shift]

theorem shift_firstPush (seg : TCPSegment) :
    (s.shift k l).firstPush (seg.shiftOut k l) = (s.firstPush seg).shift k l :=
  shift_push k l s seg _ _ _

/-! ## Filling the window -/

/-- The parts of a result that is a segment and a sender. -/
def shiftResult (r : TCPSegment × TCPSender) : TCPSegment × TCPSender :=
  (r.1.shiftOut k l, r.2.shift k l)

theorem shift_makeSynSeg : (s.shift k l).makeSynSeg = shiftResult k l s.makeSynSeg := by
  have hstate : (if (s.shift k l).unAckQueue.synSent then s.shift k l
      else { s.shift k l with
        unAckQueue :=
          { (s.shift k l).unAckQueue with
            synSent := true
            nextSeqno := (s.shift k l).unAckQueue.nextSeqno + 1 } })
      = TCPSender.shift k l (if s.unAckQueue.synSent then s
        else { s with
          unAckQueue :=
            { s.unAckQueue with synSent := true, nextSeqno := s.unAckQueue.nextSeqno + 1 } }) := by
    rw [shift_unAckQueue]
    split_ifs <;> rfl
  unfold makeSynSeg
  dsimp only
  rw [hstate]
  simp only [shift_stream, shift_remainSpace, shift_isn, WrappingInt32.wrap_shift]
  split_ifs <;> rfl

theorem shift_makeFirstFinSeg :
    (s.shift k l).makeFirstFinSeg = shiftResult k l s.makeFirstFinSeg := by
  simp only [makeFirstFinSeg, shift_isn, WrappingInt32.wrap_shift, shift_unAckQueue]
  rfl

theorem shift_makePayLoadSeg : (s.shift k l).makePayLoadSeg = shiftResult k l s.makePayLoadSeg := by
  simp only [makePayLoadSeg, shift_isn, WrappingInt32.wrap_shift, shift_unAckQueue]
  rfl

theorem shift_sendSyn : (s.shift k l).sendSyn = s.sendSyn.shift k l := by
  unfold sendSyn
  rw [shift_makeSynSeg]
  exact shift_firstPush k l s.makeSynSeg.2 s.makeSynSeg.1

theorem shift_sendFin : (s.shift k l).sendFin = s.sendFin.shift k l := by
  unfold sendFin
  rw [shift_makeFirstFinSeg]
  exact shift_firstPush k l s.makeFirstFinSeg.2 s.makeFirstFinSeg.1

theorem shift_sendPayLoad : (s.shift k l).sendPayLoad = s.sendPayLoad.shift k l := by
  unfold sendPayLoad
  rw [shift_makePayLoadSeg]
  exact shift_firstPush k l
    { s.makePayLoadSeg.2 with
      unAckQueue := s.makePayLoadSeg.2.unAckQueue.push s.makePayLoadSeg.1 } s.makePayLoadSeg.1

theorem shift_sendLoop (n : Nat) : ∀ s : TCPSender,
    sendLoop n (s.shift k l) = (sendLoop n s).shift k l := by
  induction n with
  | zero => exact fun _ => rfl
  | succ n ih =>
      intro s
      unfold sendLoop
      rw [shift_remainSpace, shift_hasContentToPush]
      split_ifs
      · rw [shift_sendPayLoad, ih]
      · rfl

theorem shift_fillWindow : (s.shift k l).fillWindow = s.fillWindow.shift k l := by
  have hfin : (if !(s.shift k l).unAckQueue.finSent && (s.shift k l).stream.eof &&
        decide (1 < (s.shift k l).remainSpace) then (s.shift k l).sendFin else s.shift k l)
      = TCPSender.shift k l (if !s.unAckQueue.finSent && s.stream.eof &&
        decide (1 < s.remainSpace) then s.sendFin else s) := by
    rw [shift_unAckQueue, shift_stream, shift_remainSpace, shift_sendFin]
    split_ifs <;> rfl
  unfold fillWindow
  dsimp only
  -- after the FIN of its own the two sides are the same shift again
  rw [hfin]
  generalize (if !s.unAckQueue.finSent && s.stream.eof && decide (1 < s.remainSpace)
    then s.sendFin else s) = s'
  simp only [shift_unAckQueue, shift_sendSyn, shift_stream, shift_sendLoop]
  split_ifs <;> rfl

/-! ## The other operations -/

theorem shift_ackReceived (ackno : WrappingInt32) (w : UInt16) :
    (s.shift k l).ackReceived (ackno.shift k) w = (s.ackReceived ackno w).shift k l := by
  -- the absolute number is the same, and everything else is decided by it
  have habs : ((s.shift k l).setWindowSize w).absAckno (ackno.shift k)
      = (s.setWindowSize w).absAckno ackno := WrappingInt32.unwrap_shift k _ _ _
  unfold ackReceived
  dsimp only
  rw [habs]
  generalize (s.setWindowSize w).absAckno ackno = absAckno
  show (if _ then (s.setWindowSize w).shift k l else if _ then _ else (s.setWindowSize w).shift k l) = _
  simp only [apply_ite (TCPSender.shift k l)]
  rfl

/-- What a timeout sends is shifted, if there is anything to send. -/
theorem shift_retransmitSeg (junk : Nat → UInt8) (hfin : s.unAckQueue.finAcked = false)
    (hdue : k = 0#32 ∨ ¬s.NothingDue) :
    (s.shift k l).retransmitSeg junk = shiftResult k l (s.retransmitSeg junk) := by
  unfold retransmitSeg
  rw [shift_unAckQueue]
  split_ifs with h1 h2 h3 h4
  · simp only [makeNotFirstFinSeg, shift_isn, WrappingInt32.wrap_shift]
    rfl
  · simp only [UnAckQueue.frontSeg, shift_isn, WrappingInt32.wrap_shift]
    rfl
  · exact shift_makeSynSeg k l s
  · simp only [UnAckQueue.frontSeg, shift_isn, WrappingInt32.wrap_shift]
    rfl
  · -- only a shift by zero keeps the sequence number zero
    rcases hdue with rfl | hdue
    · simp [shiftResult, TCPSegment.shiftOut]
    · refine absurd ⟨hfin, ?_, ?_, ?_⟩ hdue
      · simpa [hfin] using h1
      · simpa using h3
      · simpa [UnAckQueue.empty] using h4

theorem shift_timeoutRetransmit (junk : Nat → UInt8) (hdue : k = 0#32 ∨ ¬s.NothingDue) :
    (s.shift k l).timeoutRetransmit junk = (s.timeoutRetransmit junk).shift k l := by
  unfold timeoutRetransmit
  rw [shift_unAckQueue]
  split_ifs with hfin
  · rfl
  · rw [shift_retransmitSeg k l s junk (by simpa using hfin) hdue]
    exact shift_push k l (s.retransmitSeg junk).2 _ _ _ _

theorem shift_tick (junk : Nat → UInt8) (ms : Nat)
    (hdue : s.timer.expires ms = true → k = 0#32 ∨ ¬s.NothingDue) :
    (s.shift k l).tick junk ms = (s.tick junk ms).shift k l := by
  rw [tick_eq, tick_eq, shift_timer]
  split_ifs with hexp hrun
  · exact shift_timeoutRetransmit k l { s with timer := s.timer.elapse ms } junk (hdue hexp)
  · rfl
  · rfl

theorem shift_sendEmptySegment :
    (s.shift k l).sendEmptySegment = s.sendEmptySegment.shift k l := by
  unfold sendEmptySegment
  rw [shift_isn, WrappingInt32.wrap_shift]
  exact shift_push k l s { header := { seqno := wrap s.unAckQueue.nextSeqno s.isn } } _ _ _

/-- A timeout with nothing to retransmit sends a segment without any field set. -/
theorem retransmitSeg_of_nothingDue (junk : Nat → UInt8) {s : TCPSender} (h : s.NothingDue) :
    s.retransmitSeg junk = ({}, s) := by
  obtain ⟨-, hfin, hsyn, hempty⟩ := h
  unfold retransmitSeg
  rw [if_neg (by simp [hfin]), if_neg (by simpa using hsyn),
    if_neg (by simp [UnAckQueue.empty, hempty])]

end

end TCPSender

end Sponge
