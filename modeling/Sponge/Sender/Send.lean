import Sponge.Basic.Loop
import Sponge.TCPSender

set_option autoImplicit false

/-! # What the sender can send

Every segment that `fill_window` sends is made by one of three functions. `Sends s s' seg`
says once what all of them do: the segment starts at the next sequence number, takes its
bytes from the stream and is entered into the queue of unacknowledged bytes. The rule
`fillWindow_rule` derives from it what a whole call preserves. -/

namespace Sponge

open Word

namespace TCPSender

/-- Sending the new segment `seg` takes the sender from `s` to `s'`. -/
structure Sends (s s' : TCPSender) (seg : TCPSegment) : Prop where
  finSent_before : s.unAckQueue.finSent = false
  finAcked_before : s.unAckQueue.finAcked = false
  isn_eq : s'.isn = s.isn
  out_eq : s'.segmentsOut = s.segmentsOut ++ [seg]
  timer_eq : s'.timer = if s.timer.isTimerRunning then s.timer else s.timer.startTimer
  stream_eq : s'.stream = s.stream.popOutput seg.payload.length
  payload_eq : seg.payload = s.stream.buf.take seg.payload.length
  payload_le : seg.payload.length ≤ s.stream.size
  payload_max : seg.payload.length ≤ TCPConfig.maxPayloadSize
  syn_eq : seg.header.syn = !s.unAckQueue.synSent
  syn_payload : seg.header.syn = true → seg.payload = []
  no_ack : seg.header.ack = false
  no_rst : seg.header.rst = false
  seqno_eq : seg.header.seqno =
    wrap (if seg.header.syn then 0 else s.unAckQueue.nextSeqno) s.isn
  length_pos : 1 ≤ seg.lengthInSequenceSpace
  fin_eof : seg.header.fin = true → s'.stream.eof = true
  synSent_eq : s'.unAckQueue.synSent = true
  synAcked_eq : s'.unAckQueue.synAcked = s.unAckQueue.synAcked
  finSent_eq : s'.unAckQueue.finSent = seg.header.fin
  finAcked_eq : s'.unAckQueue.finAcked = false
  base_eq : s'.unAckQueue.baseSqn = s.unAckQueue.baseSqn
  win_eq : s'.unAckQueue.winSize = s.unAckQueue.winSize
  next_eq : s'.unAckQueue.nextSeqno = s.unAckQueue.nextSeqno + seg.lengthInSequenceSpace
  unAcked_eq : s'.unAckQueue.unAcked = s.unAckQueue.unAcked ++ seg.payload
  -- only the loop enters segments into the queue, and only after the SYN was acknowledged
  sizes_eq : (seg.payload = [] ∧
      s'.unAckQueue.unAckedPayloadSize = s.unAckQueue.unAckedPayloadSize) ∨
    (s.unAckQueue.synAcked = true ∧
      s'.unAckQueue.unAckedPayloadSize
        = s.unAckQueue.unAckedPayloadSize ++ [seg.payload.length])
  room : seg.header.syn = false → seg.lengthInSequenceSpace ≤ s.remainSpace
  room_syn : seg.header.syn = true → seg.header.fin = true →
    2 ≤ sub64 s.unAckQueue.winSize
      (sub64 (s.unAckQueue.nextSeqno + 1) s.unAckQueue.baseSqn)

theorem Sends.read_eq {s s' : TCPSender} {seg : TCPSegment} (hs : s.Sends s' seg) :
    s'.stream.numBytesRead = s.stream.numBytesRead + seg.payload.length := by
  have hle := hs.payload_le
  rw [hs.stream_eq]
  simp only [ByteStream.popOutput]
  omega

theorem remainSpace_lt (s : TCPSender) : s.remainSpace < 2 ^ 64 :=
  Nat.mod_lt _ (by norm_num)

/-- Behind the FIN nothing is left to send. -/
theorem finSent_of_hasContentToPush {s : TCPSender}
    (hfin : s.unAckQueue.finSent = true → s.stream.eof = true)
    (hmore : s.hasContentToPush = true) : s.unAckQueue.finSent = false := by
  by_contra h
  rw [Bool.not_eq_false] at h
  have heof := hfin h
  simp only [ByteStream.eof, Bool.and_eq_true, beq_iff_eq] at heof
  simp [hasContentToPush, ByteStream.bufferSize, heof.1, h] at hmore

/-! ## The three kinds of segments -/

section

variable {s : TCPSender} (hfin : s.unAckQueue.finSent = false)
  (hfinAcked : s.unAckQueue.finAcked = false)

include hfin hfinAcked

theorem sends_syn (hsyn : s.unAckQueue.synSent = false) : ∃ seg, s.Sends s.sendSyn seg := by
  by_cases hend : s.stream.eof = true ∧
      2 ≤ sub64 s.unAckQueue.winSize (sub64 (s.unAckQueue.nextSeqno + 1) s.unAckQueue.baseSqn)
  · refine ⟨{ header := { seqno := wrap 0 s.isn, syn := true, fin := true } }, ?_⟩
    constructor <;>
      simp [sendSyn, makeSynSeg, firstPush, remainSpace, UnAckQueue.bytesInFlight, hsyn, hend,
        hfin, hfinAcked, TCPSegment.lengthInSequenceSpace, Nat.add_assoc]
  · refine ⟨{ header := { seqno := wrap 0 s.isn, syn := true } }, ?_⟩
    constructor <;>
      simp [sendSyn, makeSynSeg, firstPush, remainSpace, UnAckQueue.bytesInFlight, hsyn, hend,
        hfin, hfinAcked, TCPSegment.lengthInSequenceSpace]

theorem sends_fin (hsyn : s.unAckQueue.synSent = true) (heof : s.stream.eof = true)
    (hroom : 1 < s.remainSpace) : ∃ seg, s.Sends s.sendFin seg := by
  refine ⟨{ header := { seqno := wrap s.unAckQueue.nextSeqno s.isn, fin := true } }, ?_⟩
  constructor <;>
    simp [sendFin, makeFirstFinSeg, firstPush, hsyn, hfin, hfinAcked, heof,
      TCPSegment.lengthInSequenceSpace]
  omega

/-- How many bytes the next segment with payload takes from the stream. -/
def payLoadSize (s : TCPSender) : Nat :=
  min s.stream.size (min s.remainSpace TCPConfig.maxPayloadSize)

/-- Whether the next segment with payload carries the FIN. -/
def payLoadFin (s : TCPSender) : Bool :=
  (s.stream.popOutput s.payLoadSize).eof && decide (s.payLoadSize < s.remainSpace)

omit hfin hfinAcked in
theorem popOutput_payLoadSize :
    s.stream.popOutput (min s.remainSpace TCPConfig.maxPayloadSize)
      = s.stream.popOutput s.payLoadSize := by
  simp [ByteStream.popOutput, payLoadSize]

omit hfin hfinAcked in
theorem makePayLoadSeg_seg {data : Bytes} (hc : s.stream.Carries data) :
    s.makePayLoadSeg.1 =
      { header := { seqno := wrap s.unAckQueue.nextSeqno s.isn, fin := s.payLoadFin }
        payload := s.stream.buf.take s.payLoadSize } := by
  have hlt := s.remainSpace_lt
  have hlen : (s.stream.peekOutput (min s.remainSpace TCPConfig.maxPayloadSize)).length
      = s.payLoadSize := hc.peekOutput_length _
  have hsub : sub64 s.remainSpace s.payLoadSize = s.remainSpace - s.payLoadSize :=
    sub64_eq (by unfold payLoadSize; omega) (by omega)
  have hfin : s.makePayLoadSeg.1.header.fin = s.payLoadFin := by
    show ((s.stream.popOutput (min s.remainSpace TCPConfig.maxPayloadSize)).eof &&
      decide (0 < sub64 s.remainSpace
        (s.stream.peekOutput (min s.remainSpace TCPConfig.maxPayloadSize)).length))
      = s.payLoadFin
    rw [hlen, hsub, popOutput_payLoadSize, payLoadFin]
    simp only [Nat.sub_pos_iff_lt]
  rw [← hfin]
  rfl

omit hfin hfinAcked in
theorem take_payLoadSize_length {data : Bytes} (hc : s.stream.Carries data) :
    (s.stream.buf.take s.payLoadSize).length = s.payLoadSize := by
  have hsize := hc.size_eq
  rw [List.length_take]
  unfold payLoadSize
  omega

omit hfin hfinAcked in
theorem makePayLoadSeg_length {data : Bytes} (hc : s.stream.Carries data) :
    s.makePayLoadSeg.1.lengthInSequenceSpace
      = s.payLoadSize + if s.payLoadFin then 1 else 0 := by
  simp [makePayLoadSeg_seg hc, TCPSegment.lengthInSequenceSpace, take_payLoadSize_length hc]

omit hfinAcked in
/-- An empty payload means that the stream is at its end, and then the FIN is sent. -/
theorem payLoadFin_of_empty (hroom : 0 < s.remainSpace) (hmore : s.hasContentToPush = true)
    (hempty : s.payLoadSize = 0) : s.payLoadFin = true := by
  have hmax : TCPConfig.maxPayloadSize = 1000 := rfl
  have hsize : s.stream.size = 0 := by unfold payLoadSize at hempty; omega
  have heof : s.stream.eof = true := by
    simpa [hasContentToPush, ByteStream.bufferSize, hsize, hfin] using hmore
  simp [payLoadFin, hempty, heof, hroom]

theorem sends_payLoad {data : Bytes} (hc : s.stream.Carries data)
    (hsyn : s.unAckQueue.synSent = true) (hsynAcked : s.unAckQueue.synAcked = true)
    (hroom : 0 < s.remainSpace) (hmore : s.hasContentToPush = true) :
    ∃ seg, s.Sends s.sendPayLoad seg := by
  have hseg := makePayLoadSeg_seg hc
  have hlen := take_payLoadSize_length hc
  have hspace := makePayLoadSeg_length hc
  have hmax : TCPConfig.maxPayloadSize = 1000 := rfl
  have hroom' : s.payLoadSize ≤ s.remainSpace := by unfold payLoadSize; omega
  have hfinRoom : s.payLoadFin = true → s.payLoadSize < s.remainSpace := by
    intro h
    simp only [payLoadFin, Bool.and_eq_true, decide_eq_true_eq] at h
    exact h.2
  refine ⟨s.makePayLoadSeg.1, ?_⟩
  refine
    { finSent_before := hfin
      finAcked_before := hfinAcked
      isn_eq := rfl
      out_eq := rfl
      timer_eq := rfl
      stream_eq := ?_
      payload_eq := ?_
      payload_le := ?_
      payload_max := ?_
      syn_eq := ?_
      syn_payload := fun h => absurd h Bool.false_ne_true
      no_ack := rfl
      no_rst := rfl
      seqno_eq := rfl
      length_pos := ?_
      fin_eof := ?_
      synSent_eq := hsyn
      synAcked_eq := rfl
      finSent_eq := ?_
      finAcked_eq := hfinAcked
      base_eq := rfl
      win_eq := rfl
      next_eq := ?_
      unAcked_eq := rfl
      sizes_eq := Or.inr ⟨hsynAcked, rfl⟩
      room := ?_
      room_syn := fun h => absurd h Bool.false_ne_true }
  · -- the read takes as many bytes as the segment carries
    rw [hseg]
    simp only [hlen]
    exact popOutput_payLoadSize
  · rw [hseg]
    simp only [hlen]
  · rw [hseg]
    simp only [hlen]
    exact Nat.min_le_left _ _
  · rw [hseg]
    simp only [hlen]
    unfold payLoadSize
    omega
  · rw [hsyn]
    rfl
  · -- a segment without payload carries the FIN
    rw [hspace]
    by_cases h0 : s.payLoadSize = 0
    · rw [payLoadFin_of_empty hfin hroom hmore h0, if_pos rfl]
      omega
    · omega
  · intro h
    rw [hseg] at h
    show (s.stream.popOutput (min s.remainSpace TCPConfig.maxPayloadSize)).eof = true
    rw [popOutput_payLoadSize]
    simp only [payLoadFin, Bool.and_eq_true] at h
    exact h.1
  · show (s.unAckQueue.finSent || s.makePayLoadSeg.1.header.fin) = s.makePayLoadSeg.1.header.fin
    rw [hfin, Bool.false_or]
  · show s.unAckQueue.nextSeqno + (if s.makePayLoadSeg.1.header.fin then 1 else 0)
        + s.makePayLoadSeg.1.payload.length = _
    rw [hspace, hseg]
    simp only [hlen]
    omega
  · -- the FIN is added only where the window has a place behind the payload
    intro _
    rw [hspace]
    split_ifs with h
    · have := hfinRoom h
      omega
    · omega

end

/-! ## The rule for `fill_window` -/

/-- The condition of the loop. -/
def Pushes (s : TCPSender) : Prop := 0 < s.remainSpace ∧ s.hasContentToPush = true

instance : DecidablePred Pushes := fun _ => inferInstanceAs (Decidable (_ ∧ _))

theorem sendLoop_eq_upTo (n : Nat) (s : TCPSender) : sendLoop n s = Loop.upTo Pushes sendPayLoad n s := by
  induction n generalizing s with
  | zero => rfl
  | succ n ih =>
      unfold sendLoop Loop.upTo
      rw [ih]
      rfl

/-- Where the loop runs: the SYN is acknowledged, and a FIN that was sent is the end. -/
structure InLoop (s : TCPSender) : Prop where
  finAcked : s.unAckQueue.finAcked = false
  synSent : s.unAckQueue.synSent = true
  synAcked : s.unAckQueue.synAcked = true
  fin_eof : s.unAckQueue.finSent = true → s.stream.eof = true

theorem InLoop.sends {s : TCPSender} {data : Bytes} (h : s.InLoop) (hc : s.stream.Carries data)
    (hgo : s.Pushes) : ∃ seg, s.Sends s.sendPayLoad seg :=
  sends_payLoad (finSent_of_hasContentToPush h.fin_eof hgo.2) h.finAcked hc h.synSent h.synAcked
    hgo.1 hgo.2

theorem InLoop.next {s s' : TCPSender} {seg : TCPSegment} (h : s.InLoop) (hs : s.Sends s' seg) :
    s'.InLoop := by
  refine ⟨hs.finAcked_eq, hs.synSent_eq, hs.synAcked_eq.trans h.synAcked, ?_⟩
  rw [hs.finSent_eq]
  exact hs.fin_eof

section

variable {P : TCPSender → Prop} (hcarries : ∀ s, P s → ∃ data, s.stream.Carries data)
  (hsends : ∀ s s' seg, P s → s.Sends s' seg → P s')

include hcarries hsends

theorem sendLoop_rule (n : Nat) {s : TCPSender} (hs : P s)
    (hfinAcked : s.unAckQueue.finAcked = false) (hsyn : s.unAckQueue.synSent = true)
    (hsynAcked : s.unAckQueue.synAcked = true)
    (hfin : s.unAckQueue.finSent = true → s.stream.eof = true) : P (sendLoop n s) := by
  have hstep : ∀ s : TCPSender, (P s ∧ s.InLoop) → s.Pushes →
      (P s.sendPayLoad ∧ s.sendPayLoad.InLoop) := by
    rintro s ⟨hs, hin⟩ hgo
    obtain ⟨data, hc⟩ := hcarries s hs
    obtain ⟨seg, hseg⟩ := hin.sends hc hgo
    exact ⟨hsends s _ seg hs hseg, hin.next hseg⟩
  rw [sendLoop_eq_upTo]
  exact (Loop.upTo_invariant hstep ⟨hs, hfinAcked, hsyn, hsynAcked, hfin⟩ n).1

/-- **The rule for `fill_window`.** What the sending of every single segment preserves, the
whole call preserves. -/
theorem fillWindow_rule {s : TCPSender} (hs : P s) : P s.fillWindow := by
  unfold fillWindow
  by_cases hdone : s.unAckQueue.finAcked = true ∨ s.unAckQueue.finSent = true
  · have hcond : (s.unAckQueue.finAcked || (s.unAckQueue.finSent && !s.unAckQueue.finAcked))
        = true := by
      rcases hdone with h | h <;> simp [h]
    rwa [if_pos hcond]
  · have hfinAcked : s.unAckQueue.finAcked = false := by
      simpa using fun h => hdone (Or.inl h)
    have hfin : s.unAckQueue.finSent = false := by
      simpa using fun h => hdone (Or.inr h)
    rw [if_neg (by simp [hfinAcked, hfin])]
    by_cases hsyn : s.unAckQueue.synSent = true
    · rw [if_neg (by simp [hsyn])]
      -- the FIN of its own, when there is room for it
      obtain ⟨s', hs'eq, hs', hfinAcked', hsyn', hfin'⟩ :
          ∃ s' : TCPSender,
            (if !s.unAckQueue.finSent && s.stream.eof && decide (1 < s.remainSpace)
              then s.sendFin else s) = s' ∧ P s' ∧
            s'.unAckQueue.finAcked = false ∧ s'.unAckQueue.synSent = true ∧
            (s'.unAckQueue.finSent = true → s'.stream.eof = true) := by
        split_ifs with h
        · simp only [Bool.and_eq_true, decide_eq_true_eq] at h
          obtain ⟨seg, hseg⟩ := sends_fin hfin hfinAcked hsyn h.1.2 h.2
          refine ⟨_, rfl, hsends s _ seg hs hseg, hseg.finAcked_eq, hseg.synSent_eq, ?_⟩
          rw [hseg.finSent_eq]
          exact hseg.fin_eof
        · exact ⟨s, rfl, hs, hfinAcked, hsyn, fun h => absurd h (by simp [hfin])⟩
      simp only [hs'eq]
      by_cases hsynAcked : s'.unAckQueue.synAcked = true
      · rw [if_neg (by simp [hsynAcked])]
        exact sendLoop_rule hcarries hsends _ hs' hfinAcked' hsyn' hsynAcked hfin'
      · rwa [if_pos (by simp [hsynAcked, hsyn'])]
    · have hsyn' : s.unAckQueue.synSent = false := by simpa using hsyn
      rw [if_pos (by simp [hsyn'])]
      obtain ⟨seg, hseg⟩ := sends_syn hfin hfinAcked hsyn'
      exact hsends s _ seg hs hseg

end

end TCPSender

end Sponge
