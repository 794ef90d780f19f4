import Sponge.Reassembler.Assembly
import Sponge.Receiver.Machine
import Sponge.Sender.Queue
import Sponge.TCPConnection

set_option autoImplicit false

/-! # One direction of a connection

What a sender has put on the wire is an initial sequence number, a prefix of its stream and
the marks SYN and FIN: an `Outflow`. Every segment of the sender is `Honest` about it, a
receiver that is given honest segments only has `Delivered` a part of it, and the
acknowledgments it sends lie in that part. All three only gain as the sender goes on
(`Outflow.Extends`). -/

namespace Sponge

open Word StreamReassembler

/-- What a sender has put on the wire so far. -/
structure Outflow where
  isn : WrappingInt32
  bytes : Bytes
  synSent : Bool
  finSent : Bool

namespace Outflow

/-- `o'` is a later outflow of the sender of `o`: after the FIN there are no more bytes. -/
structure Extends (o o' : Outflow) : Prop where
  isn_eq : o'.isn = o.isn
  bytes_le : o.bytes <+: o'.bytes
  synSent : o.synSent = true → o'.synSent = true
  finSent : o.finSent = true → o'.finSent = true ∧ o'.bytes = o.bytes

theorem Extends.refl (o : Outflow) : o.Extends o := ⟨rfl, List.prefix_rfl, id, fun h => ⟨h, rfl⟩⟩

/-- The absolute sequence number behind everything that was sent. -/
def limit (o : Outflow) : Nat :=
  (if o.synSent then 1 else 0) + o.bytes.length + (if o.finSent then 1 else 0)

/-- The segment carries bytes of the outflow at their place, and SYN and FIN where they are. -/
structure Honest (o : Outflow) (seg : TCPSegment) : Prop where
  opening : seg.header.syn = true →
    seg.header.seqno = o.isn ∧ seg.payload = [] ∧ seg.header.fin = false ∧ o.synSent = true
  slice : seg.header.syn = false → (seg.payload = [] ∧ seg.header.fin = false) ∨
    ∃ pos, seg.header.seqno = wrap (pos + 1) o.isn ∧ IsSlice o.bytes seg.payload pos ∧
      pos + seg.payload.length ≤ o.bytes.length ∧
      (seg.header.fin = true → o.finSent = true ∧ pos + seg.payload.length = o.bytes.length)

/-- Segments without payload, SYN and FIN say nothing. -/
theorem honest_empty (o : Outflow) {seg : TCPSegment} (hsyn : seg.header.syn = false)
    (hfin : seg.header.fin = false) (hpayload : seg.payload = []) : o.Honest seg :=
  ⟨fun h => absurd (hsyn.symm.trans h) Bool.false_ne_true, fun _ => Or.inl ⟨hpayload, hfin⟩⟩

theorem Honest.extend {o o' : Outflow} {seg : TCPSegment} (h : o.Honest seg)
    (hext : o.Extends o') : o'.Honest seg := by
  refine ⟨fun hsyn => ?_, fun hsyn => ?_⟩
  · obtain ⟨hseqno, hpayload, hfin, hsent⟩ := h.opening hsyn
    exact ⟨hseqno.trans hext.isn_eq.symm, hpayload, hfin, hext.synSent hsent⟩
  · rcases h.slice hsyn with hempty | ⟨pos, hseqno, hslice, hle, hfin⟩
    · exact Or.inl hempty
    · refine Or.inr ⟨pos, hseqno.trans (by rw [hext.isn_eq]), ?_, ?_, ?_⟩
      · intro j b hj
        obtain ⟨rest, hrest⟩ := hext.bytes_le
        have hb := hslice j b hj
        obtain ⟨hlt, -⟩ := List.getElem?_eq_some_iff.mp hb
        rw [← hrest, List.getElem?_append_left hlt, hb]
      · exact hle.trans hext.bytes_le.length_le
      · intro hf
        obtain ⟨hsent, hend⟩ := hfin hf
        obtain ⟨hsent', hbytes⟩ := hext.finSent hsent
        exact ⟨hsent', by rw [hbytes, hend]⟩

/-- The acknowledgment that is put into a segment does not change what it says. -/
theorem Honest.withAck {o : Outflow} {seg : TCPSegment} (h : o.Honest seg) (r : TCPReceiver) :
    o.Honest (TCPConnection.withAck r seg) := by
  unfold TCPConnection.withAck
  split
  · split_ifs
    · exact h
    · exact ⟨h.opening, h.slice⟩
  · exact h

/-- The acknowledgment of a segment, if it has one, is at most `pos` in the sequence space
that starts at `isn`. -/
def AcksUpTo (isn : WrappingInt32) (pos : Nat) (seg : TCPSegment) : Prop :=
  seg.header.ack = true → ∃ a, seg.header.ackno = wrap a isn ∧ 1 ≤ a ∧ a ≤ pos

theorem AcksUpTo.mono {isn : WrappingInt32} {pos pos' : Nat} {seg : TCPSegment}
    (h : AcksUpTo isn pos seg) (hle : pos ≤ pos') : AcksUpTo isn pos' seg := by
  intro hack
  obtain ⟨a, hackno, hpos, ha⟩ := h hack
  exact ⟨a, hackno, hpos, ha.trans hle⟩

end Outflow

/-! ## The receiver -/

namespace TCPReceiver

/-- What the receiver `r` has got of the outflow `o`; `taken` has been read from its stream. -/
structure Delivered (r : TCPReceiver) (o : Outflow) (taken : Bytes) : Prop where
  assembles : r.reassembler.Assembles o.bytes
  taken_eq : taken = o.bytes.take r.streamOut.numBytesRead
  eof : r.reassembler.eofSignRecv = true → o.finSent = true
  listen : r.synRecv = false → r.reassembler.exIdx = 0 ∧ r.reassembler.eofSignRecv = false
  synced : r.synRecv = true →
    o.synSent = true ∧ r.isn = o.isn ∧ r.lastAckno = wrap r.ackPos o.isn

section

variable {r : TCPReceiver} {o : Outflow} {taken : Bytes}

theorem delivered_new (capacity : UInt64) (isn : WrappingInt32) :
    (new capacity).Delivered ⟨isn, [], false, false⟩ [] where
  assembles := assembles_new [] capacity
  taken_eq := by simp
  eof := fun h => absurd h Bool.false_ne_true
  listen := fun _ => ⟨rfl, rfl⟩
  synced := fun h => absurd h Bool.false_ne_true

/-- What was read and what is buffered is the assembled part of the outflow. -/
theorem Delivered.taken_append (h : r.Delivered o taken) :
    taken ++ r.streamOut.buf = o.bytes.take r.streamOut.bytesWritten := by
  have hwritten : r.streamOut.bytesWritten = r.reassembler.exIdx := h.assembles.written_eq
  rw [h.taken_eq, hwritten]
  exact h.assembles.take_append_buf

theorem Delivered.written_le (h : r.Delivered o taken) :
    r.streamOut.bytesWritten ≤ o.bytes.length :=
  h.assembles.written_eq.trans_le h.assembles.exIdx_le

/-- At the end of the inbound stream everything has arrived. -/
theorem Delivered.ended (h : r.Delivered o taken) (hend : r.streamOut.inputEnded = true) :
    o.finSent = true ∧ r.streamOut.bytesWritten = o.bytes.length := by
  obtain ⟨heof, hex⟩ := h.assembles.ended_iff.mp hend
  exact ⟨h.eof heof, h.assembles.written_eq.trans hex⟩

/-- The acknowledgment position does not pass what was sent. -/
theorem Delivered.ackPos_le (h : r.Delivered o taken) : r.ackPos ≤ o.limit := by
  have hle := h.written_le
  unfold ackPos Outflow.limit
  by_cases hsyn : r.synRecv = true
  · rw [if_pos hsyn, if_pos (h.synced hsyn).1]
    by_cases hend : r.streamOut.inputEnded = true
    · rw [if_pos hend, if_pos (h.ended hend).1]
      omega
    · rw [if_neg hend]
      omega
  · rw [if_neg hsyn]
    omega

theorem Delivered.extend (h : r.Delivered o taken) {o' : Outflow} (hext : o.Extends o') :
    r.Delivered o' taken where
  assembles := h.assembles.extend hext.bytes_le (fun heof => (hext.finSent (h.eof heof)).2)
  taken_eq := by
    obtain ⟨rest, hrest⟩ := hext.bytes_le
    have hread : r.streamOut.numBytesRead ≤ o.bytes.length :=
      h.assembles.read_le.trans h.assembles.exIdx_le
    rw [h.taken_eq, ← hrest, List.take_append_of_le_length hread]
  eof := fun heof => (hext.finSent (h.eof heof)).1
  listen := h.listen
  synced := by
    intro hsyn
    obtain ⟨hsent, hisn, hackno⟩ := h.synced hsyn
    rw [hext.isn_eq]
    exact ⟨hext.synSent hsent, hisn, hackno⟩

theorem Delivered.setError (h : r.Delivered o taken) : r.setError.Delivered o taken where
  assembles := ⟨⟨h.assembles.wf.out.setError, h.assembles.wf.exIdx_eq, h.assembles.wf.capacity_eq,
    h.assembles.wf.stored⟩, h.assembles.agrees, h.assembles.eofIdx_eq, h.assembles.ended_iff⟩
  taken_eq := h.taken_eq
  eof := h.eof
  listen := h.listen
  synced := h.synced

theorem Delivered.readOutput (h : r.Delivered o taken) (len : Nat) :
    (r.readOutput len).2.Delivered o (taken ++ (r.readOutput len).1) where
  assembles := h.assembles.popOutput len
  taken_eq := by
    rw [h.taken_eq]
    exact (h.assembles.take_read len).symm
  eof := h.eof
  listen := h.listen
  synced := h.synced

/-- A push of bytes of the outflow. -/
theorem Delivered.push (h : r.Delivered o taken) (hsyn : r.synRecv = true) {seg : TCPSegment}
    {pos : Nat} (hslice : IsSlice o.bytes seg.payload pos)
    (hlt : pos + seg.payload.length < 2 ^ 64)
    (hfin : seg.header.fin = true → o.finSent = true ∧
      pos + seg.payload.length = o.bytes.length) :
    (r.push seg pos).Delivered o taken ∧ r.ackPos ≤ (r.push seg pos).ackPos := by
  obtain ⟨hasm, heof⟩ := h.assembles.pushSubstring seg.header.fin hslice hlt
    (fun hf => (hfin hf).2)
  obtain ⟨w, hwf, hread⟩ := h.assembles.wf.pushSubstring seg.header.fin hlt
  have hsyn' : (r.push seg pos).synRecv = true := hsyn
  obtain ⟨hsent, hisn, -⟩ := h.synced hsyn
  refine ⟨⟨hasm, ?_, ?_, fun hf => absurd (hsyn'.symm.trans hf) (by simp), fun _ => ?_⟩, ?_⟩
  · have hread' : (r.push seg pos).streamOut.numBytesRead = r.streamOut.numBytesRead := hread
    rw [hread']
    exact h.taken_eq
  · intro he
    rw [show (r.push seg pos).reassembler.eofSignRecv = _ from heof, Bool.or_eq_true] at he
    rcases he with he | he
    · exact h.eof he
    · exact (hfin he).1
  · refine ⟨hsent, hisn, ?_⟩
    rw [← hisn]
    exact currentAckno_eq (r := { r with
      reassembler := r.reassembler.pushSubstring seg.payload pos seg.header.fin }) hsyn
  · -- an ended stream stays as it is, and else the FIN does not count yet
    by_cases hend : r.streamOut.inputEnded = true
    · apply le_of_eq
      unfold TCPReceiver.push ackPos streamOut
      simp only [pushSubstring_of_ended _ _ _ hend]
    · have hmono : r.streamOut.bytesWritten ≤ (r.push seg pos).streamOut.bytesWritten := by
        calc r.streamOut.bytesWritten
            = r.reassembler.exIdx := h.assembles.written_eq
          _ = (o.bytes.take r.reassembler.exIdx).length := h.assembles.wf.exIdx_eq
          _ ≤ (o.bytes.take r.reassembler.exIdx ++ w).length := by simp
          _ = (r.push seg pos).reassembler.exIdx := hwf.exIdx_eq.symm
          _ = (r.push seg pos).streamOut.bytesWritten := hasm.written_eq.symm
      unfold ackPos
      rw [if_pos hsyn, if_pos hsyn', if_neg hend]
      omega

/-- The position does not change when nothing is pushed. -/
theorem Delivered.push_empty (h : r.Delivered o taken) (hsyn : r.synRecv = true)
    {seg : TCPSegment} (hpayload : seg.payload = []) (hfin : seg.header.fin = false) (pos : Nat) :
    (r.push seg pos).Delivered o taken ∧ r.ackPos ≤ (r.push seg pos).ackPos := by
  have hpush : r.push seg pos = r.push seg 0 := by
    unfold TCPReceiver.push
    rw [hpayload, hfin, pushSubstring_nil, pushSubstring_nil]
  rw [hpush]
  apply h.push hsyn
  · intro j b hj
    rw [hpayload] at hj
    cases hj
  · rw [hpayload]
    norm_num
  · exact fun hf => absurd (hfin.symm.trans hf) Bool.false_ne_true

/-- The first SYN. -/
theorem Delivered.open (h : r.Delivered o taken) (hsyn : r.synRecv = false)
    (hsent : o.synSent = true) :
    ({ r with synRecv := true, isn := o.isn, lastAckno := wrap 1 o.isn } : TCPReceiver).Delivered
      o taken := by
  obtain ⟨hex, heof⟩ := h.listen hsyn
  have hend : r.streamOut.inputEnded = false := by
    by_contra hend
    have hsign := (h.assembles.ended_iff.mp (Bool.of_not_eq_false hend)).1
    exact Bool.false_ne_true (heof.symm.trans hsign)
  have hwritten : r.streamOut.bytesWritten = 0 := h.assembles.written_eq.trans hex
  have hpos : ({ r with synRecv := true, isn := o.isn, lastAckno := wrap 1 o.isn } :
      TCPReceiver).ackPos = 1 := by
    show 1 + r.streamOut.bytesWritten + (if r.streamOut.inputEnded then 1 else 0) = 1
    rw [hwritten, hend]
    rfl
  refine ⟨h.assembles, h.taken_eq, h.eof, fun hf => absurd hf (by simp), ?_⟩
  intro _
  exact ⟨hsent, rfl, by rw [hpos]⟩

/-- Where a slice of the outflow is pushed. -/
theorem Delivered.index_eq (h : r.Delivered o taken) (hsyn : r.synRecv = true)
    (hlen : o.bytes.length < 2 ^ 31) {seqno : WrappingInt32} {pos : Nat}
    (hseqno : seqno = wrap (pos + 1) o.isn) (hle : pos ≤ o.bytes.length) :
    sub64 (unwrap seqno r.isn r.streamOut.bytesWritten) 1 = pos := by
  have hwritten := h.written_le
  rw [hseqno, (h.synced hsyn).2.1, unwrap_wrap_eq o.isn (by omega) (by omega) (by omega),
    sub64_eq (by omega) (by omega)]
  rfl

/-- **Honest segments keep what was delivered a part of the outflow**, as long as that is
shorter than half of the sequence space. -/
theorem Delivered.segmentReceived (h : r.Delivered o taken) {seg : TCPSegment}
    (hseg : o.Honest seg) (hlen : o.bytes.length < 2 ^ 31) :
    (r.segmentReceived seg).Delivered o taken ∧ r.ackPos ≤ (r.segmentReceived seg).ackPos := by
  unfold TCPReceiver.segmentReceived
  split_ifs with hsynSeg hsyn hsyn
  · exact ⟨h, le_rfl⟩
  · obtain ⟨hseqno, hpayload, hfin, hsent⟩ := hseg.opening hsynSeg
    have hsyn' : r.synRecv = false := by simpa using hsyn
    have hopen := h.open hsyn' hsent
    -- the push computes the acknowledgment number again
    have hpush : ({ r with synRecv := true, isn := seg.header.seqno } : TCPReceiver).push seg 0
        = ({ r with synRecv := true, isn := o.isn, lastAckno := wrap 1 o.isn } :
          TCPReceiver).push seg 0 := by
      rw [hseqno]
      rfl
    rw [hpush]
    refine ⟨(hopen.push_empty rfl hpayload hfin 0).1, ?_⟩
    unfold ackPos
    rw [if_neg hsyn]
    exact Nat.zero_le _
  · have hsynSeg' : seg.header.syn = false := by simpa using hsynSeg
    rcases hseg.slice hsynSeg' with ⟨hpayload, hfin⟩ | ⟨pos, hseqno, hslice, hle, hfin⟩
    · exact h.push_empty hsyn hpayload hfin _
    · simp only [h.index_eq hsyn hlen hseqno (by omega)]
      exact h.push hsyn hslice (by omega) hfin
  · exact ⟨h, le_rfl⟩

/-- The acknowledgment that a segment is sent with. -/
theorem Delivered.withAck (h : r.Delivered o taken) {seg : TCPSegment}
    (hack : seg.header.ack = false) :
    Outflow.AcksUpTo o.isn r.ackPos (TCPConnection.withAck r seg) := by
  intro hack'
  by_cases hsyn : r.synRecv = true
  · have hpos : 1 ≤ r.ackPos := by
      unfold ackPos
      rw [if_pos hsyn]
      omega
    by_cases hrst : seg.header.rst = true
    · simp [TCPConnection.withAck, ackno, hsyn, hrst, hack] at hack'
    · refine ⟨r.ackPos, ?_, hpos, le_rfl⟩
      simp [TCPConnection.withAck, ackno, hsyn, hrst, (h.synced hsyn).2.2]
  · simp [TCPConnection.withAck, ackno, hsyn, hack] at hack'

end

end TCPReceiver

/-! ## The sender -/

namespace TCPSender

/-- The outflow of a sender whose stream has accepted `data`. -/
def outflow (s : TCPSender) (data : Bytes) : Outflow where
  isn := s.isn
  bytes := data.take s.stream.numBytesRead
  synSent := s.unAckQueue.synSent
  finSent := s.unAckQueue.finSent

section

variable {s : TCPSender} {data : Bytes}

theorem Sound.outflow_length (h : s.Sound data) :
    (s.outflow data).bytes.length = s.stream.numBytesRead := by
  have hread := h.carries.read_le
  show (data.take s.stream.numBytesRead).length = _
  rw [List.length_take]
  omega

theorem Sound.next_eq_limit (h : s.Sound data) :
    s.unAckQueue.nextSeqno = (s.outflow data).limit := by
  rw [Outflow.limit, h.outflow_length]
  exact h.next_eq

/-- The outflow with the FIN is the whole stream. -/
theorem Sound.outflow_of_fin (h : s.Sound data) (hfin : s.unAckQueue.finSent = true) :
    s.stream.inputEnded = true ∧ (s.outflow data).bytes = data := by
  have heof := h.fin_eof hfin
  constructor
  · simp only [ByteStream.eof, Bool.and_eq_true] at heof
    exact heof.2
  · show data.take s.stream.numBytesRead = data
    rw [h.carries.read_eq_of_eof heof, List.take_length]

/-- Writing does not touch what was sent. -/
theorem Sound.outflow_write (h : s.Sound data) (d : Bytes) :
    (s.writeStream d).1.outflow (data ++ d.take (s.writeStream d).2) = s.outflow data := by
  have htake : (data ++ d.take (s.writeStream d).2).take (s.writeStream d).1.stream.numBytesRead
      = data.take s.stream.numBytesRead := by
    rw [show (s.writeStream d).1.stream.numBytesRead = _ from
      ByteStream.write_numBytesRead s.stream d]
    exact List.take_append_of_le_length h.carries.read_le
  unfold outflow
  rw [htake]
  rfl

theorem Sends.extends {s' : TCPSender} {seg : TCPSegment} (hs : s.Sends s' seg)
    (hc : s.stream.Carries data) : (s.outflow data).Extends (s'.outflow data) where
  isn_eq := hs.isn_eq
  bytes_le := by
    show data.take s.stream.numBytesRead <+: data.take s'.stream.numBytesRead
    rw [hs.take_eq hc]
    exact List.prefix_append _ _
  synSent := fun _ => hs.synSent_eq
  finSent := fun hfin => absurd (hs.finSent_before.symm.trans hfin) Bool.false_ne_true

/-- A piece that follows the bytes sent so far is a slice of the longer outflow. -/
theorem isSlice_append (S piece : Bytes) : IsSlice (S ++ piece) piece S.length := by
  intro j b hj
  rwa [List.getElem?_append_right (by omega), Nat.add_sub_cancel_left]

/-- New segments are honest. -/
theorem Tracks.honest_sends (h : s.Tracks data) {s' : TCPSender} {seg : TCPSegment}
    (hs : s.Sends s' seg) : (s'.outflow data).Honest seg := by
  have hlen : (data.take s.stream.numBytesRead).length = s.stream.numBytesRead :=
    h.outflow_length
  refine ⟨fun hsyn => ?_, fun hsyn => Or.inr ⟨s.stream.numBytesRead, ?_, ?_, ?_, ?_⟩⟩
  · have hunsent : s.unAckQueue.synSent = false := by simpa [hsyn] using hs.syn_eq
    have hunacked : s.unAckQueue.synAcked = false := by
      by_contra hacked
      exact absurd (h.synced (by simpa using hacked)).2 (by simp [hunsent])
    have hfin := Opening.fin_eq_false h.opening h.toSound hs hunacked
    refine ⟨?_, hs.syn_payload hsyn, hfin, hs.synSent_eq⟩
    rw [hs.seqno_eq, if_pos hsyn, wrap_zero]
    exact hs.isn_eq.symm
  · -- in front of the FIN the next number is one past the bytes that were read
    have hnext := h.next_of_syn (by simpa [hsyn] using hs.syn_eq)
    rw [hs.finSent_before, if_neg Bool.false_ne_true, Nat.add_zero] at hnext
    rw [hs.seqno_eq, hsyn, if_neg Bool.false_ne_true, hnext]
    exact congrArg _ hs.isn_eq.symm
  · show IsSlice (data.take s'.stream.numBytesRead) seg.payload s.stream.numBytesRead
    have hslice := isSlice_append (data.take s.stream.numBytesRead) seg.payload
    rwa [← hs.take_eq h.carries, hlen] at hslice
  · show s.stream.numBytesRead + seg.payload.length ≤ (data.take s'.stream.numBytesRead).length
    rw [hs.take_eq h.carries, List.length_append, hlen]
  · intro hfin
    refine ⟨hs.finSent_eq.trans hfin, ?_⟩
    show s.stream.numBytesRead + seg.payload.length = (data.take s'.stream.numBytesRead).length
    rw [hs.take_eq h.carries, List.length_append, hlen]

/-- A timeout reads only bytes of the queue. -/
def FrontInside (s : TCPSender) : Prop :=
  s.unAckQueue.unAcked ≠ [] →
    s.unAckQueue.unAckedPayloadSize.headD 0 ≤ s.unAckQueue.unAcked.length

instance (s : TCPSender) : Decidable s.FrontInside := inferInstanceAs (Decidable (_ → _))

/-- The first bytes of the queue, sent again. -/
theorem Tracks.honest_frontSeg (h : s.Tracks data) (hsyn : s.unAckQueue.synAcked = true)
    (hne : s.unAckQueue.unAcked ≠ []) (hfront : s.FrontInside) (junk : Nat → UInt8) :
    (s.outflow data).Honest (s.unAckQueue.frontSeg junk s.isn) := by
  have hle := hfront hne
  obtain ⟨hpayload, hpayloadLen⟩ := frontSeg_payload junk s.unAckQueue s.isn hle
  have hpos := (h.synced hsyn).1
  have hsent := (h.synced hsyn).2
  have hlen := h.unAcked_length
  have hnext := h.next_of_syn hsent
  have hread : (s.outflow data).bytes.length = s.stream.numBytesRead := h.outflow_length
  have hne' := List.length_pos_iff_ne_nil.mpr hne
  refine ⟨fun hf => absurd hf Bool.false_ne_true, fun _ =>
    Or.inr ⟨s.unAckQueue.baseSqn - 1, ?_, ?_, ?_, ?_⟩⟩
  · rw [Nat.sub_add_cancel hpos]
    rfl
  · rw [hpayload, h.unAcked_eq]
    exact isSlice_take_drop (s.outflow data).bytes _ _
  · rw [hpayloadLen, hread]
    omega
  · -- the FIN goes with the segment that ends where it was sent
    intro hfin
    obtain ⟨hfinSent, hlast⟩ := (frontSeg_fin junk s.unAckQueue s.isn).mp hfin
    refine ⟨hfinSent, ?_⟩
    rw [hpayloadLen, hread]
    rw [if_pos hfinSent] at hnext
    omega

/-- What a timeout sends is honest. -/
theorem Tracks.honest_retransmitSeg (h : s.Tracks data) (hrun : s.timer.isTimerRunning = true)
    (hfront : s.FrontInside) (junk : Nat → UInt8) :
    (s.outflow data).Honest (s.retransmitSeg junk).1 ∧
      (s.retransmitSeg junk).1.header.ack = false := by
  rcases h.retransmitSeg_cases hrun junk with ⟨hsyn, hbase, hnext, heq⟩ |
      ⟨hsyn, hfin, hnil, hbase, heq⟩ | ⟨hsyn, hne, heq⟩
  · have hsent : s.unAckQueue.synSent = true := by
      by_contra hsent
      have := h.fresh (by simpa using hsent)
      omega
    rw [heq]
    exact ⟨⟨fun _ => ⟨rfl, rfl, rfl, hsent⟩, fun hf => absurd hf (by simp)⟩, rfl⟩
  · -- the FIN alone
    obtain ⟨hpos, hsent⟩ := h.synced hsyn
    have hnext := h.next_of_syn hsent
    rw [if_pos hfin] at hnext
    have hread : (s.outflow data).bytes.length = s.stream.numBytesRead := h.outflow_length
    rw [heq]
    refine ⟨⟨fun hf => absurd hf Bool.false_ne_true, fun _ =>
      Or.inr ⟨s.unAckQueue.baseSqn - 1, ?_, ?_, ?_, fun _ => ⟨hfin, ?_⟩⟩⟩, rfl⟩
    · rw [Nat.sub_add_cancel hpos]
      rfl
    · intro j b hj
      cases hj
    · rw [hread, List.length_nil]
      omega
    · rw [hread, List.length_nil]
      omega
  · rw [heq]
    exact ⟨h.honest_frontSeg hsyn hne hfront junk, rfl⟩

theorem outflow_ackReceived (s : TCPSender) (data : Bytes) (ackno : WrappingInt32) (w : UInt16) :
    (s.ackReceived ackno w).outflow data = s.outflow data := by
  rw [ackReceived_eq]
  split_ifs with hign
  · rfl
  · obtain ⟨hsyn, hfin, -⟩ := UnAckQueue.updateBase_frame (base_lt_of_not_ignores w hign)
    unfold outflow
    rw [hsyn, hfin]
    rfl

theorem ackReceived_base_le (s : TCPSender) (ackno : WrappingInt32) (w : UInt16) {pos : Nat}
    (hbase : s.unAckQueue.baseSqn ≤ pos)
    (hack : s.Ignores (s.absAckno ackno) ∨ s.absAckno ackno ≤ pos) :
    (s.ackReceived ackno w).unAckQueue.baseSqn ≤ pos := by
  rw [ackReceived_eq]
  split_ifs with hign
  · exact hbase
  · obtain ⟨-, -, -, hle⟩ := UnAckQueue.updateBase_frame (base_lt_of_not_ignores w hign)
    exact hle.trans (hack.resolve_left hign)

/-- **An acknowledgment that is at most `pos` moves the base to at most `pos`.** A very old one
may be read a round later. It lies beyond the FIN then, and is ignored. -/
theorem Tracks.ackReceived_upTo (h : s.Tracks data) (hlen : data.length < 2 ^ 31) {a pos : Nat}
    (ha : 1 ≤ a) (hapos : a ≤ pos) (hbase : s.unAckQueue.baseSqn ≤ pos)
    (hpos : pos ≤ (s.outflow data).limit) (w : UInt16) :
    (s.ackReceived (wrap a s.isn) w).Tracks data ∧
      (s.ackReceived (wrap a s.isn) w).unAckQueue.baseSqn ≤ pos := by
  rw [← h.next_eq_limit] at hpos
  have hread := h.carries.read_le
  have hle := h.base_le
  have hnext := h.next_eq
  have habs : s.absAckno (wrap a s.isn)
      = if a + 2 ^ 31 ≤ s.unAckQueue.baseSqn then a + 2 ^ 32 else a := by
    apply unwrap_wrap
    · split_ifs at hnext <;> omega
    · split_ifs at hnext <;> omega
  by_cases hold : a + 2 ^ 31 ≤ s.unAckQueue.baseSqn
  · rw [if_pos hold] at habs
    -- a base that far needs all the bytes and the FIN
    have hfin : s.unAckQueue.finSent = true := by
      by_contra hfin
      rw [if_neg hfin] at hnext
      split_ifs at hnext <;> omega
    refine ⟨h.ackReceived (by omega) (Or.inr hfin) w, ?_⟩
    refine ackReceived_base_le s _ w hbase (Or.inl (Or.inl ⟨hfin, ?_⟩))
    rw [habs]
    split_ifs at hnext <;> omega
  · rw [if_neg hold] at habs
    refine ⟨h.ackReceived (by omega) (Or.inl (by omega)) w, ?_⟩
    exact ackReceived_base_le s _ w hbase (Or.inr (by omega))

end

end TCPSender

end Sponge
