import Sponge.Reassembler.Assembly
import Sponge.Receiver.Machine

set_option autoImplicit false

/-! # Receiving one byte string

A peer that sends the byte string `S` from the initial sequence number `isn` on sends segments
that carry slices of `S`, the SYN on the first of them and the FIN at the end of `S`. Given
such segments in any order, with duplicates and overlaps, the receiver delivers a prefix of
`S` and acknowledges exactly that prefix (`Reception.Inv`).

The sequence number of a slice is unwrapped against the number of bytes written. It comes
out right for a slice less than `2 ^ 31` away that starts below `2 ^ 63`; a slice from there on
is stored `2 ^ 32` bytes too far (`highSlice_not_received`, with a capacity that no memory has). -/

namespace Sponge

open Word Pieces Run StreamReassembler

/-- A segment of the peer that sends `S` from `isn` on: it carries the slice of `S` that begins
at `start`. -/
structure PeerSegment (S : Bytes) (isn : WrappingInt32) where
  seg : TCPSegment
  start : Nat
  payload_eq : seg.payload = (S.drop start).take seg.payload.length
  start_le : start ≤ S.length
  syn_start : seg.header.syn = true → start = 0
  seqno_eq : seg.header.seqno = if seg.header.syn then isn else wrap (start + 1) isn
  fin_stop : seg.header.fin = true → start + seg.payload.length = S.length
  /-- Positions in the stream are 64-bit numbers. -/
  stop_lt : start + seg.payload.length < 2 ^ 64

/-- The segment with the `len` bytes of `S` from `start` on. -/
def PeerSegment.slice (S : Bytes) (isn : WrappingInt32) (syn fin : Bool) (start len : Nat)
    (hle : start + len ≤ S.length) (hlt : start + len < 2 ^ 64)
    (hsyn : syn = true → start = 0) (hfin : fin = true → start + len = S.length) :
    PeerSegment S isn :=
  have hlen : ((S.drop start).take len).length = len := by
    rw [List.length_take, List.length_drop]
    omega
  { seg :=
      { header :=
          { seqno := if syn then isn else wrap (start + 1) isn
            syn := syn
            fin := fin }
        payload := (S.drop start).take len }
    start := start
    payload_eq := by rw [hlen]
    start_le := by omega
    syn_start := hsyn
    seqno_eq := rfl
    fin_stop := fun h => by rw [hlen]; exact hfin h
    stop_lt := by rw [hlen]; exact hlt }

/-- What can happen to a receiver whose peer sends `S`. -/
inductive PeerOp (S : Bytes) (isn : WrappingInt32) where
  | segment (p : PeerSegment S isn)
  | read (len : UInt64)
  | pop (len : UInt64)

/-- A receiver together with the bytes that have left its stream and whether a segment with
SYN has arrived. -/
structure Reception where
  receiver : TCPReceiver
  taken : Bytes := []
  synGiven : Bool := false

namespace Reception

variable {S : Bytes} {isn : WrappingInt32}

def new (capacity : UInt64) : Reception := { receiver := TCPReceiver.new capacity }

def step (x : Reception) : PeerOp S isn → Reception
  | .segment p =>
      { x with
        receiver := x.receiver.segmentReceived p.seg
        synGiven := x.synGiven || p.seg.header.syn }
  | .read len =>
      { x with
        receiver := (x.receiver.readOutput len.toNat).2
        taken := x.taken ++ (x.receiver.readOutput len.toNat).1 }
  | .pop len =>
      { x with
        receiver := x.receiver.popOutput len.toNat
        taken := x.taken ++ x.receiver.streamOut.peekOutput len.toNat }

/-- A segment without SYN arrives while its first sequence number is less than `2 ^ 31` away
from the number of bytes written. -/
def Near (x : Reception) : PeerOp S isn → Prop
  | .segment p => p.seg.header.syn = false →
      p.start + 1 < x.receiver.streamOut.bytesWritten + 2 ^ 31 ∧
      x.receiver.streamOut.bytesWritten < p.start + 1 + 2 ^ 31
  | .read _ => True
  | .pop _ => True

/-- A segment without SYN has its first sequence number below `2 ^ 63`. -/
def Low : PeerOp S isn → Prop
  | .segment p => p.seg.header.syn = false → p.start + 1 < 2 ^ 63
  | .read _ => True
  | .pop _ => True

instance decidableNear (x : Reception) : ∀ op : PeerOp S isn, Decidable (x.Near op)
  | .segment _ => inferInstanceAs (Decidable (_ → _))
  | .read _ => inferInstanceAs (Decidable True)
  | .pop _ => inferInstanceAs (Decidable True)

instance decidableLow : ∀ op : PeerOp S isn, Decidable (Low op)
  | .segment _ => inferInstanceAs (Decidable (_ → _))
  | .read _ => inferInstanceAs (Decidable True)
  | .pop _ => inferInstanceAs (Decidable True)

/-- What has arrived is a prefix of `S`, and the acknowledgment number is the one for it. -/
structure Received (S : Bytes) (isn : WrappingInt32) (x : Reception) : Prop where
  written_le : x.receiver.streamOut.bytesWritten ≤ S.length
  taken_append : x.taken ++ x.receiver.streamOut.buf
    = S.take x.receiver.streamOut.bytesWritten
  ackno_eq : x.receiver.ackno =
    if x.synGiven then
      some (wrap (1 + x.receiver.streamOut.bytesWritten +
        (if x.receiver.streamOut.inputEnded then 1 else 0)) isn)
    else none
  ended : x.receiver.streamOut.inputEnded = true →
    x.receiver.streamOut.bytesWritten = S.length

/-! ## The invariant -/

/-- The invariant of a run: the reassembler assembles `S`, what was taken is what the stream
has popped, and the receiver has the peer's initial sequence number once a SYN came. -/
structure Inv (S : Bytes) (isn : WrappingInt32) (x : Reception) : Prop where
  assembles : x.receiver.reassembler.Assembles S
  taken_eq : x.taken = S.take x.receiver.streamOut.numBytesRead
  syn_eq : x.receiver.synRecv = x.synGiven
  synced : x.receiver.synRecv = true →
    x.receiver.isn = isn ∧ x.receiver.lastAckno = wrap x.receiver.ackPos isn

theorem inv_new (S : Bytes) (isn : WrappingInt32) (capacity : UInt64) :
    (new capacity).Inv S isn where
  assembles := assembles_new S capacity
  taken_eq := by simp [new, TCPReceiver.new, StreamReassembler.new, TCPReceiver.streamOut,
    ByteStream.new]
  syn_eq := rfl
  synced := fun h => absurd h Bool.false_ne_true

theorem Inv.received {x : Reception} (h : x.Inv S isn) : x.Received S isn where
  written_le := h.assembles.written_eq.trans_le h.assembles.exIdx_le
  taken_append := by
    have hwritten : x.receiver.streamOut.bytesWritten = x.receiver.reassembler.exIdx :=
      h.assembles.written_eq
    rw [h.taken_eq, hwritten]
    exact h.assembles.take_append_buf
  ackno_eq := by
    unfold TCPReceiver.ackno
    rw [h.syn_eq]
    by_cases hsyn : x.synGiven = true
    · have hrecv := h.syn_eq.trans hsyn
      rw [if_pos hsyn, if_pos hsyn, (h.synced hrecv).2, TCPReceiver.ackPos_eq hrecv]
    · rw [if_neg hsyn, if_neg hsyn]
  ended := fun hend => h.assembles.written_eq.trans (h.assembles.ended_iff.mp hend).2

/-- A payload is pushed at its place in `S`. -/
theorem Inv.push {x : Reception} (h : x.Inv S isn) (p : PeerSegment S isn) :
    Inv S isn { x with
      receiver := { x.receiver with synRecv := true, isn := isn }.push p.seg p.start
      synGiven := true } := by
  have hslice : IsSlice S p.seg.payload p.start := by
    rw [p.payload_eq]
    exact isSlice_take_drop S p.start _
  have hasm := (h.assembles.pushSubstring p.seg.header.fin hslice p.stop_lt p.fin_stop).1
  obtain ⟨w, -, hread⟩ := h.assembles.wf.pushSubstring p.seg.header.fin p.stop_lt
  refine ⟨hasm, ?_, rfl, fun _ => ⟨rfl, TCPReceiver.currentAckno_eq rfl⟩⟩
  rw [h.taken_eq]
  congr 1
  exact hread.symm

/-- The index at which a segment that is near and low is pushed. -/
theorem index_eq {x : Reception} {p : PeerSegment S isn} (hsyn : p.seg.header.syn = false)
    (hnear : x.Near (.segment p)) (hlow : Low (.segment p)) :
    sub64 (unwrap p.seg.header.seqno isn x.receiver.streamOut.bytesWritten) 1 = p.start := by
  obtain ⟨h1, h2⟩ := hnear hsyn
  have h3 := hlow hsyn
  rw [p.seqno_eq, hsyn, if_neg Bool.false_ne_true, unwrap_wrap_near isn (by omega) h2 h1,
    if_pos h3, sub64_eq (by omega) (by omega)]
  rfl

theorem Inv.segment {x : Reception} (h : x.Inv S isn) {p : PeerSegment S isn}
    (hnear : x.Near (.segment p)) (hlow : Low (.segment p)) :
    (x.step (.segment p)).Inv S isn := by
  unfold step TCPReceiver.segmentReceived
  by_cases hsyn : p.seg.header.syn = true
  · by_cases hrecv : x.receiver.synRecv = true
    · -- a second SYN is ignored
      simp only [hsyn, hrecv, if_true, Bool.or_true]
      exact ⟨h.assembles, h.taken_eq, hrecv, h.synced⟩
    · have hseqno : p.seg.header.seqno = isn := by rw [p.seqno_eq, if_pos hsyn]
      have hpush := h.push p
      rw [p.syn_start hsyn] at hpush
      simp only [hsyn, hrecv, if_true, hseqno, Bool.or_true]
      exact hpush
  · have hsyn' : p.seg.header.syn = false := by simpa using hsyn
    by_cases hrecv : x.receiver.synRecv = true
    · obtain ⟨hisn, -⟩ := h.synced hrecv
      have hpush := h.push p
      have hindex := index_eq hsyn' hnear hlow
      rw [TCPReceiver.with_synRecv hrecv hisn] at hpush
      simp only [hsyn', hrecv, Bool.or_false, if_true, hisn, hindex, ← h.syn_eq]
      exact hpush
    · simp only [hsyn', hrecv, Bool.or_false]
      exact h

theorem Inv.step {x : Reception} (h : x.Inv S isn) {op : PeerOp S isn} (hnear : x.Near op)
    (hlow : Low op) : (x.step op).Inv S isn := by
  have hpop : ∀ len : Nat, Inv S isn { x with
      receiver := x.receiver.popOutput len
      taken := x.taken ++ x.receiver.streamOut.peekOutput len } := by
    intro len
    refine ⟨h.assembles.popOutput len, ?_, h.syn_eq, h.synced⟩
    rw [h.taken_eq]
    exact (h.assembles.take_read len).symm
  cases op with
  | segment p => exact h.segment hnear hlow
  | read len => exact hpop len.toNat
  | pop len => exact hpop len.toNat

end Reception

/-! ## Slices beyond `2 ^ 63` -/

namespace StreamReassembler

section

variable {r r' : StreamReassembler} {done data w : Bytes} {index : Nat}

/-- A push writes up to the first index that it leaves without a byte, if the output has room
for that and does not end. -/
theorem Pushes.reaches (h : Pushes r done data index false r' w) (hwf : r.Wf done)
    (hno : ∀ e ∈ r.unassembledStrs, e.1 ≠ r.exIdx) (heof : r.eofSignRecv = false) {m : Nat}
    (hm : m ≤ r.firstUnacceptableIdx) (hcap : m ≤ r.capacity)
    (hall : ∀ i, r.exIdx ≤ i → i < m → ∃ b, Over index data (Holds r.unassembledStrs) i b) :
    m ≤ r'.exIdx := by
  by_contra hlt
  have hex := h.exIdx_eq hwf
  -- the byte at the new `exIdx` was not written, so it is stored
  obtain ⟨b, hb⟩ := hall r'.exIdx (by omega) (by omega)
  rcases h.complete _ b (by omega) (Or.inl (by omega)) hb with hwrite | hheld
  · obtain ⟨hw, -⟩ := List.getElem?_eq_some_iff.mp hwrite
    omega
  · obtain ⟨k, d, hk, hcov⟩ := hheld.covers
    have hahead := h.wf.stored.ahead _ hk
    unfold Covers at hcov
    simp only at hahead
    rcases h.stop hno _ hk (by simp only; omega) with hend | hfull
    · have hsign := (h.ended hend).1
      rw [h.eofSign, heof] at hsign
      cases hsign
    · have h1 := h.wf.out.read_add
      have h2 := h.wf.out.written
      have h3 := h.wf.exIdx_eq
      have h4 := h.wf.capacity_eq
      have h5 := h.capacity
      omega

/-- What is stored after a push was stored before or is in the data. -/
theorem Pushes.stored_from (h : Pushes r done data index false r' w) (hwf : r.Wf done)
    {e : Nat × Bytes} (he : e ∈ r'.unassembledStrs) :
    ∃ b, Over index data (Holds r.unassembledStrs) e.1 b := by
  have hpos := List.length_pos_iff.mpr (h.wf.stored.nonempty e he)
  have hahead := h.wf.stored.ahead e he
  have hex := h.exIdx_eq hwf
  refine ⟨e.2.get ⟨0, hpos⟩, h.sound e.1 _ (by omega) (Or.inr ⟨e.1, e.2, he, le_rfl, ?_⟩)⟩
  rw [Nat.sub_self]
  exact List.getElem?_eq_getElem _

end

/-- The reassembler has written `n` bytes, holds no others, has seen no end, and accepts every
index. -/
structure Level (n : Nat) (r : StreamReassembler) : Prop where
  wf : ∃ done, r.Wf done
  exIdx_eq : r.exIdx = n
  empty : ∀ e, ¬ e ∈ r.unassembledStrs
  noEof : r.eofSignRecv = false
  notEnded : r.output.isInputEnd = false
  unread : r.output.numBytesRead = 0
  capacity_eq : r.capacity = 2 ^ 64 - 1

section

variable {r r' : StreamReassembler} {done data w : Bytes} {index n : Nat}

theorem firstUnacceptableIdx_of_unread (hwf : r.Wf done) (hread : r.output.numBytesRead = 0)
    (hcap : r.capacity = 2 ^ 64 - 1) : r.firstUnacceptableIdx = 2 ^ 64 - 1 := by
  have h1 := hwf.out.read_add
  have h2 := hwf.out.written
  have h3 := hwf.exIdx_eq
  unfold firstUnacceptableIdx ByteStream.bufferSize add64 sub64
  omega

theorem Pushes.notEnded (h : Pushes r done data index false r' w) (heof : r.eofSignRecv = false) :
    r'.output.isInputEnd = false := by
  by_contra hend
  have hsign := (h.ended (Bool.of_not_eq_false hend)).1
  rw [h.eofSign, heof] at hsign
  cases hsign

/-- On a level everything comes from the data of the push. -/
theorem Level.covers (h : r.Level n) {i : Nat} {b : UInt8}
    (hb : Over index data (Holds r.unassembledStrs) i b) : Covers index data i := by
  by_contra hcov
  obtain ⟨k, d, hm, -⟩ := ((over_of_not_covers hcov).mp hb).covers
  exact h.empty _ hm

/-- The next bytes in order are written. -/
theorem Level.next (h : r.Level n) (hlt : n + data.length < 2 ^ 64) :
    (r.pushSubstring data n false).Level (n + data.length) := by
  obtain ⟨done, hwf⟩ := h.wf
  have hex := h.exIdx_eq
  obtain ⟨w, hw⟩ := pushSubstring_spec false hwf h.notEnded hlt
  have hex' := hw.exIdx_eq hwf
  have hle : w.length ≤ data.length := by
    by_contra hgt
    have hcov := h.covers (hw.sound (n + data.length) (w.get ⟨data.length, by omega⟩) (by omega)
      (Or.inl (by rw [hex, Nat.add_sub_cancel_left]; exact List.getElem?_eq_getElem _)))
    unfold Covers at hcov
    omega
  -- the room is enough, so that all of the data is written
  have hge : n + data.length ≤ (r.pushSubstring data n false).exIdx := by
    apply hw.reaches hwf (fun e he => absurd he (h.empty e)) h.noEof
    · rw [firstUnacceptableIdx_of_unread hwf h.unread h.capacity_eq]
      omega
    · rw [h.capacity_eq]
      omega
    · intro i h1 h2
      exact exists_over _ (by unfold Covers; omega)
  refine ⟨⟨_, hw.wf⟩, by omega, fun e he => ?_, ?_, hw.notEnded h.noEof, hw.read.trans h.unread,
    hw.capacity.trans h.capacity_eq⟩
  · obtain ⟨b, hb⟩ := hw.stored_from hwf he
    have hcov := h.covers hb
    have hahead := hw.wf.stored.ahead e he
    unfold Covers at hcov
    omega
  · rw [hw.eofSign, h.noEof]
    rfl

/-- Bytes behind a gap stay stored until the gap is filled, and are written then. -/
theorem Level.fill (h : r.Level n) {b d : Bytes} {i k : Nat} (hb : n < i)
    (hi : i + b.length < 2 ^ 64 - 1) (hk : k ≤ n) (hd : k + d.length = i) (hbpos : 0 < b.length) :
    (r.pushSubstring b i false).output.bytesWritten = n ∧
    i + b.length ≤
      ((r.pushSubstring b i false).pushSubstring d k false).output.bytesWritten := by
  obtain ⟨done, hwf⟩ := h.wf
  have hex := h.exIdx_eq
  have hlt : i + b.length < 2 ^ 64 := by omega
  have hlt' : k + d.length < 2 ^ 64 := by omega
  obtain ⟨w, hw⟩ := pushSubstring_spec false hwf h.notEnded hlt
  have hexy : (r.pushSubstring b i false).exIdx = n := by
    have hnil : w.length = 0 := by
      by_contra hpos
      have hcov := h.covers (hw.sound n (w.get ⟨0, by omega⟩) (by omega)
        (Or.inl (by rw [hex, Nat.sub_self]; exact List.getElem?_eq_getElem _)))
      unfold Covers at hcov
      omega
    rw [hw.exIdx_eq hwf, hex, hnil, Nat.add_zero]
  set y := r.pushSubstring b i false
  have hcap : y.capacity = 2 ^ 64 - 1 := hw.capacity.trans h.capacity_eq
  have hfu := firstUnacceptableIdx_of_unread hwf h.unread h.capacity_eq
  have hnoEof : y.eofSignRecv = false := by
    rw [hw.eofSign, h.noEof]
    rfl
  obtain ⟨v, hv⟩ := pushSubstring_spec false hw.wf (hw.notEnded h.noEof) hlt'
  refine ⟨hw.wf.written_eq.trans hexy, ?_⟩
  rw [ByteStream.bytesWritten, hv.wf.written_eq]
  apply hv.reaches hw.wf _ hnoEof
  · rw [firstUnacceptableIdx_of_unread hw.wf (hw.read.trans h.unread) hcap]
    omega
  · omega
  · intro j h1 h2
    by_cases hj : j < i
    · exact exists_over _ (by unfold Covers; omega)
    · -- a byte of the first push, which is stored
      have hcov : Covers i b j := by unfold Covers; omega
      have hcov' : ¬ Covers k d j := by unfold Covers; omega
      obtain ⟨c, hc⟩ := exists_over (Holds r.unassembledStrs) hcov
      refine ⟨c, (over_of_not_covers hcov').mpr ?_⟩
      rcases hw.complete j c (by omega) (Or.inl (by omega)) hc with hwrite | hheld
      · obtain ⟨hlt, -⟩ := List.getElem?_eq_some_iff.mp hwrite
        have := hw.exIdx_eq hwf
        omega
      · exact hheld
  · intro e he heq
    obtain ⟨c, hc⟩ := hw.stored_from hwf he
    have hcov := h.covers hc
    unfold Covers at hcov
    omega

end

end StreamReassembler

namespace Reception

variable {S : Bytes} {isn : WrappingInt32} {x : Reception} {n : Nat}

/-- The receiver has the peer's SYN and the first `n` bytes. -/
structure AtLevel (isn : WrappingInt32) (n : Nat) (x : Reception) : Prop where
  syn : x.receiver.synRecv = true
  isn_eq : x.receiver.isn = isn
  level : x.receiver.reassembler.Level n

theorem AtLevel.written (h : x.AtLevel isn n) : x.receiver.streamOut.bytesWritten = n := by
  obtain ⟨done, hwf⟩ := h.level.wf
  exact hwf.written_eq.trans h.level.exIdx_eq

/-- Where a segment without SYN is pushed. -/
theorem step_segment {p : PeerSegment S isn} (hsyn : p.seg.header.syn = false)
    (hrecv : x.receiver.synRecv = true) :
    (x.step (.segment p)).receiver = x.receiver.push p.seg
      (sub64 (unwrap p.seg.header.seqno x.receiver.isn x.receiver.streamOut.bytesWritten) 1) := by
  unfold step TCPReceiver.segmentReceived
  simp only [hsyn, hrecv, if_true]
  rfl

/-- The slice of `len` bytes at `start`, without SYN and FIN. -/
def plain (S : Bytes) (isn : WrappingInt32) (start len : Nat) (hle : start + len ≤ S.length)
    (hlt : start + len < 2 ^ 64) : PeerOp S isn :=
  .segment (.slice S isn false false start len hle hlt (fun h => by cases h) (fun h => by cases h))

theorem slice_length {start len : Nat} (hle : start + len ≤ S.length) :
    ((S.drop start).take len).length = len := by
  rw [List.length_take, List.length_drop]
  omega

theorem near_plain {start len : Nat} (hle : start + len ≤ S.length)
    (hlt : start + len < 2 ^ 64) (h1 : start + 1 < x.receiver.streamOut.bytesWritten + 2 ^ 31)
    (h2 : x.receiver.streamOut.bytesWritten < start + 1 + 2 ^ 31) :
    x.Near (plain S isn start len hle hlt) := fun _ => ⟨h1, h2⟩

/-- What a slice does to the reassembler. -/
theorem plain_reassembler {start len : Nat} (hle : start + len ≤ S.length)
    (hlt : start + len < 2 ^ 64) (hsyn : x.receiver.synRecv = true) (hisn : x.receiver.isn = isn)
    (hx : start + 1 < 2 ^ 64 - 2 ^ 32)
    (hnear : x.Near (plain S isn start len hle hlt)) :
    (x.step (plain S isn start len hle hlt)).receiver.reassembler =
      x.receiver.reassembler.pushSubstring ((S.drop start).take len)
        (if start + 1 < 2 ^ 63 then start else start + 2 ^ 32) false := by
  obtain ⟨h1, h2⟩ := hnear rfl
  have hindex : sub64 (unwrap (wrap (start + 1) isn) isn x.receiver.streamOut.bytesWritten) 1
      = if start + 1 < 2 ^ 63 then start else start + 2 ^ 32 := by
    rw [unwrap_wrap_near isn hx h2 h1]
    split_ifs
    · rw [sub64_eq (by omega) (by omega)]
      rfl
    · rw [sub64_eq (by omega) (by omega)]
      omega
  have hstep := step_segment (x := x) (p := .slice S isn false false start len hle hlt
    (fun h => by cases h) (fun h => by cases h)) rfl hsyn
  rw [hisn] at hstep
  unfold plain
  rw [hstep]
  show x.receiver.reassembler.pushSubstring ((S.drop start).take len)
    (sub64 (unwrap (wrap (start + 1) isn) isn x.receiver.streamOut.bytesWritten) 1) false = _
  rw [hindex]

theorem plain_receiver {start len : Nat} (hle : start + len ≤ S.length)
    (hlt : start + len < 2 ^ 64) (hsyn : x.receiver.synRecv = true) (hisn : x.receiver.isn = isn) :
    (x.step (plain S isn start len hle hlt)).receiver.synRecv = true ∧
      (x.step (plain S isn start len hle hlt)).receiver.isn = isn := by
  have hstep := step_segment (x := x) (p := .slice S isn false false start len hle hlt
    (fun h => by cases h) (fun h => by cases h)) rfl hsyn
  unfold plain
  rw [hstep]
  exact ⟨hsyn, hisn⟩

/-- The next slice in order. -/
theorem AtLevel.next (h : x.AtLevel isn n) {len : Nat} (hle : n + len ≤ S.length)
    (hlt : n + len < 2 ^ 64) (hlow : n + 1 < 2 ^ 63) :
    x.Near (plain S isn n len hle hlt) ∧
      (x.step (plain S isn n len hle hlt)).AtLevel isn (n + len) := by
  have hwritten := h.written
  have hnear : x.Near (plain S isn n len hle hlt) := near_plain hle hlt (by omega) (by omega)
  obtain ⟨hsyn, hisn⟩ := plain_receiver hle hlt h.syn h.isn_eq
  refine ⟨hnear, hsyn, hisn, ?_⟩
  rw [plain_reassembler hle hlt h.syn h.isn_eq (by omega) hnear, if_pos hlow]
  have hlen := slice_length hle
  have hlt' : n + ((S.drop n).take len).length < 2 ^ 64 := by rwa [hlen]
  have hnext := h.level.next hlt'
  rwa [hlen] at hnext

/-- Two slices after which the receiver has one byte more than `S`: the first one is stored
`2 ^ 32` bytes too far, at the end of `S`, and the second one fills the gap in front of it. -/
def overrun (S : Bytes) (isn : WrappingInt32) (hS : S.length = 2 ^ 63 - 1 + 2 ^ 32) :
    List (PeerOp S isn) :=
  [plain S isn (2 ^ 63 - 1) 1 (by omega) (by omega),
    plain S isn (2 ^ 63 - 2) (2 ^ 32 + 1) (by omega) (by omega)]

theorem AtLevel.overrun (h : x.AtLevel isn (2 ^ 63 - 1)) (hS : S.length = 2 ^ 63 - 1 + 2 ^ 32) :
    Admits step Near x (overrun S isn hS) ∧
      S.length < (run step x (overrun S isn hS)).receiver.streamOut.bytesWritten := by
  have hle : 2 ^ 63 - 1 + 1 ≤ S.length := by omega
  have hle' : 2 ^ 63 - 2 + (2 ^ 32 + 1) ≤ S.length := by omega
  have hwritten := h.written
  set b := (S.drop (2 ^ 63 - 1)).take 1 with hb
  set d := (S.drop (2 ^ 63 - 2)).take (2 ^ 32 + 1) with hd
  have hblen : b.length = 1 := slice_length hle
  have hdlen : d.length = 2 ^ 32 + 1 := slice_length hle'
  obtain ⟨hfirst, hreach⟩ := h.level.fill (b := b) (d := d) (i := 2 ^ 63 - 1 + 2 ^ 32)
    (k := 2 ^ 63 - 2) (by omega) (by omega) (by omega) (by omega) (by omega)
  set y := x.step (plain S isn (2 ^ 63 - 1) 1 hle (by omega)) with hy
  have hnear : x.Near (plain S isn (2 ^ 63 - 1) 1 hle (by omega)) :=
    near_plain hle (by omega) (by omega) (by omega)
  obtain ⟨hsyn, hisn⟩ := plain_receiver hle (by omega) h.syn h.isn_eq
  -- the first slice is stored a round of `2 ^ 32` behind its place
  have hr : y.receiver.reassembler
      = x.receiver.reassembler.pushSubstring b (2 ^ 63 - 1 + 2 ^ 32) false := by
    rw [hy, plain_reassembler hle (by omega) h.syn h.isn_eq (by omega) hnear, if_neg (by omega)]
  have hwritten' : y.receiver.streamOut.bytesWritten = 2 ^ 63 - 1 := by
    rw [TCPReceiver.streamOut, hr]
    exact hfirst
  have hnear' : y.Near (plain S isn (2 ^ 63 - 2) (2 ^ 32 + 1) hle' (by omega)) :=
    near_plain hle' (by omega) (by omega) (by omega)
  have hr' := plain_reassembler hle' (by omega) hsyn hisn (by omega) hnear'
  rw [if_pos (by omega), ← hd, ← hy, hr] at hr'
  refine ⟨⟨hnear, hnear', trivial⟩, ?_⟩
  show S.length < (y.step (plain S isn (2 ^ 63 - 2) (2 ^ 32 + 1) hle'
    (by omega))).receiver.reassembler.output.bytesWritten
  rw [hr']
  omega

/-- The SYN and the slices of a long stream in order, up to `2 ^ 63 - 1`. -/
def inOrder (S : Bytes) (isn : WrappingInt32) (hS : S.length = 2 ^ 63 - 1 + 2 ^ 32) :
    List (PeerOp S isn) :=
  [.segment (.slice S isn true false 0 0 (by omega) (by omega) (fun _ => rfl) (fun h => by cases h)),
    plain S isn 0 (2 ^ 61) (by omega) (by omega),
    plain S isn (0 + 2 ^ 61) (2 ^ 61) (by omega) (by omega),
    plain S isn (0 + 2 ^ 61 + 2 ^ 61) (2 ^ 61) (by omega) (by omega),
    plain S isn (0 + 2 ^ 61 + 2 ^ 61 + 2 ^ 61) (2 ^ 61 - 1) (by omega) (by omega)]

theorem inOrder_level (isn : WrappingInt32) (hS : S.length = 2 ^ 63 - 1 + 2 ^ 32) :
    Admits step Near (new 18446744073709551615) (inOrder S isn hS) ∧
      (run step (new 18446744073709551615) (inOrder S isn hS)).AtLevel isn (2 ^ 63 - 1) := by
  have hsyn : (step (new 18446744073709551615) (.segment (.slice S isn true false 0 0 (by omega)
      (by omega) (fun _ => rfl) (fun h => by cases h)))).AtLevel isn 0 := by
    have hr : (step (new 18446744073709551615) (.segment (.slice S isn true false 0 0 (by omega)
        (by omega) (fun _ => rfl) (fun h => by cases h)))).receiver.reassembler
        = (StreamReassembler.new 18446744073709551615).pushSubstring ((S.drop 0).take 0) 0 false :=
      rfl
    refine ⟨rfl, rfl, ?_⟩
    rw [hr, List.take_zero, pushSubstring_nil]
    exact ⟨⟨[], wf_new _⟩, rfl, OrdMap.not_mem_empty, rfl, rfl, rfl, rfl⟩
  have hle₁ : 0 + 2 ^ 61 ≤ S.length := by omega
  have hle₂ : 0 + 2 ^ 61 + 2 ^ 61 ≤ S.length := by omega
  have hle₃ : 0 + 2 ^ 61 + 2 ^ 61 + 2 ^ 61 ≤ S.length := by omega
  have hle₄ : 0 + 2 ^ 61 + 2 ^ 61 + 2 ^ 61 + (2 ^ 61 - 1) ≤ S.length := by omega
  obtain ⟨hnear₁, h₁⟩ := hsyn.next hle₁ (by omega) (by omega)
  obtain ⟨hnear₂, h₂⟩ := h₁.next hle₂ (by omega) (by omega)
  obtain ⟨hnear₃, h₃⟩ := h₂.next hle₃ (by omega) (by omega)
  obtain ⟨hnear₄, h₄⟩ := h₃.next hle₄ (by omega) (by omega)
  exact ⟨⟨fun h => (by cases h), hnear₁, hnear₂, hnear₃, hnear₄, trivial⟩, h₄⟩

/-- **Not every stream is received**: of a stream of `2 ^ 63 - 1 + 2 ^ 32` bytes, slices that
each arrive near the end of what was written make the receiver deliver one byte too many. -/
theorem highSlice_not_received :
    let S : Bytes := List.replicate (2 ^ 63 - 1 + 2 ^ 32) 0
    let ops := inOrder S ⟨0⟩ List.length_replicate ++ overrun S ⟨0⟩ List.length_replicate
    Admits step Near (new 18446744073709551615) ops ∧
      ¬ (run step (new 18446744073709551615) ops).Received S ⟨0⟩ := by
  intro S ops
  have hS : S.length = 2 ^ 63 - 1 + 2 ^ 32 := List.length_replicate
  obtain ⟨hin, hlevel⟩ := inOrder_level ⟨0⟩ hS
  obtain ⟨hover, hlt⟩ := hlevel.overrun hS
  refine ⟨admits_append.mpr ⟨hin, hover⟩, ?_⟩
  intro hreceived
  have hle := hreceived.written_le
  rw [run_append] at hle
  exact absurd hle (not_le.mpr hlt)

end Reception

end Sponge
