import Sponge.Reassembler.Freed
import Sponge.Receiver.Stream

set_option autoImplicit false

/-! # Receiving, whatever an erased element reads

The receiver over a reassembler that uses what it has erased (`StreamReassembler.Freed`). As long
as the slices of a byte string make it write stored substrings as a whole only, it delivers a
prefix of the string and acknowledges that (`received_run`). When the stream has room for a part of
a substring, the rest of it is lost with the element (`freedSlice_not_received`). -/

namespace Sponge

open Word Pieces Run StreamReassembler

namespace TCPReceiver

/-- The push that the segment leads to writes stored substrings as a whole only. -/
def Unbroken (r : TCPReceiver) (seg : TCPSegment) : Prop :=
  if seg.header.syn then
    r.synRecv = true ∨ r.reassembler.Unbroken seg.payload 0 seg.header.fin
  else r.synRecv = true → r.reassembler.Unbroken seg.payload
    (sub64 (unwrap seg.header.seqno r.isn r.streamOut.bytesWritten) 1) seg.header.fin

instance (r : TCPReceiver) (seg : TCPSegment) : Decidable (r.Unbroken seg) := by
  unfold Unbroken
  infer_instance

namespace Freed

def push (freed : Nat × Bytes → Nat × Bytes) (r : TCPReceiver) (seg : TCPSegment)
    (absIndex : Nat) : TCPReceiver :=
  let r' := { r with
    reassembler := StreamReassembler.Freed.pushSubstring freed r.reassembler seg.payload absIndex
      seg.header.fin }
  { r' with lastAckno := r'.currentAckno }

def segmentReceived (freed : Nat × Bytes → Nat × Bytes) (r : TCPReceiver) (seg : TCPSegment) :
    TCPReceiver :=
  if seg.header.syn then
    if r.synRecv then r
    else push freed { r with synRecv := true, isn := seg.header.seqno } seg 0
  else if r.synRecv then
    let checkpoint := r.streamOut.bytesWritten
    push freed r seg (sub64 (unwrap seg.header.seqno r.isn checkpoint) 1)
  else r

section

variable {r : TCPReceiver} {seg : TCPSegment}

/-- What is erased makes no difference if the push writes substrings as a whole and ends in range. -/
theorem segmentReceived_eq (freed : Nat × Bytes → Nat × Bytes)
    {done : Bytes} (h : r.reassembler.Wf done) (hwhole : r.Unbroken seg)
    (hopening : seg.header.syn = true → seg.payload.length < 2 ^ 64)
    (hrange : seg.header.syn = false → r.synRecv = true → seg.payload ≠ [] →
      sub64 (unwrap seg.header.seqno r.isn r.streamOut.bytesWritten) 1 + seg.payload.length
        < 2 ^ 64) :
    segmentReceived freed r seg = r.segmentReceived seg := by
  unfold Unbroken at hwhole
  unfold segmentReceived TCPReceiver.segmentReceived
  by_cases hsyn : seg.header.syn = true
  · by_cases hrecv : r.synRecv = true
    · simp [hsyn, hrecv]
    · have hpush := h.pushSubstring_freed freed seg.header.fin
        (fun _ => by rw [Nat.zero_add]; exact hopening hsyn)
        (((if_pos hsyn).mp hwhole).resolve_left hrecv)
      simp [hsyn, hrecv, push, TCPReceiver.push, hpush]
  · have hsyn' : seg.header.syn = false := by simpa using hsyn
    by_cases hrecv : r.synRecv = true
    · have hpush := h.pushSubstring_freed freed seg.header.fin (hrange hsyn' hrecv)
        ((if_neg hsyn).mp hwhole hrecv)
      simp [hsyn, hrecv, push, TCPReceiver.push, hpush]
    · simp [hsyn, hrecv]

end

end Freed

end TCPReceiver

namespace Reception

variable {S : Bytes} {isn : WrappingInt32}

/-- A segment that arrives makes the reassembler write stored substrings as a whole only. -/
def Unbroken (x : Reception) : PeerOp S isn → Prop
  | .segment p => x.receiver.Unbroken p.seg
  | .read _ => True
  | .pop _ => True

instance decidableUnbroken (x : Reception) : ∀ op : PeerOp S isn, Decidable (x.Unbroken op)
  | .segment p => inferInstanceAs (Decidable (x.receiver.Unbroken p.seg))
  | .read _ => inferInstanceAs (Decidable True)
  | .pop _ => inferInstanceAs (Decidable True)

/-- A step of the receiver whose erased elements read `freed`. -/
def Freed.step (freed : Nat × Bytes → Nat × Bytes) (x : Reception) : PeerOp S isn → Reception
  | .segment p =>
      { x with
        receiver := TCPReceiver.Freed.segmentReceived freed x.receiver p.seg
        synGiven := x.synGiven || p.seg.header.syn }
  | .read len => x.step (.read len : PeerOp S isn)
  | .pop len => x.step (.pop len : PeerOp S isn)

/-- A slice whose place is found and that is written as a whole. -/
theorem Inv.freed_step {x : Reception} (h : x.Inv S isn) (freed : Nat × Bytes → Nat × Bytes)
    {op : PeerOp S isn} (hnear : x.Near op) (hlow : Low op) (hwhole : x.Unbroken op) :
    Freed.step freed x op = x.step op := by
  cases op with
  | segment p =>
      have hstop := p.stop_lt
      have hreceived : TCPReceiver.Freed.segmentReceived freed x.receiver p.seg
          = x.receiver.segmentReceived p.seg := by
        apply TCPReceiver.Freed.segmentReceived_eq freed h.assembles.wf hwhole
        · intro _
          omega
        · intro hsyn hrecv _
          rw [(h.synced hrecv).1, index_eq hsyn hnear hlow]
          exact hstop
      rw [Freed.step, hreceived]
      rfl
  | read len => rfl
  | pop len => rfl

/-- **Every run that gives the receiver low slices of `S` delivers a prefix of `S`**, whatever an
erased element reads, if the slices make it write stored substrings as a whole only. -/
theorem received_run (freed : Nat × Bytes → Nat × Bytes) (capacity : UInt64) (S : Bytes)
    (isn : WrappingInt32) (ops : List (PeerOp S isn))
    (hops : Admits (Freed.step freed) (fun x op => x.Near op ∧ Low op ∧ x.Unbroken op)
      (new capacity) ops) :
    (run (Freed.step freed) (new capacity) ops).Received S isn := by
  have hinv : (run (Freed.step freed) (new capacity) ops).Inv S isn := by
    refine run_invariant (fun x op h hop => ?_) (inv_new S isn capacity) hops
    obtain ⟨hnear, hlow, hwhole⟩ := hop
    rw [h.freed_step freed hnear hlow hwhole]
    exact h.step hnear hlow
  exact hinv.received

/-- The first byte before the SYN and again after it, around the end of the sequence numbers. -/
theorem received_run_around :
    let S : Bytes := [97, 98, 99]
    let isn : WrappingInt32 := ⟨4294967294⟩
    let ops : List (PeerOp S isn) :=
      [.segment (.slice S isn false false 0 1 (by decide) (by decide) (by decide) (by decide)),
        .segment (.slice S isn true false 0 2 (by decide) (by decide) (by decide) (by decide)),
        .segment (.slice S isn false false 0 1 (by decide) (by decide) (by decide) (by decide)),
        .read 1,
        .segment (.slice S isn false true 1 2 (by decide) (by decide) (by decide) (by decide))]
    (run (Freed.step fun _ => (0, [])) (new 2) ops).receiver.ackno = some ⟨3⟩ ∧
      (run (Freed.step fun _ => (0, [])) (new 2) ops).Received S isn := by
  intro S isn ops
  have hops : Admits (Freed.step fun _ => (0, [])) (fun x op => x.Near op ∧ Low op ∧ x.Unbroken op)
      (new 2) ops := by
    decide
  exact ⟨by decide, received_run _ 2 S isn ops hops⟩

/-- **Not every stream is received**: of a stream of 31 bytes, a slice of 30 comes to a receiver
with room for five. The rest of it is put back from the element that was erased, whose first
sixteen bytes have been overwritten by then, and the next slice makes it flow. -/
theorem freedSlice_not_received :
    let S : Bytes := List.replicate 31 97
    let freed : Nat × Bytes → Nat × Bytes := fun e => (e.1, List.replicate 16 0 ++ e.2.drop 16)
    let ops : List (PeerOp S ⟨0⟩) :=
      [.segment (.slice S ⟨0⟩ true false 0 0 (by decide) (by decide) (by decide) (by decide)),
        .segment (.slice S ⟨0⟩ false false 0 30 (by decide) (by decide) (by decide) (by decide)),
        .read 5,
        .segment (.slice S ⟨0⟩ false true 30 1 (by decide) (by decide) (by decide) (by decide))]
    Admits (Freed.step freed) (fun x op => x.Near op ∧ Low op) (new 5) ops ∧
      ¬ (run (Freed.step freed) (new 5) ops).Received S ⟨0⟩ := by
  intro S freed ops
  refine ⟨by decide, ?_⟩
  intro h
  exact absurd h.taken_append (by decide)

end Reception

end Sponge
