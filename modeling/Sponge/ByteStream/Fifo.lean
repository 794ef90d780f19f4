import Sponge.Basic.Run
import Sponge.ByteStream

set_option autoImplicit false

/-! # The byte stream is a bounded queue

A run calls the operations of a `ByteStream` in any order. Beside the stream it keeps a record
of what went in and came out (`Recorded`): the bytes that the writes accepted, the bytes that
left the front of the buffer, and whether the input was ended. After every run what came out
followed by the buffer is what went in, the sizes and counters agree with that (`Queued`), and
the next call accepts and returns what a queue with that room would (`Serves`). -/

namespace Sponge

open Word Run

/-- A call of an operation of a byte stream. -/
inductive ByteStreamOp where
  | write (data : Bytes)
  | read (len : UInt64)
  | peekOutput (len : UInt64)
  | popOutput (len : UInt64)
  | endInput

namespace ByteStream

/-- A stream and the record of its run. -/
structure Recorded where
  stream : ByteStream
  /-- The parts of the written data that were accepted, one after the other. -/
  accepted : Bytes := []
  /-- The bytes that left the buffer. -/
  popped : Bytes := []
  ended : Bool := false

/-- The bytes at the front of the buffer of `s` that are not in the buffer of `s'` any more. -/
def lost (s s' : ByteStream) : Bytes := s.buf.take (s.buf.length - s'.buf.length)

namespace Recorded

def new (capacity : UInt64) : Recorded := { stream := ByteStream.new capacity }

def step (t : Recorded) : ByteStreamOp → Recorded
  | .write data =>
      { t with
        stream := (t.stream.write data).1
        accepted := t.accepted ++ data.take (t.stream.write data).2 }
  | .read len =>
      { t with
        stream := (t.stream.read len.toNat).2
        popped := t.popped ++ t.stream.lost (t.stream.read len.toNat).2 }
  | .peekOutput _ => t
  | .popOutput len =>
      { t with
        stream := t.stream.popOutput len.toNat
        popped := t.popped ++ t.stream.lost (t.stream.popOutput len.toNat) }
  | .endInput => { t with stream := t.stream.endInput, ended := true }

/-- The stream is a queue for `capacity` bytes with the recorded history. -/
structure Queued (capacity : UInt64) (t : Recorded) : Prop where
  order : t.popped ++ t.stream.buf = t.accepted
  bufferSize_eq : t.stream.bufferSize = t.stream.buf.length
  bounded : t.stream.buf.length ≤ capacity.toNat
  room : t.stream.remainingCapacity = capacity.toNat - t.stream.buf.length
  written : t.stream.bytesWritten = t.accepted.length
  read : t.stream.bytesRead = t.popped.length
  counted : t.stream.bytesWritten = t.stream.bytesRead + t.stream.bufferSize
  inputEnded_eq : t.stream.inputEnded = t.ended
  eof_iff : t.stream.eof = true ↔ t.ended = true ∧ t.popped = t.accepted

/-- What the calls on the stream return and remove. -/
structure Serves (s : ByteStream) : Prop where
  write_count : ∀ data, (s.write data).2 =
    if s.inputEnded = true then 0 else min data.length s.remainingCapacity
  peek_eq : ∀ len, s.peekOutput len = s.buf.take len
  read_eq : ∀ len, (s.read len).1 = s.peekOutput len
  read_lost : ∀ len, s.lost (s.read len).2 = s.peekOutput len
  pop_lost : ∀ len, s.lost (s.popOutput len) = s.peekOutput len

/-- The invariant: the stream has accepted the recorded bytes, and the rest of the record agrees
with its counters. -/
structure Inv (capacity : UInt64) (t : Recorded) : Prop where
  carries : t.stream.Carries t.accepted
  capacity_eq : t.stream.capacity = capacity.toNat
  popped_eq : t.popped = t.accepted.take t.stream.numBytesRead
  ended_eq : t.stream.isInputEnd = t.ended

theorem inv_new (capacity : UInt64) : (new capacity).Inv capacity where
  carries := carries_new capacity
  capacity_eq := rfl
  popped_eq := rfl
  ended_eq := rfl

section

variable {capacity : UInt64} {t : Recorded} {s : ByteStream} {data : Bytes}

/-- A pop removes what a peek would show. -/
theorem lost_popOutput (h : s.Carries data) (len : Nat) :
    s.lost (s.popOutput len) = s.peekOutput len := by
  have hsize := h.size_eq
  have hlen : s.buf.length - (s.popOutput len).buf.length = min s.size len := by
    show s.buf.length - (s.buf.drop (min s.size len)).length = min s.size len
    rw [List.length_drop]
    omega
  unfold lost peekOutput
  rw [hlen]

theorem Inv.popped (h : t.Inv capacity) (len : Nat) :
    Inv capacity { t with
      stream := t.stream.popOutput len
      popped := t.popped ++ t.stream.lost (t.stream.popOutput len) } := by
  refine ⟨h.carries.popOutput len, h.capacity_eq, ?_, h.ended_eq⟩
  show t.popped ++ _ = t.accepted.take (t.stream.popOutput len).numBytesRead
  calc t.popped ++ t.stream.lost (t.stream.popOutput len)
      = t.accepted.take t.stream.numBytesRead ++ t.stream.peekOutput len := by
        rw [h.popped_eq, lost_popOutput h.carries]
    _ = t.accepted.take (t.stream.popOutput len).numBytesRead := (h.carries.take_read len).symm

theorem Inv.step (h : t.Inv capacity) (op : ByteStreamOp) : (t.step op).Inv capacity := by
  cases op with
  | write data =>
      have hread : t.stream.numBytesRead ≤ t.accepted.length := h.carries.read_le
      refine ⟨h.carries.write data, (t.stream.write_capacity data).trans h.capacity_eq, ?_,
        (t.stream.write_isInputEnd data).trans h.ended_eq⟩
      -- the popped bytes are among those accepted before
      show t.popped = (t.accepted ++ _).take (t.stream.write data).1.numBytesRead
      rw [t.stream.write_numBytesRead data, List.take_append_of_le_length hread]
      exact h.popped_eq
  | read len => exact h.popped len.toNat
  | peekOutput len => exact h
  | popOutput len => exact h.popped len.toNat
  | endInput => exact ⟨h.carries.endInput, h.capacity_eq, h.popped_eq, rfl⟩

theorem Inv.queued (h : t.Inv capacity) : t.Queued capacity := by
  have hsize := h.carries.size_eq
  have hle := h.carries.size_le
  have hcap := h.capacity_eq
  have hread := h.carries.read_le
  have hadd := h.carries.read_add
  have hwritten := h.carries.written
  have hpopped : t.popped.length = t.stream.numBytesRead := by
    rw [h.popped_eq, List.length_take, Nat.min_eq_left hread]
  have horder : t.popped ++ t.stream.buf = t.accepted := by
    rw [h.popped_eq]
    exact h.carries.take_append_buf
  refine ⟨horder, hsize, by omega, ?_, hwritten, hpopped.symm, hadd.symm, h.ended_eq, ?_⟩
  · rw [h.carries.remainingCapacity_eq, hcap, hsize]
  · have heof : t.stream.eof = true ↔ t.stream.size = 0 ∧ t.stream.isInputEnd = true := by
      unfold eof
      rw [Bool.and_eq_true, beq_iff_eq]
    rw [heof, h.ended_eq, and_comm]
    refine and_congr_right (fun _ => ⟨fun hzero => ?_, fun hall => ?_⟩)
    · have hnil : t.stream.buf = [] := List.eq_nil_of_length_eq_zero (by omega)
      rwa [hnil, List.append_nil] at horder
    · have hlen := congrArg List.length hall
      omega

theorem Inv.serves (h : t.Inv capacity) : Serves t.stream := by
  refine ⟨fun data => ?_, fun len => ?_, fun _ => rfl,
    fun len => lost_popOutput h.carries len, fun len => lost_popOutput h.carries len⟩
  · rw [h.carries.write_count data, h.carries.remainingCapacity_eq, Nat.min_comm]
    rfl
  · unfold peekOutput
    rw [h.carries.size_eq, Nat.min_comm, ← List.take_take, List.take_length]

/-- At its end the stream stays there. -/
theorem eof_step (t : Recorded) (op : ByteStreamOp) (h : t.stream.eof = true) :
    (t.step op).stream.eof = true := by
  have hpop : ∀ len, (t.stream.popOutput len).eof = true := by
    intro len
    simp only [eof, Bool.and_eq_true, beq_iff_eq] at h ⊢
    exact ⟨by rw [popOutput, h.1]; simp, h.2⟩
  cases op with
  | write data => exact t.stream.eof_write data h
  | read len => exact hpop len.toNat
  | peekOutput len => exact h
  | popOutput len => exact hpop len.toNat
  | endInput =>
      simp only [eof, Bool.and_eq_true] at h
      show (t.stream.size == 0 && true) = true
      rw [Bool.and_true]
      exact h.1

end

/-- **The byte stream is a bounded queue**, after every run; and once it is at its end, it stays
there. -/
theorem run_queued (capacity : UInt64) (ops : List ByteStreamOp) :
    (run step (new capacity) ops).Queued capacity ∧
      Serves (run step (new capacity) ops).stream ∧
      ((run step (new capacity) ops).stream.eof = true →
        ∀ more, (run step (new capacity) (ops ++ more)).stream.eof = true) := by
  have h : (run step (new capacity) ops).Inv capacity :=
    run_invariant' (fun _ op h => h.step op) (inv_new capacity) ops
  refine ⟨h.queued, h.serves, ?_⟩
  intro heof more
  rw [run_append]
  exact run_invariant' (I := fun t => t.stream.eof = true) (fun t op => eof_step t op) heof more

/-- Three bytes into a stream with room for two, which is then read to its end. -/
theorem run_queued_ended :
    ∀ more, (run step (new 2) ([.write [1, 2, 3], .endInput, .read 5] ++ more)).stream.eof
      = true :=
  (run_queued 2 [.write [1, 2, 3], .endInput, .read 5]).2.2 (by decide)

end Recorded

end ByteStream

end Sponge
