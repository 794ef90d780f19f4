import Sponge.Basic.Word

set_option autoImplicit false

/-! # The in-order byte stream

`byte_stream.hh` and `byte_stream.cc`: a bounded queue of bytes with an end mark. The size,
the two counters and the deque are kept separately, as in the source. The byte counters are
natural numbers (no run moves `2 ^ 64` bytes); the free space is a 64-bit difference.

`ByteStream.Carries s data` is the specification, which the operations keep for the sequence `data`
of all bytes the writes have accepted. -/

namespace Sponge

open Word

/-- A byte string. -/
abbrev Bytes := List UInt8

/-- An in-order byte stream with room for `capacity` bytes. -/
structure ByteStream where
  buf : Bytes := []
  capacity : Nat
  size : Nat := 0
  isInputEnd : Bool := false
  numBytesWritten : Nat := 0
  numBytesRead : Nat := 0
  /-- The stream suffered an error. -/
  error : Bool := false
  deriving DecidableEq, Repr

namespace ByteStream

def new (capacity : UInt64) : ByteStream := { capacity := capacity.toNat }

/-- Write as many bytes of `data` as fit; also returns how many these are. -/
def write (s : ByteStream) (data : Bytes) : ByteStream × Nat :=
  if s.isInputEnd || s.capacity == s.size then (s, 0)
  else
    let toWrite := min (sub64 s.capacity s.size) data.length
    ({ s with
        buf := s.buf.take s.size ++ data.take toWrite ++ s.buf.drop s.size
        size := s.size + toWrite
        numBytesWritten := s.numBytesWritten + toWrite }, toWrite)

def remainingCapacity (s : ByteStream) : Nat := sub64 s.capacity s.size

def endInput (s : ByteStream) : ByteStream := { s with isInputEnd := true }

def setError (s : ByteStream) : ByteStream := { s with error := true }

def peekOutput (s : ByteStream) (len : Nat) : Bytes := s.buf.take (min s.size len)

def popOutput (s : ByteStream) (len : Nat) : ByteStream :=
  let toPop := min s.size len
  { s with
    buf := s.buf.drop toPop
    size := s.size - toPop
    numBytesRead := s.numBytesRead + toPop }

/-- Copy and then pop the next `len` bytes. -/
def read (s : ByteStream) (len : Nat) : Bytes × ByteStream := (s.peekOutput len, s.popOutput len)

def inputEnded (s : ByteStream) : Bool := s.isInputEnd

def bufferSize (s : ByteStream) : Nat := s.size

def eof (s : ByteStream) : Bool := s.size == 0 && s.isInputEnd

def bytesWritten (s : ByteStream) : Nat := s.numBytesWritten

def bytesRead (s : ByteStream) : Nat := s.numBytesRead

/-! ## The specification -/

/-- The counters of the stream `s` are those after it has accepted the bytes `data`, and its buffer is
what has not been popped of them. The state does not tell which bytes were popped. -/
structure Carries (s : ByteStream) (data : Bytes) : Prop where
  size_eq : s.size = s.buf.length
  size_le : s.size ≤ s.capacity
  cap_lt : s.capacity < 2 ^ 64
  written : s.numBytesWritten = data.length
  read_add : s.numBytesRead + s.size = s.numBytesWritten
  buf_eq : s.buf = data.drop s.numBytesRead

theorem carries_new (capacity : UInt64) : (new capacity).Carries [] where
  size_eq := rfl
  size_le := Nat.zero_le _
  cap_lt := capacity.toNat_lt
  written := rfl
  read_add := rfl
  buf_eq := rfl

section

variable {s : ByteStream} {data : Bytes}

theorem Carries.read_le (h : s.Carries data) : s.numBytesRead ≤ data.length := by
  have := h.read_add
  have := h.written
  omega

theorem Carries.remainingCapacity_eq (h : s.Carries data) :
    s.remainingCapacity = s.capacity - s.size :=
  sub64_eq h.size_le (by have := h.cap_lt; omega)

/-- The popped bytes followed by the buffered ones are the accepted ones. -/
theorem Carries.take_append_buf (h : s.Carries data) :
    data.take s.numBytesRead ++ s.buf = data := by
  rw [h.buf_eq, List.take_append_drop]

/-- How many bytes a write accepts. -/
theorem Carries.write_count (h : s.Carries data) (d : Bytes) :
    (s.write d).2 = if s.isInputEnd then 0 else min (s.capacity - s.size) d.length := by
  have hrem : sub64 s.capacity s.size = s.capacity - s.size := h.remainingCapacity_eq
  unfold write
  by_cases hend : s.isInputEnd = true
  · simp [hend]
  · by_cases hfull : s.capacity = s.size
    · simp [hend, hfull]
    · simp [hend, hfull, hrem]

theorem Carries.write_count_le (h : s.Carries data) (d : Bytes) : (s.write d).2 ≤ d.length := by
  rw [h.write_count d]
  split_ifs <;> omega

/-- The accepted part of a write is appended. -/
theorem Carries.write (h : s.Carries data) (d : Bytes) :
    (s.write d).1.Carries (data ++ d.take (s.write d).2) := by
  have hrem : sub64 s.capacity s.size = s.capacity - s.size := h.remainingCapacity_eq
  unfold ByteStream.write
  split_ifs with hfull
  · simpa using h
  · have hsz := h.size_eq
    have hle := h.size_le
    have hw := h.written
    have hr := h.read_add
    have hlen : (d.take (min (sub64 s.capacity s.size) d.length)).length
        = min (sub64 s.capacity s.size) d.length := by
      rw [List.length_take]; omega
    -- the deque is not longer than its counter says, so that the write appends
    refine ⟨?_, ?_, h.cap_lt, ?_, ?_, ?_⟩
    · simp only [List.length_append, List.length_take, List.length_drop]; omega
    · show s.size + min (sub64 s.capacity s.size) d.length ≤ s.capacity
      omega
    · simp only [List.length_append, hlen]; omega
    · show s.numBytesRead + (s.size + min (sub64 s.capacity s.size) d.length)
        = s.numBytesWritten + min (sub64 s.capacity s.size) d.length
      omega
    · show s.buf.take s.size ++ d.take (min (sub64 s.capacity s.size) d.length)
          ++ s.buf.drop s.size
        = (data ++ d.take (min (sub64 s.capacity s.size) d.length)).drop s.numBytesRead
      rw [List.drop_append_of_le_length h.read_le, ← h.buf_eq, hsz, List.take_length,
        List.drop_length, List.append_nil]

theorem Carries.endInput (h : s.Carries data) : s.endInput.Carries data :=
  ⟨h.size_eq, h.size_le, h.cap_lt, h.written, h.read_add, h.buf_eq⟩

theorem Carries.setError (h : s.Carries data) : s.setError.Carries data :=
  ⟨h.size_eq, h.size_le, h.cap_lt, h.written, h.read_add, h.buf_eq⟩

theorem Carries.popOutput (h : s.Carries data) (len : Nat) : (s.popOutput len).Carries data := by
  have hsz := h.size_eq
  have hle := h.size_le
  have hr := h.read_add
  refine ⟨?_, ?_, h.cap_lt, h.written, ?_, ?_⟩
  · simp only [ByteStream.popOutput, List.length_drop]; omega
  · simp only [ByteStream.popOutput]; omega
  · simp only [ByteStream.popOutput]; omega
  · simp only [ByteStream.popOutput]
    rw [h.buf_eq, List.drop_drop]

/-- What a read returns: the next bytes of the stream. -/
theorem Carries.peekOutput_eq (h : s.Carries data) (len : Nat) :
    s.peekOutput len = (data.drop s.numBytesRead).take (min s.size len) := by
  rw [peekOutput, h.buf_eq]

theorem Carries.peekOutput_length (h : s.Carries data) (len : Nat) :
    (s.peekOutput len).length = min s.size len := by
  rw [peekOutput, List.length_take, h.size_eq]
  omega

/-- The front of what was copied. -/
theorem take_peekOutput (s : ByteStream) {len n : Nat} (hn : n ≤ (s.peekOutput len).length) :
    (s.peekOutput len).take n = s.peekOutput n := by
  unfold peekOutput at hn ⊢
  rw [List.length_take] at hn
  rw [List.take_take]
  congr 1
  omega

/-- The popped bytes grow by what a read returns. -/
theorem Carries.take_read (h : s.Carries data) (len : Nat) :
    data.take (s.popOutput len).numBytesRead
      = data.take s.numBytesRead ++ s.peekOutput len := by
  rw [h.peekOutput_eq]
  exact List.take_add

/-- At the end of the stream every accepted byte has been popped. -/
theorem Carries.read_eq_of_eof (h : s.Carries data) (heof : s.eof = true) :
    s.numBytesRead = data.length := by
  have hsize : s.size = 0 := by
    simp only [eof, Bool.and_eq_true, beq_iff_eq] at heof
    exact heof.1
  have := h.read_add
  have := h.written
  omega

end

/-! ## What the operations leave alone -/

section

variable (s : ByteStream) (d : Bytes) (len : Nat)

@[simp] theorem write_isInputEnd : (s.write d).1.isInputEnd = s.isInputEnd := by
  unfold write; split_ifs <;> rfl

@[simp] theorem write_capacity : (s.write d).1.capacity = s.capacity := by
  unfold write; split_ifs <;> rfl

@[simp] theorem write_error : (s.write d).1.error = s.error := by
  unfold write; split_ifs <;> rfl

@[simp] theorem write_numBytesRead : (s.write d).1.numBytesRead = s.numBytesRead := by
  unfold write; split_ifs <;> rfl

theorem write_size : (s.write d).1.size = s.size + (s.write d).2 := by
  unfold write; split_ifs <;> rfl

@[simp] theorem popOutput_zero : s.popOutput 0 = s := by simp [popOutput]

/-- Nothing is accepted once the input has ended. -/
theorem write_of_ended (h : s.isInputEnd = true) : s.write d = (s, 0) := by
  simp [write, h]

/-- A stream at its end stays there. -/
theorem eof_write (h : s.eof = true) : (s.write d).1.eof = true := by
  have hend : s.isInputEnd = true := by
    simp only [eof, Bool.and_eq_true] at h
    exact h.2
  rwa [write_of_ended s d hend]

end

end ByteStream

end Sponge
