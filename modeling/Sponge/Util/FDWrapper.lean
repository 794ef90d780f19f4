import Sponge.Util.FileDescriptor

set_option autoImplicit false

/-! # The handle of a file descriptor

`FDWrapper` of `file_descriptor.hh`, with `read`, `write` and `close` of `file_descriptor.cc` and
`Socket::shutdown` of `socket.cc`: the flags that a `FileDescriptor` and its duplicates share, and
how the operations change them. What the kernel answers to a system call is an argument.

`write` is the call without `write_all`, which is one pass of the loop of `FileDescriptor.lean`.
An operation that throws leaves the flags as they were. -/

namespace Sponge

namespace Util

/-- What a call of `read` or `recvfrom` reports, and the bytes that it stored. -/
structure ReadAnswer where
  value : Int
  errno : Int := 0
  data : Bytes := []
  deriving DecidableEq, Repr

namespace ReadAnswer

/-- The answer is one that is documented: the number of stored bytes, or a failure with its error
number. -/
def Documented (a : ReadAnswer) : Prop :=
  a.value = a.data.length ∧ a.value ≤ Answer.maxTransfer ∨ a.value = -1 ∧ a.errno ≠ 0

instance (a : ReadAnswer) : Decidable a.Documented := inferInstanceAs (Decidable (_ ∨ _))

end ReadAnswer

inductive ShutdownHow where
  | rd
  | wr
  | rdwr
  deriving DecidableEq, Repr

/-- What is thrown when a system call fails or does not do what was asked for. -/
inductive KernelFault : Exception → Prop where
  | failed (attempt : String) (errno : Int) : KernelFault (.unixError attempt errno)
  | readMore : KernelFault (.runtimeError "read() read more than requested")
  | wroteNothing : KernelFault
      (.runtimeError "write returned 0 given non-empty input buffer")
  | wroteMore : KernelFault (.runtimeError "write wrote more than length of input buffer")

theorem systemCall_fault {attempt : String} {value errno mask : Int} {e : Exception}
    (h : systemCall attempt value errno mask = .error e) : KernelFault e := by
  unfold systemCall at h
  split_ifs at h
  cases h
  exact .failed _ _

structure FDWrapper where
  eof : Bool := false
  closed : Bool := false
  readCount : UInt32 := 0
  writeCount : UInt32 := 0
  deriving DecidableEq, Repr

namespace FDWrapper

def registerRead (fd : FDWrapper) : FDWrapper := { fd with readCount := fd.readCount + 1 }

def registerWrite (fd : FDWrapper) : FDWrapper := { fd with writeCount := fd.writeCount + 1 }

/-- The maximum size of a read. -/
def bufferSize : Nat := 1024 * 1024

/-- Read up to `limit` bytes. -/
def read (fd : FDWrapper) (limit : Nat) (a : ReadAnswer) : Except Exception (Bytes × FDWrapper) := do
  let sizeToRead := min bufferSize limit
  let bytesRead ← systemCall "read" (toInt a.value) a.errno 0
  let fd := if 0 < limit ∧ bytesRead = 0 then { fd with eof := true } else fd
  if bytesRead > sizeToRead then
    throw (.runtimeError "read() read more than requested")
  return (a.data.take (toSize bytesRead), fd.registerRead)

/-- Write a string; returns how many bytes were written. -/
def write (fd : FDWrapper) (str : Bytes) (a : Answer) : Except Exception (Nat × FDWrapper) := do
  let (_, bytesWritten) ← FileDescriptor.writeOnce { views := [str] } a
  return (bytesWritten, fd.registerWrite)

def close (fd : FDWrapper) (a : Answer) : Except Exception (Unit × FDWrapper) := do
  let _ ← systemCall "close" a.value a.errno 0
  return ((), { fd with eof := true, closed := true })

/-- Shut down a socket in the specified way. -/
def shutdown (fd : FDWrapper) (how : ShutdownHow) (a : Answer) :
    Except Exception (Unit × FDWrapper) := do
  let _ ← systemCall "shutdown" a.value a.errno 0
  return ((), match how with
    | .rd => fd.registerRead
    | .wr => fd.registerWrite
    | .rdwr => fd.registerRead.registerWrite)

/-! ## Any answer -/

theorem read_ok {fd fd' : FDWrapper} {limit : Nat} {a : ReadAnswer} {data : Bytes}
    (h : fd.read limit a = .ok (data, fd')) :
    data = a.data.take (toSize (toInt a.value)) ∧ fd'.readCount = fd.readCount + 1 := by
  unfold read systemCall at h
  split_ifs at h with hvalue
  · simp only [bind, Except.bind] at h
    split_ifs at h
    all_goals
      cases h
      exact ⟨rfl, rfl⟩
  · cases h

theorem read_error {fd : FDWrapper} {limit : Nat} {a : ReadAnswer} {e : Exception}
    (h : fd.read limit a = .error e) : KernelFault e := by
  unfold read at h
  cases hcall : systemCall "read" (toInt a.value) a.errno 0 with
  | error e' =>
      rw [hcall] at h
      cases h
      exact systemCall_fault hcall
  | ok bytesRead =>
      rw [hcall] at h
      simp only [bind, Except.bind] at h
      split_ifs at h <;> cases h <;> exact .readMore

/-- Shutting down the writing side counts as a write, or the kernel is to blame. -/
theorem shutdown_wr (fd : FDWrapper) (a : Answer) :
    fd.shutdown .wr a = .ok ((), fd.registerWrite) ∨
      ∃ e, KernelFault e ∧ fd.shutdown .wr a = .error e := by
  unfold shutdown
  cases hcall : systemCall "shutdown" a.value a.errno 0 with
  | error e => exact Or.inr ⟨e, systemCall_fault hcall, rfl⟩
  | ok value => exact Or.inl rfl

/-! ## What the operations do on documented answers -/

section

variable (fd : FDWrapper) (limit : Nat) (str : Bytes)

/-- The handle after a read of `data`. -/
def didRead (data : Bytes) : FDWrapper :=
  { fd with
    eof := fd.eof || (decide (0 < limit) && data.isEmpty)
    readCount := fd.readCount + 1 }

theorem read_eq {a : ReadAnswer} (h : a.Documented) :
    fd.read limit a =
      if a.value < 0 then .error (.unixError "read" a.errno)
      else if min bufferSize limit < a.data.length then
        .error (.runtimeError "read() read more than requested")
      else .ok (a.data, fd.didRead limit a.data) := by
  unfold read systemCall
  rcases h with ⟨hvalue, hmax⟩ | ⟨hvalue, herrno⟩
  · let a' : Answer := ⟨a.data.length, a.errno⟩
    have hdoc : a'.Documented := by
      rw [hvalue] at hmax
      exact Or.inl ⟨Int.natCast_nonneg _, hmax⟩
    have hint : toInt a.data.length = a.data.length :=
      FileDescriptor.toInt_of_documented (a := a') hdoc
    have hsize : toSize a.data.length = a.data.length :=
      FileDescriptor.toSize_of_documented (a := a') hdoc (Int.natCast_nonneg _)
    have hpos : (0 : Int) ≤ a.data.length := Int.natCast_nonneg _
    rw [hvalue, hint, if_pos (Or.inl hpos), if_neg (Int.not_lt.mpr hpos)]
    simp only [bind, Except.bind, hsize, List.take_length, gt_iff_lt, Nat.cast_lt]
    by_cases hmore : min bufferSize limit < a.data.length
    · rw [if_pos hmore, if_pos hmore]
      rfl
    · rw [if_neg hmore, if_neg hmore]
      by_cases hend : 0 < limit ∧ a.data = []
      · simp [didRead, registerRead, hend, pure, Except.pure]
      · have hend' : ¬(0 < limit ∧ (a.data.length : Int) = 0) := by simpa using hend
        have hflag : (decide (0 < limit) && a.data.isEmpty) = false := by simpa using hend
        rw [if_neg hend']
        simp [didRead, registerRead, hflag, pure, Except.pure]
  · have hint : toInt a.value = -1 := by rw [hvalue]; rfl
    rw [hint, if_neg (by omega), if_pos (show a.value < 0 by omega)]
    rfl

/-- What is taken from the front of a string. -/
theorem write_eq {a : Answer} (h : a.Documented) :
    fd.write str a =
      if a.value < 0 then .error (.unixError "writev" a.errno)
      else if a.count = 0 ∧ str.length ≠ 0 then
        .error (.runtimeError "write returned 0 given non-empty input buffer")
      else if str.length < a.count then
        .error (.runtimeError "write wrote more than length of input buffer")
      else .ok (a.count, fd.registerWrite) := by
  have hsize : BufferViewList.size { views := [str] } = str.length := Nat.add_zero _
  unfold write
  by_cases hvalue : 0 ≤ a.value
  · rw [FileDescriptor.writeOnce_of_value h hvalue, hsize, if_neg (Int.not_lt.mpr hvalue)]
    by_cases hzero : a.count = 0 ∧ str.length ≠ 0
    · rw [if_pos hzero, if_pos hzero]
      rfl
    · rw [if_neg hzero, if_neg hzero]
      by_cases hlt : str.length < a.count
      · rw [if_pos hlt, if_pos hlt]
        rfl
      · rw [if_neg hlt, if_neg hlt]
        obtain ⟨left, hleft, -⟩ := BufferViewList.removePrefix_of_le (l := { views := [str] })
          (n := a.count) (by rw [hsize]; omega)
        rw [hleft]
        rfl
  · rw [FileDescriptor.writeOnce_of_failure h (by omega), if_pos (Int.not_le.mp hvalue)]
    rfl

end

end FDWrapper

end Util

end Sponge
