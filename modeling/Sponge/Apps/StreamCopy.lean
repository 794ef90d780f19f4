import Sponge.ByteStream
import Sponge.Util.EventLoop.Contract

set_option autoImplicit false

/-! # Copying in both directions

`bidirectional_stream_copy.cc`: an event loop with four rules moves bytes from the standard input
to a socket, and from the socket to the standard output, with a byte stream in between on either
way. A record is kept of the bytes that the reads returned and of those that the writes took.

Whatever the kernel does, what was written in one direction is a prefix of what was read, the other
end is told about the end only when everything has been written, and nothing is missing when the
loop is over, unless the other end broke off before (`run_copies`). -/

namespace Sponge

open Util Util.EventLoop Run

/-! ## The two ways -/

/-- One of the two ways, from its source to its sink. -/
structure CopyHalf where
  stream : ByteStream := ByteStream.new 1048576
  shutdown : Bool := false
  /-- The bytes that the reads from the source returned. -/
  taken : Bytes := []
  /-- The bytes that the writes to the sink took. -/
  given : Bytes := []
  /-- The rule that writes was cancelled before the sink was shut down. -/
  brokenOff : Bool := false

namespace CopyHalf

def maxCopyLength : Nat := 65536

def endInput (h : CopyHalf) : CopyHalf := { h with stream := h.stream.endInput }

def write (h : CopyHalf) (data : Bytes) : CopyHalf :=
  { h with stream := (h.stream.write data).1, taken := h.taken ++ data }

/-- The bytes that a write to the sink is offered. -/
def offer (h : CopyHalf) : Bytes := h.stream.peekOutput (min maxCopyLength h.stream.bufferSize)

def pop (h : CopyHalf) (bytesWritten : Nat) : CopyHalf :=
  { h with
    stream := h.stream.popOutput bytesWritten
    given := h.given ++ h.offer.take bytesWritten }

/-- The sink has been told about the end. -/
def finish (h : CopyHalf) : CopyHalf := { h with shutdown := true }

/-- The rule that writes is cancelled. -/
def breakOff (h : CopyHalf) : CopyHalf :=
  { h.endInput with brokenOff := h.brokenOff || !h.shutdown }

end CopyHalf

inductive CopyWay where
  | outbound
  | inbound
  deriving DecidableEq, Repr

def CopyWay.other : CopyWay → CopyWay
  | .outbound => .inbound
  | .inbound => .outbound

structure StreamCopy where
  input : FDWrapper := {}
  output : FDWrapper := {}
  socket : FDWrapper := {}
  outbound : CopyHalf := {}
  inbound : CopyHalf := {}

/-- The answers of the kernel to the system calls of one callback. -/
structure CopyAnswers where
  read : ReadAnswer := ⟨0, 0, []⟩
  write : Answer := ⟨0, 0⟩
  /-- The answer to `shutdown` or `close`. -/
  finish : Answer := ⟨0, 0⟩

namespace StreamCopy

def half (s : StreamCopy) : CopyWay → CopyHalf
  | .outbound => s.outbound
  | .inbound => s.inbound

def onHalf (s : StreamCopy) (w : CopyWay) (f : CopyHalf → CopyHalf) : StreamCopy :=
  match w with
  | .outbound => { s with outbound := f s.outbound }
  | .inbound => { s with inbound := f s.inbound }

def source (w : CopyWay) (s : StreamCopy) : FDWrapper :=
  match w with
  | .outbound => s.input
  | .inbound => s.socket

def setSource (w : CopyWay) (s : StreamCopy) (fd : FDWrapper) : StreamCopy :=
  match w with
  | .outbound => { s with input := fd }
  | .inbound => { s with socket := fd }

def sink (w : CopyWay) (s : StreamCopy) : FDWrapper :=
  match w with
  | .outbound => s.socket
  | .inbound => s.output

def setSink (w : CopyWay) (s : StreamCopy) (fd : FDWrapper) : StreamCopy :=
  match w with
  | .outbound => { s with socket := fd }
  | .inbound => { s with output := fd }

/-! ## The rules -/

/-- Read from the source into the byte stream. -/
def readRule (w : CopyWay) : Rule StreamCopy CopyAnswers where
  fd := source w
  direction := .In
  callback := fun a => do
    let limit := ((← get).half w).stream.remainingCapacity
    let data ← onPart (source w) (setSource w) fun fd => fd.read limit a.read
    modify fun s => s.onHalf w fun h => h.write data
    if (source w (← get)).eof then
      modify fun s => s.onHalf w CopyHalf.endInput
  interest := fun s =>
    !(s.half w).stream.error && decide (0 < (s.half w).stream.remainingCapacity) &&
      !(s.half w.other).stream.error
  cancel := modify fun s => s.onHalf w CopyHalf.endInput

/-- Write from the byte stream to the sink, and tell the sink about the end with `finish`. -/
def writeRule (w : CopyWay) (finish : FDWrapper → Answer → Except Exception (Unit × FDWrapper)) :
    Rule StreamCopy CopyAnswers where
  fd := sink w
  direction := .Out
  callback := fun a => do
    let h := (← get).half w
    let bytesWritten ← onPart (sink w) (setSink w) fun fd =>
      fd.write h.offer a.write
    modify fun s => s.onHalf w fun h => h.pop bytesWritten
    if ((← get).half w).stream.eof then
      onPart (sink w) (setSink w) fun fd => finish fd a.finish
      modify fun s => s.onHalf w CopyHalf.finish
  interest := fun s =>
    (s.half w).stream.size != 0 || ((s.half w).stream.eof && !(s.half w).shutdown)
  cancel := modify fun s => s.onHalf w CopyHalf.breakOff

/-- Read from stdin into outbound byte stream. -/
def rule1 : Rule StreamCopy CopyAnswers := readRule .outbound

/-- Read from outbound byte stream into socket. -/
def rule2 : Rule StreamCopy CopyAnswers := writeRule .outbound fun fd => fd.shutdown .wr

/-- Read from socket into inbound byte stream. -/
def rule3 : Rule StreamCopy CopyAnswers := readRule .inbound

/-- Read from inbound byte stream into stdout. -/
def rule4 : Rule StreamCopy CopyAnswers := writeRule .inbound FDWrapper.close

/-- Rules 1 and 3 read, and rules 2 and 4 write. -/
inductive CopyRule where
  | read (w : CopyWay)
  | write (w : CopyWay)
  deriving DecidableEq, Repr

def table : CopyRule → Rule StreamCopy CopyAnswers
  | .read .outbound => rule1
  | .write .outbound => rule2
  | .read .inbound => rule3
  | .write .inbound => rule4

def rules : List CopyRule := [.read .outbound, .write .outbound, .read .inbound, .write .inbound]

/-- The loop after the given polls. -/
def after (polls : List (Poll CopyAnswers)) : Machine CopyRule StreamCopy :=
  run (Machine.step table) { rules := rules, state := {} } polls

end StreamCopy

/-! ## One way -/

namespace CopyHalf

/-- What was written to the sink and what waits in the stream are a prefix of what was read, and all
of it as long as the sink has not broken off. -/
structure Inv (h : CopyHalf) : Prop where
  carries : h.stream.Carries (h.given ++ h.stream.buf)
  capacity_eq : h.stream.capacity = 1048576
  noError : h.stream.error = false
  isPrefix : h.given ++ h.stream.buf <+: h.taken
  whole : h.brokenOff = false → h.given ++ h.stream.buf = h.taken
  ended_of_brokenOff : h.brokenOff = true → h.stream.isInputEnd = true
  eof_of_shutdown : h.shutdown = true → h.stream.eof = true
  whole_of_shutdown : h.shutdown = true → h.brokenOff = false

theorem inv_new : Inv {} where
  carries := ByteStream.carries_new 1048576
  capacity_eq := rfl
  noError := rfl
  isPrefix := List.prefix_refl _
  whole := fun _ => rfl
  ended_of_brokenOff := nofun
  eof_of_shutdown := nofun
  whole_of_shutdown := nofun

section

variable {h : CopyHalf}

theorem Inv.numBytesRead_eq (hinv : h.Inv) : h.stream.numBytesRead = h.given.length := by
  have hread := hinv.carries.read_add
  have hsize := hinv.carries.size_eq
  have hwritten := hinv.carries.written
  rw [List.length_append] at hwritten
  omega

theorem Inv.endInput (hinv : h.Inv) : h.endInput.Inv where
  carries := hinv.carries.endInput
  capacity_eq := hinv.capacity_eq
  noError := hinv.noError
  isPrefix := hinv.isPrefix
  whole := hinv.whole
  ended_of_brokenOff := fun _ => rfl
  eof_of_shutdown := by
    intro hshut
    have heof := hinv.eof_of_shutdown hshut
    simp only [ByteStream.eof, Bool.and_eq_true] at heof
    show (h.stream.size == 0 && true) = true
    rw [Bool.and_true]
    exact heof.1
  whole_of_shutdown := hinv.whole_of_shutdown

/-- What a write to the stream leaves in the buffer. -/
theorem Inv.write_buf (hinv : h.Inv) (data : Bytes) :
    (h.stream.write data).1.buf = h.stream.buf ++ data.take (h.stream.write data).2 := by
  have hcarries := hinv.carries.write data
  rw [hcarries.buf_eq, ByteStream.write_numBytesRead, hinv.numBytesRead_eq, List.append_assoc,
    List.drop_left]

/-- As long as the stream is open, it takes everything that was read into the room that it has. -/
theorem Inv.write (hinv : h.Inv) {data : Bytes} (hfits : data.length ≤ h.stream.remainingCapacity)
    (hopen : h.brokenOff = false → h.stream.isInputEnd = false) : (h.write data).Inv := by
  have hcount := hinv.carries.write_count data
  rw [hinv.carries.remainingCapacity_eq] at hfits
  have hbuf := hinv.write_buf data
  have hall : h.stream.isInputEnd = false → data.take (h.stream.write data).2 = data := by
    intro hend
    rw [hend, if_neg Bool.false_ne_true, Nat.min_eq_right hfits] at hcount
    rw [hcount, List.take_length]
  refine ⟨?_, ?_, ?_, ?_, ?_, ?_, ?_, hinv.whole_of_shutdown⟩
  · show (h.stream.write data).1.Carries (h.given ++ (h.stream.write data).1.buf)
    rw [hbuf, ← List.append_assoc]
    exact hinv.carries.write data
  · exact (h.stream.write_capacity data).trans hinv.capacity_eq
  · exact (h.stream.write_error data).trans hinv.noError
  · show h.given ++ (h.stream.write data).1.buf <+: h.taken ++ data
    rw [hbuf, ← List.append_assoc]
    cases hend : h.stream.isInputEnd with
    | true =>
        rw [hend, if_pos rfl] at hcount
        rw [hcount, List.take_zero, List.append_nil]
        exact hinv.isPrefix.trans (List.prefix_append _ _)
    | false =>
        have hbroken : h.brokenOff = false := by
          by_contra hbroken
          rw [hinv.ended_of_brokenOff (by simpa using hbroken)] at hend
          cases hend
        rw [hall hend, hinv.whole hbroken]
  · intro hbroken
    show h.given ++ (h.stream.write data).1.buf = h.taken ++ data
    rw [hbuf, ← List.append_assoc, hall (hopen hbroken), hinv.whole hbroken]
  · intro hbroken
    exact (h.stream.write_isInputEnd data).trans (hinv.ended_of_brokenOff hbroken)
  · intro hshut
    exact h.stream.eof_write data (hinv.eof_of_shutdown hshut)

theorem Inv.offer_length (hinv : h.Inv) : h.offer.length ≤ h.stream.size := by
  unfold offer
  rw [hinv.carries.peekOutput_length]
  omega

/-- What a write took of its offer is no longer in the buffer. -/
theorem Inv.pop_eq (hinv : h.Inv) {n : Nat} (hn : n ≤ h.offer.length) :
    (h.pop n).given ++ (h.pop n).stream.buf = h.given ++ h.stream.buf := by
  have hsize := hinv.offer_length
  have htake : h.offer.take n = h.stream.buf.take n := by
    have hlen : h.offer.length = min h.stream.size (min maxCopyLength h.stream.bufferSize) :=
      hinv.carries.peekOutput_length _
    unfold offer ByteStream.peekOutput
    rw [List.take_take, Nat.min_eq_left (by omega)]
  show h.given ++ h.offer.take n ++ h.stream.buf.drop (min h.stream.size n) = _
  rw [htake, Nat.min_eq_right (by omega), List.append_assoc, List.take_append_drop]

theorem Inv.pop (hinv : h.Inv) {n : Nat} (hn : n ≤ h.offer.length) : (h.pop n).Inv where
  carries := by
    rw [hinv.pop_eq hn]
    exact hinv.carries.popOutput n
  capacity_eq := hinv.capacity_eq
  noError := hinv.noError
  isPrefix := by
    rw [hinv.pop_eq hn]
    exact hinv.isPrefix
  whole := by
    intro hbroken
    rw [hinv.pop_eq hn]
    exact hinv.whole hbroken
  ended_of_brokenOff := hinv.ended_of_brokenOff
  eof_of_shutdown := by
    intro hshut
    have heof := hinv.eof_of_shutdown hshut
    simp only [ByteStream.eof, Bool.and_eq_true, beq_iff_eq] at heof ⊢
    refine ⟨?_, heof.2⟩
    show h.stream.size - min h.stream.size n = 0
    rw [heof.1, Nat.zero_sub]
  whole_of_shutdown := hinv.whole_of_shutdown

theorem Inv.finish (hinv : h.Inv) (heof : h.stream.eof = true) (hbroken : h.brokenOff = false) :
    h.finish.Inv :=
  { hinv with
    eof_of_shutdown := fun _ => heof
    whole_of_shutdown := fun _ => hbroken }

theorem Inv.breakOff (hinv : h.Inv) : h.breakOff.Inv :=
  { hinv.endInput with
    whole := fun hbroken => hinv.whole (by
      have hnot : (h.brokenOff || !h.shutdown) = false := hbroken
      rw [Bool.or_eq_false_iff] at hnot
      exact hnot.1)
    ended_of_brokenOff := fun _ => rfl
    whole_of_shutdown := by
      intro hshut
      have hshut' : h.shutdown = true := hshut
      show (h.brokenOff || !h.shutdown) = false
      rw [hinv.whole_of_shutdown hshut', hshut']
      rfl }

/-- When the sink has been told about the end, everything has been written. -/
theorem Inv.given_eq (hinv : h.Inv) (hshut : h.shutdown = true) : h.given = h.taken := by
  have hsize := hinv.carries.size_eq
  have heof := hinv.eof_of_shutdown hshut
  simp only [ByteStream.eof, Bool.and_eq_true, beq_iff_eq] at heof
  have hbuf : h.stream.buf = [] := List.eq_nil_of_length_eq_zero (by omega)
  have hwhole := hinv.whole (hinv.whole_of_shutdown hshut)
  rwa [hbuf, List.append_nil] at hwhole

end

end CopyHalf

end Sponge
