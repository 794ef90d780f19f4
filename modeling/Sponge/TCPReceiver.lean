import Sponge.StreamReassembler
import Sponge.TCPSegment

set_option autoImplicit false

/-! # The receiver

`tcp_receiver.hh` and `tcp_receiver.cc`: segments are given to the reassembler at the stream
index of their payload, and the acknowledgment number and the window size are computed for
the peer. The number of bytes written, from which they are computed, is the unbounded counter of the
byte stream. -/

namespace Sponge

open Word

structure TCPReceiver where
  reassembler : StreamReassembler
  synRecv : Bool := false
  isn : WrappingInt32 := ⟨0⟩
  /-- The acknowledgment number as of the last segment, meaningful once `synRecv`. -/
  lastAckno : WrappingInt32 := ⟨0⟩
  capacity : Nat
  deriving DecidableEq

namespace TCPReceiver

def new (capacity : UInt64) : TCPReceiver :=
  { reassembler := StreamReassembler.new capacity, capacity := capacity.toNat }

def streamOut (r : TCPReceiver) : ByteStream := r.reassembler.output

/-- The acknowledgment number for what has been assembled. -/
def currentAckno (r : TCPReceiver) : WrappingInt32 :=
  let ackno := wrap (r.streamOut.bytesWritten + 1) r.isn
  -- the FIN counts once it has been reached
  if r.streamOut.inputEnded then ackno.add 1 else ackno

/-- Give the payload to the reassembler and update the acknowledgment number. -/
def push (r : TCPReceiver) (seg : TCPSegment) (absIndex : Nat) : TCPReceiver :=
  let r' := { r with
    reassembler := r.reassembler.pushSubstring seg.payload absIndex seg.header.fin }
  { r' with lastAckno := r'.currentAckno }

def segmentReceived (r : TCPReceiver) (seg : TCPSegment) : TCPReceiver :=
  if seg.header.syn then
    if r.synRecv then r
    else { r with synRecv := true, isn := seg.header.seqno }.push seg 0
  else if r.synRecv then
    let checkpoint := r.streamOut.bytesWritten
    r.push seg (sub64 (unwrap seg.header.seqno r.isn checkpoint) 1)
  else r

/-- The acknowledgment number for the peer: none before a SYN. -/
def ackno (r : TCPReceiver) : Option WrappingInt32 := if r.synRecv then some r.lastAckno else none

def windowSize (r : TCPReceiver) : Nat := sub64 r.capacity r.streamOut.bufferSize

def unassembledBytes (r : TCPReceiver) : Nat := r.reassembler.unassembledBytes

/-- Read `len` bytes from the stream. -/
def readOutput (r : TCPReceiver) (len : Nat) : Bytes × TCPReceiver :=
  ((r.reassembler.readOutput len).1, { r with reassembler := (r.reassembler.readOutput len).2 })

/-- Mark the stream as failed. -/
def setError (r : TCPReceiver) : TCPReceiver :=
  { r with reassembler := { r.reassembler with output := r.reassembler.output.setError } }

end TCPReceiver

end Sponge
