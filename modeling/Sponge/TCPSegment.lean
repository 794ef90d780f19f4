import Sponge.ByteStream
import Sponge.WrappingIntegers

set_option autoImplicit false

/-! # Segments and configuration

`tcp_header.hh`, `tcp_segment.hh` and `tcp_config.hh`: the data that travels between two
connections and the constants of the implementation. -/

namespace Sponge

/-- A TCP segment header, with the defaults of a fresh one. -/
structure TCPHeader where
  sport : UInt16 := 0
  dport : UInt16 := 0
  seqno : WrappingInt32 := ⟨0⟩
  ackno : WrappingInt32 := ⟨0⟩
  doff : UInt8 := 5
  urg : Bool := false
  ack : Bool := false
  psh : Bool := false
  rst : Bool := false
  syn : Bool := false
  fin : Bool := false
  win : UInt16 := 0
  cksum : UInt16 := 0
  uptr : UInt16 := 0
  deriving DecidableEq, Repr

structure TCPSegment where
  header : TCPHeader := {}
  payload : Bytes := []
  deriving DecidableEq, Repr

/-- Payload length plus one for SYN and one for FIN. -/
def TCPSegment.lengthInSequenceSpace (seg : TCPSegment) : Nat :=
  seg.payload.length + (if seg.header.syn then 1 else 0) + (if seg.header.fin then 1 else 0)

namespace TCPConfig

def maxPayloadSize : Nat := 1000

def maxRetxAttempts : Nat := 8

end TCPConfig

/-- The configuration of a connection. -/
structure TCPConfig where
  rtTimeout : UInt16 := 1000
  recvCapacity : UInt64 := 64000
  sendCapacity : UInt64 := 64000
  fixedIsn : Option WrappingInt32 := none
  deriving DecidableEq, Repr

end Sponge
