import Sponge.IPv4
import Sponge.TCPWire

set_option autoImplicit false

/-! # Segments in datagrams

`tcp_over_ip.cc`, with what it uses of `fd_adapter.hh` and `address.hh`: a segment is sent as the
payload of a datagram between two addresses, and taken out of one that comes from the peer. -/

namespace Sponge

/-- An address is used through its number and its port only. -/
structure Address where
  ipv4Numeric : UInt32 := 0
  port : UInt16 := 0
  deriving DecidableEq, Repr

structure TCPOverIPv4Adapter where
  source : Address := {}
  destination : Address := {}
  /-- Is the connected TCP FSM in listen state? -/
  listening : Bool := false
  deriving DecidableEq, Repr

namespace TCPOverIPv4Adapter

/-- The segment in the datagram, if it is valid and belongs to the connection. A listening
adapter takes the addresses from the first SYN. -/
def unwrapTcpInIp (a : TCPOverIPv4Adapter) (ipDgram : IPv4Datagram) :
    Except String (Option TCPSegment × TCPOverIPv4Adapter) :=
  if !a.listening && ipDgram.header.dst != a.source.ipv4Numeric then .ok (none, a)
  else if !a.listening && ipDgram.header.src != a.destination.ipv4Numeric then .ok (none, a)
  else if ipDgram.header.proto != IPv4Header.protoTCP then .ok (none, a)
  else do
    let buffer ← BufferList.toBuffer ipDgram.payload
    let (tcpSeg, result) := TCPSegment.parse {} buffer ipDgram.header.pseudoCksum
    if result ≠ .noError then return (none, a)
    if tcpSeg.header.dport ≠ a.source.port then return (none, a)
    if a.listening && !(tcpSeg.header.syn && !tcpSeg.header.rst) then return (none, a)
    let a' : TCPOverIPv4Adapter :=
      if a.listening then
        { source := { ipv4Numeric := ipDgram.header.dst, port := a.source.port }
          destination := { ipv4Numeric := ipDgram.header.src, port := tcpSeg.header.sport }
          listening := false }
      else a
    if tcpSeg.header.sport ≠ a'.destination.port then return (none, a')
    return (some tcpSeg, a')

/-- Set the ports of the segment and wrap it in a datagram; also returns the segment with its
ports. -/
def wrapTcpInIp (a : TCPOverIPv4Adapter) (seg : TCPSegment) :
    Except String (TCPSegment × IPv4Datagram) := do
  let seg := { seg with
    header := { seg.header with sport := a.source.port, dport := a.destination.port } }
  let header : IPv4Header := { src := a.source.ipv4Numeric, dst := a.destination.ipv4Numeric }
  let header := { header with
    len := UInt16.ofNat
      (header.hlen.toNat * 4 + seg.header.doff.toNat * 4 + seg.payload.length) }
  return (seg, { header, payload := ← seg.serialize header.pseudoCksum })

end TCPOverIPv4Adapter

end Sponge
