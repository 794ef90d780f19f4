import Sponge.InternetChecksum
import Sponge.Parser
import Sponge.TCPSegment

set_option autoImplicit false

/-! # Segments on the wire

`tcp_header.cc` and `tcp_segment.cc`: parsing and serializing of TCP headers and segments. What
throws in the source is an `Except` with the text of the exception. -/

namespace Sponge

namespace TCPHeader

/-- The length of a header without options. -/
def length : Nat := 20

/-- The fixed fields, in the order in which they stand on the wire. -/
def parseFields : StateM NetParser TCPHeader := do
  let sport ← NetParser.u16
  let dport ← NetParser.u16
  let seqno ← NetParser.u32
  let ackno ← NetParser.u32
  let doffByte ← NetParser.u8
  let flB ← NetParser.u8
  let win ← NetParser.u16
  let cksum ← NetParser.u16
  let uptr ← NetParser.u16
  return {
    sport, dport
    seqno := ⟨seqno.toBitVec⟩
    ackno := ⟨ackno.toBitVec⟩
    doff := doffByte >>> 4
    urg := flB &&& 0b00100000 != 0
    ack := flB &&& 0b00010000 != 0
    psh := flB &&& 0b00001000 != 0
    rst := flB &&& 0b00000100 != 0
    syn := flB &&& 0b00000010 != 0
    fin := flB &&& 0b00000001 != 0
    win, cksum, uptr }

/-- Parse the header from the parser; also returns success or the reason for failure. -/
def parse : StateM NetParser (TCPHeader × ParseResult) := do
  let h ← parseFields
  if h.doff < 5 then
    return (h, .headerTooShort)
  -- skip any options or anything extra in the header
  NetParser.removePrefix (h.doff.toNat * 4 - length)
  let p ← get
  return (h, p.error)

def flagByte (h : TCPHeader) : UInt8 :=
  (if h.urg then 0b00100000 else 0) ||| (if h.ack then 0b00010000 else 0) |||
    (if h.psh then 0b00001000 else 0) ||| (if h.rst then 0b00000100 else 0) |||
    (if h.syn then 0b00000010 else 0) ||| (if h.fin then 0b00000001 else 0)

/-- The fixed fields as bytes. -/
def fixedBytes (h : TCPHeader) : Bytes :=
  NetUnparser.u16 h.sport ++ NetUnparser.u16 h.dport ++
    NetUnparser.u32 ⟨h.seqno.rawValue⟩ ++ NetUnparser.u32 ⟨h.ackno.rawValue⟩ ++
    NetUnparser.u8 (h.doff <<< 4) ++ NetUnparser.u8 h.flagByte ++ NetUnparser.u16 h.win ++
    NetUnparser.u16 h.cksum ++ NetUnparser.u16 h.uptr

/-- Serialize the header (does not recompute the checksum). -/
def serialize (h : TCPHeader) : Except String Bytes :=
  if h.doff < 5 then .error "TCP header too short"
  else .ok (NetUnparser.resize h.fixedBytes (4 * h.doff.toNat))

end TCPHeader

namespace TCPSegment

/-- Parse the segment from a string. -/
def parse (seg : TCPSegment) (buffer : Bytes) (datagramLayerChecksum : UInt32) :
    TCPSegment × ParseResult :=
  let check := (InternetChecksum.new datagramLayerChecksum).add buffer
  if check.value ≠ 0 then (seg, .badChecksum)
  else
    let ((h, _), p) := TCPHeader.parse.run { buffer := buffer }
    ({ header := h, payload := p.buffer }, p.error)

/-- Serialize the segment, with a checksum over all of it, as a list of buffers. -/
def serialize (seg : TCPSegment) (datagramLayerChecksum : UInt32) :
    Except String (List Bytes) := do
  let headerOut := { seg.header with cksum := 0 }
  let check := (InternetChecksum.new datagramLayerChecksum).add (← headerOut.serialize)
  let headerOut := { headerOut with cksum := (check.add seg.payload).value }
  return [← headerOut.serialize, seg.payload]

end TCPSegment

end Sponge
