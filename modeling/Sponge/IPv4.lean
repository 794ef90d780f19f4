import Sponge.InternetChecksum
import Sponge.Parser

set_option autoImplicit false

/-! # IPv4 datagrams

`ipv4_header.hh`, `ipv4_header.cc`, `ipv4_datagram.hh` and `ipv4_datagram.cc`, and the lists of
buffers of `buffer.hh` that a datagram is made of. -/

namespace Sponge

/-! ## Lists of buffers -/

namespace BufferList

def size (bufs : List Bytes) : Nat := (bufs.map List.length).sum

/-- Make a copy to a new string. -/
def concatenate (bufs : List Bytes) : Bytes := bufs.flatten

/-- Transform to a buffer, unless there is more than one. -/
def toBuffer : List Bytes → Except String Bytes
  | [] => .ok []
  | [buf] => .ok buf
  | _ :: _ :: _ => .error
      "BufferList: please use concatenate() to combine a multi-Buffer BufferList into one Buffer"

end BufferList

/-! ## Headers -/

/-- An IPv4 header, with the defaults of a fresh one. -/
structure IPv4Header where
  ver : UInt8 := 4
  hlen : UInt8 := 5
  tos : UInt8 := 0
  len : UInt16 := 0
  id : UInt16 := 0
  df : Bool := true
  mf : Bool := false
  offset : UInt16 := 0
  ttl : UInt8 := 128
  proto : UInt8 := 6
  cksum : UInt16 := 0
  src : UInt32 := 0
  dst : UInt32 := 0
  deriving DecidableEq, Repr

namespace IPv4Header

/-- The length of a header without options. -/
def length : Nat := 20

def protoTCP : UInt8 := 6

/-- The fixed fields, in the order in which they stand on the wire. -/
def parseFields : StateM NetParser IPv4Header := do
  let firstByte ← NetParser.u8
  let tos ← NetParser.u8
  let len ← NetParser.u16
  let id ← NetParser.u16
  let foVal ← NetParser.u16
  let ttl ← NetParser.u8
  let proto ← NetParser.u8
  let cksum ← NetParser.u16
  let src ← NetParser.u32
  let dst ← NetParser.u32
  return {
    ver := firstByte >>> 4
    hlen := firstByte &&& 0x0f
    tos, len, id
    df := foVal &&& 0x4000 != 0
    mf := foVal &&& 0x2000 != 0
    offset := foVal &&& 0x1fff
    ttl, proto, cksum, src, dst }

/-- Parse the header from the parser; also returns success or the reason for failure. A buffer
that is too short leaves the header as it was. -/
def parse (h : IPv4Header) : StateM NetParser (IPv4Header × ParseResult) := do
  let original := (← get).buffer
  let dataSize := original.length
  if dataSize < length then
    return (h, .packetTooShort)
  let h ← parseFields
  if dataSize < 4 * h.hlen.toNat then
    return (h, .packetTooShort)
  if h.ver ≠ 4 then
    return (h, .wrongIPVersion)
  if h.hlen < 5 then
    return (h, .headerTooShort)
  if dataSize ≠ h.len.toNat then
    return (h, .truncatedPacket)
  NetParser.removePrefix (h.hlen.toNat * 4 - length)
  let p ← get
  if p.error ≠ .noError then
    return (h, p.error)
  let check := (InternetChecksum.new 0).add (original.take (4 * h.hlen.toNat))
  if check.value ≠ 0 then
    return (h, .badChecksum)
  return (h, .noError)

/-- The fixed fields as bytes. -/
def fixedBytes (h : IPv4Header) : Bytes :=
  NetUnparser.u8 ((h.ver <<< 4) ||| (h.hlen &&& 0xf)) ++ NetUnparser.u8 h.tos ++
    NetUnparser.u16 h.len ++ NetUnparser.u16 h.id ++
    NetUnparser.u16 ((if h.df then 0x4000 else 0) ||| (if h.mf then 0x2000 else 0) |||
      (h.offset &&& 0x1fff)) ++
    NetUnparser.u8 h.ttl ++ NetUnparser.u8 h.proto ++ NetUnparser.u16 h.cksum ++
    NetUnparser.u32 h.src ++ NetUnparser.u32 h.dst

/-- Serialize the header (does not recompute the checksum). -/
def serialize (h : IPv4Header) : Except String Bytes :=
  if h.ver ≠ 4 then .error "wrong IP version"
  else if 4 * h.hlen.toNat < length then .error "IP header too short"
  else .ok (NetUnparser.resize h.fixedBytes (4 * h.hlen.toNat))

def payloadLength (h : IPv4Header) : UInt16 := h.len - 4 * h.hlen.toUInt16

/-- The two words of an address, added up. -/
def addrWords (addr : UInt32) : UInt32 := (addr >>> 16) + (addr &&& (0xffff : UInt32))

/-- The contribution of the pseudo-header to the TCP checksum. -/
def pseudoCksum (h : IPv4Header) : UInt32 :=
  addrWords h.src + addrWords h.dst + h.proto.toUInt32 + h.payloadLength.toUInt32

end IPv4Header

/-! ## Datagrams -/

structure IPv4Datagram where
  header : IPv4Header := {}
  payload : List Bytes := []
  deriving DecidableEq, Repr

namespace IPv4Datagram

/-- Parse the datagram from a string. What the header's parser returns is not looked at. -/
def parse (d : IPv4Datagram) (buffer : Bytes) : IPv4Datagram × ParseResult :=
  let ((h, _), p) := (d.header.parse).run { buffer := buffer }
  let d : IPv4Datagram := { header := h, payload := [p.buffer] }
  if BufferList.size d.payload ≠ h.payloadLength.toNat then (d, .packetTooShort)
  else (d, p.error)

/-- Serialize the datagram, with a checksum over the header, as a list of buffers. -/
def serialize (d : IPv4Datagram) : Except String (List Bytes) :=
  if BufferList.size d.payload ≠ d.header.payloadLength.toNat then
    .error "IPv4Datagram::serialize: payload is wrong size"
  else do
    let headerOut := { d.header with cksum := 0 }
    let check := (InternetChecksum.new 0).add (← headerOut.serialize)
    let headerOut := { headerOut with cksum := check.value }
    return (← headerOut.serialize) :: d.payload

end IPv4Datagram

end Sponge
