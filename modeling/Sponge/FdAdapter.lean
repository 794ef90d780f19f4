import Sponge.TCPOverIP
import Sponge.Util.FDWrapper

set_option autoImplicit false

/-! # Adapters between segments and datagrams

`fd_adapter.hh` and `fd_adapter.cc`, `tuntap_adapter.hh` and `lossy_fd_adapter.hh`, with `recv` and
`sendto` of `socket.cc`. The sockets are templates over the adapter: `FdAdapter` is what they use of
it, and the four adapters are its instances. -/

namespace Sponge

open Util

/-- Config for the adapters. -/
structure FdAdapterConfig where
  source : Address := {}
  destination : Address := {}
  /-- Downlink loss rate. -/
  lossRateDn : UInt16 := 0
  /-- Uplink loss rate. -/
  lossRateUp : UInt16 := 0
  deriving DecidableEq, Repr

/-- What the kernel answers to the system calls of a read and of a write is in `ρ` and `ω`. A write
also returns the datagram that it has sent, if it has sent one. -/
class FdAdapter (δ : Type) (ρ ω : outParam Type) where
  fd : δ → FDWrapper
  config : δ → FdAdapterConfig
  setConfig : FdAdapterConfig → δ → δ
  setListening : Bool → δ → δ
  read : δ → ρ → Except Exception (Option TCPSegment × δ)
  write : δ → TCPSegment → ω → Except Exception (Option Bytes × δ)

/-! ## UDP sockets -/

/-- What a call of `recvfrom` reports, the bytes that it stored and the address that it filled in. -/
structure RecvAnswer extends ReadAnswer where
  source : Address := {}
  deriving DecidableEq, Repr

structure ReceivedDatagram where
  sourceAddress : Address
  payload : Bytes
  deriving DecidableEq, Repr

namespace UDPSocket

/-- Receive a datagram and the address of its sender. -/
def recv (sock : FDWrapper) (a : RecvAnswer) (mtu : Nat) :
    Except Exception (ReceivedDatagram × FDWrapper) := do
  let recvLen ← systemCall "recvfrom" (toInt a.value) a.errno 0
  if recvLen > mtu then
    throw (.runtimeError "recvfrom (oversized datagram)")
  return ({ sourceAddress := a.source, payload := a.data.take (toSize recvLen) }, sock.registerRead)

/-- Send a datagram to the specified address; the address is used by the kernel only. -/
def sendto (sock : FDWrapper) (_destination : Address) (payload : List Bytes) (a : Answer) :
    Except Exception (Bytes × FDWrapper) := do
  let bytesSent ← systemCall "sendmsg" (toInt a.value) a.errno 0
  if toSize bytesSent ≠ BufferList.size payload then
    throw (.runtimeError "datagram payload too big for sendmsg()")
  return (BufferList.concatenate payload, sock.registerWrite)

end UDPSocket

/-- An exception with a text. -/
def throwing {α : Type} : Except String α → Except Exception α
  | .error text => .error (.runtimeError text)
  | .ok a => .ok a

/-- Reads and writes TCP segments in UDP payloads. -/
structure TCPOverUDPSocketAdapter where
  cfg : FdAdapterConfig := {}
  listen : Bool := false
  sock : FDWrapper := {}
  deriving DecidableEq, Repr

namespace TCPOverUDPSocketAdapter

/-- Read a segment related to the current connection from a UDP payload. -/
def read (d : TCPOverUDPSocketAdapter) (a : RecvAnswer) :
    Except Exception (Option TCPSegment × TCPOverUDPSocketAdapter) := do
  let (datagram, sock) ← UDPSocket.recv d.sock a 65536
  let d := { d with sock }
  -- is it for us?
  if !d.listen && datagram.sourceAddress != d.cfg.destination then
    return (none, d)
  -- is the payload a valid TCP segment?
  let (seg, result) := TCPSegment.parse {} datagram.payload 0
  if result ≠ .noError then
    return (none, d)
  -- should we target this source in all future replies?
  if d.listen then
    if seg.header.syn && !seg.header.rst then
      let cfg := { d.cfg with destination := datagram.sourceAddress }
      return (some seg, { d with cfg, listen := false })
    else
      return (none, d)
  return (some seg, d)

/-- Write a segment into a UDP payload. -/
def write (d : TCPOverUDPSocketAdapter) (seg : TCPSegment) (a : Answer) :
    Except Exception (Option Bytes × TCPOverUDPSocketAdapter) := do
  let seg := { seg with
    header := { seg.header with sport := d.cfg.source.port, dport := d.cfg.destination.port } }
  let payload ← throwing (seg.serialize 0)
  let (sent, sock) ← UDPSocket.sendto d.sock d.cfg.destination payload a
  return (some sent, { d with sock })

instance : FdAdapter TCPOverUDPSocketAdapter RecvAnswer Answer where
  fd := sock
  config := cfg
  setConfig := fun cfg d => { d with cfg }
  setListening := fun listen d => { d with listen }
  read := read
  write := write

end TCPOverUDPSocketAdapter

/-! ## TUN devices -/

/-- A device takes a packet as a whole, so that the loop of `write` makes one pass, or fails. -/
inductive TunAnswer where
  | took
  | failed (errno : Int) (ne_zero : errno ≠ 0)
  deriving DecidableEq, Repr

/-- Write a packet to the device. -/
def TunFD.write (tun : FDWrapper) (views : List Bytes) (a : TunAnswer) :
    Except Exception (Bytes × FDWrapper) := do
  let answer : Answer := match a with
    | .took => ⟨BufferList.size views, 0⟩
    | .failed errno _ => ⟨-1, errno⟩
  let _ ← FileDescriptor.writeOnce { views } answer
  return (BufferList.concatenate views, tun.registerWrite)

/-- Reads and writes IPv4 datagrams from and to a TUN device. -/
structure TCPOverIPv4OverTunFdAdapter where
  cfg : FdAdapterConfig := {}
  listen : Bool := false
  tun : FDWrapper := {}
  deriving DecidableEq, Repr

namespace TCPOverIPv4OverTunFdAdapter

/-- The base class, with its configuration. -/
def toIPv4 (d : TCPOverIPv4OverTunFdAdapter) : TCPOverIPv4Adapter where
  source := d.cfg.source
  destination := d.cfg.destination
  listening := d.listen

def setIPv4 (d : TCPOverIPv4OverTunFdAdapter) (a : TCPOverIPv4Adapter) :
    TCPOverIPv4OverTunFdAdapter :=
  { d with
    cfg := { d.cfg with source := a.source, destination := a.destination }
    listen := a.listening }

/-- Read an IPv4 datagram with a segment related to the current connection. -/
def read (d : TCPOverIPv4OverTunFdAdapter) (a : ReadAnswer) :
    Except Exception (Option TCPSegment × TCPOverIPv4OverTunFdAdapter) := do
  let (data, tun) ← d.tun.read (2 ^ 64 - 1) a
  let d := { d with tun }
  let (ipDgram, result) := IPv4Datagram.parse {} data
  if result ≠ .noError then
    return (none, d)
  let (seg, ipv4) ← throwing (d.toIPv4.unwrapTcpInIp ipDgram)
  return (seg, d.setIPv4 ipv4)

/-- Create an IPv4 datagram from a segment and write it to the device. -/
def write (d : TCPOverIPv4OverTunFdAdapter) (seg : TCPSegment) (a : TunAnswer) :
    Except Exception (Option Bytes × TCPOverIPv4OverTunFdAdapter) := do
  let (_, dgram) ← throwing (d.toIPv4.wrapTcpInIp seg)
  let views ← throwing dgram.serialize
  let (sent, tun) ← TunFD.write d.tun views a
  return (some sent, { d with tun })

instance : FdAdapter TCPOverIPv4OverTunFdAdapter ReadAnswer TunAnswer where
  fd := tun
  config := cfg
  setConfig := fun cfg d => { d with cfg }
  setListening := fun listen d => { d with listen }
  read := read
  write := write

end TCPOverIPv4OverTunFdAdapter

/-! ## Random loss -/

/-- Adds random dropping to an adapter; the random numbers come with the answers of the kernel. -/
structure LossyFdAdapter (δ : Type) where
  adapter : δ
  deriving DecidableEq, Repr

namespace LossyFdAdapter

section

variable {δ ρ ω : Type} [FdAdapter δ ρ ω]

/-- Determine whether or not to drop a given read or write. -/
def shouldDrop (d : LossyFdAdapter δ) (uplink : Bool) (rand : UInt16) : Bool :=
  let cfg := FdAdapter.config d.adapter
  let loss := if uplink then cfg.lossRateUp else cfg.lossRateDn
  loss != 0 && decide (rand < loss)

/-- Read from the underlying adapter, potentially dropping the segment. -/
def read (d : LossyFdAdapter δ) (a : UInt16 × ρ) :
    Except Exception (Option TCPSegment × LossyFdAdapter δ) := do
  let (ret, adapter) ← FdAdapter.read d.adapter a.2
  let d : LossyFdAdapter δ := { adapter }
  if d.shouldDrop false a.1 then
    return (none, d)
  return (ret, d)

/-- Write to the underlying adapter, or drop the segment. -/
def write (d : LossyFdAdapter δ) (seg : TCPSegment) (a : UInt16 × ω) :
    Except Exception (Option Bytes × LossyFdAdapter δ) := do
  if d.shouldDrop true a.1 then
    return (none, d)
  let (sent, adapter) ← FdAdapter.write d.adapter seg a.2
  return (sent, { adapter })

instance : FdAdapter (LossyFdAdapter δ) (UInt16 × ρ) (UInt16 × ω) where
  fd := fun d => FdAdapter.fd d.adapter
  config := fun d => FdAdapter.config d.adapter
  setConfig := fun cfg d => { adapter := FdAdapter.setConfig cfg d.adapter }
  setListening := fun listen d => { adapter := FdAdapter.setListening listen d.adapter }
  read := read
  write := write

end

end LossyFdAdapter

end Sponge
