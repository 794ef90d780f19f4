import Sponge.FdAdapter
import Sponge.TCPState
import Sponge.Util.EventLoop

set_option autoImplicit false

/-! # The socket

`tcp_sponge_socket.hh` and `tcp_sponge_socket.cc`: a connection, the local stream socket to its owner
and the adapter to the network, moved along by the four rules of an event loop. A record is kept
of the bytes that were read from and written to the owner, of the segments that were handed to the
adapter, and of the datagrams that it sent.

The owner's thread blocks until the handshake is over; then the loop goes on in a thread of its own.
Both phases call the loop in passes, and what happens between two calls of the owner is a list of
passes. The destruction of the connection after the last pass is left out. -/

namespace Sponge

open Util Util.EventLoop

structure TCPSpongeSocket (δ : Type) where
  tcp : TCPConnection
  /-- Stream socket for reads and writes between owner and TCP thread. -/
  threadData : FDWrapper := {}
  /-- Adapter to the underlying datagram socket. -/
  datagramAdapter : δ
  /-- Has the socket shut down the incoming data to the owner? -/
  inboundShutdown : Bool := false
  /-- Has the owner shut down the outbound data to the connection? -/
  outboundShutdown : Bool := false
  /-- Has the outbound data been fully acknowledged by the peer? -/
  fullyAcked : Bool := false
  /-- The bytes that the reads from the owner returned. -/
  accepted : Bytes := []
  /-- The bytes that the writes to the owner took. -/
  given : Bytes := []
  /-- The segments that were handed to the adapter. -/
  sent : List TCPSegment := []
  /-- The datagrams that the adapter sent. -/
  wire : List Bytes := []

/-- What the kernel answers to the system calls of one callback. -/
structure SocketAnswers (ρ ω : Type) where
  datagram : ρ
  /-- The answers to the writes of segments, one after the other. -/
  segments : Nat → ω
  read : ReadAnswer := ⟨0, 0, []⟩
  write : Answer := ⟨0, 0⟩
  shutdown : Answer := ⟨0, 0⟩

namespace TCPConnection

def remainingOutboundCapacity (c : TCPConnection) : Nat := c.sender.stream.remainingCapacity

def inboundStream (c : TCPConnection) : ByteStream := c.receiver.streamOut

/-- Pop bytes from the inbound stream. -/
def popInbound (c : TCPConnection) (len : Nat) : TCPConnection :=
  { c with receiver := { c.receiver with reassembler := c.receiver.reassembler.popOutput len } }

end TCPConnection

namespace TCPSpongeSocket

section

variable {δ : Type}

/-! ## What the callbacks change -/

/-- A segment that was read is given to the connection. -/
def receive (s : TCPSpongeSocket δ) : Option TCPSegment → TCPSpongeSocket δ
  | some seg => { s with tcp := s.tcp.segmentReceived seg }
  | none => s

/-- Find out whether the outbound stream has been acknowledged. -/
def noteAcked (s : TCPSpongeSocket δ) : TCPSpongeSocket δ :=
  if s.threadData.eof && s.tcp.bytesInFlight == 0 && !s.fullyAcked then
    { s with fullyAcked := true }
  else s

def write (s : TCPSpongeSocket δ) (data : Bytes) : TCPSpongeSocket δ :=
  { s with tcp := (s.tcp.write data).1, accepted := s.accepted ++ data }

def endInput (s : TCPSpongeSocket δ) : TCPSpongeSocket δ :=
  { s with tcp := s.tcp.endInputStream, outboundShutdown := true }

/-- The bytes that a write to the owner is offered. -/
def offer (s : TCPSpongeSocket δ) : Bytes :=
  s.tcp.inboundStream.peekOutput (min 65536 s.tcp.inboundStream.bufferSize)

def pop (s : TCPSpongeSocket δ) (bytesWritten : Nat) : TCPSpongeSocket δ :=
  { s with
    tcp := s.tcp.popInbound bytesWritten
    given := s.given ++ s.offer.take bytesWritten }

/-- The first segment of the queue has been written. -/
def popSegment (s : TCPSpongeSocket δ) (sent : Option Bytes) : TCPSpongeSocket δ :=
  { s with
    tcp := s.tcp.popSegment.2
    sent := s.sent ++ s.tcp.popSegment.1.toList
    wire := s.wire ++ sent.toList }

def tick (junk : Nat → UInt8) (s : TCPSpongeSocket δ) (ms : UInt64) : TCPSpongeSocket δ :=
  if s.tcp.active then { s with tcp := s.tcp.tick junk ms.toNat } else s

/-- What the descriptor of the owner does. -/
def onThreadData {β : Type} (f : FDWrapper → Except Exception (β × FDWrapper)) :
    EStateM Exception (TCPSpongeSocket δ) β :=
  onPart threadData (fun s threadData => { s with threadData }) f

/-- What the adapter does. -/
def onAdapter {β : Type} (f : δ → Except Exception (β × δ)) :
    EStateM Exception (TCPSpongeSocket δ) β :=
  onPart datagramAdapter (fun s datagramAdapter => { s with datagramAdapter }) f

end

/-! ## The rules -/

section

variable {δ ρ ω : Type} [FdAdapter δ ρ ω]

/-- Write the segments of the queue, and pop them. -/
def sendSegments : List TCPSegment → (Nat → ω) → EStateM Exception (TCPSpongeSocket δ) Unit
  | [], _ => return
  | seg :: queue, answers => do
      let sent ← onAdapter fun d => FdAdapter.write d seg (answers 0)
      modify fun s => s.popSegment sent
      sendSegments queue fun n => answers (n + 1)

/-- Read from filtered packet stream and dump into the connection. -/
def rule1 : Rule (TCPSpongeSocket δ) (SocketAnswers ρ ω) where
  fd := fun s => FdAdapter.fd s.datagramAdapter
  direction := .In
  callback := fun a => do
    let seg ← onAdapter fun d => FdAdapter.read d a.datagram
    modify fun s => (s.receive seg).noteAcked
  interest := fun s => s.tcp.active

/-- Read from pipe into outbound buffer. -/
def rule2 : Rule (TCPSpongeSocket δ) (SocketAnswers ρ ω) where
  fd := threadData
  direction := .In
  callback := fun a => do
    let limit := (← get).tcp.remainingOutboundCapacity
    let data ← onThreadData fun fd => fd.read limit a.read
    let amountWritten := ((← get).tcp.write data).2
    modify fun s => s.write data
    if amountWritten ≠ data.length then
      throw (.runtimeError "TCPConnection::write() accepted less than advertised length")
    if (← get).threadData.eof then
      modify endInput
  interest := fun s =>
    s.tcp.active && !s.outboundShutdown && decide (0 < s.tcp.remainingOutboundCapacity)
  cancel := modify endInput

/-- Read from inbound buffer into pipe. -/
def rule3 : Rule (TCPSpongeSocket δ) (SocketAnswers ρ ω) where
  fd := threadData
  direction := .Out
  callback := fun a => do
    -- only what was actually written is popped
    let buffer := (← get).offer
    let bytesWritten ← onThreadData fun fd => fd.write buffer a.write
    modify fun s => s.pop bytesWritten
    let inbound := (← get).tcp.inboundStream
    if inbound.eof || inbound.error then
      onThreadData fun fd => fd.shutdown .wr a.shutdown
      modify fun s => { s with inboundShutdown := true }
  interest := fun s =>
    s.tcp.inboundStream.size != 0 ||
      ((s.tcp.inboundStream.eof || s.tcp.inboundStream.error) && !s.inboundShutdown)

/-- Read outbound segments from the connection and send as datagrams. -/
def rule4 : Rule (TCPSpongeSocket δ) (SocketAnswers ρ ω) where
  fd := fun s => FdAdapter.fd s.datagramAdapter
  direction := .Out
  callback := fun a => do
    sendSegments (← get).tcp.segmentsOut a.segments
  interest := fun s => !s.tcp.segmentsOut.isEmpty

inductive SocketRule where
  | rule1
  | rule2
  | rule3
  | rule4
  deriving DecidableEq, Repr

def table : SocketRule → Rule (TCPSpongeSocket δ) (SocketAnswers ρ ω)
  | .rule1 => rule1
  | .rule2 => rule2
  | .rule3 => rule3
  | .rule4 => rule4

def rules : List SocketRule := [.rule1, .rule2, .rule3, .rule4]

end

end TCPSpongeSocket

/-! ## The loop -/

/-- How the owner opens the connection. -/
inductive SocketRole where
  | connects
  | listens
  deriving DecidableEq, Repr

/-- The condition of the loop in which the owner waits. -/
def SocketRole.waits : SocketRole → TCPConnection → Bool
  | .connects, c => c.state == TCPState.ofState .synSent
  | .listens, c =>
      c.state == TCPState.ofState .listen || c.state == TCPState.ofState .synRcvd ||
        c.state == TCPState.ofState .synSent

/-- What one pass of the loop meets: the results of `poll`, whether the owner has given up by the
time the callbacks are done, and the time since the last pass. -/
structure SocketPass (ρ ω : Type) where
  poll : Poll (SocketAnswers ρ ω)
  abort : Bool := false
  elapsed : UInt64 := 0

/-- The loop of a socket; the thread is over when the loop has exited. -/
structure SocketLoop (δ : Type) where
  role : SocketRole
  loop : Machine TCPSpongeSocket.SocketRule (TCPSpongeSocket δ)
  /-- The owner still waits. -/
  opening : Bool := true
  /-- The thread was over because the owner gave up. -/
  aborted : Bool := false

namespace SocketLoop

section

variable {δ ρ ω : Type} [FdAdapter δ ρ ω]

def socket (t : SocketLoop δ) : TCPSpongeSocket δ := t.loop.state

/-- The loop is left. If the owner has waited for that, it starts the thread. -/
def leave (t : SocketLoop δ) : SocketLoop δ :=
  if t.opening then { t with loop := { t.loop with status := .running }, opening := false }
  else { t with loop := { t.loop with status := .exited } }

/-- What is done when `wait_next_event` has returned. -/
def afterEvent (junk : Nat → UInt8) (t : SocketLoop δ) (p : SocketPass ρ ω) : SocketLoop δ :=
  match t.loop.status with
  | .threw _ => t
  | .exited => t.leave
  | .running =>
      if p.abort then { t.leave with aborted := !t.opening }
      else { t with loop := { t.loop with state := t.socket.tick junk p.elapsed } }

/-- One pass of the loop, in the thread of the owner or in the other one. -/
def pass (junk : Nat → UInt8) (t : SocketLoop δ) (p : SocketPass ρ ω) : SocketLoop δ :=
  match t.loop.status with
  | .running =>
      afterEvent junk { t with
        loop := t.loop.step TCPSpongeSocket.table p.poll
        opening := t.opening && t.role.waits t.socket.tcp } p
  | _ => t

/-- A new socket. -/
def new (role : SocketRole) (tcp : TCPConnection) (datagramAdapter : δ) : SocketLoop δ :=
  { role, loop := { rules := TCPSpongeSocket.rules, state := { tcp, datagramAdapter } } }

/-- Connect using the specified configurations. -/
def connect (cTcp : TCPConfig) (randomIsn : WrappingInt32) (cAd : FdAdapterConfig) (adapter : δ) :
    Except Exception (SocketLoop δ) := do
  let tcp := (TCPConnection.new cTcp randomIsn).connect
  let expectedState := TCPState.ofState .synSent
  if tcp.state ≠ expectedState then
    throw (.runtimeError ("After TCPConnection::connect(), state was " ++ tcp.state.name ++
      " but expected " ++ expectedState.name))
  return new .connects tcp (FdAdapter.setConfig cAd adapter)

/-- Listen and accept using the specified configurations. -/
def listenAndAccept (cTcp : TCPConfig) (randomIsn : WrappingInt32) (cAd : FdAdapterConfig)
    (adapter : δ) : SocketLoop δ :=
  new .listens (TCPConnection.new cTcp randomIsn)
    (FdAdapter.setListening true (FdAdapter.setConfig cAd adapter))

end

end SocketLoop

end Sponge
