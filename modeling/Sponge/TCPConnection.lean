import Sponge.TCPReceiver
import Sponge.TCPSender

set_option autoImplicit false

/-! # The connection

`tcp_connection.hh` and `tcp_connection.cc`: a sender and a receiver joined into one endpoint,
with the queue of outgoing segments and the flags that decide when the connection is over. -/

namespace Sponge

open Word

structure TCPConnection where
  cfg : TCPConfig
  receiver : TCPReceiver
  sender : TCPSender
  segmentsOut : List TCPSegment := []
  lingerAfterStreamsFinish : Bool := true
  active : Bool := true
  timeSinceLastSegmentReceived : Nat := 0
  timeWait : Bool := false
  deriving DecidableEq

namespace TCPConnection

/-- A fresh connection; `randomIsn` is the initial sequence number when the configuration
fixes none. -/
def new (cfg : TCPConfig) (randomIsn : WrappingInt32) : TCPConnection :=
  { cfg := cfg
    receiver := TCPReceiver.new cfg.recvCapacity
    sender := TCPSender.new cfg.sendCapacity cfg.rtTimeout (cfg.fixedIsn.getD randomIsn) }

/-! ## Helpers -/

def uncleanShutdown (c : TCPConnection) : TCPConnection :=
  { c with
    sender := { c.sender with stream := c.sender.stream.setError }
    receiver := c.receiver.setError
    active := false }

def cleanShutdown (c : TCPConnection) : TCPConnection := { c with active := false }

/-- A segment of the sender with the receiver's acknowledgment and window, unless it is a RST
or no SYN has been received. -/
def withAck (r : TCPReceiver) (seg : TCPSegment) : TCPSegment :=
  match r.ackno with
  | some ackno =>
      if seg.header.rst then seg
      else { seg with
        header := { seg.header with
          ack := true
          ackno := ackno
          win := UInt16.ofNat r.windowSize } }
  | none => seg

/-- Move the segments of the sender to the outgoing queue. -/
def updateOutput (c : TCPConnection) : TCPConnection :=
  { c with
    segmentsOut := c.segmentsOut ++ c.sender.segmentsOut.map (withAck c.receiver)
    sender := { c.sender with segmentsOut := [] } }

/-- Apply an operation to the sender. -/
def onSender (c : TCPConnection) (f : TCPSender → TCPSender) : TCPConnection :=
  { c with sender := f c.sender }

def sendEmptySegment (c : TCPConnection) : TCPConnection := c.onSender TCPSender.sendEmptySegment

def fillWindow (c : TCPConnection) : TCPConnection := c.onSender TCPSender.fillWindow

def ackReceived (c : TCPConnection) (h : TCPHeader) : TCPConnection :=
  c.onSender (fun s => s.ackReceived h.ackno h.win)

def receiverInListen (c : TCPConnection) : Bool := c.receiver.ackno.isNone

def receiverFINRecv (c : TCPConnection) : Bool := c.receiver.streamOut.inputEnded

/-- Replace everything that is queued by one RST segment, which takes the sequence number of
the first queued segment. -/
def sendRSTSeg (c : TCPConnection) : TCPConnection :=
  match c.segmentsOut ++ c.sender.segmentsOut with
  | first :: _ =>
      let rst : TCPSegment := { header := { seqno := first.header.seqno, rst := true } }
      { c with
        segmentsOut := []
        sender := { c.sender with segmentsOut := [rst] } }.updateOutput
  | [] =>
      let rst : TCPSegment :=
        { header := { seqno := wrap c.sender.unAckQueue.nextSeqno c.sender.isn, rst := true } }
      { c with sender := { c.sender with segmentsOut := [rst] } }.updateOutput

/-! ## Incoming segments -/

/-- Do `f` if the condition holds, else nothing. -/
def onlyIf (c : TCPConnection) (b : Bool) (f : TCPConnection → TCPConnection) : TCPConnection :=
  if b then f c else c

/-- Give a segment to the receiver. -/
def receive (c : TCPConnection) (seg : TCPSegment) : TCPConnection :=
  { c with receiver := c.receiver.segmentReceived seg }

/-- Send what the window allows. -/
def fill (c : TCPConnection) : TCPConnection := c.fillWindow.updateOutput

/-- Answer with an empty segment. -/
def reply (c : TCPConnection) : TCPConnection := c.sendEmptySegment.updateOutput

/-- Answer with an empty segment unless something is queued that carries the acknowledgment. -/
def replyIfIdle (c : TCPConnection) : TCPConnection := c.onlyIf c.segmentsOut.isEmpty reply

/-- The segment is not the next one, and is short. -/
def outOfOrder (c : TCPConnection) (seg : TCPSegment) : Bool :=
  match c.receiver.ackno with
  | some ackno =>
      seg.header.seqno != ackno && decide (seg.lengthInSequenceSpace ≤ 1) && !seg.header.syn
  | none => false

/-- The sender has at least an empty segment to send. -/
def nonempty (c : TCPConnection) : TCPConnection :=
  c.onlyIf c.sender.segmentsOut.isEmpty sendEmptySegment

/-- The branch for out-of-order segments. -/
def outOfOrderReceived (c : TCPConnection) (seg : TCPSegment) : TCPConnection :=
  ((c.receive seg).onlyIf seg.header.ack
    (fun c => (c.ackReceived seg.header).fillWindow)).nonempty.updateOutput

/-- In LAST_ACK the acknowledgment of the FIN ends the connection; in CLOSE_WAIT there may
still be something to send. -/
def closeOrFill (c : TCPConnection) : TCPConnection :=
  if c.sender.finAcked then c.cleanShutdown else c.fill

/-- The branch for segments after the end of the inbound stream. -/
def finRecvReceived (c : TCPConnection) (seg : TCPSegment) : TCPConnection :=
  if seg.header.syn then c
  else if !c.lingerAfterStreamsFinish then
    -- CLOSE_WAIT or LAST_ACK
    (c.onlyIf seg.header.fin reply).onlyIf seg.header.ack
      (fun c => (c.ackReceived seg.header).closeOrFill)
  else
    -- lingering
    (c.onlyIf seg.header.ack (fun c => c.ackReceived seg.header)).onlyIf seg.header.fin reply

/-- The branch for segments before the peer's SYN. -/
def listenReceived (c : TCPConnection) (seg : TCPSegment) : TCPConnection :=
  if seg.header.syn then
    ((c.receive seg).onlyIf seg.header.ack
      (fun c => c.ackReceived seg.header)).fill.replyIfIdle
  else c

/-- After the inbound stream has ended, who sends FIN first decides who lingers. -/
def inboundEnded (c : TCPConnection) : TCPConnection :=
  if !c.sender.unAckQueue.finSent then { c with lingerAfterStreamsFinish := false }.replyIfIdle
  else { c with timeWait := true }.replyIfIdle

/-- The branch for segments on an open inbound stream. -/
def synRecvReceived (c : TCPConnection) (seg : TCPSegment) : TCPConnection :=
  if seg.header.syn then c
  else
    let c' := ((c.onlyIf (seg.lengthInSequenceSpace != 0) (fun c => c.receive seg)).onlyIf
      seg.header.ack (fun c => (c.ackReceived seg.header).fill)).onlyIf
        (decide (0 < seg.lengthInSequenceSpace)) replyIfIdle
    c'.onlyIf c'.receiverFINRecv inboundEnded

def segmentReceived (c : TCPConnection) (seg : TCPSegment) : TCPConnection :=
  if !c.active then c
  else
    let c := { c with timeSinceLastSegmentReceived := 0 }
    if c.outOfOrder seg then c.outOfOrderReceived seg
    else if seg.header.rst then c.uncleanShutdown
    else if c.receiverFINRecv then c.finRecvReceived seg
    else if c.receiverInListen then c.listenReceived seg
    else c.synRecvReceived seg

/-! ## The other operations -/

/-- Write to the outbound stream and send what the window allows; also returns the number of
bytes accepted. -/
def write (c : TCPConnection) (data : Bytes) : TCPConnection × Nat :=
  if data.isEmpty then (c, 0)
  else
    ((c.onSender (fun s => (s.writeStream data).1)).fill,
      (c.sender.writeStream data).2)

/-- Time after which a connection that lingers is over. -/
def lingerTimeout (c : TCPConnection) : Nat := 10 * c.cfg.rtTimeout.toNat

def tick (junk : Nat → UInt8) (c : TCPConnection) (msSinceLastTick : Nat) : TCPConnection :=
  if !c.active then c
  else
    let c := { c with
      timeSinceLastSegmentReceived := add64 c.timeSinceLastSegmentReceived msSinceLastTick }
    let c := (c.onSender (fun s => s.tick junk msSinceLastTick)).updateOutput
    if TCPConfig.maxRetxAttempts < c.sender.consecutiveRetransmissions then
      c.sendRSTSeg.uncleanShutdown
    else if c.timeWait && decide (c.lingerTimeout ≤ c.timeSinceLastSegmentReceived) then
      c.cleanShutdown
    else c

def endInputStream (c : TCPConnection) : TCPConnection :=
  (c.onSender TCPSender.endStream).fill

def connect (c : TCPConnection) : TCPConnection := c.fill

/-- The owner reads `len` bytes from the inbound stream. -/
def readInbound (c : TCPConnection) (len : Nat) : Bytes × TCPConnection :=
  ((c.receiver.readOutput len).1, { c with receiver := (c.receiver.readOutput len).2 })

/-- The owner takes the first segment from the outgoing queue. -/
def popSegment (c : TCPConnection) : Option TCPSegment × TCPConnection :=
  (c.segmentsOut.head?, { c with segmentsOut := c.segmentsOut.tail })

def bytesInFlight (c : TCPConnection) : Nat := c.sender.bytesInFlight

def unassembledBytes (c : TCPConnection) : Nat := c.receiver.unassembledBytes

end TCPConnection

end Sponge
