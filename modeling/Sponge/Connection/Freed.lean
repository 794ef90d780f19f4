import Sponge.Connection.Machine
import Sponge.Receiver.Freed

set_option autoImplicit false

/-! # A connection, whatever an erased element reads

The branches of `segment_received` that give the segment to the receiver, over a reassembler that
uses what it has erased (`StreamReassembler.Freed`). -/

namespace Sponge

namespace TCPConnection

/-- The segment is given to the receiver: the connection is active, and the segment goes to a branch
that does so. -/
def gives (c : TCPConnection) (seg : TCPSegment) : Bool :=
  c.active && (c.outOfOrder seg || (!seg.header.rst && !c.receiverFINRecv &&
    (if c.receiverInListen then seg.header.syn
      else !seg.header.syn && seg.lengthInSequenceSpace != 0)))

/-- A segment that is given to the receiver makes it write stored substrings as a whole only. -/
def Unbroken (c : TCPConnection) (seg : TCPSegment) : Prop :=
  c.gives seg = true → c.receiver.Unbroken seg

instance (c : TCPConnection) (seg : TCPSegment) : Decidable (c.Unbroken seg) :=
  inferInstanceAs (Decidable (_ → _))

/-- Two connections that treat an incoming segment alike, as far as the receiver is concerned. -/
structure SameInbound (c c' : TCPConnection) : Prop where
  receiver : c'.receiver = c.receiver
  active : c'.active = c.active

theorem SameInbound.gives_eq {c c' : TCPConnection} (h : SameInbound c c') (seg : TCPSegment) :
    c'.gives seg = c.gives seg := by
  unfold gives outOfOrder receiverFINRecv receiverInListen
  rw [h.receiver, h.active]

namespace Freed

section

variable (freed : Nat × Bytes → Nat × Bytes) (c : TCPConnection) (seg : TCPSegment)

def receive : TCPConnection :=
  { c with receiver := TCPReceiver.Freed.segmentReceived freed c.receiver seg }

def outOfOrderReceived : TCPConnection :=
  ((receive freed c seg).onlyIf seg.header.ack
    (fun c => (c.ackReceived seg.header).fillWindow)).nonempty.updateOutput

def listenReceived : TCPConnection :=
  if seg.header.syn then
    ((receive freed c seg).onlyIf seg.header.ack
      (fun c => c.ackReceived seg.header)).fill.replyIfIdle
  else c

def synRecvReceived : TCPConnection :=
  if seg.header.syn then c
  else
    let c' := ((c.onlyIf (seg.lengthInSequenceSpace != 0) (fun c => receive freed c seg)).onlyIf
      seg.header.ack (fun c => (c.ackReceived seg.header).fill)).onlyIf
        (decide (0 < seg.lengthInSequenceSpace)) replyIfIdle
    c'.onlyIf c'.receiverFINRecv inboundEnded

def segmentReceived : TCPConnection :=
  if !c.active then c
  else
    let c := { c with timeSinceLastSegmentReceived := 0 }
    if c.outOfOrder seg then outOfOrderReceived freed c seg
    else if seg.header.rst then c.uncleanShutdown
    else if c.receiverFINRecv then c.finRecvReceived seg
    else if c.receiverInListen then listenReceived freed c seg
    else synRecvReceived freed c seg

variable {freed c seg}

/-- The connection notices of its receiver only what it has received. -/
theorem segmentReceived_eq
    (h : c.gives seg = true →
      TCPReceiver.Freed.segmentReceived freed c.receiver seg = c.receiver.segmentReceived seg) :
    segmentReceived freed c seg = c.segmentReceived seg := by
  have hreceive : c.gives seg = true → receive freed c.received seg = c.received.receive seg := by
    intro hgives
    exact congrArg (fun r => { c.received with receiver := r }) (h hgives)
  unfold segmentReceived TCPConnection.segmentReceived
  by_cases hactive : c.active = true
  swap
  · have hdead : (!c.active) = true := by simpa using hactive
    rw [if_pos hdead, if_pos hdead]
  have hlive : ¬(!c.active) = true := by simpa using hactive
  rw [if_neg hlive, if_neg hlive]
  show (if c.outOfOrder seg = true then outOfOrderReceived freed c.received seg
      else if seg.header.rst = true then c.received.uncleanShutdown
      else if c.receiverFINRecv = true then c.received.finRecvReceived seg
      else if c.receiverInListen = true then listenReceived freed c.received seg
      else synRecvReceived freed c.received seg)
    = if c.outOfOrder seg = true then c.received.outOfOrderReceived seg
      else if seg.header.rst = true then c.received.uncleanShutdown
      else if c.receiverFINRecv = true then c.received.finRecvReceived seg
      else if c.receiverInListen = true then c.received.listenReceived seg
      else c.received.synRecvReceived seg
  split_ifs with hout hrst hfin hlisten
  · unfold outOfOrderReceived TCPConnection.outOfOrderReceived
    rw [hreceive (by simp [gives, hactive, hout])]
  · rfl
  · rfl
  · unfold listenReceived TCPConnection.listenReceived
    by_cases hsyn : seg.header.syn = true
    · rw [if_pos hsyn, if_pos hsyn,
        hreceive (by simp [gives, hactive, hrst, hfin, hlisten, hsyn])]
    · rw [if_neg hsyn, if_neg hsyn]
  · unfold synRecvReceived TCPConnection.synRecvReceived
    by_cases hsyn : seg.header.syn = true
    · rw [if_pos hsyn, if_pos hsyn]
    · have honly : c.received.onlyIf (seg.lengthInSequenceSpace != 0)
            (fun c => receive freed c seg)
          = c.received.onlyIf (seg.lengthInSequenceSpace != 0) (fun c => c.receive seg) := by
        by_cases hlen : seg.lengthInSequenceSpace = 0
        · simp [onlyIf, hlen]
        · simp only [onlyIf_pos (show (seg.lengthInSequenceSpace != 0) = true by simpa using hlen)]
          exact hreceive (by simp [gives, hactive, hrst, hfin, hlisten, hsyn, hlen])
      rw [if_neg hsyn, if_neg hsyn, honly]

end

end Freed

end TCPConnection

end Sponge
