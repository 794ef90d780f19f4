import Sponge.Connection.Machine
import Sponge.Network.Outflow

set_option autoImplicit false

/-! # Two connections and a network

An endpoint is a connection with its owner's record: the bytes that the writes accepted, the
bytes read, and every segment taken from the outgoing queue. The network may give the peer any
of these segments at any time, in any order and any number of times. `Link x y` is the
invariant of the direction from `x` to `y`; a step of `x` keeps both directions. -/

namespace Sponge

open Word

/-! ## Endpoints -/

structure Endpoint where
  conn : TCPConnection
  /-- The bytes that the writes accepted. -/
  accepted : Bytes := []
  /-- The bytes read from the inbound stream. -/
  taken : Bytes := []
  /-- The segments taken from the outgoing queue. -/
  sent : List TCPSegment := []

/-- What can happen to an endpoint. -/
inductive EndpointOp where
  | connect
  | write (data : Bytes)
  | endInputStream
  | tick (msSinceLastTick : UInt64)
  | readInbound (len : Nat)
  | popSegment
  /-- The network delivers the segment that the peer has sent as its `i`-th. -/
  | deliver (i : Nat)

namespace Endpoint

def new (cfg : TCPConfig) (randomIsn : WrappingInt32) : Endpoint :=
  { conn := TCPConnection.new cfg randomIsn }

def step (junk : Nat → UInt8) (peerSent : List TCPSegment) (x : Endpoint) :
    EndpointOp → Endpoint
  | .connect => { x with conn := x.conn.connect }
  | .write data =>
      { x with
        conn := (x.conn.write data).1
        accepted := x.accepted ++ data.take (x.conn.write data).2 }
  | .endInputStream => { x with conn := x.conn.endInputStream }
  | .tick ms => { x with conn := x.conn.tick junk ms.toNat }
  | .readInbound len =>
      { x with
        conn := (x.conn.readInbound len).2
        taken := x.taken ++ (x.conn.readInbound len).1 }
  | .popSegment =>
      { x with
        conn := x.conn.popSegment.2
        sent := x.sent ++ x.conn.popSegment.1.toList }
  | .deliver i =>
      match peerSent[i]? with
      | some seg => { x with conn := x.conn.segmentReceived seg }
      | none => x

def outflow (x : Endpoint) : Outflow := x.conn.sender.outflow x.accepted

/-- Every timeout finds the first segment size inside the queue of unacknowledged bytes. -/
def Retransmits (x : Endpoint) : EndpointOp → Prop
  | .tick ms => x.conn.active = true → x.conn.sender.timer.expires ms.toNat = true →
      x.conn.sender.FrontInside
  | _ => True

instance decidableRetransmits (x : Endpoint) : ∀ op, Decidable (x.Retransmits op)
  | .tick _ => inferInstanceAs (Decidable (_ → _ → _))
  | .connect | .write _ | .endInputStream | .readInbound _ | .popSegment | .deliver _ =>
      .isTrue trivial

end Endpoint

/-! ## The invariant -/

/-- The direction from `x` to `y`. -/
structure Link (x y : Endpoint) : Prop where
  tracks : x.conn.sender.Tracks x.accepted
  honest : ∀ seg ∈ x.sent ++ x.conn.segmentsOut, x.outflow.Honest seg
  pending : ∀ seg ∈ x.conn.sender.segmentsOut, x.outflow.Honest seg ∧ seg.header.ack = false
  delivered : y.conn.receiver.Delivered x.outflow y.taken
  acks : ∀ seg ∈ y.sent ++ y.conn.segmentsOut,
    Outflow.AcksUpTo x.outflow.isn y.conn.receiver.ackPos seg
  base_le : x.conn.sender.unAckQueue.baseSqn ≤ y.conn.receiver.ackPos

theorem link_new (cfg cfg' : TCPConfig) (isn isn' : WrappingInt32) :
    Link (Endpoint.new cfg isn) (Endpoint.new cfg' isn') where
  tracks := TCPSender.tracks_new _ _ _
  honest := fun _ h => absurd h List.not_mem_nil
  pending := fun _ h => absurd h List.not_mem_nil
  delivered := TCPReceiver.delivered_new _ _
  acks := fun _ h => absurd h List.not_mem_nil
  base_le := le_rfl

section

variable {x y : Endpoint}

/-- What the direction from `x` to `y` depends on. -/
theorem Link.congr (h : Link x y) {x' y' : Endpoint} (hsender : x'.conn.sender = x.conn.sender)
    (haccepted : x'.accepted = x.accepted)
    (hqueue : x'.sent ++ x'.conn.segmentsOut = x.sent ++ x.conn.segmentsOut)
    (hreceiver : y'.conn.receiver = y.conn.receiver) (htaken : y'.taken = y.taken)
    (hqueue' : y'.sent ++ y'.conn.segmentsOut = y.sent ++ y.conn.segmentsOut) : Link x' y' := by
  have hflow : x'.outflow = x.outflow := by
    unfold Endpoint.outflow
    rw [hsender, haccepted]
  refine ⟨?_, ?_, ?_, ?_, ?_, ?_⟩
  · rw [hsender, haccepted]; exact h.tracks
  · rw [hqueue, hflow]; exact h.honest
  · rw [hsender, hflow]; exact h.pending
  · rw [hreceiver, hflow, htaken]; exact h.delivered
  · rw [hqueue', hflow, hreceiver]; exact h.acks
  · rw [hsender, hreceiver]; exact h.base_le

/-- The sender goes on. -/
theorem Link.sender (h : Link x y) {s : TCPSender} {data : Bytes} (ht : s.Tracks data)
    (hext : x.outflow.Extends (s.outflow data))
    (hpending : ∀ seg ∈ s.segmentsOut, (s.outflow data).Honest seg ∧ seg.header.ack = false)
    (hbase : s.unAckQueue.baseSqn ≤ y.conn.receiver.ackPos) :
    Link { x with conn := { x.conn with sender := s }, accepted := data } y where
  tracks := ht
  honest := fun seg hseg => (h.honest seg hseg).extend hext
  pending := hpending
  delivered := h.delivered.extend hext
  acks := by
    show ∀ seg ∈ y.sent ++ y.conn.segmentsOut,
      Outflow.AcksUpTo (s.outflow data).isn y.conn.receiver.ackPos seg
    rw [hext.isn_eq]
    exact h.acks
  base_le := hbase

/-- The sender goes on without sending. -/
theorem Link.sender_quiet (h : Link x y) {s : TCPSender} {data : Bytes} (ht : s.Tracks data)
    (hflow : s.outflow data = x.outflow) (hsegs : s.segmentsOut = x.conn.sender.segmentsOut)
    (hbase : s.unAckQueue.baseSqn ≤ y.conn.receiver.ackPos) :
    Link { x with conn := { x.conn with sender := s }, accepted := data } y := by
  apply h.sender ht
  · rw [hflow]
    exact Outflow.Extends.refl _
  · rw [hflow, hsegs]
    exact h.pending
  · exact hbase

/-- The sender has one more segment to send. -/
theorem Link.sender_adds (h : Link x y) {s : TCPSender} {seg : TCPSegment}
    (ht : s.Tracks x.accepted) (hext : x.outflow.Extends (s.outflow x.accepted))
    (hsegs : s.segmentsOut = x.conn.sender.segmentsOut ++ [seg])
    (hseg : (s.outflow x.accepted).Honest seg) (hack : seg.header.ack = false)
    (hbase : s.unAckQueue.baseSqn = x.conn.sender.unAckQueue.baseSqn) :
    Link { x with conn := { x.conn with sender := s } } y := by
  apply h.sender ht hext
  · intro seg' hseg'
    rw [hsegs, List.mem_append, List.mem_singleton] at hseg'
    rcases hseg' with hold | rfl
    · exact ⟨(h.pending seg' hold).1.extend hext, (h.pending seg' hold).2⟩
    · exact ⟨hseg, hack⟩
  · rw [hbase]
    exact h.base_le

theorem Link.fillWindow (h : Link x y) : Link { x with conn := x.conn.fillWindow } y := by
  refine TCPSender.fillWindow_rule
    (P := fun s => Link { x with conn := { x.conn with sender := s } } y)
    (fun s hs => ⟨x.accepted, hs.tracks.carries⟩) (fun s s' seg hs hsends => ?_) h
  exact hs.sender_adds (hs.tracks.sends hsends) (hsends.extends hs.tracks.carries) hsends.out_eq
    (hs.tracks.honest_sends hsends) hsends.no_ack hsends.base_eq

theorem Link.sendEmptySegment (h : Link x y) :
    Link { x with conn := x.conn.sendEmptySegment } y :=
  h.sender_adds (h.tracks.segmentsOut _) (Outflow.Extends.refl _) rfl
    (Outflow.honest_empty _ rfl rfl rfl) rfl rfl

theorem Link.tick (h : Link x y) (junk : Nat → UInt8) {ms : Nat}
    (hfront : x.conn.sender.timer.expires ms = true → x.conn.sender.FrontInside) :
    Link { x with conn := x.conn.onSender (fun s => s.tick junk ms) } y := by
  have ht := h.tracks.tick junk ms
  obtain ⟨timer, heq⟩ := h.tracks.tick_eq junk ms
  have hconn : x.conn.onSender (fun s => s.tick junk ms)
      = { x.conn with sender := x.conn.sender.tick junk ms } := rfl
  rw [hconn]
  rw [heq] at ht ⊢
  by_cases hexp : x.conn.sender.timer.expires ms = true
  · obtain ⟨hseg, hack⟩ :=
      h.tracks.honest_retransmitSeg (Timer.running_of_expires hexp) (hfront hexp) junk
    rw [if_pos hexp] at ht ⊢
    exact h.sender_adds ht (Outflow.Extends.refl _) rfl hseg hack rfl
  · rw [if_neg hexp] at ht ⊢
    exact h.sender_quiet ht rfl (List.append_nil _) h.base_le

/-- The sender gets an acknowledgment of the peer. -/
theorem Link.ackReceived (h : Link x y) (hlen : x.accepted.length < 2 ^ 31) {seg : TCPSegment}
    (hseg : seg ∈ y.sent) (hack : seg.header.ack = true) :
    Link { x with conn := x.conn.ackReceived seg.header } y := by
  obtain ⟨a, hackno, ha, hapos⟩ := h.acks seg (List.mem_append_left _ hseg) hack
  obtain ⟨ht, hbase⟩ := h.tracks.ackReceived_upTo hlen ha hapos h.base_le h.delivered.ackPos_le
    seg.header.win
  have hackno' : seg.header.ackno = wrap a x.conn.sender.isn := hackno
  rw [← hackno'] at ht hbase
  exact h.sender_quiet ht (TCPSender.outflow_ackReceived _ _ _ _)
    (TCPConnection.ackReceived_segmentsOut _ _ _) hbase

/-- The receiver gets a segment of the peer. -/
theorem Link.receive (h : Link x y) (hlen : x.accepted.length < 2 ^ 31) {seg : TCPSegment}
    (hseg : seg ∈ x.sent) : Link x { y with conn := y.conn.receive seg } := by
  have hlen' : x.outflow.bytes.length < 2 ^ 31 :=
    lt_of_le_of_lt (List.length_take_le' _ _) hlen
  obtain ⟨hdelivered, hpos⟩ :=
    h.delivered.segmentReceived (h.honest seg (List.mem_append_left _ hseg)) hlen'
  exact ⟨h.tracks, h.honest, h.pending, hdelivered, fun seg' hseg' => (h.acks seg' hseg').mono hpos,
    h.base_le.trans hpos⟩

/-- The segments of the sender are moved to the outgoing queue, with acknowledgments. -/
theorem Link.updateOutput (h : Link x y) : Link { x with conn := x.conn.updateOutput } y where
  tracks := h.tracks.segmentsOut []
  honest := by
    intro seg hseg
    show x.outflow.Honest seg
    have hseg' : seg ∈ x.sent ++ (x.conn.segmentsOut ++
        x.conn.sender.segmentsOut.map (TCPConnection.withAck x.conn.receiver)) := hseg
    rw [← List.append_assoc, List.mem_append, List.mem_map] at hseg'
    rcases hseg' with hold | ⟨seg', hnew, rfl⟩
    · exact h.honest seg hold
    · exact (h.pending seg' hnew).1.withAck x.conn.receiver
  pending := fun _ hseg => absurd hseg List.not_mem_nil
  delivered := h.delivered
  acks := h.acks
  base_le := h.base_le

/-- The acknowledgments that are sent with them. -/
theorem Link.updateOutput_peer (h : Link x y)
    (hpending : ∀ seg ∈ y.conn.sender.segmentsOut, seg.header.ack = false) :
    Link x { y with conn := y.conn.updateOutput } where
  tracks := h.tracks
  honest := h.honest
  pending := h.pending
  delivered := h.delivered
  acks := by
    intro seg hseg
    show Outflow.AcksUpTo x.outflow.isn y.conn.receiver.ackPos seg
    have hseg' : seg ∈ y.sent ++ (y.conn.segmentsOut ++
        y.conn.sender.segmentsOut.map (TCPConnection.withAck y.conn.receiver)) := hseg
    rw [← List.append_assoc, List.mem_append, List.mem_map] at hseg'
    rcases hseg' with hold | ⟨seg', hnew, rfl⟩
    · exact h.acks seg hold
    · exact h.delivered.withAck (hpending seg' hnew)
  base_le := h.base_le

/-! ## Both directions -/

/-- The two directions between `x` and `y`. -/
structure Joined (x y : Endpoint) : Prop where
  out : Link x y
  back : Link y x

theorem Joined.symm (h : Joined x y) : Joined y x := ⟨h.back, h.out⟩

/-- A change of the sender concerns the peer only when its segments are moved on. -/
theorem Link.peer_sender (h : Link x y) (s : TCPSender) :
    Link x { y with conn := { y.conn with sender := s } } :=
  h.congr rfl rfl rfl rfl rfl rfl

theorem Joined.updateOutput (h : Joined x y) :
    Joined { x with conn := x.conn.updateOutput } y :=
  ⟨h.out.updateOutput, h.back.updateOutput_peer (fun seg hseg => (h.out.pending seg hseg).2)⟩

theorem Joined.uncleanShutdown (h : Joined x y) :
    Joined { x with conn := x.conn.uncleanShutdown } y :=
  ⟨⟨h.out.tracks.setError, h.out.honest, h.out.pending, h.out.delivered, h.out.acks,
      h.out.base_le⟩,
    ⟨h.back.tracks, h.back.honest, h.back.pending, h.back.delivered.setError, h.back.acks,
      h.back.base_le⟩⟩

theorem joined_stable (x y : Endpoint) :
    TCPConnection.Stable (fun c => Joined { x with conn := c } y) where
  flags := fun _ _ _ _ _ h =>
    ⟨h.out.congr rfl rfl rfl rfl rfl rfl, h.back.congr rfl rfl rfl rfl rfl rfl⟩
  fillWindow := fun _ h => ⟨h.out.fillWindow, h.back.peer_sender _⟩
  sendEmptySegment := fun _ h => ⟨h.out.sendEmptySegment, h.back.peer_sender _⟩
  updateOutput := fun _ h => h.updateOutput
  uncleanShutdown := fun _ h => h.uncleanShutdown

/-- The queue is replaced by one RST segment. -/
theorem Joined.sendRSTSeg (h : Joined x y) : Joined { x with conn := x.conn.sendRSTSeg } y := by
  -- a RST claims nothing about the stream, whatever its sequence number is
  have hrst : ∀ (seqno : WrappingInt32) (queue : List TCPSegment),
      (∀ seg ∈ queue, seg ∈ x.conn.segmentsOut) →
      Joined { x with conn := { x.conn with
        segmentsOut := queue
        sender := { x.conn.sender with
          segmentsOut := [{ header := { seqno := seqno, rst := true } }] } } } y := by
    intro seqno queue hqueue
    refine ⟨⟨h.out.tracks.segmentsOut _, ?_, ?_, h.out.delivered, h.out.acks, h.out.base_le⟩,
      ⟨h.back.tracks, h.back.honest, h.back.pending, h.back.delivered, ?_, h.back.base_le⟩⟩
    · intro seg hseg
      apply h.out.honest seg
      rw [List.mem_append] at hseg ⊢
      exact hseg.imp_right (hqueue seg)
    · intro seg hseg
      obtain rfl := List.mem_singleton.mp hseg
      exact ⟨Outflow.honest_empty _ rfl rfl rfl, rfl⟩
    · intro seg hseg
      apply h.back.acks seg
      rw [List.mem_append] at hseg ⊢
      exact hseg.imp_right (hqueue seg)
  unfold TCPConnection.sendRSTSeg
  split
  · exact (hrst _ [] (fun _ hseg => absurd hseg List.not_mem_nil)).updateOutput
  · exact (hrst _ x.conn.segmentsOut (fun _ hseg => hseg)).updateOutput

/-! ## Steps -/

theorem Joined.write (h : Joined x y) (data : Bytes) :
    Joined { x with
      conn := (x.conn.write data).1
      accepted := x.accepted ++ data.take (x.conn.write data).2 } y := by
  unfold TCPConnection.write
  split_ifs with hempty
  · simpa using h
  · have hwrite : Joined { x with
        conn := x.conn.onSender (fun s => (s.writeStream data).1)
        accepted := x.accepted ++ data.take (x.conn.sender.writeStream data).2 } y := by
      refine ⟨?_, h.back.congr rfl rfl rfl rfl rfl rfl⟩
      exact h.out.sender_quiet (h.out.tracks.write data) (h.out.tracks.outflow_write data) rfl
        h.out.base_le
    exact (joined_stable { x with
      accepted := x.accepted ++ data.take (x.conn.sender.writeStream data).2 } y).fill hwrite

theorem Joined.endInputStream (h : Joined x y) :
    Joined { x with conn := x.conn.endInputStream } y := by
  have hend : Joined { x with conn := x.conn.onSender TCPSender.endStream } y :=
    ⟨h.out.sender_quiet h.out.tracks.endStream rfl rfl h.out.base_le, h.back.peer_sender _⟩
  exact (joined_stable x y).fill hend

theorem Joined.tick (h : Joined x y) (junk : Nat → UInt8) {ms : Nat}
    (hfront : x.conn.active = true → x.conn.sender.timer.expires ms = true →
      x.conn.sender.FrontInside) :
    Joined { x with conn := x.conn.tick junk ms } y := by
  by_cases hactive : x.conn.active = true
  · refine TCPConnection.tick_rule (joined_stable x y) (fun c h' hsender => ?_)
      (fun c h' => h'.sendRSTSeg) h
    refine ⟨h'.out.tick junk ?_, h'.back.peer_sender _⟩
    show c.sender.timer.expires ms = true → c.sender.FrontInside
    rw [hsender]
    exact hfront hactive
  · have htick : x.conn.tick junk ms = x.conn := by
      unfold TCPConnection.tick
      rw [if_pos (by simpa using hactive)]
    rwa [htick]

theorem Joined.segmentReceived (h : Joined x y) (hx : x.accepted.length < 2 ^ 31)
    (hy : y.accepted.length < 2 ^ 31) {seg : TCPSegment} (hseg : seg ∈ y.sent) :
    Joined { x with conn := x.conn.segmentReceived seg } y := by
  refine TCPConnection.segmentReceived_rule (joined_stable x y) (fun h' => ?_)
    (fun htakes c h' _ => ?_) h
  · exact ⟨h'.out.congr rfl rfl rfl rfl rfl rfl, h'.back.receive hy hseg⟩
  · have hack := (TCPConnection.takesAck_iff.mp htakes).2.1
    exact ⟨h'.out.ackReceived hx hseg hack, h'.back.peer_sender _⟩

theorem Joined.readInbound (h : Joined x y) (len : Nat) :
    Joined { x with
      conn := (x.conn.readInbound len).2
      taken := x.taken ++ (x.conn.readInbound len).1 } y :=
  ⟨h.out.congr rfl rfl rfl rfl rfl rfl,
    ⟨h.back.tracks, h.back.honest, h.back.pending, h.back.delivered.readOutput len, h.back.acks,
      h.back.base_le⟩⟩

theorem Joined.popSegment (h : Joined x y) :
    Joined { x with
      conn := x.conn.popSegment.2
      sent := x.sent ++ x.conn.popSegment.1.toList } y := by
  have hsegs : (x.sent ++ x.conn.popSegment.1.toList) ++ x.conn.popSegment.2.segmentsOut
      = x.sent ++ x.conn.segmentsOut := by
    rw [List.append_assoc]
    cases hq : x.conn.segmentsOut <;> simp [TCPConnection.popSegment, hq]
  exact ⟨h.out.congr rfl rfl hsegs rfl rfl rfl, h.back.congr rfl rfl rfl rfl rfl hsegs⟩

/-- **A step of one endpoint keeps both directions.** -/
theorem Joined.step (h : Joined x y) (hx : x.accepted.length < 2 ^ 31)
    (hy : y.accepted.length < 2 ^ 31) (junk : Nat → UInt8) {op : EndpointOp}
    (hop : x.Retransmits op) : Joined (x.step junk y.sent op) y := by
  cases op with
  | connect => exact (joined_stable x y).fill h
  | write data => exact h.write data
  | endInputStream => exact h.endInputStream
  | tick ms => exact h.tick junk hop
  | readInbound len => exact h.readInbound len
  | popSegment => exact h.popSegment
  | deliver i =>
      show Joined (match y.sent[i]? with
        | some seg => { x with conn := x.conn.segmentReceived seg }
        | none => x) y
      split
      · rename_i seg hi
        exact h.segmentReceived hx hy (List.mem_of_getElem? hi)
      · exact h

end

end Sponge
