import Sponge.Basic.Run
import Sponge.Connection.Freed
import Sponge.Network.Link

set_option autoImplicit false

/-! # Delivery over an unreliable network

Two connections joined by a network that keeps every segment ever sent and may deliver any of
them at any time. In every run in which no timeout reads behind the queue of unacknowledged
bytes, and no reassembler uses what it has erased, each side receives a prefix of what the other
wrote (`run_inOrder`), and no side gives up what the other has not assembled
(`run_keepsUnassembled`). A timeout with a stale segment size breaks both, and so does a substring
of which the output takes only a part. -/

namespace Sponge

/-- The two ends of the network. -/
inductive Side where
  | a
  | b
  deriving DecidableEq, Repr

def Side.other : Side → Side
  | .a => .b
  | .b => .a

structure Network where
  a : Endpoint
  b : Endpoint

namespace Network

def get (n : Network) : Side → Endpoint
  | .a => n.a
  | .b => n.b

def set (n : Network) : Side → Endpoint → Network
  | .a, x => { n with a := x }
  | .b, x => { n with b := x }

def new (cfgA cfgB : TCPConfig) (isnA isnB : WrappingInt32) : Network :=
  { a := Endpoint.new cfgA isnA, b := Endpoint.new cfgB isnB }

def step (junk : Nat → UInt8) (n : Network) : Side × EndpointOp → Network
  | (.a, op) => { n with a := n.a.step junk n.b.sent op }
  | (.b, op) => { n with b := n.b.step junk n.a.sent op }

/-- What a step does is the same on both sides. -/
theorem step_eq (junk : Nat → UInt8) (n : Network) (side : Side) (op : EndpointOp) :
    n.step junk (side, op) =
      n.set side ((n.get side).step junk (n.get side.other).sent op) := by
  cases side <;> rfl

@[simp] theorem set_get (n : Network) (side : Side) : n.set side (n.get side) = n := by
  cases side <;> rfl

@[simp] theorem get_set (n : Network) (side : Side) (x : Endpoint) : (n.set side x).get side = x := by
  cases side <;> rfl

@[simp] theorem get_set_other (n : Network) (side : Side) (x : Endpoint) :
    (n.set side x).get side.other = n.get side.other := by
  cases side <;> rfl

@[simp] theorem set_set (n : Network) (side : Side) (x x' : Endpoint) :
    (n.set side x).set side x' = n.set side x' := by
  cases side <;> rfl

/-- The run of two fresh connections. -/
def after (junk : Nat → UInt8) (cfgA cfgB : TCPConfig) (isnA isnB : WrappingInt32)
    (ops : List (Side × EndpointOp)) : Network :=
  Run.run (step junk) (new cfgA cfgB isnA isnB) ops

def Retransmits (n : Network) : Side × EndpointOp → Prop
  | (.a, op) => n.a.Retransmits op
  | (.b, op) => n.b.Retransmits op

instance (n : Network) : ∀ op, Decidable (n.Retransmits op)
  | (.a, op) => inferInstanceAs (Decidable (n.a.Retransmits op))
  | (.b, op) => inferInstanceAs (Decidable (n.b.Retransmits op))

theorem retransmits_iff (n : Network) (side : Side) (op : EndpointOp) :
    n.Retransmits (side, op) ↔ (n.get side).Retransmits op := by
  cases side <;> exact Iff.rfl

/-- The steps of one side of the network. -/
theorem run_side (junk : Nat → UInt8) (side : Side) (n : Network) (ops : List EndpointOp) :
    Run.run (step junk) n (ops.map (Prod.mk side)) =
        n.set side (Run.run (Endpoint.step junk (n.get side.other).sent) (n.get side) ops) ∧
      (Run.Admits (step junk) Retransmits n (ops.map (Prod.mk side)) ↔
        Run.Admits (Endpoint.step junk (n.get side.other).sent) Endpoint.Retransmits (n.get side)
          ops) := by
  induction ops generalizing n with
  | nil => simp [Run.Admits]
  | cons op ops ih =>
      obtain ⟨hrun, hadmits⟩ := ih (n.step junk (side, op))
      simp only [step_eq, get_set, get_set_other, set_set] at hrun hadmits
      constructor
      · simpa only [List.map_cons, Run.run_cons, step_eq] using hrun
      · simpa only [List.map_cons, Run.Admits, step_eq, retransmits_iff]
          using and_congr_right fun _ => hadmits

/-- Each side has written fewer than `2 ^ 31` bytes. -/
def Short (n : Network) : Prop :=
  n.a.accepted.length < 2 ^ 31 ∧ n.b.accepted.length < 2 ^ 31

instance (n : Network) : Decidable n.Short := inferInstanceAs (Decidable (_ ∧ _))

/-! ## The invariant of a run -/

theorem accepted_le (junk : Nat → UInt8) (segs : List TCPSegment) (x : Endpoint)
    (op : EndpointOp) : x.accepted.length ≤ (x.step junk segs op).accepted.length := by
  cases op with
  | write data =>
      show x.accepted.length ≤ (x.accepted ++ data.take (x.conn.write data).2).length
      rw [List.length_append]
      exact Nat.le_add_right _ _
  | deliver i =>
      simp only [Endpoint.step]
      split <;> exact le_rfl
  | connect => exact le_rfl
  | endInputStream => exact le_rfl
  | tick ms => exact le_rfl
  | readInbound len => exact le_rfl
  | popSegment => exact le_rfl

/-- What was short after a step was short before it. -/
theorem Short.of_step {junk : Nat → UInt8} {n : Network} {op : Side × EndpointOp}
    (h : (n.step junk op).Short) : n.Short := by
  obtain ⟨side, op⟩ := op
  cases side with
  | a => exact ⟨lt_of_le_of_lt (accepted_le junk n.b.sent n.a op) h.1, h.2⟩
  | b => exact ⟨h.1, lt_of_le_of_lt (accepted_le junk n.a.sent n.b op) h.2⟩

theorem joined_step {junk : Nat → UInt8} {n : Network} {op : Side × EndpointOp}
    (h : Joined n.a n.b) (hshort : n.Short) (hop : n.Retransmits op) :
    Joined (n.step junk op).a (n.step junk op).b := by
  obtain ⟨side, op⟩ := op
  cases side with
  | a => exact h.step hshort.1 hshort.2 junk hop
  | b => exact (h.symm.step hshort.2 hshort.1 junk hop).symm

section

variable (junk : Nat → UInt8) (cfgA cfgB : TCPConfig) (isnA isnB : WrappingInt32)
  (ops : List (Side × EndpointOp))

theorem after_joined
    (hok : Run.Admits (step junk) Retransmits (new cfgA cfgB isnA isnB) ops)
    (hshort : (after junk cfgA cfgB isnA isnB ops).Short) :
    Joined (after junk cfgA cfgB isnA isnB ops).a (after junk cfgA cfgB isnA isnB ops).b :=
  -- the bound on the written bytes is the one at the end of the run
  Run.run_invariant (I := fun n : Network => n.Short → Joined n.a n.b)
    (fun _ _ h hop hshort => joined_step (h hshort.of_step) hshort.of_step hop)
    (fun _ => ⟨link_new cfgA cfgB isnA isnB, link_new cfgB cfgA isnB isnA⟩) hok hshort

end

/-! ## What the two sides can rely on -/

/-- `y` receives what `x` wrote, in order, and sees the end only after all of it. -/
structure InOrder (x y : Endpoint) : Prop where
  received : y.taken ++ y.conn.receiver.streamOut.buf <+: x.accepted
  ended : y.conn.receiver.streamOut.inputEnded = true →
    x.conn.sender.stream.inputEnded = true ∧
      y.taken ++ y.conn.receiver.streamOut.buf = x.accepted

/-- `x` keeps what `y` has not assembled, and considers its stream delivered only when it is. -/
structure KeepsUnassembled (x y : Endpoint) : Prop where
  base_le : x.conn.sender.unAckQueue.baseSqn ≤ y.conn.receiver.ackPos
  stored : (x.accepted.take x.conn.sender.stream.numBytesRead).drop
      y.conn.receiver.streamOut.bytesWritten <:+ x.conn.sender.unAckQueue.unAcked
  finAcked : x.conn.sender.finAcked = true →
    y.conn.receiver.streamOut.inputEnded = true ∧
      y.taken ++ y.conn.receiver.streamOut.buf = x.accepted

section

variable {x y : Endpoint}

/-- At the end of its inbound stream `y` has everything. -/
theorem link_ended (h : Link x y) (hend : y.conn.receiver.streamOut.inputEnded = true) :
    x.conn.sender.stream.inputEnded = true ∧
      y.taken ++ y.conn.receiver.streamOut.buf = x.accepted := by
  obtain ⟨hfin, hwritten⟩ := h.delivered.ended hend
  obtain ⟨hended, hbytes⟩ := h.tracks.outflow_of_fin hfin
  refine ⟨hended, ?_⟩
  calc y.taken ++ y.conn.receiver.streamOut.buf
      = x.outflow.bytes.take y.conn.receiver.streamOut.bytesWritten := h.delivered.taken_append
    _ = x.outflow.bytes := by rw [hwritten, List.take_length]
    _ = x.accepted := hbytes

theorem link_inOrder (h : Link x y) : InOrder x y := by
  refine ⟨?_, link_ended h⟩
  rw [h.delivered.taken_append]
  exact (List.take_prefix _ _).trans (List.take_prefix _ _)

/-- When the FIN is acknowledged, the peer has it. -/
theorem link_finAcked (h : Link x y) (hfin : x.conn.sender.finAcked = true) :
    y.conn.receiver.streamOut.inputEnded = true := by
  obtain ⟨hsent, hbase⟩ := h.tracks.finAcked_iff.mp hfin
  have hsyn : x.conn.sender.unAckQueue.synAcked = true := by
    by_contra hsyn
    have hno := (h.tracks.opening (by simpa using hsyn)).2.2
    exact Bool.false_ne_true (hno.symm.trans hsent)
  have hnext := h.tracks.next_of_syn (h.tracks.synced hsyn).2
  rw [if_pos hsent] at hnext
  have hlen : x.outflow.bytes.length = x.conn.sender.stream.numBytesRead :=
    h.tracks.outflow_length
  have hle := h.base_le
  have hwritten := h.delivered.written_le
  by_contra hend
  unfold TCPReceiver.ackPos at hle
  rw [if_neg hend] at hle
  split_ifs at hle <;> omega

theorem link_stored (h : Link x y) :
    (x.accepted.take x.conn.sender.stream.numBytesRead).drop
      y.conn.receiver.streamOut.bytesWritten <:+ x.conn.sender.unAckQueue.unAcked := by
  rw [h.tracks.unAcked_eq]
  by_cases hpos : x.conn.sender.unAckQueue.baseSqn - 1 ≤ y.conn.receiver.streamOut.bytesWritten
  · obtain ⟨k, hk⟩ := Nat.exists_eq_add_of_le hpos
    rw [hk, ← List.drop_drop]
    exact List.drop_suffix _ _
  · -- only the FIN lies between the base and the assembled bytes
    have hle := h.base_le
    have hend : y.conn.receiver.streamOut.inputEnded = true := by
      by_contra hend
      unfold TCPReceiver.ackPos at hle
      rw [if_neg hend] at hle
      split_ifs at hle <;> omega
    have hall : y.conn.receiver.streamOut.bytesWritten
        = (x.accepted.take x.conn.sender.stream.numBytesRead).length := (h.delivered.ended hend).2
    rw [List.drop_eq_nil_of_le hall.ge]
    exact List.nil_suffix

theorem link_keepsUnassembled (h : Link x y) : KeepsUnassembled x y where
  base_le := h.base_le
  stored := link_stored h
  finAcked := fun hfin => ⟨link_finAcked h hfin, (link_ended h (link_finAcked h hfin)).2⟩

end

/-! ## Whatever an erased element reads -/

end Network

namespace Endpoint

/-- A segment that is delivered makes the reassembler write stored substrings as a whole only. -/
def Unbroken (peerSent : List TCPSegment) (x : Endpoint) : EndpointOp → Prop
  | .deliver i => ∀ seg ∈ peerSent[i]?, x.conn.Unbroken seg
  | _ => True

instance decidableUnbroken (peerSent : List TCPSegment) (x : Endpoint) :
    ∀ op, Decidable (x.Unbroken peerSent op)
  | .deliver i => inferInstanceAs (Decidable (∀ seg ∈ peerSent[i]?, x.conn.Unbroken seg))
  | .connect | .write _ | .endInputStream | .tick _ | .readInbound _ | .popSegment =>
      .isTrue trivial

/-- A step of an endpoint whose reassembler reads `freed` of an erased element. -/
def Freed.step (freed : Nat × Bytes → Nat × Bytes) (junk : Nat → UInt8)
    (peerSent : List TCPSegment) (x : Endpoint) : EndpointOp → Endpoint
  | .deliver i =>
      match peerSent[i]? with
      | some seg => { x with conn := TCPConnection.Freed.segmentReceived freed x.conn seg }
      | none => x
  | op => x.step junk peerSent op

theorem Freed.accepted_eq (freed : Nat × Bytes → Nat × Bytes) (junk : Nat → UInt8)
    (peerSent : List TCPSegment) (x : Endpoint) (op : EndpointOp) :
    (Freed.step freed junk peerSent x op).accepted = (x.step junk peerSent op).accepted := by
  cases op with
  | deliver i =>
      simp only [Freed.step, Endpoint.step]
      cases peerSent[i]? <;> rfl
  | connect | write _ | endInputStream | tick _ | readInbound _ | popSegment => rfl

end Endpoint

/-- What the peer has sent ends in range, wherever it is pushed. -/
theorem Link.freed_receive {x y : Endpoint} (h : Link x y) (hlen : x.accepted.length < 2 ^ 31)
    (freed : Nat × Bytes → Nat × Bytes) {seg : TCPSegment} (hseg : seg ∈ x.sent)
    (hwhole : y.conn.receiver.Unbroken seg) :
    TCPReceiver.Freed.segmentReceived freed y.conn.receiver seg
      = y.conn.receiver.segmentReceived seg := by
  have hlen' : x.outflow.bytes.length < 2 ^ 31 :=
    lt_of_le_of_lt (List.length_take_le' _ _) hlen
  have hhonest := h.honest seg (List.mem_append_left _ hseg)
  apply TCPReceiver.Freed.segmentReceived_eq freed h.delivered.assembles.wf hwhole
  · intro hsyn
    simp [(hhonest.opening hsyn).2.1]
  · intro hsyn hrecv hpayload
    rcases hhonest.slice hsyn with ⟨hnil, -⟩ | ⟨pos, hseqno, -, hle, -⟩
    · exact absurd hnil hpayload
    · rw [h.delivered.index_eq hrecv hlen' hseqno (by omega)]
      omega

theorem Link.freed_segmentReceived {x y : Endpoint} (h : Link x y)
    (hlen : x.accepted.length < 2 ^ 31) (freed : Nat × Bytes → Nat × Bytes) {seg : TCPSegment}
    (hseg : seg ∈ x.sent) (hwhole : y.conn.Unbroken seg) :
    TCPConnection.Freed.segmentReceived freed y.conn seg = y.conn.segmentReceived seg :=
  TCPConnection.Freed.segmentReceived_eq fun hgives =>
    h.freed_receive hlen freed hseg (hwhole hgives)

theorem Joined.freed_step {x y : Endpoint} (h : Joined x y) (hy : y.accepted.length < 2 ^ 31)
    (freed : Nat × Bytes → Nat × Bytes) (junk : Nat → UInt8) {op : EndpointOp}
    (hop : x.Unbroken y.sent op) :
    Endpoint.Freed.step freed junk y.sent x op = x.step junk y.sent op := by
  cases op with
  | deliver i =>
      simp only [Endpoint.Freed.step, Endpoint.step]
      cases hi : y.sent[i]? with
      | none => rfl
      | some seg =>
          have hreceived := h.back.freed_segmentReceived hy freed (List.mem_of_getElem? hi)
            (hop seg hi)
          simp only [hreceived]
  | connect | write _ | endInputStream | tick _ | readInbound _ | popSegment => rfl

namespace Network

def Unbroken (n : Network) : Side × EndpointOp → Prop
  | (.a, op) => n.a.Unbroken n.b.sent op
  | (.b, op) => n.b.Unbroken n.a.sent op

/-- A timeout reads inside the queue of unacknowledged bytes, and a segment that arrives makes the
reassembler write stored substrings as a whole only. -/
def Conforms (n : Network) (op : Side × EndpointOp) : Prop := n.Retransmits op ∧ n.Unbroken op

instance (n : Network) : ∀ op, Decidable (n.Unbroken op)
  | (.a, op) => inferInstanceAs (Decidable (n.a.Unbroken n.b.sent op))
  | (.b, op) => inferInstanceAs (Decidable (n.b.Unbroken n.a.sent op))

instance (n : Network) (op : Side × EndpointOp) : Decidable (n.Conforms op) :=
  inferInstanceAs (Decidable (_ ∧ _))

namespace Freed

def step (freed : Nat × Bytes → Nat × Bytes) (junk : Nat → UInt8) (n : Network) :
    Side × EndpointOp → Network
  | (.a, op) => { n with a := Endpoint.Freed.step freed junk n.b.sent n.a op }
  | (.b, op) => { n with b := Endpoint.Freed.step freed junk n.a.sent n.b op }

/-- The run of two fresh connections whose reassemblers read `freed` of an erased element. -/
def after (freed : Nat × Bytes → Nat × Bytes) (junk : Nat → UInt8) (cfgA cfgB : TCPConfig)
    (isnA isnB : WrappingInt32) (ops : List (Side × EndpointOp)) : Network :=
  Run.run (step freed junk) (new cfgA cfgB isnA isnB) ops

theorem short_iff {freed : Nat × Bytes → Nat × Bytes} {junk : Nat → UInt8} {n : Network}
    {op : Side × EndpointOp} : (step freed junk n op).Short ↔ (n.step junk op).Short := by
  obtain ⟨side, op⟩ := op
  cases side <;> simp [step, Network.step, Short, Endpoint.Freed.accepted_eq]

theorem step_eq {freed : Nat × Bytes → Nat × Bytes} {junk : Nat → UInt8} {n : Network}
    {op : Side × EndpointOp} (h : Joined n.a n.b) (hshort : n.Short) (hop : n.Unbroken op) :
    step freed junk n op = n.step junk op := by
  obtain ⟨side, op⟩ := op
  cases side with
  | a => exact congrArg (fun a => { n with a }) (h.freed_step hshort.2 freed junk hop)
  | b => exact congrArg (fun b => { n with b }) (h.symm.freed_step hshort.1 freed junk hop)

section

variable (freed : Nat × Bytes → Nat × Bytes) (junk : Nat → UInt8) (cfgA cfgB : TCPConfig)
  (isnA isnB : WrappingInt32) (ops : List (Side × EndpointOp))

theorem after_joined
    (hok : Run.Admits (step freed junk) Conforms (new cfgA cfgB isnA isnB) ops)
    (hshort : (after freed junk cfgA cfgB isnA isnB ops).Short) :
    Joined (after freed junk cfgA cfgB isnA isnB ops).a
      (after freed junk cfgA cfgB isnA isnB ops).b := by
  refine Run.run_invariant (I := fun n : Network => n.Short → Joined n.a n.b)
    (fun n op h hop hshort => ?_)
    (fun _ => ⟨link_new cfgA cfgB isnA isnB, link_new cfgB cfgA isnB isnA⟩) hok hshort
  have hbefore : n.Short := (short_iff.mp hshort).of_step
  rw [step_eq (h hbefore) hbefore hop.2]
  exact joined_step (h hbefore) hbefore hop.1

end

end Freed

section

variable (freed : Nat × Bytes → Nat × Bytes) (junk : Nat → UInt8) (cfgA cfgB : TCPConfig)
  (isnA isnB : WrappingInt32) (ops : List (Side × EndpointOp))

/-- **Each side receives a prefix of what the other wrote**, whatever the network does, whatever is
read behind the queue of unacknowledged bytes and of an erased element, in every run whose timeouts
read inside the queue and whose segments make the reassemblers write substrings as a whole only. -/
theorem run_inOrder
    (hok : Run.Admits (Freed.step freed junk) Conforms (new cfgA cfgB isnA isnB) ops)
    (hshort : (Freed.after freed junk cfgA cfgB isnA isnB ops).Short) :
    let n := Freed.after freed junk cfgA cfgB isnA isnB ops
    InOrder n.a n.b ∧ InOrder n.b n.a := by
  have hjoined := Freed.after_joined freed junk cfgA cfgB isnA isnB ops hok hshort
  exact ⟨link_inOrder hjoined.out, link_inOrder hjoined.back⟩

/-- **No side gives up what the other has not assembled**, in the same runs. -/
theorem run_keepsUnassembled
    (hok : Run.Admits (Freed.step freed junk) Conforms (new cfgA cfgB isnA isnB) ops)
    (hshort : (Freed.after freed junk cfgA cfgB isnA isnB ops).Short) :
    let n := Freed.after freed junk cfgA cfgB isnA isnB ops
    KeepsUnassembled n.a n.b ∧ KeepsUnassembled n.b n.a := by
  have hjoined := Freed.after_joined freed junk cfgA cfgB isnA isnB ops hok hshort
  exact ⟨link_keepsUnassembled hjoined.out, link_keepsUnassembled hjoined.back⟩

end

/-! ## Runs -/

/-- The handshake and two bytes that are lost, repeated by a timeout, read and acknowledged,
and the end of the stream. -/
def lostSegment : List (Side × EndpointOp) :=
  [(.a, .connect), (.a, .popSegment), (.b, .deliver 0), (.b, .popSegment),
    (.a, .deliver 0), (.a, .popSegment), (.b, .deliver 1),
    (.a, .write [97, 98]), (.a, .popSegment), (.a, .tick 1000), (.a, .popSegment),
    (.b, .deliver 3), (.b, .popSegment), (.b, .readInbound 1), (.a, .deliver 1),
    (.a, .endInputStream), (.a, .popSegment), (.b, .deliver 4), (.b, .popSegment),
    (.a, .deliver 2)]

theorem lostSegment_inOrder :
    let n := Freed.after (fun _ => (0, [])) (fun _ => 0) {} {} ⟨0⟩ ⟨0⟩ lostSegment
    n.b.conn.receiver.streamOut.inputEnded = true ∧ InOrder n.a n.b ∧ InOrder n.b n.a :=
  ⟨by decide +kernel,
    run_inOrder (fun _ => (0, [])) (fun _ => 0) {} {} ⟨0⟩ ⟨0⟩ lostSegment (by decide +kernel)
      (by decide +kernel)⟩

theorem lostSegment_keepsUnassembled :
    let n := Freed.after (fun _ => (0, [])) (fun _ => 0) {} {} ⟨0⟩ ⟨0⟩ lostSegment
    n.a.conn.sender.finAcked = true ∧ KeepsUnassembled n.a n.b ∧ KeepsUnassembled n.b n.a :=
  ⟨by decide +kernel,
    run_keepsUnassembled (fun _ => (0, [])) (fun _ => 0) {} {} ⟨0⟩ ⟨0⟩ lostSegment
      (by decide +kernel) (by decide +kernel)⟩

/-- What an erased element reads where a string of up to 15 bytes lies in the element itself, and
the first 16 bytes of a longer one are overwritten when it is freed. -/
def overwritten : Nat × Bytes → Nat × Bytes
  | (k, d) => (k, if d.length ≤ 15 then d else List.replicate 16 0 ++ d.drop 16)

/-- The receiver has room for four bytes. An old segment that offers this room again is
delivered late, the second of two segments is accepted in part, and the timeout sends the last
byte with the size of the first segment. -/
def staleSize : List (Side × EndpointOp) :=
  [(.a, .connect), (.a, .popSegment), (.b, .deliver 0), (.b, .popSegment),
    (.a, .deliver 0), (.a, .popSegment), (.b, .deliver 1),
    (.b, .write [122]), (.b, .popSegment),
    (.a, .write [97]), (.a, .popSegment), (.b, .deliver 2), (.b, .popSegment),
    (.a, .deliver 2), (.a, .deliver 1), (.a, .popSegment),
    (.a, .write [98, 99]), (.a, .popSegment), (.a, .write [100, 101]), (.a, .popSegment),
    (.b, .deliver 4), (.b, .popSegment), (.b, .deliver 5), (.b, .popSegment),
    (.a, .deliver 4), (.a, .tick 1000), (.a, .popSegment),
    (.b, .readInbound 4), (.b, .deliver 4), (.b, .popSegment), (.a, .deliver 5),
    (.a, .endInputStream), (.a, .popSegment),
    (.b, .deliver 6), (.b, .popSegment), (.a, .deliver 6)]

/-- The receiver has room for thirty bytes, and five of them are left when an old segment offers the
whole room again. A segment of thirty bytes is accepted in part, and the rest is put back from the
element that was erased. No time passes. -/
def freedRest : List (Side × EndpointOp) :=
  [(.a, .connect), (.a, .popSegment), (.b, .deliver 0), (.b, .popSegment),
    (.a, .deliver 0), (.a, .popSegment), (.b, .deliver 1),
    (.b, .write [122]), (.b, .popSegment),
    (.a, .write (List.replicate 25 97)), (.a, .popSegment), (.b, .deliver 2), (.b, .popSegment),
    (.a, .deliver 2), (.a, .deliver 1), (.a, .popSegment),
    (.a, .write (List.replicate 30 98)), (.a, .popSegment), (.b, .deliver 4), (.b, .popSegment),
    (.a, .deliver 3), (.a, .deliver 1), (.a, .popSegment), (.b, .readInbound 30),
    (.a, .write [99]), (.a, .popSegment), (.b, .deliver 6), (.b, .popSegment),
    (.a, .endInputStream), (.a, .popSegment), (.b, .deliver 7), (.b, .popSegment), (.a, .deliver 5)]

/-- Five bytes are written and six arrive; and of 56 bytes eleven arrive as zeros. -/
theorem staleSize_not_inOrder :
    let n := Freed.after overwritten (fun _ => 0) {} { recvCapacity := 4 } ⟨0⟩ ⟨0⟩ staleSize
    let n' := Freed.after overwritten (fun _ => 0) {} { recvCapacity := 30 } ⟨0⟩ ⟨0⟩ freedRest
    (n.Short ∧ ¬InOrder n.a n.b) ∧ n'.Short ∧ ¬InOrder n'.a n'.b := by
  refine ⟨⟨by decide +kernel, ?_⟩, by decide +kernel, ?_⟩
  · intro h
    exact absurd h.received (by decide +kernel)
  · intro h
    exact absurd h.received (by decide +kernel)

/-- The acknowledgment of the sixth byte is taken for that of the FIN; and the FIN is acknowledged
behind bytes that were not written. -/
theorem staleSize_not_keepsUnassembled :
    let n := Freed.after overwritten (fun _ => 0) {} { recvCapacity := 4 } ⟨0⟩ ⟨0⟩ staleSize
    let n' := Freed.after overwritten (fun _ => 0) {} { recvCapacity := 30 } ⟨0⟩ ⟨0⟩ freedRest
    (n.Short ∧ ¬KeepsUnassembled n.a n.b) ∧ n'.Short ∧ ¬KeepsUnassembled n'.a n'.b := by
  refine ⟨⟨by decide +kernel, ?_⟩, by decide +kernel, ?_⟩
  · intro h
    exact absurd (h.finAcked (by decide +kernel)).1 (by decide +kernel)
  · intro h
    exact absurd (h.finAcked (by decide +kernel)).2 (by decide +kernel)

end Network

end Sponge
