import Sponge.Basic.Run
import Sponge.Connection.Official
import Sponge.Connection.Plain
import Sponge.Network.Link
import Sponge.Receiver.Machine

set_option autoImplicit false

/-! # The calls of an endpoint

What the owner of a connection sees of it is the connection and the records of an `Endpoint`. Every
run of calls keeps them `Coherent`, whatever segments are received; and if these come from the peer,
the calls are steps of an endpoint in a network (`Reaches.exists_steps`). -/

namespace Sponge

open Run

namespace Endpoint

/-- A call of the connection, with the records of its owner. -/
def call (junk : Nat → UInt8) (x : Endpoint) : ConnectionOp → Endpoint
  | .connect => { x with conn := x.conn.connect }
  | .write data =>
      { x with
        conn := (x.conn.write data).1
        accepted := x.accepted ++ data.take (x.conn.write data).2 }
  | .endInputStream => { x with conn := x.conn.endInputStream }
  | .tick ms => { x with conn := x.conn.tick junk ms.toNat }
  | .segmentReceived seg => { x with conn := x.conn.segmentReceived seg }
  | .readInbound len =>
      { x with
        conn := (x.conn.readInbound len).2
        taken := x.taken ++ (x.conn.readInbound len).1 }
  | .popSegment =>
      { x with
        conn := x.conn.popSegment.2
        sent := x.sent ++ x.conn.popSegment.1.toList }

theorem call_conn (junk : Nat → UInt8) (x : Endpoint) (op : ConnectionOp) :
    (x.call junk op).conn = x.conn.step junk op := by
  cases op <;> rfl

/-! ## Coherence -/

/-- The inbound stream has carried what was read from it. -/
def Received (r : TCPReceiver) (taken : Bytes) : Prop :=
  ∃ data, r.Counted data ∧ taken = data.take r.streamOut.numBytesRead

/-- The records agree with the connection, and nothing is too large for a datagram. -/
structure Coherent (x : Endpoint) : Prop where
  sender : x.conn.sender.Sound x.accepted
  receiver : Received x.conn.receiver x.taken
  plain : x.conn.PlainOut
  sent : ∀ seg ∈ x.sent, seg.Plain

theorem coherent_new (cfg : TCPConfig) (isn : WrappingInt32) : (new cfg isn).Coherent where
  sender := TCPSender.sound_new _ _ _
  receiver := ⟨[], TCPReceiver.counted_new _, rfl⟩
  plain := TCPConnection.plainOut_new cfg isn
  sent := fun _ h => absurd h List.not_mem_nil

theorem Received.segmentReceived {r : TCPReceiver} {taken : Bytes} (h : Received r taken)
    (seg : TCPSegment) : Received (r.segmentReceived seg) taken := by
  obtain ⟨data, hcounted, htaken⟩ := h
  obtain ⟨w, hgrows, hcounted'⟩ := hcounted.segmentReceived seg
  refine ⟨data ++ w, hcounted', ?_⟩
  rw [hgrows.read, List.take_append_of_le_length hcounted.out.read_le]
  exact htaken

theorem Received.setError {r : TCPReceiver} {taken : Bytes} (h : Received r taken) :
    Received r.setError taken := by
  obtain ⟨data, hc, htaken⟩ := h
  exact ⟨data, ⟨hc.out.setError, hc.exIdx_eq, hc.out_capacity, hc.capacity_eq, hc.noted,
    hc.ackno_eq⟩, htaken⟩

theorem Received.readOutput {r : TCPReceiver} {taken : Bytes} (h : Received r taken) (len : Nat) :
    Received (r.readOutput len).2 (taken ++ (r.readOutput len).1) := by
  obtain ⟨data, hc, htaken⟩ := h
  refine ⟨data, hc.popOutput len, ?_⟩
  rw [htaken]
  exact (hc.out.take_read len).symm

/-- What was read and what is buffered is everything that was assembled. -/
theorem Received.taken_append {r : TCPReceiver} {taken : Bytes} (h : Received r taken) :
    ∃ data, r.streamOut.Carries data ∧ taken ++ r.streamOut.buf = data := by
  obtain ⟨data, hc, htaken⟩ := h
  refine ⟨data, hc.out, ?_⟩
  rw [htaken]
  exact hc.out.take_append_buf

section

variable {x : Endpoint}

theorem stable_coherent (accepted taken : Bytes) : TCPConnection.Stable fun c =>
    c.sender.Sound accepted ∧ Received c.receiver taken where
  flags := fun _ _ _ _ _ h => h
  fillWindow := fun _ h => ⟨h.1.fillWindow, h.2⟩
  sendEmptySegment := fun _ h => ⟨h.1.segmentsOut _, h.2⟩
  updateOutput := fun _ h => ⟨h.1.segmentsOut _, h.2⟩
  uncleanShutdown := fun _ h => ⟨h.1.setError, h.2.setError⟩

/-- **The records stay coherent**, whatever arrives. -/
theorem Coherent.call (h : x.Coherent) (junk : Nat → UInt8) (op : ConnectionOp) :
    (x.call junk op).Coherent := by
  have hst := stable_coherent x.accepted x.taken
  have hplain : (x.call junk op).conn.PlainOut := by
    rw [call_conn]
    exact h.plain.step junk op
  cases op with
  | connect =>
      obtain ⟨hs, hr⟩ := hst.fill (c := x.conn) ⟨h.sender, h.receiver⟩
      exact ⟨hs, hr, hplain, h.sent⟩
  | write data =>
      have hwrite : (x.conn.write data).1.sender.Sound
            (x.accepted ++ data.take (x.conn.write data).2) ∧
          Received (x.conn.write data).1.receiver x.taken := by
        unfold TCPConnection.write
        split_ifs
        · rw [List.take_zero, List.append_nil]
          exact ⟨h.sender, h.receiver⟩
        · exact (stable_coherent _ x.taken).fill
            (c := x.conn.onSender fun s => (s.writeStream data).1)
            ⟨h.sender.write data, h.receiver⟩
      exact ⟨hwrite.1, hwrite.2, hplain, h.sent⟩
  | endInputStream =>
      obtain ⟨hs, hr⟩ := hst.fill (c := x.conn.onSender TCPSender.endStream)
        ⟨h.sender.endStream, h.receiver⟩
      exact ⟨hs, hr, hplain, h.sent⟩
  | tick ms =>
      obtain ⟨hs, hr⟩ : (x.conn.tick junk ms.toNat).sender.Sound x.accepted ∧
          Received (x.conn.tick junk ms.toNat).receiver x.taken := by
        refine TCPConnection.tick_rule hst (fun c h' _ => ⟨h'.1.tick junk _, h'.2⟩)
          (fun c h' => ?_) ⟨h.sender, h.receiver⟩
        rw [TCPConnection.sendRSTSeg_sender, TCPConnection.sendRSTSeg_receiver]
        exact ⟨h'.1.segmentsOut _, h'.2⟩
      exact ⟨hs, hr, hplain, h.sent⟩
  | segmentReceived seg =>
      obtain ⟨hs, hr⟩ : (x.conn.segmentReceived seg).sender.Sound x.accepted ∧
          Received (x.conn.segmentReceived seg).receiver x.taken :=
        TCPConnection.segmentReceived_rule hst (fun h' => ⟨h'.1, h'.2.segmentReceived seg⟩)
          (fun _ c h' _ => ⟨h'.1.ackReceived _ _, h'.2⟩) ⟨h.sender, h.receiver⟩
      exact ⟨hs, hr, hplain, h.sent⟩
  | readInbound len => exact ⟨h.sender, h.receiver.readOutput len, hplain, h.sent⟩
  | popSegment =>
      refine ⟨h.sender, h.receiver, hplain, ?_⟩
      intro seg hseg
      have hseg' : seg ∈ x.sent ++ x.conn.segmentsOut.head?.toList := hseg
      rw [List.mem_append, Option.mem_toList] at hseg'
      rcases hseg' with hold | hnew
      · exact h.sent seg hold
      · exact h.plain.queue seg (List.mem_of_mem_head? hnew)

/-! ## The ends of the streams -/

theorem stable_inputEnd (ended : Bool) : TCPConnection.Stable fun c =>
    (∃ data, c.sender.Sound data) ∧ c.sender.stream.isInputEnd = ended where
  flags := fun _ _ _ _ _ h => h
  fillWindow := by
    rintro c ⟨⟨data, hs⟩, hended⟩
    obtain ⟨hs', hended'⟩ := TCPSender.fillWindow_rule
      (P := fun s => s.Sound data ∧ s.stream.isInputEnd = ended)
      (fun _ h => ⟨data, h.1.carries⟩) (fun s s' seg h hsends => by
        refine ⟨h.1.sends hsends, ?_⟩
        rw [hsends.stream_eq]
        exact h.2) ⟨hs, hended⟩
    exact ⟨⟨data, hs'⟩, hended'⟩
  sendEmptySegment := fun _ ⟨⟨data, hs⟩, hended⟩ => ⟨⟨data, hs.segmentsOut _⟩, hended⟩
  updateOutput := fun _ ⟨⟨data, hs⟩, hended⟩ => ⟨⟨data, hs.segmentsOut _⟩, hended⟩
  uncleanShutdown := fun _ ⟨⟨data, hs⟩, hended⟩ => ⟨⟨data, hs.setError⟩, hended⟩

/-- Nothing but the call for it ends the outbound stream. -/
theorem Coherent.call_inputEnd (h : x.Coherent) (junk : Nat → UInt8) (op : ConnectionOp)
    (hop : op ≠ .endInputStream) :
    (x.call junk op).conn.sender.stream.isInputEnd = x.conn.sender.stream.isInputEnd := by
  have hst := stable_inputEnd x.conn.sender.stream.isInputEnd
  have hx : (∃ data, x.conn.sender.Sound data) ∧ x.conn.sender.stream.isInputEnd
      = x.conn.sender.stream.isInputEnd := ⟨⟨_, h.sender⟩, rfl⟩
  cases op with
  | connect => exact (hst.fill hx).2
  | write data =>
      show (x.conn.write data).1.sender.stream.isInputEnd = _
      unfold TCPConnection.write
      split_ifs
      · rfl
      · exact (hst.fill (c := x.conn.onSender fun s => (s.writeStream data).1)
          ⟨⟨_, h.sender.write data⟩, ByteStream.write_isInputEnd _ _⟩).2
  | endInputStream => exact absurd rfl hop
  | tick ms =>
      refine (TCPConnection.tick_rule hst (fun c ⟨⟨data, hs⟩, hended⟩ _ => ?_)
        (fun c h' => ?_) hx).2
      · refine ⟨⟨data, hs.tick junk _⟩, ?_⟩
        show (c.sender.tick junk ms.toNat).stream.isInputEnd = _
        rw [TCPConnection.tick_stream]
        exact hended
      · obtain ⟨⟨data, hs⟩, hended⟩ := h'
        rw [TCPConnection.sendRSTSeg_sender]
        exact ⟨⟨data, hs.segmentsOut _⟩, hended⟩
  | segmentReceived seg =>
      refine (TCPConnection.segmentReceived_rule hst (fun h' => h') (fun _ c h' _ => ?_) hx).2
      obtain ⟨⟨data, hs⟩, hended⟩ := h'
      refine ⟨⟨data, hs.ackReceived _ _⟩, ?_⟩
      show (c.sender.ackReceived _ _).stream.isInputEnd = _
      rw [(TCPSender.ackReceived_frame c.sender _ _).2.1]
      exact hended
  | readInbound len => rfl
  | popSegment => rfl

theorem Coherent.endInputStream_inputEnd (h : x.Coherent) :
    x.conn.endInputStream.sender.stream.isInputEnd = true :=
  ((stable_inputEnd true).fill (c := x.conn.onSender TCPSender.endStream)
    ⟨⟨_, h.sender.endStream⟩, rfl⟩).2

/-- Everything was read up to the end of the inbound stream, or the stream broke off. -/
def InboundDone (c : TCPConnection) : Prop :=
  c.receiver.streamOut.eof = true ∨ c.receiver.streamOut.error = true

/-- Nothing is written to the inbound stream behind its end. -/
theorem InboundDone.receive {r : TCPReceiver} {taken : Bytes} (hr : Received r taken)
    (h : r.streamOut.eof = true ∨ r.streamOut.error = true) (seg : TCPSegment) :
    (r.segmentReceived seg).streamOut.eof = true ∨ (r.segmentReceived seg).streamOut.error = true := by
  obtain ⟨data, hc, -⟩ := hr
  obtain ⟨w, hgrows, hc'⟩ := hc.segmentReceived seg
  refine h.imp ?_ (fun herror => hgrows.error.trans herror)
  intro heof
  simp only [ByteStream.eof, Bool.and_eq_true, beq_iff_eq] at heof ⊢
  obtain ⟨hended, rfl⟩ := hgrows.ended heof.2
  rw [List.append_nil] at hc'
  refine ⟨?_, hended⟩
  have hread := hgrows.read
  have hadd := hc.out.read_add
  have hadd' := hc'.out.read_add
  have hwritten := hc.out.written
  have hwritten' := hc'.out.written
  omega

theorem stable_inboundDone (taken : Bytes) : TCPConnection.Stable fun c =>
    Received c.receiver taken ∧ InboundDone c where
  flags := fun _ _ _ _ _ h => h
  fillWindow := fun _ h => h
  sendEmptySegment := fun _ h => h
  updateOutput := fun _ h => h
  uncleanShutdown := fun _ h => ⟨h.1.setError, Or.inr rfl⟩

theorem InboundDone.call (hx : x.Coherent) (h : InboundDone x.conn) (junk : Nat → UInt8)
    (op : ConnectionOp) : InboundDone (x.call junk op).conn := by
  have hst := stable_inboundDone x.taken
  cases op with
  | connect => exact (hst.fill ⟨hx.receiver, h⟩).2
  | write data =>
      show InboundDone (x.conn.write data).1
      unfold TCPConnection.write
      split_ifs
      · exact h
      · exact (hst.fill (c := x.conn.onSender fun s => (s.writeStream data).1)
          ⟨hx.receiver, h⟩).2
  | endInputStream =>
      exact (hst.fill (c := x.conn.onSender TCPSender.endStream) ⟨hx.receiver, h⟩).2
  | tick ms =>
      refine (TCPConnection.tick_rule hst (fun c h' _ => h') (fun c h' => ?_) ⟨hx.receiver, h⟩).2
      unfold InboundDone
      rw [TCPConnection.sendRSTSeg_receiver]
      exact h'
  | segmentReceived seg =>
      exact (TCPConnection.segmentReceived_rule hst
        (fun h' => ⟨h'.1.segmentReceived seg, InboundDone.receive h'.1 h'.2 seg⟩)
        (fun _ c h' _ => h') ⟨hx.receiver, h⟩).2
  | readInbound len =>
      refine h.imp ?_ id
      intro heof
      simp only [ByteStream.eof, Bool.and_eq_true, beq_iff_eq] at heof ⊢
      refine ⟨?_, heof.2⟩
      show x.conn.receiver.streamOut.size - min x.conn.receiver.streamOut.size len = 0
      rw [heof.1, Nat.zero_sub]
  | popSegment => exact h

/-! ## Runs of calls -/

/-- The calls of a loop between two ticks, when `allowed` segments arrive. -/
def Callable (allowed : TCPSegment → Prop) : ConnectionOp → Prop
  | .segmentReceived seg => allowed seg
  | .tick _ => False
  | _ => True

/-- Some calls, all of them allowed, lead from `x` to `x'`. -/
def Reaches (junk : Nat → UInt8) (allowed : ConnectionOp → Prop) (x x' : Endpoint) : Prop :=
  ∃ ops : List ConnectionOp, (∀ op ∈ ops, allowed op) ∧ run (call junk) x ops = x'

variable {junk : Nat → UInt8} {allowed : ConnectionOp → Prop} {x' : Endpoint}

theorem reaches_refl (junk : Nat → UInt8) (allowed : ConnectionOp → Prop) (x : Endpoint) :
    Reaches junk allowed x x :=
  ⟨[], fun _ h => absurd h List.not_mem_nil, rfl⟩

theorem Reaches.call (h : Reaches junk allowed x x') {op : ConnectionOp} (hop : allowed op) :
    Reaches junk allowed x (x'.call junk op) := by
  obtain ⟨ops, hops, hrun⟩ := h
  refine ⟨ops ++ [op], ?_, ?_⟩
  · intro op' hop'
    rw [List.mem_append, List.mem_singleton] at hop'
    rcases hop' with hold | rfl
    · exact hops op' hold
    · exact hop
  · rw [run_append, hrun]
    rfl

theorem Reaches.trans (h : Reaches junk allowed x x') {x'' : Endpoint}
    (h' : Reaches junk allowed x' x'') : Reaches junk allowed x x'' := by
  obtain ⟨ops, hops, hrun⟩ := h
  obtain ⟨ops', hops', hrun'⟩ := h'
  refine ⟨ops ++ ops', ?_, ?_⟩
  · intro op hop
    rw [List.mem_append] at hop
    exact hop.elim (hops op) (hops' op)
  · rw [run_append, hrun, hrun']

theorem Reaches.mono (h : Reaches junk allowed x x') {allowed' : ConnectionOp → Prop}
    (himp : ∀ op, allowed op → allowed' op) : Reaches junk allowed' x x' := by
  obtain ⟨ops, hops, hrun⟩ := h
  exact ⟨ops, fun op hop => himp op (hops op hop), hrun⟩

/-! ## Endpoints in a network -/

/-- A segment that the peer handed over, as the adapters on the way have written and read it. -/
def FromPeer (peerSent : List TCPSegment) (seg : TCPSegment) : Prop :=
  ∃ seg' ∈ peerSent, ∃ sport dport cksum, seg = seg'.addressed sport dport cksum

/-- A call is a step in the network. -/
theorem exists_step {peerSent : List TCPSegment} {op : ConnectionOp}
    (hop : Callable (FromPeer peerSent) op) (junk : Nat → UInt8) (x : Endpoint) :
    ∃ op' : EndpointOp, x.step junk peerSent op' = x.call junk op ∧ ∀ ms, op' ≠ .tick ms := by
  cases op with
  | segmentReceived seg =>
      obtain ⟨seg', hseg', sport, dport, cksum, rfl⟩ := hop
      obtain ⟨i, hi⟩ := List.mem_iff_getElem?.mp hseg'
      refine ⟨.deliver i, ?_, nofun⟩
      simp only [Endpoint.step, hi, Endpoint.call, TCPConnection.segmentReceived_addressed]
  | tick ms => cases hop
  | connect => exact ⟨.connect, rfl, nofun⟩
  | write data => exact ⟨.write data, rfl, nofun⟩
  | endInputStream => exact ⟨.endInputStream, rfl, nofun⟩
  | readInbound len => exact ⟨.readInbound len, rfl, nofun⟩
  | popSegment => exact ⟨.popSegment, rfl, nofun⟩

theorem Reaches.exists_steps {peerSent : List TCPSegment}
    (h : Reaches junk (Callable (FromPeer peerSent)) x x') :
    ∃ ops : List EndpointOp, run (Endpoint.step junk peerSent) x ops = x' ∧
      ∀ op ∈ ops, ∀ ms, op ≠ .tick ms := by
  obtain ⟨ops, hops, rfl⟩ := h
  induction ops generalizing x with
  | nil => exact ⟨[], rfl, fun _ h => absurd h List.not_mem_nil⟩
  | cons op ops ih =>
      obtain ⟨hop, hrest⟩ := List.forall_mem_cons.mp hops
      obtain ⟨op', hstep, htick⟩ := exists_step hop junk x
      obtain ⟨ops', hrun, hticks⟩ := ih (x := x.call junk op) hrest
      refine ⟨op' :: ops', ?_, List.forall_mem_cons.mpr ⟨htick, hticks⟩⟩
      rw [run_cons, hstep, hrun]
      rfl

end

end Endpoint

end Sponge
