import Sponge.Socket.Relay

set_option autoImplicit false

/-! # The loop of a socket

What a pass of the loop does to the connection is a sequence of calls, and then at most one tick.
Hence the contract of the rules is kept as long as the socket lives: everything that is read from
the owner goes into the outbound stream, everything that was assembled goes to the owner, and only
the kernel can stop the loop with an exception (`run_relays`). What a call does is what the model of
the connection says, in which the reassembler reads a copy of what it has erased. -/

namespace Sponge

open Util Util.EventLoop Run Endpoint TCPSpongeSocket

namespace TCPSpongeSocket

section

variable {δ ρ ω : Type} [FdAdapter δ ρ ω] [LawfulFdAdapter δ] {junk : Nat → UInt8}
  {allowed : TCPSegment → Prop} {x₀ : Endpoint} {s : TCPSpongeSocket δ}

/-- The calls are counted from here on. -/
theorem Inv.rebase (h : s.Inv junk allowed x₀) : s.Inv junk allowed s.endpoint :=
  ⟨reaches_refl _ _ _, h.coherent, h.outbound, h.inbound, h.wire⟩

theorem endpoint_tick (junk : Nat → UInt8) (s : TCPSpongeSocket δ) (ms : UInt64) :
    (s.tick junk ms).endpoint = s.endpoint.call junk (.tick ms) := by
  unfold tick
  split_ifs with hactive
  · rfl
  · have htick : s.tcp.tick junk ms.toNat = s.tcp := by
      unfold TCPConnection.tick
      rw [if_pos (by simpa using hactive)]
    show s.endpoint = { s.endpoint with conn := s.tcp.tick junk ms.toNat }
    rw [htick]
    rfl

theorem tick_outboundShutdown (junk : Nat → UInt8) (s : TCPSpongeSocket δ) (ms : UInt64) :
    (s.tick junk ms).outboundShutdown = s.outboundShutdown := by
  unfold tick
  split_ifs <;> rfl

theorem Inv.tick (h : s.Inv junk allowed x₀) (ms : UInt64) :
    (s.tick junk ms).Inv junk allowed (s.tick junk ms).endpoint := by
  have hout := s.tick_outboundShutdown junk ms
  have hin : (s.tick junk ms).inboundShutdown = s.inboundShutdown := by
    unfold TCPSpongeSocket.tick
    split_ifs <;> rfl
  have hrecords : (s.tick junk ms).wire = s.wire ∧ (s.tick junk ms).sent = s.sent := by
    unfold TCPSpongeSocket.tick
    split_ifs <;> exact ⟨rfl, rfl⟩
  refine ⟨reaches_refl _ _ _, ?_, ?_, ?_, ?_⟩
  · rw [endpoint_tick]
    exact h.coherent.call junk _
  · have hended := h.coherent.call_inputEnd junk (.tick ms) nofun
    rw [← endpoint_tick] at hended
    exact hout.trans (h.outbound.trans hended.symm)
  · intro hshut
    have hdone : InboundDone s.endpoint.conn := h.inbound (hin ▸ hshut)
    have hdone' := hdone.call h.coherent junk (.tick ms)
    rw [← endpoint_tick] at hdone'
    exact hdone'
  · rw [hrecords.1, hrecords.2]
    exact h.wire

end

end TCPSpongeSocket

namespace SocketLoop

section

variable {δ ρ ω : Type} (junk : Nat → UInt8) (t : SocketLoop δ) (p : SocketPass ρ ω)

theorem leave_state : t.leave.loop.state = t.loop.state ∧ t.leave.loop.rules = t.loop.rules := by
  unfold leave
  split_ifs <;> exact ⟨rfl, rfl⟩

theorem leave_status (e : Exception) : t.leave.loop.status ≠ .threw e := by
  unfold leave
  split_ifs <;> exact nofun

/-- Between two events there is at most one tick. -/
theorem afterEvent_endpoint :
    (t.afterEvent junk p).socket.endpoint = t.socket.endpoint ∨
      t.loop.status = .running ∧
        (t.afterEvent junk p).socket.endpoint = t.socket.endpoint.call junk (.tick p.elapsed) := by
  have hleave : t.leave.socket.endpoint = t.socket.endpoint :=
    congrArg TCPSpongeSocket.endpoint t.leave_state.1
  unfold afterEvent
  cases hstatus : t.loop.status with
  | threw e => exact Or.inl rfl
  | exited => exact Or.inl hleave
  | running =>
      dsimp only
      split_ifs
      · exact Or.inl hleave
      · exact Or.inr ⟨rfl, endpoint_tick junk t.socket p.elapsed⟩

variable [FdAdapter δ ρ ω] [LawfulFdAdapter δ] {junk t p} {allowed : TCPSegment → Prop}
  {x₀ : Endpoint} {interrupted : Prop}

/-- The contract of the rules has been kept so far. -/
def Upheld (junk : Nat → UInt8) (allowed : TCPSegment → Prop) (interrupted : Prop)
    (t : SocketLoop δ) : Prop :=
  (contract junk allowed t.socket.endpoint).Upholds rules interrupted t.loop

theorem upheld_of_upholds (x₀ : Endpoint)
    (h : (contract junk allowed x₀).Upholds rules interrupted t.loop) :
    t.Upheld junk allowed interrupted :=
  ⟨h.inv.rebase, h.ordered, h.subset, h.live, h.gone, h.idle, h.throws⟩

theorem Upheld.leave (h : t.Upheld junk allowed interrupted)
    (hthrew : ∀ e, t.loop.status ≠ .threw e) (hexit : t.loop.status = .exited ∨ interrupted) :
    t.leave.Upheld junk allowed interrupted := by
  obtain ⟨hstate, hrules⟩ := t.leave_state
  have hsocket : t.leave.socket = t.socket := hstate
  have hgone := h.gone hthrew
  have hlive := h.live hthrew
  unfold Upheld
  rw [hsocket]
  refine ⟨?_, ?_, ?_, fun _ => ?_, fun _ => ?_, fun _ => ?_, fun e he => ?_⟩
  · rw [hstate]; exact h.inv
  · rw [hrules]; exact h.ordered
  · rw [hrules]; exact h.subset
  · rw [hrules, hstate]; exact hlive
  · rw [hrules, hstate]; exact hgone
  · rw [hrules, hstate]
    exact hexit.elim h.idle Or.inl
  · exact absurd he (t.leave_status e)

theorem Upheld.afterEvent (h : t.Upheld junk allowed interrupted)
    (habort : p.abort = true → interrupted) :
    (t.afterEvent junk p).Upheld junk allowed interrupted := by
  unfold SocketLoop.afterEvent
  cases hstatus : t.loop.status with
  | threw e => exact h
  | exited =>
      exact h.leave (fun e he => nomatch hstatus.symm.trans he) (Or.inl hstatus)
  | running =>
      have hthrew : ∀ e, t.loop.status ≠ .threw e := fun e he => nomatch hstatus.symm.trans he
      dsimp only
      split_ifs with hp
      · exact h.leave hthrew (Or.inr (habort hp))
      · have hout : (t.socket.tick junk p.elapsed).outboundShutdown = t.socket.outboundShutdown :=
          TCPSpongeSocket.tick_outboundShutdown junk t.socket p.elapsed
        refine ⟨h.inv.tick p.elapsed, h.ordered, h.subset, fun _ => h.live hthrew,
          fun _ i hi hnot hi' => hout.trans (h.gone hthrew i hi hnot hi'), fun hexit => ?_,
          fun e he => ?_⟩
        · exact nomatch hstatus.symm.trans hexit
        · exact absurd he (hthrew e)

/-- What `poll` and the callbacks are answered. -/
def Awaited (δ : Type) {ρ ω : Type} [FdAdapter δ ρ ω] [LawfulFdAdapter δ]
    (allowed : TCPSegment → Prop) (poll : Poll (SocketAnswers ρ ω)) : Prop :=
  poll.All (Expected δ allowed)

instance (allowed : TCPSegment → Prop) [DecidablePred allowed] (poll : Poll (SocketAnswers ρ ω)) :
    Decidable (Awaited δ allowed poll) := inferInstanceAs (Decidable (poll.All _))

/-- A signal is caught, or the owner gives up. -/
def Interrupts (p : SocketPass ρ ω) : Prop := p.poll = .failed eintr ∨ p.abort = true

/-- **A pass keeps the contract.** -/
theorem Upheld.pass (h : t.Upheld junk allowed interrupted) (hok : Awaited δ allowed p.poll)
    (hinterrupts : Interrupts p → interrupted) : (t.pass junk p).Upheld junk allowed interrupted := by
  unfold SocketLoop.pass
  cases hstatus : t.loop.status with
  | threw e => exact h
  | exited => exact h
  | running =>
      have hstep := (contract_kept junk allowed t.socket.endpoint).step h
        hok (fun hsignal => hinterrupts (Or.inl hsignal))
      refine Upheld.afterEvent ?_ (fun habort => hinterrupts (Or.inr habort))
      exact upheld_of_upholds t.socket.endpoint hstep

/-- The calls of a pass, and the tick. -/
theorem pass_reaches (h : t.Upheld junk allowed interrupted) (hok : Awaited δ allowed p.poll)
    (hinterrupts : Interrupts p → interrupted) :
    ∃ x, Reaches junk (Callable allowed) t.socket.endpoint x ∧
      x = (t.loop.step table p.poll).state.endpoint ∧
      ((t.pass junk p).socket.endpoint = x ∨
        (t.pass junk p).socket.endpoint = x.call junk (.tick p.elapsed)) := by
  have hstep := (contract_kept junk allowed t.socket.endpoint).step h
    hok (fun hsignal => hinterrupts (Or.inl hsignal))
  refine ⟨_, hstep.inv.reaches, rfl, ?_⟩
  unfold SocketLoop.pass
  cases hstatus : t.loop.status with
  | running =>
      have hafter := afterEvent_endpoint junk { t with
        loop := t.loop.step table p.poll
        opening := t.opening && t.role.waits t.socket.tcp } p
      exact hafter.imp id And.right
  | threw e =>
      have hsame : t.loop.step table p.poll = t.loop := by
        unfold Machine.step
        rw [hstatus]
      rw [hsame]
      exact Or.inl rfl
  | exited =>
      have hsame : t.loop.step table p.poll = t.loop := by
        unfold Machine.step
        rw [hstatus]
      rw [hsame]
      exact Or.inl rfl

/-- Whatever arrives, a pass is some calls of the connection. -/
theorem pass_called (h : t.Upheld junk allowed interrupted) (hok : Awaited δ allowed p.poll)
    (hinterrupts : Interrupts p → interrupted) :
    Reaches junk (fun _ => True) t.socket.endpoint (t.pass junk p).socket.endpoint := by
  obtain ⟨x, hreaches, -, hpass⟩ := pass_reaches h hok hinterrupts
  have hcalls : Reaches junk (fun _ => True) t.socket.endpoint x :=
    hreaches.mono fun _ _ => trivial
  rcases hpass with hcalled | hticked
  · rwa [hcalled]
  · rw [hticked]
    exact hcalls.call trivial

/-- Nothing of the contract depends on the segments that will arrive. -/
theorem Upheld.congr (h : t.Upheld junk allowed interrupted) (allowed' : TCPSegment → Prop) :
    t.Upheld junk allowed' interrupted :=
  ⟨⟨reaches_refl _ _ _, h.inv.coherent, h.inv.outbound, h.inv.inbound, h.inv.wire⟩, h.ordered,
    h.subset, h.live, h.gone, h.idle, h.throws⟩

end

end SocketLoop

/-! ## Opening -/

namespace TCPConnection

/-- The first call of `fill_window` sends the SYN. -/
theorem connect_state (cfg : TCPConfig) (isn : WrappingInt32) :
    (new cfg isn).connect.state = TCPState.ofState .synSent := by
  have hsound : (new cfg isn).sender.Sound [] := TCPSender.sound_new _ _ _
  have hstep : ((new cfg isn).step (fun _ => 0) .connect).Regular :=
    (regular_new cfg isn).other (fun _ => 0) trivial nofun nofun
  have hregular : (new cfg isn).connect.Regular := hstep
  have hsmall : (new cfg isn).connect.sender.stream.bytesWritten + 2 < 2 ^ 64 := by
    have hwritten : (new cfg isn).connect.sender.stream.numBytesWritten = 0 :=
      hsound.fillWindow.carries.written
    rw [ByteStream.bytesWritten, hwritten]
    norm_num
  have hsent : (new cfg isn).connect.sender.unAckQueue.synSent = true := hsound.fillWindow_synSent
  have hacked : (new cfg isn).connect.sender.unAckQueue.synAcked = false :=
    ((regular_new cfg isn).acked_eq (fun _ => 0) .connect nofun).1
  have hrecv : (new cfg isn).connect.receiver.synRecv = false := rfl
  rw [hregular.state_eq hsmall, hsent, hacked, hrecv]
  rfl

end TCPConnection

namespace SocketLoop

section

variable {δ ρ ω : Type} [FdAdapter δ ρ ω]

/-- The socket has been opened, by either of the two calls. -/
def Opened (cTcp : TCPConfig) (isn : WrappingInt32) (t : SocketLoop δ) : Prop :=
  ∃ (cAd : FdAdapterConfig) (adapter : δ),
    connect cTcp isn cAd adapter = .ok t ∨ t = listenAndAccept cTcp isn cAd adapter

/-- `connect` never throws. -/
theorem connect_eq (cTcp : TCPConfig) (isn : WrappingInt32) (cAd : FdAdapterConfig) (adapter : δ) :
    connect cTcp isn cAd adapter = .ok (new .connects (TCPConnection.new cTcp isn).connect
      (FdAdapter.setConfig cAd adapter)) := by
  unfold connect
  simp only [TCPConnection.connect_state, ne_eq, not_true_eq_false, if_false]
  rfl

/-- What an open socket starts with: the handshake has been begun, or not. -/
theorem Opened.cases {cTcp : TCPConfig} {isn : WrappingInt32} {t : SocketLoop δ}
    (h : t.Opened cTcp isn) :
    ∃ role tcp adapter, t = new role tcp adapter ∧
      (tcp = TCPConnection.new cTcp isn ∨ tcp = (TCPConnection.new cTcp isn).connect) := by
  obtain ⟨cAd, adapter, hconnect | rfl⟩ := h
  · rw [connect_eq] at hconnect
    cases hconnect
    exact ⟨_, _, _, rfl, Or.inr rfl⟩
  · exact ⟨_, _, _, rfl, Or.inl rfl⟩

/-- The endpoint of an open socket. -/
theorem Opened.endpoint {cTcp : TCPConfig} {isn : WrappingInt32} {t : SocketLoop δ}
    (h : t.Opened cTcp isn) (junk : Nat → UInt8) :
    t.socket.endpoint = Endpoint.new cTcp isn ∨
      t.socket.endpoint = (Endpoint.new cTcp isn).call junk .connect := by
  obtain ⟨role, tcp, adapter, rfl, rfl | rfl⟩ := h.cases
  · exact Or.inl rfl
  · exact Or.inr rfl

/-- What an open socket starts with has come from calls. -/
theorem Opened.called {cTcp : TCPConfig} {isn : WrappingInt32} {t : SocketLoop δ}
    (h : t.Opened cTcp isn) (junk : Nat → UInt8) :
    Reaches junk (fun _ => True) (Endpoint.new cTcp isn) t.socket.endpoint := by
  have hnew := reaches_refl junk (fun _ => True) (Endpoint.new cTcp isn)
  rcases h.endpoint junk with hstart | hstart
  · rwa [hstart]
  · rw [hstart]
    exact hnew.call trivial

variable [LawfulFdAdapter δ]

theorem Opened.upheld {cTcp : TCPConfig} {isn : WrappingInt32} {t : SocketLoop δ}
    (h : t.Opened cTcp isn) (junk : Nat → UInt8) (allowed : TCPSegment → Prop)
    (interrupted : Prop) : t.Upheld junk allowed interrupted := by
  have hcoherent : t.socket.endpoint.Coherent ∧
      t.socket.endpoint.conn.sender.stream.isInputEnd = false := by
    have hnew := coherent_new cTcp isn
    rcases h.endpoint junk with heq | heq
    · rw [heq]
      exact ⟨hnew, rfl⟩
    · rw [heq]
      exact ⟨hnew.call junk .connect, hnew.call_inputEnd junk .connect nofun⟩
  obtain ⟨role, tcp, adapter, rfl, -⟩ := h.cases
  refine ⟨⟨reaches_refl _ _ _, hcoherent.1, hcoherent.2.symm, nofun, ?_⟩, ?_, fun _ => id, ?_, ?_,
    nofun, nofun⟩
  · exact fun _ hbytes => absurd hbytes List.not_mem_nil
  · show rules.Pairwise fun i j => i.ctorIdx < j.ctorIdx
    decide
  · exact fun _ _ _ => trivial
  · exact fun _ i hi hnot => absurd hi hnot

/-! ## What a socket does for its owner -/

/-- The two streams are passed on between the owner and the connection, whole and in order. -/
structure Relays (t : SocketLoop δ) : Prop where
  /-- The connection has accepted whatever was read from the owner. -/
  outbound : t.socket.tcp.sender.stream.Carries t.socket.accepted
  /-- What was written to the owner and what waits for it is what was assembled. -/
  inbound : t.socket.tcp.inboundStream.Carries (t.socket.given ++ t.socket.tcp.inboundStream.buf)
  outboundEnd : t.socket.outboundShutdown = t.socket.tcp.sender.stream.isInputEnd
  inboundEnd : t.socket.inboundShutdown = true → InboundDone t.socket.tcp
  /-- Every datagram holds a segment of the connection. -/
  wire : ∀ bytes ∈ t.socket.wire, ∃ seg ∈ t.socket.sent, seg.Plain ∧ Holds δ bytes seg
  throws : ∀ e, t.loop.status = .threw e → DatagramFault e ∨ e = pollError

/-- Every rule that has not been cancelled has nothing left to do. -/
structure Drained (t : SocketLoop δ) : Prop where
  rule1 : .rule1 ∈ t.loop.rules → t.socket.tcp.active = false
  rule2 : .rule2 ∈ t.loop.rules → t.socket.tcp.active = false ∨
    t.socket.outboundShutdown = true ∨ t.socket.tcp.remainingOutboundCapacity = 0
  rule2_gone : .rule2 ∉ t.loop.rules → t.socket.outboundShutdown = true
  rule3 : .rule3 ∈ t.loop.rules → t.socket.tcp.inboundStream.buf = [] ∧
    (InboundDone t.socket.tcp → t.socket.inboundShutdown = true)
  rule4 : .rule4 ∈ t.loop.rules → t.socket.tcp.segmentsOut = []

section

variable {junk : Nat → UInt8} {t : SocketLoop δ} {allowed : TCPSegment → Prop} {interrupted : Prop}

theorem Upheld.relays (h : t.Upheld junk allowed interrupted) : t.Relays where
  outbound := h.inv.coherent.sender.carries
  inbound := by
    obtain ⟨data, hcarries, hdata⟩ := h.inv.coherent.receiver.taken_append
    have hdata' : t.socket.given ++ t.socket.tcp.inboundStream.buf = data := hdata
    rw [hdata']
    exact hcarries
  outboundEnd := h.inv.outbound
  inboundEnd := h.inv.inbound
  wire := by
    intro bytes hbytes
    obtain ⟨seg, hseg, hholds⟩ := h.inv.wire bytes hbytes
    exact ⟨seg, hseg, h.inv.coherent.sent seg hseg, hholds⟩
  throws := h.throws

theorem Upheld.drained (h : t.Upheld junk allowed interrupted) (hexit : t.loop.status = .exited)
    (hcalm : ¬interrupted) : t.Drained := by
  have hidle := (h.idle hexit).resolve_left hcalm
  have hthrew : ∀ e, t.loop.status ≠ .threw e := fun e he => nomatch hexit.symm.trans he
  refine ⟨hidle .rule1, hidle .rule2, fun hnot => ?_, fun hmem => ?_, hidle .rule4⟩
  · exact h.gone hthrew .rule2 (by decide) hnot rfl
  · obtain ⟨hsize, hdone⟩ := hidle .rule3 hmem
    have hlen := h.relays.inbound.size_eq
    exact ⟨List.length_eq_zero_iff.mp (hlen.symm.trans hsize), hdone⟩

end

end

/-- Nothing is asked of the kernel. -/
def unasked : SocketAnswers RecvAnswer Answer where
  datagram := { value := 0 }
  segments := fun _ => ⟨0, 0⟩

/-- A pass in which only the rule at the place `i` is ready. -/
def readyAt (i : Nat) (a : SocketAnswers RecvAnswer Answer) : SocketPass RecvAnswer Answer where
  poll := .ready (List.replicate i ({}, unasked) ++ [({ pollin := true, pollout := true }, a)])

/-- The datagram arrives. -/
def hears (data : Bytes) : SocketPass RecvAnswer Answer :=
  readyAt 0 { unasked with datagram := { value := data.length, data } }

/-- The SYN is sent, a RST comes back, and the owner is told. -/
def refused : List (SocketPass RecvAnswer Answer) :=
  [readyAt 3 { unasked with segments := fun _ => ⟨20, 0⟩ },
    hears [0, 0, 0, 0, 0, 0, 0, 0, 0, 0, 0, 1, 80, 20, 0, 0, 175, 234, 0, 0],
    readyAt 2 unasked, { poll := .timeout }]

end SocketLoop

end Sponge
