import Sponge.Network.Delivery
import Sponge.Socket.Freed

set_option autoImplicit false

/-! # Two sockets

Two sockets with adapters of the same kind, joined by a network that may lose, repeat, delay and
reorder datagrams, and may deliver datagrams that hold no segment. The passes of the two loops
alternate in any order; every run of them is a run of the network of connections
(`run_simulates`), and hence the owners receive what was written on the other side, from
descriptor to descriptor (`run_delivers`). -/

namespace Sponge

open Util Util.EventLoop Run Endpoint TCPSpongeSocket SocketLoop

structure SocketPair (δ : Type) where
  a : SocketLoop δ
  b : SocketLoop δ

namespace SocketPair

section

variable {δ : Type}

def get (n : SocketPair δ) : Side → SocketLoop δ
  | .a => n.a
  | .b => n.b

def set (n : SocketPair δ) : Side → SocketLoop δ → SocketPair δ
  | .a, t => { n with a := t }
  | .b, t => { n with b := t }

/-- What the two owners and the network see. -/
def network (n : SocketPair δ) : Network where
  a := n.a.socket.endpoint
  b := n.b.socket.endpoint

theorem get_network (n : SocketPair δ) (side : Side) :
    n.network.get side = (n.get side).socket.endpoint := by
  cases side <;> rfl

theorem network_set (n : SocketPair δ) (side : Side) (t : SocketLoop δ) :
    (n.set side t).network = n.network.set side t.socket.endpoint := by
  cases side <;> rfl

end

section

variable {δ ρ ω : Type} [FdAdapter δ ρ ω]

/-- A pass of one of the sockets. -/
def step (junk : Nat → UInt8) (n : SocketPair δ) (op : Side × SocketPass ρ ω) : SocketPair δ :=
  n.set op.1 ((n.get op.1).pass junk op.2)

/-- The same, whatever an erased element reads. -/
def Freed.step (freed : Nat × Bytes → Nat × Bytes) (junk : Nat → UInt8) (n : SocketPair δ)
    (op : Side × SocketPass ρ ω) : SocketPair δ :=
  n.set op.1 (SocketLoop.Freed.pass freed junk (n.get op.1) op.2)

theorem Freed.short_of_step {freed : Nat × Bytes → Nat × Bytes} {junk : Nat → UInt8}
    {n : SocketPair δ} {op : Side × SocketPass ρ ω}
    (h : (Freed.step freed junk n op).network.Short) : n.network.Short := by
  obtain ⟨side, p⟩ := op
  have hread := (SocketLoop.Freed.pass_accepted freed junk (n.get side) p).length_le
  cases side with
  | a => exact ⟨lt_of_le_of_lt hread h.1, h.2⟩
  | b => exact ⟨h.1, lt_of_le_of_lt hread h.2⟩

variable [LawfulFdAdapter δ]

/-- The kernel answers as documented, and a datagram that arrives is one of `wire` or holds no
segment. -/
structure Hears (δ : Type) {ρ ω : Type} [FdAdapter δ ρ ω] [LawfulFdAdapter δ] (wire : List Bytes)
    (a : SocketAnswers ρ ω) : Prop where
  read : a.read.Documented
  write : a.write.Documented
  datagram : LawfulFdAdapter.heard δ a.datagram ∈ wire ∨
    LawfulFdAdapter.segmentIn (δ := δ) (LawfulFdAdapter.heard δ a.datagram) = none

instance (wire : List Bytes) : DecidablePred (Hears δ (ρ := ρ) (ω := ω) wire) := fun a =>
  decidable_of_iff (a.read.Documented ∧ a.write.Documented ∧
      (LawfulFdAdapter.heard δ a.datagram ∈ wire ∨
        LawfulFdAdapter.segmentIn (δ := δ) (LawfulFdAdapter.heard δ a.datagram) = none))
    ⟨fun h => ⟨h.1, h.2.1, h.2.2⟩, fun h => ⟨h.read, h.write, h.datagram⟩⟩

/-- What a socket hears in a pass are datagrams that its peer has sent, or nothing that holds a
segment. -/
def HearsPeer (n : SocketPair δ) (op : Side × SocketPass ρ ω) : Prop :=
  op.2.poll.All (Hears δ (n.get op.1.other).socket.wire)

/-- The tick of the pass finds the first segment size inside the queue of unacknowledged bytes. -/
def Retransmits (n : SocketPair δ) (op : Side × SocketPass ρ ω) : Prop :=
  ((n.get op.1).loop.step table op.2.poll).state.endpoint.Retransmits (.tick op.2.elapsed)

/-- A timeout reads inside the queue of unacknowledged bytes, and a segment that is heard makes the
reassembler write stored substrings as a whole only. -/
def Conforms (n : SocketPair δ) (op : Side × SocketPass ρ ω) : Prop :=
  n.Retransmits op ∧ (n.get op.1).Unbroken op.2

instance (n : SocketPair δ) (op : Side × SocketPass ρ ω) : Decidable (n.HearsPeer op) :=
  inferInstanceAs (Decidable (op.2.poll.All _))

instance (n : SocketPair δ) (op : Side × SocketPass ρ ω) : Decidable (n.Retransmits op) :=
  inferInstanceAs (Decidable (Endpoint.Retransmits _ _))

instance (n : SocketPair δ) (op : Side × SocketPass ρ ω) : Decidable (n.Conforms op) :=
  inferInstanceAs (Decidable (_ ∧ _))

/-! ## Passes are runs of the network -/

/-- What is heard was handed over by the peer. -/
theorem awaited_of_hears {wire : List Bytes} {peerSent : List TCPSegment}
    (hwire : ∀ bytes ∈ wire, ∃ seg ∈ peerSent, Holds δ bytes seg)
    {poll : Poll (SocketAnswers ρ ω)} (h : poll.All (Hears δ wire)) :
    SocketLoop.Awaited δ (FromPeer peerSent) poll := by
  refine h.mono fun a ha => ⟨ha.read, ha.write, fun seg hseg => ?_⟩
  rcases ha.datagram with hmem | hnone
  · obtain ⟨seg', hseg', sport, dport, cksum, hholds⟩ := hwire _ hmem
    rw [hholds, Option.mem_some_iff] at hseg
    exact ⟨seg', hseg', sport, dport, cksum, hseg.symm⟩
  · rw [hnone] at hseg
    cases hseg

theorem admits_of_no_tick {step : Endpoint → EndpointOp → Endpoint} {x : Endpoint}
    {ops : List EndpointOp} (h : ∀ op ∈ ops, ∀ ms, op ≠ .tick ms) :
    Admits step Endpoint.Retransmits x ops := by
  induction ops generalizing x with
  | nil => trivial
  | cons op ops ih =>
      obtain ⟨hop, hrest⟩ := List.forall_mem_cons.mp h
      refine ⟨?_, ih hrest⟩
      cases op with
      | tick ms => exact absurd rfl (hop ms)
      | connect | write _ | endInputStream | readInbound _ | popSegment | deliver _ => trivial

/-- One pass of one socket. -/
theorem exists_endpointOps {junk : Nat → UInt8} {t : SocketLoop δ} {p : SocketPass ρ ω}
    {peerSent : List TCPSegment} (h : t.Upheld junk (FromPeer peerSent) True)
    (hawaited : SocketLoop.Awaited δ (FromPeer peerSent) p.poll) :
    ∃ ops, run (Endpoint.step junk peerSent) t.socket.endpoint ops
        = (t.pass junk p).socket.endpoint ∧
      ((t.loop.step table p.poll).state.endpoint.Retransmits (.tick p.elapsed) →
        Admits (Endpoint.step junk peerSent) Endpoint.Retransmits t.socket.endpoint ops) := by
  obtain ⟨x, hreaches, hx, hpass⟩ := SocketLoop.pass_reaches h hawaited (fun _ => trivial)
  obtain ⟨ops, hrun, hticks⟩ := hreaches.exists_steps
  rcases hpass with hpass | hpass
  · exact ⟨ops, hrun.trans hpass.symm, fun _ => admits_of_no_tick hticks⟩
  · refine ⟨ops ++ [.tick p.elapsed], ?_, fun hret => ?_⟩
    · rw [run_append, hrun, hpass]
      rfl
    · refine admits_append.mpr ⟨admits_of_no_tick hticks, ?_⟩
      rw [hrun, hx]
      exact ⟨hret, trivial⟩

/-- The contracts of both sockets have been kept so far, and `net` is what is seen of them. -/
structure Simulated (junk : Nat → UInt8) (n : SocketPair δ) (net : Network) : Prop where
  upheld : ∀ side, (n.get side).Upheld junk (fun _ => True) True
  net_eq : net = n.network

/-- A segment that is heard in a pass was handed over by the peer. -/
def HearsSent (n : SocketPair δ) (op : Side × SocketPass ρ ω) : Prop :=
  SocketLoop.Awaited δ (FromPeer (n.get op.1.other).socket.sent) op.2.poll

theorem forall_get_set {P : SocketLoop δ → Prop} {n : SocketPair δ} {t : SocketLoop δ}
    (side : Side) (ht : P t) (h : ∀ side, P (n.get side)) : ∀ side', P ((n.set side t).get side') := by
  intro side'
  cases side <;> cases side'
  · exact ht
  · exact h .b
  · exact h .a
  · exact ht

section

variable {junk : Nat → UInt8} {n : SocketPair δ} {net : Network} {op : Side × SocketPass ρ ω}

theorem Simulated.hearsSent (h : Simulated junk n net) (hop : n.HearsPeer op) : n.HearsSent op :=
  awaited_of_hears (h.upheld op.1.other).inv.wire hop

/-- **A pass is simulated by steps of the network.** -/
theorem Simulated.step (h : Simulated junk n net) (hop : n.HearsSent op) :
    ∃ ops, Simulated junk (n.step junk op) (run (Network.step junk) net ops) ∧
      (n.Retransmits op → Admits (Network.step junk) Network.Retransmits net ops) := by
  obtain ⟨side, p⟩ := op
  obtain rfl := h.net_eq
  have hupheld : (n.get side).Upheld junk (FromPeer (n.get side.other).socket.sent) True :=
    (h.upheld side).congr _
  obtain ⟨ops, hrun, hadmits⟩ := exists_endpointOps hupheld hop
  obtain ⟨hrun', hadmits'⟩ := Network.run_side junk side n.network ops
  rw [get_network, get_network] at hrun' hadmits'
  refine ⟨ops.map (Prod.mk side), ⟨?_, ?_⟩, fun hret => hadmits'.mpr (hadmits hret)⟩
  · exact forall_get_set side ((hupheld.pass hop fun _ => trivial).congr _) h.upheld
  · calc run (Network.step junk) n.network (ops.map (Prod.mk side))
        = n.network.set side (run (Endpoint.step junk (n.get side.other).socket.sent)
            (n.get side).socket.endpoint ops) := hrun'
      _ = n.network.set side ((n.get side).pass junk p).socket.endpoint :=
          congrArg (n.network.set side) hrun
      _ = (n.step junk (side, p)).network := (network_set n side _).symm

end

section

variable {junk : Nat → UInt8} {cfgA cfgB : TCPConfig} {isnA isnB : WrappingInt32}
  {n₀ : SocketPair δ}

/-- The open sockets are what the network has begun with. -/
theorem exists_opening (ha : n₀.a.Opened cfgA isnA) (hb : n₀.b.Opened cfgB isnB)
    (junk : Nat → UInt8) :
    ∃ ops, Simulated junk n₀ (run (Network.step junk) (Network.new cfgA cfgB isnA isnB) ops) ∧
      Admits (Network.step junk) Network.Retransmits (Network.new cfgA cfgB isnA isnB) ops := by
  have hupheld : ∀ side, (n₀.get side).Upheld junk (fun _ => True) True := by
    intro side
    cases side with
    | a => exact ha.upheld junk _ _
    | b => exact hb.upheld junk _ _
  have hsimulated : ∀ net, net = n₀.network → Simulated junk n₀ net := fun net hnet =>
    ⟨hupheld, hnet⟩
  rcases ha.endpoint junk with heqA | heqA <;> rcases hb.endpoint junk with heqB | heqB
  · exact ⟨[], hsimulated _ (by rw [network, heqA, heqB]; rfl), trivial⟩
  · exact ⟨[(.b, .connect)], hsimulated _ (by rw [network, heqA, heqB]; rfl), trivial, trivial⟩
  · exact ⟨[(.a, .connect)], hsimulated _ (by rw [network, heqA, heqB]; rfl), trivial, trivial⟩
  · exact ⟨[(.a, .connect), (.b, .connect)], hsimulated _ (by rw [network, heqA, heqB]; rfl),
      trivial, trivial, trivial⟩

/-- **Every run of two sockets is a run of the network of their connections**, whatever the network
between the sockets may do (`P`) as long as it makes no segments up. -/
theorem exists_network (ha : n₀.a.Opened cfgA isnA) (hb : n₀.b.Opened cfgB isnB)
    {P : SocketPair δ → Side × SocketPass ρ ω → Prop}
    (hheard : ∀ n net op, Simulated junk n net → P n op → n.HearsSent op)
    {passes : List (Side × SocketPass ρ ω)} (hok : Admits (step junk) P n₀ passes) :
    ∃ ops, Simulated junk (run (step junk) n₀ passes)
        (Network.after junk cfgA cfgB isnA isnB ops) ∧
      (Admits (step junk) Retransmits n₀ passes →
        Admits (Network.step junk) Network.Retransmits (Network.new cfgA cfgB isnA isnB) ops) := by
  obtain ⟨first, hsim, hfirst⟩ := exists_opening ha hb junk
  obtain ⟨rest, hsim', hrest⟩ := exists_run_of_simulates
    (fun n net op (h : Simulated junk n net) hop => h.step (hheard n net op h hop)) hsim hok
  refine ⟨first ++ rest, ?_, fun hret => admits_append.mpr ⟨hfirst, hrest hret⟩⟩
  unfold Network.after
  rw [run_append]
  exact hsim'

end

/-! ## Whatever an erased element reads -/

theorem joined_get {n : Network} (h : Joined n.a n.b) (side : Side) :
    Joined (n.get side) (n.get side.other) := by
  cases side with
  | a => exact h
  | b => exact h.symm

theorem short_get {n : Network} (h : n.Short) (side : Side) :
    (n.get side).accepted.length < 2 ^ 31 := by
  cases side with
  | a => exact h.1
  | b => exact h.2

section

variable {junk : Nat → UInt8} {n : SocketPair δ} {net : Network} {op : Side × SocketPass ρ ω}

/-- A pass is that of the model, if the segment that is heard makes the reassembler write stored
substrings as a whole only. -/
theorem Simulated.freed_step (h : Simulated junk n net) (hjoined : Joined net.a net.b)
    (hshort : net.Short) (freed : Nat × Bytes → Nat × Bytes) (hheard : n.HearsSent op)
    (hwhole : (n.get op.1).Unbroken op.2) : Freed.step freed junk n op = n.step junk op := by
  obtain ⟨side, p⟩ := op
  obtain rfl := h.net_eq
  have hpass : SocketLoop.Freed.pass freed junk (n.get side) p = (n.get side).pass junk p := by
    refine (h.upheld side).freed_pass freed ((hheard.and hwhole).mono ?_)
    rintro a ⟨hexpected, hunbroken⟩ seg hseg hgives
    obtain ⟨seg', hseg', sport, dport, cksum, rfl⟩ := hexpected.datagram seg hseg
    have hlink := (joined_get hjoined side).back
    rw [get_network, get_network] at hlink
    have hlen := short_get hshort side.other
    rw [get_network] at hlen
    -- the ports and the checksum play no part in what is received
    have hwhole' := hunbroken (seg'.addressed sport dport cksum) hseg hgives
    have hreceive : TCPReceiver.Freed.segmentReceived freed (n.get side).socket.tcp.receiver seg'
        = (n.get side).socket.tcp.receiver.segmentReceived seg' :=
      hlink.freed_receive hlen freed hseg' hwhole'
    exact hreceive
  exact congrArg (n.set side) hpass

end

section

variable {junk : Nat → UInt8} {cfgA cfgB : TCPConfig} {isnA isnB : WrappingInt32}
  {n₀ : SocketPair δ}

theorem Freed.exists_network (ha : n₀.a.Opened cfgA isnA) (hb : n₀.b.Opened cfgB isnB)
    {P : SocketPair δ → Side × SocketPass ρ ω → Prop}
    (hheard : ∀ n net op, Simulated junk n net → P n op → n.HearsSent op)
    (freed : Nat × Bytes → Nat × Bytes) {passes : List (Side × SocketPass ρ ω)}
    (hok : Admits (Freed.step freed junk) (fun n op => P n op ∧ n.Conforms op) n₀ passes)
    (hshort : (run (Freed.step freed junk) n₀ passes).network.Short) :
    ∃ ops, Simulated junk (run (Freed.step freed junk) n₀ passes)
        (Network.after junk cfgA cfgB isnA isnB ops) ∧
      Admits (Network.step junk) Network.Retransmits (Network.new cfgA cfgB isnA isnB) ops := by
  refine run_invariant (I := fun n : SocketPair δ => n.network.Short →
      ∃ ops, Simulated junk n (Network.after junk cfgA cfgB isnA isnB ops) ∧
        Admits (Network.step junk) Network.Retransmits (Network.new cfgA cfgB isnA isnB) ops)
    ?_ (fun _ => exists_opening ha hb junk) hok hshort
  rintro n op h ⟨hP, hret, hwhole⟩ hshort
  have hbefore : n.network.Short := Freed.short_of_step hshort
  obtain ⟨ops, hsim, hadmits⟩ := h hbefore
  rw [← hsim.net_eq] at hbefore
  have hjoined := Network.after_joined junk cfgA cfgB isnA isnB ops hadmits hbefore
  have hheard' := hheard n _ op hsim hP
  obtain ⟨ops', hsim', hadmits'⟩ := hsim.step hheard'
  refine ⟨ops ++ ops', ?_, admits_append.mpr ⟨hadmits, hadmits' hret⟩⟩
  rw [hsim.freed_step hjoined hbefore freed hheard' hwhole]
  unfold Network.after
  rw [run_append]
  exact hsim'

end

/-! ## From owner to owner -/

/-- The owner of `y` receives what the owner of `x` wrote, in order; it is told about the end only
after all of it, and `x` considers its stream delivered only when `y` has assembled it. -/
structure Delivers (x y : SocketLoop δ) : Prop where
  received : y.socket.given ++ y.socket.tcp.inboundStream.buf <+: x.socket.accepted
  ended : y.socket.inboundShutdown = true → y.socket.tcp.inboundStream.error = false →
    y.socket.given = x.socket.accepted ∧ x.socket.outboundShutdown = true
  finAcked : x.socket.tcp.sender.finAcked = true →
    y.socket.given ++ y.socket.tcp.inboundStream.buf = x.socket.accepted

theorem delivers_of_link {x y : SocketLoop δ} (hx : x.Relays) (hy : y.Relays)
    (h : Link x.socket.endpoint y.socket.endpoint) : Delivers x y where
  received := (Network.link_inOrder h).received
  ended := by
    intro hshut herror
    have heof : y.socket.tcp.inboundStream.eof = true :=
      (hy.inboundEnd hshut).resolve_right (Bool.eq_false_iff.mp herror)
    have hempty : y.socket.tcp.inboundStream.buf = [] := by
      simp only [ByteStream.eof, Bool.and_eq_true, beq_iff_eq] at heof
      exact List.length_eq_zero_iff.mp (hy.inbound.size_eq.symm.trans heof.1)
    have hend : y.socket.tcp.receiver.streamOut.inputEnded = true := by
      simp only [ByteStream.eof, Bool.and_eq_true] at heof
      exact heof.2
    obtain ⟨hended, hall⟩ := Network.link_ended h hend
    have hall' : y.socket.given ++ y.socket.tcp.inboundStream.buf = x.socket.accepted := hall
    rw [hempty, List.append_nil] at hall'
    exact ⟨hall', hx.outboundEnd.trans hended⟩
  finAcked := fun hfin => (Network.link_ended h (Network.link_finAcked h hfin)).2

/-- What the sockets deliver when their network has come from a run of the calls. -/
theorem Simulated.delivers {junk : Nat → UInt8} {n : SocketPair δ} {cfgA cfgB : TCPConfig}
    {isnA isnB : WrappingInt32} {ops : List (Side × EndpointOp)}
    (h : Simulated junk n (Network.after junk cfgA cfgB isnA isnB ops))
    (hok : Admits (Network.step junk) Network.Retransmits (Network.new cfgA cfgB isnA isnB) ops)
    (hshort : n.network.Short) : Delivers n.a n.b ∧ Delivers n.b n.a := by
  have hjoined := Network.after_joined junk cfgA cfgB isnA isnB ops hok (by
    rw [h.net_eq]
    exact hshort)
  rw [h.net_eq] at hjoined
  have hrelaysA : n.a.Relays := (h.upheld .a).relays
  have hrelaysB : n.b.Relays := (h.upheld .b).relays
  exact ⟨delivers_of_link hrelaysA hrelaysB hjoined.out, delivers_of_link hrelaysB hrelaysA hjoined.back⟩

section

variable (junk : Nat → UInt8) (cfgA cfgB : TCPConfig) (isnA isnB : WrappingInt32)
  (n₀ : SocketPair δ)

/-- **Two sockets are the network of their connections**: whatever is ready when, whatever is lost,
repeated or delivered late, a run of the passes of both loops does what some run of the calls does,
and the timeouts of that run read inside the queue of unacknowledged bytes if those of the passes
do. -/
theorem run_simulates (ha : n₀.a.Opened cfgA isnA) (hb : n₀.b.Opened cfgB isnB)
    (passes : List (Side × SocketPass ρ ω)) (hok : Admits (step junk) HearsPeer n₀ passes) :
    ∃ ops, Network.after junk cfgA cfgB isnA isnB ops = (run (step junk) n₀ passes).network ∧
      (Admits (step junk) Retransmits n₀ passes →
        Admits (Network.step junk) Network.Retransmits (Network.new cfgA cfgB isnA isnB) ops) := by
  obtain ⟨ops, hsim, hret⟩ := exists_network ha hb (fun _ _ _ h hop => h.hearsSent hop) hok
  exact ⟨ops, hsim.net_eq, hret⟩

/-- **Each owner reads from its socket a prefix of what the other one wrote to its own**, and the
whole of it when it has read the end, whatever is read of an erased element, in every run whose
timeouts read inside the queue of unacknowledged bytes and whose segments make the reassemblers write
stored substrings as a whole only. -/
theorem run_delivers (freed : Nat × Bytes → Nat × Bytes) (ha : n₀.a.Opened cfgA isnA)
    (hb : n₀.b.Opened cfgB isnB) (passes : List (Side × SocketPass ρ ω))
    (hok : Admits (Freed.step freed junk) (fun n op => n.HearsPeer op ∧ n.Conforms op) n₀ passes)
    (hshort : (run (Freed.step freed junk) n₀ passes).network.Short) :
    let n := run (Freed.step freed junk) n₀ passes
    Delivers n.a n.b ∧ Delivers n.b n.a := by
  obtain ⟨ops, hsim, hret⟩ :=
    Freed.exists_network ha hb (fun _ _ _ h hop => h.hearsSent hop) freed hok hshort
  exact hsim.delivers hret hshort

end

end

/-! ## A run over UDP -/

/-- The handshake; `a` writes two bytes and the end, and `b` reads them. -/
def twoBytes : List (Side × SocketPass RecvAnswer Answer) :=
  [(.a, readyAt 3 { unasked with segments := fun _ => ⟨20, 0⟩ }),
    (.b, hears [0, 0, 0, 0, 0, 0, 0, 0, 0, 0, 0, 0, 80, 2, 0, 0, 175, 253, 0, 0]),
    (.b, readyAt 3 { unasked with segments := fun _ => ⟨20, 0⟩ }),
    (.a, hears [0, 0, 0, 0, 0, 0, 0, 0, 0, 0, 0, 1, 80, 18, 250, 0, 181, 235, 0, 0]),
    (.a, readyAt 1 { unasked with read := ⟨2, 0, [104, 105]⟩ }),
    (.a, readyAt 1 unasked),
    (.a, readyAt 2 { unasked with segments := fun n => ⟨if n = 1 then 22 else 20, 0⟩ }),
    (.b, hears [0, 0, 0, 0, 0, 0, 0, 1, 0, 0, 0, 1, 80, 16, 250, 0, 77, 131, 0, 0, 104, 105]),
    (.b, hears [0, 0, 0, 0, 0, 0, 0, 3, 0, 0, 0, 1, 80, 17, 250, 0, 181, 233, 0, 0]),
    (.b, readyAt 2 { unasked with write := ⟨2, 0⟩ })]

/-- A socket that connects and one that listens. -/
def overUDP : SocketPair TCPOverUDPSocketAdapter where
  a := SocketLoop.new .connects (TCPConnection.new {} ⟨0⟩).connect (FdAdapter.setConfig {} {})
  b := SocketLoop.listenAndAccept {} ⟨0⟩ {} {}

theorem overUDP_opened : overUDP.a.Opened {} ⟨0⟩ ∧ overUDP.b.Opened {} ⟨0⟩ :=
  ⟨⟨{}, {}, Or.inl (SocketLoop.connect_eq _ _ _ _)⟩, ⟨{}, {}, Or.inr rfl⟩⟩

theorem twoBytes_simulates :
    ∃ ops, Network.after (fun _ => 0) {} {} ⟨0⟩ ⟨0⟩ ops
        = (run (step fun _ => 0) overUDP twoBytes).network ∧
      (Admits (step fun _ => 0) Retransmits overUDP twoBytes →
        Admits (Network.step fun _ => 0) Network.Retransmits (Network.new {} {} ⟨0⟩ ⟨0⟩) ops) :=
  run_simulates (fun _ => 0) {} {} ⟨0⟩ ⟨0⟩ overUDP overUDP_opened.1 overUDP_opened.2 twoBytes
    (by decide +kernel)

theorem twoBytes_delivers :
    let n := run (Freed.step (fun _ => (0, [])) fun _ => 0) overUDP twoBytes
    n.b.socket.given = [104, 105] ∧ n.b.socket.inboundShutdown = true ∧
      Delivers n.a n.b ∧ Delivers n.b n.a :=
  ⟨by decide +kernel, by decide +kernel,
    run_delivers (fun _ => 0) {} {} ⟨0⟩ ⟨0⟩ overUDP (fun _ => (0, [])) overUDP_opened.1
      overUDP_opened.2 twoBytes (by decide +kernel) (by decide +kernel)⟩

end SocketPair

end Sponge
