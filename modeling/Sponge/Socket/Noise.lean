import Sponge.Adapter.Damage
import Sponge.Socket.Pair

set_option autoImplicit false

/-! # Two sockets and a noisy network

The network between the two sockets may also damage the datagrams, each time one of them arrives.
The checksums notice a burst, so that a damaged datagram is a lost one, and the owners receive
what was written on the other side as before (`noisyRun_delivers`). -/

namespace Sponge

open Util Util.EventLoop Run Endpoint TCPSpongeSocket SocketLoop

namespace SocketPair

section

variable {δ ρ ω : Type} [FdAdapter δ ρ ω] [LawfulFdAdapter δ] [NoticesDamage δ]

/-- The kernel answers as documented, and a datagram that arrives is one of `wire`, as it was sent or
damaged, or holds no segment. -/
structure HearsNoise (δ : Type) {ρ ω : Type} [FdAdapter δ ρ ω] [LawfulFdAdapter δ] [NoticesDamage δ]
    (wire : List Bytes) (a : SocketAnswers ρ ω) : Prop where
  read : a.read.Documented
  write : a.write.Documented
  datagram : (∃ bytes ∈ wire, LawfulFdAdapter.heard δ a.datagram = bytes ∨
      NoticesDamage.Damages δ bytes (LawfulFdAdapter.heard δ a.datagram)) ∨
    LawfulFdAdapter.segmentIn (δ := δ) (LawfulFdAdapter.heard δ a.datagram) = none

/-- What a socket hears in a pass are datagrams that its peer has sent, damaged or not, or nothing
that holds a segment. -/
def HearsNoisyPeer (n : SocketPair δ) (op : Side × SocketPass ρ ω) : Prop :=
  op.2.poll.All (HearsNoise δ (n.get op.1.other).socket.wire)

section

variable [∀ b b' : Bytes, Decidable (NoticesDamage.Damages δ b b')]

instance (wire : List Bytes) : DecidablePred (HearsNoise δ (ρ := ρ) (ω := ω) wire) := fun a =>
  decidable_of_iff (a.read.Documented ∧ a.write.Documented ∧
      ((∃ bytes ∈ wire, LawfulFdAdapter.heard δ a.datagram = bytes ∨
        NoticesDamage.Damages δ bytes (LawfulFdAdapter.heard δ a.datagram)) ∨
        LawfulFdAdapter.segmentIn (δ := δ) (LawfulFdAdapter.heard δ a.datagram) = none))
    ⟨fun h => ⟨h.1, h.2.1, h.2.2⟩, fun h => ⟨h.read, h.write, h.datagram⟩⟩

instance (n : SocketPair δ) (op : Side × SocketPass ρ ω) : Decidable (n.HearsNoisyPeer op) :=
  inferInstanceAs (Decidable (op.2.poll.All _))

end

/-- Noise adds no segments to what is heard. -/
theorem awaited_of_hearsNoise {wire : List Bytes} {peerSent : List TCPSegment}
    (hwire : ∀ bytes ∈ wire, ∃ seg ∈ peerSent, Holds δ bytes seg)
    {poll : Poll (SocketAnswers ρ ω)} (h : poll.All (HearsNoise δ wire)) :
    SocketLoop.Awaited δ (FromPeer peerSent) poll := by
  refine h.mono fun a ha => ⟨ha.read, ha.write, fun seg hseg => ?_⟩
  rcases ha.datagram with ⟨bytes, hmem, harrives⟩ | hnone
  · obtain ⟨seg', hseg', sport, dport, cksum, hholds⟩ := hwire bytes hmem
    refine ⟨seg', hseg', sport, dport, cksum, ?_⟩
    rcases harrives with rfl | hdamage
    · rw [hholds, Option.mem_some_iff] at hseg
      exact hseg.symm
    · exact NoticesDamage.segmentIn_damaged hholds hdamage seg hseg
  · rw [hnone] at hseg
    cases hseg

theorem Simulated.hearsSent_of_noise {junk : Nat → UInt8} {n : SocketPair δ} {net : Network}
    (h : Simulated junk n net) {op : Side × SocketPass ρ ω} (hop : n.HearsNoisyPeer op) :
    n.HearsSent op :=
  awaited_of_hearsNoise (h.upheld op.1.other).inv.wire hop

/-- **A noisy network delivers what a quiet one does**: every run of two sockets in which datagrams
are lost, repeated, delivered late and damaged is a run of the network of their connections; and each
owner reads a prefix of what the other one wrote, in the runs in which it does so over a quiet
network. -/
theorem noisyRun_delivers (freed : Nat × Bytes → Nat × Bytes) (junk : Nat → UInt8)
    (cfgA cfgB : TCPConfig) (isnA isnB : WrappingInt32) (n₀ : SocketPair δ)
    (ha : n₀.a.Opened cfgA isnA) (hb : n₀.b.Opened cfgB isnB)
    (passes : List (Side × SocketPass ρ ω)) :
    (Admits (step junk) HearsNoisyPeer n₀ passes →
      ∃ ops, Network.after junk cfgA cfgB isnA isnB ops = (run (step junk) n₀ passes).network ∧
        (Admits (step junk) Retransmits n₀ passes → Admits (Network.step junk) Network.Retransmits
          (Network.new cfgA cfgB isnA isnB) ops)) ∧
    (Admits (Freed.step freed junk) (fun n op => n.HearsNoisyPeer op ∧ n.Conforms op) n₀ passes →
      (run (Freed.step freed junk) n₀ passes).network.Short →
      let n := run (Freed.step freed junk) n₀ passes
      Delivers n.a n.b ∧ Delivers n.b n.a) := by
  constructor
  · intro hok
    obtain ⟨ops, hsim, hret⟩ :=
      exists_network ha hb (fun _ _ _ h hop => h.hearsSent_of_noise hop) hok
    exact ⟨ops, hsim.net_eq, hret⟩
  · intro hok hshort
    obtain ⟨ops, hsim, hret⟩ :=
      Freed.exists_network ha hb (fun _ _ _ h hop => h.hearsSent_of_noise hop) freed hok hshort
    exact hsim.delivers hret hshort

end

instance (b b' : Bytes) : Decidable (NoticesDamage.Damages TCPOverUDPSocketAdapter b b') :=
  inferInstanceAs (Decidable (TCPOverUDPSocketAdapter.Damages b b'))

/-- A SYN and a segment with two bytes arrive damaged first: with another port, and with another
letter. -/
def damaged : List (Side × SocketPass RecvAnswer Answer) :=
  [(.a, readyAt 3 { unasked with segments := fun _ => ⟨20, 0⟩ }),
    (.b, hears [0, 1, 0, 0, 0, 0, 0, 0, 0, 0, 0, 0, 80, 2, 0, 0, 175, 253, 0, 0]),
    (.b, hears [0, 0, 0, 0, 0, 0, 0, 0, 0, 0, 0, 0, 80, 2, 0, 0, 175, 253, 0, 0]),
    (.b, readyAt 3 { unasked with segments := fun _ => ⟨20, 0⟩ }),
    (.a, hears [0, 0, 0, 0, 0, 0, 0, 0, 0, 0, 0, 1, 80, 18, 250, 0, 181, 235, 0, 0]),
    (.a, readyAt 1 { unasked with read := ⟨2, 0, [104, 105]⟩ }),
    (.a, readyAt 1 unasked),
    (.a, readyAt 2 { unasked with segments := fun n => ⟨if n = 1 then 22 else 20, 0⟩ }),
    (.b, hears [0, 0, 0, 0, 0, 0, 0, 1, 0, 0, 0, 1, 80, 16, 250, 0, 77, 131, 0, 0, 104, 111]),
    (.b, hears [0, 0, 0, 0, 0, 0, 0, 1, 0, 0, 0, 1, 80, 16, 250, 0, 77, 131, 0, 0, 104, 105]),
    (.b, hears [0, 0, 0, 0, 0, 0, 0, 3, 0, 0, 0, 1, 80, 17, 250, 0, 181, 233, 0, 0]),
    (.b, readyAt 2 { unasked with write := ⟨2, 0⟩ })]

theorem damaged_delivers :
    (∃ ops, Network.after (fun _ => 0) {} {} ⟨0⟩ ⟨0⟩ ops
        = (run (step fun _ => 0) overUDP damaged).network ∧
      (Admits (step fun _ => 0) Retransmits overUDP damaged →
        Admits (Network.step fun _ => 0) Network.Retransmits (Network.new {} {} ⟨0⟩ ⟨0⟩) ops)) ∧
    let n := run (Freed.step (fun _ => (0, [])) fun _ => 0) overUDP damaged
    n.b.socket.given = [104, 105] ∧ Delivers n.a n.b ∧ Delivers n.b n.a := by
  have hnoisy := noisyRun_delivers (fun _ => (0, [])) (fun _ => 0) {} {} ⟨0⟩ ⟨0⟩ overUDP
    overUDP_opened.1 overUDP_opened.2 damaged
  exact ⟨hnoisy.1 (by decide +kernel), by decide +kernel,
    hnoisy.2 (by decide +kernel) (by decide +kernel)⟩

end SocketPair

end Sponge
