import Sponge.Adapter.Lawful

set_option autoImplicit false

/-! # One peer over UDP

Anybody may send datagrams to a UDP socket. What an adapter returns over any sequence of reads is
what one peer has sent, and nobody else has any influence on it (`transcript_eq`): that peer is the
destination it was given, or, if it listens, the sender of the first SYN. Random loss takes
segments away, and changes nothing about whose they are (`lossy_transcript`). -/

namespace Sponge

open Util Run

/-- What a read returns, if nothing is thrown, and the adapter after it. -/
def FdAdapter.returned {δ ρ ω : Type} [FdAdapter δ ρ ω] (d : δ) (a : ρ) : Option TCPSegment :=
  match FdAdapter.read d a with
  | .error _ => none
  | .ok r => r.1

def FdAdapter.afterRead {δ ρ ω : Type} [FdAdapter δ ρ ω] (d : δ) (a : ρ) : δ :=
  match FdAdapter.read d a with
  | .error _ => d
  | .ok r => r.2

/-- The segments that a sequence of reads returns. -/
def FdAdapter.transcript {δ ρ ω : Type} [FdAdapter δ ρ ω] : δ → List ρ → List TCPSegment
  | _, [] => []
  | d, a :: reads => (FdAdapter.returned d a).toList ++ transcript (FdAdapter.afterRead d a) reads

open FdAdapter

namespace TCPOverUDPSocketAdapter

/-- The segment that has arrived. -/
def segment (a : RecvAnswer) : Option TCPSegment :=
  match UDPSocket.recv {} a 65536 with
  | .error _ => none
  | .ok r => segmentIn r.1.payload

/-- The segment with which a datagram opens a connection. -/
def opening (a : RecvAnswer) : Option TCPSegment :=
  (segment a).filter fun seg => seg.header.syn && !seg.header.rst

/-- What the peer has sent, of all that arrives. -/
def fromPeer (peer : Address) (reads : List RecvAnswer) : List TCPSegment :=
  (reads.filter fun a => a.source == peer).filterMap segment

section

variable {d : TCPOverUDPSocketAdapter} {a : RecvAnswer}

theorem recv_eq (sock : FDWrapper) (a : RecvAnswer) (mtu : Nat) :
    UDPSocket.recv sock a mtu = (UDPSocket.recv {} a mtu).map fun r => (r.1, sock.registerRead) := by
  unfold UDPSocket.recv
  cases systemCall "recvfrom" (toInt a.value) a.errno 0 with
  | error e => rfl
  | ok recvLen =>
      simp only [bind, Except.bind]
      split_ifs
      · rfl
      · rfl

theorem recv_source {sock : FDWrapper} {mtu : Nat} {r : ReceivedDatagram × FDWrapper}
    (h : UDPSocket.recv sock a mtu = .ok r) : r.1.sourceAddress = a.source := by
  obtain ⟨datagram, sock'⟩ := r
  rw [(UDPSocket.recv_ok h).1]

/-- A connected adapter returns what its destination sends. -/
theorem read_of_connected (h : d.listen = false) :
    returned d a = (if a.source = d.cfg.destination then segment a else none) ∧
      (afterRead d a).cfg = d.cfg ∧ (afterRead d a).listen = false := by
  unfold returned afterRead
  rw [show FdAdapter.read d a = d.read a from rfl]
  unfold read segment segmentIn
  rw [recv_eq]
  cases hrecv : UDPSocket.recv {} a 65536 with
  | error e => simp [Except.map, bind, Except.bind, h]
  | ok r =>
      have hsource := recv_source hrecv
      simp only [Except.map, bind, Except.bind, pure, Except.pure, h, hsource]
      generalize TCPSegment.parse {} r.1.payload 0 = parsed
      by_cases hours : a.source = d.cfg.destination
      · by_cases hresult : parsed.2 = .noError
        · simp [hours, hresult]
        · simp [hours, hresult]
      · simp [hours]

/-- A listening adapter waits for an opening, and takes its sender for the destination. -/
theorem read_of_listening (h : d.listen = true) :
    returned d a = opening a ∧
      (afterRead d a).listen = (opening a).isNone ∧
      (afterRead d a).cfg = (opening a).elim d.cfg
        fun _ => { d.cfg with destination := a.source } := by
  unfold returned afterRead
  rw [show FdAdapter.read d a = d.read a from rfl]
  unfold read opening segment segmentIn
  rw [recv_eq]
  cases hrecv : UDPSocket.recv {} a 65536 with
  | error e => simp [Except.map, bind, Except.bind, h]
  | ok r =>
      have hsource := recv_source hrecv
      simp only [Except.map, bind, Except.bind, pure, Except.pure, h, hsource]
      generalize TCPSegment.parse {} r.1.payload 0 = parsed
      by_cases hresult : parsed.2 = .noError
      · cases hsyn : parsed.1.header.syn <;> cases hrst : parsed.1.header.rst <;>
          simp [hresult, hsyn, hrst, Option.filter]
      · simp [hresult]

/-- **A connected adapter hears its destination only.** -/
theorem transcript_of_connected (h : d.listen = false) (reads : List RecvAnswer) :
    transcript d reads = fromPeer d.cfg.destination reads ∧
      (run afterRead d reads).cfg = d.cfg ∧ (run afterRead d reads).listen = false := by
  induction reads generalizing d with
  | nil => exact ⟨rfl, rfl, h⟩
  | cons a reads ih =>
      obtain ⟨hret, hcfg, hlisten⟩ := read_of_connected (a := a) h
      obtain ⟨htranscript, hcfg', hlisten'⟩ := ih hlisten
      rw [hcfg] at htranscript hcfg'
      refine ⟨?_, hcfg', hlisten'⟩
      rw [transcript, hret, htranscript]
      unfold fromPeer
      rw [List.filter_cons]
      by_cases hours : a.source = d.cfg.destination
      · rw [if_pos hours, if_pos (beq_iff_eq.mpr hours), List.filterMap_cons]
        cases segment a <;> rfl
      · rw [if_neg hours, if_neg (fun heq => hours (beq_iff_eq.mp heq))]
        rfl

/-- A listening adapter ignores what opens no connection. -/
theorem transcript_of_no_opening (h : d.listen = true) {reads : List RecvAnswer}
    (hreads : ∀ a ∈ reads, opening a = none) :
    transcript d reads = [] ∧ (run afterRead d reads).cfg = d.cfg ∧
      (run afterRead d reads).listen = true := by
  induction reads generalizing d with
  | nil => exact ⟨rfl, rfl, h⟩
  | cons a reads ih =>
      obtain ⟨hnone, hrest⟩ := List.forall_mem_cons.mp hreads
      obtain ⟨hret, hlisten, hcfg⟩ := read_of_listening (a := a) h
      rw [hnone] at hret hlisten hcfg
      obtain ⟨htranscript, hcfg', hlisten'⟩ := ih hlisten hrest
      rw [hcfg] at hcfg'
      refine ⟨?_, hcfg', hlisten'⟩
      rw [transcript, hret, htranscript]
      rfl

/-- From the first opening on, what its sender has sent is returned. -/
theorem transcript_of_opening (h : d.listen = true) {before after : List RecvAnswer}
    (hbefore : ∀ b ∈ before, opening b = none) {seg : TCPSegment} (hopening : opening a = some seg) :
    transcript d (before ++ a :: after) = fromPeer a.source (a :: after) ∧
      (run afterRead d (before ++ a :: after)).cfg = { d.cfg with destination := a.source } ∧
      (run afterRead d (before ++ a :: after)).listen = false := by
  have hsegment : segment a = some seg := (Option.filter_eq_some_iff.mp hopening).1
  induction before generalizing d with
  | nil =>
      obtain ⟨hret, hlisten, hcfg⟩ := read_of_listening (a := a) h
      rw [hopening] at hret hlisten hcfg
      obtain ⟨htranscript, hcfg', hlisten'⟩ := transcript_of_connected hlisten after
      rw [hcfg] at htranscript hcfg'
      refine ⟨?_, hcfg', hlisten'⟩
      rw [List.nil_append, transcript, hret, htranscript]
      have hfirst : (a :: after).filter (fun b => b.source == a.source)
          = a :: after.filter (fun b => b.source == a.source) :=
        List.filter_cons_of_pos (beq_self_eq_true a.source)
      unfold fromPeer
      rw [hfirst, List.filterMap_cons, hsegment]
      rfl
  | cons b before ih =>
      obtain ⟨hnone, hrest⟩ := List.forall_mem_cons.mp hbefore
      obtain ⟨hret, hlisten, hcfg⟩ := read_of_listening (a := b) h
      rw [hnone] at hret hlisten hcfg
      obtain ⟨htranscript, hcfg', hlisten'⟩ := ih hlisten hrest
      rw [hcfg] at hcfg'
      refine ⟨?_, hcfg', hlisten'⟩
      rw [List.cons_append, transcript, hret, htranscript]
      rfl

end

end TCPOverUDPSocketAdapter

namespace LossyFdAdapter

variable {δ ρ ω : Type} [FdAdapter δ ρ ω]

/-- Loss does not change what the underlying adapter does. -/
theorem returned_of_lossy (d : LossyFdAdapter δ) (a : UInt16 × ρ) :
    (afterRead d a).adapter = afterRead d.adapter a.2 ∧
      (returned d a = none ∨ returned d a = returned d.adapter a.2) := by
  unfold afterRead returned
  rw [show FdAdapter.read d a = d.read a from rfl]
  unfold read
  cases FdAdapter.read d.adapter a.2 with
  | error e => exact ⟨rfl, Or.inl rfl⟩
  | ok r =>
      simp only [bind, Except.bind, pure, Except.pure]
      split_ifs
      · exact ⟨rfl, Or.inl rfl⟩
      · exact ⟨rfl, Or.inr rfl⟩

theorem transcript_sublist (d : LossyFdAdapter δ) (reads : List (UInt16 × ρ)) :
    (run afterRead d reads).adapter = run afterRead d.adapter (reads.map Prod.snd) ∧
      (transcript d reads).Sublist (transcript d.adapter (reads.map Prod.snd)) := by
  induction reads generalizing d with
  | nil => exact ⟨rfl, List.Sublist.slnil⟩
  | cons a reads ih =>
      obtain ⟨hadapter, hret⟩ := returned_of_lossy d a
      obtain ⟨hrun, hsublist⟩ := ih (afterRead d a)
      rw [hadapter] at hrun hsublist
      refine ⟨hrun, ?_⟩
      rw [List.map_cons, transcript, transcript]
      apply List.Sublist.append _ hsublist
      rcases hret with hnone | hsame
      · rw [hnone]
        exact List.nil_sublist _
      · rw [hsame]

end LossyFdAdapter

namespace TCPOverUDPSocketAdapter

/-- **An adapter returns what one peer has sent**, over any sequence of reads, whoever else sends:
the peer is the destination of a connected adapter and the sender of the first opening for one that
listens, which returns nothing before and goes on listening with its configuration. With random loss
the adapter goes the same way, and what it returns is a part of that, in the same order. -/
theorem run_hearsPeer (d : TCPOverUDPSocketAdapter) (reads : List (UInt16 × RecvAnswer)) :
    let heard := reads.map Prod.snd
    let lossy : LossyFdAdapter TCPOverUDPSocketAdapter := { adapter := d }
    (d.listen = false → transcript d heard = fromPeer d.cfg.destination heard ∧
      (run afterRead d heard).cfg = d.cfg) ∧
    (d.listen = true → (∀ a ∈ heard, opening a = none) →
      transcript d heard = [] ∧ (run afterRead d heard).cfg = d.cfg ∧
        (run afterRead d heard).listen = true) ∧
    (d.listen = true → ∀ before a after, heard = before ++ a :: after →
      (∀ b ∈ before, opening b = none) → opening a ≠ none →
      transcript d heard = fromPeer a.source (a :: after) ∧
        (run afterRead d heard).cfg = { d.cfg with destination := a.source } ∧
        (run afterRead d heard).listen = false) ∧
    (run afterRead lossy reads).adapter = run afterRead d heard ∧
    (transcript lossy reads).Sublist (transcript d heard) := by
  intro heard lossy
  obtain ⟨hadapter, hsublist⟩ := LossyFdAdapter.transcript_sublist lossy reads
  refine ⟨fun h => ?_, fun h hnone => transcript_of_no_opening h hnone, ?_, hadapter, hsublist⟩
  · obtain ⟨htranscript, hcfg, -⟩ := transcript_of_connected h heard
    exact ⟨htranscript, hcfg⟩
  · intro h before a after hreads hbefore hopening
    obtain ⟨seg, hseg⟩ := Option.ne_none_iff_exists'.mp hopening
    rw [hreads]
    exact transcript_of_opening h hbefore hseg

/-- A datagram with the segment in `data`. -/
def datagram (source : Address) (data : Bytes) : UInt16 × RecvAnswer :=
  (0, { value := data.length, data, source })

/-- A stranger sends a byte, a peer opens a connection, and then both send the same byte. -/
theorem strangers_hearsPeer :
    let syn : Bytes := [0, 0, 0, 0, 0, 0, 0, 0, 0, 0, 0, 0, 80, 2, 0, 0, 175, 253, 0, 0]
    let byte : Bytes := [0, 0, 0, 0, 0, 0, 0, 1, 0, 0, 0, 1, 80, 16, 250, 0, 84, 236, 0, 0, 0x61]
    let reads := [datagram ⟨7, 9⟩ byte, datagram ⟨1, 80⟩ syn, datagram ⟨7, 9⟩ byte,
      datagram ⟨1, 80⟩ byte]
    let d : TCPOverUDPSocketAdapter := { listen := true }
    transcript d (reads.map Prod.snd)
        = fromPeer ⟨1, 80⟩ ((reads.drop 1).map Prod.snd) ∧
      (transcript d (reads.map Prod.snd)).map TCPSegment.payload = [[], [0x61]] := by
  intro syn byte reads d
  have hpeer := ((run_hearsPeer d reads).2.2.1 rfl [(datagram ⟨7, 9⟩ byte).2]
    (datagram ⟨1, 80⟩ syn).2 [(datagram ⟨7, 9⟩ byte).2, (datagram ⟨1, 80⟩ byte).2] rfl
    (by decide +kernel) (by decide +kernel)).1
  exact ⟨hpeer, by decide +kernel⟩

end TCPOverUDPSocketAdapter

end Sponge
