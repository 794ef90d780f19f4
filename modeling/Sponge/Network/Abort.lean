import Sponge.Connection.Abort
import Sponge.Network.Delivery

set_option autoImplicit false

/-! # The RST of a connection that gives up, on the network

The RST takes the sequence number at the head of the queue of the connection that gives up, and
the peer accepts it only at its own acknowledgment number. So the peer is reset exactly if it
waits for the segment whose timeouts made the connection give up (`run_abort_iff`). -/

namespace Sponge

open Run

namespace Endpoint

/-- What every call of a connection preserves, every step of an endpoint preserves. -/
theorem step_rule {I : TCPConnection → Prop} (junk : Nat → UInt8)
    (hstep : ∀ c op, I c → I (TCPConnection.step junk c op)) (segs : List TCPSegment)
    {x : Endpoint} (h : I x.conn) (op : EndpointOp) : I (x.step junk segs op).conn := by
  cases op with
  | connect => exact hstep _ .connect h
  | write data => exact hstep _ (.write data) h
  | endInputStream => exact hstep _ .endInputStream h
  | tick ms => exact hstep _ (.tick ms) h
  | readInbound len => exact hstep _ (.readInbound len) h
  | popSegment => exact hstep _ .popSegment h
  | deliver i =>
      simp only [Endpoint.step]
      split
      · exact hstep _ (.segmentReceived _) h
      · exact h

end Endpoint

namespace Network

section

variable (junk : Nat → UInt8) (cfgA cfgB : TCPConfig) (isnA isnB : WrappingInt32)

theorem after_trying (ops : List (Side × EndpointOp)) :
    (after junk cfgA cfgB isnA isnB ops).a.conn.active = true →
      (after junk cfgA cfgB isnA isnB ops).a.conn.Trying := by
  refine run_invariant' (I := fun n : Network => n.a.conn.active = true → n.a.conn.Trying)
    (fun n op h => ?_) (fun _ => Watched.run_trying junk cfgA isnA [] rfl) ops
  obtain ⟨side, op⟩ := op
  cases side with
  | a =>
      exact Endpoint.step_rule (I := fun c => c.active = true → c.Trying) junk
        (fun c op' h' => TCPConnection.Trying.step h' junk op') n.b.sent h op
  | b => exact h

/-- **When the peer learns of an abort.** In every run in which `a` gives up, whatever was lost,
repeated or reordered before, its queue holds exactly one segment, a RST. Delivered at any later
time, to a peer that is active and has the SYN, this RST resets the peer exactly if the peer's
acknowledgment number is the sequence number at the head of what `a` had to send. -/
theorem run_abort_iff (before : List (Side × EndpointOp)) (ms : UInt64) (n n' : Network)
    (hn : n = after junk cfgA cfgB isnA isnB before) (hn' : n' = n.step junk (.a, .tick ms))
    (hgives : n.a.conn.GivesUp junk ms) :
    ∃ rst, n'.a.conn.segmentsOut = [rst] ∧ rst.header.rst = true ∧
      ∀ later i m b, m = run (step junk) n' later → m.a.sent[i]? = some rst →
        m.b.conn.active = true → m.b.conn.receiver.synRecv = true →
        b = (m.step junk (.b, .deliver i)).b.conn →
        ((b.active = false ∧ b.Failed) ↔ m.b.conn.receiver.ackno = some n.a.conn.abortSeqno) := by
  have htrying : n.a.conn.Trying := by
    rw [hn] at hgives ⊢
    exact after_trying junk cfgA cfgB isnA isnB before hgives.1
  refine ⟨TCPConnection.rstSeg n.a.conn.abortSeqno, ?_, rfl, ?_⟩
  · rw [hn']
    exact TCPConnection.tick_segmentsOut_of_givesUp htrying hgives
  · intro later i m b hm hsent hactive hsyn hb
    have hdeliver : b = m.b.conn.segmentReceived (TCPConnection.rstSeg n.a.conn.abortSeqno) := by
      rw [hb]
      simp only [step, Endpoint.step, hsent]
    rw [hdeliver]
    exact TCPConnection.rstSeg_resets_iff hactive hsyn

end

/-- The handshake, and one byte from `a`. -/
def oneByte : List (Side × EndpointOp) :=
  [(.a, .connect), (.a, .popSegment), (.b, .deliver 0), (.b, .popSegment),
    (.a, .deliver 0), (.a, .popSegment), (.b, .deliver 1),
    (.a, .write [97]), (.a, .popSegment)]

/-- Eight timeouts of `a`, the attempts that it has. -/
def eightTimeouts : List (Side × EndpointOp) :=
  ((List.range TCPConfig.maxRetxAttempts).map fun j =>
    [(.a, .tick (UInt64.ofNat (1000 * 2 ^ j))), (.a, .popSegment)]).flatten

/-- The byte never arrives: `b` still waits for it, and accepts the RST. -/
theorem lostByte_abort :
    let n := after (fun _ => 0) {} {} ⟨0⟩ ⟨0⟩ (oneByte ++ eightTimeouts)
    let n' := n.step (fun _ => 0) (.a, .tick 256000)
    let m := run (step fun _ => 0) n' [(.a, .popSegment)]
    let b := (m.step (fun _ => 0) (.b, .deliver 11)).b.conn
    n.a.conn.GivesUp (fun _ => 0) 256000 ∧ m.b.conn.active = true ∧ b.active = false ∧ b.Failed := by
  intro n n' m b
  have hgives : n.a.conn.GivesUp (fun _ => 0) 256000 := by decide +kernel
  have hactive : m.b.conn.active = true := by decide +kernel
  obtain ⟨rst, hout, -, hiff⟩ :=
    run_abort_iff (fun _ => 0) {} {} ⟨0⟩ ⟨0⟩ (oneByte ++ eightTimeouts) 256000 n n' rfl rfl hgives
  have hsent : m.a.sent[11]? = n'.a.conn.segmentsOut.head? := by decide +kernel
  rw [hout] at hsent
  exact ⟨hgives, hactive, (hiff [(.a, .popSegment)] 11 m b rfl hsent hactive (by decide +kernel)
    rfl).mpr (by decide +kernel)⟩

/-- **A RST that is taken for an old segment.** The byte arrives and its acknowledgments are
lost. The RST repeats the sequence number of the byte, which `b` is already past. -/
theorem lostAcks_not_abort :
    let n := after (fun _ => 0) {} {} ⟨0⟩ ⟨0⟩ (oneByte ++ (.b, .deliver 2) :: eightTimeouts)
    let n' := n.step (fun _ => 0) (.a, .tick 256000)
    let m := run (step fun _ => 0) n' [(.a, .popSegment)]
    let b := (m.step (fun _ => 0) (.b, .deliver 11)).b.conn
    n.a.conn.GivesUp (fun _ => 0) 256000 ∧
      n'.a.conn.segmentsOut = [{ header := { seqno := ⟨1⟩, rst := true } }] ∧
      m.a.sent[11]? = some { header := { seqno := ⟨1⟩, rst := true } } ∧
      m.b.conn.active = true ∧ m.b.conn.receiver.ackno = some ⟨2⟩ ∧
      b.active = true ∧ ¬b.Failed := by
  decide +kernel

end Network

end Sponge
