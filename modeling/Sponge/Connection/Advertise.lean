import Sponge.Connection.Flags
import Sponge.Receiver.Machine

set_option autoImplicit false

/-! # The advertised window

Every segment that a call puts into the outgoing queue has passed through `updateOutput`, with
the receiver as it is at the end of the call (`step_adds`). The window size it carries is
therefore that of the receiver, cut to 16 bits: it is the minimum with 65535 only while the
window is that small, or happens to be 65535 modulo `2 ^ 16`. -/

namespace Sponge

open Word Run

namespace TCPConnection

/-- The outgoing queue is `kept`, or nothing, followed by segments that were given the
acknowledgment and window of the receiver. -/
def Adds (kept : List TCPSegment) (c : TCPConnection) : Prop :=
  ∃ old, ∃ new : List TCPSegment,
    c.segmentsOut = old ++ new.map (withAck c.receiver) ∧ (old = kept ∨ old = [])

section

variable {kept : List TCPSegment} {c : TCPConnection}

theorem adds_of_eq (h : c.segmentsOut = kept) : Adds kept c :=
  ⟨kept, [], by simpa using h, Or.inl rfl⟩

theorem Adds.updateOutput (h : Adds kept c) : Adds kept c.updateOutput := by
  obtain ⟨old, new, hout, hold⟩ := h
  refine ⟨old, new ++ c.sender.segmentsOut, ?_, hold⟩
  show c.segmentsOut ++ c.sender.segmentsOut.map (withAck c.receiver)
    = old ++ (new ++ c.sender.segmentsOut).map (withAck c.receiver)
  rw [hout, List.map_append, List.append_assoc]

theorem stable_adds (kept : List TCPSegment) : Stable (Adds kept) where
  flags := fun _ _ _ _ _ h => h
  fillWindow := fun _ h => h
  sendEmptySegment := fun _ h => h
  updateOutput := fun _ h => h.updateOutput
  uncleanShutdown := fun _ h => h

/-- The RST replaces what was queued. -/
theorem Adds.sendRSTSeg (h : Adds kept c) : Adds kept c.sendRSTSeg := by
  unfold TCPConnection.sendRSTSeg
  split
  · exact ⟨[], _, rfl, Or.inr rfl⟩
  · exact Adds.updateOutput h

/-- What a call adds to the outgoing queue has passed through `updateOutput` with the receiver
that the call leaves. -/
theorem step_adds (junk : Nat → UInt8) (c : TCPConnection) (op : ConnectionOp) :
    Adds c.segmentsOut (c.step junk op) ∨ Adds c.segmentsOut.tail (c.step junk op) := by
  have hst := stable_adds c.segmentsOut
  have h : Adds c.segmentsOut c := adds_of_eq rfl
  cases op with
  | connect => exact Or.inl (hst.fill h)
  | write data =>
      left
      show Adds c.segmentsOut (c.write data).1
      unfold TCPConnection.write
      split_ifs
      · exact h
      · exact hst.fill (c := c.onSender _) h
  | endInputStream => exact Or.inl (hst.fill (c := c.onSender _) h)
  | tick ms => exact Or.inl (tick_rule hst (fun _ h' _ => h') (fun _ => Adds.sendRSTSeg) h)
  | segmentReceived seg =>
      exact Or.inl (segmentReceived_rule hst (fun _ => adds_of_eq rfl) (fun _ _ h' _ => h') h)
  | readInbound len => exact Or.inl (adds_of_eq rfl)
  | popSegment => exact Or.inr (adds_of_eq rfl)

/-- The window of a segment that has passed through `updateOutput`. -/
theorem withAck_win {r : TCPReceiver} (hsyn : r.synRecv = true) {seg : TCPSegment}
    (hrst : (withAck r seg).header.rst = false) :
    (withAck r seg).header.win.toNat = r.windowSize % 2 ^ 16 := by
  have hackno : r.ackno = some r.lastAckno := if_pos hsyn
  unfold withAck at hrst ⊢
  rw [hackno] at hrst ⊢
  by_cases hseg : seg.header.rst = true
  · simp [hseg] at hrst
  · simp [hseg]

end

/-- **The advertised window.** Whatever segments without RST a call puts into the outgoing
queue after a SYN was received carry the minimum of the window size and 65535 exactly if the
window size is at most 65535 or is 65535 modulo `2 ^ 16`. -/
theorem win_eq_min_iff (junk : Nat → UInt8) (cfg : TCPConfig) (isn : WrappingInt32)
    (ops : List ConnectionOp) (op : ConnectionOp) :
    let c := after junk cfg isn ops
    let c' := c.step junk op
    ∃ old new, c'.segmentsOut = old ++ new ∧
      (old = c.segmentsOut ∨ old = c.segmentsOut.tail ∨ old = []) ∧
      (c'.receiver.synRecv = true → ∀ seg ∈ new, seg.header.rst = false →
        (seg.header.win.toNat = min c'.receiver.windowSize 65535 ↔
          c'.receiver.windowSize ≤ 65535 ∨ c'.receiver.windowSize % 2 ^ 16 = 65535)) := by
  intro c c'
  have hwin : c'.receiver.synRecv = true → ∀ seg : TCPSegment,
      (withAck c'.receiver seg).header.rst = false →
      ((withAck c'.receiver seg).header.win.toNat = min c'.receiver.windowSize 65535 ↔
        c'.receiver.windowSize ≤ 65535 ∨ c'.receiver.windowSize % 2 ^ 16 = 65535) := by
    intro hsyn seg hrst
    rw [withAck_win hsyn hrst]
    omega
  -- the new segments have all gone through `withAck`
  rcases step_adds junk c op with ⟨old, new, hout, hold⟩ | ⟨old, new, hout, hold⟩
  · refine ⟨old, new.map (withAck c'.receiver), hout, by tauto, ?_⟩
    intro hsyn seg hseg hrst
    obtain ⟨seg₀, -, rfl⟩ := List.mem_map.mp hseg
    exact hwin hsyn seg₀ hrst
  · refine ⟨old, new.map (withAck c'.receiver), hout, by tauto, ?_⟩
    intro hsyn seg hseg hrst
    obtain ⟨seg₀, -, rfl⟩ := List.mem_map.mp hseg
    exact hwin hsyn seg₀ hrst

/-- The answer to a SYN from a connection with the default capacity. -/
theorem synReply_win :
    let c := after (fun _ => 0) {} ⟨0⟩ []
    let c' := c.step (fun _ => 0) (.segmentReceived { header := { syn := true } })
    c'.receiver.synRecv = true ∧ ∃ old new, c'.segmentsOut = old ++ new ∧
      (old = c.segmentsOut ∨ old = c.segmentsOut.tail ∨ old = []) ∧
      ∀ seg ∈ new, seg.header.rst = false →
        (seg.header.win.toNat = min c'.receiver.windowSize 65535 ↔
          c'.receiver.windowSize ≤ 65535 ∨ c'.receiver.windowSize % 2 ^ 16 = 65535) := by
  intro c c'
  have hsyn : c'.receiver.synRecv = true := by decide +kernel
  obtain ⟨old, new, hout, hold, hwin⟩ := win_eq_min_iff (fun _ => 0) {} ⟨0⟩ []
    (.segmentReceived { header := { syn := true } })
  exact ⟨hsyn, old, new, hout, hold, hwin hsyn⟩

/-- A connection with room for 65536 bytes advertises none. -/
theorem synReply_win_zero :
    let c := after (fun _ => 0) { recvCapacity := 65536 } ⟨0⟩
      [.segmentReceived { header := { syn := true } }]
    c.receiver.windowSize = 65536 ∧ c.segmentsOut.length = 1 ∧
      ∀ seg ∈ c.segmentsOut, seg.header.rst = false ∧ seg.header.win = 0 ∧
        seg.header.win.toNat ≠ min c.receiver.windowSize 65535 := by
  decide +kernel

end TCPConnection

end Sponge
