import Sponge.Connection.Machine

set_option autoImplicit false

/-! # Segments without options

Every segment that a connection sends has a header of the smallest length and at most the maximal
payload, also when it is repeated from the queue. This is what the adapters can put into a datagram.
The ports and the checksum that they put into it mean nothing to the connection. -/

namespace Sponge

namespace TCPSegment

/-- A segment without options, and with at most the maximal payload. -/
structure Plain (seg : TCPSegment) : Prop where
  doff_eq : seg.header.doff = 5
  payload_le : seg.payload.length ≤ TCPConfig.maxPayloadSize

theorem plain_of_header {h : TCPHeader} (hdoff : h.doff = 5) : Plain { header := h } :=
  ⟨hdoff, Nat.zero_le _⟩

/-- The segment with the ports and the checksum that it has on the wire. -/
def addressed (seg : TCPSegment) (sport dport cksum : UInt16) : TCPSegment :=
  { seg with header := { seg.header with sport, dport, cksum } }

end TCPSegment

open TCPSegment

/-! ## The sender -/

namespace UnAckQueue

/-- No segment that was sent is larger than the maximal payload. -/
def Sizes (q : UnAckQueue) : Prop := ∀ n ∈ q.unAckedPayloadSize, n ≤ TCPConfig.maxPayloadSize

theorem eraseLoop_le {bound : Nat} (ackno : Nat) (sizes passed : List Nat) (base bytesToErase : Nat)
    (hpassed : ∀ n ∈ passed, n ≤ bound) (hsizes : ∀ n ∈ sizes, n ≤ bound) :
    ∀ n ∈ (eraseLoop ackno passed sizes base bytesToErase).1, n ≤ bound := by
  induction sizes generalizing passed base bytesToErase with
  | nil => exact hpassed
  | cons size rest ih =>
      obtain ⟨hsize, hrest⟩ := List.forall_mem_cons.mp hsizes
      unfold eraseLoop
      dsimp only
      split_ifs with heq hlt
      · exact hrest
      · refine ih (passed ++ [size]) _ _ ?_ hrest
        intro n hn
        rw [List.mem_append, List.mem_singleton] at hn
        rcases hn with hn | rfl
        · exact hpassed n hn
        · exact hsize
      · intro n hn
        rw [List.mem_append, List.mem_cons] at hn
        rcases hn with hn | rfl | hn
        · exact hpassed n hn
        · exact (Nat.sub_le _ _).trans hsize
        · exact hrest n hn

theorem Sizes.erase {q : UnAckQueue} (h : q.Sizes) (ackno : Nat) : (q.erase ackno).Sizes := by
  unfold UnAckQueue.erase
  split_ifs
  · exact fun n hn => absurd hn List.not_mem_nil
  · exact eraseLoop_le ackno q.unAckedPayloadSize [] q.baseSqn 0
      (fun n hn => absurd hn List.not_mem_nil) h

theorem Sizes.updateBase {q : UnAckQueue} (h : q.Sizes) (ackno : Nat) :
    (q.updateBase ackno).Sizes := by
  have h' : ({ q with finAcked := true } : UnAckQueue).Sizes := h
  unfold UnAckQueue.updateBase
  dsimp only
  split_ifs
  · exact h
  · exact h
  · exact h
  · exact h'.erase ackno
  · exact h
  · exact h.erase ackno

/-- The segment at the front has the size of the first one that was sent. -/
theorem Sizes.frontSeg {q : UnAckQueue} (h : q.Sizes) (junk : Nat → UInt8) (isn : WrappingInt32) :
    (q.frontSeg junk isn).Plain := by
  refine ⟨rfl, ?_⟩
  show (readFront junk q.unAcked (q.unAckedPayloadSize.headD 0)).length ≤ _
  have hfront : q.unAckedPayloadSize.headD 0 ≤ TCPConfig.maxPayloadSize := by
    cases hsizes : q.unAckedPayloadSize with
    | nil => exact Nat.zero_le _
    | cons n rest => exact h n (by rw [hsizes]; exact List.mem_cons_self)
  unfold readFront
  rw [List.length_append, List.length_take, List.length_map, List.length_range]
  omega

end UnAckQueue

namespace TCPSender

/-- What the sender wants sent, and what it may want to repeat. -/
structure PlainOut (s : TCPSender) : Prop where
  segments : ∀ seg ∈ s.segmentsOut, seg.Plain
  sizes : s.unAckQueue.Sizes

section

variable {s : TCPSender}

theorem PlainOut.snoc (h : s.PlainOut) {seg : TCPSegment} (hseg : seg.Plain) :
    ∀ seg' ∈ s.segmentsOut ++ [seg], seg'.Plain := by
  intro seg' hmem
  rw [List.mem_append, List.mem_singleton] at hmem
  rcases hmem with hold | rfl
  · exact h.segments seg' hold
  · exact hseg

theorem makeSynSeg_plain (s : TCPSender) : s.makeSynSeg.1.Plain := by
  unfold makeSynSeg
  dsimp only
  split_ifs
  all_goals exact plain_of_header rfl

theorem makeSynSeg_sizes (s : TCPSender) :
    s.makeSynSeg.2.segmentsOut = s.segmentsOut ∧
      s.makeSynSeg.2.unAckQueue.unAckedPayloadSize = s.unAckQueue.unAckedPayloadSize := by
  unfold makeSynSeg
  dsimp only
  split_ifs
  all_goals exact ⟨rfl, rfl⟩

theorem makePayLoadSeg_plain (s : TCPSender) : s.makePayLoadSeg.1.Plain := by
  refine ⟨rfl, ?_⟩
  show (s.stream.buf.take (min s.stream.size (min s.remainSpace TCPConfig.maxPayloadSize))).length
    ≤ TCPConfig.maxPayloadSize
  rw [List.length_take]
  omega

theorem PlainOut.sendPayLoad (h : s.PlainOut) : s.sendPayLoad.PlainOut := by
  refine ⟨h.snoc s.makePayLoadSeg_plain, ?_⟩
  intro n hn
  have hn' : n ∈ s.unAckQueue.unAckedPayloadSize ++ [s.makePayLoadSeg.1.payload.length] := hn
  rw [List.mem_append, List.mem_singleton] at hn'
  rcases hn' with hold | rfl
  · exact h.sizes n hold
  · exact s.makePayLoadSeg_plain.payload_le

theorem PlainOut.sendLoop (h : s.PlainOut) (n : Nat) : (sendLoop n s).PlainOut := by
  induction n generalizing s with
  | zero => exact h
  | succ n ih =>
      unfold TCPSender.sendLoop
      split_ifs
      · exact ih h.sendPayLoad
      · exact h

theorem PlainOut.fillWindow (h : s.PlainOut) : s.fillWindow.PlainOut := by
  have hsyn : s.sendSyn.PlainOut := by
    obtain ⟨hsegs, hsizes⟩ := s.makeSynSeg_sizes
    refine ⟨?_, ?_⟩
    · show ∀ seg ∈ s.makeSynSeg.2.segmentsOut ++ [s.makeSynSeg.1], seg.Plain
      rw [hsegs]
      exact h.snoc s.makeSynSeg_plain
    · show ∀ n ∈ s.makeSynSeg.2.unAckQueue.unAckedPayloadSize, n ≤ TCPConfig.maxPayloadSize
      rw [hsizes]
      exact h.sizes
  have hfin : s.sendFin.PlainOut := ⟨h.snoc (plain_of_header rfl), h.sizes⟩
  unfold TCPSender.fillWindow
  dsimp only
  split_ifs
  · exact h
  · exact hsyn
  · exact hfin
  · exact hfin.sendLoop _
  · exact h
  · exact h.sendLoop _

theorem PlainOut.ackReceived (h : s.PlainOut) (ackno : WrappingInt32) (w : UInt16) :
    (s.ackReceived ackno w).PlainOut := by
  have hw : (s.setWindowSize w).PlainOut := ⟨h.segments, h.sizes⟩
  rw [ackReceived_eq]
  split_ifs
  · exact hw
  · exact ⟨h.segments, hw.sizes.updateBase _⟩

theorem PlainOut.retransmitSeg (h : s.PlainOut) (junk : Nat → UInt8) :
    (s.retransmitSeg junk).1.Plain ∧
      (s.retransmitSeg junk).2.segmentsOut = s.segmentsOut ∧
      (s.retransmitSeg junk).2.unAckQueue.unAckedPayloadSize = s.unAckQueue.unAckedPayloadSize := by
  unfold TCPSender.retransmitSeg
  split_ifs
  · exact ⟨plain_of_header rfl, rfl, rfl⟩
  · exact ⟨h.sizes.frontSeg junk s.isn, rfl, rfl⟩
  · exact ⟨s.makeSynSeg_plain, s.makeSynSeg_sizes⟩
  · exact ⟨h.sizes.frontSeg junk s.isn, rfl, rfl⟩
  · exact ⟨plain_of_header rfl, rfl, rfl⟩

theorem PlainOut.tick (h : s.PlainOut) (junk : Nat → UInt8) (ms : Nat) :
    (s.tick junk ms).PlainOut := by
  have h' : ({ s with timer := s.timer.elapse ms } : TCPSender).PlainOut := ⟨h.segments, h.sizes⟩
  unfold TCPSender.tick
  dsimp only
  split_ifs
  · unfold timeoutRetransmit
    dsimp only
    split_ifs
    · exact h'
    · obtain ⟨hseg, hsegs, hsizes⟩ := h'.retransmitSeg junk
      refine ⟨?_, ?_⟩
      · dsimp only
        rw [hsegs]
        exact h'.snoc hseg
      · show ∀ n ∈ _, n ≤ TCPConfig.maxPayloadSize
        rw [hsizes]
        exact h.sizes
  · exact h'
  · exact h

end

end TCPSender

/-! ## The connection -/

namespace TCPConnection

/-- Everything that waits to be sent. -/
structure PlainOut (c : TCPConnection) : Prop where
  queue : ∀ seg ∈ c.segmentsOut, seg.Plain
  sender : c.sender.PlainOut

theorem plainOut_new (cfg : TCPConfig) (isn : WrappingInt32) : (new cfg isn).PlainOut where
  queue := fun _ h => absurd h List.not_mem_nil
  sender := ⟨fun _ h => absurd h List.not_mem_nil, fun _ h => absurd h List.not_mem_nil⟩

theorem withAck_plain (r : TCPReceiver) {seg : TCPSegment} (h : seg.Plain) :
    (withAck r seg).Plain := by
  unfold withAck
  split
  · split_ifs
    · exact h
    · exact ⟨h.doff_eq, h.payload_le⟩
  · exact h

section

variable {c : TCPConnection}

theorem PlainOut.updateOutput (h : c.PlainOut) : c.updateOutput.PlainOut := by
  refine ⟨?_, ⟨fun _ hseg => absurd hseg List.not_mem_nil, h.sender.sizes⟩⟩
  intro seg hseg
  have hseg' : seg ∈ c.segmentsOut ++ c.sender.segmentsOut.map (withAck c.receiver) := hseg
  rw [List.mem_append, List.mem_map] at hseg'
  rcases hseg' with hold | ⟨seg', hnew, rfl⟩
  · exact h.queue seg hold
  · exact withAck_plain _ (h.sender.segments seg' hnew)

theorem stable_plainOut : Stable PlainOut where
  flags := fun _ _ _ _ _ h => ⟨h.queue, h.sender⟩
  fillWindow := fun _ h => ⟨h.queue, h.sender.fillWindow⟩
  sendEmptySegment := fun _ h =>
    ⟨h.queue, ⟨h.sender.snoc (plain_of_header rfl), h.sender.sizes⟩⟩
  updateOutput := fun _ h => h.updateOutput
  uncleanShutdown := fun _ h => ⟨h.queue, ⟨h.sender.segments, h.sender.sizes⟩⟩

theorem PlainOut.sendRSTSeg (h : c.PlainOut) : c.sendRSTSeg.PlainOut := by
  have hrst : ∀ seqno queue, (∀ seg ∈ queue, seg.Plain) → PlainOut { c with
      segmentsOut := queue
      sender := { c.sender with segmentsOut := [{ header := { seqno, rst := true } }] } } := by
    intro seqno queue hqueue
    refine ⟨hqueue, ⟨?_, h.sender.sizes⟩⟩
    intro seg hseg
    rw [List.mem_singleton.mp hseg]
    exact plain_of_header rfl
  unfold TCPConnection.sendRSTSeg
  split
  · exact (hrst _ [] (fun _ hseg => absurd hseg List.not_mem_nil)).updateOutput
  · exact (hrst _ c.segmentsOut h.queue).updateOutput

theorem PlainOut.step (h : c.PlainOut) (junk : Nat → UInt8) (op : ConnectionOp) :
    (c.step junk op).PlainOut := by
  cases op with
  | connect => exact stable_plainOut.fill h
  | write data =>
      show (c.write data).1.PlainOut
      unfold TCPConnection.write
      split_ifs
      · exact h
      · exact stable_plainOut.fill ⟨h.queue, ⟨h.sender.segments, h.sender.sizes⟩⟩
  | endInputStream => exact stable_plainOut.fill ⟨h.queue, ⟨h.sender.segments, h.sender.sizes⟩⟩
  | tick ms =>
      exact tick_rule stable_plainOut (fun c' h' _ => ⟨h'.queue, h'.sender.tick junk ms.toNat⟩)
        (fun c' h' => h'.sendRSTSeg) h
  | segmentReceived seg =>
      exact segmentReceived_rule stable_plainOut (fun h' => ⟨h'.queue, h'.sender⟩)
        (fun _ c' h' _ => ⟨h'.queue, h'.sender.ackReceived _ _⟩) h
  | readInbound len => exact ⟨h.queue, h.sender⟩
  | popSegment => exact ⟨fun seg hseg => h.queue seg (List.mem_of_mem_tail hseg), h.sender⟩

/-- The ports and the checksum of an incoming segment do not matter. -/
theorem segmentReceived_addressed (c : TCPConnection) (seg : TCPSegment)
    (sport dport cksum : UInt16) :
    c.segmentReceived (seg.addressed sport dport cksum) = c.segmentReceived seg :=
  rfl

end

end TCPConnection

end Sponge
