import Sponge.Sender.Tracking
import Sponge.Sender.Window

set_option autoImplicit false

/-! # New segments tile the sequence space

A segment is new if the call that queued it advanced the next sequence number. `Emission`
carries along the new segments of a run, and `Tiling` says what they are in order of emission:
consecutive, the SYN first, then the bytes of the stream, and the FIN last. The window may grow
and shrink; what matters is that only sent numbers are acknowledged, so that the FIN does not
leave on a repeated SYN. -/

namespace Sponge

open Word

namespace TCPSender

/-- The segments that a call from `s` to `s'` sent for the first time: those it queued, if it
advanced the next sequence number. -/
def newSegments (s s' : TCPSender) : List TCPSegment :=
  if s'.unAckQueue.nextSeqno = s.unAckQueue.nextSeqno then []
  else s'.segmentsOut.drop s.segmentsOut.length

/-- An acknowledgment has an absolute number that was sent. -/
def AcksSent (s : TCPSender) : SenderOp → Prop
  | .ackReceived ackno _ =>
      ∃ a, 1 ≤ a ∧ a ≤ s.unAckQueue.nextSeqno ∧ ackno = wrap a s.isn
  | _ => True

/-- `sent` are the new segments up to the state `s`, and `data` has been written to its
stream. -/
structure Tiling (s : TCPSender) (data : Bytes) (sent : List TCPSegment) : Prop where
  next_eq : s.unAckQueue.nextSeqno = span sent
  seqno_eq : ∀ pre seg post, sent = pre ++ seg :: post →
    seg.header.seqno = wrap (span pre) s.isn
  length_pos : ∀ seg ∈ sent, 1 ≤ seg.lengthInSequenceSpace
  syn_iff : ∀ pre seg post, sent = pre ++ seg :: post → (seg.header.syn = true ↔ pre = [])
  payload_eq : (sent.map TCPSegment.payload).flatten = data.take s.stream.numBytesRead
  payload_max : ∀ seg ∈ sent, seg.payload.length ≤ TCPConfig.maxPayloadSize
  fin_last : ∀ pre seg post, sent = pre ++ seg :: post → seg.header.fin = true →
    post = [] ∧ s.stream.eof = true ∧ s.unAckQueue.finSent = true

section

variable {s s' : TCPSender} {data : Bytes} {sent : List TCPSegment}

theorem span_append (segs segs' : List TCPSegment) : span (segs ++ segs') = span segs + span segs' := by
  simp [span]

/-- Segments that occupy sequence space have a positive span. -/
theorem span_eq_zero_iff (hpos : ∀ seg ∈ sent, 1 ≤ seg.lengthInSequenceSpace) :
    span sent = 0 ↔ sent = [] := by
  cases sent with
  | nil => simp [span]
  | cons seg rest =>
      have hlen := hpos seg List.mem_cons_self
      simp only [span, List.map_cons, List.sum_cons, reduceCtorEq, iff_false]
      omega

theorem tiling_new (capacity : UInt64) (retxTimeout : UInt16) (isn : WrappingInt32) :
    (new capacity retxTimeout isn).Tiling [] [] := by
  constructor <;> simp [new, span]

/-- The SYN was sent exactly if anything was. -/
theorem Tiling.synSent_iff (h : s.Tiling data sent) (hs : s.Sound data) :
    s.unAckQueue.synSent = true ↔ sent ≠ [] := by
  rw [ne_eq, ← span_eq_zero_iff h.length_pos, ← h.next_eq]
  constructor
  · intro hsyn hzero
    have hnext := hs.next_of_syn hsyn
    omega
  · intro hne
    by_contra hsyn
    exact hne (hs.fresh (by simpa using hsyn))

/-- The next new segment. -/
theorem Tiling.sends (h : s.Tiling data sent) (hs : s.Sound data) {seg : TCPSegment}
    (hsends : s.Sends s' seg) : s'.Tiling data (sent ++ [seg]) := by
  have hsyn : seg.header.syn = true ↔ sent = [] := by
    rw [hsends.syn_eq, Bool.not_eq_true', ← Bool.not_eq_true, h.synSent_iff hs, not_not]
  have hmem : ∀ seg' ∈ sent ++ [seg], seg' ∈ sent ∨ seg' = seg := by simp
  -- a split of the longer list is at the new segment, or splits the old list
  refine ⟨?_, ?_, ?_, ?_, ?_, ?_, ?_⟩
  · rw [hsends.next_eq, h.next_eq, span_append]
    simp [span]
  · intro pre seg' post hsplit
    rw [hsends.isn_eq]
    rcases split_snoc hsplit with ⟨-, rfl, rfl⟩ | ⟨post', hold⟩
    · rw [hsends.seqno_eq, h.next_eq]
      split_ifs with hseg
      · rw [hsyn.mp hseg]
        rfl
      · rfl
    · exact h.seqno_eq pre seg' post' hold
  · intro seg' hseg'
    rcases hmem seg' hseg' with hold | rfl
    · exact h.length_pos seg' hold
    · exact hsends.length_pos
  · intro pre seg' post hsplit
    rcases split_snoc hsplit with ⟨-, rfl, rfl⟩ | ⟨post', hold⟩
    · exact hsyn
    · exact h.syn_iff pre seg' post' hold
  · rw [hsends.take_eq hs.carries, ← h.payload_eq]
    simp
  · intro seg' hseg'
    rcases hmem seg' hseg' with hold | rfl
    · exact h.payload_max seg' hold
    · exact hsends.payload_max
  · intro pre seg' post hsplit hfin
    rcases split_snoc hsplit with ⟨hpost, rfl, rfl⟩ | ⟨post', hold⟩
    · exact ⟨hpost, hsends.fin_eof hfin, hsends.finSent_eq.trans hfin⟩
    · -- after a FIN nothing is sent
      have hsent := (h.fin_last pre seg' post' hold hfin).2.2
      exact absurd (hsends.finSent_before.symm.trans hsent) (by simp)

/-- A call that does not advance the next sequence number has sent nothing new. -/
theorem Tiling.congr (h : s.Tiling data sent) {data' : Bytes} (hs' : s'.Sound data')
    (hisn : s'.isn = s.isn) (hnext : s'.unAckQueue.nextSeqno = s.unAckQueue.nextSeqno)
    (hread : s'.stream.numBytesRead = s.stream.numBytesRead)
    (hdata : data'.take s.stream.numBytesRead = data.take s.stream.numBytesRead)
    (hfin : s'.unAckQueue.finSent = s.unAckQueue.finSent) :
    s'.Tiling data' (sent ++ s.newSegments s') := by
  rw [newSegments, if_pos hnext, List.append_nil]
  refine ⟨?_, ?_, h.length_pos, h.syn_iff, ?_, h.payload_max, ?_⟩
  · rw [hnext]; exact h.next_eq
  · rw [hisn]; exact h.seqno_eq
  · rw [hread, hdata]; exact h.payload_eq
  · intro pre seg post hsplit hseg
    obtain ⟨hpost, -, hsent⟩ := h.fin_last pre seg post hsplit hseg
    rw [← hfin] at hsent
    exact ⟨hpost, hs'.fin_eof hsent, hsent⟩

/-! ## Calls -/

/-- A call of `fill_window` adds what it sends. -/
theorem Tiling.fillWindow (h : s.Tiling data sent) (hs : s.Sound data) :
    s.fillWindow.Tiling data (sent ++ s.newSegments s.fillWindow) := by
  -- the segments of the rounds, one after the other
  obtain ⟨-, segs, hout, htiling⟩ : s.fillWindow.Sound data ∧
      ∃ segs, s.fillWindow.segmentsOut = s.segmentsOut ++ segs ∧
        s.fillWindow.Tiling data (sent ++ segs) := by
    refine fillWindow_rule (P := fun s' => s'.Sound data ∧
      ∃ segs, s'.segmentsOut = s.segmentsOut ++ segs ∧ s'.Tiling data (sent ++ segs))
      (fun _ h' => ⟨data, h'.1.carries⟩) ?_ ⟨hs, [], by simp, by simpa using h⟩
    rintro s' s'' seg ⟨hs', segs, hout, h'⟩ hsends
    refine ⟨hs'.sends hsends, segs ++ [seg], ?_, ?_⟩
    · rw [hsends.out_eq, hout, List.append_assoc]
    · rw [← List.append_assoc]
      exact h'.sends hs' hsends
  -- a call that does not advance the next number has sent nothing
  have hnew : s.newSegments s.fillWindow = segs := by
    unfold newSegments
    rw [hout, List.drop_left]
    split_ifs with hnext
    · rw [htiling.next_eq, h.next_eq, span_append] at hnext
      have hpos : ∀ seg ∈ segs, 1 ≤ seg.lengthInSequenceSpace :=
        fun seg hseg => htiling.length_pos seg (List.mem_append_right sent hseg)
      exact ((span_eq_zero_iff hpos).mp (by omega)).symm
    · rfl
  rwa [hnew]

theorem Opening.fillWindow (h : s.Opening) (hs : s.Sound data) : s.fillWindow.Opening := by
  refine (fillWindow_rule (P := fun s' => s'.Sound data ∧ s'.Opening)
    (fun _ h' => ⟨data, h'.1.carries⟩) ?_ ⟨hs, h⟩).2
  rintro s' s'' seg ⟨hs', h'⟩ hsends
  exact ⟨hs'.sends hsends, h'.sends hs' hsends⟩

/-- The first acknowledgment of something sent is that of the SYN. -/
theorem Opening.ackReceived (h : s.Opening) (hs : s.Sound data) {ackno : WrappingInt32}
    {w : UInt16} (hack : s.AcksSent (.ackReceived ackno w)) :
    (s.ackReceived ackno w).Opening := by
  intro hsyn
  -- the SYN was not acknowledged before either
  have hsyn' : s.unAckQueue.synAcked = false := by
    by_contra hacked
    rw [ackReceived_eq] at hsyn
    split_ifs at hsyn with hign
    · exact hacked hsyn
    · have hkeeps := (UnAckQueue.updateBase_frame (base_lt_of_not_ignores w hign)).2.2.1
      have hacked' : s.unAckQueue.synAcked = true := by simpa using hacked
      exact absurd (hsyn.symm.trans (hkeeps hacked')) Bool.false_ne_true
  obtain ⟨hbase, -, hfinSent⟩ := h hsyn'
  obtain ⟨a, hpos, hle, rfl⟩ := hack
  have hsent : s.unAckQueue.synSent = true := by
    by_contra hns
    have hzero := hs.fresh (by simpa using hns)
    omega
  have hnext := hs.next_of_syn hsent
  rw [hfinSent, (hs.unsynced hsyn').1, if_neg Bool.false_ne_true] at hnext
  -- only the SYN was sent, so that its acknowledgment is used
  have hone : a = 1 := by omega
  have habs : s.absAckno (wrap a s.isn) = 1 := by
    unfold absAckno
    rw [hbase, hone, unwrap_wrap_eq s.isn (by norm_num) (by norm_num) (by norm_num)]
  have hign : ¬s.Ignores 1 := by
    simp only [Ignores, hfinSent, hbase]
    omega
  have hbase' := base_lt_of_not_ignores w hign
  have hupdate : (s.setWindowSize w).unAckQueue.updateBase 1
      = { (s.setWindowSize w).unAckQueue with synAcked := true, baseSqn := 1 } :=
    UnAckQueue.updateBase_one hbase'
  rw [ackReceived_eq, habs, if_neg hign, hupdate] at hsyn
  exact absurd hsyn (by simp)

/-- Without a FIN that leaves on a repeated SYN, time leaves the numbers alone. -/
theorem Opening.tick_eq (h : s.Opening) (hs : s.Sound data) (junk : Nat → UInt8) (ms : Nat) :
    ∃ timer segs, s.tick junk ms = { s with timer := timer, segmentsOut := segs } := by
  obtain ⟨q, timer, segs, heq, rfl | ⟨hrep, -⟩⟩ := tick_frame junk s ms
  · exact ⟨timer, segs, heq⟩
  · exact absurd hrep (h.not_repeatsSynWithFin hs)

/-- **What a call preserves**, with the new segments that it adds. -/
theorem Tiling.step (h : s.Tiling data sent) (hs : s.Sound data) (ho : s.Opening)
    (junk : Nat → UInt8) {op : SenderOp} :
    (s.step junk op).Tiling (data ++ s.accepts op)
      (sent ++ s.newSegments (s.step junk op)) := by
  have hs' := hs.step junk op
  cases op with
  | fillWindow => simpa [accepts, TCPSender.step] using h.fillWindow hs
  | write d =>
      -- what is written comes behind what the segments have taken
      refine h.congr hs' rfl rfl (ByteStream.write_numBytesRead s.stream d) ?_ rfl
      exact List.take_append_of_le_length hs.carries.read_le
  | ackReceived ackno w =>
      obtain ⟨hisn, hstream, hnext, hfin⟩ := ackReceived_frame s ackno w
      refine h.congr hs' hisn hnext (congrArg ByteStream.numBytesRead hstream) ?_ hfin
      simp [accepts]
  | tick ms =>
      obtain ⟨timer, segs, heq⟩ := ho.tick_eq hs junk ms.toNat
      have hstep : s.step junk (.tick ms) = { s with timer := timer, segmentsOut := segs } := heq
      rw [hstep] at hs' ⊢
      refine h.congr hs' rfl rfl rfl ?_ rfl
      simp [accepts]
  | endInput | setError | sendEmptySegment | popSegments n =>
      refine h.congr hs' rfl rfl rfl ?_ rfl
      simp [accepts]

theorem Opening.step (h : s.Opening) (hs : s.Sound data) (junk : Nat → UInt8) {op : SenderOp}
    (hack : s.AcksSent op) : (s.step junk op).Opening := by
  cases op with
  | fillWindow => exact h.fillWindow hs
  | ackReceived ackno w => exact h.ackReceived hs hack
  | tick ms =>
      obtain ⟨timer, segs, heq⟩ := h.tick_eq hs junk ms.toNat
      show (s.tick junk ms.toNat).Opening
      rw [heq]
      exact h
  | write d | endInput | setError | sendEmptySegment | popSegments n => exact h

end

end TCPSender

/-! ## Runs -/

/-- A sender together with the bytes that its stream has accepted so far, and the segments that
it has sent for the first time. -/
structure Emission where
  sender : TCPSender
  accepted : Bytes := []
  sent : List TCPSegment := []

namespace Emission

def new (capacity : UInt64) (retxTimeout : UInt16) (isn : WrappingInt32) : Emission :=
  { sender := TCPSender.new capacity retxTimeout isn }

def step (junk : Nat → UInt8) (g : Emission) (op : SenderOp) : Emission :=
  { sender := g.sender.step junk op
    accepted := g.accepted ++ g.sender.accepts op
    sent := g.sent ++ g.sender.newSegments (g.sender.step junk op) }

/-- **The new segments tile the sequence space**, in every run in which only sent numbers are
acknowledged, whatever the windows are. -/
theorem run_tiling (junk : Nat → UInt8) (capacity : UInt64) (retxTimeout : UInt16)
    (isn : WrappingInt32) (ops : List SenderOp)
    (hok : Run.Admits (step junk) (fun g op => g.sender.AcksSent op)
      (new capacity retxTimeout isn) ops) :
    (Run.run (step junk) (new capacity retxTimeout isn) ops).sender.Tiling
      (Run.run (step junk) (new capacity retxTimeout isn) ops).accepted
      (Run.run (step junk) (new capacity retxTimeout isn) ops).sent := by
  have hinv := Run.run_invariant
    (I := fun g : Emission => g.sender.Sound g.accepted ∧ g.sender.Opening ∧
      g.sender.Tiling g.accepted g.sent)
    (fun g op hg hop => ⟨hg.1.step junk op, hg.2.1.step hg.1 junk hop,
      hg.2.2.step hg.1 hg.2.1 junk⟩)
    ⟨TCPSender.sound_new capacity retxTimeout isn, fun _ => ⟨rfl, rfl, rfl⟩,
      TCPSender.tiling_new capacity retxTimeout isn⟩ hok
  exact hinv.2.2

/-- Three bytes and the FIN, into a window that grows from two. -/
def growingWindow : List SenderOp :=
  [.fillWindow, .ackReceived ⟨8⟩ 2, .write [97, 98, 99], .endInput, .fillWindow,
    .ackReceived ⟨9⟩ 10, .fillWindow]

theorem growingWindow_tiling :
    (Run.run (step fun _ => 0) (new 64000 1000 ⟨7⟩) growingWindow).sender.Tiling
      (Run.run (step fun _ => 0) (new 64000 1000 ⟨7⟩) growingWindow).accepted
      (Run.run (step fun _ => 0) (new 64000 1000 ⟨7⟩) growingWindow).sent :=
  run_tiling (fun _ => 0) 64000 1000 ⟨7⟩ growingWindow
    ⟨trivial, ⟨1, le_rfl, by decide +kernel, by decide⟩, trivial, trivial, trivial,
      ⟨2, by decide, by decide +kernel, by decide⟩, trivial, trivial⟩

end Emission

end Sponge
