import Sponge.Sender.Fill

set_option autoImplicit false

/-! # The window

`fill_window` computes the space left in the window as an unsigned difference. As long as
what is in flight fits the window, every new segment lies inside it; when the window has
shrunk below what is in flight, or the base has been moved past the next sequence number, the
difference wraps and there seems to be room. -/

namespace Sponge

open Word

namespace TCPSender

/-- There is something that `fill_window` would send if the window allowed it. -/
def Pending (s : TCPSender) : Prop :=
  s.unAckQueue.finSent = false ∧ s.unAckQueue.finAcked = false ∧
    (s.unAckQueue.synSent = false ∨ s.stream.eof = true ∨
      (s.unAckQueue.synAcked = true ∧ 0 < s.stream.size))

/-- What is in flight fits the window. -/
def FlightFits (s : TCPSender) : Prop :=
  s.unAckQueue.baseSqn ≤ s.unAckQueue.nextSeqno ∧
    s.unAckQueue.nextSeqno ≤ s.unAckQueue.baseSqn + s.unAckQueue.winSize

instance (s : TCPSender) : Decidable s.Pending := inferInstanceAs (Decidable (_ ∧ _))

instance (s : TCPSender) : Decidable s.FlightFits := inferInstanceAs (Decidable (_ ∧ _))

/-- The number of sequence numbers that a list of segments occupies. -/
def span (segs : List TCPSegment) : Nat := (segs.map TCPSegment.lengthInSequenceSpace).sum

/-- `segs` are consecutive segments from the absolute sequence number `n` on, and each of them
ends at or before `limit`. -/
def LiesWithin (isn : WrappingInt32) (n limit : Nat) (segs : List TCPSegment) : Prop :=
  ∀ pre seg post, segs = pre ++ seg :: post →
    seg.header.seqno = wrap (n + span pre) isn ∧
      n + span pre + seg.lengthInSequenceSpace ≤ limit

/-- What a call of `fill_window` in state `s` sends lies inside the window, and it is nothing
when the window is full. -/
def SendsInWindow (s : TCPSender) : Prop :=
  ∃ segs, s.fillWindow.segmentsOut = s.segmentsOut ++ segs ∧
    LiesWithin s.isn s.unAckQueue.nextSeqno
      (s.unAckQueue.baseSqn + s.unAckQueue.winSize) segs ∧
    (s.unAckQueue.winSize ≤ s.bytesInFlight → segs = [])

section

variable {s : TCPSender} {data : Bytes}

theorem FlightFits.remainSpace_eq (h : s.FlightFits) (hw : s.unAckQueue.winSize < 2 ^ 16) :
    s.remainSpace
      = s.unAckQueue.baseSqn + s.unAckQueue.winSize - s.unAckQueue.nextSeqno := by
  obtain ⟨hle, hfit⟩ := h
  have hflight : s.unAckQueue.bytesInFlight
      = s.unAckQueue.nextSeqno - s.unAckQueue.baseSqn := sub64_eq hle (by omega)
  unfold remainSpace
  rw [hflight, sub64_eq (by omega) (by omega)]
  omega

/-- A new segment ends inside the window. -/
theorem Sends.fits {s' : TCPSender} {seg : TCPSegment} (hs : s.Sends s' seg) (h : s.Sound data)
    (hfits : s.FlightFits) :
    s.unAckQueue.nextSeqno + seg.lengthInSequenceSpace
      ≤ s.unAckQueue.baseSqn + s.unAckQueue.winSize := by
  by_cases hsyn : seg.header.syn = true
  · -- a fresh sender: nothing in flight, and one number taken before the FIN is considered
    have hnext := h.fresh (by simpa [hsyn] using hs.syn_eq)
    have hbase : s.unAckQueue.baseSqn = 0 := by
      have := hfits.1
      omega
    have hpos := h.win_pos
    have hlt := h.win_lt
    have hlen : seg.lengthInSequenceSpace = 1 + if seg.header.fin then 1 else 0 := by
      simp [TCPSegment.lengthInSequenceSpace, hsyn, hs.syn_payload hsyn]
    split_ifs at hlen with hfin
    · have hroom := hs.room_syn hsyn hfin
      have hflight : sub64 (0 + 1) 0 = 1 := sub64_eq (by omega) (by omega)
      rw [hnext, hbase, hflight, sub64_eq (by omega) (by omega)] at hroom
      omega
    · omega
  · have hroom := hs.room (by simpa using hsyn)
    rw [hfits.remainSpace_eq h.win_lt] at hroom
    have := hfits.2
    omega

/-- With nothing pending, `fill_window` does nothing. -/
theorem fillWindow_of_not_pending (hp : ¬s.Pending) : s.fillWindow = s := by
  refine fillWindow_of_not_canSend (fun hcan => hp ?_)
  obtain ⟨hfin, hfinAcked, hcase⟩ := hcan
  refine ⟨hfin, hfinAcked, ?_⟩
  rcases hcase with hsyn | ⟨heof, -⟩ | ⟨hsynAcked, -, hmore⟩
  · exact Or.inl hsyn
  · exact Or.inr (Or.inl heof)
  · -- the loop finds bytes, or the FIN
    simp only [hasContentToPush, Bool.or_eq_true, Bool.and_eq_true, decide_eq_true_eq] at hmore
    rcases hmore with hsize | ⟨heof, -⟩
    · exact Or.inr (Or.inr ⟨hsynAcked, hsize⟩)
    · exact Or.inr (Or.inl heof)

/-- Inside a call of `fill_window` that was made in state `s`: the segments `segs` have been
sent so far, and the sender has become `s'`. -/
structure Filled (s s' : TCPSender) (segs : List TCPSegment) : Prop where
  fits : s'.FlightFits
  isn_eq : s'.isn = s.isn
  base_eq : s'.unAckQueue.baseSqn = s.unAckQueue.baseSqn
  win_eq : s'.unAckQueue.winSize = s.unAckQueue.winSize
  out_eq : s'.segmentsOut = s.segmentsOut ++ segs
  next_eq : s'.unAckQueue.nextSeqno = s.unAckQueue.nextSeqno + span segs
  length_pos : ∀ seg ∈ segs, 1 ≤ seg.lengthInSequenceSpace
  within : LiesWithin s.isn s.unAckQueue.nextSeqno
    (s.unAckQueue.baseSqn + s.unAckQueue.winSize) segs

theorem liesWithin_nil (isn : WrappingInt32) (n limit : Nat) : LiesWithin isn n limit [] := by
  intro pre seg post hnil
  simp at hnil

/-- A place in a list that got one more element is the new one or an old one. -/
theorem split_snoc {α : Type} {l pre post : List α} {x y : α} (h : l ++ [y] = pre ++ x :: post) :
    (post = [] ∧ pre = l ∧ x = y) ∨ ∃ post', l = pre ++ x :: post' := by
  rcases List.eq_nil_or_concat post with rfl | ⟨post', last, rfl⟩
  · obtain ⟨rfl, hlast⟩ := List.append_inj' h rfl
    exact Or.inl ⟨rfl, rfl, by simpa using hlast.symm⟩
  · rw [List.concat_eq_append, ← List.cons_append, ← List.append_assoc] at h
    exact Or.inr ⟨post', (List.append_inj' h rfl).1⟩

theorem LiesWithin.snoc {isn : WrappingInt32} {n limit : Nat} {segs : List TCPSegment}
    (h : LiesWithin isn n limit segs) {seg : TCPSegment}
    (hseqno : seg.header.seqno = wrap (n + span segs) isn)
    (hlimit : n + span segs + seg.lengthInSequenceSpace ≤ limit) :
    LiesWithin isn n limit (segs ++ [seg]) := by
  intro pre seg' post hsplit
  rcases split_snoc hsplit with ⟨-, rfl, rfl⟩ | ⟨post', hsegs⟩
  · exact ⟨hseqno, hlimit⟩
  · exact h pre seg' post' hsegs

theorem filled_refl (hfits : s.FlightFits) : s.Filled s [] :=
  ⟨hfits, rfl, rfl, rfl, by simp, by simp [span], by simp, liesWithin_nil _ _ _⟩

theorem Filled.sends {s' s'' : TCPSender} {segs : List TCPSegment} {seg : TCPSegment}
    (hf : s.Filled s' segs) (h' : s'.Sound data) (hs : s'.Sends s'' seg) :
    s.Filled s'' (segs ++ [seg]) := by
  have hend := hs.fits h' hf.fits
  have hspan : span (segs ++ [seg]) = span segs + seg.lengthInSequenceSpace := by
    simp [span]
  -- the first SYN has the absolute number zero, which is where a fresh sender stands
  have hseqno : seg.header.seqno = wrap s'.unAckQueue.nextSeqno s'.isn := by
    rw [hs.seqno_eq]
    split_ifs with hsyn
    · rw [h'.fresh (by simpa [hsyn] using hs.syn_eq)]
    · rfl
  refine ⟨⟨?_, ?_⟩, ?_, ?_, ?_, ?_, ?_, ?_, ?_⟩
  · rw [hs.base_eq, hs.next_eq]
    have := hf.fits.1
    omega
  · rw [hs.base_eq, hs.next_eq, hs.win_eq]
    exact hend
  · rw [hs.isn_eq, hf.isn_eq]
  · rw [hs.base_eq, hf.base_eq]
  · rw [hs.win_eq, hf.win_eq]
  · rw [hs.out_eq, hf.out_eq, List.append_assoc]
  · rw [hs.next_eq, hf.next_eq, hspan, Nat.add_assoc]
  · intro seg' hmem
    rcases List.mem_append.mp hmem with hmem | hmem
    · exact hf.length_pos seg' hmem
    · obtain rfl : seg' = seg := by simpa using hmem
      exact hs.length_pos
  · refine hf.within.snoc ?_ ?_
    · rw [hseqno, hf.next_eq, hf.isn_eq]
    · rw [hf.next_eq, hf.base_eq, hf.win_eq] at hend
      exact hend

/-- While what is in flight fits the window, `fill_window` stays inside it. -/
theorem Sound.sendsInWindow (h : s.Sound data) (hfits : s.Pending → s.FlightFits) :
    s.SendsInWindow := by
  by_cases hp : s.Pending
  · obtain ⟨-, segs, hf⟩ : s.fillWindow.Sound data ∧ ∃ segs, s.Filled s.fillWindow segs := by
      refine fillWindow_rule (P := fun s' => s'.Sound data ∧ ∃ segs, s.Filled s' segs)
        (fun _ hs' => ⟨data, hs'.1.carries⟩) ?_ ⟨h, [], filled_refl (hfits hp)⟩
      rintro s' s'' seg ⟨h', segs, hf⟩ hs
      exact ⟨h'.sends hs, segs ++ [seg], hf.sends h' hs⟩
    refine ⟨segs, hf.out_eq, hf.within, ?_⟩
    intro hfull
    -- a first segment would start at the end of the window
    cases segs with
    | nil => rfl
    | cons seg rest =>
        have hlen := hf.length_pos seg (by simp)
        have hlast := (hf.within [] seg rest rfl).2
        obtain ⟨hle, hfit⟩ := hfits hp
        have hwin := h.win_lt
        have hflight : s.bytesInFlight = s.unAckQueue.nextSeqno - s.unAckQueue.baseSqn :=
          sub64_eq hle (by omega)
        simp only [span, List.map_nil, List.sum_nil] at hlast
        omega
  · refine ⟨[], ?_, liesWithin_nil _ _ _, fun _ => rfl⟩
    rw [fillWindow_of_not_pending hp, List.append_nil]

end

/-! ## Runs -/

/-- An operation of a run that does not call `fill_window` on too full a window. -/
def FillsWithin (s : TCPSender) : SenderOp → Prop
  | .fillWindow => s.Pending → s.FlightFits
  | _ => True

instance decidableFillsWithin (s : TCPSender) : ∀ op, Decidable (s.FillsWithin op)
  | .fillWindow => inferInstanceAs (Decidable (s.Pending → s.FlightFits))
  | .write _ | .endInput | .setError | .ackReceived _ _ | .tick _ | .sendEmptySegment
  | .popSegments _ => .isTrue trivial

/-- **Every call of `fill_window` stays inside the window**, in every run in which the flight
fits the window whenever something is pending. -/
theorem run_sendsInWindow (junk : Nat → UInt8) (capacity : UInt64) (retxTimeout : UInt16)
    (isn : WrappingInt32) (ops : List SenderOp)
    (hok : Run.Admits (step junk) FillsWithin (new capacity retxTimeout isn) ops)
    (before after : List SenderOp) (hops : ops = before ++ .fillWindow :: after) :
    (Run.run (step junk) (new capacity retxTimeout isn) before).SendsInWindow := by
  subst hops
  obtain ⟨data, h⟩ := run_sound junk capacity retxTimeout isn before
  exact h.sendsInWindow hok.at_split

/-- The handshake and five bytes into a window of four. -/
def fullWindow : List SenderOp :=
  [.fillWindow, .ackReceived ⟨1⟩ 4, .write [97, 98, 99, 100, 101], .fillWindow]

theorem fullWindow_sendsInWindow :
    (Run.run (step fun _ => 0) (new 64000 1000 ⟨0⟩) fullWindow).SendsInWindow :=
  run_sendsInWindow (fun _ => 0) 64000 1000 ⟨0⟩ (fullWindow ++ [.fillWindow]) (by decide +kernel)
    fullWindow [] rfl

/-- A second acknowledgment of the SYN shrinks the window to two. The space left is then
`2 - 4`, and the fifth byte is sent beyond the window. -/
theorem shrinkingWindow_not_sendsInWindow :
    ¬(Run.run (step fun _ => 0) (new 64000 1000 ⟨0⟩)
      (fullWindow ++ [.ackReceived ⟨1⟩ 2])).SendsInWindow := by
  rintro ⟨segs, hout, hwithin, -⟩
  have hnew : ∀ s, s = Run.run (step fun _ => 0) (new 64000 1000 ⟨0⟩)
        (fullWindow ++ [.ackReceived ⟨1⟩ 2]) →
      s.fillWindow.segmentsOut
        = s.segmentsOut ++ [{ header := { seqno := ⟨5⟩ }, payload := [101] }] := by
    rintro s rfl
    decide +kernel
  rw [hnew _ rfl] at hout
  obtain rfl := List.append_cancel_left hout
  exact absurd (hwithin [] _ [] rfl).2 (by decide +kernel)

end TCPSender

end Sponge
