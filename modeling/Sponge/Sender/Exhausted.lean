import Sponge.Sender.Fill

set_option autoImplicit false

/-! # What `fill_window` leaves

The loop of `fill_window` is a `while` loop; the model gives it a bound. `FillEnds` is the call
with the loop of the source, which need not end. Here it always does, and the bound is large
enough (`fillWindow_ends`). What the call leaves is a full window or a drained stream
(`Exhausted`), so that a second call finds nothing to send. -/

namespace Sponge

open Word Loop

namespace TCPSender

/-- The state in front of the loop, after a FIN of its own if there is room for one. -/
def beforeLoop (s : TCPSender) : TCPSender :=
  if !s.unAckQueue.finSent && s.stream.eof && decide (1 < s.remainSpace) then s.sendFin else s

/-- `fill_window`, with an unbounded loop, returns in the state `s'` after `n` rounds. -/
def FillEnds (s : TCPSender) (n : Nat) (s' : TCPSender) : Prop :=
  if s.unAckQueue.finAcked || (s.unAckQueue.finSent && !s.unAckQueue.finAcked) then
    n = 0 ∧ s' = s
  else if !s.unAckQueue.synSent then n = 0 ∧ s' = s.sendSyn
  else if s.beforeLoop.unAckQueue.synSent && !s.beforeLoop.unAckQueue.synAcked then
    n = 0 ∧ s' = s.beforeLoop
  else Ends Pushes sendPayLoad s.beforeLoop n s'

/-- The window is full, or the stream is drained and has its FIN sent if it has ended. -/
def Exhausted (s : TCPSender) : Prop :=
  s.remainSpace = 0 ∨
    (s.stream.buf = [] ∧ (s.stream.inputEnded = true → s.unAckQueue.finSent = true))

/-! ## The loop -/

section

variable {s s' : TCPSender} {data : Bytes}

/-- The bytes and the FIN that are still to be sent. -/
def leftToSend (s : TCPSender) : Nat :=
  s.stream.bufferSize + if s.unAckQueue.finSent = true then 0 else 1

/-- Every round takes a byte from the stream or sends the FIN. -/
theorem InLoop.leftToSend_lt (h : s.InLoop) {seg : TCPSegment} (hs : s.Sends s.sendPayLoad seg) :
    s.sendPayLoad.leftToSend < s.leftToSend := by
  have hpos := hs.length_pos
  have hle := hs.payload_le
  have hsyn : seg.header.syn = false := by rw [hs.syn_eq, h.synSent, Bool.not_true]
  have hsize : s.sendPayLoad.stream.bufferSize = s.stream.size - seg.payload.length := by
    rw [hs.stream_eq]
    show s.stream.size - min s.stream.size seg.payload.length = _
    rw [Nat.min_eq_right hle]
  calc s.sendPayLoad.leftToSend
      = s.stream.size - seg.payload.length + if seg.header.fin = true then 0 else 1 := by
        unfold leftToSend
        rw [hsize, hs.finSent_eq]
    _ < s.stream.size + 1 := by
        unfold TCPSegment.lengthInSequenceSpace at hpos
        rw [hsyn] at hpos
        cases hfin : seg.header.fin with
        | false =>
            simp only [hfin] at hpos ⊢
            simp at hpos ⊢
            omega
        | true =>
            simp only [if_true]
            omega
    _ = s.leftToSend := by
        unfold leftToSend
        rw [hs.finSent_before]
        rfl

theorem Sound.sendPayLoad (h : s.Sound data) (hin : s.InLoop) (hgo : s.Pushes) :
    (s.sendPayLoad.Sound data ∧ s.sendPayLoad.InLoop) ∧
      s.sendPayLoad.leftToSend < s.leftToSend := by
  obtain ⟨seg, hs⟩ := hin.sends h.carries hgo
  exact ⟨⟨h.sends hs, hin.next hs⟩, hin.leftToSend_lt hs⟩

/-- The loop ends within the bound that the model gives it. -/
theorem Sound.loop_ends (h : s.Sound data) (hin : s.InLoop) :
    ∃ n, n ≤ s.stream.bufferSize + 1 ∧
      Ends Pushes TCPSender.sendPayLoad s n (sendLoop (s.stream.bufferSize + 1) s) := by
  have hround : ∀ s : TCPSender, (s.Sound data ∧ s.InLoop) → s.Pushes →
      (s.sendPayLoad.Sound data ∧ s.sendPayLoad.InLoop) ∧
        s.sendPayLoad.leftToSend < s.leftToSend := by
    rintro s ⟨h, hin⟩ hgo
    exact h.sendPayLoad hin hgo
  obtain ⟨n, s', hn, hends⟩ := exists_ends leftToSend hround ⟨h, hin⟩
  have hbound : n ≤ s.stream.bufferSize + 1 := by
    apply hn.trans (Nat.add_le_add_left _ _)
    split_ifs <;> omega
  refine ⟨n, hbound, ?_⟩
  rw [sendLoop_eq_upTo, hends.upTo_eq hbound]
  exact hends

/-! ## The call -/

theorem beforeLoop_acked (s : TCPSender) :
    s.beforeLoop.unAckQueue.synSent = s.unAckQueue.synSent ∧
      s.beforeLoop.unAckQueue.synAcked = s.unAckQueue.synAcked ∧
      s.beforeLoop.stream = s.stream := by
  unfold beforeLoop
  split_ifs <;> exact ⟨rfl, rfl, rfl⟩

theorem Sound.beforeLoop (h : s.Sound data) (hfinAcked : s.unAckQueue.finAcked = false)
    (hfin : s.unAckQueue.finSent = false) (hsyn : s.unAckQueue.synSent = true)
    (hsynAcked : s.unAckQueue.synAcked = true) :
    s.beforeLoop.Sound data ∧ s.beforeLoop.InLoop := by
  have hin : s.InLoop := ⟨hfinAcked, hsyn, hsynAcked, h.fin_eof⟩
  unfold TCPSender.beforeLoop
  split_ifs with hown
  · simp only [Bool.and_eq_true, decide_eq_true_eq] at hown
    obtain ⟨seg, hs⟩ := sends_fin hfin hfinAcked hsyn hown.1.2 hown.2
    exact ⟨h.sends hs, hin.next hs⟩
  · exact ⟨h, hin⟩

theorem fillWindow_eq (s : TCPSender) :
    s.fillWindow =
      if s.unAckQueue.finAcked || (s.unAckQueue.finSent && !s.unAckQueue.finAcked) then s
      else if !s.unAckQueue.synSent then s.sendSyn
      else if s.beforeLoop.unAckQueue.synSent && !s.beforeLoop.unAckQueue.synAcked then
        s.beforeLoop
      else sendLoop (s.beforeLoop.stream.bufferSize + 1) s.beforeLoop := rfl

/-- The call returns in front of the loop, or it is the loop. -/
theorem fillWindow_cases (s : TCPSender) :
    ((∀ n s', s.FillEnds n s' ↔ n = 0 ∧ s' = s.fillWindow) ∧
      ((s.unAckQueue.finAcked = true ∨ s.unAckQueue.finSent = true) ∧ s.fillWindow = s ∨
        s.unAckQueue.synSent = false ∧ s.fillWindow = s.sendSyn ∨
        (s.unAckQueue.synSent = true ∧ s.unAckQueue.synAcked = false) ∧
          s.fillWindow = s.beforeLoop)) ∨
    ((∀ n s', s.FillEnds n s' ↔ Ends Pushes sendPayLoad s.beforeLoop n s') ∧
      (s.unAckQueue.finAcked = false ∧ s.unAckQueue.finSent = false ∧
        s.unAckQueue.synSent = true ∧ s.unAckQueue.synAcked = true) ∧
      s.fillWindow = sendLoop (s.beforeLoop.stream.bufferSize + 1) s.beforeLoop) := by
  obtain ⟨hsynSent, hsynAcked, -⟩ := s.beforeLoop_acked
  rw [fillWindow_eq]
  unfold FillEnds
  split_ifs with hdone hsyn hacked
  · refine Or.inl ⟨fun _ _ => Iff.rfl, Or.inl ⟨?_, rfl⟩⟩
    revert hdone
    cases s.unAckQueue.finAcked <;> simp
  · exact Or.inl ⟨fun _ _ => Iff.rfl, Or.inr (Or.inl ⟨by simpa using hsyn, rfl⟩)⟩
  · refine Or.inl ⟨fun _ _ => Iff.rfl, Or.inr (Or.inr ⟨?_, rfl⟩)⟩
    simpa [hsynSent, hsynAcked] using hacked
  · refine Or.inr ⟨fun _ _ => Iff.rfl, ⟨?_, ?_, ?_, ?_⟩, rfl⟩
    · cases h : s.unAckQueue.finAcked with
      | false => rfl
      | true => exact absurd (by simp [h]) hdone
    · cases h : s.unAckQueue.finSent with
      | false => rfl
      | true => exact absurd (by cases s.unAckQueue.finAcked <;> simp [h]) hdone
    · simpa using hsyn
    · have hsyn' : s.unAckQueue.synSent = true := by simpa using hsyn
      simpa [hsynSent, hsynAcked, hsyn'] using hacked

/-- **`fill_window` returns**, after at most one round more than there are buffered bytes. -/
theorem fillWindow_ends (h : s.Sound data) :
    ∃ n, n ≤ s.stream.bufferSize + 1 ∧ s.FillEnds n s.fillWindow ∧
      ∀ n' s', s.FillEnds n' s' → n' = n ∧ s' = s.fillWindow := by
  rcases s.fillWindow_cases with ⟨hends, -⟩ | ⟨hends, ⟨hfinAcked, hfin, hsyn, hsynAcked⟩, heq⟩
  · exact ⟨0, Nat.zero_le _, (hends _ _).mpr ⟨rfl, rfl⟩, fun n' s' => (hends n' s').mp⟩
  · obtain ⟨hbefore, hin⟩ := h.beforeLoop hfinAcked hfin hsyn hsynAcked
    obtain ⟨n, hn, hloop⟩ := hbefore.loop_ends hin
    rw [← heq] at hloop
    rw [s.beforeLoop_acked.2.2] at hn
    exact ⟨n, hn, (hends _ _).mpr hloop, fun n' s' h' => hloop.unique ((hends n' s').mp h')⟩

/-- With the SYN acknowledged, a call ends behind the FIN or where the loop stops. -/
theorem Sound.fillWindow_done (h : s.Sound data) (hsyn : s.unAckQueue.synSent = true)
    (hsynAcked : s.unAckQueue.synAcked = true) :
    s.fillWindow.unAckQueue.finSent = true ∨ ¬s.fillWindow.Pushes := by
  rcases s.fillWindow_cases with ⟨-, ⟨hfin, heq⟩ | ⟨hnosyn, -⟩ | ⟨⟨-, hnoack⟩, -⟩⟩ |
    ⟨-, ⟨hfinAcked, hfin, -, -⟩, heq⟩
  · rw [heq]
    exact Or.inl (hfin.elim h.fin_sent id)
  · rw [hsyn] at hnosyn
    cases hnosyn
  · rw [hsynAcked] at hnoack
    cases hnoack
  · obtain ⟨hbefore, hin⟩ := h.beforeLoop hfinAcked hfin hsyn hsynAcked
    obtain ⟨n, -, hloop⟩ := hbefore.loop_ends hin
    rw [heq]
    exact Or.inr hloop.not_go

theorem Sound.exhausted (h : s.Sound data) (hdone : s.unAckQueue.finSent = true ∨ ¬s.Pushes) :
    s.Exhausted := by
  rcases hdone with hfin | hstop
  · have heof := h.fin_eof hfin
    have hsize := h.carries.size_eq
    simp only [ByteStream.eof, Bool.and_eq_true, beq_iff_eq] at heof
    exact Or.inr ⟨List.eq_nil_of_length_eq_zero (by omega), fun _ => hfin⟩
  · by_cases hroom : s.remainSpace = 0
    · exact Or.inl hroom
    · have hmore : s.hasContentToPush = false := by
        cases hcontent : s.hasContentToPush with
        | false => rfl
        | true => exact absurd ⟨by omega, hcontent⟩ hstop
      unfold hasContentToPush at hmore
      simp only [Bool.or_eq_false_iff, decide_eq_false_iff_not, Nat.not_lt, Nat.le_zero] at hmore
      obtain ⟨hempty, hnofin⟩ := hmore
      have hsize : s.stream.size = 0 := hempty
      refine Or.inr ⟨List.eq_nil_of_length_eq_zero (h.carries.size_eq ▸ hsize), ?_⟩
      intro hend
      have heof : s.stream.eof = true := by
        unfold ByteStream.eof
        rw [hsize]
        exact hend
      simpa [heof] using hnofin

/-! ## A second call -/

theorem not_canSend_of_done (hsyn : s.unAckQueue.synSent = true)
    (hdone : s.unAckQueue.finSent = true ∨ ¬s.Pushes) : ¬s.CanSend := by
  rintro ⟨hfin, -, hcase⟩
  have hstop := hdone.resolve_left (by simp [hfin])
  rcases hcase with hnosyn | ⟨heof, hroom⟩ | ⟨-, hgo⟩
  · rw [hsyn] at hnosyn
    cases hnosyn
  · refine hstop ⟨by omega, ?_⟩
    unfold hasContentToPush
    simp [heof, hfin]
  · exact hstop hgo

/-- In front of the acknowledgment of the SYN only a FIN could follow. -/
theorem not_canSend_of_no_ack (hsyn : s.unAckQueue.synSent = true)
    (hsynAcked : s.unAckQueue.synAcked = false)
    (hfin : s.unAckQueue.finSent = true ∨ ¬(s.stream.eof = true ∧ 1 < s.remainSpace)) :
    ¬s.CanSend := by
  rintro ⟨hnofin, -, hcase⟩
  have hown := hfin.resolve_left (by simp [hnofin])
  rcases hcase with hnosyn | hroom | ⟨hacked, -⟩
  · rw [hsyn] at hnosyn
    cases hnosyn
  · exact hown hroom
  · rw [hsynAcked] at hacked
    cases hacked

/-- The sender after its SYN: a FIN that has not gone along has no room. -/
theorem sendSyn_spec (s : TCPSender) :
    s.sendSyn.unAckQueue.synSent = true ∧
      s.sendSyn.unAckQueue.synAcked = s.unAckQueue.synAcked ∧
      (s.sendSyn.unAckQueue.finSent = true ∨
        ¬(s.sendSyn.stream.eof = true ∧ 1 < s.sendSyn.remainSpace)) := by
  obtain ⟨s₁, hs₁, hsyn, hacked⟩ : ∃ s₁ : TCPSender,
      (if s.unAckQueue.synSent then s
        else { s with
          unAckQueue :=
            { s.unAckQueue with synSent := true, nextSeqno := s.unAckQueue.nextSeqno + 1 } })
        = s₁ ∧ s₁.unAckQueue.synSent = true ∧
      s₁.unAckQueue.synAcked = s.unAckQueue.synAcked := by
    split_ifs with hsent
    · exact ⟨s, rfl, hsent, rfl⟩
    · exact ⟨_, rfl, rfl, rfl⟩
  simp only [sendSyn, makeSynSeg, hs₁]
  split_ifs with hfin
  · exact ⟨hsyn, hacked, Or.inl rfl⟩
  · refine ⟨hsyn, hacked, Or.inr fun hroom => hfin ?_⟩
    rw [Bool.and_eq_true, decide_eq_true_eq]
    exact hroom

theorem not_canSend_sendSyn (hsynAcked : s.unAckQueue.synAcked = false) : ¬s.sendSyn.CanSend := by
  obtain ⟨hsyn, hacked, hfin⟩ := s.sendSyn_spec
  exact not_canSend_of_no_ack hsyn (hacked.trans hsynAcked) hfin

theorem not_canSend_beforeLoop (hsyn : s.unAckQueue.synSent = true)
    (hsynAcked : s.unAckQueue.synAcked = false) : ¬s.beforeLoop.CanSend := by
  obtain ⟨hsyn', hsynAcked', -⟩ := s.beforeLoop_acked
  apply not_canSend_of_no_ack (hsyn'.trans hsyn) (hsynAcked'.trans hsynAcked)
  unfold TCPSender.beforeLoop
  split_ifs with hown
  · exact Or.inl rfl
  · by_cases hfin : s.unAckQueue.finSent = true
    · exact Or.inl hfin
    · exact Or.inr fun hroom => hown (by simp [hfin, hroom])

/-- The call sends all that it can, unless the SYN was acknowledged before it was sent: then the
call sends the SYN only. -/
theorem Sound.fillWindow_fillWindow (h : s.Sound data)
    (hack : s.unAckQueue.synAcked = true → s.unAckQueue.synSent = true) :
    s.fillWindow.fillWindow = s.fillWindow := by
  rcases s.fillWindow_cases with ⟨-, ⟨-, heq⟩ | ⟨hsyn, heq⟩ | ⟨⟨hsyn, hsynAcked⟩, heq⟩⟩ |
    ⟨-, ⟨hfinAcked, hfin, hsyn, hsynAcked⟩, heq⟩
  · rw [heq, heq]
  · apply fillWindow_of_not_canSend
    rw [heq]
    apply not_canSend_sendSyn
    by_contra hsynAcked
    rw [hack (by simpa using hsynAcked)] at hsyn
    cases hsyn
  · apply fillWindow_of_not_canSend
    rw [heq]
    exact not_canSend_beforeLoop hsyn hsynAcked
  · apply fillWindow_of_not_canSend
    obtain ⟨hbefore, hin⟩ := h.beforeLoop hfinAcked hfin hsyn hsynAcked
    obtain ⟨n, -, hloop⟩ := hbefore.loop_ends hin
    obtain ⟨-, hafter⟩ := hloop.invariant (I := fun s => s.Sound data ∧ s.InLoop)
      (fun _ h hgo => (h.1.sendPayLoad h.2 hgo).1) ⟨hbefore, hin⟩
    rw [heq]
    exact not_canSend_of_done hafter.synSent (Or.inr hloop.not_go)

end

/-- **`fill_window` fills the window**, in every state of every run: it returns after finitely many
rounds of its loop; with the SYN acknowledged it leaves a full window or a drained stream; and a
second call sends nothing. -/
theorem run_fillWindow_fills (junk : Nat → UInt8) (capacity : UInt64) (retxTimeout : UInt16)
    (isn : WrappingInt32) (ops : List SenderOp) :
    let s := Run.run (step junk) (new capacity retxTimeout isn) ops
    (∃ n, n ≤ s.stream.bufferSize + 1 ∧ s.FillEnds n s.fillWindow ∧
      ∀ n' s', s.FillEnds n' s' → n' = n ∧ s' = s.fillWindow) ∧
    (s.unAckQueue.synSent = true → s.unAckQueue.synAcked = true → s.fillWindow.Exhausted) ∧
    ((s.unAckQueue.synAcked = true → s.unAckQueue.synSent = true) →
      s.fillWindow.fillWindow = s.fillWindow) := by
  intro s
  obtain ⟨data, h⟩ := run_sound junk capacity retxTimeout isn ops
  exact ⟨fillWindow_ends h, fun hsyn hsynAcked => h.fillWindow.exhausted
    (h.fillWindow_done hsyn hsynAcked), h.fillWindow_fillWindow⟩

/-- Three bytes and the end of the stream, for a window of two bytes. -/
theorem run_fillWindow_fills_two :
    let s := Run.run (step fun _ => 0) (new 10 1000 ⟨7⟩)
      [.fillWindow, .ackReceived ⟨8⟩ 2, .write [1, 2, 3], .endInput]
    s.fillWindow.Exhausted ∧ s.fillWindow.fillWindow = s.fillWindow := by
  intro s
  obtain ⟨-, hexhausted, htwice⟩ := run_fillWindow_fills (fun _ => 0) 10 1000 ⟨7⟩
    [.fillWindow, .ackReceived ⟨8⟩ 2, .write [1, 2, 3], .endInput]
  exact ⟨hexhausted (by decide) (by decide), htwice fun _ => by decide⟩

end TCPSender

end Sponge
