import Sponge.Sender.Invariant

set_option autoImplicit false

/-! # When `fill_window` sends

`CanSend` says in terms of the state before the call whether `fill_window` sends a segment:
the SYN, a FIN of its own, or a segment of the loop. `fillWindow_sends` is what a call adds to
the queue: segments that all occupy sequence space, and at least one exactly if the sender can
send. -/

namespace Sponge

open Word

namespace TCPSender

/-- The window allows `fill_window` to send something. -/
def CanSend (s : TCPSender) : Prop :=
  s.unAckQueue.finSent = false ∧ s.unAckQueue.finAcked = false ∧
    (s.unAckQueue.synSent = false ∨ (s.stream.eof = true ∧ 1 < s.remainSpace) ∨
      (s.unAckQueue.synAcked = true ∧ 0 < s.remainSpace ∧ s.hasContentToPush = true))

instance (s : TCPSender) : Decidable s.CanSend := inferInstanceAs (Decidable (_ ∧ _ ∧ (_ ∨ _ ∨ _)))

/-- `segs` were queued between `s` and `s'`, and all of them occupy sequence space. -/
def Queues (s s' : TCPSender) (segs : List TCPSegment) : Prop :=
  s'.segmentsOut = s.segmentsOut ++ segs ∧ ∀ seg ∈ segs, 1 ≤ seg.lengthInSequenceSpace

section

variable {s s' s'' : TCPSender} {data : Bytes}

theorem queues_refl (s : TCPSender) : s.Queues s [] := ⟨by simp, by simp⟩

theorem Queues.sends {segs : List TCPSegment} {seg : TCPSegment} (h : s.Queues s' segs)
    (hs : s'.Sends s'' seg) : s.Queues s'' (segs ++ [seg]) := by
  refine ⟨by rw [hs.out_eq, h.1, List.append_assoc], ?_⟩
  intro seg' hmem
  rcases List.mem_append.mp hmem with hmem | hmem
  · exact h.2 seg' hmem
  · rw [List.mem_singleton.mp hmem]
    exact hs.length_pos

/-- Inside a call of `fill_window`, after at least one segment was sent. -/
def Sent (data : Bytes) (s s' : TCPSender) : Prop :=
  s'.Sound data ∧ ∃ segs, s.Queues s' segs ∧ segs ≠ []

theorem sent_of_sends (h : s.Sound data) {seg : TCPSegment} (hs : s.Sends s' seg) :
    Sent data s s' :=
  ⟨h.sends hs, [seg], by simpa using (queues_refl s).sends hs, by simp⟩

theorem Sent.sends {seg : TCPSegment} (h : Sent data s s') (hs : s'.Sends s'' seg) :
    Sent data s s'' := by
  obtain ⟨h', segs, hq, -⟩ := h
  exact ⟨h'.sends hs, segs ++ [seg], hq.sends hs, by simp⟩

theorem Sent.sendLoop (h : Sent data s s') {seg : TCPSegment} {s₀ : TCPSender}
    (hs : s₀.Sends s' seg) (hsynAcked : s₀.unAckQueue.synAcked = true) (n : Nat) :
    Sent data s (sendLoop n s') := by
  refine sendLoop_rule (P := Sent data s) (fun _ h' => ⟨data, h'.1.carries⟩)
    (fun _ _ _ h' => h'.sends) n h hs.finAcked_eq hs.synSent_eq (hs.synAcked_eq.trans hsynAcked) ?_
  rw [hs.finSent_eq]
  exact hs.fin_eof

/-- A sender that can send does. -/
theorem CanSend.sent (hcan : s.CanSend) (h : s.Sound data) : Sent data s s.fillWindow := by
  obtain ⟨hfin, hfinAcked, hcase⟩ := hcan
  unfold fillWindow
  rw [if_neg (by simp [hfinAcked, hfin])]
  by_cases hsyn : s.unAckQueue.synSent = true
  · rw [if_neg (by simp [hsyn])]
    by_cases hown : s.stream.eof = true ∧ 1 < s.remainSpace
    · -- the FIN of its own comes first, and the loop may follow
      obtain ⟨seg, hs⟩ := sends_fin hfin hfinAcked hsyn hown.1 hown.2
      have hsent := sent_of_sends h hs
      simp only [hfin, hown.1, hown.2, Bool.not_false, Bool.true_and, decide_true, if_true]
      by_cases hsynAcked : s.unAckQueue.synAcked = true
      · rw [if_neg (by simp [hs.synAcked_eq, hsynAcked])]
        exact hsent.sendLoop hs hsynAcked _
      · rw [if_pos (by simp [hs.synAcked_eq, hs.synSent_eq, hsynAcked])]
        exact hsent
    · rcases hcase with hnosyn | hown' | ⟨hsynAcked, hroom, hmore⟩
      · exact absurd (hnosyn.symm.trans hsyn) Bool.false_ne_true
      · exact absurd hown' hown
      · obtain ⟨seg, hs⟩ := sends_payLoad hfin hfinAcked h.carries hsyn hsynAcked hroom hmore
        have hcond : ¬((!s.unAckQueue.finSent && s.stream.eof && decide (1 < s.remainSpace))
            = true) := by
          simpa [hfin] using hown
        simp only [if_neg hcond]
        rw [if_neg (by simp [hsynAcked]), TCPSender.sendLoop, if_pos ⟨hroom, hmore⟩]
        exact (sent_of_sends h hs).sendLoop hs hsynAcked _
  · have hsyn' : s.unAckQueue.synSent = false := by simpa using hsyn
    rw [if_pos (by simp [hsyn'])]
    obtain ⟨seg, hs⟩ := sends_syn hfin hfinAcked hsyn'
    exact sent_of_sends h hs

/-- A sender that cannot send is left as it is. -/
theorem fillWindow_of_not_canSend (hcan : ¬s.CanSend) : s.fillWindow = s := by
  by_cases hdone : s.unAckQueue.finAcked = true ∨ s.unAckQueue.finSent = true
  · unfold fillWindow
    rcases hdone with h | h <;> simp [h]
  · simp only [not_or, Bool.not_eq_true] at hdone
    obtain ⟨hfinAcked, hfin⟩ := hdone
    have hcase : ¬(s.unAckQueue.synSent = false ∨ (s.stream.eof = true ∧ 1 < s.remainSpace) ∨
        (s.unAckQueue.synAcked = true ∧ 0 < s.remainSpace ∧ s.hasContentToPush = true)) :=
      fun h => hcan ⟨hfin, hfinAcked, h⟩
    simp only [not_or, Bool.not_eq_false] at hcase
    obtain ⟨hsyn, hown, hloop⟩ := hcase
    have hcond : ¬((!s.unAckQueue.finSent && s.stream.eof && decide (1 < s.remainSpace))
        = true) := by
      simpa [hfin] using hown
    unfold fillWindow
    rw [if_neg (by simp [hfinAcked, hfin]), if_neg (by simp [hsyn])]
    simp only [if_neg hcond]
    split_ifs with hsynAcked
    · rfl
    · have hsynAcked' : s.unAckQueue.synAcked = true := by simpa [hsyn] using hsynAcked
      rw [sendLoop, if_neg (fun h => hloop ⟨hsynAcked', h.1, h.2⟩)]

end

/-- **What `fill_window` sends.** -/
theorem fillWindow_sends {s : TCPSender} {data : Bytes} (h : s.Sound data) :
    ∃ segs, s.Queues s.fillWindow segs ∧ (segs ≠ [] ↔ s.CanSend) := by
  by_cases hcan : s.CanSend
  · obtain ⟨-, segs, hq, hne⟩ := hcan.sent h
    exact ⟨segs, hq, fun _ => hcan, fun _ => hne⟩
  · refine ⟨[], ?_, fun hne => absurd rfl hne, fun h' => absurd h' hcan⟩
    rw [fillWindow_of_not_canSend hcan]
    exact queues_refl s

end TCPSender

end Sponge
