import Sponge.Sender.Invariant

set_option autoImplicit false

/-! # The base and the next sequence number

`bytes_in_flight` is the difference of the next sequence number and the base. The base follows
the acknowledgments, and only after the FIN was sent are these compared with what was sent. The
condition `KeepsBase` says which acknowledgments move the base beyond the next number: the one
of a SYN that was not sent, and those that walk over sizes of segments that are already
acknowledged. -/

namespace Sponge

open Word

namespace TCPSender

/-- The largest size of a `std::deque<char>`. -/
def dequeMax : Nat := 2 ^ 63 - 1

/-- The bytes in flight are counted without wrapping around. -/
structure CountsFlight (s : TCPSender) : Prop where
  base_le : s.unAckQueue.baseSqn ≤ s.nextSeqnoAbsolute
  flight_eq : s.unAckQueue.unAcked.length ≤ dequeMax →
    s.bytesInFlight = s.nextSeqnoAbsolute - s.unAckQueue.baseSqn
  flight_le : s.bytesInFlight ≤ s.nextSeqnoAbsolute

/-- An acknowledgment acknowledges something that was sent; or the FIN was sent; or it is not
the number of the SYN, and finds no bytes or only sizes of outstanding bytes in the queue. -/
def KeepsBase (s : TCPSender) : SenderOp → Prop
  | .ackReceived ackno _ =>
      s.absAckno ackno ≤ s.unAckQueue.nextSeqno ∨ s.unAckQueue.finSent = true ∨
        (s.absAckno ackno ≠ 1 ∧ (s.unAckQueue.unAcked = [] ∨
          s.unAckQueue.baseSqn + s.unAckQueue.unAckedPayloadSize.sum ≤ s.unAckQueue.nextSeqno))
  | _ => True

instance decidableKeepsBase (s : TCPSender) : ∀ op, Decidable (s.KeepsBase op)
  | .ackReceived _ _ => inferInstanceAs (Decidable (_ ∨ _ ∨ _))
  | .write _ | .endInput | .setError | .fillWindow | .tick _ | .sendEmptySegment
  | .popSegments _ => .isTrue trivial

section

variable {s : TCPSender} {data : Bytes}

/-- The outstanding bytes bound what is in flight. -/
theorem Sound.flight_le_unAcked (h : s.Sound data) :
    s.unAckQueue.nextSeqno ≤ s.unAckQueue.baseSqn + s.unAckQueue.unAcked.length + 2 := by
  have hnext := h.next_eq
  by_cases hsyn : s.unAckQueue.synAcked = true
  · have hcov := h.covered hsyn
    split_ifs at hnext <;> omega
  · -- nothing has been read from the stream in front of the acknowledgment of the SYN
    have hread := (h.unsynced (by simpa using hsyn)).1
    split_ifs at hnext <;> omega

theorem Sound.countsFlight_iff (h : s.Sound data) :
    s.CountsFlight ↔ s.unAckQueue.baseSqn ≤ s.unAckQueue.nextSeqno := by
  refine ⟨fun hc => hc.base_le, fun hle => ⟨hle, fun hdeque => ?_, ?_⟩⟩
  · have hflight := h.flight_le_unAcked
    unfold dequeMax at hdeque
    exact sub64_eq hle (by omega)
  · exact (sub64_le hle).trans (Nat.sub_le _ _)

/-- Where an acknowledgment above the base moves it. -/
theorem updateBase_base_le_iff {q : UnAckQueue} {a : Nat} (hle : q.baseSqn ≤ q.nextSeqno)
    (hbase : q.baseSqn < a) (hfin : q.finSent = true → a ≤ q.nextSeqno) :
    (q.updateBase a).baseSqn ≤ q.nextSeqno ↔ a ≤ q.nextSeqno ∨ q.finSent = true ∨
      (a ≠ 1 ∧ (q.unAcked = [] ∨ q.baseSqn + q.unAckedPayloadSize.sum ≤ q.nextSeqno)) := by
  rcases UnAckQueue.updateBase_cases hbase with ⟨ha, heq⟩ | ⟨hne, hf, hn, hu, heq⟩ |
      ⟨hne, hf, hn, hu, heq⟩ | ⟨hne, -, hu, heq⟩ | ⟨hne, hf, hu, heq⟩
  · -- the number of the SYN, whether it was sent or not
    have hsent : q.finSent = true → 1 ≤ q.nextSeqno := fun hfs => ha ▸ hfin hfs
    rw [heq]
    simp only [ha, ne_eq, not_true_eq_false, false_and, or_false]
    exact ⟨Or.inl, fun h => h.elim id hsent⟩
  · rw [heq]
    simp only [hf, true_or, or_true, iff_true]
    omega
  · rw [heq]
    simp only [hf, true_or, or_true, iff_true]
    omega
  · rw [heq]
    simp only [hne, hu, ne_eq, not_false_eq_true, true_or, and_self, or_true, iff_true]
    exact hle
  · -- the walk ends at the acknowledgment, or behind the last size
    obtain ⟨sizes, e, he, -, heq'⟩ := UnAckQueue.erase_spec hbase hf
    rw [heq, heq']
    simp only [hne, hu, ne_eq, not_false_eq_true, true_and, false_or]
    constructor
    · intro hwalk
      omega
    · rintro (hack | hsent | hsizes)
      · omega
      · have hack := hfin hsent
        omega
      · omega

theorem ackReceived_base_le_iff (hle : s.unAckQueue.baseSqn ≤ s.unAckQueue.nextSeqno)
    (ackno : WrappingInt32) (w : UInt16) :
    (s.ackReceived ackno w).unAckQueue.baseSqn ≤ (s.ackReceived ackno w).unAckQueue.nextSeqno ↔
      s.KeepsBase (.ackReceived ackno w) := by
  rw [(ackReceived_frame s ackno w).2.2.1, ackReceived_eq]
  split_ifs with hign
  · -- an acknowledgment that is ignored lies below the base, or comes after the FIN
    have hkeeps : s.KeepsBase (.ackReceived ackno w) := by
      rcases hign with ⟨hfin, -⟩ | hlow
      · exact Or.inr (Or.inl hfin)
      · exact Or.inl (hlow.trans hle)
    exact ⟨fun _ => hkeeps, fun _ => hle⟩
  · -- an acknowledgment that is used after the FIN is at most that of the FIN
    refine updateBase_base_le_iff (q := (s.setWindowSize w).unAckQueue) hle
      (base_lt_of_not_ignores w hign) ?_
    intro hfin
    by_contra hgt
    exact hign (Or.inl ⟨hfin, Nat.lt_of_not_le hgt⟩)

/-- **What a call does to the base**, from a state in which it is in order. -/
theorem Sound.step_countsFlight_iff (h : s.Sound data) (hc : s.CountsFlight) (junk : Nat → UInt8)
    (op : SenderOp) : (s.step junk op).CountsFlight ↔ s.KeepsBase op := by
  have hle : s.unAckQueue.baseSqn ≤ s.unAckQueue.nextSeqno := hc.base_le
  rw [(h.step junk op).countsFlight_iff]
  cases op with
  | ackReceived ackno w => exact ackReceived_base_le_iff hle ackno w
  | fillWindow =>
      simp only [KeepsBase, iff_true]
      refine (fillWindow_rule (P := fun s => s.Sound data ∧
        s.unAckQueue.baseSqn ≤ s.unAckQueue.nextSeqno) (fun _ h' => ⟨data, h'.1.carries⟩) ?_
        ⟨h, hle⟩).2
      rintro s' s'' seg ⟨hs', hle'⟩ hsends
      refine ⟨hs'.sends hsends, ?_⟩
      rw [hsends.base_eq, hsends.next_eq]
      omega
  | tick ms =>
      simp only [KeepsBase, iff_true]
      obtain ⟨q, timer, segs, heq, hq⟩ := tick_frame junk s ms.toNat
      show (s.tick junk ms.toNat).unAckQueue.baseSqn ≤ (s.tick junk ms.toNat).unAckQueue.nextSeqno
      rw [heq]
      -- a FIN on a repeated SYN moves the next number up
      rcases hq with rfl | ⟨-, rfl⟩
      · exact hle
      · exact hle.trans (Nat.le_succ _)
  | write d | endInput | setError | sendEmptySegment | popSegments n =>
      simp only [KeepsBase, iff_true]
      exact hle

end

/-! ## Runs -/

/-- **The bytes in flight are counted in every state of a run** exactly if every acknowledgment
of the run keeps the base. -/
theorem run_countsFlight_iff (junk : Nat → UInt8) (capacity : UInt64) (retxTimeout : UInt16)
    (isn : WrappingInt32) (ops : List SenderOp) :
    (∀ before after, ops = before ++ after →
        (Run.run (step junk) (new capacity retxTimeout isn) before).CountsFlight) ↔
      Run.Admits (step junk) KeepsBase (new capacity retxTimeout isn) ops := by
  have hnew := sound_new capacity retxTimeout isn
  refine Run.admits_iff_forall (I := fun s : TCPSender => ∃ data, s.Sound data) ?_ ?_
    ⟨[], hnew⟩ (hnew.countsFlight_iff.mpr le_rfl) ops
  · rintro s op ⟨data, h⟩
    exact ⟨_, h.step junk op⟩
  · rintro s op ⟨data, h⟩ hc
    exact h.step_countsFlight_iff hc junk op

/-- The number of a SYN that was not sent moves the base beyond the next number, and the bytes
in flight wrap around. -/
theorem ack_before_syn_not_countsFlight :
    ¬(Run.run (step fun _ => 0) (new 64000 1000 ⟨0⟩) [.ackReceived ⟨1⟩ 10]).CountsFlight ∧
      (Run.run (step fun _ => 0) (new 64000 1000 ⟨0⟩) [.ackReceived ⟨1⟩ 10]).bytesInFlight
        = 2 ^ 64 - 1 := by
  refine ⟨fun hc => ?_, by decide +kernel⟩
  exact absurd hc.base_le (by decide +kernel)

end TCPSender

end Sponge
