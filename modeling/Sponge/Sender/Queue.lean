import Sponge.Sender.Tracking

set_option autoImplicit false

/-! # The two queues of unacknowledged bytes

The bytes in flight are kept in one deque and the sizes of their segments in another.
`UnAckQueue.erase` keeps the two in step for acknowledgments that end at a segment boundary or
inside the first segment. An acknowledgment that passes a segment and ends inside a later one
leaves the passed sizes in the queue. -/

namespace Sponge

open Word

namespace UnAckQueue

/-- The acknowledgment passes at least one segment and ends inside a later one. -/
def CutsBehindFirst (q : UnAckQueue) (ackno : Nat) : Prop :=
  ∃ k < q.unAckedPayloadSize.length, 0 < k ∧
    q.baseSqn + (q.unAckedPayloadSize.take k).sum < ackno ∧
    ackno < q.baseSqn + (q.unAckedPayloadSize.take (k + 1)).sum

instance (q : UnAckQueue) (ackno : Nat) : Decidable (q.CutsBehindFirst ackno) :=
  inferInstanceAs (Decidable (∃ k < _, _))

/-- An acknowledgment that cuts no segment removes whole segments. -/
theorem eraseLoop_of_boundary (ackno : Nat) (sizes passed : List Nat) (base bytesToErase : Nat)
    (hbase : base < ackno) (hle : ackno ≤ base + sizes.sum)
    (hcut : ∀ k < sizes.length,
      ¬(base + (sizes.take k).sum < ackno ∧ ackno < base + (sizes.take (k + 1)).sum)) :
    ∃ j, (eraseLoop ackno passed sizes base bytesToErase).1 = sizes.drop j ∧
      base + (sizes.take j).sum = ackno := by
  induction sizes generalizing passed base bytesToErase with
  | nil =>
      rw [List.sum_nil] at hle
      omega
  | cons size rest ih =>
      rw [List.sum_cons] at hle
      unfold eraseLoop
      dsimp only
      split_ifs with heq hlt
      · -- the acknowledgment ends with this segment
        exact ⟨1, by simp, by simpa using heq⟩
      · have hrest : ∀ k < rest.length, ¬(base + size + (rest.take k).sum < ackno ∧
            ackno < base + size + (rest.take (k + 1)).sum) := by
          intro k hk hcut'
          apply hcut (k + 1) (by simpa using hk)
          simpa [Nat.add_assoc] using hcut'
        obtain ⟨j, hj, hsum⟩ :=
          ih (passed ++ [size]) (base + size) (bytesToErase + size) hlt (by omega) hrest
        exact ⟨j + 1, by simpa using hj, by simpa [Nat.add_assoc] using hsum⟩
      · -- the walk would cut this segment
        have hfirst := hcut 0 (by simp)
        simp only [List.take_zero, List.sum_nil, Nat.zero_add, List.take_succ_cons,
          List.sum_cons] at hfirst
        omega

/-- What the walk over the sizes leaves: some of the sizes, or all of them in their places, where
one was cut to a positive rest. -/
theorem eraseLoop_sizes (ackno : Nat) (sizes passed : List Nat) (base bytesToErase : Nat)
    (hbase : base < ackno) :
    (eraseLoop ackno passed sizes base bytesToErase).1.Sublist (passed ++ sizes) ∨
      ∃ pre size cut post, passed ++ sizes = pre ++ size :: post ∧ 0 < cut ∧
        (eraseLoop ackno passed sizes base bytesToErase).1 = pre ++ cut :: post := by
  -- along the walk, which moves the sizes below the acknowledgment over to `passed`
  induction sizes generalizing passed base bytesToErase with
  | nil => exact Or.inl (by simp [eraseLoop])
  | cons size rest ih =>
      unfold eraseLoop
      simp only
      split_ifs with heq hlt
      · apply Or.inl
        exact (List.sublist_cons_self size rest).trans (List.sublist_append_right passed _)
      · have hsplit : passed ++ size :: rest = passed ++ [size] ++ rest := by simp
        rw [hsplit]
        exact ih (passed ++ [size]) (base + size) (bytesToErase + size) hlt
      · exact Or.inr ⟨passed, size, size - (ackno - base), rest, rfl, by omega, rfl⟩

/-- Unless it cuts a segment behind the first one, an acknowledgment removes whole segments or
shortens the first one. -/
theorem eraseLoop_cases {ackno base : Nat} {sizes : List Nat} (hbase : base < ackno)
    (hle : ackno ≤ base + sizes.sum)
    (hcut : ¬∃ k < sizes.length, 0 < k ∧ base + (sizes.take k).sum < ackno ∧
      ackno < base + (sizes.take (k + 1)).sum) :
    (∃ j, (eraseLoop ackno [] sizes base 0).1 = sizes.drop j ∧
      base + (sizes.take j).sum = ackno) ∨
    (∃ size rest, sizes = size :: rest ∧ ackno < base + size ∧
      (eraseLoop ackno [] sizes base 0).1 = (size - (ackno - base)) :: rest) := by
  cases sizes with
  | nil =>
      rw [List.sum_nil] at hle
      omega
  | cons size rest =>
      by_cases hfirst : ackno < base + size
      · refine Or.inr ⟨size, rest, rfl, hfirst, ?_⟩
        have hne : ¬base + size = ackno := by omega
        have hnlt : ¬base + size < ackno := by omega
        simp [eraseLoop, hne, hnlt]
      · refine Or.inl (eraseLoop_of_boundary ackno (size :: rest) [] base 0 hbase hle ?_)
        intro k hk hcut'
        by_cases h0 : 0 < k
        · exact hcut ⟨k, hk, h0, hcut'⟩
        · obtain rfl : k = 0 := by omega
          simp only [Nat.zero_add, List.take_succ_cons, List.take_zero, List.sum_cons,
            List.sum_nil] at hcut'
          omega

end UnAckQueue

namespace TCPSender

/-- The remembered sizes are positive, up to the last one after the FIN was sent: a segment with
the FIN alone is remembered with its empty payload. -/
structure Sized (s : TCPSender) : Prop where
  pairwise : s.unAckQueue.unAckedPayloadSize.Pairwise (fun size _ => 0 < size)
  pos : s.unAckQueue.finSent = false → ∀ size ∈ s.unAckQueue.unAckedPayloadSize, 0 < size

section

variable {s s' : TCPSender} {data : Bytes}

theorem sized_new (capacity : UInt64) (retxTimeout : UInt16) (isn : WrappingInt32) :
    (new capacity retxTimeout isn).Sized := by
  constructor <;> simp [new]

theorem Sized.congr (h : s.Sized) (hq : s'.unAckQueue = s.unAckQueue) : s'.Sized := by
  refine ⟨?_, ?_⟩
  · rw [hq]; exact h.pairwise
  · rw [hq]; exact h.pos

theorem Sized.sends (h : s.Sized) (ht : s.Tracks data) {seg : TCPSegment}
    (hs : s.Sends s' seg) : s'.Sized := by
  have hold := h.pos hs.finSent_before
  rcases hs.sizes_eq with ⟨-, hsizes⟩ | ⟨hsyn, hsizes⟩
  · refine ⟨?_, ?_⟩
    · rw [hsizes]; exact h.pairwise
    · rw [hsizes]; exact fun _ => hold
  · -- only a segment with the FIN is entered without payload
    have hpayload : seg.header.fin = false → 0 < seg.payload.length := by
      intro hfin
      have hsent := (ht.synced hsyn).2
      have hlen := hs.length_pos
      simp only [TCPSegment.lengthInSequenceSpace, hs.syn_eq, hsent, hfin, Bool.not_true,
        Bool.false_eq_true, if_false, Nat.add_zero] at hlen
      exact hlen
    refine ⟨?_, ?_⟩
    · rw [hsizes, List.pairwise_append]
      exact ⟨h.pairwise, List.pairwise_singleton _ _, fun size hsize _ _ => hold size hsize⟩
    · rw [hsizes, hs.finSent_eq]
      intro hfin size hsize
      rcases List.mem_append.mp hsize with hsize | hsize
      · exact hold size hsize
      · rw [List.mem_singleton.mp hsize]
        exact hpayload hfin

theorem Sized.fillWindow (h : s.Sized) (ht : s.Tracks data) : s.fillWindow.Sized := by
  refine (fillWindow_rule (P := fun s => s.Tracks data ∧ s.Sized)
    (fun _ h' => ⟨data, h'.1.carries⟩) ?_ ⟨ht, h⟩).2
  rintro s' s'' seg ⟨ht', h'⟩ hs
  exact ⟨ht'.sends hs, h'.sends ht' hs⟩

/-- The walk over the sizes keeps positive sizes positive. -/
theorem Sized.erase (h : s.Sized) {a : Nat} (hbase : s.unAckQueue.baseSqn < a)
    (hfin : ¬(s.unAckQueue.finSent = true ∧ a = s.unAckQueue.nextSeqno)) (timer : Timer) :
    { s with unAckQueue := s.unAckQueue.erase a, timer := timer }.Sized := by
  have hcond : ¬((s.unAckQueue.finSent && a == s.unAckQueue.ackSqnForFin) = true) := by
    simpa [UnAckQueue.ackSqnForFin] using hfin
  have heq : (s.unAckQueue.erase a).unAckedPayloadSize
      = (UnAckQueue.eraseLoop a [] s.unAckQueue.unAckedPayloadSize s.unAckQueue.baseSqn 0).1 := by
    unfold UnAckQueue.erase
    rw [if_neg hcond]
  have hsent : (s.unAckQueue.erase a).finSent = s.unAckQueue.finSent := by
    unfold UnAckQueue.erase
    rw [if_neg hcond]
  -- sizes that stay were positive before, and a size that is cut keeps a positive rest
  rcases UnAckQueue.eraseLoop_sizes a s.unAckQueue.unAckedPayloadSize [] s.unAckQueue.baseSqn 0
      hbase with hsub | ⟨pre, size, cut, post, hsplit, hcut, hres⟩
  · rw [List.nil_append, ← heq] at hsub
    exact ⟨h.pairwise.sublist hsub, fun hf n hn => h.pos (hsent ▸ hf) n (hsub.subset hn)⟩
  · rw [← heq] at hres
    rw [List.nil_append] at hsplit
    have hpairwise := h.pairwise
    have hpos := h.pos
    rw [hsplit] at hpairwise hpos
    rw [List.pairwise_append, List.pairwise_cons] at hpairwise
    refine ⟨?_, ?_⟩
    · show (s.unAckQueue.erase a).unAckedPayloadSize.Pairwise _
      rw [hres, List.pairwise_append, List.pairwise_cons]
      refine ⟨hpairwise.1, ⟨fun _ _ => hcut, hpairwise.2.1.2⟩, ?_⟩
      intro n hn _ _
      exact hpairwise.2.2 n hn size List.mem_cons_self
    · intro hf n hn
      have hn' : n ∈ pre ++ cut :: post := hres ▸ hn
      rcases List.mem_append.mp hn' with hpre | hcons
      · exact hpos (hsent ▸ hf) n (List.mem_append_left _ hpre)
      · rcases List.mem_cons.mp hcons with rfl | hpost
        · exact hcut
        · exact hpos (hsent ▸ hf) n (List.mem_append_right _ (List.mem_cons_of_mem _ hpost))

theorem Sized.ackReceived (h : s.Sized) (ackno : WrappingInt32) (w : UInt16) :
    (s.ackReceived ackno w).Sized := by
  rw [ackReceived_eq]
  have hw : (s.setWindowSize w).Sized := ⟨h.pairwise, h.pos⟩
  split_ifs with hign
  · exact hw
  · have hbase := base_lt_of_not_ignores w hign
    rcases UnAckQueue.updateBase_cases hbase with ⟨-, heq⟩ | ⟨-, -, -, -, heq⟩ |
        ⟨-, -, -, -, heq⟩ | ⟨-, -, -, heq⟩ | ⟨-, hfin, -, heq⟩
    · rw [heq]
      exact ⟨h.pairwise, h.pos⟩
    · rw [heq]
      exact ⟨h.pairwise, h.pos⟩
    · -- the acknowledgment of the FIN empties the queue
      rw [heq]
      exact ⟨List.Pairwise.nil, fun _ size hsize => absurd hsize List.not_mem_nil⟩
    · rw [heq]
      exact ⟨h.pairwise, h.pos⟩
    · rw [heq]
      exact hw.erase hbase hfin _

/-- A first size of zero would be the only one. -/
theorem Sized.head_pos (h : s.Sized)
    (hge : s.unAckQueue.unAcked.length ≤ s.unAckQueue.unAckedPayloadSize.sum)
    (hne : s.unAckQueue.unAcked ≠ []) : 0 < s.unAckQueue.unAckedPayloadSize.headD 0 := by
  have hlen := List.length_pos_iff_ne_nil.mpr hne
  have hpairwise := h.pairwise
  cases hsizes : s.unAckQueue.unAckedPayloadSize with
  | nil =>
      rw [hsizes, List.sum_nil] at hge
      omega
  | cons size rest =>
      rw [hsizes] at hge hpairwise
      cases rest with
      | nil =>
          simp only [List.sum_cons, List.sum_nil, Nat.add_zero] at hge
          exact hlen.trans_le hge
      | cons size' rest' =>
          exact (List.pairwise_cons.mp hpairwise).1 size' List.mem_cons_self

end

/-- The segment sizes describe the unacknowledged bytes: they are positive and bounded, and they
add up to what is outstanding. -/
structure InStep (s : TCPSender) : Prop extends Sized s where
  sum_eq : s.unAckQueue.unAckedPayloadSize.sum = s.unAckQueue.unAcked.length
  le_max : ∀ n ∈ s.unAckQueue.unAckedPayloadSize, n ≤ TCPConfig.maxPayloadSize

section

variable {s s' : TCPSender} {data : Bytes}

theorem inStep_new (capacity : UInt64) (retxTimeout : UInt16) (isn : WrappingInt32) :
    (new capacity retxTimeout isn).InStep :=
  ⟨sized_new capacity retxTimeout isn, by simp [new], by simp [new]⟩

theorem InStep.congr (h : s.InStep) (hq : s'.unAckQueue = s.unAckQueue) : s'.InStep := by
  refine ⟨h.toSized.congr hq, ?_, ?_⟩
  · rw [hq]; exact h.sum_eq
  · rw [hq]; exact h.le_max

theorem InStep.sends (h : s.InStep) (ht : s.Tracks data) {seg : TCPSegment}
    (hs : s.Sends s' seg) : s'.InStep := by
  refine ⟨h.toSized.sends ht hs, ?_, ?_⟩
  · rcases hs.sizes_eq with ⟨hnil, hsizes⟩ | ⟨-, hsizes⟩
    · rw [hsizes, hs.unAcked_eq, hnil, List.append_nil]
      exact h.sum_eq
    · rw [hsizes, hs.unAcked_eq, List.sum_append, List.sum_singleton, List.length_append, h.sum_eq]
  · rcases hs.sizes_eq with ⟨-, hsizes⟩ | ⟨-, hsizes⟩
    · rw [hsizes]
      exact h.le_max
    · rw [hsizes]
      intro n hn
      rcases List.mem_append.mp hn with hn | hn
      · exact h.le_max n hn
      · rw [List.mem_singleton.mp hn]
        exact hs.payload_max

theorem InStep.fillWindow (h : s.InStep) (ht : s.Tracks data) : s.fillWindow.InStep :=
  (fillWindow_rule (P := fun s => s.Tracks data ∧ s.InStep) (fun _ hs => ⟨data, hs.1.carries⟩)
    (fun _ _ _ hs hseg => ⟨hs.1.sends hseg, hs.2.sends hs.1 hseg⟩) ⟨ht, h⟩).2

/-- The bytes in front of the FIN are acknowledged, and no segment behind the first is cut. -/
theorem InStep.erase (h : s.InStep) {a : Nat} (hbase : s.unAckQueue.baseSqn < a)
    (hle : a ≤ s.unAckQueue.baseSqn + s.unAckQueue.unAcked.length)
    (hfin : ¬(s.unAckQueue.finSent = true ∧ a = s.unAckQueue.nextSeqno))
    (hcut : ¬s.unAckQueue.CutsBehindFirst a) (timer : Timer) :
    { s with unAckQueue := s.unAckQueue.erase a, timer := timer }.InStep := by
  have hsum := h.sum_eq
  have hcond : ¬((s.unAckQueue.finSent && a == s.unAckQueue.ackSqnForFin) = true) := by
    simpa [UnAckQueue.ackSqnForFin] using hfin
  obtain ⟨e, he, -, hn, -⟩ :=
    UnAckQueue.eraseLoop_spec a s.unAckQueue.unAckedPayloadSize [] s.unAckQueue.baseSqn 0 hbase
      (by simp)
  obtain rfl : e = a - s.unAckQueue.baseSqn := by omega
  have hlen : (s.unAckQueue.unAcked.drop (a - s.unAckQueue.baseSqn)).length
      = s.unAckQueue.unAcked.length - (a - s.unAckQueue.baseSqn) := List.length_drop
  have herase : s.unAckQueue.erase a = { s.unAckQueue with
      unAckedPayloadSize :=
        (UnAckQueue.eraseLoop a [] s.unAckQueue.unAckedPayloadSize s.unAckQueue.baseSqn 0).1
      baseSqn :=
        (UnAckQueue.eraseLoop a [] s.unAckQueue.unAckedPayloadSize s.unAckQueue.baseSqn 0).2.1
      unAcked := s.unAckQueue.unAcked.drop (a - s.unAckQueue.baseSqn) } := by
    unfold UnAckQueue.erase
    rw [if_neg hcond]
    simp only [hn, Nat.zero_add]
  have hsized := h.toSized.erase hbase hfin timer
  rw [herase] at hsized ⊢
  rcases UnAckQueue.eraseLoop_cases hbase (by omega) hcut with
      ⟨j, hj, hjsum⟩ | ⟨size, rest, hsizes, hlt, hcons⟩
  · -- whole segments: what stays is a suffix of the sizes
    rw [hj] at hsized ⊢
    refine ⟨hsized, ?_, fun n hn => h.le_max n (List.mem_of_mem_drop hn)⟩
    have hsplit := List.sum_take_add_sum_drop s.unAckQueue.unAckedPayloadSize j
    dsimp only
    omega
  · -- part of the first segment
    have hmax := h.le_max
    rw [hsizes] at hsum hmax
    rw [hcons] at hsized ⊢
    rw [List.sum_cons] at hsum
    refine ⟨hsized, ?_, ?_⟩
    · dsimp only
      rw [List.sum_cons]
      omega
    · intro n hn
      rcases List.mem_cons.mp hn with rfl | hn
      · have := hmax size (by simp)
        omega
      · exact hmax n (List.mem_cons_of_mem _ hn)

theorem InStep.ackReceived (h : s.InStep) (ht : s.Tracks data) {ackno : WrappingInt32}
    (hle : s.absAckno ackno ≤ s.unAckQueue.nextSeqno)
    (hcut : ¬s.unAckQueue.CutsBehindFirst (s.absAckno ackno)) (w : UInt16) :
    (s.ackReceived ackno w).InStep := by
  have hw : (s.setWindowSize w).InStep := ⟨⟨h.pairwise, h.pos⟩, h.sum_eq, h.le_max⟩
  have hcut' : ¬(s.setWindowSize w).unAckQueue.CutsBehindFirst (s.absAckno ackno) := hcut
  rw [ackReceived_eq]
  split_ifs with hign
  · exact hw
  · have hbase := base_lt_of_not_ignores w hign
    rcases UnAckQueue.updateBase_cases hbase with ⟨-, heq⟩ | ⟨-, hf, hn, hu, heq⟩ |
        ⟨-, hf, hn, hu, heq⟩ | ⟨-, hf, hu, heq⟩ | ⟨hone, hf, hu, heq⟩
    · rw [heq]
      exact ⟨⟨h.pairwise, h.pos⟩, h.sum_eq, h.le_max⟩
    · rw [heq]
      exact ⟨⟨h.pairwise, h.pos⟩, h.sum_eq, h.le_max⟩
    · rw [heq]
      exact ⟨⟨by simp, by simp⟩, rfl, by simp⟩
    · rw [heq]
      exact hw.congr rfl
    · rw [heq]
      refine hw.erase hbase ?_ hf hcut' _
      -- the queue is not empty, so the SYN was acknowledged and only the FIN is above the bytes
      have hadd := ht.base_add
      have hsyn : s.unAckQueue.synAcked = true := by
        by_contra hsyn
        exact hu (ht.unsynced (by simpa using hsyn)).2.1
      simp only [hsyn, Bool.not_true, Bool.and_false, if_neg Bool.false_ne_true] at hadd
      show s.absAckno ackno ≤ s.unAckQueue.baseSqn + s.unAckQueue.unAcked.length
      have hf' : s.unAckQueue.finSent = true → s.absAckno ackno ≠ s.unAckQueue.nextSeqno :=
        fun h1 h2 => hf ⟨h1, h2⟩
      by_cases hfinSent : s.unAckQueue.finSent = true
      · have := hf' hfinSent
        split_ifs at hadd <;> omega
      · simp only [hfinSent, Bool.false_and, if_neg Bool.false_ne_true] at hadd
        omega

/-! ## Retransmission -/

/-- `seg` is the first outstanding segment of the sender `s`, whose stream has accepted `data`:
it starts at the base, its bytes are read from the queue and are those of the stream, and it
carries the SYN and the FIN if they are there. -/
structure Retransmission (s : TCPSender) (data : Bytes) (seg : TCPSegment) : Prop where
  seqno_eq : seg.header.seqno = wrap s.unAckQueue.baseSqn s.isn
  length_pos : 1 ≤ seg.lengthInSequenceSpace
  length_le : s.unAckQueue.baseSqn + seg.lengthInSequenceSpace ≤ s.unAckQueue.nextSeqno
  payload_max : seg.payload.length ≤ 1000
  payload_queued : seg.payload <+: s.unAckQueue.unAcked
  payload_eq : seg.payload
    = (data.drop (s.unAckQueue.baseSqn - 1)).take seg.payload.length
  syn_iff : seg.header.syn = true ↔ s.unAckQueue.baseSqn = 0
  fin_iff : seg.header.fin = true ↔ s.unAckQueue.finSent = true ∧
    s.unAckQueue.baseSqn + seg.lengthInSequenceSpace = s.unAckQueue.nextSeqno

/-- The first size is positive and lies inside the queue of bytes. -/
theorem InStep.front (h : s.InStep) (hne : s.unAckQueue.unAcked ≠ []) :
    0 < s.unAckQueue.unAckedPayloadSize.headD 0 ∧
      s.unAckQueue.unAckedPayloadSize.headD 0 ≤ s.unAckQueue.unAcked.length ∧
      s.unAckQueue.unAckedPayloadSize.headD 0 ≤ TCPConfig.maxPayloadSize := by
  have hsum := h.sum_eq
  have hmax := h.le_max
  refine ⟨h.head_pos hsum.ge hne, ?_⟩
  cases hsizes : s.unAckQueue.unAckedPayloadSize with
  | nil => simp
  | cons size rest =>
      rw [hsizes] at hsum hmax
      rw [List.sum_cons] at hsum
      exact ⟨by show size ≤ _; omega, hmax size (by simp)⟩

/-- A read inside the queue returns its first bytes. -/
theorem readFront_eq (junk : Nat → UInt8) {bytes : Bytes} {n : Nat} (hn : n ≤ bytes.length) :
    UnAckQueue.readFront junk bytes n = bytes.take n := by
  unfold UnAckQueue.readFront
  rw [Nat.sub_eq_zero_of_le hn, List.range_zero, List.map_nil, List.append_nil]

/-- The segment at the front of the queue, when its size lies inside the queue. -/
theorem frontSeg_payload (junk : Nat → UInt8) (q : UnAckQueue) (isn : WrappingInt32)
    (hle : q.unAckedPayloadSize.headD 0 ≤ q.unAcked.length) :
    (q.frontSeg junk isn).payload = q.unAcked.take (q.unAckedPayloadSize.headD 0) ∧
      (q.frontSeg junk isn).payload.length = q.unAckedPayloadSize.headD 0 := by
  have hpayload : (q.frontSeg junk isn).payload
      = q.unAcked.take (q.unAckedPayloadSize.headD 0) := readFront_eq junk hle
  refine ⟨hpayload, ?_⟩
  rw [hpayload, List.length_take]
  omega

theorem frontSeg_fin (junk : Nat → UInt8) (q : UnAckQueue) (isn : WrappingInt32) :
    (q.frontSeg junk isn).header.fin = true ↔
      q.finSent = true ∧ q.nextSeqno - 1 = q.baseSqn + q.unAckedPayloadSize.headD 0 := by
  simp [UnAckQueue.frontSeg, UnAckQueue.ackSqnForFin]

theorem Tracks.frontSeg_retransmission (ht : s.Tracks data) (h : s.InStep)
    (hsyn : s.unAckQueue.synAcked = true) (hne : s.unAckQueue.unAcked ≠ []) (junk : Nat → UInt8) :
    s.Retransmission data (s.unAckQueue.frontSeg junk s.isn) := by
  obtain ⟨hpos, hle, hmax⟩ := h.front hne
  obtain ⟨hpayload, hlenPayload⟩ := frontSeg_payload junk s.unAckQueue s.isn hle
  have hfin := frontSeg_fin junk s.unAckQueue s.isn
  have hlen : (s.unAckQueue.frontSeg junk s.isn).lengthInSequenceSpace
      = s.unAckQueue.unAckedPayloadSize.headD 0
        + if (s.unAckQueue.frontSeg junk s.isn).header.fin then 1 else 0 := by
    rw [TCPSegment.lengthInSequenceSpace, hlenPayload]
    rfl
  generalize s.unAckQueue.unAckedPayloadSize.headD 0 = n at *
  have hadd := ht.base_add
  have hbase := (ht.synced hsyn).1
  have hunAcked := ht.unAcked_length
  -- the FIN is outstanding if it was sent, because bytes are
  have hfinAcked : s.unAckQueue.finAcked = false := by
    by_contra hfa
    have hfull := (ht.finAcked_iff.mp (by simpa using hfa)).2
    omega
  simp only [hsyn, hfinAcked, Bool.not_true, Bool.not_false, Bool.and_false, Bool.and_true,
    if_neg Bool.false_ne_true] at hadd
  refine ⟨rfl, ?_, ?_, ?_, ?_, ?_, ?_, ?_⟩
  · omega
  · rw [hlen]
    by_cases hf : (s.unAckQueue.frontSeg junk s.isn).header.fin = true
    · have := hfin.mp hf
      rw [if_pos hf]
      omega
    · rw [if_neg hf]
      omega
  · rw [hlenPayload]
    exact hmax
  · rw [hpayload]
    exact List.take_prefix _ _
  · rw [hlenPayload, hpayload, ht.unAcked_eq, List.drop_take, List.take_take,
      Nat.min_eq_left (by omega)]
  · simp only [UnAckQueue.frontSeg, Bool.false_eq_true, false_iff]
    omega
  · rw [hlen]
    by_cases hf : (s.unAckQueue.frontSeg junk s.isn).header.fin = true
    · have := hfin.mp hf
      simp only [hf, if_true, true_iff]
      exact ⟨this.1, by omega⟩
    · rw [if_neg hf]
      refine ⟨fun hf' => absurd hf' hf, ?_⟩
      rintro ⟨hfs, hend⟩
      rw [if_pos hfs] at hadd
      omega

/-- Every timeout retransmits the first outstanding segment. -/
theorem Tracks.tick_retransmission (ht : s.Tracks data) (h : s.InStep) (junk : Nat → UInt8)
    {ms : Nat} (hexp : s.timer.expires ms = true) :
    ∃ seg, (s.tick junk ms).segmentsOut = s.segmentsOut ++ [seg] ∧ s.Retransmission data seg := by
  have hrun := Timer.running_of_expires hexp
  obtain ⟨timer, heq⟩ := ht.tick_eq junk ms
  refine ⟨(s.retransmitSeg junk).1, by rw [heq, if_pos hexp], ?_⟩
  rcases ht.retransmitSeg_cases hrun junk with ⟨hsyn, hbase, hnext, heq⟩ |
      ⟨hsyn, hfin, hnil, hbase, heq⟩ | ⟨hsyn, hne, heq⟩
  · have hfin := (ht.opening hsyn).2.2
    rw [heq]
    constructor <;> simp [TCPSegment.lengthInSequenceSpace, hbase, hnext, hfin]
  · have hpos := (ht.synced hsyn).1
    rw [heq]
    constructor <;> simp [TCPSegment.lengthInSequenceSpace, hbase, hfin]
    omega
  · rw [heq]
    exact ht.frontSeg_retransmission h hsyn hne junk

end

/-- An acknowledgment is one that a conforming peer may send. -/
def Conforming (s : TCPSender) : SenderOp → Prop
  | .ackReceived ackno _ => 1 ≤ s.absAckno ackno ∧ s.absAckno ackno ≤ s.unAckQueue.nextSeqno
  | _ => True

/-- An acknowledgment does not cut a segment behind the first outstanding one. -/
def CutsFirstOnly (s : TCPSender) : SenderOp → Prop
  | .ackReceived ackno _ => ¬s.unAckQueue.CutsBehindFirst (s.absAckno ackno)
  | _ => True

instance decidableConforming (s : TCPSender) : ∀ op, Decidable (s.Conforming op)
  | .ackReceived _ _ => inferInstanceAs (Decidable (_ ∧ _))
  | .write _ | .endInput | .setError | .fillWindow | .tick _ | .sendEmptySegment
  | .popSegments _ => .isTrue trivial

instance decidableCutsFirstOnly (s : TCPSender) : ∀ op, Decidable (s.CutsFirstOnly op)
  | .ackReceived _ _ => inferInstanceAs (Decidable (¬_))
  | .write _ | .endInput | .setError | .fillWindow | .tick _ | .sendEmptySegment
  | .popSegments _ => .isTrue trivial

theorem Tracks.step {s : TCPSender} {data : Bytes} (ht : s.Tracks data) (junk : Nat → UInt8)
    {op : SenderOp} (hop : s.Conforming op) : (s.step junk op).Tracks (data ++ s.accepts op) := by
  cases op with
  | write d => exact ht.write d
  | endInput => simpa [accepts, TCPSender.step] using ht.endStream
  | setError => simpa [accepts, TCPSender.step] using ht.setError
  | fillWindow => simpa [accepts, TCPSender.step] using ht.fillWindow
  | ackReceived ackno w =>
      simpa [accepts, TCPSender.step] using ht.ackReceived hop.1 (Or.inl hop.2) w
  | tick ms => simpa [accepts, TCPSender.step] using ht.tick junk ms.toNat
  | sendEmptySegment =>
      simpa [accepts, TCPSender.step, TCPSender.sendEmptySegment] using ht.segmentsOut _
  | popSegments n => simpa [accepts, TCPSender.step] using ht.segmentsOut _

theorem Sized.step {s : TCPSender} {data : Bytes} (h : s.Sized) (ht : s.Tracks data) (junk : Nat → UInt8) (op : SenderOp) :
    (s.step junk op).Sized := by
  cases op with
  | fillWindow => exact h.fillWindow ht
  | ackReceived ackno w => exact h.ackReceived ackno w
  | tick ms =>
      obtain ⟨timer, heq⟩ := ht.tick_eq junk ms.toNat
      show (s.tick junk ms.toNat).Sized
      rw [heq]
      exact h.congr rfl
  | write d => exact h.congr rfl
  | endInput => exact h.congr rfl
  | setError => exact h.congr rfl
  | sendEmptySegment => exact h.congr rfl
  | popSegments n => exact h.congr rfl

theorem InStep.step {s : TCPSender} {data : Bytes} (h : s.InStep) (ht : s.Tracks data)
    (junk : Nat → UInt8) {op : SenderOp} (hop : s.Conforming op) (hcut : s.CutsFirstOnly op) :
    (s.step junk op).InStep := by
  cases op with
  | fillWindow => exact h.fillWindow ht
  | ackReceived ackno w => exact h.ackReceived ht hop.2 hcut w
  | tick ms =>
      obtain ⟨timer, heq⟩ := ht.tick_eq junk ms.toNat
      show (s.tick junk ms.toNat).InStep
      rw [heq]
      exact h.congr rfl
  | write d => exact h.congr rfl
  | endInput => exact h.congr rfl
  | setError => exact h.congr rfl
  | sendEmptySegment => exact h.congr rfl
  | popSegments n => exact h.congr rfl

end TCPSender

/-! ## Runs -/

/-- A sender together with the bytes that its stream has accepted so far. -/
structure Outbound where
  sender : TCPSender
  accepted : Bytes := []

namespace Outbound

def new (capacity : UInt64) (retxTimeout : UInt16) (isn : WrappingInt32) : Outbound :=
  { sender := TCPSender.new capacity retxTimeout isn }

def step (junk : Nat → UInt8) (g : Outbound) (op : SenderOp) : Outbound :=
  { sender := g.sender.step junk op, accepted := g.accepted ++ g.sender.accepts op }

/-- What the bookkeeping of unacknowledged segments is for. -/
structure QueuesAgree (g : Outbound) : Prop where
  sum_eq : g.sender.unAckQueue.unAckedPayloadSize.sum = g.sender.unAckQueue.unAcked.length
  length_eq : g.sender.unAckQueue.baseSqn + g.sender.unAckQueue.unAcked.length
      + (if g.sender.unAckQueue.synSent && !g.sender.unAckQueue.synAcked then 1 else 0)
      + (if g.sender.unAckQueue.finSent && !g.sender.unAckQueue.finAcked then 1 else 0)
    = g.sender.unAckQueue.nextSeqno
  retransmits : ∀ (junk : Nat → UInt8) (ms : Nat), g.sender.timer.expires ms = true →
    ∃ seg, (g.sender.tick junk ms).segmentsOut = g.sender.segmentsOut ++ [seg] ∧
      g.sender.Retransmission g.accepted seg

/-- **The queues agree in every run** with acknowledgments of a conforming peer that cut no
segment behind the first outstanding one. -/
theorem run_queuesAgree (junk : Nat → UInt8) (capacity : UInt64) (retxTimeout : UInt16)
    (isn : WrappingInt32) (ops : List SenderOp)
    (hok : Run.Admits (step junk)
      (fun g op => g.sender.Conforming op ∧ g.sender.CutsFirstOnly op)
      (new capacity retxTimeout isn) ops) :
    (Run.run (step junk) (new capacity retxTimeout isn) ops).QueuesAgree := by
  have hinv := Run.run_invariant
    (I := fun g : Outbound => g.sender.Tracks g.accepted ∧ g.sender.InStep)
    (fun g op hg hop => ⟨hg.1.step junk hop.1, hg.2.step hg.1 junk hop.1 hop.2⟩)
    ⟨TCPSender.tracks_new capacity retxTimeout isn,
      TCPSender.inStep_new capacity retxTimeout isn⟩ hok
  exact ⟨hinv.2.sum_eq, hinv.1.base_add,
    fun junk' _ hexp => hinv.1.tick_retransmission hinv.2 junk' hexp⟩

/-- The handshake and two segments of three bytes, acknowledged up to `ackno`. -/
def twoSegments (ackno : BitVec 32) : List SenderOp :=
  [.fillWindow, .ackReceived ⟨1⟩ 10, .write [97, 98, 99], .fillWindow, .write [100, 101, 102],
    .fillWindow, .ackReceived ⟨ackno⟩ 10]

theorem twoSegments_queuesAgree :
    (Run.run (step fun _ => 0) (new 64000 1000 ⟨0⟩) (twoSegments 3)).QueuesAgree :=
  run_queuesAgree (fun _ => 0) 64000 1000 ⟨0⟩ (twoSegments 3) (by decide +kernel)

/-- When the second segment is cut, the size of the first one stays in the queue. -/
theorem twoSegments_cut_not_queuesAgree :
    Run.Admits (step fun _ => 0) (fun g op => g.sender.Conforming op)
        (new 64000 1000 ⟨0⟩) (twoSegments 5) ∧
      ¬(Run.run (step fun _ => 0) (new 64000 1000 ⟨0⟩) (twoSegments 5)).QueuesAgree := by
  refine ⟨by decide +kernel, ?_⟩
  intro h
  exact absurd h.sum_eq (by decide +kernel)

end Outbound

end Sponge
