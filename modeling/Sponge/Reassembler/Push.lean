import Sponge.Reassembler.Cut

set_option autoImplicit false

/-! # What a push does

`Wf r done` is the invariant of the reassembler: the output has accepted the bytes `done`,
`exIdx` is their number, and the map of stored substrings is well formed behind it. The flush
loop moves stored bytes to the output (`flush_spec`), and `pushSubstring_spec` puts recording
the end, cutting, storing and flushing together. It speaks about every push whose data ends
below `2 ^ 64`, consistent with earlier ones or not. -/

namespace Sponge

open Word Pieces

namespace StreamReassembler

/-- The reassembler is well formed and its output has accepted the bytes `done`. -/
structure Wf (r : StreamReassembler) (done : Bytes) : Prop where
  out : r.output.Carries done
  exIdx_eq : r.exIdx = done.length
  capacity_eq : r.output.capacity = r.capacity
  stored : Stored r.unassembledStrs r.unassembledSize r.exIdx

theorem wf_new (capacity : UInt64) : (new capacity).Wf [] where
  out := ByteStream.carries_new capacity
  exIdx_eq := rfl
  capacity_eq := rfl
  stored := stored_empty 0

theorem Wf.popOutput {r : StreamReassembler} {done : Bytes} (h : r.Wf done) (len : Nat) :
    (r.popOutput len).Wf done :=
  ⟨h.out.popOutput len, h.exIdx_eq, h.capacity_eq, h.stored⟩

theorem Wf.written_eq {r : StreamReassembler} {done : Bytes} (h : r.Wf done) :
    r.output.numBytesWritten = r.exIdx :=
  h.out.written.trans h.exIdx_eq.symm

/-! ## The flush loop -/

/-- The flush loop has moved the bytes `w` from the map of `r` to the output, and stopped
where it had to. -/
structure Flushes (r r' : StreamReassembler) (done w : Bytes) : Prop where
  wf : r'.Wf (done ++ w)
  moved : ∀ j b, w[j]? = some b → Holds r.unassembledStrs (r.exIdx + j) b
  held : ∀ i b, Holds r'.unassembledStrs i b ↔ Holds r.unassembledStrs i b ∧ r'.exIdx ≤ i
  eofSign : r'.eofSignRecv = r.eofSignRecv
  eofIdx : r'.eofIdx = r.eofIdx
  capacity : r'.capacity = r.capacity
  read : r'.output.numBytesRead = r.output.numBytesRead
  error : r'.output.error = r.output.error
  ended : r'.output.isInputEnd = true →
    r.output.isInputEnd = true ∨ (r.eofSignRecv = true ∧ r.eofIdx ≤ r'.exIdx)
  ends : r.output.isInputEnd = true ∨
    (r.eofSignRecv = true ∧ r.eofIdx ≤ r'.exIdx ∧ ∃ d, (r.exIdx, d) ∈ r.unassembledStrs) →
    r'.output.isInputEnd = true
  stop : ∀ e ∈ r'.unassembledStrs, e.1 = r'.exIdx →
    r'.output.isInputEnd = true ∨ r'.output.size = r'.output.capacity

theorem Flushes.refl {r : StreamReassembler} {done : Bytes} (h : r.Wf done)
    (hne : ∀ e ∈ r.unassembledStrs, e.1 ≠ r.exIdx) : Flushes r r done [] where
  wf := by rwa [List.append_nil]
  moved _ _ h := by cases h
  held i b := ⟨fun hb => ⟨hb, h.stored.le_of_holds hb⟩, fun hb => hb.1⟩
  eofSign := rfl
  eofIdx := rfl
  capacity := rfl
  read := rfl
  error := rfl
  ended := Or.inl
  ends := by
    rintro (h | ⟨_, _, d, hd⟩)
    · exact h
    · exact absurd rfl (hne _ hd)
  stop e he hk := absurd hk (hne e he)

/-- If the flush loop advanced, a substring was stored at `exIdx`. -/
theorem Flushes.at_exIdx {r r' : StreamReassembler} {done w : Bytes} (h : r.Wf done)
    (hf : Flushes r r' done w) (hlt : r.exIdx < r'.exIdx) :
    ∃ d, (r.exIdx, d) ∈ r.unassembledStrs := by
  have hw : 0 < w.length := by
    have h1 := hf.wf.exIdx_eq
    have h2 := h.exIdx_eq
    rw [List.length_append] at h1
    omega
  obtain ⟨k, d, hm, hk, _⟩ := hf.moved 0 (w.get ⟨0, hw⟩) (List.getElem?_eq_getElem _)
  have := h.stored.ahead _ hm
  simp only at this
  have hkeq : k = r.exIdx := by omega
  exact ⟨d, hkeq ▸ hm⟩

section

variable {r : StreamReassembler} {done currData : Bytes}

/-- The state after the substring at `exIdx` has been offered to the output and removed from
the map. -/
def afterWrite (r : StreamReassembler) (currData : Bytes) : StreamReassembler :=
  { r with
    exIdx := r.exIdx + (r.output.write currData).2
    output :=
      if r.eofSignRecv && decide (r.eofIdx ≤ r.exIdx + (r.output.write currData).2) then
        (r.output.write currData).1.endInput
      else (r.output.write currData).1
    unassembledSize := sub64 r.unassembledSize (r.output.write currData).2
    unassembledStrs := r.unassembledStrs.erase r.exIdx }

theorem afterWrite_carries (h : r.Wf done) (currData : Bytes) :
    (r.afterWrite currData).output.Carries
      (done ++ currData.take (r.output.write currData).2) := by
  unfold afterWrite
  simp only
  split_ifs
  · exact (h.out.write currData).endInput
  · exact h.out.write currData

theorem afterWrite_output (r : StreamReassembler) (currData : Bytes) :
    (r.afterWrite currData).output.capacity = r.output.capacity ∧
    (r.afterWrite currData).output.numBytesRead = r.output.numBytesRead ∧
    (r.afterWrite currData).output.error = r.output.error ∧
    (r.afterWrite currData).output.size = r.output.size + (r.output.write currData).2 := by
  unfold afterWrite
  simp only
  split_ifs
  · exact ⟨r.output.write_capacity currData, r.output.write_numBytesRead currData,
      r.output.write_error currData, r.output.write_size currData⟩
  · exact ⟨r.output.write_capacity currData, r.output.write_numBytesRead currData,
      r.output.write_error currData, r.output.write_size currData⟩

theorem afterWrite_ended (r : StreamReassembler) (currData : Bytes) :
    (r.afterWrite currData).output.isInputEnd = true ↔
      r.output.isInputEnd = true ∨
        (r.eofSignRecv = true ∧ r.eofIdx ≤ (r.afterWrite currData).exIdx) := by
  unfold afterWrite
  simp only
  split_ifs with hc
  · simp only [Bool.and_eq_true, decide_eq_true_eq] at hc
    exact ⟨fun _ => Or.inr hc, fun _ => rfl⟩
  · simp only [Bool.and_eq_true, decide_eq_true_eq] at hc
    rw [ByteStream.write_isInputEnd]
    exact ⟨Or.inl, fun h => h.resolve_right hc⟩

/-- The other substrings start behind the one at `exIdx`. -/
theorem Wf.erase_ahead (h : r.Wf done) (hm : (r.exIdx, currData) ∈ r.unassembledStrs) :
    ∀ e ∈ r.unassembledStrs.erase r.exIdx, r.exIdx + currData.length ≤ e.1 := by
  intro e he
  obtain ⟨he, hne⟩ := OrdMap.mem_erase.mp he
  have := h.stored.ahead e he
  exact h.stored.apart _ hm e he (by simp only; omega)

/-- A substring that the output takes as a whole. -/
theorem Wf.afterWrite_full (h : r.Wf done) (hm : (r.exIdx, currData) ∈ r.unassembledStrs)
    (hfull : (r.output.write currData).2 = currData.length) :
    (r.afterWrite currData).Wf (done ++ currData) := by
  have hcar := afterWrite_carries h currData
  rw [hfull, List.take_length] at hcar
  refine ⟨hcar, ?_, ?_, ?_⟩
  · show r.exIdx + (r.output.write currData).2 = _
    rw [hfull, List.length_append, h.exIdx_eq]
  · rw [(afterWrite_output r currData).1]
    exact h.capacity_eq
  · have hst := h.stored.erase hm
    rw [← hfull] at hst
    apply hst.raise
    intro e he
    show r.exIdx + (r.output.write currData).2 ≤ e.1
    rw [hfull]
    exact h.erase_ahead hm e he

/-- The rest of a substring that the output takes in part goes back into the map. -/
theorem Wf.afterWrite_part (h : r.Wf done) (hm : (r.exIdx, currData) ∈ r.unassembledStrs)
    {n : Nat} (hn : (r.output.write currData).2 = n) (hpart : n < currData.length) :
    Stored ((r.unassembledStrs.erase r.exIdx).insert (r.exIdx + n) (currData.drop n))
        (sub64 r.unassembledSize n) (r.exIdx + n) ∧
      ∀ i b, Holds ((r.unassembledStrs.erase r.exIdx).insert (r.exIdx + n) (currData.drop n)) i b
        ↔ Holds r.unassembledStrs i b ∧ r.exIdx + n ≤ i := by
  have hlen : (currData.drop n).length = currData.length - n := List.length_drop
  have hd : currData.drop n ≠ [] := List.length_pos_iff.mp (by omega)
  have hah := h.erase_ahead hm
  have hb := h.stored.bounded _ hm
  simp only at hb
  have hfree : Free (r.unassembledStrs.erase r.exIdx) (r.exIdx + n) (currData.drop n) := by
    intro e he
    have := hah e he
    exact Or.inr (by omega)
  -- the source subtracts the written part at once; here the substring is taken out whole and
  -- the rest is put back
  have hst : Stored (r.unassembledStrs.erase r.exIdx)
      (sub64 r.unassembledSize currData.length) (r.exIdx + n) :=
    (h.stored.erase hm).raise (fun e he => by have := hah e he; omega)
  have hins := hst.insert hfree hd le_rfl (by omega)
  constructor
  · have hsz := h.stored.size_eq
    have htot := OrdMap.total_erase List.length hm
    have hlt := h.stored.size_lt
    have hsum : add64 (sub64 r.unassembledSize currData.length) (currData.drop n).length
        = sub64 r.unassembledSize n := by
      rw [sub64_eq (by omega) (by omega), sub64_eq (by omega) (by omega), add64_eq (by omega)]
      omega
    rwa [hsum] at hins
  · intro i b
    rw [hst.apart.holds_insert hfree hd hst.nonempty]
    by_cases hi : Covers (r.exIdx + n) (currData.drop n) i
    · have hi' : Covers r.exIdx currData i := by unfold Covers at hi ⊢; omega
      rw [over_of_covers hi, h.stored.apart.holds_iff hm hi', List.getElem?_drop]
      unfold Covers at hi
      have : n + (i - (r.exIdx + n)) = i - r.exIdx := by omega
      rw [this]
      exact ⟨fun h => ⟨h, hi.1⟩, fun h => h.1⟩
    · -- everything else that is stored lies behind the substring
      rw [over_of_not_covers hi, h.stored.apart.holds_erase hm]
      apply and_congr_right
      intro hb'
      have := h.stored.le_of_holds hb'
      unfold Covers at hi ⊢
      omega

theorem flush_cons {currIdx : Nat} {it : List (Nat × Bytes)} (hk : currIdx = r.exIdx) :
    flush ((currIdx, currData) :: it) r =
      if (r.output.write currData).2 < currData.length then
        { r.afterWrite currData with
          unassembledStrs := (r.unassembledStrs.erase r.exIdx).insertNew
            (r.exIdx + (r.output.write currData).2)
            (currData.drop (r.output.write currData).2) }
      else flush it (r.afterWrite currData) := by
  subst hk
  rw [flush, if_neg (lt_irrefl _)]
  rfl

/-- The bytes of the substring at `exIdx` are held there. -/
theorem holds_at_exIdx (hm : (r.exIdx, currData) ∈ r.unassembledStrs) {j : Nat} {b : UInt8}
    (hj : currData[j]? = some b) : Holds r.unassembledStrs (r.exIdx + j) b :=
  ⟨r.exIdx, currData, hm, by omega, by rw [Nat.add_sub_cancel_left]; exact hj⟩

/-- The last round of the loop: the output ended or became full, and the rest of the substring
goes back into the map. -/
theorem Wf.flushes_part (h : r.Wf done) (hm : (r.exIdx, currData) ∈ r.unassembledStrs)
    (hpart : (r.output.write currData).2 < currData.length) :
    Flushes r
      { r.afterWrite currData with
        unassembledStrs := (r.unassembledStrs.erase r.exIdx).insertNew
          (r.exIdx + (r.output.write currData).2)
          (currData.drop (r.output.write currData).2) }
      done (currData.take (r.output.write currData).2) := by
  obtain ⟨hcap, hrd, herr, hsize⟩ := afterWrite_output r currData
  obtain ⟨hst, hheld⟩ := h.afterWrite_part hm rfl hpart
  have hended := afterWrite_ended r currData
  have hnew : ∀ e ∈ r.unassembledStrs.erase r.exIdx,
      e.1 ≠ r.exIdx + (r.output.write currData).2 := by
    intro e he
    have := h.erase_ahead hm e he
    omega
  rw [OrdMap.insertNew_eq hnew]
  refine ⟨⟨afterWrite_carries h currData, ?_, hcap.trans h.capacity_eq, hst⟩, ?_, hheld, rfl, rfl,
    rfl, hrd, herr, hended.mp, ?_, ?_⟩
  · show r.exIdx + (r.output.write currData).2 = _
    rw [List.length_append, List.length_take, h.exIdx_eq]
    omega
  · intro j b hj
    obtain ⟨hlt, -⟩ := List.getElem?_eq_some_iff.mp hj
    rw [List.length_take] at hlt
    rw [List.getElem?_take_of_lt (by omega)] at hj
    exact holds_at_exIdx hm hj
  · rintro (hend | ⟨hsign, hidx, -⟩)
    · exact hended.mpr (Or.inl hend)
    · exact hended.mpr (Or.inr ⟨hsign, hidx⟩)
  · intro e _ _
    -- fewer bytes than offered were taken because the output had ended or was full
    have hcount := h.out.write_count currData
    have hcapLe := h.out.size_le
    by_cases hend : r.output.isInputEnd = true
    · exact Or.inl (hended.mpr (Or.inl hend))
    · rw [if_neg hend] at hcount
      apply Or.inr
      show (r.afterWrite currData).output.size = (r.afterWrite currData).output.capacity
      omega

/-- A round in which the output takes the whole substring, and the rounds after it. -/
theorem Wf.flushes_full (h : r.Wf done) (hm : (r.exIdx, currData) ∈ r.unassembledStrs)
    (hfull : (r.output.write currData).2 = currData.length) {r' : StreamReassembler} {w : Bytes}
    (hw : Flushes (r.afterWrite currData) r' (done ++ currData) w) :
    Flushes r r' done (currData ++ w) := by
  obtain ⟨-, hrd, herr, -⟩ := afterWrite_output r currData
  have hended := afterWrite_ended r currData
  have hwf := h.afterWrite_full hm hfull
  have hex : (r.afterWrite currData).exIdx = r.exIdx + currData.length := by
    show r.exIdx + (r.output.write currData).2 = _
    rw [hfull]
  have hmono : (r.afterWrite currData).exIdx ≤ r'.exIdx := by
    rw [hwf.exIdx_eq, hw.wf.exIdx_eq]
    exact (List.prefix_append _ w).length_le
  refine ⟨?_, ?_, ?_, hw.eofSign, hw.eofIdx, hw.capacity, hw.read.trans hrd, hw.error.trans herr,
    ?_, ?_, hw.stop⟩
  · rw [← List.append_assoc]
    exact hw.wf
  · intro j b hj
    by_cases hj' : j < currData.length
    · rw [List.getElem?_append_left hj'] at hj
      exact holds_at_exIdx hm hj
    · rw [List.getElem?_append_right (by omega)] at hj
      have hmoved := hw.moved _ _ hj
      rw [hex, show r.exIdx + currData.length + (j - currData.length) = r.exIdx + j by omega]
        at hmoved
      exact ((h.stored.apart.holds_erase hm _ _).mp hmoved).1
  · intro i b
    rw [hw.held i b]
    show Holds (r.unassembledStrs.erase r.exIdx) i b ∧ _ ↔ _
    rw [h.stored.apart.holds_erase hm]
    refine ⟨fun hb => ⟨hb.1.1, hb.2⟩, fun hb => ⟨⟨hb.1, ?_⟩, hb.2⟩⟩
    unfold Covers
    omega
  · intro hend
    rcases hw.ended hend with h1 | h1
    · rcases hended.mp h1 with h2 | ⟨h2, h3⟩
      · exact Or.inl h2
      · exact Or.inr ⟨h2, by omega⟩
    · exact Or.inr h1
  · rintro (hend | ⟨hsign, hidx, -⟩)
    · exact hw.ends (Or.inl (hended.mpr (Or.inl hend)))
    · by_cases hhere : r.eofIdx ≤ (r.afterWrite currData).exIdx
      · exact hw.ends (Or.inl (hended.mpr (Or.inr ⟨hsign, hhere⟩)))
      · -- the end lies further on, so the loop moved bytes from the next substring
        have hidx' : (r.afterWrite currData).eofIdx ≤ r'.exIdx := hidx
        exact hw.ends (Or.inr ⟨hsign, hidx', hw.at_exIdx hwf (by omega)⟩)

end

/-- **The flush loop.** It is started on all entries of the map. -/
theorem flush_spec (l : List (Nat × Bytes)) (r : StreamReassembler) (done : Bytes)
    (h : r.Wf done) (hl : r.unassembledStrs.entries = l) :
    ∃ w, Flushes r (flush l r) done w := by
  induction l generalizing r done with
  | nil =>
      refine ⟨[], Flushes.refl h ?_⟩
      intro e he
      rw [OrdMap.mem_def, hl] at he
      exact absurd he List.not_mem_nil
  | cons a it ih =>
      obtain ⟨currIdx, currData⟩ := a
      have hm : (currIdx, currData) ∈ r.unassembledStrs := by
        rw [OrdMap.mem_def, hl]
        exact List.mem_cons_self
      have hahead := h.stored.ahead _ hm
      simp only at hahead
      by_cases hgap : r.exIdx < currIdx
      · -- nothing is stored at `exIdx`
        refine ⟨[], ?_⟩
        rw [flush, if_pos hgap]
        apply Flushes.refl h
        intro e he
        have hle := OrdMap.head_le hl e he
        simp only at hle
        omega
      · obtain rfl : currIdx = r.exIdx := by omega
        rw [flush_cons rfl]
        split_ifs with hpart
        · exact ⟨_, h.flushes_part hm hpart⟩
        · have hle := h.out.write_count_le currData
          have hfull : (r.output.write currData).2 = currData.length := by omega
          obtain ⟨w, hw⟩ := ih (r.afterWrite currData) (done ++ currData)
            (h.afterWrite_full hm hfull) (OrdMap.erase_head hl)
          exact ⟨currData ++ w, h.flushes_full hm hfull hw⟩

theorem tryPush_spec {r : StreamReassembler} {done : Bytes} (h : r.Wf done) :
    ∃ w, Flushes r r.tryPush done w := by
  unfold tryPush
  cases hl : r.unassembledStrs.entries with
  | nil =>
      refine ⟨[], Flushes.refl h ?_⟩
      intro e he
      rw [OrdMap.mem_def, hl] at he
      exact absurd he List.not_mem_nil
  | cons a it =>
      by_cases hk : r.exIdx = a.1
      · simp only [if_pos hk]
        exact flush_spec (a :: it) r done h hl
      · simp only [if_neg hk]
        refine ⟨[], Flushes.refl h ?_⟩
        intro e he heq
        have hle := OrdMap.head_le hl e he
        have := h.stored.ahead a (by rw [OrdMap.mem_def, hl]; exact List.mem_cons_self)
        omega

/-! ## Storing -/

/-- Storing what the cut left. -/
theorem tryInsert_spec {r r' : StreamReassembler} {done data data' : Bytes} {idx idx' : Nat}
    (h : r.Wf done) (hc : Cuts r idx data (r', some (idx', data')))
    (hlt : idx + data.length < 2 ^ 64) :
    (r'.tryInsert idx' data').Wf done ∧
    (∀ i b, r.exIdx ≤ i → Holds (r'.tryInsert idx' data').unassembledStrs i b →
      Over idx data (Holds r.unassembledStrs) i b) ∧
    (∀ i b, r.exIdx ≤ i → i < r.firstUnacceptableIdx ∨ idx' < r.firstUnacceptableIdx →
      Over idx data (Holds r.unassembledStrs) i b →
      Holds (r'.tryInsert idx' data').unassembledStrs i b) ∧
    (¬ idx' < r.firstUnacceptableIdx →
      ∀ b, ¬ Holds (r'.tryInsert idx' data').unassembledStrs idx' b) := by
  obtain ⟨hne, hex, _, hend, hfree, hover⟩ := hc.kept idx' data' rfl
  have hframe := hc.frame
  have hst := hc.stored
  simp only at hframe hst hfree hover
  have hex' : r'.exIdx = r.exIdx := by rw [hframe]
  have hout : r'.output = r.output := by rw [hframe]
  have hcap : r'.capacity = r.capacity := by rw [hframe]
  have hfu : r'.firstUnacceptableIdx = r.firstUnacceptableIdx := by
    unfold firstUnacceptableIdx
    rw [hex', hout, hcap]
  unfold tryInsert
  rw [hfu]
  by_cases hin : idx' < r.firstUnacceptableIdx
  · rw [if_pos hin]
    refine ⟨⟨by rw [hout]; exact h.out, by rw [hex']; exact h.exIdx_eq, ?_, ?_⟩, ?_, ?_,
      fun hout => absurd hin hout⟩
    · show r'.output.capacity = r'.capacity
      rw [hout, hcap, h.capacity_eq]
    · rw [hex']
      exact hst.insert hfree hne hex (by omega)
    · intro i b hi hb
      exact (hover i b hi).mp ((hst.apart.holds_insert hfree hne hst.nonempty i b).mp hb)
    · intro i b hi _ hb
      exact (hst.apart.holds_insert hfree hne hst.nonempty i b).mpr ((hover i b hi).mpr hb)
  · -- beyond the window: the data is not stored, but nothing inside the window is lost
    rw [if_neg hin]
    refine ⟨⟨by rw [hout]; exact h.out, by rw [hex']; exact h.exIdx_eq,
      by rw [hout, hcap, h.capacity_eq], by rw [hex']; exact hst⟩, ?_, ?_, ?_⟩
    · intro i b hi hb
      refine (hover i b hi).mp ((over_of_not_covers fun hcov => ?_).mpr hb)
      obtain ⟨k, d, hm, hk⟩ := hb.covers
      have := hfree _ hm
      unfold Covers at hcov hk
      simp only at this
      omega
    · intro i b hi hlt' hb
      refine (over_of_not_covers fun hcov => ?_).mp ((hover i b hi).mpr hb)
      unfold Covers at hcov
      omega
    · rintro - b ⟨k, d, hm, hk, hd⟩
      obtain ⟨hlen, -⟩ := List.getElem?_eq_some_iff.mp hd
      have hpos := List.length_pos_iff.mpr hne
      have := hfree _ hm
      simp only at this
      omega

/-- What the cut leaves of the data, if anything, starts in front of the first unacceptable
index. -/
def Accepts (r : StreamReassembler) (data : Bytes) (index : Nat) : Prop :=
  data ≠ [] → ∀ left, (r.cutData index data).2 = some left → left.1 < r.firstUnacceptableIdx

/-- Cutting, storing and flushing the data has written the bytes `w`, and what is written or
stored now is what was stored before, overwritten with the data: at every index if the data is
accepted, and else at least up to the first unacceptable index. A byte of the data is missing if
the data is not accepted. -/
structure Absorbs (r : StreamReassembler) (done data : Bytes) (index : Nat)
    (r' : StreamReassembler) (w : Bytes) : Prop where
  wf : r'.Wf (done ++ w)
  sound : ∀ i b, r.exIdx ≤ i → (w[i - r.exIdx]? = some b ∨ Holds r'.unassembledStrs i b) →
    Over index data (Holds r.unassembledStrs) i b
  complete : ∀ i b, r.exIdx ≤ i → i < r.firstUnacceptableIdx ∨ r.Accepts data index →
    Over index data (Holds r.unassembledStrs) i b →
    w[i - r.exIdx]? = some b ∨ Holds r'.unassembledStrs i b
  refused : ¬ r.Accepts data index → ∃ i, r.exIdx ≤ i ∧ index ≤ i ∧ i < index + data.length ∧
    ∀ b, ¬ (w[i - r.exIdx]? = some b ∨ Holds r'.unassembledStrs i b)
  eofSign : r'.eofSignRecv = r.eofSignRecv
  eofIdx : r'.eofIdx = r.eofIdx
  capacity : r'.capacity = r.capacity
  read : r'.output.numBytesRead = r.output.numBytesRead
  error : r'.output.error = r.output.error
  ended : r'.output.isInputEnd = true →
    r.output.isInputEnd = true ∨ (r.eofSignRecv = true ∧ r.eofIdx ≤ r'.exIdx)
  ends : r.output.isInputEnd = true ∨
    (r.eofSignRecv = true ∧ r.eofIdx ≤ r'.exIdx ∧ r.exIdx < r'.exIdx) →
    r'.output.isInputEnd = true
  stop : (∀ e ∈ r.unassembledStrs, e.1 ≠ r.exIdx) → ∀ e ∈ r'.unassembledStrs, e.1 = r'.exIdx →
    r'.output.isInputEnd = true ∨ r'.output.size = r'.output.capacity

/-- Dropped data: the stored substrings were overwritten in place. -/
theorem Cuts.absorbs_dropped {r r₁ : StreamReassembler} {done data : Bytes} {index : Nat}
    (hcut : Cuts r index data (r₁, none)) (hres : r.cutData index data = (r₁, none))
    (h : r.Wf done) : Absorbs r done data index r₁ [] := by
  have haccepts : r.Accepts data index := by
    intro _ left hleft
    rw [hres] at hleft
    cases hleft
  have hframe := hcut.frame
  simp only at hframe
  have hex : r₁.exIdx = r.exIdx := by rw [hframe]
  have hout : r₁.output = r.output := by rw [hframe]
  refine ⟨⟨?_, ?_, ?_, hcut.stored.raise ?_⟩, ?_, ?_, fun hnot => absurd haccepts hnot,
    by rw [hframe], by rw [hframe], by rw [hframe], by rw [hout], by rw [hout], ?_, ?_, ?_⟩
  · simpa [hout] using h.out
  · simpa [hex] using h.exIdx_eq
  · rw [hout, h.capacity_eq, hframe]
  · simpa [hex] using hcut.stored.ahead
  · -- nothing was written, so that the bytes come from the map
    rintro i b hi (hb | hb)
    · cases hb
    · exact (hcut.dropped rfl i b hi).mp hb
  · intro i b hi _ hb
    exact Or.inr ((hcut.dropped rfl i b hi).mpr hb)
  · intro he
    rw [hout] at he
    exact Or.inl he
  · rintro (hend | ⟨-, -, hlt⟩)
    · rwa [hout]
    · omega
  · intro hno e he hk
    obtain ⟨e', he', hk'⟩ := hcut.keys e he
    exact absurd (by omega) (hno e' he')

/-- What is left of the data is stored, and the flush loop follows. -/
theorem Cuts.absorbs_kept {r r₁ : StreamReassembler} {done data dataCopy : Bytes}
    {index newIdx : Nat} (hcut : Cuts r index data (r₁, some (newIdx, dataCopy)))
    (hres : r.cutData index data = (r₁, some (newIdx, dataCopy))) (h : r.Wf done)
    (hlt : index + data.length < 2 ^ 64) :
    ∃ w, Absorbs r done data index (r₁.tryInsert newIdx dataCopy).tryPush w := by
  obtain ⟨hwf, hsound, hcomplete, hrefused⟩ := tryInsert_spec h hcut hlt
  obtain ⟨hne, hle, hfrom, hto, -⟩ := hcut.kept newIdx dataCopy rfl
  have hpos := List.length_pos_iff.mpr hne
  have haccepts : r.Accepts data index ↔ newIdx < r.firstUnacceptableIdx := by
    have hd : data ≠ [] := List.length_pos_iff.mp (by omega)
    unfold Accepts
    rw [hres]
    simp [hd]
  obtain ⟨w, hw⟩ := tryPush_spec hwf
  have hframe := hcut.frame
  simp only at hframe
  -- the rest of the state is that of `r`
  have hrest : (r₁.tryInsert newIdx dataCopy).exIdx = r.exIdx ∧
      (r₁.tryInsert newIdx dataCopy).output = r.output ∧
      (r₁.tryInsert newIdx dataCopy).eofSignRecv = r.eofSignRecv ∧
      (r₁.tryInsert newIdx dataCopy).eofIdx = r.eofIdx ∧
      (r₁.tryInsert newIdx dataCopy).capacity = r.capacity := by
    unfold tryInsert
    split_ifs <;> rw [hframe] <;> exact ⟨rfl, rfl, rfl, rfl, rfl⟩
  set r₂ := r₁.tryInsert newIdx dataCopy
  obtain ⟨hex, hout, hsign, hidx, hcap⟩ := hrest
  -- a written byte was held at its index
  have hmoved : ∀ i b, r.exIdx ≤ i → w[i - r.exIdx]? = some b → Holds r₂.unassembledStrs i b := by
    intro i b hi hb
    have hm := hw.moved _ _ hb
    rwa [hex, Nat.add_sub_cancel' hi] at hm
  refine ⟨w, hw.wf, ?_, ?_, ?_, hw.eofSign.trans hsign, hw.eofIdx.trans hidx,
    hw.capacity.trans hcap, by rw [hw.read, hout], by rw [hw.error, hout], ?_, ?_, fun _ => hw.stop⟩
  · rintro i b hi (hb | hb)
    · exact hsound i b hi (hmoved i b hi hb)
    · exact hsound i b hi ((hw.held i b).mp hb).1
  · intro i b hi hfu hb
    have hb₂ := hcomplete i b hi (hfu.imp_right haccepts.mp) hb
    by_cases hge : r₂.tryPush.exIdx ≤ i
    · exact Or.inr ((hw.held i b).mpr ⟨hb₂, hge⟩)
    · -- flushed: the byte written at this index is the one held
      have hlen := hw.wf.exIdx_eq
      rw [List.length_append] at hlen
      have hex' := hwf.exIdx_eq
      have hi' : i - r.exIdx < w.length := by omega
      have hget : w[i - r.exIdx]? = some (w.get ⟨i - r.exIdx, hi'⟩) := List.getElem?_eq_getElem _
      rw [hwf.stored.apart.holds_unique hb₂ (hmoved i _ hi hget)]
      exact Or.inl hget
  · intro hnot
    have hnone := hrefused (fun hin => hnot (haccepts.mpr hin))
    refine ⟨newIdx, hle, hfrom, by omega, ?_⟩
    rintro b (hb | hb)
    · exact hnone b (hmoved newIdx b hle hb)
    · exact hnone b ((hw.held newIdx b).mp hb).1
  · intro he
    have hended := hw.ended he
    rwa [hout, hsign, hidx] at hended
  · rintro (hend | ⟨h1, h2, h3⟩)
    · exact hw.ends (Or.inl (by rw [hout]; exact hend))
    · exact hw.ends (Or.inr ⟨by rw [hsign]; exact h1, by rw [hidx]; exact h2,
        hw.at_exIdx hwf (by rw [hex]; exact h3)⟩)

theorem store_spec {r : StreamReassembler} {done data : Bytes} {index : Nat} (h : r.Wf done)
    (hd : data ≠ []) (hlt : index + data.length < 2 ^ 64) :
    ∃ w, Absorbs r done data index (r.store data index) w := by
  have hcut := cutData_spec index h.stored hd hlt
  unfold store
  rcases hres : r.cutData index data with ⟨r₁, _ | ⟨newIdx, dataCopy⟩⟩
  · rw [hres] at hcut
    exact ⟨[], hcut.absorbs_dropped hres h⟩
  · rw [hres] at hcut
    exact hcut.absorbs_kept hres h hlt

/-! ## The push -/

/-- The state in which the data is cut: the end has been recorded. -/
def withEof (r : StreamReassembler) (eofIdx : Nat) (eof : Bool) : StreamReassembler :=
  if eof then r.recordEof eofIdx else r

/-- What a push on a reassembler whose output has not ended does: it has written the bytes
`w`, and what is written or stored now is what was stored before, overwritten with the data:
at every index if the data is accepted, and else at least up to the first unacceptable index. A
byte of the data is missing if the data is not accepted. -/
structure Pushes (r : StreamReassembler) (done data : Bytes) (index : Nat) (eof : Bool)
    (r' : StreamReassembler) (w : Bytes) : Prop where
  wf : r'.Wf (done ++ w)
  sound : ∀ i b, r.exIdx ≤ i → (w[i - r.exIdx]? = some b ∨ Holds r'.unassembledStrs i b) →
    Over index data (Holds r.unassembledStrs) i b
  complete : ∀ i b, r.exIdx ≤ i →
    i < r.firstUnacceptableIdx ∨ (r.withEof (index + data.length) eof).Accepts data index →
    Over index data (Holds r.unassembledStrs) i b →
    w[i - r.exIdx]? = some b ∨ Holds r'.unassembledStrs i b
  refused : ¬ (r.withEof (index + data.length) eof).Accepts data index →
    ∃ i, r.exIdx ≤ i ∧ index ≤ i ∧ i < index + data.length ∧
      ∀ b, ¬ (w[i - r.exIdx]? = some b ∨ Holds r'.unassembledStrs i b)
  eofSign : r'.eofSignRecv = (r.eofSignRecv || eof)
  eofIdx : r'.eofIdx = if eof then index + data.length else r.eofIdx
  capacity : r'.capacity = r.capacity
  read : r'.output.numBytesRead = r.output.numBytesRead
  error : r'.output.error = r.output.error
  ended : r'.output.isInputEnd = true → r'.eofSignRecv = true ∧ r'.eofIdx ≤ r'.exIdx
  ends : r'.eofSignRecv = true → r'.eofIdx ≤ r'.exIdx →
    r.exIdx < r'.exIdx ∨ (eof = true ∧ index + data.length = r.exIdx) →
    r'.output.isInputEnd = true
  stop : (∀ e ∈ r.unassembledStrs, e.1 ≠ r.exIdx) → ∀ e ∈ r'.unassembledStrs, e.1 = r'.exIdx →
    r'.output.isInputEnd = true ∨ r'.output.size = r'.output.capacity

section

variable {r : StreamReassembler} {done : Bytes} {e : Nat} {eof : Bool}

theorem withEof_frame (r : StreamReassembler) (e : Nat) (eof : Bool) :
    (r.withEof e eof).exIdx = r.exIdx ∧
    (r.withEof e eof).unassembledStrs = r.unassembledStrs ∧
    (r.withEof e eof).capacity = r.capacity ∧
    (r.withEof e eof).output.size = r.output.size ∧
    (r.withEof e eof).output.numBytesRead = r.output.numBytesRead ∧
    (r.withEof e eof).output.error = r.output.error ∧
    (r.withEof e eof).eofSignRecv = (r.eofSignRecv || eof) ∧
    (r.withEof e eof).eofIdx = if eof then e else r.eofIdx := by
  unfold withEof recordEof
  cases eof
  · simp
  · by_cases h : e = r.exIdx
    · simp [h, ByteStream.endInput]
    · simp [h]

theorem firstUnacceptableIdx_withEof (r : StreamReassembler) (e : Nat) (eof : Bool) :
    (r.withEof e eof).firstUnacceptableIdx = r.firstUnacceptableIdx := by
  obtain ⟨hex, -, hcap, hsize, -⟩ := withEof_frame r e eof
  unfold firstUnacceptableIdx ByteStream.bufferSize
  rw [hex, hcap, hsize]

theorem Wf.withEof (h : r.Wf done) (e : Nat) (eof : Bool) : (r.withEof e eof).Wf done := by
  unfold StreamReassembler.withEof recordEof
  split_ifs
  · exact ⟨h.out.endInput, h.exIdx_eq, h.capacity_eq, h.stored⟩
  · exact ⟨h.out, h.exIdx_eq, h.capacity_eq, h.stored⟩
  · exact h

theorem withEof_ended (r : StreamReassembler) (e : Nat) (eof : Bool) :
    (r.withEof e eof).output.isInputEnd = true ↔
      r.output.isInputEnd = true ∨ (eof = true ∧ e = r.exIdx) := by
  unfold withEof recordEof
  cases eof
  · simp
  · by_cases h : e = r.exIdx
    · simp [h, ByteStream.endInput]
    · simp [h]

end

/-- A push on an output that has not ended. -/
theorem pushSubstring_of_open {r : StreamReassembler} (data : Bytes) (index : Nat) (eof : Bool)
    (hend : ¬r.output.isInputEnd = true) :
    r.pushSubstring data index eof =
      if data.length = 0 then r.withEof (add64 index data.length) eof
      else (r.withEof (add64 index data.length) eof).store data index := by
  unfold pushSubstring ByteStream.inputEnded
  rw [if_neg hend]
  rfl

/-- **The push.** -/
theorem pushSubstring_spec {r : StreamReassembler} {done data : Bytes} {index : Nat}
    (eof : Bool) (h : r.Wf done) (hend : r.output.isInputEnd = false)
    (hlt : index + data.length < 2 ^ 64) :
    ∃ w, Pushes r done data index eof (r.pushSubstring data index eof) w := by
  set r₀ := r.withEof (index + data.length) eof with hr₀
  have hpush : r.pushSubstring data index eof =
      if data.length = 0 then r₀ else r₀.store data index := by
    rw [pushSubstring_of_open data index eof (by simp [hend]), add64_eq hlt]
  have hwf₀ := h.withEof (index + data.length) eof
  obtain ⟨hex₀, hstrs₀, hcap₀, hsize₀, hread₀, herr₀, hsign₀, hidx₀⟩ :=
    withEof_frame r (index + data.length) eof
  have hended₀ := withEof_ended r (index + data.length) eof
  rw [← hr₀] at hwf₀ hex₀ hstrs₀ hcap₀ hsize₀ hread₀ herr₀ hsign₀ hidx₀ hended₀
  have hfu₀ : r₀.firstUnacceptableIdx = r.firstUnacceptableIdx :=
    firstUnacceptableIdx_withEof r (index + data.length) eof
  -- recording the end has ended the output only where everything was there
  have hended₀' : r₀.output.isInputEnd = true → r₀.eofSignRecv = true ∧ r₀.eofIdx ≤ r₀.exIdx := by
    intro hh
    rcases hended₀.mp hh with h1 | ⟨h1, h2⟩
    · rw [hend] at h1; cases h1
    · rw [hsign₀, hidx₀, hex₀, h1, if_pos rfl, h2]
      exact ⟨Bool.or_true _, le_rfl⟩
  rw [hpush]
  by_cases hd : data.length = 0
  · rw [if_pos hd]
    have hover : ∀ i b, Over index data (Holds r.unassembledStrs) i b ↔
        Holds r.unassembledStrs i b :=
      fun i b => over_of_not_covers (by unfold Covers; omega)
    refine ⟨[], by rwa [List.append_nil], ?_, ?_, ?_, hsign₀, hidx₀, hcap₀, hread₀, herr₀, hended₀',
      ?_, ?_⟩
    · rintro i b _ (hb | hb)
      · cases hb
      · rw [hstrs₀] at hb
        exact (hover i b).mpr hb
    · intro i b _ _ hb
      rw [hstrs₀]
      exact Or.inr ((hover i b).mp hb)
    · intro hnot
      exact absurd (fun hne => absurd (List.length_eq_zero_iff.mp hd) hne) hnot
    · rintro _ _ (h1 | h1)
      · omega
      · exact hended₀.mpr (Or.inr h1)
    · intro hno e he hk
      rw [hstrs₀] at he
      exact absurd (hk.trans hex₀) (hno e he)
  · rw [if_neg hd]
    obtain ⟨w, hw⟩ := store_spec hwf₀ (fun h0 => hd (by rw [h0]; rfl)) hlt
    have hmono : r₀.exIdx ≤ (r₀.store data index).exIdx := by
      rw [hwf₀.exIdx_eq, hw.wf.exIdx_eq, List.length_append]
      omega
    refine ⟨w, hw.wf, ?_, ?_, ?_, hw.eofSign.trans hsign₀, hw.eofIdx.trans hidx₀,
      hw.capacity.trans hcap₀, hw.read.trans hread₀, hw.error.trans herr₀, ?_, ?_, ?_⟩
    · have := hw.sound
      rwa [hex₀, hstrs₀] at this
    · have := hw.complete
      rwa [hex₀, hstrs₀, hfu₀] at this
    · have := hw.refused
      rwa [hex₀] at this
    · intro he
      rw [hw.eofSign, hw.eofIdx]
      rcases hw.ended he with h1 | h1
      · obtain ⟨h2, h3⟩ := hended₀' h1
        exact ⟨h2, by omega⟩
      · exact h1
    · intro h1 h2 h3
      rw [hw.eofSign] at h1
      rw [hw.eofIdx] at h2
      rcases h3 with h3 | h3
      · exact hw.ends (Or.inr ⟨h1, h2, by rw [hex₀]; exact h3⟩)
      · exact hw.ends (Or.inl (hended₀.mpr (Or.inr h3)))
    · have := hw.stop
      rwa [hex₀, hstrs₀] at this

theorem Pushes.exIdx_eq {r r' : StreamReassembler} {done data w : Bytes} {index : Nat} {eof : Bool}
    (h : Pushes r done data index eof r' w) (hwf : r.Wf done) :
    r'.exIdx = r.exIdx + w.length := by
  rw [h.wf.exIdx_eq, List.length_append, hwf.exIdx_eq]

theorem pushSubstring_of_ended {r : StreamReassembler} (data : Bytes) (index : Nat) (eof : Bool)
    (h : r.output.isInputEnd = true) : r.pushSubstring data index eof = r := by
  unfold pushSubstring ByteStream.inputEnded
  rw [if_pos h]

/-- Nothing happens when nothing is pushed. -/
theorem pushSubstring_nil (r : StreamReassembler) (index : Nat) :
    r.pushSubstring [] index false = r := by
  simp [pushSubstring]

/-- A push, on an ended output or not, only appends to what was assembled. -/
theorem Wf.pushSubstring {r : StreamReassembler} {done data : Bytes} {index : Nat} (eof : Bool)
    (h : r.Wf done) (hlt : index + data.length < 2 ^ 64) :
    ∃ w, (r.pushSubstring data index eof).Wf (done ++ w) ∧
      (r.pushSubstring data index eof).output.numBytesRead = r.output.numBytesRead := by
  by_cases hend : r.output.isInputEnd = true
  · rw [pushSubstring_of_ended data index eof hend]
    exact ⟨[], by rwa [List.append_nil], rfl⟩
  · obtain ⟨w, hw⟩ := pushSubstring_spec eof h (by simpa using hend) hlt
    exact ⟨w, hw.wf, hw.read⟩

end StreamReassembler

end Sponge
