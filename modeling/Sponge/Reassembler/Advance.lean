import Sponge.Reassembler.Push

set_option autoImplicit false

/-! # What any push does to the output

`pushSubstring_spec` says what a push does as long as its data ends below `2 ^ 64`. Here is what
remains for every push, with whatever data, index and end mark, on whatever is stored: the
output has gained some bytes and possibly its end, and `exIdx` has moved on by as many bytes
(`pushSubstring_advances`). -/

namespace Sponge

open Word

namespace ByteStream

/-- `s'` is the stream `s` after the bytes `w` were written to it, and possibly its end. -/
structure Grows (s s' : ByteStream) (w : Bytes) : Prop where
  carries : ∀ data, s.Carries data → s'.Carries (data ++ w)
  capacity : s'.capacity = s.capacity
  read : s'.numBytesRead = s.numBytesRead
  error : s'.error = s.error
  ended : s.isInputEnd = true → s'.isInputEnd = true ∧ w = []

theorem Grows.refl (s : ByteStream) : s.Grows s [] :=
  ⟨fun data h => by rwa [List.append_nil], rfl, rfl, rfl, fun h => ⟨h, rfl⟩⟩

theorem Grows.trans {s s' s'' : ByteStream} {w w' : Bytes} (h : s.Grows s' w)
    (h' : s'.Grows s'' w') : s.Grows s'' (w ++ w') := by
  refine ⟨fun data hd => ?_, h'.capacity.trans h.capacity, h'.read.trans h.read,
    h'.error.trans h.error, fun he => ?_⟩
  · rw [← List.append_assoc]
    exact h'.carries _ (h.carries _ hd)
  · obtain ⟨he', hw⟩ := h.ended he
    obtain ⟨he'', hw'⟩ := h'.ended he'
    exact ⟨he'', by rw [hw, hw', List.append_nil]⟩

theorem grows_endInput (s : ByteStream) : s.Grows s.endInput [] :=
  ⟨fun data h => by rw [List.append_nil]; exact h.endInput, rfl, rfl, rfl, fun _ => ⟨rfl, rfl⟩⟩

theorem grows_write (s : ByteStream) (d : Bytes) :
    s.Grows (s.write d).1 (d.take (s.write d).2) := by
  refine ⟨fun data h => h.write d, s.write_capacity d, s.write_numBytesRead d, s.write_error d,
    fun he => ?_⟩
  rw [s.write_of_ended d he]
  exact ⟨he, rfl⟩

theorem write_snd_le (s : ByteStream) (d : Bytes) : (s.write d).2 ≤ d.length := by
  unfold write
  split_ifs
  · exact Nat.zero_le _
  · exact Nat.min_le_right _ _

end ByteStream

namespace StreamReassembler

/-- The output has ended if the recorded end of the stream is the next index. -/
def EndNoted (r : StreamReassembler) : Prop :=
  r.eofSignRecv = true → r.eofIdx = r.exIdx → r.output.isInputEnd = true

/-- `r'` is `r` after some bytes were written to its output, and possibly its end. -/
structure Advances (r r' : StreamReassembler) : Prop where
  output : ∃ w, r.output.Grows r'.output w ∧ r'.exIdx = r.exIdx + w.length
  capacity : r'.capacity = r.capacity
  noted : r.EndNoted → r'.EndNoted

section

variable {r r' r'' : StreamReassembler}

/-- The stored substrings do not matter to the output. -/
theorem advances_of_stored (h : r' = { r with
      unassembledStrs := r'.unassembledStrs
      unassembledSize := r'.unassembledSize }) : r.Advances r' := by
  rw [h]
  exact ⟨⟨[], ByteStream.Grows.refl _, rfl⟩, rfl, id⟩

theorem Advances.trans (h : r.Advances r') (h' : r'.Advances r'') : r.Advances r'' := by
  obtain ⟨w, hw, hex⟩ := h.output
  obtain ⟨w', hw', hex'⟩ := h'.output
  refine ⟨⟨w ++ w', hw.trans hw', ?_⟩, h'.capacity.trans h.capacity, fun hn => h'.noted (h.noted hn)⟩
  rw [hex', hex, List.length_append, Nat.add_assoc]

end

/-- One round of the flush loop writes what the output takes of the substring. -/
theorem afterWrite_advances (r : StreamReassembler) (currData : Bytes) :
    r.Advances (r.afterWrite currData) := by
  refine ⟨⟨currData.take (r.output.write currData).2, ?_, ?_⟩, rfl, fun _ hsign heq => ?_⟩
  · have hw := r.output.grows_write currData
    unfold afterWrite
    simp only
    split_ifs
    · have := hw.trans (ByteStream.grows_endInput _)
      rwa [List.append_nil] at this
    · exact hw
  · show r.exIdx + (r.output.write currData).2 = _
    have := r.output.write_snd_le currData
    rw [List.length_take]
    omega
  · exact (afterWrite_ended r currData).mpr (Or.inr ⟨hsign, heq.le⟩)

theorem flush_advances (l : List (Nat × Bytes)) (r : StreamReassembler) :
    r.Advances (flush l r) := by
  induction l generalizing r with
  | nil => exact advances_of_stored rfl
  | cons a it ih =>
      obtain ⟨currIdx, currData⟩ := a
      have hround := r.afterWrite_advances currData
      unfold flush
      by_cases hgap : r.exIdx < currIdx
      · rw [if_pos hgap]
        exact advances_of_stored rfl
      · -- the substrings that stay stored do not matter to the output
        rw [if_neg hgap]
        by_cases hpart : (r.output.write currData).2 < currData.length
        · simp only [if_pos hpart]
          exact hround.trans (advances_of_stored rfl)
        · simp only [if_neg hpart]
          refine Advances.trans ?_ (ih _)
          exact hround.trans (advances_of_stored rfl)

theorem tryPush_advances (r : StreamReassembler) : r.Advances r.tryPush := by
  unfold tryPush
  split
  · exact advances_of_stored rfl
  · split_ifs
    · exact flush_advances _ r
    · exact advances_of_stored rfl

theorem tryInsert_advances (r : StreamReassembler) (newIdx : Nat) (dataCopy : Bytes) :
    r.Advances (r.tryInsert newIdx dataCopy) := by
  unfold tryInsert
  split_ifs <;> exact advances_of_stored rfl

theorem cutBack_advances (l : List (Nat × Bytes)) (r : StreamReassembler) (idx : Nat)
    (data : Bytes) : r.Advances (cutBack l r idx data).1 := by
  induction l generalizing r with
  | nil => exact advances_of_stored rfl
  | cons a bIt ih =>
      obtain ⟨bIdx, bData⟩ := a
      unfold cutBack
      split_ifs
      · exact advances_of_stored rfl
      · exact advances_of_stored rfl
      · exact advances_of_stored rfl
      · refine Advances.trans ?_ (ih _)
        exact advances_of_stored rfl

theorem cutData_advances (r : StreamReassembler) (idx : Nat) (data : Bytes) :
    r.Advances (r.cutData idx data).1 := by
  unfold cutData
  split_ifs
  · exact advances_of_stored rfl
  · exact cutBack_advances _ _ _ _
  · split
    · exact cutBack_advances _ _ _ _
    · simp only
      split_ifs
      · exact advances_of_stored rfl
      · refine Advances.trans ?_ (cutBack_advances _ _ _ _)
        exact advances_of_stored rfl
      · exact cutBack_advances _ _ _ _

theorem store_advances (r : StreamReassembler) (data : Bytes) (index : Nat) :
    r.Advances (r.store data index) := by
  have hcut := r.cutData_advances index data
  unfold store
  rcases hres : r.cutData index data with ⟨r', _ | ⟨newIdx, dataCopy⟩⟩ <;> rw [hres] at hcut
  · exact hcut
  · exact hcut.trans ((r'.tryInsert_advances newIdx dataCopy).trans (tryPush_advances _))

theorem recordEof_advances (r : StreamReassembler) (eofIdx : Nat) :
    r.Advances (r.recordEof eofIdx) := by
  unfold recordEof
  refine ⟨⟨[], ?_, rfl⟩, rfl, fun _ _ heq => ?_⟩
  · simp only
    split_ifs
    · exact ByteStream.grows_endInput _
    · exact ByteStream.Grows.refl _
  · have heq' : eofIdx = r.exIdx := heq
    rw [if_pos heq']
    rfl

/-- **Any push**, whatever its data, index and end mark, only adds to the output. -/
theorem pushSubstring_advances (r : StreamReassembler) (data : Bytes) (index : Nat)
    (eof : Bool) : r.Advances (r.pushSubstring data index eof) := by
  unfold pushSubstring
  split_ifs with hend heof hempty
  · exact advances_of_stored rfl
  · exact recordEof_advances r _
  · exact (recordEof_advances r _).trans (store_advances _ _ _)
  · exact advances_of_stored rfl
  · exact store_advances _ _ _

end StreamReassembler

end Sponge
