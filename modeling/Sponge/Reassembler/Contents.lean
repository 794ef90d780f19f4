import Sponge.Reassembler.Stall

set_option autoImplicit false

/-! # What a reassembler holds, over whole runs

A run performs pushes and reads in any order. As long as no substring reaches beyond the 64-bit
indices (`InRange`), the map of stored substrings represents a partial function from indices to
bytes in every state of the run (`run_represents`), and a push overrides that function with its
data inside the window: the newest data wins, and nothing else changes. The source keeps the end
of the window as a 64-bit word, so that the override fails where that word wraps, unless the data
leaves nothing to store or what it leaves starts in front of the wrapped word
(`push_overrides_iff`). -/

namespace Sponge

open Word Pieces Run

/-- The indices of a pushed substring are 64-bit words. -/
def ReassemblerOp.InRange : ReassemblerOp → Prop
  | .push data index _ => index.toNat + data.length < 2 ^ 64
  | .read _ => True
  | .pop _ => True

instance : DecidablePred ReassemblerOp.InRange
  | .push _ _ _ => inferInstanceAs (Decidable (_ < _))
  | .read _ => inferInstanceAs (Decidable True)
  | .pop _ => inferInstanceAs (Decidable True)

namespace StreamReassembler

section

variable {r : StreamReassembler} {done : Bytes}

theorem Wf.step (h : r.Wf done) {op : ReassemblerOp} (hop : op.InRange) :
    ∃ w, (r.step op).Wf (done ++ w) := by
  cases op with
  | push data index eof =>
      obtain ⟨w, hw, -⟩ := h.pushSubstring eof hop
      exact ⟨w, hw⟩
  | read len =>
      refine ⟨[], ?_⟩
      rw [List.append_nil]
      exact h.popOutput len.toNat
  | pop len =>
      refine ⟨[], ?_⟩
      rw [List.append_nil]
      exact h.popOutput len.toNat

/-- Every state of a run is well formed. -/
theorem run_wf (capacity : UInt64) (ops : List ReassemblerOp) (hops : ∀ op ∈ ops, op.InRange) :
    ∃ done, (run step (new capacity) ops).Wf done := by
  refine run_invariant (I := fun r : StreamReassembler => ∃ done, r.Wf done) ?_ ⟨[], wf_new capacity⟩
    (admits_of_forall hops)
  rintro r op ⟨done, h⟩ hop
  obtain ⟨w, hw⟩ := h.step hop
  exact ⟨done ++ w, hw⟩

/-! ## The representation -/

/-- The map of stored substrings is a partial function from indices to bytes, in its one form:
no piece is empty, none starts in front of `exIdx`, no two share an index, and the size that is
kept beside the map is the number of indices it has a byte for. -/
structure Represents (r : StreamReassembler) : Prop where
  nonempty : ∀ e ∈ r.unassembledStrs, e.2 ≠ []
  ahead : ∀ e ∈ r.unassembledStrs, r.exIdx ≤ e.1
  disjoint : ∀ e ∈ r.unassembledStrs, ∀ e' ∈ r.unassembledStrs, ∀ i,
    Covers e.1 e.2 i → Covers e'.1 e'.2 i → e = e'
  written : r.exIdx = r.output.bytesWritten
  total : r.unassembledBytes = r.unassembledStrs.total List.length
  counted : ∃ stored : Finset Nat,
    (∀ i, i ∈ stored ↔ ∃ e ∈ r.unassembledStrs, Covers e.1 e.2 i) ∧
      r.unassembledBytes = stored.card

theorem Wf.represents (h : r.Wf done) : r.Represents := by
  have hst := h.stored
  refine ⟨hst.nonempty, hst.ahead, ?_, h.written_eq.symm, hst.size_eq,
    indices r.unassembledStrs, fun i => mem_indices, ?_⟩
  · rintro ⟨k, d⟩ he ⟨k', d'⟩ he' i hi hi'
    obtain ⟨rfl, rfl⟩ := hst.apart.eq_of_covers he he' hi hi'
    rfl
  · rw [hst.apart.card_indices]
    exact hst.size_eq

end

/-- **The representation invariant**, in every state of every run. -/
theorem run_represents (capacity : UInt64) (ops : List ReassemblerOp)
    (hops : ∀ op ∈ ops, op.InRange) : (run step (new capacity) ops).Represents := by
  obtain ⟨done, h⟩ := run_wf capacity ops hops
  exact h.represents

/-- Contradicting data over two stored substrings, and a read. -/
theorem run_represents_overlap :
    (run step (new 8) [.push [98, 99] 1 false, .push [101] 4 false, .push [120, 121, 122] 2 true,
        .read 1]).unassembledBytes = 4 ∧
      (run step (new 8) [.push [98, 99] 1 false, .push [101] 4 false, .push [120, 121, 122] 2 true,
        .read 1]).Represents :=
  ⟨by decide, run_represents 8 _ (by decide)⟩

/-! ## The override -/

/-- The byte held for the index `i` after a push that turned `r` into `r'`: it is stored, or the
push has written it to the output. -/
def HeldAfter (r r' : StreamReassembler) (i : Nat) (b : UInt8) : Prop :=
  Holds r'.unassembledStrs i b ∨
    (r.exIdx ≤ i ∧ (r'.output.buf.drop r.output.bufferSize)[i - r.exIdx]? = some b)

/-- The index behind the window: the assembled bytes and the room left in the buffer. -/
def windowEnd (r : StreamReassembler) : Nat := r.exIdx + r.capacity - r.output.bufferSize

/-- Inside the window of `r`, `r'` holds the data where that has a byte and elsewhere what `r` had
stored. -/
def Overrides (r r' : StreamReassembler) (data : Bytes) (index : Nat) : Prop :=
  ∀ i b, r.exIdx ≤ i → i < r.windowEnd →
    (HeldAfter r r' i b ↔
      if index ≤ i ∧ i < index + data.length then data[i - index]? = some b
      else Holds r.unassembledStrs i b)

/-- A push of the data loses nothing inside the window: the end of the window is a 64-bit word,
or nothing of the data is left to store, or what is left starts in front of the first unacceptable
index. -/
def KeepsWindow (r : StreamReassembler) (data : Bytes) (index : Nat) : Prop :=
  r.windowEnd < 2 ^ 64 ∨ data = [] ∨ r.Duplicate data index ∨
    r.restIdx index < r.firstUnacceptableIdx

instance (r : StreamReassembler) (data : Bytes) (index : Nat) :
    Decidable (r.KeepsWindow data index) := inferInstanceAs (Decidable (_ ∨ _))

section

variable {r r' : StreamReassembler} {done w data : Bytes} {index : Nat} {eof : Bool}

/-- The word `firstUnacceptableIdx` is the end of the window, where that is a word. -/
theorem Wf.firstUnacceptableIdx_eq (h : r.Wf done) (hlt : r.windowEnd < 2 ^ 64) :
    r.firstUnacceptableIdx = r.windowEnd := by
  have hsize := h.out.size_le
  have hcap := h.out.cap_lt
  have hcap' := h.capacity_eq
  unfold firstUnacceptableIdx windowEnd ByteStream.bufferSize add64 sub64 at *
  omega

/-- The cut drops data of which nothing is new, and else its rest begins at `restIdx`. -/
theorem accepts_iff (hr : Stored r.unassembledStrs r.unassembledSize r.exIdx)
    (hlt : index + data.length < 2 ^ 64) :
    r.Accepts data index ↔
      data = [] ∨ r.Duplicate data index ∨ r.restIdx index < r.firstUnacceptableIdx := by
  unfold Accepts
  by_cases hd : data = []
  · simp [hd]
  · rw [← (cutData_shape hr hd hlt).1]
    have hrest := (cutData_sameEnds hr hd hlt).2
    cases hleft : (r.cutData index data).2 with
    | none => simp
    | some left =>
        have hstart : left.1 = r.restIdx index := hrest left.1 left.2 hleft
        simp [hd, hstart]

/-- The end of the stream, recorded in front of the cut, plays no part in it. -/
theorem Wf.keepsWindow_iff (h : r.Wf done) (hlt : index + data.length < 2 ^ 64) (e : Nat)
    (eof : Bool) :
    r.KeepsWindow data index ↔
      r.windowEnd < 2 ^ 64 ∨ (r.withEof e eof).Accepts data index := by
  rw [accepts_iff (h.withEof e eof).stored hlt, duplicate_withEof, restIdx_withEof,
    firstUnacceptableIdx_withEof]
  rfl

/-- The buffer of the output has grown by the bytes the push has written. -/
theorem Pushes.drop_buf (hp : Pushes r done data index eof r' w) (h : r.Wf done) :
    r'.output.buf.drop r.output.bufferSize = w := by
  have hread : r.output.numBytesRead ≤ done.length := h.out.read_le
  have hbuf : r'.output.buf = r.output.buf ++ w := by
    rw [hp.wf.out.buf_eq, hp.read, List.drop_append_of_le_length hread, ← h.out.buf_eq]
  rw [hbuf]
  show (r.output.buf ++ w).drop r.output.size = w
  rw [h.out.size_eq, List.drop_left]

/-- What is held after a push was written by it or is stored. -/
theorem Pushes.heldAfter_iff (hp : Pushes r done data index eof r' w) (h : r.Wf done) {i : Nat}
    {b : UInt8} (hi : r.exIdx ≤ i) :
    HeldAfter r r' i b ↔ w[i - r.exIdx]? = some b ∨ Holds r'.unassembledStrs i b := by
  unfold HeldAfter
  rw [hp.drop_buf h, or_comm]
  exact or_congr_left (and_iff_right hi)

theorem Pushes.overrides (hp : Pushes r done data index eof r' w) (h : r.Wf done)
    (hlt : index + data.length < 2 ^ 64) (hkeep : r.KeepsWindow data index) :
    Overrides r r' data index := by
  intro i b hi hu
  rw [hp.heldAfter_iff h hi]
  refine ⟨hp.sound i b hi, hp.complete i b hi ?_⟩
  apply ((h.keepsWindow_iff hlt (index + data.length) eof).mp hkeep).imp_left
  intro hword
  rwa [h.firstUnacceptableIdx_eq hword]

/-- A byte of data that is not accepted is lost, and the whole data lies inside a window that ends
behind the 64-bit words. -/
theorem Pushes.keepsWindow (hp : Pushes r done data index eof r' w) (h : r.Wf done)
    (hlt : index + data.length < 2 ^ 64) (hover : Overrides r r' data index) :
    r.KeepsWindow data index := by
  rw [h.keepsWindow_iff hlt (index + data.length) eof]
  by_contra hlost
  obtain ⟨hend, hnot⟩ := not_or.mp hlost
  obtain ⟨i, hi, hfrom, hto, hnone⟩ := hp.refused hnot
  have hget : data[i - index]? = some (data.get ⟨i - index, by omega⟩) :=
    List.getElem?_eq_getElem _
  apply hnone (data.get ⟨i - index, by omega⟩)
  rw [← hp.heldAfter_iff h hi, hover i _ hi (by omega), if_pos ⟨hfrom, hto⟩]
  exact hget

end

end StreamReassembler

end Sponge
