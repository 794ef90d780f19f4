import Sponge.Reassembler.Shape

set_option autoImplicit false

/-! # When a push leaves a stall

A reassembler is stalled when it stores the next byte of the stream and its output has room for
it. The flush loop leaves no stall behind, but `push_substring` returns in front of it when the
data is empty or dropped. A read makes room while the rest of a substring is stored, so a push
of the same bytes after it is a duplicate and moves nothing (`duplicate_stalls`).
`leavesNoStall_iff` says which pushes of a run leave a stall. -/

namespace Sponge

open Word Pieces Run

namespace StreamReassembler

/-- A byte is stored for the next index, the output has not ended, and it has room. -/
def Stalled (r : StreamReassembler) : Prop :=
  r.output.inputEnded = false ∧ r.output.remainingCapacity ≠ 0 ∧
    ∃ e ∈ r.unassembledStrs.entries, Covers e.1 e.2 r.exIdx

instance : DecidablePred Stalled := fun _ => inferInstanceAs (Decidable (_ ∧ _ ∧ _))

/-- The substring ends in front of `2 ^ 64`, or starts behind the window and everything that is
stored. -/
def Placed (r : StreamReassembler) : ReassemblerOp → Prop
  | .push data index _ =>
      index.toNat + data.length < 2 ^ 64 ∨
        (r.exIdx ≤ index.toNat ∧ r.firstUnacceptableIdx ≤ index.toNat ∧
          ∀ e ∈ r.unassembledStrs.entries, e.1 + e.2.length ≤ index.toNat)
  | .read _ => True
  | .pop _ => True

instance decidablePlaced (r : StreamReassembler) : ∀ op, Decidable (r.Placed op)
  | .push _ _ _ => inferInstanceAs (Decidable (_ ∨ _))
  | .read _ => inferInstanceAs (Decidable True)
  | .pop _ => inferInstanceAs (Decidable True)

/-- The push ends the output or comes to the flush loop. -/
def Restarts (r : StreamReassembler) (data : Bytes) (index : Nat) (eof : Bool) : Prop :=
  (eof = true ∧ add64 index data.length = r.exIdx) ∨ (data ≠ [] ∧ ¬ r.Duplicate data index)

instance (r : StreamReassembler) (data : Bytes) (index : Nat) (eof : Bool) :
    Decidable (r.Restarts data index eof) := inferInstanceAs (Decidable (_ ∨ _))

/-- The operation is no push that returns with a stall. -/
def LeavesNoStall (r : StreamReassembler) : ReassemblerOp → Prop
  | .push data index eof => ¬ (r.step (.push data index eof)).Stalled
  | .read _ => True
  | .pop _ => True

/-- A push on a stalled reassembler ends the output or comes to the flush loop. -/
def Clears (r : StreamReassembler) : ReassemblerOp → Prop
  | .push data index eof => r.Stalled → r.Restarts data index.toNat eof
  | .read _ => True
  | .pop _ => True

instance decidableClears (r : StreamReassembler) : ∀ op, Decidable (r.Clears op)
  | .push _ _ _ => inferInstanceAs (Decidable (_ → _))
  | .read _ => inferInstanceAs (Decidable True)
  | .pop _ => inferInstanceAs (Decidable True)

section

variable {r r' : StreamReassembler} {done data : Bytes} {index : Nat}

/-- Every substring survives a duplicate. -/
theorem Duplicate.survives (hdup : r.Duplicate data index)
    (hr : Stored r.unassembledStrs r.unassembledSize r.exIdx) {e : Nat × Bytes}
    (he : e ∈ r.unassembledStrs) : r.Survives data index e := by
  unfold Survives
  by_cases hfront : e.1 < r.restIdx index
  · exact Or.inl hfront
  · refine Or.inr ?_
    rcases hdup with hle | ⟨f, hf, hk, hend⟩
    · omega
    · by_cases heq : e.1 = f.1
      · have hdata : e.2 = f.2 := OrdMap.mem_unique (k := e.1) he (by rw [heq]; exact hf)
        rw [heq, hdata]
        exact hend
      · have := hr.apart f hf e he (by omega)
        omega

/-- Whether the reassembler is stalled depends on the places of the substrings only. -/
theorem stalled_congr (hex : r'.exIdx = r.exIdx) (hout : r'.output = r.output)
    (hplace : ∀ k n, StoredAt r'.unassembledStrs k n ↔ StoredAt r.unassembledStrs k n) :
    r'.Stalled ↔ r.Stalled := by
  have hcover : (∃ e ∈ r'.unassembledStrs, Covers e.1 e.2 r.exIdx) ↔
      ∃ e ∈ r.unassembledStrs, Covers e.1 e.2 r.exIdx := by
    rw [exists_covers_iff, exists_covers_iff]
    simp only [hplace]
  unfold Stalled
  rw [hex, hout]
  exact and_congr_right fun _ => and_congr_right fun _ => hcover

/-- The flush loop leaves no stall. -/
theorem Wf.tryPush_not_stalled (h : r.Wf done) : ¬ r.tryPush.Stalled := by
  obtain ⟨w, hw⟩ := tryPush_spec h
  rintro ⟨hend, hroom, e, he, hcov⟩
  have hahead := hw.wf.stored.ahead e he
  unfold Covers at hcov
  rcases hw.stop e he (by omega) with hended | hfull
  · rw [show r.tryPush.output.inputEnded = true from hended] at hend
    cases hend
  · rw [hw.wf.out.remainingCapacity_eq] at hroom
    omega

/-- A duplicate leaves everything where it is. -/
theorem Wf.store_duplicate (h : r.Wf done) (hd : data ≠ [])
    (hlt : index + data.length < 2 ^ 64) (hdup : r.Duplicate data index) :
    (r.store data index).Stalled ↔ r.Stalled := by
  have hcut := cutData_spec index h.stored hd hlt
  obtain ⟨hdrop, hshape⟩ := cutData_shape h.stored hd hlt
  have hnone := hdrop.mpr hdup
  unfold store
  rcases hres : r.cutData index data with ⟨r₁, left⟩
  rw [hres] at hcut hnone hshape
  simp only at hnone hshape
  subst hnone
  have hframe := hcut.frame
  simp only at hframe
  refine stalled_congr (by rw [hframe]) (by rw [hframe]) (fun k n => (hshape k n).trans ?_)
  refine ⟨And.left, fun hm => ⟨hm, ?_⟩⟩
  obtain ⟨d, hmem, rfl⟩ := hm
  exact hdup.survives h.stored hmem

/-- Any other data is followed by the flush loop. -/
theorem Wf.store_flushed (h : r.Wf done) (hd : data ≠ [])
    (hlt : index + data.length < 2 ^ 64) (hdup : ¬ r.Duplicate data index) :
    ∃ r₂ : StreamReassembler, r₂.Wf done ∧ r.store data index = r₂.tryPush := by
  have hcut := cutData_spec index h.stored hd hlt
  have hdrop := (cutData_shape h.stored hd hlt).1
  unfold store
  rcases hres : r.cutData index data with ⟨r₁, _ | ⟨newIdx, dataCopy⟩⟩
  · rw [hres] at hdrop
    exact absurd (hdrop.mp rfl) hdup
  · rw [hres] at hcut
    exact ⟨r₁.tryInsert newIdx dataCopy, (tryInsert_spec h hcut hlt).1, rfl⟩

/-- Data behind everything is neither a duplicate nor stored. -/
theorem Wf.store_behind (h : r.Wf done) (hlt : index < 2 ^ 64) (hex : r.exIdx ≤ index)
    (hfu : r.firstUnacceptableIdx ≤ index)
    (hends : ∀ e ∈ r.unassembledStrs, e.1 + e.2.length ≤ index) :
    r.store data index = r.tryPush := by
  have hcut : r.cutData index data = (r, some (index, data)) := by
    refine cutData_behind data hlt hex ?_
    intro e he
    have hpos := List.length_pos_iff.mpr (h.stored.nonempty e he)
    have hend := hends e he
    omega
  unfold store
  rw [hcut]
  have hskip : r.tryInsert index data = r := if_neg (by omega)
  simp only [hskip]

theorem Wf.not_duplicate_behind (h : r.Wf done) (hd : data ≠ []) (hex : r.exIdx ≤ index)
    (hends : ∀ e ∈ r.unassembledStrs, e.1 + e.2.length ≤ index) : ¬ r.Duplicate data index := by
  have hpos := List.length_pos_iff.mpr hd
  have hrest := restIdx_behind hex hends
  rintro (hle | ⟨e, he, hk, -⟩)
  · omega
  · have hepos := List.length_pos_iff.mpr (h.stored.nonempty e he)
    have := hends e he
    omega

/-! ## The push -/

/-- A placed push keeps the invariant, and comes to the flush loop unless the data is empty or a
duplicate. -/
theorem Wf.store_placed (h : r.Wf done) (hd : data ≠ []) {idx : UInt64} {eof : Bool}
    (hop : r.Placed (.push data idx eof)) :
    (∃ w, (r.store data idx.toNat).Wf (done ++ w)) ∧
      ((r.store data idx.toNat).Stalled ↔ r.Stalled ∧ r.Duplicate data idx.toNat) := by
  rcases hop with hlt | ⟨hex, hfu, hends⟩
  · obtain ⟨w, hw⟩ := store_spec h hd hlt
    refine ⟨⟨w, hw.wf⟩, ?_⟩
    by_cases hdup : r.Duplicate data idx.toNat
    · rw [h.store_duplicate hd hlt hdup]
      exact ⟨fun hs => ⟨hs, hdup⟩, And.left⟩
    · obtain ⟨r₂, h₂, heq⟩ := h.store_flushed hd hlt hdup
      rw [heq]
      exact ⟨fun hs => absurd hs h₂.tryPush_not_stalled, fun hs => absurd hs.2 hdup⟩
  · rw [h.store_behind idx.toNat_lt hex hfu hends]
    obtain ⟨w, hw⟩ := tryPush_spec h
    exact ⟨⟨w, hw.wf⟩, fun hs => absurd hs h.tryPush_not_stalled,
      fun hs => absurd hs.2 (h.not_duplicate_behind hd hex hends)⟩

theorem duplicate_withEof (r : StreamReassembler) (e : Nat) (eof : Bool) :
    (r.withEof e eof).Duplicate data index ↔ r.Duplicate data index := by
  unfold Duplicate
  rw [restIdx_withEof, (withEof_frame r e eof).2.1]

theorem placed_withEof (r : StreamReassembler) (e : Nat) (eof : Bool) (op : ReassemblerOp) :
    (r.withEof e eof).Placed op ↔ r.Placed op := by
  obtain ⟨hex, hstrs, -⟩ := withEof_frame r e eof
  unfold Placed
  rw [firstUnacceptableIdx_withEof, hex, hstrs]

/-- Recording the end of the stream. -/
theorem withEof_stalled (r : StreamReassembler) (e : Nat) (eof : Bool) :
    (r.withEof e eof).Stalled ↔ r.Stalled ∧ ¬ (eof = true ∧ e = r.exIdx) := by
  obtain ⟨hex, hstrs, -⟩ := withEof_frame r e eof
  have hended := withEof_ended r e eof
  unfold Stalled ByteStream.inputEnded
  rw [remainingCapacity_withEof, hex, hstrs, Bool.eq_false_iff, Bool.eq_false_iff, ne_eq, hended]
  tauto

theorem Wf.push_placed (h : r.Wf done) {idx : UInt64} {eof : Bool}
    (hop : r.Placed (.push data idx eof)) :
    (∃ w, (r.pushSubstring data idx.toNat eof).Wf (done ++ w)) ∧
      ((r.pushSubstring data idx.toNat eof).Stalled ↔
        r.Stalled ∧ ¬ r.Restarts data idx.toNat eof) := by
  by_cases hend : r.output.isInputEnd = true
  · rw [pushSubstring_of_ended data idx.toNat eof hend]
    refine ⟨⟨[], by rwa [List.append_nil]⟩, fun hs => absurd hs.1 ?_, And.left⟩
    simp [ByteStream.inputEnded, hend]
  · set r₀ := r.withEof (add64 idx.toNat data.length) eof with hr₀
    have h₀ : r₀.Wf done := h.withEof _ eof
    have hstalled₀ : r₀.Stalled ↔ _ := withEof_stalled r (add64 idx.toNat data.length) eof
    rw [StreamReassembler.pushSubstring_of_open data idx.toNat eof hend, ← hr₀]
    by_cases hd : data = []
    · rw [if_pos (by rw [hd]; rfl), hstalled₀]
      refine ⟨⟨[], by rwa [List.append_nil]⟩, and_congr_right (fun _ => not_congr ?_)⟩
      exact ⟨Or.inl, fun hres => hres.resolve_right (fun hdup => hdup.1 hd)⟩
    · rw [if_neg (fun hlen => hd (List.eq_nil_of_length_eq_zero hlen))]
      obtain ⟨hwf, hstalled⟩ := h₀.store_placed hd ((placed_withEof r _ eof _).mpr hop)
      refine ⟨hwf, hstalled.trans ?_⟩
      rw [hstalled₀, duplicate_withEof, and_assoc]
      unfold Restarts
      rw [not_or]
      refine and_congr_right fun _ => and_congr_right ?_
      intro _
      exact ⟨fun hdup hnew => hnew.2 hdup, fun h => not_not.mp fun hnew => h ⟨hd, hnew⟩⟩

theorem Wf.step_placed (h : r.Wf done) {op : ReassemblerOp} (hop : r.Placed op) :
    ∃ w, (r.step op).Wf (done ++ w) := by
  cases op with
  | push data index eof => exact (h.push_placed hop).1
  | read len => exact ⟨[], by rw [List.append_nil]; exact h.popOutput len.toNat⟩
  | pop len => exact ⟨[], by rw [List.append_nil]; exact h.popOutput len.toNat⟩

/-- Every state of a run whose pushes are placed is well formed. -/
theorem run_wf_placed {capacity : UInt64} {ops : List ReassemblerOp}
    (hops : Admits step Placed (new capacity) ops) :
    ∃ done, (run step (new capacity) ops).Wf done := by
  refine run_invariant (I := fun r : StreamReassembler => ∃ done, r.Wf done) ?_
    ⟨[], wf_new capacity⟩ hops
  rintro r op ⟨done, h⟩ hop
  obtain ⟨w, hw⟩ := h.step_placed hop
  exact ⟨done ++ w, hw⟩

theorem Wf.leaves_iff_clears (h : r.Wf done) {op : ReassemblerOp} (hop : r.Placed op) :
    r.LeavesNoStall op ↔ r.Clears op := by
  cases op with
  | push data index eof =>
      have hpush := (h.push_placed hop).2
      show ¬ (r.pushSubstring data index.toNat eof).Stalled ↔ (r.Stalled → _)
      rw [hpush, not_and, not_not]
  | read len => exact Iff.rfl
  | pop len => exact Iff.rfl

end

/-- **No stall.** A run whose pushes are placed has no push that returns with a stall exactly if
every push on a stalled reassembler ends the output or comes to the flush loop. -/
theorem leavesNoStall_iff (capacity : UInt64) (ops : List ReassemblerOp)
    (hops : Admits step Placed (new capacity) ops) :
    Admits step LeavesNoStall (new capacity) ops ↔ Admits step Clears (new capacity) ops := by
  refine admits_congr_of_admits (I := fun r : StreamReassembler => ∃ done, r.Wf done) ?_ ?_
    ⟨[], wf_new capacity⟩ hops
  · rintro r op ⟨done, h⟩ hop
    obtain ⟨w, hw⟩ := h.step_placed hop
    exact ⟨done ++ w, hw⟩
  · rintro r op ⟨done, h⟩ hop
    exact h.leaves_iff_clears hop

/-- The rest of a substring is moved by a push that brings one more byte. -/
theorem leavesNoStall_longer :
    Admits step LeavesNoStall (new 1)
      [.push [97, 98] 0 false, .read 1, .push [97, 98, 99] 0 false] :=
  (leavesNoStall_iff 1 _ (by decide)).mpr (by decide)

/-- The same substring again after a read: its rest is stored, the output is empty, and nothing
moves. -/
theorem duplicate_stalls :
    (run step (new 1) [.push [97, 98] 0 false, .read 1, .push [97, 98] 0 false]).Stalled := by
  decide

end StreamReassembler

end Sponge
