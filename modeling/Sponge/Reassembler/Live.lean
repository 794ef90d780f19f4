import Sponge.Reassembler.Access

set_option autoImplicit false

/-! # When every access is to a live element

`Live` says that a checked push has no fault, and `Sheltered` says the same in terms of the state
in front of the push. Two accesses can go past the end, both on an empty map: the one of
`getFrontItr`, which every first push of data meets, and the comparison in front of the flush
loop. The third fault is the write that the output takes only in part: it is reached when the
bytes that continue the output are more than the output has room for, or go on behind the end of
the stream. -/

namespace Sponge

open Word Pieces Run

namespace StreamReassembler

/-- The operation accesses live elements only. -/
def Live (r : StreamReassembler) : ReassemblerOp → Prop
  | .push data index eof => ∃ r', Checked.pushSubstring r data index.toNat eof = .ok r'
  | .read _ => True
  | .pop _ => True

/-- Where the stored substrings start once the data is laid over them. -/
def starts (r : StreamReassembler) (data : Bytes) (index : Nat) : List Nat :=
  (if r.restIdx index < r.firstUnacceptableIdx then [r.restIdx index] else []) ++
    (r.unassembledStrs.entries.filter (r.Survives data index)).map Prod.fst

/-- A byte is stored for the index `i` once the data is laid over the stored substrings. -/
def Laid (r : StreamReassembler) (data : Bytes) (index i : Nat) : Prop :=
  if r.restIdx index < r.firstUnacceptableIdx then
    (index ≤ i ∧ i < index + data.length) ∨ i ∈ indices r.unassembledStrs
  else ∃ e ∈ r.unassembledStrs.entries, r.Survives data index e ∧ Covers e.1 e.2 i

instance (r : StreamReassembler) (data : Bytes) (index : Nat) :
    DecidablePred (r.Laid data index) :=
  fun i => by unfold Laid; infer_instance

/-- The output has ended when the flush loop comes to a substring at `s`. -/
def EndedAt (r : StreamReassembler) (data : Bytes) (index : Nat) (eof : Bool) (s : Nat) : Prop :=
  (s = r.exIdx ∧ eof = true ∧ add64 index data.length = r.exIdx) ∨
    (r.exIdx < s ∧ (r.eofSignRecv || eof) = true ∧
      (if eof then add64 index data.length else r.eofIdx) ≤ s)

instance (r : StreamReassembler) (data : Bytes) (index : Nat) (eof : Bool) :
    DecidablePred (r.EndedAt data index eof) := fun _ => inferInstanceAs (Decidable (_ ∨ _))

/-- The flush loop finds a first substring, and the output takes every substring that the loop
comes to as a whole. -/
structure Whole (r : StreamReassembler) (data : Bytes) (index : Nat) (eof : Bool) : Prop where
  some_stored : r.starts data index ≠ []
  room : ∃ j ≤ r.output.remainingCapacity, ¬ r.Laid data index (r.exIdx + j)
  before_end : ∀ s ∈ r.starts data index, (∀ i < s, r.exIdx ≤ i → r.Laid data index i) →
    ¬ r.EndedAt data index eof s

theorem whole_iff {r : StreamReassembler} {data : Bytes} {index : Nat} {eof : Bool} :
    r.Whole data index eof ↔ r.starts data index ≠ [] ∧
      (∃ j ≤ r.output.remainingCapacity, ¬ r.Laid data index (r.exIdx + j)) ∧
      ∀ s ∈ r.starts data index, (∀ i < s, r.exIdx ≤ i → r.Laid data index i) →
        ¬ r.EndedAt data index eof s :=
  ⟨fun h => ⟨h.some_stored, h.room, h.before_end⟩, fun h => ⟨h.1, h.2.1, h.2.2⟩⟩

instance (r : StreamReassembler) (data : Bytes) (index : Nat) (eof : Bool) :
    Decidable (r.Whole data index eof) := decidable_of_iff' _ whole_iff

/-- The push does nothing, or it looks for the substring in front in a map that is not empty (or
not at all) and is a duplicate or flushed as a whole. -/
def Sheltered (r : StreamReassembler) : ReassemblerOp → Prop
  | .push data index eof =>
      r.output.inputEnded = true ∨ data = [] ∨
        ((index.toNat < r.exIdx ∨ r.unassembledStrs.entries ≠ []) ∧
          (r.Duplicate data index.toNat ∨ r.Whole data index.toNat eof))
  | .read _ => True
  | .pop _ => True

instance decidableSheltered (r : StreamReassembler) : ∀ op, Decidable (r.Sheltered op)
  | .push _ _ _ => inferInstanceAs (Decidable (_ ∨ _ ∨ (_ ∧ _)))
  | .read _ => inferInstanceAs (Decidable True)
  | .pop _ => inferInstanceAs (Decidable True)

/-! ## The flush loop -/

/-- The flush loop writes substrings as a whole only: behind the bytes that continue the output
there is a gap within its room, and none of their substrings is met after the end. -/
structure Flushable (r : StreamReassembler) : Prop where
  room : ∃ i, r.exIdx ≤ i ∧ i ≤ r.exIdx + r.output.remainingCapacity ∧
    i ∉ indices r.unassembledStrs
  before_end : ∀ e ∈ r.unassembledStrs,
    (∀ i, r.exIdx ≤ i → i < e.1 → i ∈ indices r.unassembledStrs) →
    ¬ ((e.1 = r.exIdx ∧ r.output.isInputEnd = true) ∨
      (r.exIdx < e.1 ∧ r.eofSignRecv = true ∧ r.eofIdx ≤ e.1))

section

variable {r : StreamReassembler} {done currData : Bytes}

/-- Nothing is flushed when nothing is stored at the next index. -/
theorem Wf.flushable_of_gap (h : r.Wf done) (hne : ∀ e ∈ r.unassembledStrs, e.1 ≠ r.exIdx) :
    r.Flushable := by
  have hgap : r.exIdx ∉ indices r.unassembledStrs := by
    rw [mem_indices]
    rintro ⟨e, he, hcov⟩
    have hahead := h.stored.ahead e he
    unfold Covers at hcov
    exact hne e he (by omega)
  refine ⟨⟨r.exIdx, le_rfl, Nat.le_add_right _ _, hgap⟩, ?_⟩
  intro e he hall
  rintro (⟨hk, -⟩ | ⟨hlt, -⟩)
  · exact hne e he hk
  · exact hgap (hall r.exIdx le_rfl hlt)

/-- A substring that the output takes as a whole can be flushed first. -/
theorem Wf.flushable_afterWrite (h : r.Wf done) (hm : (r.exIdx, currData) ∈ r.unassembledStrs)
    (hend : r.output.isInputEnd = false)
    (hfull : (r.output.write currData).2 = currData.length) :
    (r.afterWrite currData).Flushable ↔ r.Flushable := by
  have hpos := List.length_pos_iff.mpr (h.stored.nonempty _ hm)
  have hended := afterWrite_ended r currData
  obtain ⟨hcap, -, -, hsize⟩ := afterWrite_output r currData
  have hwf := h.afterWrite_full hm hfull
  have hex : (r.afterWrite currData).exIdx = r.exIdx + currData.length := by
    show r.exIdx + (r.output.write currData).2 = _
    rw [hfull]
  have hroom : (r.afterWrite currData).output.remainingCapacity + currData.length
      = r.output.remainingCapacity := by
    have hle := hwf.out.size_le
    rw [h.out.remainingCapacity_eq, hwf.out.remainingCapacity_eq]
    omega
  have hheld : ∀ i, i ∈ indices (r.afterWrite currData).unassembledStrs ↔
      i ∈ indices r.unassembledStrs ∧ ¬ Covers r.exIdx currData i :=
    fun i => mem_indices_erase h.stored.apart hm
  have hself : ∀ i, r.exIdx ≤ i → i < r.exIdx + currData.length →
      i ∈ indices r.unassembledStrs :=
    fun i hi hlt => mem_indices.mpr ⟨_, hm, hi, hlt⟩
  simp only at hpos
  constructor
  · rintro ⟨⟨i, hi, hle, hgap⟩, hbefore⟩
    have hcov : ¬ Covers r.exIdx currData i := by
      unfold Covers
      omega
    refine ⟨⟨i, by omega, by omega, fun hin => hgap ((hheld i).mpr ⟨hin, hcov⟩)⟩, ?_⟩
    intro e he hall
    rintro (⟨-, hended'⟩ | ⟨hlt, hsign, hidx⟩)
    · rw [hend] at hended'
      cases hended'
    · -- the substring lies behind the one that is written
      have hmem : e ∈ (r.afterWrite currData).unassembledStrs :=
        OrdMap.mem_erase.mpr ⟨he, hlt.ne'⟩
      have hbehind : r.exIdx + currData.length ≤ e.1 := h.erase_ahead hm e hmem
      refine hbefore e hmem (fun i hi hie => (hheld i).mpr ⟨hall i (by omega) hie, ?_⟩) ?_
      · unfold Covers
        omega
      · by_cases hnext : e.1 = (r.afterWrite currData).exIdx
        · exact Or.inl ⟨hnext, hended.mpr (Or.inr ⟨hsign, by rw [← hnext]; exact hidx⟩)⟩
        · exact Or.inr ⟨by omega, hsign, hidx⟩
  · rintro ⟨⟨i, hi, hle, hgap⟩, hbefore⟩
    have hbehind : r.exIdx + currData.length ≤ i := by
      by_contra hlt
      exact hgap (hself i hi (by omega))
    refine ⟨⟨i, by omega, by omega, fun hin => hgap ((hheld i).mp hin).1⟩, ?_⟩
    intro e he hall hbad
    have hmem : e ∈ r.unassembledStrs := (OrdMap.mem_erase.mp he).1
    have hlater : r.exIdx + currData.length ≤ e.1 := h.erase_ahead hm e he
    refine hbefore e hmem (fun i hi hie => ?_) (Or.inr ⟨by omega, ?_⟩)
    · by_cases hin : i < r.exIdx + currData.length
      · exact hself i hi hin
      · exact ((hheld i).mp (hall i (by omega) hie)).1
    · rcases hbad with ⟨hnext, hend'⟩ | ⟨-, hsign, hidx⟩
      · rcases hended.mp hend' with h' | ⟨hsign, hidx⟩
        · rw [hend] at h'
          cases h'
        · exact ⟨hsign, by rw [hnext]; exact hidx⟩
      · exact ⟨hsign, hidx⟩

/-- A substring of which the output takes only a part. -/
theorem Wf.not_flushable_of_part (h : r.Wf done) (hm : (r.exIdx, currData) ∈ r.unassembledStrs)
    (hpart : (r.output.write currData).2 < currData.length) : ¬ r.Flushable := by
  rintro ⟨⟨i, hi, hle, hgap⟩, hbefore⟩
  have hcount := h.out.write_count currData
  cases hend : r.output.isInputEnd with
  | true =>
      exact hbefore _ hm (fun i hi hie => by simp only at hie; omega) (Or.inl ⟨rfl, hend⟩)
  | false =>
      rw [hend, if_neg (by simp)] at hcount
      rw [h.out.remainingCapacity_eq] at hle
      exact hgap (mem_indices.mpr ⟨_, hm, hi, by simp only; omega⟩)

end

/-- **The flush loop** has no fault exactly if it writes substrings as a whole only. -/
theorem flush_live_iff (l : List (Nat × Bytes)) (r : StreamReassembler) (done : Bytes)
    (h : r.Wf done) (hl : r.unassembledStrs.entries = l) :
    (∃ r', Checked.flush l r = .ok r') ↔ r.Flushable := by
  induction l generalizing r done with
  | nil =>
      refine ⟨fun _ => h.flushable_of_gap (fun e he => ?_), fun _ => ⟨r, rfl⟩⟩
      rw [OrdMap.mem_def, hl] at he
      cases he
  | cons a it ih =>
      obtain ⟨currIdx, currData⟩ := a
      have hm : (currIdx, currData) ∈ r.unassembledStrs := by
        rw [OrdMap.mem_def, hl]
        exact List.mem_cons_self
      have hahead := h.stored.ahead _ hm
      simp only at hahead
      by_cases hgap : r.exIdx < currIdx
      · rw [Checked.flush_of_gap hm hgap]
        refine ⟨fun _ => h.flushable_of_gap (fun e he => ?_), fun _ => ⟨r, rfl⟩⟩
        rcases OrdMap.head_le hl e he with heq | hlt
        · simp only at heq
          omega
        · simp only at hlt
          omega
      · obtain rfl : currIdx = r.exIdx := by omega
        rw [Checked.flush_cons hm hgap]
        by_cases hpart : (r.output.write currData).2 < currData.length
        · rw [if_pos hpart]
          exact ⟨fun ⟨_, hr'⟩ => (by cases hr'),
            fun hf => absurd hf (h.not_flushable_of_part hm hpart)⟩
        · have hfull : (r.output.write currData).2 = currData.length := by
            have := h.out.write_count_le currData
            omega
          have hend : r.output.isInputEnd = false := by
            by_contra hended
            rw [r.output.write_of_ended currData (by simpa using hended)] at hfull
            exact h.stored.nonempty _ hm (List.eq_nil_of_length_eq_zero hfull.symm)
          rw [if_neg hpart, ← h.flushable_afterWrite hm hend hfull]
          exact ih (r.afterWrite currData) (done ++ currData) (h.afterWrite_full hm hfull)
            (OrdMap.erase_head hl)

theorem tryPush_live_iff {r : StreamReassembler} {done : Bytes} (h : r.Wf done) :
    (∃ r', Checked.tryPush r = .ok r') ↔ r.unassembledStrs.entries ≠ [] ∧ r.Flushable := by
  unfold Checked.tryPush
  cases hl : r.unassembledStrs.entries with
  | nil => exact ⟨fun ⟨_, hr'⟩ => (by cases hr'), fun hne => absurd rfl hne.1⟩
  | cons e l =>
      have hm : e ∈ r.unassembledStrs := by
        rw [OrdMap.mem_def, hl]
        exact List.mem_cons_self
      rw [Checked.deref_of_mem hm]
      show (∃ r', (if r.exIdx = e.1 then Checked.flush (e :: l) r else pure r) = .ok r') ↔ _
      by_cases hex : r.exIdx = e.1
      · rw [if_pos hex, flush_live_iff (e :: l) r done h hl]
        exact ⟨fun hf => ⟨List.cons_ne_nil _ _, hf⟩, And.right⟩
      · rw [if_neg hex]
        have hahead := h.stored.ahead e hm
        refine ⟨fun _ => ⟨List.cons_ne_nil _ _, h.flushable_of_gap (fun e' he' => ?_)⟩,
          fun _ => ⟨r, rfl⟩⟩
        rcases OrdMap.head_le hl e' he' with heq | hlt
        · omega
        · omega

/-! ## Laying the data over the stored substrings -/

/-- The stored substrings of `r₂` are those of `r` with the data laid over them, and the rest of
the state is that of `r`. -/
structure Lays (r : StreamReassembler) (data : Bytes) (index : Nat) (r₂ : StreamReassembler) :
    Prop where
  wf : ∀ done, r.Wf done → r₂.Wf done
  exIdx : r₂.exIdx = r.exIdx
  output : r₂.output = r.output
  eofSign : r₂.eofSignRecv = r.eofSignRecv
  eofIdx : r₂.eofIdx = r.eofIdx
  starts : ∀ s, s ∈ r.starts data index ↔ ∃ e ∈ r₂.unassembledStrs, e.1 = s
  laid : ∀ i, r.exIdx ≤ i → (i ∈ indices r₂.unassembledStrs ↔ r.Laid data index i)

section

variable {r r₂ : StreamReassembler} {done data : Bytes} {index : Nat} {eof : Bool}

/-- The keys of the substrings that survive. -/
theorem mem_starts {s : Nat} : s ∈ r.starts data index ↔
    (r.restIdx index < r.firstUnacceptableIdx ∧ s = r.restIdx index) ∨
      ∃ e ∈ r.unassembledStrs, r.Survives data index e ∧ e.1 = s := by
  unfold starts
  rw [List.mem_append, List.mem_map]
  refine or_congr ?_ ⟨?_, ?_⟩
  · split_ifs with hin
    · simp [hin]
    · simp [hin]
  · rintro ⟨e, he, rfl⟩
    obtain ⟨hmem, hs⟩ := List.mem_filter.mp he
    exact ⟨e, hmem, by simpa using hs, rfl⟩
  · rintro ⟨e, hmem, hs, rfl⟩
    exact ⟨e, List.mem_filter.mpr ⟨hmem, by simpa using hs⟩, rfl⟩

/-- The substrings that the cut leaves. -/
theorem exists_cutData_iff (hr : Stored r.unassembledStrs r.unassembledSize r.exIdx)
    (hd : data ≠ []) (hlt : index + data.length < 2 ^ 64) (P : Nat → Nat → Prop) :
    (∃ e ∈ (r.cutData index data).1.unassembledStrs, P e.1 e.2.length) ↔
      ∃ e ∈ r.unassembledStrs, r.Survives data index e ∧ P e.1 e.2.length := by
  have hshape := (cutData_shape hr hd hlt).2
  constructor
  · rintro ⟨e, he, hp⟩
    obtain ⟨hat, hs⟩ := (hshape e.1 e.2.length).mp (storedAt_iff.mpr ⟨e, he, rfl, rfl⟩)
    obtain ⟨e', he', hk', hn'⟩ := storedAt_iff.mp hat
    refine ⟨e', he', ?_, ?_⟩
    · unfold Survives
      rwa [hk', hn']
    · rwa [hk', hn']
  · rintro ⟨e, he, hs, hp⟩
    obtain ⟨e', he', hk', hn'⟩ := storedAt_iff.mp
      ((hshape e.1 e.2.length).mpr ⟨storedAt_iff.mpr ⟨e, he, rfl, rfl⟩, hs⟩)
    exact ⟨e', he', by rwa [hk', hn']⟩

/-- Data in range that is no duplicate. -/
theorem Wf.lays_inRange (h : r.Wf done) (hd : data ≠ []) (hlt : index + data.length < 2 ^ 64)
    (hdup : ¬ r.Duplicate data index) :
    ∃ left, (r.cutData index data).2 = some left ∧
      r.Lays data index ((r.cutData index data).1.tryInsert left.1 left.2) := by
  have hcut := cutData_spec index h.stored hd hlt
  have hdrop := (cutData_shape h.stored hd hlt).1
  have hleft := exists_cutData_iff h.stored hd hlt
  obtain ⟨-, hrest⟩ := cutData_sameEnds h.stored hd hlt
  rcases hres : r.cutData index data with ⟨r₁, _ | ⟨newIdx, dataCopy⟩⟩
  · rw [hres] at hdrop
    exact absurd (hdrop.mp rfl) hdup
  · rw [hres] at hcut hleft hrest
    obtain ⟨hne, hex, -, -, hfree, hover⟩ := hcut.kept newIdx dataCopy rfl
    have hnew : newIdx = r.restIdx index := hrest newIdx dataCopy rfl
    have hframe := hcut.frame
    have hst := hcut.stored
    simp only at hframe hst hfree hover
    have hfu : r₁.firstUnacceptableIdx = r.firstUnacceptableIdx := by
      rw [hframe]
      rfl
    have hkeys : ∀ s, (∃ e ∈ r₁.unassembledStrs, e.1 = s) ↔
        ∃ e ∈ r.unassembledStrs, r.Survives data index e ∧ e.1 = s :=
      fun s => hleft (fun k _ => k = s)
    refine ⟨(newIdx, dataCopy), rfl, ?_⟩
    have hwf : ∀ done', r.Wf done' → (r₁.tryInsert newIdx dataCopy).Wf done' :=
      fun done' h' => (tryInsert_spec h' hcut hlt).1
    by_cases hin : r.restIdx index < r.firstUnacceptableIdx
    · have hins : r₁.tryInsert newIdx dataCopy = { r₁ with
          unassembledStrs := r₁.unassembledStrs.insert newIdx dataCopy
          unassembledSize := add64 r₁.unassembledSize dataCopy.length } := by
        unfold tryInsert
        rw [if_pos (by rw [hfu, hnew]; exact hin)]
      rw [hins] at hwf ⊢
      refine ⟨hwf, by rw [hframe], by rw [hframe], by rw [hframe], by rw [hframe], fun s => ?_,
        fun i hi => ?_⟩
      · rw [mem_starts, ← hkeys s]
        show _ ↔ ∃ e ∈ r₁.unassembledStrs.insert newIdx dataCopy, e.1 = s
        constructor
        · rintro (⟨-, rfl⟩ | ⟨e, he, rfl⟩)
          · exact ⟨_, OrdMap.mem_insert.mpr (Or.inl rfl), hnew⟩
          · exact ⟨e, OrdMap.mem_insert.mpr
              (Or.inr ⟨he, hfree.ne hne hst.nonempty e he⟩), rfl⟩
        · rintro ⟨e, he, rfl⟩
          rcases OrdMap.mem_insert.mp he with rfl | ⟨he, -⟩
          · exact Or.inl ⟨hin, hnew⟩
          · exact Or.inr ⟨e, he, rfl⟩
      · unfold Laid
        rw [if_pos hin, mem_indices_iff_holds, mem_indices_iff_holds]
        refine Iff.trans ?_ exists_over_iff
        apply exists_congr
        intro b
        exact (hst.apart.holds_insert hfree hne hst.nonempty i b).trans (hover i b hi)
    · have hskip : r₁.tryInsert newIdx dataCopy = r₁ :=
        if_neg (by rw [hfu, hnew]; exact hin)
      rw [hskip] at hwf ⊢
      refine ⟨hwf, by rw [hframe], by rw [hframe], by rw [hframe], by rw [hframe], fun s => ?_,
        fun i _ => ?_⟩
      · rw [mem_starts, hkeys s]
        exact ⟨fun hs => hs.resolve_left (fun hbad => hin hbad.1), Or.inr⟩
      · unfold Laid
        rw [if_neg hin, mem_indices]
        exact hleft (fun k n => k ≤ i ∧ i < k + n)

/-- Data behind everything changes nothing. -/
theorem Wf.lays_behind (h : r.Wf done) (hlt : index < 2 ^ 64) (hex : r.exIdx ≤ index)
    (hfu : r.firstUnacceptableIdx ≤ index)
    (hends : ∀ e ∈ r.unassembledStrs, e.1 + e.2.length ≤ index) :
    ∃ left, (r.cutData index data).2 = some left ∧
      r.Lays data index ((r.cutData index data).1.tryInsert left.1 left.2) := by
  have hfront : ∀ e ∈ r.unassembledStrs, e.1 < index := by
    intro e he
    have hpos := List.length_pos_iff.mpr (h.stored.nonempty e he)
    have hend := hends e he
    omega
  have hcut : r.cutData index data = (r, some (index, data)) :=
    cutData_behind data hlt hex (fun e he => ⟨hfront e he, hends e he⟩)
  have hrest := restIdx_behind hex hends
  have hsurvives : ∀ e ∈ r.unassembledStrs, r.Survives data index e := by
    intro e he
    exact Or.inl (by rw [hrest]; exact hfront e he)
  have hskip : r.tryInsert index data = r := if_neg (by omega)
  rw [hcut]
  refine ⟨(index, data), rfl, ?_⟩
  simp only [hskip]
  refine ⟨fun _ h' => h', rfl, rfl, rfl, rfl, fun s => ?_, fun i _ => ?_⟩
  · rw [mem_starts]
    constructor
    · rintro (⟨hbad, -⟩ | ⟨e, he, -, hs⟩)
      · omega
      · exact ⟨e, he, hs⟩
    · rintro ⟨e, he, hs⟩
      exact Or.inr ⟨e, he, hsurvives e he, hs⟩
  · unfold Laid
    rw [if_neg (by omega), mem_indices]
    constructor
    · rintro ⟨e, he, hcov⟩
      exact ⟨e, he, hsurvives e he, hcov⟩
    · rintro ⟨e, he, -, hcov⟩
      exact ⟨e, he, hcov⟩

theorem starts_withEof (r : StreamReassembler) (e : Nat) (eof : Bool) (data : Bytes)
    (index : Nat) : (r.withEof e eof).starts data index = r.starts data index := by
  have hsurvives : ∀ s, (r.withEof e eof).Survives data index s ↔ r.Survives data index s := by
    intro s
    unfold Survives
    rw [restIdx_withEof]
  unfold starts
  rw [restIdx_withEof, firstUnacceptableIdx_withEof, (withEof_frame r e eof).2.1]
  congr 2
  exact List.filter_congr (fun s _ => decide_eq_decide.mpr (hsurvives s))

theorem laid_withEof (r : StreamReassembler) (e : Nat) (eof : Bool) (data : Bytes)
    (index i : Nat) : (r.withEof e eof).Laid data index i ↔ r.Laid data index i := by
  unfold Laid Survives
  rw [restIdx_withEof, firstUnacceptableIdx_withEof, (withEof_frame r e eof).2.1]

/-- What the flush loop meets, in terms of the state in front of the push. -/
theorem Lays.whole_iff (hl : (r.withEof (add64 index data.length) eof).Lays data index r₂)
    (hend : r.output.isInputEnd = false) :
    r₂.unassembledStrs.entries ≠ [] ∧ r₂.Flushable ↔ r.Whole data index eof := by
  obtain ⟨hex, -, -, -, -, -, hsign, hidx⟩ := withEof_frame r (add64 index data.length) eof
  have hended := withEof_ended r (add64 index data.length) eof
  have hroom := remainingCapacity_withEof r (add64 index data.length) eof
  have hex₂ : r₂.exIdx = r.exIdx := hl.exIdx.trans hex
  have hheld : ∀ i, r.exIdx ≤ i → (i ∈ indices r₂.unassembledStrs ↔ r.Laid data index i) :=
    fun i hi => (hl.laid i (hex.trans_le hi)).trans (laid_withEof r _ eof data index i)
  have hkey : ∀ s, s ∈ r.starts data index ↔ ∃ e ∈ r₂.unassembledStrs, e.1 = s := by
    intro s
    rw [← starts_withEof r (add64 index data.length) eof]
    exact hl.starts s
  have hbad : ∀ s, (s = r₂.exIdx ∧ r₂.output.isInputEnd = true) ∨
      (r₂.exIdx < s ∧ r₂.eofSignRecv = true ∧ r₂.eofIdx ≤ s) ↔ r.EndedAt data index eof s := by
    intro s
    unfold EndedAt
    rw [hl.output, hl.eofSign, hl.eofIdx, hended, hsign, hidx, hex₂, hend]
    simp
  constructor
  · rintro ⟨hne, ⟨i, hi, hle, hgap⟩, hbefore⟩
    rw [hl.output, hroom] at hle
    refine ⟨?_, ⟨i - r.exIdx, by omega, ?_⟩, fun s hs hall hs' => ?_⟩
    · obtain ⟨e, it, hentries⟩ := List.exists_cons_of_ne_nil hne
      have he : e ∈ r₂.unassembledStrs := by
        rw [OrdMap.mem_def, hentries]
        exact List.mem_cons_self
      exact List.ne_nil_of_mem ((hkey e.1).mpr ⟨e, he, rfl⟩)
    · rw [← hheld _ (Nat.le_add_right _ _), Nat.add_sub_cancel' (by omega)]
      exact hgap
    · obtain ⟨e, he, rfl⟩ := (hkey s).mp hs
      refine hbefore e he (fun i hi hie => ?_) ((hbad e.1).mpr hs')
      exact (hheld i (by omega)).mpr (hall i hie (by omega))
  · rintro ⟨hne, ⟨j, hj, hgap⟩, hbefore⟩
    refine ⟨fun hnil => ?_, ⟨r.exIdx + j, by omega, ?_, ?_⟩, fun e he hall hs' => ?_⟩
    · obtain ⟨s, rest, hentries⟩ := List.exists_cons_of_ne_nil hne
      obtain ⟨e, he, -⟩ := (hkey s).mp (by rw [hentries]; exact List.mem_cons_self)
      rw [OrdMap.mem_def, hnil] at he
      cases he
    · rw [hl.output, hroom]
      omega
    · rw [hheld _ (Nat.le_add_right _ _)]
      exact hgap
    · refine hbefore e.1 ((hkey e.1).mpr ⟨e, he, rfl⟩) (fun i hie hi => ?_) ((hbad e.1).mp hs')
      exact (hheld i hi).mp (hall i (by omega) hie)

/-! ## The push -/

/-- A placed push has no fault exactly if it is sheltered. -/
theorem Wf.live_push_iff (h : r.Wf done) {idx : UInt64}
    (hop : r.Placed (.push data idx eof)) :
    r.Live (.push data idx eof) ↔ r.Sheltered (.push data idx eof) := by
  show (∃ r', Checked.pushSubstring r data idx.toNat eof = .ok r') ↔
    r.output.inputEnded = true ∨ data = [] ∨ _
  cases hend : r.output.inputEnded with
  | true =>
      refine ⟨fun _ => Or.inl rfl, fun _ => ⟨r, ?_⟩⟩
      unfold Checked.pushSubstring
      rw [if_pos hend]
      rfl
  | false =>
      rw [Checked.pushSubstring_of_open hend]
      by_cases hd : data = []
      · rw [if_pos (by rw [hd]; rfl)]
        exact ⟨fun _ => Or.inr (Or.inl hd), fun _ => ⟨_, rfl⟩⟩
      · rw [if_neg (fun hlen => hd (List.eq_nil_of_length_eq_zero hlen))]
        set r₀ := r.withEof (add64 idx.toNat data.length) eof with hr₀
        have h₀ : r₀.Wf done := h.withEof _ eof
        obtain ⟨hex, hstrs, -⟩ := withEof_frame r (add64 idx.toNat data.length) eof
        rw [← hr₀] at hex hstrs
        have hop₀ : r₀.Placed (.push data idx eof) := (placed_withEof r _ eof _).mpr hop
        have hdup : r₀.Duplicate data idx.toNat ↔ r.Duplicate data idx.toNat :=
          duplicate_withEof r _ eof
        rw [Checked.store_eq, hex, hstrs]
        by_cases hfind : idx.toNat < r.exIdx ∨ r.unassembledStrs.entries ≠ []
        · rw [if_pos hfind]
          by_cases hdup' : r.Duplicate data idx.toNat
          · -- a duplicate is dropped in front of the other accesses
            refine ⟨fun _ => Or.inr (Or.inr ⟨hfind, Or.inl hdup'⟩), ?_⟩
            intro _
            have hlt : idx.toNat + data.length < 2 ^ 64 := by
              rcases hop₀ with hlt | ⟨hex', hfu, hends⟩
              · exact hlt
              · exact absurd (hdup.mpr hdup') (h₀.not_duplicate_behind hd hex' hends)
            rw [((cutData_shape h₀.stored hd hlt).1).mpr (hdup.mpr hdup')]
            exact ⟨_, rfl⟩
          · have hlays : ∃ left, (r₀.cutData idx.toNat data).2 = some left ∧
                r₀.Lays data idx.toNat ((r₀.cutData idx.toNat data).1.tryInsert left.1 left.2) := by
              rcases hop₀ with hlt | ⟨hex', hfu, hends⟩
              · exact h₀.lays_inRange hd hlt (fun hbad => hdup' (hdup.mp hbad))
              · exact h₀.lays_behind idx.toNat_lt hex' hfu hends
            obtain ⟨left, hleft, hl⟩ := hlays
            have hwhole := hl.whole_iff hend
            rw [hleft]
            show (∃ r', Checked.tryPush _ = .ok r') ↔ _
            rw [tryPush_live_iff (hl.wf done h₀), hwhole]
            constructor
            · exact fun hw => Or.inr (Or.inr ⟨hfind, Or.inr hw⟩)
            · rintro (hbad | hbad | ⟨-, hbad | hw⟩)
              · cases hbad
              · exact absurd hbad hd
              · exact absurd hbad hdup'
              · exact hw
        · rw [if_neg hfind]
          refine ⟨fun ⟨_, hr'⟩ => (by cases hr'), ?_⟩
          rintro (hbad | hbad | ⟨hbad, -⟩)
          · cases hbad
          · exact absurd hbad hd
          · exact absurd hbad hfind

theorem Wf.live_iff (h : r.Wf done) {op : ReassemblerOp} (hop : r.Placed op) :
    r.Live op ↔ r.Sheltered op := by
  cases op with
  | push data index eof => exact h.live_push_iff hop
  | read len => exact Iff.rfl
  | pop len => exact Iff.rfl

end

/-! ## Runs -/

/-- A push without data, or on an ended output. -/
def Idle (r : StreamReassembler) : ReassemblerOp → Prop
  | .push data _ _ => r.output.inputEnded = true ∨ data = []
  | .read _ => True
  | .pop _ => True

instance decidableIdle (r : StreamReassembler) : ∀ op, Decidable (r.Idle op)
  | .push _ _ _ => inferInstanceAs (Decidable (_ ∨ _))
  | .read _ => inferInstanceAs (Decidable True)
  | .pop _ => inferInstanceAs (Decidable True)

/-- Nothing was written or stored yet. -/
def Fresh (r : StreamReassembler) : Prop := r.exIdx = 0 ∧ r.unassembledStrs.entries = []

theorem Fresh.step {r : StreamReassembler} (h : r.Fresh) {op : ReassemblerOp} (hop : r.Idle op) :
    (r.step op).Fresh := by
  cases op with
  | push data index eof =>
      show (r.pushSubstring data index.toNat eof).Fresh
      by_cases hend : r.output.isInputEnd = true
      · rwa [pushSubstring_of_ended data index.toNat eof hend]
      · have hd : data = [] := hop.resolve_left hend
        obtain ⟨hex, hstrs, -⟩ := withEof_frame r (add64 index.toNat data.length) eof
        rw [pushSubstring_of_open data index.toNat eof hend, if_pos (by rw [hd]; rfl)]
        exact ⟨hex.trans h.1, by rw [hstrs]; exact h.2⟩
  | read len => exact h
  | pop len => exact h

/-- The first data of a run looks for a substring in front of it in an empty map. -/
theorem Fresh.live_iff {r : StreamReassembler} (h : r.Fresh) (op : ReassemblerOp) :
    r.Live op ↔ r.Idle op := by
  cases op with
  | push data index eof =>
      show (∃ r', Checked.pushSubstring r data index.toNat eof = .ok r') ↔
        r.output.inputEnded = true ∨ data = []
      cases hend : r.output.inputEnded with
      | true =>
          refine ⟨fun _ => Or.inl rfl, fun _ => ⟨r, ?_⟩⟩
          unfold Checked.pushSubstring
          rw [if_pos hend]
          rfl
      | false =>
          rw [Checked.pushSubstring_of_open hend]
          by_cases hd : data = []
          · rw [if_pos (by rw [hd]; rfl)]
            exact ⟨fun _ => Or.inr hd, fun _ => ⟨_, rfl⟩⟩
          · obtain ⟨hex, hstrs, -⟩ := withEof_frame r (add64 index.toNat data.length) eof
            rw [if_neg (fun hlen => hd (List.eq_nil_of_length_eq_zero hlen)), Checked.store_eq,
              hex, hstrs, h.1, h.2, if_neg (by simp)]
            refine ⟨fun ⟨_, hr'⟩ => (by cases hr'), ?_⟩
            rintro (hbad | hbad)
            · cases hbad
            · exact absurd hbad hd
  | read len => exact Iff.rfl
  | pop len => exact Iff.rfl

/-- **Every access is to a live element** along a whole run exactly if no push brings data
before the output has ended; and where a run has passed over its faults, its next push has none
exactly if it is sheltered. -/
theorem accesses_live_iff (capacity : UInt64) (ops : List ReassemblerOp) :
    (Admits step Live (new capacity) ops ↔ Admits step Idle (new capacity) ops) ∧
      (Admits step Placed (new capacity) ops → ∀ op, (run step (new capacity) ops).Placed op →
        ((run step (new capacity) ops).Live op ↔ (run step (new capacity) ops).Sheltered op)) := by
  constructor
  · exact admits_iff (I := Fresh) (fun _ _ h hop => h.step hop) (fun _ op h => h.live_iff op)
      ⟨rfl, rfl⟩ ops
  · intro hops op hop
    obtain ⟨done, h⟩ := run_wf_placed hops
    exact h.live_iff hop

/-- A substring behind a stored one. -/
theorem accesses_live_second :
    (run step (new 8) [.push [98] 1 false]).Live (.push [99] 3 true) :=
  ((accesses_live_iff 8 [.push [98] 1 false]).2 (by decide) (.push [99] 3 true) (by decide)).mpr
    (by decide)

/-- The first byte pushed dereferences the past-the-end iterator; and a stored substring of which
the output takes one byte of three is used after it was erased. -/
theorem accesses_not_live :
    Checked.pushSubstring (new 8) [97] 0 false = .error .pastEnd ∧
      Checked.pushSubstring (run step (new 2) [.push [98, 99, 100] 1 false]) [97] 0 false
        = .error .erased :=
  ⟨rfl, rfl⟩

end StreamReassembler

end Sponge
