import Sponge.Basic.Run
import Sponge.Reassembler.Advance

set_option autoImplicit false

/-! # The memory bound

The window of a reassembler ends at `edge`, the bytes read so far plus the capacity. A push
compares only the start of what is left of its data with that edge, so data that crosses it is
stored as a whole. `Fits` says when a push stores nothing behind the edge, and as long as
every push fits, the stored and the buffered bytes together stay within the capacity
(`memory_bounded`). -/

namespace Sponge

open Word Pieces Run

/-- What can happen to a reassembler: a substring is pushed, or its output is read. -/
inductive ReassemblerOp where
  | push (data : Bytes) (index : UInt64) (eof : Bool)
  | read (len : UInt64)
  | pop (len : UInt64)

namespace StreamReassembler

def step (r : StreamReassembler) : ReassemblerOp → StreamReassembler
  | .push data index eof => r.pushSubstring data index.toNat eof
  | .read len => (r.readOutput len.toNat).2
  | .pop len => r.popOutput len.toNat

/-- The first index that the capacity has no room for. -/
def edge (r : StreamReassembler) : Nat := r.output.bytesRead + r.capacity

/-- Where the part of the data that is neither assembled nor stored in the substring in front
begins. -/
def restIdx (r : StreamReassembler) (index : Nat) : Nat :=
  if index < r.exIdx then r.exIdx
  else
    match r.getFrontItr index with
    | none => index
    | some (fIdx, fData) => max index (fIdx + fData.length)

/-- A push stores nothing behind the edge: it has no effect, or it starts behind the edge, or
it ends in front of it, or it crosses the edge and the bytes in front of the edge are there
already. -/
def Fits (r : StreamReassembler) : ReassemblerOp → Prop
  | .push data index _ =>
      r.output.inputEnded = true ∨ data = [] ∨ r.edge ≤ index.toNat ∨
        (index.toNat + data.length < 2 ^ 64 ∧
          (index.toNat + data.length ≤ r.edge ∨
            r.firstUnacceptableIdx ≤ r.restIdx index.toNat))
  | .read _ => True
  | .pop _ => True

instance decidableFits (r : StreamReassembler) : ∀ op, Decidable (r.Fits op)
  | .push _ _ _ => inferInstanceAs (Decidable (_ ∨ _ ∨ _ ∨ _))
  | .read _ => inferInstanceAs (Decidable True)
  | .pop _ => inferInstanceAs (Decidable True)

/-- Every stored substring ends by `B`. -/
def EndsBy (B : Nat) (r : StreamReassembler) : Prop :=
  ∀ e ∈ r.unassembledStrs, e.1 + e.2.length ≤ B

section

variable {r r' : StreamReassembler} {done data : Bytes} {B idx : Nat}

/-- It is enough to look at the bytes that are held. -/
theorem endsBy_of_holds (hne : ∀ e ∈ r.unassembledStrs, e.2 ≠ [])
    (h : ∀ i b, Holds r.unassembledStrs i b → i < B) : r.EndsBy B := by
  intro e he
  have hpos := List.length_pos_iff.mpr (hne e he)
  have hlast := h (e.1 + (e.2.length - 1)) (e.2.get ⟨e.2.length - 1, by omega⟩)
    ⟨e.1, e.2, he, by omega, by rw [Nat.add_sub_cancel_left]; exact List.getElem?_eq_getElem _⟩
  omega

theorem EndsBy.lt_of_holds (h : r.EndsBy B) {i : Nat} {b : UInt8}
    (hb : Holds r.unassembledStrs i b) : i < B := by
  obtain ⟨k, d, hm, hcov⟩ := hb.covers
  have := h _ hm
  unfold Covers at hcov
  simp only at this
  omega

theorem Flushes.endsBy {w : Bytes} (hf : Flushes r r' done w) (h : r.EndsBy B) : r'.EndsBy B :=
  endsBy_of_holds hf.wf.stored.nonempty (fun i b hb => h.lt_of_holds ((hf.held i b).mp hb).1)

/-- Data that ends by `B` keeps the stored substrings there. -/
theorem Absorbs.endsBy {w : Bytes} {index : Nat} (ha : Absorbs r done data index r' w)
    (hwf : r.Wf done) (h : r.EndsBy B) (hdata : index + data.length ≤ B) : r'.EndsBy B := by
  apply endsBy_of_holds ha.wf.stored.nonempty
  intro i b hb
  have hi := ha.wf.stored.le_of_holds hb
  have hex : r.exIdx ≤ r'.exIdx := by
    rw [hwf.exIdx_eq, ha.wf.exIdx_eq, List.length_append]
    omega
  have hover := ha.sound i b (by omega) (Or.inr hb)
  by_cases hcov : Covers index data i
  · unfold Covers at hcov
    omega
  · exact h.lt_of_holds ((over_of_not_covers hcov).mp hover)

/-! ## Data that crosses the edge -/

/-- The substrings of `r'` are those of `r`, some of them overwritten. -/
def SameEnds (r r' : StreamReassembler) : Prop :=
  ∀ e ∈ r'.unassembledStrs, ∃ e' ∈ r.unassembledStrs, e'.1 = e.1 ∧ e'.2.length = e.2.length

theorem SameEnds.refl (r : StreamReassembler) : SameEnds r r := fun e he => ⟨e, he, rfl, rfl⟩

theorem SameEnds.trans {r'' : StreamReassembler} (h : SameEnds r r') (h' : SameEnds r' r'') :
    SameEnds r r'' := by
  intro e he
  obtain ⟨e', he', hk', hl'⟩ := h' e he
  obtain ⟨e'', he'', hk'', hl''⟩ := h e' he'
  exact ⟨e'', he'', hk''.trans hk', hl''.trans hl'⟩

theorem SameEnds.endsBy (h : SameEnds r r') (hB : r.EndsBy B) : r'.EndsBy B := by
  intro e he
  obtain ⟨e', he', hk, hl⟩ := h e he
  have := hB e' he'
  omega

/-- Overwriting a part of a substring. -/
theorem sameEnds_insert {k : Nat} {d d' : Bytes} (hm : (k, d) ∈ r.unassembledStrs)
    (hlen : d'.length = d.length) (hr' : r'.unassembledStrs = r.unassembledStrs.insert k d') :
    SameEnds r r' := by
  intro e he
  rw [hr'] at he
  rcases OrdMap.mem_insert.mp he with rfl | ⟨he, -⟩
  · exact ⟨(k, d), hm, rfl, hlen.symm⟩
  · exact ⟨e, he, rfl, rfl⟩

theorem strReplace_length {s d : Bytes} {pos n : Nat} (hn : n = d.length)
    (hfit : pos + n ≤ s.length) : (strReplace s pos n d).length = s.length := by
  rw [strReplace_eq_overwrite hn]
  exact overwrite_length (by omega)

/-- The walk over the substrings behind the data keeps the index of the data. -/
theorem cutBack_sameEnds (l : List (Nat × Bytes)) (r : StreamReassembler) (idx : Nat)
    (data : Bytes) (hr : Stored r.unassembledStrs r.unassembledSize r.exIdx)
    (hlt : idx + data.length < 2 ^ 64) (hl : ∀ e ∈ l, e ∈ r.unassembledStrs ∧ idx ≤ e.1)
    (hsort : l.Pairwise (fun a b => a.1 < b.1)) :
    SameEnds r (cutBack l r idx data).1 ∧
      ∀ i d, (cutBack l r idx data).2 = some (i, d) → i = idx := by
  induction l generalizing r with
  | nil => exact ⟨SameEnds.refl r, fun i d h => by cases h; rfl⟩
  | cons a l ih =>
      obtain ⟨bIdx, bData⟩ := a
      obtain ⟨hal, hsort'⟩ := List.pairwise_cons.mp hsort
      obtain ⟨hm, hge⟩ := hl (bIdx, bData) (by simp)
      have hb := hr.bounded _ hm
      simp only at hal hge hb
      unfold cutBack
      rw [add64_eq hlt, add64_eq hb]
      split_ifs with hno hlast hstart
      · exact ⟨SameEnds.refl r, fun i d h => by cases h; rfl⟩
      · refine ⟨sameEnds_insert hm (strReplace_length rfl (by omega)) rfl, ?_⟩
        intro i d h
        cases h
      · have hn : sub64 (idx + data.length) bIdx = idx + data.length - bIdx :=
          sub64_eq (by omega) (by omega)
        refine ⟨sameEnds_insert hm (strReplace_length ?_ (by omega)) rfl, fun i d h => ?_⟩
        · rw [hn, List.length_take, List.length_drop]
          omega
        · cases h
          rfl
      · -- the substring is removed, and the walk goes on behind it
        set r₁ : StreamReassembler := { r with
          unassembledSize := sub64 r.unassembledSize bData.length
          unassembledStrs := r.unassembledStrs.erase bIdx }
        have hl₁ : ∀ e ∈ l, e ∈ r₁.unassembledStrs ∧ idx ≤ e.1 := by
          intro e he
          obtain ⟨hmem, hidx⟩ := hl e (List.mem_cons_of_mem _ he)
          exact ⟨OrdMap.mem_erase.mpr ⟨hmem, (hal e he).ne'⟩, hidx⟩
        obtain ⟨hends, hkeep⟩ := ih r₁ (hr.erase hm) hl₁ hsort'
        refine ⟨SameEnds.trans (fun e he => ?_) hends, hkeep⟩
        exact ⟨e, (OrdMap.mem_erase.mp he).1, rfl, rfl⟩

theorem mem_of_mem_getBackItr {e : Nat × Bytes} (he : e ∈ r.getBackItr idx) :
    e ∈ r.unassembledStrs ∧ idx ≤ e.1 := by
  unfold getBackItr at he
  split_ifs at he with hz
  · obtain ⟨hm, hlt⟩ := OrdMap.mem_upperBound.mp he
    exact ⟨hm, by omega⟩
  · obtain ⟨hm, hlt⟩ := OrdMap.mem_upperBound.mp he
    exact ⟨hm, by omega⟩

/-- A stored substring is overwritten in place, or nothing happens. -/
def Overwrites (r r' : StreamReassembler) : Prop :=
  r' = r ∨ ∃ k d d', (k, d) ∈ r.unassembledStrs ∧ d'.length = d.length ∧
    r' = { r with unassembledStrs := r.unassembledStrs.insert k d' }

theorem Overwrites.sameEnds (h : Overwrites r r') : SameEnds r r' := by
  rcases h with rfl | ⟨k, d, d', hm, hlen, rfl⟩
  · exact SameEnds.refl r'
  · exact sameEnds_insert hm hlen rfl

theorem Overwrites.stored (h : Overwrites r r')
    (hr : Stored r.unassembledStrs r.unassembledSize r.exIdx) :
    Stored r'.unassembledStrs r'.unassembledSize r'.exIdx := by
  rcases h with rfl | ⟨k, d, d', hm, hlen, rfl⟩
  · exact hr
  · exact hr.overwrite hm hlen

/-- The two things that a cut can do, after the data was written over the substring in front of
its rest: the data has no rest, or the walk starts with it. -/
theorem cutData_cases (hr : Stored r.unassembledStrs r.unassembledSize r.exIdx)
    (hd : data ≠ []) (hlt : idx + data.length < 2 ^ 64) :
    ∃ r', Overwrites r r' ∧
      ((idx + data.length ≤ r.restIdx idx ∧ r.cutData idx data = (r', none)) ∨
        (idx ≤ r.restIdx idx ∧ r.restIdx idx < idx + data.length ∧
          (r.restIdx idx = 0 → ∀ e ∈ r'.unassembledStrs, e.1 ≠ 0) ∧
          r.cutData idx data = cutBack (r'.getBackItr (r.restIdx idx)) r' (r.restIdx idx)
            (data.drop (r.restIdx idx - idx)))) := by
  have hpos := List.length_pos_iff.mpr hd
  unfold cutData restIdx
  rw [add64_eq hlt]
  by_cases hold : idx < r.exIdx
  · rw [if_pos hold, if_pos hold]
    refine ⟨r, Or.inl rfl, ?_⟩
    split_ifs with hdone
    · exact Or.inl ⟨hdone, rfl⟩
    · exact Or.inr ⟨hold.le, by omega, fun h => by omega, rfl⟩
  · rw [if_neg hold, if_neg hold]
    cases hf : r.getFrontItr idx with
    | none =>
        simp only
        refine ⟨r, Or.inl rfl, Or.inr ⟨le_rfl, by omega, fun h e he => ?_, ?_⟩⟩
        · have := getFrontItr_eq_none (by omega) hf e he
          omega
        · rw [Nat.sub_self, List.drop_zero]
    | some f =>
        obtain ⟨fIdx, fData⟩ := f
        obtain ⟨hm, hle, -⟩ := getFrontItr_eq_some (by omega) hf
        have hb := hr.bounded _ hm
        have hfpos := List.length_pos_iff.mpr (hr.nonempty _ hm)
        simp only at hle hb hfpos ⊢
        rw [add64_eq hb]
        split_ifs with hinside hcontains
        · -- the substring in front takes all of the data
          rw [max_eq_right (by omega)]
          exact ⟨_, Or.inr ⟨fIdx, fData, _, hm, strReplace_length rfl (by omega), rfl⟩,
            Or.inl ⟨hcontains, rfl⟩⟩
        · rw [max_eq_right (by omega)]
          refine ⟨_, Or.inr ⟨fIdx, fData, _, hm, strReplace_length ?_ ?_, rfl⟩,
            Or.inr ⟨by omega, by omega, fun h => by omega, rfl⟩⟩
          · rw [List.length_take]
            omega
          · omega
        · -- the substring in front ends before the data
          rw [max_eq_left (by omega)]
          refine ⟨r, Or.inl rfl, Or.inr ⟨le_rfl, by omega, fun h => by omega, ?_⟩⟩
          rw [Nat.sub_self, List.drop_zero]

/-- What a cut leaves of the data begins at `restIdx`. -/
theorem cutData_sameEnds (hr : Stored r.unassembledStrs r.unassembledSize r.exIdx)
    (hd : data ≠ []) (hlt : idx + data.length < 2 ^ 64) :
    SameEnds r (r.cutData idx data).1 ∧
      ∀ i d, (r.cutData idx data).2 = some (i, d) → i = r.restIdx idx := by
  obtain ⟨r', hr', ⟨-, hcut⟩ | ⟨hle, hrest, -, hcut⟩⟩ := cutData_cases hr hd hlt
  · rw [hcut]
    exact ⟨hr'.sameEnds, fun i d h => by cases h⟩
  · have hlen : r.restIdx idx + (data.drop (r.restIdx idx - idx)).length < 2 ^ 64 := by
      rw [List.length_drop]
      omega
    obtain ⟨hends, hkeep⟩ := cutBack_sameEnds _ r' _ _ (hr'.stored hr) hlen
      (fun e he => mem_of_mem_getBackItr he) (getBackItr_sorted r' _)
    rw [hcut]
    exact ⟨hr'.sameEnds.trans hends, hkeep⟩

/-! ## What a push keeps -/

/-- The stored substrings end in front of the edge. -/
structure Bounded (r : StreamReassembler) : Prop where
  wf : ∃ done, r.Wf done
  endsBy : r.EndsBy r.edge

theorem Wf.exIdx_le_edge (h : r.Wf done) : r.exIdx ≤ r.edge := by
  have h1 := h.out.read_add
  have h2 := h.out.size_le
  have h3 := h.written_eq
  have h4 := h.capacity_eq
  unfold edge ByteStream.bytesRead
  omega

theorem Wf.firstUnacceptableIdx_le (h : r.Wf done) : r.firstUnacceptableIdx ≤ r.edge := by
  have h1 := h.out.read_add
  have h2 := h.out.size_le
  have h3 := h.written_eq
  have h4 := h.capacity_eq
  have h5 := h.out.cap_lt
  unfold firstUnacceptableIdx edge ByteStream.bytesRead ByteStream.bufferSize add64 sub64
  omega

/-- After the flush loop. -/
theorem Bounded.tryPush (h : r.Bounded) : r.tryPush.Bounded ∧ r.tryPush.edge = r.edge := by
  obtain ⟨done, hwf⟩ := h.wf
  obtain ⟨w, hw⟩ := tryPush_spec hwf
  have hedge : r.tryPush.edge = r.edge := by
    unfold edge ByteStream.bytesRead
    rw [hw.read, hw.capacity]
  exact ⟨⟨⟨_, hw.wf⟩, by rw [hedge]; exact hw.endsBy h.endsBy⟩, hedge⟩

/-- Data that ends in front of the edge. -/
theorem Bounded.store_inside (h : r.Bounded) (hd : data ≠ []) (hlt : idx + data.length < 2 ^ 64)
    (hin : idx + data.length ≤ r.edge) :
    (r.store data idx).Bounded ∧ (r.store data idx).edge = r.edge := by
  obtain ⟨done, hwf⟩ := h.wf
  obtain ⟨w, hw⟩ := store_spec hwf hd hlt
  have hedge : (r.store data idx).edge = r.edge := by
    unfold edge ByteStream.bytesRead
    rw [hw.read, hw.capacity]
  exact ⟨⟨⟨_, hw.wf⟩, by rw [hedge]; exact hw.endsBy hwf h.endsBy hin⟩, hedge⟩

/-- Data of which nothing new lies in front of the edge. -/
theorem Bounded.store_rest (h : r.Bounded) (hd : data ≠ []) (hlt : idx + data.length < 2 ^ 64)
    (hrest : r.firstUnacceptableIdx ≤ r.restIdx idx) :
    (r.store data idx).Bounded ∧ (r.store data idx).edge = r.edge := by
  obtain ⟨done, hwf⟩ := h.wf
  have hcut := cutData_spec idx hwf.stored hd hlt
  obtain ⟨hends, hkeep⟩ := cutData_sameEnds hwf.stored hd hlt
  unfold store
  rcases hres : r.cutData idx data with ⟨r₁, left⟩
  rw [hres] at hcut hends hkeep
  have hframe := hcut.frame
  simp only at hframe hends
  have hout : r₁.output = r.output := by rw [hframe]
  have hcap : r₁.capacity = r.capacity := by rw [hframe]
  have hex : r₁.exIdx = r.exIdx := by rw [hframe]
  have hedge : r₁.edge = r.edge := by
    unfold edge
    rw [hout, hcap]
  have hbounded : r₁.Bounded := by
    refine ⟨⟨done, by rw [hout]; exact hwf.out, by rw [hex]; exact hwf.exIdx_eq,
      by rw [hout, hcap]; exact hwf.capacity_eq, by rw [hex]; exact hcut.stored⟩, ?_⟩
    rw [hedge]
    exact hends.endsBy h.endsBy
  cases left with
  | none => exact ⟨hbounded, hedge⟩
  | some e =>
      obtain ⟨newIdx, dataCopy⟩ := e
      have hnew : newIdx = r.restIdx idx := hkeep newIdx dataCopy rfl
      -- what is left begins behind the edge and is not stored
      have hskip : r₁.tryInsert newIdx dataCopy = r₁ := by
        unfold tryInsert firstUnacceptableIdx
        rw [hex, hout, hcap]
        exact if_neg (by unfold firstUnacceptableIdx at hrest; omega)
      simp only [hskip]
      rw [← hedge]
      exact hbounded.tryPush

/-- The substring that `getFrontItr` finds is a stored one. -/
theorem mem_of_getFrontItr {f : Nat × Bytes} (hf : r.getFrontItr idx = some f) :
    f ∈ r.unassembledStrs := by
  unfold getFrontItr at hf
  cases hb : r.unassembledStrs.before (add64 idx 1) with
  | some g =>
      simp only [hb] at hf
      split_ifs at hf
      cases hf
      exact (OrdMap.before_eq_some hb).1
  | none =>
      simp only [hb] at hf
      cases hh : r.unassembledStrs.entries.head? with
      | none =>
          rw [hh] at hf
          cases hf
      | some g =>
          rw [hh] at hf
          simp only at hf
          split_ifs at hf
          cases hf
          exact List.mem_of_mem_head? hh

/-- Data behind every stored substring is not cut, wherever it ends. -/
theorem cutData_behind (data : Bytes) (hidx : idx < 2 ^ 64) (hex : r.exIdx ≤ idx)
    (hends : ∀ e ∈ r.unassembledStrs, e.1 < idx ∧ e.1 + e.2.length ≤ idx) :
    r.cutData idx data = (r, some (idx, data)) := by
  have hnil : r.getBackItr idx = [] := by
    apply List.eq_nil_iff_forall_not_mem.mpr
    intro e he
    obtain ⟨hm, hle⟩ := mem_of_mem_getBackItr he
    have := (hends e hm).1
    omega
  unfold cutData
  rw [if_neg (by omega), hnil]
  cases hf : r.getFrontItr idx with
  | none => rfl
  | some f =>
      obtain ⟨fIdx, fData⟩ := f
      have hend := (hends _ (mem_of_getFrontItr hf)).2
      simp only at hend ⊢
      rw [add64_eq (by omega), if_neg (by omega)]
      rfl

theorem restIdx_behind (hex : r.exIdx ≤ idx)
    (hends : ∀ e ∈ r.unassembledStrs, e.1 + e.2.length ≤ idx) : r.restIdx idx = idx := by
  unfold restIdx
  rw [if_neg (Nat.not_lt.mpr hex)]
  cases hf : r.getFrontItr idx with
  | none => rfl
  | some f => exact max_eq_left (hends f (mem_of_getFrontItr hf))

/-- Data that starts behind the edge is not stored. -/
theorem Bounded.store_behind (h : r.Bounded) (hlt : idx < 2 ^ 64) (hidx : r.edge ≤ idx) :
    (r.store data idx).Bounded ∧ (r.store data idx).edge = r.edge := by
  obtain ⟨done, hwf⟩ := h.wf
  have hex := hwf.exIdx_le_edge
  have hfu := hwf.firstUnacceptableIdx_le
  have hcut : r.cutData idx data = (r, some (idx, data)) := by
    apply cutData_behind data hlt (hex.trans hidx)
    intro e he
    have hpos := List.length_pos_iff.mpr (hwf.stored.nonempty e he)
    have hend := h.endsBy e he
    omega
  unfold store
  rw [hcut]
  have hskip : r.tryInsert idx data = r := if_neg (by omega)
  simp only [hskip]
  exact h.tryPush

/-! ### Recording the end of the stream moves nothing -/

theorem restIdx_withEof (r : StreamReassembler) (e : Nat) (eof : Bool) (idx : Nat) :
    (r.withEof e eof).restIdx idx = r.restIdx idx := by
  obtain ⟨hex, hstrs, -⟩ := withEof_frame r e eof
  unfold restIdx getFrontItr
  rw [hex, hstrs]

theorem remainingCapacity_withEof (r : StreamReassembler) (e : Nat) (eof : Bool) :
    (r.withEof e eof).output.remainingCapacity = r.output.remainingCapacity := by
  unfold withEof recordEof
  split_ifs <;> rfl

theorem Bounded.withEof (h : r.Bounded) (e : Nat) (eof : Bool) :
    (r.withEof e eof).Bounded ∧ (r.withEof e eof).edge = r.edge := by
  obtain ⟨done, hwf⟩ := h.wf
  obtain ⟨-, hstrs, hcap, -, hread, -⟩ := withEof_frame r e eof
  have hedge : (r.withEof e eof).edge = r.edge := by
    unfold edge ByteStream.bytesRead
    rw [hread, hcap]
  refine ⟨⟨⟨done, hwf.withEof e eof⟩, ?_⟩, hedge⟩
  rw [hedge]
  unfold EndsBy
  rw [hstrs]
  exact h.endsBy

theorem Bounded.pushSubstring (h : r.Bounded) {index : UInt64} (eof : Bool)
    (hfits : r.Fits (.push data index eof)) : (r.pushSubstring data index.toNat eof).Bounded := by
  by_cases hend : r.output.isInputEnd = true
  · rw [pushSubstring_of_ended data index.toNat eof hend]
    exact h
  · obtain ⟨h₀, hedge⟩ := h.withEof (add64 index.toNat data.length) eof
    have hfu := firstUnacceptableIdx_withEof r (add64 index.toNat data.length) eof
    have hrest := restIdx_withEof r (add64 index.toNat data.length) eof index.toNat
    rw [pushSubstring_of_open data index.toNat eof hend]
    by_cases hd : data = []
    · rw [if_pos (by rw [hd]; rfl)]
      exact h₀
    · rw [if_neg (fun hlen => hd (List.eq_nil_of_length_eq_zero hlen))]
      rcases hfits with hended | hnil | hbehind | ⟨hlt, hin | hcross⟩
      · exact absurd hended hend
      · exact absurd hnil hd
      · exact (h₀.store_behind index.toNat_lt (by omega)).1
      · exact (h₀.store_inside hd hlt (by omega)).1
      · exact (h₀.store_rest hd hlt (by omega)).1

theorem Bounded.popOutput (h : r.Bounded) (len : Nat) : (r.popOutput len).Bounded := by
  obtain ⟨done, hwf⟩ := h.wf
  refine ⟨⟨done, hwf.popOutput len⟩, fun e he => (h.endsBy e he).trans ?_⟩
  -- reading moves the edge on
  show r.output.numBytesRead + r.capacity ≤ (r.output.popOutput len).numBytesRead + r.capacity
  exact Nat.add_le_add_right (Nat.le_add_right _ _) _

theorem Bounded.step (h : r.Bounded) {op : ReassemblerOp} (hop : r.Fits op) :
    (r.step op).Bounded := by
  cases op with
  | push data index eof => exact h.pushSubstring eof hop
  | read len => exact h.popOutput len.toNat
  | pop len => exact h.popOutput len.toNat

/-- Substrings between `exIdx` and the edge have room beside the buffer. -/
theorem Bounded.size_le (h : r.Bounded) :
    r.unassembledBytes + r.output.bufferSize ≤ r.capacity := by
  obtain ⟨done, hwf⟩ := h.wf
  have htotal := hwf.stored.apart.total_le hwf.stored.ahead h.endsBy hwf.exIdx_le_edge
  have h1 := hwf.stored.size_eq
  have h2 := hwf.out.read_add
  have h3 := hwf.written_eq
  unfold edge ByteStream.bytesRead at htotal
  unfold unassembledBytes ByteStream.bufferSize
  omega

theorem bounded_new (capacity : UInt64) : (new capacity).Bounded :=
  ⟨⟨[], wf_new capacity⟩, fun e he => absurd he (OrdMap.not_mem_empty e)⟩

theorem step_capacity (r : StreamReassembler) (op : ReassemblerOp) :
    (r.step op).capacity = r.capacity := by
  cases op with
  | push data index eof => exact (r.pushSubstring_advances data index.toNat eof).capacity
  | read len => rfl
  | pop len => rfl

end

/-- What the reassembler holds stays within the capacity: no byte at or behind the edge of the
window is kept. -/
structure InMemory (capacity : UInt64) (r : StreamReassembler) : Prop where
  size_le : r.unassembledBytes + r.output.bufferSize ≤ capacity.toNat
  kept_lt : ∀ i b, Holds r.unassembledStrs i b → i < r.output.bytesRead + capacity.toNat

/-- **The memory bound** holds after every run of pushes that fit and reads. -/
theorem memory_bounded (capacity : UInt64) (ops : List ReassemblerOp)
    (hops : Admits step Fits (new capacity) ops) :
    (run step (new capacity) ops).InMemory capacity := by
  have hcap : (run step (new capacity) ops).capacity = capacity.toNat :=
    run_invariant' (I := fun r => r.capacity = capacity.toNat)
      (fun r op hr => (step_capacity r op).trans hr) rfl ops
  have hbounded : (run step (new capacity) ops).Bounded :=
    run_invariant (fun _ _ h hop => h.step hop) (bounded_new capacity) hops
  refine ⟨?_, fun i b hb => ?_⟩
  · rw [← hcap]
    exact hbounded.size_le
  · rw [← hcap]
    exact hbounded.endsBy.lt_of_holds hb

/-- Two substrings behind a gap, the second up to the edge of the window. -/
theorem memory_bounded_gap :
    (run step (new 4) [.push [98] 1 false, .push [99, 100] 2 true]).unassembledBytes = 3 ∧
      (run step (new 4) [.push [98] 1 false, .push [99, 100] 2 true]).InMemory 4 :=
  ⟨by decide, memory_bounded 4 _ (by decide)⟩

/-- Three bytes behind a gap of one are all kept by a reassembler for two. -/
theorem crossing_not_inMemory : ¬ (run step (new 2) [.push [98, 99, 100] 1 false]).InMemory 2 := by
  intro h
  exact absurd h.size_le (by decide)

end StreamReassembler

end Sponge
