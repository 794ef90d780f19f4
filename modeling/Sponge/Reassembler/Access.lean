import Sponge.Reassembler.Stall

set_option autoImplicit false

/-! # Accesses to the map of stored substrings

`StreamReassembler` reads a dereferenced past-the-end iterator as finding nothing and lets the
references into an erased element act on a copy. Here are the same functions of
`stream_reassembler.cc` once more with every access checked (`Checked`): the iterator must point
to an element, and the element must still be in the map. A push without a fault is the push of the
model (`pushSubstring_eq`), and up to the flush loop the only access that can fail is the one
through the iterator for a map that is empty (`cutData_eq`). -/

namespace Sponge

open Word Pieces

namespace StreamReassembler

/-- What is wrong with an access to the map. -/
inductive Fault where
  /-- The past-the-end iterator is dereferenced. -/
  | pastEnd
  /-- The element has been erased. -/
  | erased
  deriving DecidableEq, Repr

namespace Checked

/-- Read the element `e` through a reference. -/
def access (m : OrdMap Nat Bytes) (e : Nat × Bytes) : Except Fault (Nat × Bytes) :=
  if e ∈ m.entries then .ok e else .error .erased

/-- Dereference an iterator. -/
def deref (m : OrdMap Nat Bytes) : List (Nat × Bytes) → Except Fault (Nat × Bytes)
  | [] => .error .pastEnd
  | e :: _ => access m e

/-- Change the value of the element `e` through a reference. -/
def assign (m : OrdMap Nat Bytes) (e : Nat × Bytes) (d : Bytes) :
    Except Fault (OrdMap Nat Bytes) := do
  let e ← access m e
  return m.insert e.1 d

/-- The iterator to the last stored substring whose index is at most `idx`. -/
def getFrontItr (r : StreamReassembler) (idx : Nat) : Except Fault (List (Nat × Bytes)) := do
  let m := r.unassembledStrs
  let fIt := m.lowerBound (add64 idx 1)
  let fIt := if fIt.length ≠ m.entries.length then m.prev fIt else fIt
  let e ← deref m fIt
  return if idx < e.1 then [] else fIt

/-- The second half of `cutData`. -/
def cutBack : List (Nat × Bytes) → StreamReassembler → Nat → Bytes →
    Except Fault (StreamReassembler × Option (Nat × Bytes))
  | [], r, idx, data => return (r, some (idx, data))
  | e :: bIt, r, idx, data => do
      let (bIdx, bData) ← deref r.unassembledStrs (e :: bIt)
      if add64 idx data.length ≤ bIdx then return (r, some (idx, data))
      else if add64 idx data.length ≤ add64 bIdx bData.length then
        if idx = bIdx then
          let m ← assign r.unassembledStrs (bIdx, bData) (strReplace bData 0 data.length data)
          return ({ r with unassembledStrs := m }, none)
        else
          let n := sub64 (add64 idx data.length) bIdx
          let m ← assign r.unassembledStrs (bIdx, bData)
            (strReplace bData 0 n ((data.drop (bIdx - idx)).take n))
          return ({ r with unassembledStrs := m }, some (idx, data.take (bIdx - idx)))
      else
        cutBack bIt
          { r with
            unassembledSize := sub64 r.unassembledSize bData.length
            unassembledStrs := r.unassembledStrs.erase bIdx } idx data

def cutData (r : StreamReassembler) (idx : Nat) (data : Bytes) :
    Except Fault (StreamReassembler × Option (Nat × Bytes)) :=
  if idx < r.exIdx then
    if add64 idx data.length ≤ r.exIdx then return (r, none)
    else cutBack (r.getBackItr r.exIdx) r r.exIdx (data.drop (r.exIdx - idx))
  else do
    let fIt ← getFrontItr r idx
    if fIt = [] then cutBack (r.getBackItr idx) r idx data
    else
      let (fIdx, fData) ← deref r.unassembledStrs fIt
      let fTailIdxNext := add64 fIdx fData.length
      if idx < fTailIdxNext then
        if add64 idx data.length ≤ fTailIdxNext then
          let m ← assign r.unassembledStrs (fIdx, fData)
            (strReplace fData (idx - fIdx) data.length data)
          return ({ r with unassembledStrs := m }, none)
        else
          let n := fTailIdxNext - idx
          let m ← assign r.unassembledStrs (fIdx, fData)
            (strReplace fData (idx - fIdx) n (data.take n))
          let r' := { r with unassembledStrs := m }
          cutBack (r'.getBackItr fTailIdxNext) r' fTailIdxNext (data.drop n)
      else cutBack (r.getBackItr idx) r idx data

/-- The flush loop. When the output takes only a part of the substring, the element is erased
first, and then its value is cut and its key and value are read. -/
def flush : List (Nat × Bytes) → StreamReassembler → Except Fault StreamReassembler
  | [], r => return r
  | e :: it, r => do
      let (currIdx, currData) ← deref r.unassembledStrs (e :: it)
      if r.exIdx < currIdx then return r
      else
        let pushed := (r.output.write currData).2
        let exIdx := r.exIdx + pushed
        let output := (r.output.write currData).1
        let r' := { r with
          exIdx := exIdx
          output := if r.eofSignRecv && decide (r.eofIdx ≤ exIdx) then output.endInput else output
          unassembledSize := sub64 r.unassembledSize pushed
          unassembledStrs := r.unassembledStrs.erase currIdx }
        if pushed < currData.length then
          let (currIdx, currData) ← access r'.unassembledStrs (currIdx, currData)
          return { r' with
            unassembledStrs :=
              r'.unassembledStrs.insertNew (currIdx + pushed) (currData.drop pushed) }
        else flush it r'

/-- Compare the first stored substring with the next index, and flush. -/
def tryPush (r : StreamReassembler) : Except Fault StreamReassembler := do
  let e ← deref r.unassembledStrs r.unassembledStrs.entries
  if r.exIdx = e.1 then flush r.unassembledStrs.entries r else return r

def store (r : StreamReassembler) (data : Bytes) (index : Nat) :
    Except Fault StreamReassembler := do
  let (r', left) ← cutData r index data
  match left with
  | none => return r'
  | some (newIdx, dataCopy) => tryPush (r'.tryInsert newIdx dataCopy)

def pushSubstring (r : StreamReassembler) (data : Bytes) (index : Nat) (eof : Bool) :
    Except Fault StreamReassembler :=
  if r.output.inputEnded then return r
  else
    let r := if eof then r.recordEof (add64 index data.length) else r
    if data.length = 0 then return r else store r data index

/-! ## Which accesses can fail -/

section

variable {r : StreamReassembler} {m : OrdMap Nat Bytes} {e : Nat × Bytes}

theorem access_of_mem (h : e ∈ m) : access m e = .ok e := if_pos h

theorem access_erase (m : OrdMap Nat Bytes) (e : Nat × Bytes) :
    access (m.erase e.1) e = .error .erased :=
  if_neg (fun h => (OrdMap.mem_erase.mp h).2 rfl)

theorem deref_of_mem {it : List (Nat × Bytes)} (h : e ∈ m) : deref m (e :: it) = .ok e :=
  access_of_mem h

theorem assign_of_mem (h : e ∈ m) (d : Bytes) : assign m e d = .ok (m.insert e.1 d) := by
  unfold assign
  rw [access_of_mem h]
  rfl

/-- On an empty map the iterator is the past-the-end one. -/
theorem getFrontItr_of_empty (idx : Nat) (h : r.unassembledStrs.entries = []) :
    getFrontItr r idx = .error .pastEnd := by
  have hfind : getFrontItr r idx = deref r.unassembledStrs [] >>= fun e =>
      (pure (if idx < e.1 then [] else []) : Except Fault _) := by
    unfold getFrontItr OrdMap.lowerBound OrdMap.prev
    simp only [h, List.dropWhile_nil, List.drop_nil, ite_self]
  rw [hfind]
  rfl

/-- On any other map the access goes to an element, and the iterator points to what the model
finds. -/
theorem getFrontItr_of_ne (idx : Nat) (h : r.unassembledStrs.entries ≠ []) :
    ∃ it, getFrontItr r idx = .ok it ∧ it.head? = r.getFrontItr idx ∧
      ∀ e ∈ it.head?, e ∈ r.unassembledStrs := by
  have hresult : ∀ (f : Nat × Bytes) (it : List (Nat × Bytes)), f ∈ r.unassembledStrs →
      (deref r.unassembledStrs (f :: it) >>= fun e =>
        (pure (if idx < e.1 then [] else f :: it) : Except Fault _))
        = .ok (if idx < f.1 then [] else f :: it) := by
    intro f it hf
    rw [deref_of_mem hf]
    rfl
  have hhead : ∀ (f : Nat × Bytes) (it : List (Nat × Bytes)),
      (if idx < f.1 then [] else f :: it).head? = if idx < f.1 then none else some f := by
    intro f it
    split_ifs <;> rfl
  have hmem : ∀ (f : Nat × Bytes), f ∈ r.unassembledStrs →
      ∀ e ∈ (if idx < f.1 then none else some f : Option (Nat × Bytes)),
        e ∈ r.unassembledStrs := by
    intro f hf e he
    split_ifs at he
    · cases he
    · cases he
      exact hf
  unfold getFrontItr StreamReassembler.getFrontItr
  simp only
  cases hb : r.unassembledStrs.before (add64 idx 1) with
  | some f =>
      -- the iterator is stepped back
      obtain ⟨hne, hprev⟩ := OrdMap.prev_lowerBound hb
      have hf := (OrdMap.before_eq_some hb).1
      rw [if_pos hne, hprev]
      refine ⟨_, hresult f _ hf, hhead f _, ?_⟩
      rw [hhead]
      exact hmem f hf
  | none =>
      obtain ⟨f, it, hentries⟩ := List.exists_cons_of_ne_nil h
      have hf : f ∈ r.unassembledStrs := by
        rw [OrdMap.mem_def, hentries]
        exact List.mem_cons_self
      rw [OrdMap.lowerBound_eq_entries hb, if_neg (by simp), hentries]
      refine ⟨_, hresult f it hf, hhead f it, ?_⟩
      rw [hhead]
      exact hmem f hf

/-- The walk behind the data stays inside the map. -/
theorem cutBack_eq (l : List (Nat × Bytes)) (r : StreamReassembler) (idx : Nat) (data : Bytes)
    (hl : ∀ e ∈ l, e ∈ r.unassembledStrs) (hsort : l.Pairwise (fun a b => a.1 < b.1)) :
    cutBack l r idx data = .ok (StreamReassembler.cutBack l r idx data) := by
  induction l generalizing r with
  | nil => rfl
  | cons a l ih =>
      obtain ⟨bIdx, bData⟩ := a
      obtain ⟨hal, hsort'⟩ := List.pairwise_cons.mp hsort
      have hm := hl (bIdx, bData) List.mem_cons_self
      unfold cutBack StreamReassembler.cutBack
      rw [deref_of_mem hm]
      show (if add64 idx data.length ≤ bIdx then _ else _) = _
      split_ifs
      · rfl
      · rw [assign_of_mem hm]
        rfl
      · simp only
        rw [assign_of_mem hm]
        rfl
      · refine ih _ (fun e he => ?_) hsort'
        exact OrdMap.mem_erase.mpr ⟨hl e (List.mem_cons_of_mem _ he), (hal e he).ne'⟩

theorem cutBack_getBackItr_eq (r : StreamReassembler) (rest idx : Nat) (data : Bytes) :
    cutBack (r.getBackItr rest) r idx data
      = .ok (StreamReassembler.cutBack (r.getBackItr rest) r idx data) :=
  cutBack_eq _ r idx data (fun _ he => (mem_of_mem_getBackItr he).1) (getBackItr_sorted r rest)

/-- The cut fails exactly where the iterator in front is looked for in an empty map. -/
theorem cutData_eq (r : StreamReassembler) (idx : Nat) (data : Bytes) :
    cutData r idx data =
      if idx < r.exIdx ∨ r.unassembledStrs.entries ≠ [] then .ok (r.cutData idx data)
      else .error .pastEnd := by
  unfold cutData StreamReassembler.cutData
  by_cases hold : idx < r.exIdx
  · rw [if_pos hold, if_pos hold, if_pos (Or.inl hold)]
    split_ifs
    · rfl
    · exact cutBack_getBackItr_eq r _ _ _
  · rw [if_neg hold, if_neg hold]
    by_cases hempty : r.unassembledStrs.entries = []
    · rw [getFrontItr_of_empty idx hempty, if_neg (by simp [hold, hempty])]
      rfl
    · rw [if_pos (Or.inr hempty)]
      obtain ⟨it, hit, hhead, hmem⟩ := getFrontItr_of_ne idx hempty
      rw [hit]
      show (if it = [] then _ else _) = _
      cases it with
      | nil =>
          rw [if_pos rfl, ← hhead]
          exact cutBack_getBackItr_eq r _ _ _
      | cons f it =>
          obtain ⟨fIdx, fData⟩ := f
          have hm : (fIdx, fData) ∈ r.unassembledStrs := hmem _ rfl
          rw [if_neg (List.cons_ne_nil _ _), ← hhead, deref_of_mem hm]
          show (if idx < add64 fIdx fData.length then _ else _)
            = Except.ok (if idx < add64 fIdx fData.length then _ else _)
          split_ifs
          · rw [assign_of_mem hm]
            rfl
          · simp only
            rw [assign_of_mem hm]
            exact cutBack_getBackItr_eq _ _ _ _
          · exact cutBack_getBackItr_eq r _ _ _

/-! ## A push without a fault -/

/-- One round of the flush loop on the first element of the map. -/
theorem flush_cons {currIdx : Nat} {currData : Bytes} {it : List (Nat × Bytes)}
    (hm : (currIdx, currData) ∈ r.unassembledStrs) (hgap : ¬ r.exIdx < currIdx) :
    flush ((currIdx, currData) :: it) r =
      if (r.output.write currData).2 < currData.length then .error .erased
      else flush it { r with
        exIdx := r.exIdx + (r.output.write currData).2
        output :=
          if r.eofSignRecv && decide (r.eofIdx ≤ r.exIdx + (r.output.write currData).2) then
            (r.output.write currData).1.endInput
          else (r.output.write currData).1
        unassembledSize := sub64 r.unassembledSize (r.output.write currData).2
        unassembledStrs := r.unassembledStrs.erase currIdx } := by
  rw [flush, deref_of_mem hm]
  show (if r.exIdx < currIdx then _ else _) = _
  rw [if_neg hgap]
  simp only
  by_cases hpart : (r.output.write currData).2 < currData.length
  · rw [if_pos hpart, if_pos hpart, access_erase _ (currIdx, currData)]
    rfl
  · rw [if_neg hpart, if_neg hpart]

theorem flush_of_gap {currIdx : Nat} {currData : Bytes} {it : List (Nat × Bytes)}
    (hm : (currIdx, currData) ∈ r.unassembledStrs) (hgap : r.exIdx < currIdx) :
    flush ((currIdx, currData) :: it) r = .ok r := by
  rw [flush, deref_of_mem hm]
  show (if r.exIdx < currIdx then _ else _) = _
  rw [if_pos hgap]
  rfl

theorem flush_eq (l : List (Nat × Bytes)) (r : StreamReassembler) {r' : StreamReassembler}
    (hl : r.unassembledStrs.entries = l) (h : flush l r = .ok r') :
    r' = StreamReassembler.flush l r := by
  induction l generalizing r with
  | nil =>
      cases h
      rfl
  | cons a it ih =>
      obtain ⟨currIdx, currData⟩ := a
      have hm : (currIdx, currData) ∈ r.unassembledStrs := by
        rw [OrdMap.mem_def, hl]
        exact List.mem_cons_self
      unfold StreamReassembler.flush
      by_cases hgap : r.exIdx < currIdx
      · rw [flush_of_gap hm hgap] at h
        cases h
        rw [if_pos hgap]
      · rw [flush_cons hm hgap] at h
        rw [if_neg hgap]
        by_cases hpart : (r.output.write currData).2 < currData.length
        · rw [if_pos hpart] at h
          cases h
        · rw [if_neg hpart] at h
          simp only [if_neg hpart]
          exact ih _ (OrdMap.erase_head hl) h

theorem tryPush_eq {r r' : StreamReassembler} (h : tryPush r = .ok r') : r' = r.tryPush := by
  unfold tryPush at h
  unfold StreamReassembler.tryPush
  cases hentries : r.unassembledStrs.entries with
  | nil =>
      rw [hentries] at h
      cases h
  | cons e l =>
      have hm : e ∈ r.unassembledStrs := by
        rw [OrdMap.mem_def, hentries]
        exact List.mem_cons_self
      rw [hentries, deref_of_mem hm] at h
      change (if r.exIdx = e.1 then _ else _) = _ at h
      simp only
      split_ifs at h ⊢
      · exact flush_eq _ r hentries h
      · cases h
        rfl

/-- Cutting and storing, apart from the one access that can fail in front of the flush loop. -/
theorem store_eq (r : StreamReassembler) (data : Bytes) (index : Nat) :
    store r data index =
      if index < r.exIdx ∨ r.unassembledStrs.entries ≠ [] then
        (r.cutData index data).2.elim (.ok (r.cutData index data).1)
          (fun left => tryPush ((r.cutData index data).1.tryInsert left.1 left.2))
      else .error .pastEnd := by
  unfold store
  rw [cutData_eq]
  split_ifs
  · rcases r.cutData index data with ⟨r₁, _ | ⟨newIdx, dataCopy⟩⟩ <;> rfl
  · rfl

theorem pushSubstring_of_open {data : Bytes} {index : Nat} {eof : Bool}
    (hend : r.output.inputEnded = false) :
    pushSubstring r data index eof =
      if data.length = 0 then .ok (r.withEof (add64 index data.length) eof)
      else store (r.withEof (add64 index data.length) eof) data index := by
  unfold pushSubstring
  rw [if_neg (by simp [hend])]
  rfl

/-- A push in which every access is to a live element is the push of the model. -/
theorem pushSubstring_eq {r r' : StreamReassembler} {data : Bytes} {index : Nat} {eof : Bool}
    (h : pushSubstring r data index eof = .ok r') : r' = r.pushSubstring data index eof := by
  by_cases hend : r.output.inputEnded = true
  · unfold pushSubstring at h
    rw [if_pos hend] at h
    cases h
    exact (pushSubstring_of_ended data index eof hend).symm
  · rw [pushSubstring_of_open (by simpa using hend)] at h
    rw [StreamReassembler.pushSubstring_of_open data index eof hend]
    by_cases hempty : data.length = 0
    · rw [if_pos hempty] at h ⊢
      cases h
      rfl
    · rw [if_neg hempty] at h ⊢
      rw [store_eq] at h
      unfold StreamReassembler.store
      split_ifs at h
      rcases hcut : (r.withEof (add64 index data.length) eof).cutData index data with
        ⟨r₁, _ | ⟨newIdx, dataCopy⟩⟩
      · rw [hcut] at h
        cases h
        rfl
      · rw [hcut] at h
        exact tryPush_eq h

end

end Checked

end StreamReassembler

end Sponge
