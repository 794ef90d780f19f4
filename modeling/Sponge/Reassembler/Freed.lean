import Sponge.Reassembler.Live

set_option autoImplicit false

/-! # What an erased element reads

When the output takes only a part of a substring, the flush loop of `stream_reassembler.cc` erases
the element and then uses its key and its value. `StreamReassembler` lets it act on a copy. In
`Freed` the key and the value read whatever is there by then: a parameter `freed`, a function of
the element that was erased. The two agree for every `freed` exactly if the push writes stored
substrings as a whole only (`pushSubstring_eq_iff`). -/

namespace Sponge

open Word Pieces Run

namespace StreamReassembler

namespace Freed

/-- The flush loop. When the output takes only a part of the substring, the element is erased
first, and the references read `freed`. -/
def flush (freed : Nat × Bytes → Nat × Bytes) :
    List (Nat × Bytes) → StreamReassembler → StreamReassembler
  | [], r => r
  | (currIdx, currData) :: it, r =>
      if r.exIdx < currIdx then r
      else
        let pushed := (r.output.write currData).2
        let exIdx := r.exIdx + pushed
        let output := (r.output.write currData).1
        let r' := { r with
          exIdx := exIdx
          output := if r.eofSignRecv && decide (r.eofIdx ≤ exIdx) then output.endInput else output
          unassembledSize := sub64 r.unassembledSize pushed
          unassembledStrs := r.unassembledStrs.erase currIdx }
        if pushed < currData.length then
          let e := freed (currIdx, currData)
          { r' with
            unassembledStrs := r'.unassembledStrs.insertNew (e.1 + pushed) (e.2.drop pushed) }
        else flush freed it r'

def tryPush (freed : Nat × Bytes → Nat × Bytes) (r : StreamReassembler) : StreamReassembler :=
  match r.unassembledStrs.entries with
  | [] => r
  | e :: _ => if r.exIdx = e.1 then flush freed r.unassembledStrs.entries r else r

def store (freed : Nat × Bytes → Nat × Bytes) (r : StreamReassembler) (data : Bytes)
    (index : Nat) : StreamReassembler :=
  match r.cutData index data with
  | (r', none) => r'
  | (r', some (newIdx, dataCopy)) => tryPush freed (r'.tryInsert newIdx dataCopy)

def pushSubstring (freed : Nat × Bytes → Nat × Bytes) (r : StreamReassembler) (data : Bytes)
    (index : Nat) (eof : Bool) : StreamReassembler :=
  if r.output.inputEnded then r
  else
    let r := if eof then r.recordEof (add64 index data.length) else r
    if data.length = 0 then r else store freed r data index

end Freed

/-! ## Pushes that write substrings as a whole -/

/-- The output eats all of every substring that the flush loop comes to: with the data laid over the
stored substrings, the bytes that continue the output fit into it, and none of their substrings is
met after the end. -/
structure EatsAll (r : StreamReassembler) (data : Bytes) (index : Nat) (eof : Bool) : Prop where
  room : ∃ j ≤ r.output.remainingCapacity, ¬ r.Laid data index (r.exIdx + j)
  before_end : ∀ s ∈ r.starts data index, (∀ i < s, r.exIdx ≤ i → r.Laid data index i) →
    ¬ r.EndedAt data index eof s

/-- The push writes stored substrings as a whole only. -/
def Unbroken (r : StreamReassembler) (data : Bytes) (index : Nat) (eof : Bool) : Prop :=
  r.output.inputEnded = true ∨ data = [] ∨ r.Duplicate data index ∨ r.EatsAll data index eof

theorem whole_iff_eatsAll {r : StreamReassembler} {data : Bytes} {index : Nat} {eof : Bool} :
    r.Whole data index eof ↔ r.starts data index ≠ [] ∧ r.EatsAll data index eof :=
  ⟨fun h => ⟨h.some_stored, h.room, h.before_end⟩, fun h => ⟨h.1, h.2.room, h.2.before_end⟩⟩

/-- A number up to `n` is looked for from `j` upwards: the room of the output is large, and the
first gap is near. -/
def decidableExistsFrom (p : Nat → Prop) [DecidablePred p] :
    ∀ n j : Nat, Decidable (∃ i ≤ n, p (j + i))
  | 0, j => decidable_of_iff (p j) (by simp)
  | n + 1, j =>
      have := decidableExistsFrom p n (j + 1)
      decidable_of_iff (p j ∨ ∃ i ≤ n, p (j + 1 + i)) <| by
        constructor
        · rintro (hp | ⟨i, hi, hp⟩)
          · exact ⟨0, Nat.zero_le _, hp⟩
          · exact ⟨i + 1, by omega, by rwa [show j + (i + 1) = j + 1 + i by omega]⟩
        · rintro ⟨_ | i, hi, hp⟩
          · exact Or.inl hp
          · exact Or.inr ⟨i, by omega, by rwa [show j + 1 + i = j + (i + 1) by omega]⟩

instance (r : StreamReassembler) (data : Bytes) (index : Nat) (eof : Bool) :
    Decidable (r.EatsAll data index eof) :=
  have := decidableExistsFrom (fun i => ¬ r.Laid data index i) r.output.remainingCapacity r.exIdx
  decidable_of_iff ((∃ j ≤ r.output.remainingCapacity, ¬ r.Laid data index (r.exIdx + j)) ∧
      ∀ s ∈ r.starts data index, (∀ i < s, r.exIdx ≤ i → r.Laid data index i) →
        ¬ r.EndedAt data index eof s)
    ⟨fun h => ⟨h.1, h.2⟩, fun h => ⟨h.room, h.before_end⟩⟩

instance (r : StreamReassembler) (data : Bytes) (index : Nat) (eof : Bool) :
    Decidable (r.Unbroken data index eof) := inferInstanceAs (Decidable (_ ∨ _))

section

variable {r r₂ : StreamReassembler} {done data : Bytes} {index : Nat} {eof : Bool}

/-! ## The flush loop -/

namespace Freed

/-- Without a fault nothing is read of an erased element. -/
theorem flush_of_live (freed : Nat × Bytes → Nat × Bytes) (l : List (Nat × Bytes))
    (r : StreamReassembler) {r' : StreamReassembler} (hl : r.unassembledStrs.entries = l)
    (h : Checked.flush l r = .ok r') : flush freed l r = StreamReassembler.flush l r := by
  induction l generalizing r with
  | nil => rfl
  | cons a it ih =>
      obtain ⟨currIdx, currData⟩ := a
      have hm : (currIdx, currData) ∈ r.unassembledStrs := by
        simp [OrdMap.mem_def, hl]
      unfold flush StreamReassembler.flush
      by_cases hgap : r.exIdx < currIdx
      · simp only [if_pos hgap]
      · rw [Checked.flush_cons hm hgap] at h
        by_cases hpart : (r.output.write currData).2 < currData.length
        · simp [hpart] at h
        · simp only [if_neg hgap, if_neg hpart] at h ⊢
          exact ih _ (OrdMap.erase_head hl) h

/-- Where the output takes a part, the rest may as well read as empty. -/
theorem flush_ne (l : List (Nat × Bytes)) (r : StreamReassembler) (done : Bytes) (h : r.Wf done)
    (hl : r.unassembledStrs.entries = l) (hdead : ¬ ∃ r', Checked.flush l r = .ok r') :
    flush (fun e => (e.1, [])) l r ≠ StreamReassembler.flush l r := by
  induction l generalizing r done with
  | nil => exact absurd ⟨r, rfl⟩ hdead
  | cons a it ih =>
      obtain ⟨currIdx, currData⟩ := a
      have hm : (currIdx, currData) ∈ r.unassembledStrs := by
        simp [OrdMap.mem_def, hl]
      have hahead : r.exIdx ≤ currIdx := h.stored.ahead _ hm
      by_cases hgap : r.exIdx < currIdx
      · exact absurd ⟨r, Checked.flush_of_gap hm hgap⟩ hdead
      obtain rfl : currIdx = r.exIdx := by omega
      rw [Checked.flush_cons hm hgap] at hdead
      by_cases hpart : (r.output.write currData).2 < currData.length
      · rw [flush, StreamReassembler.flush]
        simp only [if_neg hgap, if_pos hpart]
        intro heq
        have hnew : ∀ e ∈ r.unassembledStrs.erase r.exIdx,
            e.1 ≠ r.exIdx + (r.output.write currData).2 := by
          intro e he
          have hbehind := h.erase_ahead hm e he
          omega
        have hstrs := congrArg StreamReassembler.unassembledStrs heq
        simp only [OrdMap.insertNew_eq hnew, List.drop_nil] at hstrs
        have hmem : (r.exIdx + (r.output.write currData).2, ([] : Bytes)) ∈
            (r.unassembledStrs.erase r.exIdx).insert (r.exIdx + (r.output.write currData).2)
              (currData.drop (r.output.write currData).2) := by
          rw [← hstrs]
          exact OrdMap.mem_insert.mpr (Or.inl rfl)
        rcases OrdMap.mem_insert.mp hmem with hsame | ⟨-, hne⟩
        · have hnil : currData.drop (r.output.write currData).2 = [] :=
            (congrArg Prod.snd hsame).symm
          rw [List.drop_eq_nil_iff] at hnil
          omega
        · exact hne rfl
      · have hfull : (r.output.write currData).2 = currData.length := by
          have hle := h.out.write_count_le currData
          omega
        rw [if_neg hpart] at hdead
        rw [flush, StreamReassembler.flush]
        simp only [if_neg hgap, if_neg hpart]
        exact ih (r.afterWrite currData) (done ++ currData) (h.afterWrite_full hm hfull)
          (OrdMap.erase_head hl) hdead

/-- The flush loop reads nothing of an erased element exactly if it writes substrings as a whole
only. -/
theorem tryPush_eq_iff (h : r.Wf done) :
    (∀ freed, tryPush freed r = r.tryPush) ↔ r.Flushable := by
  unfold tryPush StreamReassembler.tryPush
  cases hl : r.unassembledStrs.entries with
  | nil =>
      refine ⟨fun _ => h.flushable_of_gap ?_, fun _ _ => rfl⟩
      simp [OrdMap.mem_def, hl]
  | cons e l =>
      by_cases hex : r.exIdx = e.1
      · simp only [if_pos hex]
        rw [← flush_live_iff (e :: l) r done h hl]
        constructor
        · intro hall
          by_contra hdead
          exact flush_ne (e :: l) r done h hl hdead (hall _)
        · rintro ⟨r', hr'⟩ freed
          exact flush_of_live freed (e :: l) r hl hr'
      · simp only [if_neg hex]
        refine ⟨fun _ => h.flushable_of_gap ?_, fun _ _ => trivial⟩
        intro e' he'
        have hahead := h.stored.ahead e (by simp [OrdMap.mem_def, hl])
        rcases OrdMap.head_le hl e' he' with heq | hlt
        · rw [heq]
          exact fun hk => hex hk.symm
        · omega

end Freed

/-! ## The push -/

/-- What the flush loop meets, in terms of the state in front of the push. -/
theorem Lays.flushable_iff (h : r.Wf done)
    (hl : (r.withEof (add64 index data.length) eof).Lays data index r₂)
    (hend : r.output.isInputEnd = false) : r₂.Flushable ↔ r.EatsAll data index eof := by
  have hstarts : ∀ s, s ∈ r.starts data index ↔ ∃ e ∈ r₂.unassembledStrs, e.1 = s := by
    intro s
    rw [← starts_withEof r (add64 index data.length) eof]
    exact hl.starts s
  by_cases hempty : r₂.unassembledStrs.entries = []
  · -- nothing is stored, and nothing is written
    have hnone : ∀ e, ¬ e ∈ r₂.unassembledStrs := by
      simp [OrdMap.mem_def, hempty]
    have hex : (r.withEof (add64 index data.length) eof).exIdx = r.exIdx :=
      (withEof_frame r (add64 index data.length) eof).1
    refine ⟨fun _ => ⟨⟨0, Nat.zero_le _, ?_⟩, ?_⟩, fun _ =>
      (hl.wf done (h.withEof _ eof)).flushable_of_gap fun e he => absurd he (hnone e)⟩
    · rw [Nat.add_zero, ← laid_withEof r (add64 index data.length) eof, ← hl.laid _ hex.le,
        mem_indices]
      rintro ⟨e, he, -⟩
      exact hnone e he
    · intro s hs
      obtain ⟨e, he, -⟩ := (hstarts s).mp hs
      exact absurd he (hnone e)
  · have hne : r.starts data index ≠ [] := by
      obtain ⟨e, it, hentries⟩ := List.exists_cons_of_ne_nil hempty
      exact List.ne_nil_of_mem ((hstarts e.1).mpr ⟨e, by simp [OrdMap.mem_def, hentries], rfl⟩)
    have hwhole := hl.whole_iff hend
    rw [whole_iff_eatsAll, and_iff_right hempty, and_iff_right hne] at hwhole
    exact hwhole

/-- **Whatever an erased element reads, a push does the same**, exactly if it writes stored
substrings as a whole only. -/
theorem Wf.pushSubstring_eq_iff (h : r.Wf done) {idx : UInt64}
    (hop : r.Placed (.push data idx eof)) :
    (∀ freed, Freed.pushSubstring freed r data idx.toNat eof = r.pushSubstring data idx.toNat eof) ↔
      r.Unbroken data idx.toNat eof := by
  unfold Unbroken Freed.pushSubstring StreamReassembler.pushSubstring
  cases hend : r.output.inputEnded with
  | true => simp
  | false =>
      by_cases hd : data = []
      · simp [hd]
      have hlen : data.length ≠ 0 := fun h0 => hd (List.eq_nil_of_length_eq_zero h0)
      simp only [Bool.false_eq_true, if_false, if_neg hlen, hd, false_or]
      change (∀ freed, Freed.store freed (r.withEof (add64 idx.toNat data.length) eof) data idx.toNat
        = (r.withEof (add64 idx.toNat data.length) eof).store data idx.toNat) ↔ _
      set r₀ := r.withEof (add64 idx.toNat data.length) eof with hr₀
      have h₀ : r₀.Wf done := h.withEof _ eof
      have hop₀ : r₀.Placed (.push data idx eof) := (placed_withEof r _ eof _).mpr hop
      have hdup : r₀.Duplicate data idx.toNat ↔ r.Duplicate data idx.toNat :=
        duplicate_withEof r _ eof
      unfold Freed.store StreamReassembler.store
      by_cases hdup' : r.Duplicate data idx.toNat
      · -- a duplicate is dropped in front of the flush loop
        have hlt : idx.toNat + data.length < 2 ^ 64 := by
          rcases hop₀ with hlt | ⟨hex', hfu, hends⟩
          · exact hlt
          · exact absurd (hdup.mpr hdup') (h₀.not_duplicate_behind hd hex' hends)
        have hnone := (cutData_shape h₀.stored hd hlt).1.mpr (hdup.mpr hdup')
        rcases hcut : r₀.cutData idx.toNat data with ⟨r₁, left⟩
        rw [hcut] at hnone
        simp only at hnone
        subst hnone
        simp [hdup']
      · have hlays : ∃ left, (r₀.cutData idx.toNat data).2 = some left ∧
            r₀.Lays data idx.toNat ((r₀.cutData idx.toNat data).1.tryInsert left.1 left.2) := by
          rcases hop₀ with hlt | ⟨hex', hfu, hends⟩
          · exact h₀.lays_inRange hd hlt (fun hbad => hdup' (hdup.mp hbad))
          · exact h₀.lays_behind idx.toNat_lt hex' hfu hends
        obtain ⟨left, hleft, hl⟩ := hlays
        rcases hcut : r₀.cutData idx.toNat data with ⟨r₁, left'⟩
        rw [hcut] at hleft hl
        simp only at hleft hl
        subst hleft
        simp only [hdup', false_or]
        rw [Freed.tryPush_eq_iff (hl.wf done h₀)]
        exact hl.flushable_iff h hend

/-- A push whose data ends in range, if there is any. -/
theorem Wf.pushSubstring_freed (h : r.Wf done) (freed : Nat × Bytes → Nat × Bytes) (eof : Bool)
    (hlt : data ≠ [] → index + data.length < 2 ^ 64) (hwhole : r.Unbroken data index eof) :
    Freed.pushSubstring freed r data index eof = r.pushSubstring data index eof := by
  by_cases hd : data = []
  · simp [Freed.pushSubstring, StreamReassembler.pushSubstring, hd]
  · have hlt' := hlt hd
    have hidx : (UInt64.ofNat index).toNat = index := by
      rw [UInt64.toNat_ofNat']
      exact Nat.mod_eq_of_lt (by omega)
    have hop : r.Placed (.push data (UInt64.ofNat index) eof) := Or.inl (by rwa [hidx])
    have hiff := h.pushSubstring_eq_iff hop
    rw [hidx] at hiff
    exact hiff.mpr hwhole freed

/-- On a copy of the element the flush loop does what it does in the model. -/
theorem Freed.pushSubstring_id (r : StreamReassembler) (data : Bytes) (index : Nat) (eof : Bool) :
    Freed.pushSubstring id r data index eof = r.pushSubstring data index eof := by
  have hflush : ∀ l r, Freed.flush id l r = StreamReassembler.flush l r := by
    intro l
    induction l with
    | nil => intro r; rfl
    | cons e it ih =>
        intro r
        simp only [Freed.flush, StreamReassembler.flush, ih, id_eq]
  have htry : ∀ r, Freed.tryPush id r = r.tryPush := by
    intro r
    unfold Freed.tryPush StreamReassembler.tryPush
    cases r.unassembledStrs.entries with
    | nil => rfl
    | cons e it => simp only [hflush]
  have hstore : ∀ r, Freed.store id r data index = r.store data index := by
    intro r
    unfold Freed.store StreamReassembler.store
    rcases r.cutData index data with ⟨r₁, _ | left⟩
    · rfl
    · exact htry _
  simp only [Freed.pushSubstring, StreamReassembler.pushSubstring, hstore]

end

/-- The rest of a substring, of which the output takes one byte of three, and an end that has been
reached before a substring is met. -/
example : ¬ (run step (new 2) [.push [98, 99, 100] 1 false]).Unbroken [97] 0 false ∧
    ¬ (run step (new 4) [.push [98] 1 false]).Unbroken [97] 0 true ∧
    (run step (new 4) [.push [98] 1 false]).Unbroken [97] 0 false := by
  decide

end StreamReassembler

end Sponge
