import Sponge.Reassembler.Memory

set_option autoImplicit false

/-! # Which substrings a cut leaves

`cutData_spec` says which bytes are stored after a cut. Here is where the substrings lie, in
terms of the state before the cut: data of which every byte is there already (`Duplicate`) is
dropped, and otherwise the substrings that the rest of the data covers are removed while the
others keep their places (`cutData_shape`). -/

namespace Sponge

open Word Pieces

namespace StreamReassembler

/-- A substring of `n` bytes is stored at the index `k`. -/
def StoredAt (m : OrdMap Nat Bytes) (k n : Nat) : Prop := ∃ d, (k, d) ∈ m ∧ d.length = n

/-- A push of the data finds every byte written or stored: behind what is written, the data ends
in the stored substring in front, or in the one at the index where the rest begins. -/
def Duplicate (r : StreamReassembler) (data : Bytes) (index : Nat) : Prop :=
  index + data.length ≤ r.restIdx index ∨
    ∃ e ∈ r.unassembledStrs.entries,
      e.1 = r.restIdx index ∧ index + data.length ≤ e.1 + e.2.length

instance (r : StreamReassembler) (data : Bytes) (index : Nat) :
    Decidable (r.Duplicate data index) := inferInstanceAs (Decidable (_ ∨ _))

/-- A stored substring stays stored when the data is laid over it: it lies in front of the rest
of the data, or reaches to its end. -/
def Survives (r : StreamReassembler) (data : Bytes) (index : Nat) (e : Nat × Bytes) : Prop :=
  e.1 < r.restIdx index ∨ index + data.length ≤ e.1 + e.2.length

instance (r : StreamReassembler) (data : Bytes) (index : Nat) :
    DecidablePred (r.Survives data index) := fun _ => inferInstanceAs (Decidable (_ ∨ _))

section

variable {r : StreamReassembler} {data : Bytes} {idx k n : Nat}

theorem storedAt_iff {m : OrdMap Nat Bytes} : StoredAt m k n ↔ ∃ e ∈ m, e.1 = k ∧ e.2.length = n :=
  ⟨fun ⟨d, hm, hn⟩ => ⟨(k, d), hm, rfl, hn⟩, fun ⟨e, hm, hk, hn⟩ => ⟨e.2, hk ▸ hm, hn⟩⟩

theorem exists_covers_iff {m : OrdMap Nat Bytes} {i : Nat} :
    (∃ e ∈ m, Covers e.1 e.2 i) ↔ ∃ k n, StoredAt m k n ∧ k ≤ i ∧ i < k + n := by
  constructor
  · rintro ⟨e, he, hcov⟩
    exact ⟨e.1, e.2.length, ⟨e.2, he, rfl⟩, hcov⟩
  · rintro ⟨k, n, ⟨d, hm, rfl⟩, hcov⟩
    exact ⟨(k, d), hm, hcov⟩

/-- Overwriting a substring with one of the same length moves nothing. -/
theorem storedAt_insert {m : OrdMap Nat Bytes} {f : Nat} {d d' : Bytes} (hm : (f, d) ∈ m)
    (hlen : d'.length = d.length) : StoredAt (m.insert f d') k n ↔ StoredAt m k n := by
  constructor
  · rintro ⟨c, hc, rfl⟩
    rcases OrdMap.mem_insert.mp hc with heq | ⟨hc, -⟩
    · cases heq
      exact ⟨d, hm, hlen.symm⟩
    · exact ⟨c, hc, rfl⟩
  · rintro ⟨c, hc, rfl⟩
    by_cases hk : k = f
    · subst hk
      exact ⟨d', OrdMap.mem_insert.mpr (Or.inl rfl), by rw [hlen, OrdMap.mem_unique hm hc]⟩
    · exact ⟨c, OrdMap.mem_insert.mpr (Or.inr ⟨hc, hk⟩), rfl⟩

theorem storedAt_erase {m : OrdMap Nat Bytes} {f : Nat} :
    StoredAt (m.erase f) k n ↔ StoredAt m k n ∧ k ≠ f := by
  constructor
  · rintro ⟨c, hc, rfl⟩
    obtain ⟨hc, hne⟩ := OrdMap.mem_erase.mp hc
    exact ⟨⟨c, hc, rfl⟩, hne⟩
  · rintro ⟨⟨c, hc, rfl⟩, hne⟩
    exact ⟨c, OrdMap.mem_erase.mpr ⟨hc, hne⟩, rfl⟩

/-! ## The walk behind the data -/

/-- The walk removes the substrings inside the data and drops the data if a substring that
starts with it reaches as far. -/
theorem cutBack_shape (l : List (Nat × Bytes)) (r : StreamReassembler) (idx : Nat) (data : Bytes)
    (hr : Stored r.unassembledStrs r.unassembledSize r.exIdx) (hd : data ≠ [])
    (hlt : idx + data.length < 2 ^ 64)
    (hl : ∀ e, e ∈ l ↔ e ∈ r.unassembledStrs ∧ idx ≤ e.1)
    (hsort : l.Pairwise (fun a b => a.1 < b.1)) :
    ((cutBack l r idx data).2 = none ↔
      ∃ e ∈ r.unassembledStrs, e.1 = idx ∧ idx + data.length ≤ e.1 + e.2.length) ∧
    ∀ k n, StoredAt (cutBack l r idx data).1.unassembledStrs k n ↔
      StoredAt r.unassembledStrs k n ∧ (k < idx ∨ idx + data.length ≤ k + n) := by
  have hpos := List.length_pos_iff.mpr hd
  induction l generalizing r with
  | nil =>
      refine ⟨⟨fun h => (by cases h), ?_⟩, fun k n => ⟨?_, fun h => h.1⟩⟩
      · rintro ⟨e, he, hk, -⟩
        exact absurd ((hl e).mpr ⟨he, hk.ge⟩) List.not_mem_nil
      · rintro ⟨d, hm, rfl⟩
        refine ⟨⟨d, hm, rfl⟩, Or.inl ?_⟩
        by_contra hge
        exact absurd ((hl (k, d)).mpr ⟨hm, by simpa using hge⟩) List.not_mem_nil
  | cons a l ih =>
      obtain ⟨bIdx, bData⟩ := a
      obtain ⟨hal, hsort'⟩ := List.pairwise_cons.mp hsort
      obtain ⟨hm, hge⟩ := (hl (bIdx, bData)).mp (by simp)
      have hb := hr.bounded _ hm
      have hbpos := List.length_pos_iff.mpr (hr.nonempty _ hm)
      simp only at hal hge hb hbpos
      -- a substring at or behind `idx` is this one or lies behind it
      have hothers : ∀ e ∈ r.unassembledStrs, idx ≤ e.1 →
          e = (bIdx, bData) ∨ bIdx + bData.length ≤ e.1 := by
        intro e he hle
        rcases List.mem_cons.mp ((hl e).mpr ⟨he, hle⟩) with rfl | he'
        · exact Or.inl rfl
        · exact Or.inr (hr.apart _ hm e he (hal e he'))
      have hall : idx + data.length ≤ bIdx + bData.length → ∀ k n,
          StoredAt r.unassembledStrs k n → k < idx ∨ idx + data.length ≤ k + n := by
        rintro hle k n ⟨d, hmem, rfl⟩
        by_cases hk : k < idx
        · exact Or.inl hk
        · rcases hothers (k, d) hmem (by simpa using hk) with heq | hbehind
          · cases heq
            exact Or.inr hle
          · simp only at hbehind
            exact Or.inr (by omega)
      unfold cutBack
      rw [add64_eq hlt, add64_eq hb]
      split_ifs with hno hlast hstart
      · -- this substring and those behind it lie behind the data
        refine ⟨⟨fun h => (by cases h), ?_⟩,
          fun k n => ⟨fun h => ⟨h, hall (by omega) k n h⟩, fun h => h.1⟩⟩
        rintro ⟨e, he, hk, -⟩
        rcases hothers e he hk.ge with rfl | hbehind
        · simp only at hk
          omega
        · omega
      · refine ⟨⟨fun _ => ⟨_, hm, hstart.symm, hlast⟩, fun _ => rfl⟩, ?_⟩
        intro k n
        rw [storedAt_insert hm (strReplace_length rfl (by omega))]
        exact ⟨fun h => ⟨h, hall hlast k n h⟩, fun h => h.1⟩
      · have hn : sub64 (idx + data.length) bIdx = idx + data.length - bIdx :=
          sub64_eq (by omega) (by omega)
        refine ⟨⟨fun h => (by cases h), ?_⟩, fun k n => ?_⟩
        · rintro ⟨e, he, hk, -⟩
          rcases hothers e he hk.ge with rfl | hbehind
          · exact absurd hk.symm hstart
          · omega
        · rw [storedAt_insert hm (strReplace_length ?_ (by omega))]
          · exact ⟨fun h => ⟨h, hall hlast k n h⟩, fun h => h.1⟩
          · rw [hn, List.length_take, List.length_drop]
            omega
      · -- the substring is removed, and the walk goes on behind it
        set r₁ : StreamReassembler := { r with
          unassembledSize := sub64 r.unassembledSize bData.length
          unassembledStrs := r.unassembledStrs.erase bIdx }
        obtain ⟨hdrop, hshape⟩ := ih r₁ (hr.erase hm) (mem_tail_iff hl hal) hsort'
        refine ⟨hdrop.trans ⟨?_, ?_⟩, fun k n => (hshape k n).trans ?_⟩
        · rintro ⟨e, he, hk, hle⟩
          exact ⟨e, (OrdMap.mem_erase.mp he).1, hk, hle⟩
        · rintro ⟨e, he, hk, hle⟩
          refine ⟨e, OrdMap.mem_erase.mpr ⟨he, fun heq => ?_⟩, hk, hle⟩
          rcases hothers e he hk.ge with rfl | hbehind
          · simp only at hle
            omega
          · omega
        · show StoredAt (r.unassembledStrs.erase bIdx) k n ∧ _ ↔ _
          rw [storedAt_erase]
          constructor
          · rintro ⟨⟨h, -⟩, hs⟩
            exact ⟨h, hs⟩
          · rintro ⟨⟨d, hmem, rfl⟩, hs⟩
            refine ⟨⟨⟨d, hmem, rfl⟩, ?_⟩, hs⟩
            rintro rfl
            have hdata : d = bData := OrdMap.mem_unique hmem hm
            rw [hdata] at hs
            omega

/-! ## The cut -/

/-- The part of the data from `rest` on is walked through the stored substrings. -/
theorem cutBack_shape_rest (hr : Stored r.unassembledStrs r.unassembledSize r.exIdx)
    (hlt : idx + data.length < 2 ^ 64) (rest : Nat) (hle : idx ≤ rest)
    (hrest : rest < idx + data.length) (h0 : rest = 0 → ∀ e ∈ r.unassembledStrs, e.1 ≠ 0) :
    ((cutBack (r.getBackItr rest) r rest (data.drop (rest - idx))).2 = none ↔
      ∃ e ∈ r.unassembledStrs, e.1 = rest ∧ idx + data.length ≤ e.1 + e.2.length) ∧
    ∀ k n, StoredAt (cutBack (r.getBackItr rest) r rest
          (data.drop (rest - idx))).1.unassembledStrs k n ↔
      StoredAt r.unassembledStrs k n ∧ (k < rest ∨ idx + data.length ≤ k + n) := by
  have hlen : rest + (data.drop (rest - idx)).length = idx + data.length := by
    rw [List.length_drop]
    omega
  have hshape := cutBack_shape (r.getBackItr rest) r rest (data.drop (rest - idx)) hr
    (List.length_pos_iff.mp (by omega)) (by omega) (mem_getBackItr h0) (getBackItr_sorted r _)
  rwa [hlen] at hshape

/-- Data with something new in front of its end is a duplicate only through a substring at
`restIdx`. -/
theorem duplicate_iff (hnew : r.restIdx idx < idx + data.length) :
    r.Duplicate data idx ↔ ∃ e ∈ r.unassembledStrs,
      e.1 = r.restIdx idx ∧ idx + data.length ≤ e.1 + e.2.length :=
  ⟨fun h => h.resolve_left (by omega), Or.inr⟩

theorem Overwrites.storedAt {r' : StreamReassembler} (h : Overwrites r r') :
    StoredAt r'.unassembledStrs k n ↔ StoredAt r.unassembledStrs k n := by
  rcases h with rfl | ⟨f, d, d', hm, hlen, rfl⟩
  · exact Iff.rfl
  · exact storedAt_insert hm hlen

/-- What the source calls `drop`, and the places of the substrings that are left. -/
theorem cutData_shape (hr : Stored r.unassembledStrs r.unassembledSize r.exIdx) (hd : data ≠ [])
    (hlt : idx + data.length < 2 ^ 64) :
    ((r.cutData idx data).2 = none ↔ r.Duplicate data idx) ∧
    ∀ k n, StoredAt (r.cutData idx data).1.unassembledStrs k n ↔
      StoredAt r.unassembledStrs k n ∧ (k < r.restIdx idx ∨ idx + data.length ≤ k + n) := by
  obtain ⟨r', hr', ⟨hdone, hcut⟩ | ⟨hle, hnew, h0, hcut⟩⟩ := cutData_cases hr hd hlt
  · rw [hcut]
    refine ⟨⟨fun _ => Or.inl hdone, fun _ => rfl⟩, ?_⟩
    intro k n
    rw [hr'.storedAt]
    exact ⟨fun h => ⟨h, by omega⟩, And.left⟩
  · obtain ⟨hdrop, hshape⟩ := cutBack_shape_rest (hr'.stored hr) hlt _ hle hnew h0
    rw [hcut, duplicate_iff hnew]
    refine ⟨hdrop.trans ⟨?_, ?_⟩, fun k n => ?_⟩
    · rintro ⟨e, he, hk, hend⟩
      obtain ⟨e', he', hk', hn'⟩ := storedAt_iff.mp (hr'.storedAt.mp
        (storedAt_iff.mpr ⟨e, he, rfl, rfl⟩))
      exact ⟨e', he', hk'.trans hk, by omega⟩
    · rintro ⟨e, he, hk, hend⟩
      obtain ⟨e', he', hk', hn'⟩ := storedAt_iff.mp (hr'.storedAt.mpr
        (storedAt_iff.mpr ⟨e, he, rfl, rfl⟩))
      exact ⟨e', he', hk'.trans hk, by omega⟩
    · rw [hshape k n, hr'.storedAt]

end

end StreamReassembler

end Sponge
