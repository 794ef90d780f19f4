import Sponge.StreamReassembler

set_option autoImplicit false

/-! # What cutting and storing a substring does

The map of stored substrings represents a partial function from indices to bytes
(`Pieces.Holds`). `Stored` is the representation invariant of that map, and `cutData_spec`
says that cutting the new data against it, in whichever of the seven overlap cases, leaves
the same function to be stored: what was held before, overwritten with the new data. -/

namespace Sponge

open Word Pieces

namespace StreamReassembler

/-- The representation invariant of the map of stored substrings: they are not empty, start
at or after `lo`, end below `2 ^ 64`, do not overlap, and `size` is the number of their
bytes. -/
structure Stored (m : OrdMap Nat Bytes) (size lo : Nat) : Prop where
  nonempty : ∀ e ∈ m, e.2 ≠ []
  ahead : ∀ e ∈ m, lo ≤ e.1
  bounded : ∀ e ∈ m, e.1 + e.2.length < 2 ^ 64
  apart : Apart m
  size_eq : size = m.total List.length

theorem stored_empty (lo : Nat) : Stored OrdMap.empty 0 lo where
  nonempty e he := absurd he (OrdMap.not_mem_empty e)
  ahead e he := absurd he (OrdMap.not_mem_empty e)
  bounded e he := absurd he (OrdMap.not_mem_empty e)
  apart := apart_empty
  size_eq := rfl

section

variable {m : OrdMap Nat Bytes} {size lo k : Nat} {d : Bytes}

theorem Stored.size_lt (h : Stored m size lo) : size < 2 ^ 64 := by
  have hB : ∀ e ∈ m, e.1 + e.2.length ≤ 2 ^ 64 - 1 := by
    intro e he
    have := h.bounded e he
    omega
  have := h.apart.total_le (fun e _ => Nat.zero_le e.1) hB (Nat.zero_le _)
  rw [h.size_eq]
  omega

/-- Only the length of a substring matters to the invariant. -/
theorem Stored.overwrite (h : Stored m size lo) (hm : (k, d) ∈ m) {d' : Bytes}
    (hlen : d'.length = d.length) : Stored (m.insert k d') size lo := by
  have hd := h.nonempty _ hm
  have hpos := List.length_pos_iff.mpr hd
  refine ⟨?_, ?_, ?_, h.apart.overwrite hm hlen, ?_⟩
  · intro e he
    rcases OrdMap.mem_insert.mp he with rfl | ⟨he, _⟩
    · exact List.length_pos_iff.mp (by simp only at hpos ⊢; omega)
    · exact h.nonempty e he
  · intro e he
    rcases OrdMap.mem_insert.mp he with rfl | ⟨he, _⟩
    · exact h.ahead (k, d) hm
    · exact h.ahead e he
  · intro e he
    rcases OrdMap.mem_insert.mp he with rfl | ⟨he, _⟩
    · have := h.bounded (k, d) hm
      simp only at this ⊢
      omega
    · exact h.bounded e he
  · have := OrdMap.total_insert_replace List.length hm d'
    have := h.size_eq
    omega

theorem Stored.erase (h : Stored m size lo) (hm : (k, d) ∈ m) :
    Stored (m.erase k) (sub64 size d.length) lo := by
  have hlt := h.size_lt
  have htot := OrdMap.total_erase List.length hm
  have hsz := h.size_eq
  refine ⟨?_, ?_, ?_, h.apart.erase k, ?_⟩
  · exact fun e he => h.nonempty e (OrdMap.mem_erase.mp he).1
  · exact fun e he => h.ahead e (OrdMap.mem_erase.mp he).1
  · exact fun e he => h.bounded e (OrdMap.mem_erase.mp he).1
  · rw [sub64_eq (by omega) (by omega)]
    omega

theorem Stored.insert (h : Stored m size lo) (hf : Free m k d) (hd : d ≠ []) (hlo : lo ≤ k)
    (hk : k + d.length < 2 ^ 64) : Stored (m.insert k d) (add64 size d.length) lo := by
  have hne : ∀ e ∈ m.insert k d, e.2 ≠ [] := by
    intro e he
    rcases OrdMap.mem_insert.mp he with rfl | ⟨he, _⟩
    · exact hd
    · exact h.nonempty e he
  have hbd : ∀ e ∈ m.insert k d, e.1 + e.2.length < 2 ^ 64 := by
    intro e he
    rcases OrdMap.mem_insert.mp he with rfl | ⟨he, _⟩
    · exact hk
    · exact h.bounded e he
  -- substrings that are apart fit into the range of the indices, so the size does not wrap
  have hap := h.apart.insert hf hd
  have htot := OrdMap.total_insert_new List.length (v := d) (hf.ne hd h.nonempty)
  have hle := hap.total_le (B := 2 ^ 64 - 1) (fun e _ => Nat.zero_le e.1)
    (fun e he => by have := hbd e he; omega) (Nat.zero_le _)
  refine ⟨hne, ?_, hbd, hap, ?_⟩
  · intro e he
    rcases OrdMap.mem_insert.mp he with rfl | ⟨he, _⟩
    · exact hlo
    · exact h.ahead e he
  · have := h.size_eq
    rw [add64_eq (by omega)]
    omega

/-- A larger lower bound that every substring still meets. -/
theorem Stored.raise (h : Stored m size lo) {lo' : Nat} (hlo : ∀ e ∈ m, lo' ≤ e.1) :
    Stored m size lo' :=
  ⟨h.nonempty, hlo, h.bounded, h.apart, h.size_eq⟩

/-- Nothing is held in front of the lower bound. -/
theorem Stored.le_of_holds (h : Stored m size lo) {i : Nat} {b : UInt8} (hb : Holds m i b) :
    lo ≤ i := by
  obtain ⟨k, d, hm, hk, _⟩ := hb.covers
  have := h.ahead _ hm
  simp only at this
  omega

end

theorem strReplace_eq_overwrite {s d : Bytes} {pos n : Nat} (hn : n = d.length) :
    strReplace s pos n d = overwrite s pos d := by
  rw [hn]; rfl

/-! ## The two iterator searches -/

theorem getFrontItr_eq_none {r : StreamReassembler} {idx : Nat} (hidx : idx + 1 < 2 ^ 64)
    (h : r.getFrontItr idx = none) : ∀ e ∈ r.unassembledStrs, idx < e.1 := by
  intro e he
  unfold getFrontItr at h
  rw [add64_eq hidx] at h
  cases hb : r.unassembledStrs.before (idx + 1) with
  | some f =>
      have hf := (OrdMap.before_eq_some hb).2.1
      simp only [hb] at h
      rw [if_neg (by omega)] at h
      cases h
  | none =>
      have := OrdMap.before_eq_none hb e he
      omega

theorem getFrontItr_eq_some {r : StreamReassembler} {idx : Nat} {f : Nat × Bytes}
    (hidx : idx + 1 < 2 ^ 64) (h : r.getFrontItr idx = some f) :
    f ∈ r.unassembledStrs ∧ f.1 ≤ idx ∧ ∀ e ∈ r.unassembledStrs, e.1 ≤ idx → e.1 ≤ f.1 := by
  unfold getFrontItr at h
  rw [add64_eq hidx] at h
  cases hb : r.unassembledStrs.before (idx + 1) with
  | some g =>
      obtain ⟨hg, hlt, hmax⟩ := OrdMap.before_eq_some hb
      simp only [hb] at h
      rw [if_neg (by omega)] at h
      cases h
      exact ⟨hg, by omega, fun e he hle => hmax e he (by omega)⟩
  | none =>
      -- every key is beyond `idx`, so the first entry is not taken
      have hall := OrdMap.before_eq_none hb
      simp only [hb] at h
      cases hd : r.unassembledStrs.entries.head? with
      | none => rw [hd] at h; cases h
      | some g =>
          rw [hd] at h
          have := hall g (List.mem_of_mem_head? hd)
          simp only at h
          rw [if_pos (by omega)] at h
          cases h

/-- When no substring is stored at index `0`, the back iterator runs over the substrings
from `idx` on. -/
theorem mem_getBackItr {r : StreamReassembler} {idx : Nat}
    (h0 : idx = 0 → ∀ e ∈ r.unassembledStrs, e.1 ≠ 0) (e : Nat × Bytes) :
    e ∈ r.getBackItr idx ↔ e ∈ r.unassembledStrs ∧ idx ≤ e.1 := by
  unfold getBackItr
  split_ifs with hz
  · rw [OrdMap.mem_upperBound]
    apply and_congr_right
    intro he
    have := h0 hz e he
    omega
  · rw [OrdMap.mem_upperBound]
    apply and_congr_right
    intro _
    omega

theorem getBackItr_sorted (r : StreamReassembler) (idx : Nat) :
    (r.getBackItr idx).Pairwise (fun a b => a.1 < b.1) := by
  unfold getBackItr
  split_ifs <;> exact OrdMap.upperBound_sorted _ _

/-! ## Cutting -/

/-- What a cut of the data `data` at `idx` returns: the rest of the state is untouched, the
invariant holds, and storing what is left (nothing, for `none`) gives the held bytes of `r`
overwritten with the data. -/
structure Cuts (r : StreamReassembler) (idx : Nat) (data : Bytes)
    (res : StreamReassembler × Option (Nat × Bytes)) : Prop where
  frame : res.1 = { r with
    unassembledStrs := res.1.unassembledStrs
    unassembledSize := res.1.unassembledSize }
  stored : Stored res.1.unassembledStrs res.1.unassembledSize r.exIdx
  keys : ∀ e ∈ res.1.unassembledStrs, ∃ e' ∈ r.unassembledStrs, e'.1 = e.1
  dropped : res.2 = none → ∀ i b, r.exIdx ≤ i →
    (Holds res.1.unassembledStrs i b ↔ Over idx data (Holds r.unassembledStrs) i b)
  kept : ∀ idx' data', res.2 = some (idx', data') →
    data' ≠ [] ∧ r.exIdx ≤ idx' ∧ idx ≤ idx' ∧ idx' + data'.length ≤ idx + data.length ∧
    Free res.1.unassembledStrs idx' data' ∧
    ∀ i b, r.exIdx ≤ i → (Over idx' data' (Holds res.1.unassembledStrs) i b ↔
      Over idx data (Holds r.unassembledStrs) i b)

/-- Overwriting a stored substring adds no key. -/
theorem keys_insert {m : OrdMap Nat Bytes} {k : Nat} {d d' : Bytes} (hm : (k, d) ∈ m) :
    ∀ e ∈ m.insert k d', ∃ e' ∈ m, e'.1 = e.1 := by
  intro e he
  rcases OrdMap.mem_insert.mp he with rfl | ⟨he, _⟩
  · exact ⟨(k, d), hm, rfl⟩
  · exact ⟨e, he, rfl⟩

/-- Cutting can be done in two steps. -/
theorem Cuts.trans {r r' : StreamReassembler} {idx idx' : Nat} {data data' : Bytes}
    {res : StreamReassembler × Option (Nat × Bytes)}
    (hframe : r' = { r with
      unassembledStrs := r'.unassembledStrs
      unassembledSize := r'.unassembledSize })
    (hkeys : ∀ e ∈ r'.unassembledStrs, ∃ e' ∈ r.unassembledStrs, e'.1 = e.1)
    (hidx : idx ≤ idx') (hend : idx' + data'.length ≤ idx + data.length)
    (hover : ∀ i b, r.exIdx ≤ i → (Over idx' data' (Holds r'.unassembledStrs) i b ↔
      Over idx data (Holds r.unassembledStrs) i b))
    (h : Cuts r' idx' data' res) : Cuts r idx data res := by
  have hex : r'.exIdx = r.exIdx := by rw [hframe]
  refine ⟨?_, ?_, ?_, ?_, ?_⟩
  · rw [h.frame, hframe]
  · rw [← hex]; exact h.stored
  · intro e he
    obtain ⟨e', he', hk'⟩ := h.keys e he
    obtain ⟨e'', he'', hk''⟩ := hkeys e' he'
    exact ⟨e'', he'', by omega⟩
  · intro hn i b hi
    rw [h.dropped hn i b (by omega), hover i b hi]
  · intro idx'' data'' hs
    obtain ⟨h1, h2, h3, h4, h5, h6⟩ := h.kept idx'' data'' hs
    refine ⟨h1, by omega, by omega, by omega, h5, ?_⟩
    intro i b hi
    rw [h6 i b (by omega), hover i b hi]

section

variable {r : StreamReassembler} {idx : Nat} {data : Bytes} {k : Nat} {d : Bytes}

/-- The data overlaps no stored substring and is kept whole. -/
theorem cuts_whole (hr : Stored r.unassembledStrs r.unassembledSize r.exIdx) (hd : data ≠ [])
    (hex : r.exIdx ≤ idx) (hfree : Free r.unassembledStrs idx data) :
    Cuts r idx data (r, some (idx, data)) := by
  refine ⟨rfl, hr, fun e he => ⟨e, he, rfl⟩, fun h => (by cases h), ?_⟩
  intro idx' data' h
  cases h
  exact ⟨hd, hex, le_rfl, le_rfl, hfree, fun i b _ => Iff.rfl⟩

/-- The data lies inside a stored substring and is written into it. -/
theorem cuts_inside (hr : Stored r.unassembledStrs r.unassembledSize r.exIdx)
    (hm : (k, d) ∈ r.unassembledStrs) (hk : k ≤ idx) (hle : idx + data.length ≤ k + d.length) :
    Cuts r idx data ({ r with
      unassembledStrs :=
        r.unassembledStrs.insert k (strReplace d (idx - k) data.length data) }, none) := by
  rw [strReplace_eq_overwrite rfl]
  have hfit : idx - k + data.length ≤ d.length := by omega
  have hpos : k + (idx - k) = idx := by omega
  refine ⟨rfl, hr.overwrite hm (overwrite_length hfit), keys_insert hm, ?_,
    fun _ _ h => (by cases h)⟩
  intro _ i b _
  show Holds (r.unassembledStrs.insert k (overwrite d (idx - k) data)) i b ↔ _
  rw [hr.apart.holds_overwrite hm hfit, hpos]

/-- The back of the data overlaps the front of a stored substring. It is written there, and
the front of the data is kept. -/
theorem cuts_back (hr : Stored r.unassembledStrs r.unassembledSize r.exIdx)
    (hm : (k, d) ∈ r.unassembledStrs) (hex : r.exIdx ≤ idx) (hk : idx < k)
    (hk' : k < idx + data.length) (hle : idx + data.length ≤ k + d.length)
    (hfree : ∀ e ∈ r.unassembledStrs, e.1 ≠ k → e.1 + e.2.length ≤ idx ∨ k < e.1) :
    Cuts r idx data ({ r with
      unassembledStrs := r.unassembledStrs.insert k
        (strReplace d 0 (idx + data.length - k) (data.drop (k - idx))) },
      some (idx, data.take (k - idx))) := by
  have hlen : (data.drop (k - idx)).length = idx + data.length - k := by
    rw [List.length_drop]
    omega
  have htake : (data.take (k - idx)).length = k - idx := by
    rw [List.length_take]
    omega
  rw [strReplace_eq_overwrite hlen.symm]
  have hfit : 0 + (data.drop (k - idx)).length ≤ d.length := by omega
  refine ⟨rfl, hr.overwrite hm (overwrite_length hfit), keys_insert hm, fun h => (by cases h), ?_⟩
  intro idx' data' h
  cases h
  refine ⟨List.length_pos_iff.mp (by omega), hex, le_rfl, by omega, ?_, ?_⟩
  · intro e he
    rcases OrdMap.mem_insert.mp he with rfl | ⟨he, hne⟩
    · exact Or.inr (by simp only; omega)
    · rcases hfree e he hne with hfront | hback
      · exact Or.inl hfront
      · exact Or.inr (by omega)
  · -- the front and the back together are the data
    intro i b _
    have hsum : idx + (k - idx) = k := by omega
    have hholds : Holds (r.unassembledStrs.insert k (overwrite d 0 (data.drop (k - idx)))) i b ↔
        Over (idx + (k - idx)) (data.drop (k - idx)) (Holds r.unassembledStrs) i b := by
      rw [hr.apart.holds_overwrite hm hfit, Nat.add_zero, hsum]
    exact (over_congr hholds).trans (over_take_over_drop (by omega))

/-- A stored substring that the data covers can be removed first. -/
theorem Cuts.of_erase (hr : Stored r.unassembledStrs r.unassembledSize r.exIdx)
    (hm : (k, d) ∈ r.unassembledStrs) (hk : idx ≤ k)
    (hle : k + d.length ≤ idx + data.length)
    {res : StreamReassembler × Option (Nat × Bytes)}
    (h : Cuts { r with
      unassembledSize := sub64 r.unassembledSize d.length
      unassembledStrs := r.unassembledStrs.erase k } idx data res) : Cuts r idx data res := by
  refine Cuts.trans rfl (fun e he => ⟨e, (OrdMap.mem_erase.mp he).1, rfl⟩) le_rfl le_rfl
    (fun i b _ => ?_) h
  show Over idx data (Holds (r.unassembledStrs.erase k)) i b ↔ _
  by_cases hi : Covers idx data i
  · rw [over_of_covers hi, over_of_covers hi]
  · have hi' : ¬ Covers k d i := by
      unfold Covers at hi ⊢
      omega
    rw [over_of_not_covers hi, over_of_not_covers hi, hr.apart.holds_erase hm]
    exact ⟨fun h => h.1, fun h => ⟨h, hi'⟩⟩

end

/-- Behind a substring that was removed, the walk runs over the ones that are left. -/
theorem mem_tail_iff {m : OrdMap Nat Bytes} {idx k : Nat} {d : Bytes} {l : List (Nat × Bytes)}
    (hl : ∀ e, e ∈ (k, d) :: l ↔ e ∈ m ∧ idx ≤ e.1) (hal : ∀ e ∈ l, k < e.1) (e : Nat × Bytes) :
    e ∈ l ↔ e ∈ m.erase k ∧ idx ≤ e.1 := by
  rw [OrdMap.mem_erase]
  constructor
  · intro he
    obtain ⟨hmem, hidx⟩ := (hl e).mp (List.mem_cons_of_mem _ he)
    exact ⟨⟨hmem, (hal e he).ne'⟩, hidx⟩
  · rintro ⟨⟨hmem, hne⟩, hidx⟩
    rcases List.mem_cons.mp ((hl e).mpr ⟨hmem, hidx⟩) with rfl | he
    · exact absurd rfl hne
    · exact he

/-- **The walk over the substrings behind the data.** It is started where the substrings in
front end at or before `idx`. -/
theorem cutBack_spec (l : List (Nat × Bytes)) (r : StreamReassembler) (idx : Nat) (data : Bytes)
    (hr : Stored r.unassembledStrs r.unassembledSize r.exIdx) (hd : data ≠ [])
    (hex : r.exIdx ≤ idx) (hlt : idx + data.length < 2 ^ 64)
    (hl : ∀ e, e ∈ l ↔ e ∈ r.unassembledStrs ∧ idx ≤ e.1)
    (hsort : l.Pairwise (fun a b => a.1 < b.1))
    (hfront : ∀ e ∈ r.unassembledStrs, e.1 < idx → e.1 + e.2.length ≤ idx) :
    Cuts r idx data (cutBack l r idx data) := by
  induction l generalizing r with
  | nil =>
      refine cuts_whole hr hd hex (fun e he => Or.inl (hfront e he ?_))
      by_contra hge
      exact absurd ((hl e).mpr ⟨he, by omega⟩) List.not_mem_nil
  | cons a l ih =>
      obtain ⟨bIdx, bData⟩ := a
      obtain ⟨hal, hsort'⟩ := List.pairwise_cons.mp hsort
      obtain ⟨hm, hge⟩ := (hl (bIdx, bData)).mp (by simp)
      have hb := hr.bounded _ hm
      simp only at hal hge hb
      -- the other substrings end before the data or start behind this one
      have hothers : ∀ e ∈ r.unassembledStrs, e.1 ≠ bIdx →
          e.1 + e.2.length ≤ idx ∨ bIdx < e.1 := by
        intro e he hne
        by_cases hlt' : e.1 < idx
        · exact Or.inl (hfront e he hlt')
        · rcases List.mem_cons.mp ((hl e).mpr ⟨he, by omega⟩) with rfl | he'
          · exact absurd rfl hne
          · exact Or.inr (hal e he')
      unfold cutBack
      rw [add64_eq hlt, add64_eq hb]
      split_ifs with hno hlast hstart
      · apply cuts_whole hr hd hex
        intro e he
        by_cases hne : e.1 = bIdx
        · exact Or.inr (by omega)
        · rcases hothers e he hne with h' | h'
          · exact Or.inl h'
          · exact Or.inr (by omega)
      · have hcut : Cuts r idx data _ := cuts_inside hr hm hstart.ge hlast
        rw [hstart, Nat.sub_self] at hcut
        rwa [hstart]
      · have hn : sub64 (idx + data.length) bIdx = idx + data.length - bIdx :=
          sub64_eq (by omega) (by omega)
        have hdrop : (data.drop (bIdx - idx)).take (idx + data.length - bIdx)
            = data.drop (bIdx - idx) :=
          List.take_of_length_le (by rw [List.length_drop]; omega)
        simp only [hn, hdrop]
        exact cuts_back hr hm hex (by omega) (by omega) hlast hothers
      · -- the data covers the stored substring
        refine Cuts.of_erase hr hm hge (by omega) (ih _ (hr.erase hm) hex ?_ hsort' ?_)
        · exact mem_tail_iff hl hal
        · exact fun e he => hfront e (OrdMap.mem_erase.mp he).1

section

variable {r : StreamReassembler} {idx : Nat} {data : Bytes} {fIdx : Nat} {fData : Bytes}

/-- What was assembled before is cut off the front of the data. -/
theorem cutBack_old (hr : Stored r.unassembledStrs r.unassembledSize r.exIdx)
    (hlt : idx + data.length < 2 ^ 64) (hold : idx < r.exIdx)
    (hnew : r.exIdx < idx + data.length) :
    Cuts r idx data
      (cutBack (r.getBackItr r.exIdx) r r.exIdx (data.drop (r.exIdx - idx))) := by
  have hlen : (data.drop (r.exIdx - idx)).length = idx + data.length - r.exIdx := by
    rw [List.length_drop]
    omega
  have hsum : idx + (r.exIdx - idx) = r.exIdx := by omega
  have hback := cutBack_spec (r.getBackItr r.exIdx) r r.exIdx (data.drop (r.exIdx - idx)) hr
    (List.length_pos_iff.mp (by omega)) le_rfl (by omega)
    (mem_getBackItr (fun h => by omega)) (getBackItr_sorted r _)
    (fun e he hlt' => absurd (hr.ahead e he) (by omega))
  refine Cuts.trans rfl (fun e he => ⟨e, he, rfl⟩) hold.le (by omega) (fun i b hi => ?_) hback
  have hover := over_drop (k := idx) (n := r.exIdx - idx) (d := data)
    (P := Holds r.unassembledStrs) (i := i) (b := b) (by omega)
  rwa [hsum] at hover

/-- A substring that starts in front of another one does not reach beyond it. -/
theorem Stored.end_le_front (hr : Stored r.unassembledStrs r.unassembledSize r.exIdx)
    (hm : (fIdx, fData) ∈ r.unassembledStrs) {e : Nat × Bytes} (he : e ∈ r.unassembledStrs)
    (hle : e.1 ≤ fIdx) : e.1 + e.2.length ≤ fIdx + fData.length := by
  rcases lt_or_eq_of_le hle with hlt | heq
  · have hapart := hr.apart e he _ hm hlt
    simp only at hapart
    omega
  · have hdata : e.2 = fData := OrdMap.mem_unique (k := fIdx) (by rw [← heq]; exact he) hm
    rw [hdata, heq]

/-- The front of the data overlaps the substring in front. It is written there, and the walk
goes on with the rest. -/
theorem cutBack_front (hr : Stored r.unassembledStrs r.unassembledSize r.exIdx)
    (hlt : idx + data.length < 2 ^ 64) (hex : r.exIdx ≤ idx)
    (hm : (fIdx, fData) ∈ r.unassembledStrs) (hle : fIdx ≤ idx) {n : Nat}
    (hn : idx + n = fIdx + fData.length) (hpos : 0 < n) (hdata : n < data.length)
    {r' : StreamReassembler}
    (hr' : r' = { r with
      unassembledStrs := r.unassembledStrs.insert fIdx
        (strReplace fData (idx - fIdx) n (data.take n)) }) :
    Cuts r idx data (cutBack (r'.getBackItr (idx + n)) r' (idx + n) (data.drop n)) := by
  have htake : (data.take n).length = n := by
    rw [List.length_take]
    omega
  have hdrop : (data.drop n).length = data.length - n := List.length_drop
  have hfit : idx - fIdx + (data.take n).length ≤ fData.length := by omega
  rw [strReplace_eq_overwrite htake.symm] at hr'
  have hstrs : r'.unassembledStrs
      = r.unassembledStrs.insert fIdx (overwrite fData (idx - fIdx) (data.take n)) := by rw [hr']
  have hst : Stored r'.unassembledStrs r'.unassembledSize r'.exIdx := by
    rw [hr']
    exact hr.overwrite hm (overwrite_length hfit)
  -- the keys and lengths of the substrings are those of before
  have hfront : ∀ e ∈ r'.unassembledStrs, e.1 < idx + n → e.1 + e.2.length ≤ idx + n := by
    intro e he hlt'
    rw [hstrs] at he
    rcases OrdMap.mem_insert.mp he with rfl | ⟨he, -⟩
    · simp only
      rw [overwrite_length hfit]
      omega
    · rw [hn]
      apply hr.end_le_front hm he
      by_contra hgt
      have hapart := hr.apart _ hm e he (by simp only; omega)
      simp only at hapart
      omega
  have hback := cutBack_spec (r'.getBackItr (idx + n)) r' (idx + n) (data.drop n) hst
    (List.length_pos_iff.mp (by omega)) (by rw [hr']; show r.exIdx ≤ _; omega) (by omega)
    (mem_getBackItr (fun h => by omega)) (getBackItr_sorted _ _) hfront
  refine Cuts.trans (by rw [hr']) (by rw [hstrs]; exact keys_insert hm) (by omega) (by omega)
    (fun i b _ => ?_) hback
  have hover : Holds r'.unassembledStrs i b ↔
      Over idx (data.take n) (Holds r.unassembledStrs) i b := by
    rw [hstrs, hr.apart.holds_overwrite hm hfit, Nat.add_sub_cancel' hle]
  exact (over_congr hover).trans (over_drop_over_take (by omega))

end

/-- **Cutting the data.** -/
theorem cutData_spec {r : StreamReassembler} (idx : Nat) {data : Bytes}
    (hr : Stored r.unassembledStrs r.unassembledSize r.exIdx) (hd : data ≠ [])
    (hlt : idx + data.length < 2 ^ 64) : Cuts r idx data (r.cutData idx data) := by
  have hpos := List.length_pos_iff.mpr hd
  unfold cutData
  rw [add64_eq hlt]
  by_cases hold : idx < r.exIdx
  · rw [if_pos hold]
    split_ifs with hdone
    · -- totally out of date
      refine ⟨rfl, hr, fun e he => ⟨e, he, rfl⟩, fun _ i b hi => ?_, fun _ _ h => (by cases h)⟩
      have hc : ¬ Covers idx data i := by unfold Covers; omega
      rw [over_of_not_covers hc]
    · exact cutBack_old hr hlt hold (by omega)
  · rw [if_neg hold]
    cases hf : r.getFrontItr idx with
    | none =>
        have hnone := getFrontItr_eq_none (by omega) hf
        refine cutBack_spec _ r idx data hr hd (by omega) hlt ?_ (getBackItr_sorted r _) ?_
        · apply mem_getBackItr
          intro h e he
          have := hnone e he
          omega
        · intro e he hlt'
          have := hnone e he
          omega
    | some f =>
        obtain ⟨fIdx, fData⟩ := f
        obtain ⟨hm, hle, hmax⟩ := getFrontItr_eq_some (by omega) hf
        have hb := hr.bounded _ hm
        have hfpos := List.length_pos_iff.mpr (hr.nonempty _ hm)
        simp only at hle hmax hb hfpos ⊢
        rw [add64_eq hb]
        split_ifs with hinside hcontains
        · exact cuts_inside hr hm hle hcontains
        · have hn : idx + (fIdx + fData.length - idx) = fIdx + fData.length := by omega
          have hcut := cutBack_front hr hlt (by omega) hm hle hn (by omega) (by omega) rfl
          rwa [hn] at hcut
        · -- the substring in front ends before the data
          refine cutBack_spec _ r idx data hr hd (by omega) hlt
            (mem_getBackItr (fun h => by omega)) (getBackItr_sorted r _) (fun e he hlt' => ?_)
          have hend := hr.end_le_front hm he (hmax e he hlt'.le)
          omega

end StreamReassembler

end Sponge
