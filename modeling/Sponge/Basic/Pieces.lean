import Sponge.Basic.OrdMap

set_option autoImplicit false

/-! # Pieces of a sequence, stored by their start index

An ordered map from start indices to non-overlapping pieces represents a partial function
from indices to elements, `Holds`. This file says what the three changes to such a map do to
that function: overwriting a part of a piece (`holds_overwrite`), removing a piece
(`holds_erase`) and adding a piece where there is room (`holds_insert`). `Over` is the
function that results from writing a piece over another function. -/

namespace Pieces

variable {α : Type}

/-- The index `i` lies in the piece `d` starting at `k`. -/
def Covers (k : Nat) (d : List α) (i : Nat) : Prop := k ≤ i ∧ i < k + d.length

instance (k : Nat) (d : List α) (i : Nat) : Decidable (Covers k d i) :=
  inferInstanceAs (Decidable (_ ∧ _))

/-- The partial function that is `d` on the piece and `P` elsewhere. -/
def Over (k : Nat) (d : List α) (P : Nat → α → Prop) (i : Nat) (b : α) : Prop :=
  if Covers k d i then d[i - k]? = some b else P i b

theorem over_of_covers {k : Nat} {d : List α} {P : Nat → α → Prop} {i : Nat} {b : α}
    (h : Covers k d i) : Over k d P i b ↔ d[i - k]? = some b := by
  rw [Over, if_pos h]

theorem over_of_not_covers {k : Nat} {d : List α} {P : Nat → α → Prop} {i : Nat} {b : α}
    (h : ¬ Covers k d i) : Over k d P i b ↔ P i b := by
  rw [Over, if_neg h]

/-- On the piece there is an element. -/
theorem exists_over {k : Nat} {d : List α} (P : Nat → α → Prop) {i : Nat} (h : Covers k d i) :
    ∃ b, Over k d P i b := by
  have hlt : i - k < d.length := by unfold Covers at h; omega
  exact ⟨_, (over_of_covers h).mpr (List.getElem?_eq_getElem hlt)⟩

theorem exists_over_iff {k : Nat} {d : List α} {P : Nat → α → Prop} {i : Nat} :
    (∃ b, Over k d P i b) ↔ Covers k d i ∨ ∃ b, P i b := by
  by_cases h : Covers k d i
  · exact ⟨fun _ => Or.inl h, fun _ => exists_over P h⟩
  · constructor
    · rintro ⟨b, hb⟩
      exact Or.inr ⟨b, (over_of_not_covers h).mp hb⟩
    · rintro (hc | ⟨b, hb⟩)
      · exact absurd hc h
      · exact ⟨b, (over_of_not_covers h).mpr hb⟩

theorem over_congr {k : Nat} {d : List α} {P Q : Nat → α → Prop} {i : Nat} {b : α}
    (h : P i b ↔ Q i b) : Over k d P i b ↔ Over k d Q i b := by
  by_cases hc : Covers k d i
  · rw [over_of_covers hc, over_of_covers hc]
  · rw [over_of_not_covers hc, over_of_not_covers hc, h]

/-- Behind its first `n` elements a piece writes what its rest writes. -/
theorem over_drop {k n : Nat} {d : List α} {P : Nat → α → Prop} {i : Nat} {b : α}
    (hi : k + n ≤ i) : Over (k + n) (d.drop n) P i b ↔ Over k d P i b := by
  by_cases h : Covers k d i
  · have h' : Covers (k + n) (d.drop n) i := by
      unfold Covers at h ⊢
      rw [List.length_drop]
      omega
    rw [over_of_covers h, over_of_covers h', List.getElem?_drop]
    congr! 2
    omega
  · have h' : ¬ Covers (k + n) (d.drop n) i := by
      unfold Covers at h ⊢
      rw [List.length_drop]
      omega
    rw [over_of_not_covers h, over_of_not_covers h']

/-- Writing the two halves of a piece is writing the piece, the front half first ... -/
theorem over_drop_over_take {k n : Nat} {d : List α} {P : Nat → α → Prop} {i : Nat} {b : α}
    (hn : n ≤ d.length) :
    Over (k + n) (d.drop n) (Over k (d.take n) P) i b ↔ Over k d P i b := by
  have hlen : (d.take n).length = n := by rw [List.length_take]; omega
  by_cases hi : k + n ≤ i
  · have hc : ¬ Covers k (d.take n) i := by unfold Covers; omega
    rw [← over_drop hi]
    exact over_congr (over_of_not_covers hc)
  · have hc : ¬ Covers (k + n) (d.drop n) i := by unfold Covers; omega
    rw [over_of_not_covers hc]
    by_cases h : k ≤ i
    · have h1 : Covers k (d.take n) i := by unfold Covers; omega
      have h2 : Covers k d i := by unfold Covers; omega
      rw [over_of_covers h1, over_of_covers h2, List.getElem?_take_of_lt (by omega)]
    · have h1 : ¬ Covers k (d.take n) i := by unfold Covers; omega
      have h2 : ¬ Covers k d i := by unfold Covers; omega
      rw [over_of_not_covers h1, over_of_not_covers h2]

/-- ... or the back half first. -/
theorem over_take_over_drop {k n : Nat} {d : List α} {P : Nat → α → Prop} {i : Nat} {b : α}
    (hn : n ≤ d.length) :
    Over k (d.take n) (Over (k + n) (d.drop n) P) i b ↔ Over k d P i b := by
  rw [← over_drop_over_take hn]
  have hlen : (d.take n).length = n := by rw [List.length_take]; omega
  by_cases h1 : Covers k (d.take n) i
  · have h2 : ¬ Covers (k + n) (d.drop n) i := by unfold Covers at h1 ⊢; omega
    rw [over_of_covers h1, over_of_not_covers h2, over_of_covers h1]
  · rw [over_of_not_covers h1]
    exact over_congr (over_of_not_covers h1).symm

/-! ## Overwriting inside a list -/

/-- Overwrite the elements of `s` from position `pos` on with `d`. -/
def overwrite (s : List α) (pos : Nat) (d : List α) : List α :=
  s.take pos ++ d ++ s.drop (pos + d.length)

theorem overwrite_length {s d : List α} {pos : Nat} (h : pos + d.length ≤ s.length) :
    (overwrite s pos d).length = s.length := by
  unfold overwrite
  rw [List.length_append, List.length_append, List.length_take, List.length_drop]
  omega

theorem getElem?_overwrite {s d : List α} {pos : Nat} (h : pos + d.length ≤ s.length) (i : Nat) :
    (overwrite s pos d)[i]? = if Covers pos d i then d[i - pos]? else s[i]? := by
  have hlen : (s.take pos).length = pos := by rw [List.length_take]; omega
  unfold overwrite
  by_cases h1 : i < pos
  · have hc : ¬ Covers pos d i := by unfold Covers; omega
    rw [if_neg hc, List.append_assoc, List.getElem?_append_left (by omega),
      List.getElem?_take_of_lt h1]
  · rw [List.append_assoc, List.getElem?_append_right (by omega), hlen]
    by_cases h2 : i < pos + d.length
    · have hc : Covers pos d i := by unfold Covers; omega
      rw [if_pos hc, List.getElem?_append_left (by omega)]
    · have hc : ¬ Covers pos d i := by unfold Covers; omega
      rw [if_neg hc, List.getElem?_append_right (by omega), List.getElem?_drop]
      congr 1
      omega

/-! ## Maps of pieces -/

/-- The map stores the element `b` for the index `i`. -/
def Holds (m : OrdMap Nat (List α)) (i : Nat) (b : α) : Prop :=
  ∃ k d, (k, d) ∈ m ∧ k ≤ i ∧ d[i - k]? = some b

/-- The pieces do not overlap. -/
def Apart (m : OrdMap Nat (List α)) : Prop :=
  ∀ e ∈ m, ∀ e' ∈ m, e.1 < e'.1 → e.1 + e.2.length ≤ e'.1

theorem Holds.covers {m : OrdMap Nat (List α)} {i : Nat} {b : α} (h : Holds m i b) :
    ∃ k d, (k, d) ∈ m ∧ Covers k d i := by
  obtain ⟨k, d, hm, hk, hb⟩ := h
  obtain ⟨hlt, _⟩ := List.getElem?_eq_some_iff.mp hb
  exact ⟨k, d, hm, hk, by omega⟩

@[simp] theorem not_holds_empty (i : Nat) (b : α) : ¬ Holds (OrdMap.empty) i b := by
  rintro ⟨k, d, hm, _⟩
  exact OrdMap.not_mem_empty _ hm

theorem apart_empty : Apart (OrdMap.empty : OrdMap Nat (List α)) :=
  fun e he => absurd he (OrdMap.not_mem_empty e)

section

variable {m : OrdMap Nat (List α)} {k : Nat} {d : List α}

/-- Two pieces that share an index are the same piece. -/
theorem Apart.eq_of_covers (h : Apart m) (hm : (k, d) ∈ m) {k' : Nat} {d' : List α}
    (hm' : (k', d') ∈ m) {i : Nat} (hi : Covers k d i) (hi' : Covers k' d' i) :
    k' = k ∧ d' = d := by
  unfold Covers at hi hi'
  rcases lt_trichotomy k' k with hlt | heq | hlt
  · have := h _ hm' _ hm hlt
    simp only at this
    omega
  · subst heq
    exact ⟨rfl, OrdMap.mem_unique hm' hm⟩
  · have := h _ hm _ hm' hlt
    simp only at this
    omega

/-- Inside a stored piece the map holds the elements of that piece. -/
theorem Apart.holds_iff (h : Apart m) (hm : (k, d) ∈ m) {i : Nat} (hi : Covers k d i) (b : α) :
    Holds m i b ↔ d[i - k]? = some b := by
  constructor
  · rintro ⟨k', d', hm', hk', hb⟩
    obtain ⟨hlt, _⟩ := List.getElem?_eq_some_iff.mp hb
    obtain ⟨rfl, rfl⟩ := h.eq_of_covers hm hm' hi ⟨hk', by omega⟩
    exact hb
  · intro hb
    exact ⟨k, d, hm, hi.1, hb⟩

theorem Apart.holds_unique (h : Apart m) {i : Nat} {b b' : α} (hb : Holds m i b)
    (hb' : Holds m i b') : b = b' := by
  obtain ⟨k, d, hm, hi⟩ := hb.covers
  have h1 := (h.holds_iff hm hi b).mp hb
  have h2 := (h.holds_iff hm hi b').mp hb'
  rw [h1] at h2
  exact Option.some.inj h2

/-! ### Overwriting a piece -/

theorem Apart.overwrite (h : Apart m) (hm : (k, d) ∈ m) {d' : List α}
    (hlen : d'.length = d.length) : Apart (m.insert k d') := by
  -- the new map has the same keys and lengths as the old one
  have back : ∀ e ∈ m.insert k d', ∃ e₀ ∈ m, e₀.1 = e.1 ∧ e₀.2.length = e.2.length := by
    intro e he
    rcases OrdMap.mem_insert.mp he with rfl | ⟨he, _⟩
    · exact ⟨(k, d), hm, rfl, hlen.symm⟩
    · exact ⟨e, he, rfl, rfl⟩
  intro e he e' he' hlt
  obtain ⟨e₀, hm₀, hk₀, hl₀⟩ := back e he
  obtain ⟨e₁, hm₁, hk₁, _⟩ := back e' he'
  have := h e₀ hm₀ e₁ hm₁ (by omega)
  omega

theorem Apart.holds_overwrite (h : Apart m) (hm : (k, d) ∈ m) {pos : Nat} {c : List α}
    (hpos : pos + c.length ≤ d.length) (i : Nat) (b : α) :
    Holds (m.insert k (Pieces.overwrite d pos c)) i b ↔ Over (k + pos) c (Holds m) i b := by
  have hlen := overwrite_length hpos
  by_cases hi : Covers k d i
  · have hi' : Covers k (Pieces.overwrite d pos c) i := by unfold Covers at hi ⊢; omega
    have hnew : (k, Pieces.overwrite d pos c) ∈ m.insert k (Pieces.overwrite d pos c) :=
      OrdMap.mem_insert.mpr (Or.inl rfl)
    rw [(h.overwrite hm hlen).holds_iff hnew hi', getElem?_overwrite hpos]
    unfold Covers at hi
    by_cases hc : Covers (k + pos) c i
    · have hc' : Covers pos c (i - k) := by unfold Covers at hc ⊢; omega
      rw [over_of_covers hc, if_pos hc', Nat.sub_sub]
    · have hc' : ¬ Covers pos c (i - k) := by unfold Covers at hc ⊢; omega
      rw [over_of_not_covers hc, if_neg hc', h.holds_iff hm hi]
  · -- outside of the piece the map holds what it held
    have hc : ¬ Covers (k + pos) c i := by unfold Covers at hi ⊢; omega
    rw [over_of_not_covers hc]
    constructor
    · rintro ⟨k', d', hm', hk', hb⟩
      obtain ⟨hlt, _⟩ := List.getElem?_eq_some_iff.mp hb
      rcases OrdMap.mem_insert.mp hm' with heq | ⟨hm', _⟩
      · cases heq
        exact absurd ⟨hk', by omega⟩ hi
      · exact ⟨k', d', hm', hk', hb⟩
    · rintro ⟨k', d', hm', hk', hb⟩
      obtain ⟨hlt, _⟩ := List.getElem?_eq_some_iff.mp hb
      refine ⟨k', d', OrdMap.mem_insert.mpr (Or.inr ⟨hm', ?_⟩), hk', hb⟩
      rintro rfl
      exact hi ⟨hk', by rw [OrdMap.mem_unique hm hm']; omega⟩

/-! ### Removing a piece -/

theorem Apart.erase (h : Apart m) (k : Nat) : Apart (m.erase k) :=
  fun e he e' he' => h e (OrdMap.mem_erase.mp he).1 e' (OrdMap.mem_erase.mp he').1

theorem Apart.holds_erase (h : Apart m) (hm : (k, d) ∈ m) (i : Nat) (b : α) :
    Holds (m.erase k) i b ↔ Holds m i b ∧ ¬ Covers k d i := by
  constructor
  · rintro ⟨k', d', hm', hk', hb⟩
    obtain ⟨hm', hne⟩ := OrdMap.mem_erase.mp hm'
    obtain ⟨hlt, _⟩ := List.getElem?_eq_some_iff.mp hb
    refine ⟨⟨k', d', hm', hk', hb⟩, fun hi => hne ?_⟩
    exact (h.eq_of_covers hm hm' hi ⟨hk', by omega⟩).1
  · rintro ⟨⟨k', d', hm', hk', hb⟩, hi⟩
    obtain ⟨hlt, _⟩ := List.getElem?_eq_some_iff.mp hb
    refine ⟨k', d', OrdMap.mem_erase.mpr ⟨hm', ?_⟩, hk', hb⟩
    rintro rfl
    exact hi ⟨hk', by rw [OrdMap.mem_unique hm hm']; omega⟩

/-! ### Adding a piece -/

/-- The stored pieces leave the place of the piece `d` at `k` free. -/
def Free (m : OrdMap Nat (List α)) (k : Nat) (d : List α) : Prop :=
  ∀ e ∈ m, e.1 + e.2.length ≤ k ∨ k + d.length ≤ e.1

/-- A free place is no key, unless an empty piece is stored there. -/
theorem Free.ne (hf : Free m k d) (hd : d ≠ []) (hne : ∀ e ∈ m, e.2 ≠ []) :
    ∀ e ∈ m, e.1 ≠ k := by
  intro e he
  have h1 := List.length_pos_iff.mpr hd
  have h2 := List.length_pos_iff.mpr (hne e he)
  have := hf e he
  omega

theorem Apart.insert (h : Apart m) (hf : Free m k d) (hd : d ≠ []) : Apart (m.insert k d) := by
  have hpos := List.length_pos_iff.mpr hd
  intro e he e' he' hlt
  rcases OrdMap.mem_insert.mp he with rfl | ⟨he, hk⟩
  · rcases OrdMap.mem_insert.mp he' with rfl | ⟨he', _⟩
    · exact absurd hlt (lt_irrefl _)
    · have := hf e' he'
      simp only at hlt ⊢
      omega
  · rcases OrdMap.mem_insert.mp he' with rfl | ⟨he', _⟩
    · have := hf e he
      simp only at hlt ⊢
      omega
    · exact h e he e' he' hlt

theorem Apart.holds_insert (h : Apart m) (hf : Free m k d) (hd : d ≠ [])
    (hne : ∀ e ∈ m, e.2 ≠ []) (i : Nat) (b : α) :
    Holds (m.insert k d) i b ↔ Over k d (Holds m) i b := by
  have hnew : (k, d) ∈ m.insert k d := OrdMap.mem_insert.mpr (Or.inl rfl)
  by_cases hi : Covers k d i
  · rw [over_of_covers hi, (h.insert hf hd).holds_iff hnew hi]
  · rw [over_of_not_covers hi]
    constructor
    · rintro ⟨k', d', hm', hk', hb⟩
      obtain ⟨hlt, _⟩ := List.getElem?_eq_some_iff.mp hb
      rcases OrdMap.mem_insert.mp hm' with heq | ⟨hm', _⟩
      · cases heq
        exact absurd ⟨hk', by omega⟩ hi
      · exact ⟨k', d', hm', hk', hb⟩
    · rintro ⟨k', d', hm', hk', hb⟩
      exact ⟨k', d', OrdMap.mem_insert.mpr (Or.inr ⟨hm', hf.ne hd hne _ hm'⟩), hk', hb⟩

/-- Pieces that do not overlap and lie between `lo` and `B` have at most `B - lo` elements. -/
theorem Apart.total_le (h : Apart m) {lo B : Nat} (hlo : ∀ e ∈ m, lo ≤ e.1)
    (hB : ∀ e ∈ m, e.1 + e.2.length ≤ B) (hle : lo ≤ B) : lo + m.total List.length ≤ B := by
  -- by induction on the entries, from the back: their lengths fit between the first key and `B`
  have key : ∀ l : List (Nat × List α), l.Pairwise (fun a b => a.1 + a.2.length ≤ b.1) →
      (∀ e ∈ l, e.1 + e.2.length ≤ B) → ∀ lo, (∀ e ∈ l, lo ≤ e.1) → lo ≤ B →
      lo + (l.map (fun e => e.2.length)).sum ≤ B := by
    intro l
    induction l with
    | nil => intro _ _ lo _ hlo; simpa using hlo
    | cons a l ih =>
        intro hp hB lo hlo _
        obtain ⟨hal, hp'⟩ := List.pairwise_cons.mp hp
        have hrest := ih hp' (fun e he => hB e (by simp [he])) (a.1 + a.2.length) hal (hB a (by simp))
        have := hlo a (by simp)
        rw [List.map_cons, List.sum_cons]
        omega
  have hp : m.entries.Pairwise (fun a b => a.1 + a.2.length ≤ b.1) :=
    m.sorted.imp_of_mem (fun ha hb hlt => h _ ha _ hb hlt)
  exact key m.entries hp hB lo hlo hle

/-! ### Counting -/

/-- The indices for which the map stores an element. -/
def indices (m : OrdMap Nat (List α)) : Finset Nat :=
  m.entries.foldr (fun e s => Finset.Ico e.1 (e.1 + e.2.length) ∪ s) ∅

theorem mem_indices {m : OrdMap Nat (List α)} {i : Nat} :
    i ∈ indices m ↔ ∃ e ∈ m, Covers e.1 e.2 i := by
  have key : ∀ l : List (Nat × List α),
      i ∈ l.foldr (fun e s => Finset.Ico e.1 (e.1 + e.2.length) ∪ s) ∅ ↔
        ∃ e ∈ l, Covers e.1 e.2 i := by
    intro l
    induction l with
    | nil => simp
    | cons a l ih =>
        rw [List.foldr_cons, Finset.mem_union, Finset.mem_Ico, ih, List.exists_mem_cons_iff]
        exact Iff.rfl
  exact key m.entries

theorem mem_indices_iff_holds {m : OrdMap Nat (List α)} {i : Nat} :
    i ∈ indices m ↔ ∃ b, Holds m i b := by
  rw [mem_indices]
  constructor
  · rintro ⟨⟨k, d⟩, he, hk, hlt⟩
    simp only at hk hlt
    exact ⟨d.get ⟨i - k, by omega⟩, k, d, he, hk, List.getElem?_eq_getElem _⟩
  · rintro ⟨b, hb⟩
    obtain ⟨k, d, hm, hcov⟩ := hb.covers
    exact ⟨(k, d), hm, hcov⟩

theorem mem_indices_erase (h : Apart m) (hm : (k, d) ∈ m) {i : Nat} :
    i ∈ indices (m.erase k) ↔ i ∈ indices m ∧ ¬ Covers k d i := by
  rw [mem_indices_iff_holds, mem_indices_iff_holds]
  simp only [h.holds_erase hm, exists_and_right]

/-- Pieces that do not overlap have one element for each index. -/
theorem Apart.card_indices (h : Apart m) : (indices m).card = m.total List.length := by
  -- by induction on the entries, from the back: the first piece ends in front of the others
  have key : ∀ l : List (Nat × List α), l.Pairwise (fun a b => a.1 + a.2.length ≤ b.1) →
      (∀ i ∈ l.foldr (fun e s => Finset.Ico e.1 (e.1 + e.2.length) ∪ s) ∅, ∃ e ∈ l, e.1 ≤ i) ∧
        (l.foldr (fun e s => Finset.Ico e.1 (e.1 + e.2.length) ∪ s) ∅).card
          = (l.map (fun e => e.2.length)).sum := by
    intro l
    induction l with
    | nil => simp
    | cons a l ih =>
        intro hp
        obtain ⟨hal, hp'⟩ := List.pairwise_cons.mp hp
        obtain ⟨hfrom, hcard⟩ := ih hp'
        refine ⟨fun i hi => ?_, ?_⟩
        · rcases Finset.mem_union.mp hi with hi | hi
          · exact ⟨a, List.mem_cons_self, (Finset.mem_Ico.mp hi).1⟩
          · obtain ⟨e, he, hle⟩ := hfrom i hi
            exact ⟨e, List.mem_cons_of_mem _ he, hle⟩
        · rw [List.foldr_cons, Finset.card_union_of_disjoint, Nat.card_Ico, hcard, List.map_cons,
            List.sum_cons]
          · omega
          · rw [Finset.disjoint_left]
            intro i hi hi'
            obtain ⟨e, he, hle⟩ := hfrom i hi'
            have := hal e he
            have := (Finset.mem_Ico.mp hi).2
            omega
  have hp : m.entries.Pairwise (fun a b => a.1 + a.2.length ≤ b.1) :=
    m.sorted.imp_of_mem (fun ha hb hlt => h _ ha _ hb hlt)
  exact (key m.entries hp).2

end

end Pieces
