import Mathlib.Tactic

set_option autoImplicit false

/-! # Ordered maps with iterators

An ordered map in the manner of `std::map`: the entries in increasing order of their keys,
the order being a field of the structure. An iterator is the list of the entries from its
position on, so that `end()` is `[]`, dereferencing is taking the head and `++` is taking
the tail. Everything later proofs need is stated through membership (`mem_insert`,
`mem_erase`, `mem_upperBound`) and through the total weight of the entries (`total`), so that
no proof outside this file looks at the list of entries. -/

/-- A finite map with its entries in strictly increasing order of the keys. -/
structure OrdMap (κ ν : Type) [LinearOrder κ] where
  entries : List (κ × ν)
  sorted : entries.Pairwise (fun a b => a.1 < b.1)
  deriving DecidableEq

namespace OrdMap

variable {κ ν : Type} [LinearOrder κ]

instance : Membership (κ × ν) (OrdMap κ ν) := ⟨fun m e => e ∈ m.entries⟩

theorem mem_def {m : OrdMap κ ν} {e : κ × ν} : e ∈ m ↔ e ∈ m.entries := Iff.rfl

/-- The map with no entries. -/
def empty : OrdMap κ ν := ⟨[], List.Pairwise.nil⟩

@[simp] theorem not_mem_empty (e : κ × ν) : ¬ e ∈ (empty : OrdMap κ ν) :=
  List.not_mem_nil

/-- A key has one value. -/
theorem mem_unique {m : OrdMap κ ν} {k : κ} {v v' : ν} (h : (k, v) ∈ m) (h' : (k, v') ∈ m) :
    v = v' := by
  by_contra hne
  rcases List.mem_iff_get.mp h with ⟨i, hi⟩
  rcases List.mem_iff_get.mp h' with ⟨j, hj⟩
  rcases lt_trichotomy i j with hij | hij | hij
  · have := List.pairwise_iff_get.mp m.sorted i j hij
    rw [hi, hj] at this
    exact lt_irrefl _ this
  · subst hij
    rw [hi] at hj
    exact hne (by simpa using hj)
  · have := List.pairwise_iff_get.mp m.sorted j i hij
    rw [hi, hj] at this
    exact lt_irrefl _ this

/-! ## Insertion and removal -/

/-- Insert into a list of entries, replacing the entry with the same key. -/
def insertEntry (k : κ) (v : ν) : List (κ × ν) → List (κ × ν)
  | [] => [(k, v)]
  | e :: l =>
      if k < e.1 then (k, v) :: e :: l
      else if k = e.1 then (k, v) :: l
      else e :: insertEntry k v l

theorem mem_insertEntry (k : κ) (v : ν) {l : List (κ × ν)}
    (hl : l.Pairwise (fun a b => a.1 < b.1)) (e : κ × ν) :
    e ∈ insertEntry k v l ↔ e = (k, v) ∨ (e ∈ l ∧ e.1 ≠ k) := by
  induction l with
  | nil => simp [insertEntry]
  | cons a l ih =>
      obtain ⟨hal, hl'⟩ := List.pairwise_cons.mp hl
      unfold insertEntry
      by_cases h1 : k < a.1
      · -- the list is sorted, so that the key is not in it
        rw [if_pos h1]
        have hne : ∀ b, b ∈ a :: l → b.1 ≠ k := by
          intro b hb
          rcases List.mem_cons.mp hb with rfl | hb
          · exact ne_of_gt h1
          · exact ne_of_gt (lt_trans h1 (hal b hb))
        rw [List.mem_cons]
        exact or_congr_right ⟨fun h => ⟨h, hne e h⟩, fun h => h.1⟩
      · rw [if_neg h1]
        by_cases h2 : k = a.1
        · -- the head is replaced
          rw [if_pos h2, List.mem_cons]
          constructor
          · rintro (h | h)
            · exact Or.inl h
            · exact Or.inr ⟨List.mem_cons_of_mem a h, by rw [h2]; exact ne_of_gt (hal e h)⟩
          · rintro (h | ⟨h, hk⟩)
            · exact Or.inl h
            · rcases List.mem_cons.mp h with rfl | h
              · exact absurd h2.symm hk
              · exact Or.inr h
        · rw [if_neg h2, List.mem_cons, List.mem_cons, ih hl']
          constructor
          · rintro (rfl | h | h)
            · exact Or.inr ⟨Or.inl rfl, Ne.symm h2⟩
            · exact Or.inl h
            · exact Or.inr ⟨Or.inr h.1, h.2⟩
          · rintro (h | ⟨h | h, hk⟩)
            · exact Or.inr (Or.inl h)
            · exact Or.inl h
            · exact Or.inr (Or.inr ⟨h, hk⟩)

theorem insertEntry_sorted (k : κ) (v : ν) {l : List (κ × ν)}
    (hl : l.Pairwise (fun a b => a.1 < b.1)) :
    (insertEntry k v l).Pairwise (fun a b => a.1 < b.1) := by
  induction l with
  | nil => exact List.pairwise_singleton _ _
  | cons a l ih =>
      obtain ⟨hal, hl'⟩ := List.pairwise_cons.mp hl
      unfold insertEntry
      split_ifs with h1 h2
      · refine List.pairwise_cons.mpr ⟨fun b hb => ?_, hl⟩
        rcases List.mem_cons.mp hb with rfl | hb
        · exact h1
        · exact lt_trans h1 (hal b hb)
      · exact List.pairwise_cons.mpr ⟨fun b hb => by rw [h2]; exact hal b hb, hl'⟩
      · refine List.pairwise_cons.mpr ⟨fun b hb => ?_, ih hl'⟩
        rcases (mem_insertEntry k v hl' b).mp hb with rfl | hb
        · exact lt_of_le_of_ne (not_lt.mp h1) (Ne.symm h2)
        · exact hal b hb.1

/-- `m[k] = v`: the value of `k` becomes `v`, whether or not `k` was a key. -/
def insert (m : OrdMap κ ν) (k : κ) (v : ν) : OrdMap κ ν :=
  ⟨insertEntry k v m.entries, insertEntry_sorted k v m.sorted⟩

@[simp] theorem mem_insert {m : OrdMap κ ν} {k : κ} {v : ν} {e : κ × ν} :
    e ∈ m.insert k v ↔ e = (k, v) ∨ (e ∈ m ∧ e.1 ≠ k) :=
  mem_insertEntry k v m.sorted e

/-- `m.insert({k, v})`: no effect when `k` is a key already. -/
def insertNew (m : OrdMap κ ν) (k : κ) (v : ν) : OrdMap κ ν :=
  if m.entries.any (fun e => e.1 = k) then m else m.insert k v

theorem insertNew_eq {m : OrdMap κ ν} {k : κ} {v : ν} (h : ∀ e ∈ m, e.1 ≠ k) :
    m.insertNew k v = m.insert k v := by
  unfold insertNew
  rw [if_neg]
  intro hany
  obtain ⟨e, he, hk⟩ := List.any_eq_true.mp hany
  exact h e he (by simpa using hk)

/-- Remove the entry with key `k`. -/
def erase (m : OrdMap κ ν) (k : κ) : OrdMap κ ν :=
  ⟨m.entries.filter (fun e => e.1 ≠ k), m.sorted.filter _⟩

@[simp] theorem mem_erase {m : OrdMap κ ν} {k : κ} {e : κ × ν} :
    e ∈ m.erase k ↔ e ∈ m ∧ e.1 ≠ k := by
  simp [mem_def, erase]

/-! ## Iterators -/

/-- The entries from the first one whose key exceeds `k`. -/
def upperBound (m : OrdMap κ ν) (k : κ) : List (κ × ν) :=
  m.entries.dropWhile (fun e => e.1 ≤ k)

/-- The last entry in front of `lower_bound(k)`, if any. -/
def before (m : OrdMap κ ν) (k : κ) : Option (κ × ν) :=
  (m.entries.takeWhile (fun e => e.1 < k)).getLast?

/-- The entries from the first one whose key is at least `k`. -/
def lowerBound (m : OrdMap κ ν) (k : κ) : List (κ × ν) :=
  m.entries.dropWhile (fun e => e.1 < k)

/-- The iterator one position in front of `it`. -/
def prev (m : OrdMap κ ν) (it : List (κ × ν)) : List (κ × ν) :=
  m.entries.drop (m.entries.length - it.length - 1)

private theorem dropWhile_eq_filter (k : κ) {l : List (κ × ν)}
    (hl : l.Pairwise (fun a b => a.1 < b.1)) :
    l.dropWhile (fun e => e.1 ≤ k) = l.filter (fun e => k < e.1) := by
  induction l with
  | nil => rfl
  | cons a l ih =>
      obtain ⟨hal, hl'⟩ := List.pairwise_cons.mp hl
      by_cases h : a.1 ≤ k
      · rw [List.dropWhile_cons_of_pos (by simpa using h),
          List.filter_cons_of_neg (by simpa using h), ih hl']
      · rw [List.dropWhile_cons_of_neg (by simpa using h)]
        refine (List.filter_eq_self.mpr (fun b hb => ?_)).symm
        rcases List.mem_cons.mp hb with rfl | hb
        · simpa using h
        · simpa using lt_trans (not_le.mp h) (hal b hb)

private theorem takeWhile_eq_filter (k : κ) {l : List (κ × ν)}
    (hl : l.Pairwise (fun a b => a.1 < b.1)) :
    l.takeWhile (fun e => e.1 < k) = l.filter (fun e => e.1 < k) := by
  induction l with
  | nil => rfl
  | cons a l ih =>
      obtain ⟨hal, hl'⟩ := List.pairwise_cons.mp hl
      by_cases h : a.1 < k
      · rw [List.takeWhile_cons_of_pos (by simpa using h),
          List.filter_cons_of_pos (by simpa using h), ih hl']
      · rw [List.takeWhile_cons_of_neg (by simpa using h)]
        refine (List.filter_eq_nil_iff.mpr (fun b hb => ?_)).symm
        rcases List.mem_cons.mp hb with rfl | hb
        · simpa using h
        · simpa using le_of_lt (lt_of_le_of_lt (not_lt.mp h) (hal b hb))

theorem upperBound_eq_filter (m : OrdMap κ ν) (k : κ) :
    m.upperBound k = m.entries.filter (fun e => k < e.1) :=
  dropWhile_eq_filter k m.sorted

@[simp] theorem mem_upperBound {m : OrdMap κ ν} {k : κ} {e : κ × ν} :
    e ∈ m.upperBound k ↔ e ∈ m ∧ k < e.1 := by
  simp [upperBound_eq_filter, mem_def]

theorem upperBound_sorted (m : OrdMap κ ν) (k : κ) :
    (m.upperBound k).Pairwise (fun a b => a.1 < b.1) := by
  rw [upperBound_eq_filter]
  exact m.sorted.filter _

theorem before_eq_some {m : OrdMap κ ν} {k : κ} {e : κ × ν} (h : m.before k = some e) :
    e ∈ m ∧ e.1 < k ∧ ∀ e' ∈ m, e'.1 < k → e'.1 ≤ e.1 := by
  unfold before at h
  rw [takeWhile_eq_filter k m.sorted] at h
  obtain ⟨l, hl⟩ := List.getLast?_eq_some_iff.mp h
  have hmem : ∀ e', e' ∈ m ∧ e'.1 < k ↔ e' ∈ l ++ [e] := by
    intro e'
    rw [← hl]
    simp [mem_def]
  have hsort : (l ++ [e]).Pairwise (fun a b => a.1 < b.1) := by
    rw [← hl]
    exact m.sorted.filter _
  obtain ⟨he, hk⟩ := (hmem e).mpr (by simp)
  refine ⟨he, hk, ?_⟩
  intro e' he' hk'
  rcases List.mem_append.mp ((hmem e').mp ⟨he', hk'⟩) with h1 | h1
  · exact le_of_lt ((List.pairwise_append.mp hsort).2.2 e' h1 e (by simp))
  · rw [List.mem_singleton.mp h1]

theorem before_eq_none {m : OrdMap κ ν} {k : κ} (h : m.before k = none) :
    ∀ e ∈ m, k ≤ e.1 := by
  intro e he
  unfold before at h
  rw [takeWhile_eq_filter k m.sorted, List.getLast?_eq_none_iff] at h
  by_contra hk
  have := List.filter_eq_nil_iff.mp h e he
  simp [not_le.mp hk] at this

theorem takeWhile_append_lowerBound (m : OrdMap κ ν) (k : κ) :
    m.entries.takeWhile (fun e => e.1 < k) ++ m.lowerBound k = m.entries :=
  List.takeWhile_append_dropWhile

/-- An entry in front of `lower_bound(k)` is what the iterator in front of it points to. -/
theorem prev_lowerBound {m : OrdMap κ ν} {k : κ} {e : κ × ν} (h : m.before k = some e) :
    (m.lowerBound k).length ≠ m.entries.length ∧
      m.prev (m.lowerBound k) = e :: m.lowerBound k := by
  obtain ⟨l, hl⟩ := List.getLast?_eq_some_iff.mp h
  have happ := m.takeWhile_append_lowerBound k
  rw [hl, List.append_assoc, List.singleton_append] at happ
  have hlen : m.entries.length = l.length + 1 + (m.lowerBound k).length := by
    rw [← happ, List.length_append, List.length_cons]
    omega
  refine ⟨by omega, ?_⟩
  unfold prev
  rw [show m.entries.length - (m.lowerBound k).length - 1 = l.length by omega, ← happ,
    List.drop_left]

/-- Otherwise `lower_bound(k)` is the beginning. -/
theorem lowerBound_eq_entries {m : OrdMap κ ν} {k : κ} (h : m.before k = none) :
    m.lowerBound k = m.entries := by
  have happ := m.takeWhile_append_lowerBound k
  unfold before at h
  rwa [List.getLast?_eq_none_iff.mp h, List.nil_append] at happ

/-- The first entry has the least key. -/
theorem head_le {m : OrdMap κ ν} {e : κ × ν} {l : List (κ × ν)} (h : m.entries = e :: l) :
    ∀ e' ∈ m, e'.1 = e.1 ∨ e.1 < e'.1 := by
  intro e' he'
  have hs := m.sorted
  rw [h] at hs
  rw [mem_def, h] at he'
  rcases List.mem_cons.mp he' with rfl | he'
  · exact Or.inl rfl
  · exact Or.inr ((List.pairwise_cons.mp hs).1 e' he')

/-- Removing the first entry leaves the others. -/
theorem erase_head {m : OrdMap κ ν} {e : κ × ν} {l : List (κ × ν)} (h : m.entries = e :: l) :
    (m.erase e.1).entries = l := by
  have hs := m.sorted
  rw [h] at hs
  show m.entries.filter (fun a => a.1 ≠ e.1) = l
  rw [h, List.filter_cons_of_neg (by simp)]
  apply List.filter_eq_self.mpr
  intro b hb
  simpa using ne_of_gt ((List.pairwise_cons.mp hs).1 b hb)

/-! ## Weights -/

/-- The total weight of the values. -/
def total (w : ν → Nat) (m : OrdMap κ ν) : Nat := (m.entries.map (fun e => w e.2)).sum

private theorem sum_insertEntry_new (w : ν → Nat) (k : κ) (v : ν) {l : List (κ × ν)}
    (h : ∀ e ∈ l, e.1 ≠ k) :
    ((insertEntry k v l).map (fun e => w e.2)).sum = (l.map (fun e => w e.2)).sum + w v := by
  induction l with
  | nil => simp [insertEntry]
  | cons a l ih =>
      have ha : k ≠ a.1 := Ne.symm (h a (by simp))
      have ihl := ih (fun e he => h e (by simp [he]))
      unfold insertEntry
      split_ifs with h1
      · simp only [List.map_cons, List.sum_cons]; omega
      · simp only [List.map_cons, List.sum_cons, ihl]; omega

theorem total_insert_new (w : ν → Nat) {m : OrdMap κ ν} {k : κ} {v : ν}
    (h : ∀ e ∈ m, e.1 ≠ k) : (m.insert k v).total w = m.total w + w v :=
  sum_insertEntry_new w k v h

private theorem sum_filter_ne (w : ν → Nat) {l : List (κ × ν)} {e : κ × ν}
    (hl : l.Pairwise (fun a b => a.1 < b.1)) (he : e ∈ l) :
    ((l.filter (fun a => a.1 ≠ e.1)).map (fun a => w a.2)).sum + w e.2
      = (l.map (fun a => w a.2)).sum := by
  induction l with
  | nil => cases he
  | cons a l ih =>
      obtain ⟨hal, hl'⟩ := List.pairwise_cons.mp hl
      rcases List.mem_cons.mp he with rfl | he
      · have hrest : l.filter (fun b => b.1 ≠ e.1) = l :=
          List.filter_eq_self.mpr (fun b hb => by simpa using ne_of_gt (hal b hb))
        rw [List.filter_cons_of_neg (by simp), hrest, List.map_cons, List.sum_cons]
        omega
      · rw [List.filter_cons_of_pos (by simpa using ne_of_lt (hal e he)), List.map_cons,
          List.sum_cons, List.map_cons, List.sum_cons, ← ih hl' he]
        omega

theorem total_erase (w : ν → Nat) {m : OrdMap κ ν} {k : κ} {v : ν} (h : (k, v) ∈ m) :
    (m.erase k).total w + w v = m.total w :=
  sum_filter_ne w m.sorted h

/-- Replacing the value of a key replaces its weight. -/
theorem total_insert_replace (w : ν → Nat) {m : OrdMap κ ν} {k : κ} {v : ν}
    (h : (k, v) ∈ m) (v' : ν) : (m.insert k v').total w + w v = m.total w + w v' := by
  have key : ∀ l : List (κ × ν), l.Pairwise (fun a b => a.1 < b.1) → (k, v) ∈ l →
      ((insertEntry k v' l).map (fun e => w e.2)).sum + w v
        = (l.map (fun e => w e.2)).sum + w v' := by
    intro l hl hmem
    induction l with
    | nil => cases hmem
    | cons a l ih =>
        obtain ⟨hal, hl'⟩ := List.pairwise_cons.mp hl
        unfold insertEntry
        rcases List.mem_cons.mp hmem with rfl | hmem
        · rw [if_neg (lt_irrefl _), if_pos rfl]
          simp only [List.map_cons, List.sum_cons]; omega
        · have hak : a.1 < k := hal _ hmem
          rw [if_neg (not_lt.mpr (le_of_lt hak)), if_neg (ne_of_gt hak)]
          have := ih hl' hmem
          simp only [List.map_cons, List.sum_cons]; omega
  exact key m.entries m.sorted h

end OrdMap
