import Sponge.Wire.Accept

set_option autoImplicit false

/-! # Damage that the checksum notices

A burst changes at most two adjacent bytes, at any position, and not from zeros to ones or back:
these two words are the same in ones' complement. The sum of the words then changes modulo
`0xffff`, so that a valid checksum becomes an invalid one. -/

namespace Sponge

/-- Ones' complement can tell the bytes apart. -/
def Noticed (w w' : Bytes) : Prop :=
  ¬(w = [0, 0] ∧ w' = [0xff, 0xff]) ∧ ¬(w = [0xff, 0xff] ∧ w' = [0, 0])

/-- The bytes `b'` are what a burst at the position `i` has made of `b`. -/
structure BurstAt (i : Nat) (b b' : Bytes) : Prop where
  before : b'.take i = b.take i
  behind : b'.drop (i + 2) = b.drop (i + 2)
  noticed : Noticed ((b.drop i).take 2) ((b'.drop i).take 2)

def Burst (b b' : Bytes) : Prop := b'.length = b.length ∧ ∃ i < b.length, BurstAt i b b'

instance (w w' : Bytes) : Decidable (Noticed w w') := inferInstanceAs (Decidable (_ ∧ _))

instance (i : Nat) (b b' : Bytes) : Decidable (BurstAt i b b') :=
  decidable_of_iff (b'.take i = b.take i ∧ b'.drop (i + 2) = b.drop (i + 2) ∧
      Noticed ((b.drop i).take 2) ((b'.drop i).take 2))
    ⟨fun h => ⟨h.1, h.2.1, h.2.2⟩, fun h => ⟨h.before, h.behind, h.noticed⟩⟩

instance (b b' : Bytes) : Decidable (Burst b b') := inferInstanceAs (Decidable (_ ∧ _))

/-- A burst in parts: what is before it, the bytes that have changed, and what is behind it. -/
structure Parts (b b' pre w w' post : Bytes) : Prop where
  old : b = pre ++ (w ++ post)
  new : b' = pre ++ (w' ++ post)
  same_length : w'.length = w.length
  short : w.length ≤ 2
  noticed : Noticed w w'

/-- One byte is always told apart. -/
theorem noticed_of_length_lt {w : Bytes} (h : w.length < 2) (w' : Bytes) : Noticed w w' := by
  constructor
  · rintro ⟨rfl, -⟩
    exact absurd h (lt_irrefl 2)
  · rintro ⟨rfl, -⟩
    exact absurd h (lt_irrefl 2)

theorem Burst.exists_parts {b b' : Bytes} (h : Burst b b') :
    ∃ pre w w' post, Parts b b' pre w w' post := by
  obtain ⟨hlen, i, -, hburst⟩ := h
  have hsplit : ∀ l : Bytes, l = l.take i ++ ((l.drop i).take 2 ++ l.drop (i + 2)) := by
    intro l
    rw [← List.drop_drop, List.take_append_drop, List.take_append_drop]
  refine ⟨b.take i, (b.drop i).take 2, (b'.drop i).take 2, b.drop (i + 2), hsplit b, ?_, ?_, ?_,
    hburst.noticed⟩
  · rw [← hburst.before, ← hburst.behind]
    exact hsplit b'
  · simp only [List.length_take, List.length_drop, hlen]
  · exact List.length_take_le _ _

/-- Dropping bytes from the front leaves a burst, or what is behind it. -/
theorem Parts.drop {b b' pre w w' post : Bytes} (h : Parts b b' pre w w' post) (k : Nat) :
    Parts (b.drop k) (b'.drop k) (pre.drop k) (w.drop (k - pre.length)) (w'.drop (k - pre.length))
      (post.drop (k - pre.length - w.length)) where
  old := by rw [h.old, List.drop_append, List.drop_append]
  new := by rw [h.new, List.drop_append, List.drop_append, h.same_length]
  same_length := by rw [List.length_drop, List.length_drop, h.same_length]
  short := by
    rw [List.length_drop]
    exact (Nat.sub_le _ _).trans h.short
  noticed := by
    have hshort := h.short
    by_cases hk : k - pre.length = 0
    · rw [hk]
      exact h.noticed
    · apply noticed_of_length_lt
      rw [List.length_drop]
      omega

namespace InternetChecksum

/-! ## The weight of a byte -/

/-- The sum of the words, byte by byte; at an odd position a byte is the lower one of its word. -/
def byteSum : Bool → Bytes → Nat
  | _, [] => 0
  | odd, a :: b => (if odd then a.toNat else a.toNat * 256) + byteSum (!odd) b

theorem sum_words_eq (b : Bytes) : (words b).sum = byteSum false b := by
  induction b using words.induct with
  | case1 => rfl
  | case2 a => simp [words, byteSum]
  | case3 a b rest ih =>
      simp only [words, List.sum_cons, ih, byteSum, Bool.not_false, Bool.not_true, if_true,
        Bool.false_eq_true, if_false]
      omega

theorem byteSum_append (odd : Bool) (b b' : Bytes) :
    byteSum odd (b ++ b') = byteSum odd b + byteSum (odd ^^ b.length.bodd) b' := by
  induction b generalizing odd with
  | nil => simp [byteSum]
  | cons a b ih =>
      rw [List.cons_append, byteSum, byteSum, ih, Nat.add_assoc, List.length_cons, Nat.bodd_succ]
      cases odd <;> simp

theorem byteSum_false (x y : UInt8) : byteSum false [x, y] = x.toNat * 256 + y.toNat := by
  simp [byteSum]

theorem byteSum_true (x y : UInt8) : byteSum true [x, y] = y.toNat * 256 + x.toNat := by
  simp [byteSum, Nat.add_comm]

/-- Two words are congruent if they are the same, or zeros and ones. -/
theorem word_cases {n m : Nat} (hn : n ≤ 0xffff) (hm : m ≤ 0xffff) (h : n % 0xffff = m % 0xffff) :
    n = m ∨ (n = 0 ∧ m = 0xffff) ∨ (n = 0xffff ∧ m = 0) := by
  omega

/-- Bytes that are told apart have sums that differ modulo the word of ones. -/
theorem eq_of_byteSum_modEq {odd : Bool} {w w' : Bytes} (hlen : w'.length = w.length)
    (hshort : w.length ≤ 2) (hnoticed : Noticed w w')
    (hmod : byteSum odd w' ≡ byteSum odd w [MOD 0xffff]) : w' = w := by
  have hmod' : byteSum odd w' % 0xffff = byteSum odd w % 0xffff := hmod
  have heq : ∀ {x y : UInt8}, x.toNat = y.toNat → x = y := fun h => UInt8.toNat_inj.mp h
  match w, w', hlen with
  | [], [], _ => rfl
  | [x], [x'], _ =>
      have hx := x.toNat_lt
      have hx' := x'.toNat_lt
      have hxx : x'.toNat = x.toNat := by
        cases odd <;> simp only [byteSum, if_true, Bool.false_eq_true, if_false] at hmod' <;> omega
      rw [heq hxx]
  | [x, y], [x', y'], _ =>
      have hx := x.toNat_lt
      have hx' := x'.toNat_lt
      have hy := y.toNat_lt
      have hy' := y'.toNat_lt
      have hones : ¬(x.toNat = 0 ∧ y.toNat = 0 ∧ x'.toNat = 255 ∧ y'.toNat = 255) := by
        rintro ⟨h1, h2, h3, h4⟩
        refine hnoticed.1 ⟨?_, ?_⟩
        · rw [heq (y := 0) h1, heq (y := 0) h2]
        · rw [heq (y := 0xff) h3, heq (y := 0xff) h4]
      have hzeros : ¬(x.toNat = 255 ∧ y.toNat = 255 ∧ x'.toNat = 0 ∧ y'.toNat = 0) := by
        rintro ⟨h1, h2, h3, h4⟩
        refine hnoticed.2 ⟨?_, ?_⟩
        · rw [heq (y := 0xff) h1, heq (y := 0xff) h2]
        · rw [heq (y := 0) h3, heq (y := 0) h4]
      have hxy : x'.toNat = x.toNat ∧ y'.toNat = y.toNat := by
        cases odd with
        | false =>
            rw [byteSum_false, byteSum_false] at hmod'
            rcases word_cases (word_le x' y') (word_le x y) hmod' with heq' | heq' | heq' <;> omega
        | true =>
            rw [byteSum_true, byteSum_true] at hmod'
            rcases word_cases (word_le y' x') (word_le y x) hmod' with heq' | heq' | heq' <;> omega
      rw [heq hxy.1, heq hxy.2]

end InternetChecksum

open InternetChecksum

/-- What a burst changes is seen in the sum of the words. -/
theorem Parts.eq_of_modEq {b b' pre w w' post : Bytes} (h : Parts b b' pre w w' post)
    (hmod : (words b').sum ≡ (words b).sum [MOD 0xffff]) : b' = b := by
  rw [sum_words_eq, sum_words_eq, h.old, h.new, byteSum_append, byteSum_append, byteSum_append,
    byteSum_append, h.same_length] at hmod
  have hmid := Nat.ModEq.add_right_cancel' _ (Nat.ModEq.add_left_cancel' _ hmod)
  rw [h.old, h.new, eq_of_byteSum_modEq h.same_length h.short h.noticed hmid]

/-- Where the bytes of `b` behind the first `k` count, a burst is noticed, or they are the same. -/
theorem Burst.drop_eq_of_modEq {b b' : Bytes} (h : Burst b b') (k : Nat)
    (hmod : (words (b'.drop k)).sum ≡ (words (b.drop k)).sum [MOD 0xffff]) :
    b'.drop k = b.drop k := by
  obtain ⟨pre, w, w', post, hparts⟩ := h.exists_parts
  exact (hparts.drop k).eq_of_modEq hmod

/-- A word of the right kind, and two that are the same in ones' complement. -/
example : Burst [1, 2, 3, 4] [1, 7, 9, 4] ∧ Burst [1, 2] [1, 9] ∧ ¬Burst [0, 0, 1] [0xff, 0xff, 1] := by
  decide

namespace TCPSegment

/-- **A burst makes a valid checksum invalid.** -/
theorem value_ne_zero_of_burst {b b' : Bytes} {sum : UInt32} (h : Burst b b') (hne : b' ≠ b)
    (hb : b.length ≤ 65535) (hsum : sum.toNat < 2 ^ 19)
    (hcheck : ((InternetChecksum.new sum).add b).value = 0) :
    ((InternetChecksum.new sum).add b').value ≠ 0 := by
  have hwords := sum_words_le b
  have hwords' := sum_words_le b'
  rw [h.1] at hwords'
  intro hcheck'
  have hmod := ((value_eq_zero_iff_mod (by omega)).mp hcheck).2
  have hmod' := ((value_eq_zero_iff_mod (by omega)).mp hcheck').2
  have hsame : (words b').sum ≡ (words b).sum [MOD 0xffff] := by
    apply Nat.ModEq.add_left_cancel' sum.toNat
    exact hmod'.trans hmod.symm
  exact hne (h.drop_eq_of_modEq 0 hsame)

end TCPSegment

end Sponge
