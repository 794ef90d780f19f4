import Sponge.Basic.BigEndian
import Sponge.Basic.OnesComplement
import Sponge.ByteStream

set_option autoImplicit false

/-! # The Internet checksum

The class `InternetChecksum` of `util.hh` and `util.cc`: bytes are added to a 32-bit sum, every
other one in the upper half of a word, and the carries are added back at the end. `checksum` is
the specification: the complement of the ones' complement sum of the 16-bit words. The two agree
as long as the 32-bit sum does not overflow. The bytes may come in chunks of any length
(`addAll`). -/

namespace Sponge

structure InternetChecksum where
  sum : UInt32
  parity : Bool := false
  deriving DecidableEq, Repr

namespace InternetChecksum

def new (initialSum : UInt32) : InternetChecksum := { sum := initialSum }

def addByte (c : InternetChecksum) (b : UInt8) : InternetChecksum :=
  { sum := c.sum + (if c.parity then b.toUInt32 else b.toUInt32 <<< 8), parity := !c.parity }

def add (c : InternetChecksum) (data : Bytes) : InternetChecksum := data.foldl addByte c

/-- The loop of `value`, with a bound on the number of rounds. -/
def addCarries : Nat → UInt32 → UInt32
  | 0, ret => ret
  | n + 1, ret =>
      if 0xffff < ret then addCarries n ((ret >>> 16) + (ret &&& 0xffff)) else ret

/-- The complement of the sum. Two rounds are enough for the carries of a 32-bit number. -/
def value (c : InternetChecksum) : UInt16 := ~~~(addCarries 2 c.sum).toUInt16

/-! ## The specification -/

/-- The bytes as 16-bit words in network order, the last one filled up with a zero. -/
def words : Bytes → List Nat
  | [] => []
  | [a] => [a.toNat * 256]
  | a :: b :: rest => (a.toNat * 256 + b.toNat) :: words rest

/-- The Internet checksum of the bytes, starting from a sum of words. -/
def checksum (start : Nat) (data : Bytes) : Nat :=
  0xffff - OnesComplement.sum
    (OnesComplement.carryAdd (start / 2 ^ 16) (start % 2 ^ 16)) (words data)

/-! ## The class computes the specification -/

theorem add_append (c : InternetChecksum) (data data' : Bytes) :
    c.add (data ++ data') = (c.add data).add data' := List.foldl_append

theorem word_le (a b : UInt8) : a.toNat * 256 + b.toNat ≤ 0xffff := by
  have ha : a.toNat < 256 := a.toNat_lt
  have hb : b.toNat < 256 := b.toNat_lt
  omega

theorem words_le (data : Bytes) : ∀ w ∈ words data, w ≤ 0xffff := by
  induction data using words.induct with
  | case1 => simp [words]
  | case2 a =>
      have ha : a.toNat < 256 := a.toNat_lt
      simp only [words, List.mem_singleton, forall_eq]
      omega
  | case3 a b rest ih =>
      intro w hw
      rcases List.mem_cons.mp hw with rfl | hw
      · exact word_le a b
      · exact ih w hw

/-- Bytes up to an even position are words of their own. -/
theorem words_append {data : Bytes} (heven : data.length % 2 = 0) (data' : Bytes) :
    words (data ++ data') = words data ++ words data' := by
  induction data using words.induct with
  | case1 => rfl
  | case2 a => simp at heven
  | case3 a b rest ih =>
      have hrest : rest.length % 2 = 0 := by
        simp only [List.length_cons] at heven
        omega
      simp only [List.cons_append, words, ih hrest]

theorem sum_words_le (data : Bytes) : (words data).sum ≤ 0xffff * ((data.length + 1) / 2) := by
  have hlen : (words data).length = (data.length + 1) / 2 := by
    induction data using words.induct with
    | case1 => rfl
    | case2 a => simp [words]
    | case3 a b rest ih =>
        rw [words, List.length_cons, ih, List.length_cons, List.length_cons]
        omega
  have hle := List.sum_le_card_nsmul (words data) 0xffff (words_le data)
  rwa [hlen, smul_eq_mul, Nat.mul_comm] at hle

/-- At an even position the bytes enter the sum as words. -/
theorem add_sum (s : UInt32) (data : Bytes) :
    (add { sum := s } data).sum.toNat = (s.toNat + (words data).sum) % 2 ^ 32 := by
  induction data using words.induct generalizing s with
  | case1 => simp [words, add, Nat.mod_eq_of_lt s.toNat_lt]
  | case2 a =>
      simp [words, add, addByte, UInt32.toNat_add, UInt32.toNat_shiftLeft, Nat.shiftLeft_eq]
  | case3 a b rest ih =>
      have ha : a.toNat < 256 := a.toNat_lt
      have hb : b.toNat < 256 := b.toNat_lt
      have hstep : add { sum := s } (a :: b :: rest)
          = add { sum := s + a.toUInt32 <<< 8 + b.toUInt32 } rest := rfl
      rw [hstep, ih, words, List.sum_cons]
      simp [UInt32.toNat_add, UInt32.toNat_shiftLeft, Nat.shiftLeft_eq]
      omega

/-- The two halves of a 32-bit number, added up. -/
theorem toNat_halves (y : UInt32) :
    ((y >>> 16) + (y &&& 0xffff)).toNat = y.toNat / 2 ^ 16 + y.toNat % 2 ^ 16 := by
  have hy := y.toNat_lt
  have hand : y.toNat &&& 65535 = y.toNat % 2 ^ 16 := Nat.and_two_pow_sub_one_eq_mod y.toNat 16
  simp [UInt32.toNat_add, UInt32.toNat_shiftRight, Nat.shiftRight_eq_div_pow, hand]
  omega

theorem addCarries_reduces (x : UInt32) :
    OnesComplement.Reduces x.toNat (addCarries 2 x).toNat := by
  have hlt := x.toNat_lt
  unfold addCarries
  split_ifs with h1
  · apply OnesComplement.Reduces.of_halves
    have hx := toNat_halves x
    unfold addCarries
    split_ifs with h2
    · -- one carry is left, and the second round adds it
      rw [← hx]
      apply OnesComplement.Reduces.of_halves
      rw [← toNat_halves]
      apply OnesComplement.Reduces.refl
      show (_ : UInt32).toNat ≤ 0xffff
      rw [toNat_halves, hx]
      omega
    · rw [← hx]
      apply OnesComplement.Reduces.refl
      rw [UInt32.lt_iff_toNat_lt] at h2
      exact Nat.le_of_not_lt h2
  · apply OnesComplement.Reduces.refl
    rw [UInt32.lt_iff_toNat_lt] at h1
    exact Nat.le_of_not_lt h1

theorem value_toNat (c : InternetChecksum) :
    c.value.toNat = 0xffff - (addCarries 2 c.sum).toNat := by
  have hle := (addCarries_reduces c.sum).le
  unfold value
  simp [UInt16.toNat_not]
  omega

/-- As long as the sum fits into 32 bits, it reduces to what the rounds return. -/
theorem reduces_add {start : UInt32} {data : Bytes}
    (hfits : start.toNat + (words data).sum < 2 ^ 32) :
    OnesComplement.Reduces (start.toNat + (words data).sum)
      (addCarries 2 ((new start).add data).sum).toNat := by
  have hsum : ((new start).add data).sum.toNat = start.toNat + (words data).sum := by
    rw [show (new start).add data = add { sum := start } data from rfl, add_sum,
      Nat.mod_eq_of_lt hfits]
  rw [← hsum]
  exact addCarries_reduces _

/-- **The class computes the Internet checksum** wherever its sum fits into 32 bits. -/
theorem value_add {start : UInt32} {data : Bytes}
    (hfits : start.toNat + (words data).sum < 2 ^ 32) :
    ((new start).add data).value.toNat = checksum start.toNat data := by
  have hlt := start.toNat_lt
  have hstart : OnesComplement.Reduces start.toNat
      (OnesComplement.carryAdd (start.toNat / 2 ^ 16) (start.toNat % 2 ^ 16)) := by
    apply OnesComplement.Reduces.of_halves
    exact (OnesComplement.Reduces.refl (by omega)).carryAdd (OnesComplement.Reduces.refl (by omega))
  rw [value_toNat, checksum, (reduces_add hfits).unique (hstart.sum (words_le data))]

/-- A field at an even position adds its value to the sum of the words. -/
theorem sum_words_fill {pre : Bytes} (heven : pre.length % 2 = 0) (post : Bytes) (v : UInt16) :
    (words (pre ++ (BigEndian.bytes 2 v.toNat ++ post))).sum
      = (words (pre ++ ([0, 0] ++ post))).sum + v.toNat := by
  have hv := v.toNat_lt
  have hbytes : BigEndian.bytes 2 v.toNat
      = [UInt8.ofNat (v.toNat / 256), UInt8.ofNat v.toNat] := by
    simp [BigEndian.bytes]
  have hword : v.toNat / 256 % 2 ^ 8 * 256 + v.toNat % 2 ^ 8 = v.toNat := by omega
  rw [words_append heven, words_append heven, hbytes]
  simp only [List.cons_append, List.nil_append, words, UInt8.toNat_ofNat', hword,
    List.sum_append, List.sum_cons, UInt8.toNat_zero]
  omega

/-- The value is zero where the sum of the words is a positive multiple of the word of ones. -/
theorem value_eq_zero_iff_mod {start : UInt32} {data : Bytes}
    (hfits : start.toNat + (words data).sum < 2 ^ 32) :
    ((new start).add data).value = 0 ↔
      start.toNat + (words data).sum ≠ 0 ∧ (start.toNat + (words data).sum) % 0xffff = 0 := by
  have hreduces := reduces_add hfits
  have hle := hreduces.le
  have hmod := hreduces.mod
  have hzero := hreduces.zero_iff
  rw [← UInt16.toNat_inj, value_toNat, UInt16.toNat_zero]
  omega

/-- **A checksum that is filled in is valid**: with the value over the data where the field is
zero, at an even position, the data sum up to zero. -/
theorem value_filled {start : UInt32} {pre post : Bytes} {v : UInt16}
    (heven : pre.length % 2 = 0)
    (hfits : start.toNat + (words (pre ++ (BigEndian.bytes 2 v.toNat ++ post))).sum < 2 ^ 32)
    (hv : v = ((new start).add (pre ++ ([0, 0] ++ post))).value) :
    ((new start).add (pre ++ (BigEndian.bytes 2 v.toNat ++ post))).value = 0 := by
  have hfill := sum_words_fill heven post v
  have hzeros : start.toNat + (words (pre ++ ([0, 0] ++ post))).sum < 2 ^ 32 := by omega
  have hones := (reduces_add hzeros).add_complement
  rw [← value_toNat, ← hv] at hones
  have hfull := reduces_add hfits
  rw [hfill, ← Nat.add_assoc] at hfull
  apply UInt16.toNat_inj.mp
  rw [value_toNat, hfull.unique hones]
  rfl

/-- The same with room for any value. -/
theorem value_fill {start : UInt32} {pre post : Bytes} {v : UInt16}
    (heven : pre.length % 2 = 0)
    (hfits : start.toNat + (words (pre ++ ([0, 0] ++ post))).sum + 0xffff < 2 ^ 32)
    (hv : v = ((new start).add (pre ++ ([0, 0] ++ post))).value) :
    ((new start).add (pre ++ (BigEndian.bytes 2 v.toNat ++ post))).value = 0 := by
  have hvlt := v.toNat_lt
  refine value_filled heven ?_ hv
  rw [sum_words_fill heven post v]
  omega

/-! ## Data in chunks -/

/-- The sum after the chunks were added one after the other. -/
def addAll (start : UInt32) (chunks : List Bytes) : InternetChecksum :=
  chunks.foldl add (new start)

theorem addAll_eq (start : UInt32) (chunks : List Bytes) :
    addAll start chunks = (new start).add chunks.flatten := by
  have key : ∀ c : InternetChecksum, chunks.foldl add c = c.add chunks.flatten := by
    induction chunks with
    | nil => intro c; rfl
    | cons data chunks ih =>
        intro c
        rw [List.foldl_cons, ih, List.flatten_cons, add_append]
  exact key (new start)

/-- Another word in one place, unless it is congruent to the one there, is noticed. -/
theorem value_ne_zero_of_replaced {start : UInt32} {data data' : Bytes} {ws ws' : List Nat}
    {w w' : Nat} (hdata : words data = ws ++ w :: ws') (hdata' : words data' = ws ++ w' :: ws')
    (hfits : start.toNat + (words data).sum < 2 ^ 32)
    (hfits' : start.toNat + (words data').sum < 2 ^ 32) (hne : ¬ w' ≡ w [MOD 0xffff])
    (hzero : ((new start).add data).value = 0) : ((new start).add data').value ≠ 0 := by
  have hsum : ∀ v, (ws ++ v :: ws').sum = (ws ++ ws').sum + v := by
    intro v
    simp only [List.sum_append, List.sum_cons]
    omega
  have hold := ((value_eq_zero_iff_mod hfits).mp hzero).2
  intro hnew
  have hmod := ((value_eq_zero_iff_mod hfits').mp hnew).2
  rw [hdata, hsum] at hold
  rw [hdata', hsum] at hmod
  apply hne
  show w' % 0xffff = w % 0xffff
  omega

/-- The rounds of the loop of `value` behind the second one change nothing. -/
theorem addCarries_stable (n : Nat) (x : UInt32) : addCarries (2 + n) x = addCarries 2 x := by
  have hdone : ∀ n y, ¬ (0xffff : UInt32) < y → addCarries n y = y := by
    intro n y hy
    cases n with
    | zero => rfl
    | succ n => rw [addCarries, if_neg hy]
  have hadd : ∀ m y, addCarries (m + n) y = addCarries n (addCarries m y) := by
    intro m
    induction m with
    | zero => intro y; rw [Nat.zero_add]; rfl
    | succ m ih =>
        intro y
        rw [Nat.succ_add, addCarries, addCarries]
        split_ifs with hy
        · exact ih _
        · exact (hdone n y hy).symm
  rw [hadd]
  apply hdone n _
  intro hlt
  rw [UInt32.lt_iff_toNat_lt] at hlt
  exact absurd (addCarries_reduces x).le (Nat.not_le_of_lt hlt)

/-- **The checksum of data in chunks**, wherever the sums fit into 32 bits: it is the checksum of
the concatenation, whose bytes may come in any chunks; filled into a zero field it makes the
value zero; and data with the value zero are noticed to differ from data with another word in one
place, unless the two words are congruent. The loop of `value` has ended after two rounds. -/
theorem value_addAll (start : UInt32) (chunks : List Bytes)
    (hfits : start.toNat + (words chunks.flatten).sum < 2 ^ 32) :
    (addAll start chunks).value = ((new start).add chunks.flatten).value ∧
      (addAll start chunks).value.toNat = checksum start.toNat chunks.flatten ∧
      (∀ n, addCarries (2 + n) (addAll start chunks).sum
        = addCarries 2 (addAll start chunks).sum) ∧
      (∀ pre post chunks', chunks.flatten = pre ++ ([0, 0] ++ post) → pre.length % 2 = 0 →
        chunks'.flatten
          = pre ++ (BigEndian.bytes 2 (addAll start chunks).value.toNat ++ post) →
        start.toNat + (words chunks'.flatten).sum < 2 ^ 32 →
        (addAll start chunks').value = 0) ∧
      (∀ ws w ws' w' chunks', words chunks.flatten = ws ++ w :: ws' →
        words chunks'.flatten = ws ++ w' :: ws' →
        start.toNat + (words chunks'.flatten).sum < 2 ^ 32 → ¬ w' ≡ w [MOD 0xffff] →
        (addAll start chunks).value = 0 → (addAll start chunks').value ≠ 0) := by
  refine ⟨by rw [addAll_eq], ?_, fun n => addCarries_stable n _, ?_, ?_⟩
  · rw [addAll_eq]
    exact value_add hfits
  · intro pre post chunks' hdata heven hfilled hfits'
    rw [addAll_eq, hfilled]
    rw [hfilled] at hfits'
    apply value_filled heven hfits'
    rw [addAll_eq, hdata]
  · intro ws w ws' w' chunks' hdata hdata' hfits' hne hzero
    rw [addAll_eq] at hzero ⊢
    exact value_ne_zero_of_replaced hdata hdata' hfits hfits' hne hzero

/-- Seven bytes with an empty field in the middle, in chunks of odd length: the checksum is filled
in, and then one word is replaced. -/
theorem value_addAll_odd :
    (addAll 7 [[1, 2, 3], [4], [0, 0, 5]]).value.toNat = checksum 7 [1, 2, 3, 4, 0, 0, 5] ∧
      (addAll 7 [[1, 2], [3, 4, 0xf6], [0xf2, 5]]).value = 0 ∧
      (addAll 7 [[1, 2, 3, 5, 0xf6, 0xf2, 5]]).value ≠ 0 := by
  obtain ⟨-, hvalue, -, hfill, -⟩ := value_addAll 7 [[1, 2, 3], [4], [0, 0, 5]] (by decide)
  have hzero : (addAll 7 [[1, 2], [3, 4, 0xf6], [0xf2, 5]]).value = 0 :=
    hfill [1, 2, 3, 4] [5] _ rfl rfl (by decide) (by decide)
  obtain ⟨-, -, -, -, hreplace⟩ :=
    value_addAll 7 [[1, 2], [3, 4, 0xf6], [0xf2, 5]] (by decide)
  exact ⟨hvalue, hzero, hreplace [0x102] 0x304 [0xf6f2, 0x500] 0x305 _ (by decide) (by decide)
    (by decide) (by decide) hzero⟩

end InternetChecksum

end Sponge
