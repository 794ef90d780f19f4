import Mathlib.Data.Nat.Bitwise
import Sponge.IPv4
import Sponge.TCPWire

set_option autoImplicit false

/-! # The layout of the headers

`ofBytes` says where each field of a header stands on the wire, without a parser. The parsers of
the fixed fields read exactly these. -/

namespace Sponge

open NetParser

/-- The number in the `len` bytes at the offset `off`. -/
def field (b : Bytes) (off len : Nat) : Nat := BigEndian.value ((b.drop off).take len)

theorem field_lt (b : Bytes) (off len : Nat) : field b off len < 256 ^ len := by
  refine (BigEndian.value_lt _).trans_le (Nat.pow_le_pow_right (by norm_num) ?_)
  rw [List.length_take]
  exact Nat.min_le_left _ _

/-- A field in two parts. -/
theorem field_add {b : Bytes} {off : Nat} (n m : Nat) (h : off + (n + m) ≤ b.length) :
    field b off (n + m) = field b off n * 256 ^ m + field b (off + n) m := by
  have hlen : ((b.drop (off + n)).take m).length = m := by
    rw [List.length_take, List.length_drop]
    omega
  unfold field
  rw [List.take_add, BigEndian.value_append, List.drop_drop, hlen]

/-- Two bytes at the front are a word. -/
theorem InternetChecksum.words_drop {b : Bytes} {k : Nat} (h : k + 2 ≤ b.length) :
    words (b.drop k) = field b k 2 :: words (b.drop (k + 2)) := by
  unfold field
  rw [← List.drop_drop]
  have hlen : 2 ≤ (b.drop k).length := by
    rw [List.length_drop]
    omega
  match b.drop k, hlen with
  | x :: y :: l, _ => simp [words, BigEndian.value]

/-- A bit is tested with a mask. -/
theorem and_two_pow_eq_zero_iff (n i : Nat) : n &&& 2 ^ i = 0 ↔ n.testBit i = false := by
  rw [Nat.and_two_pow]
  cases n.testBit i <;> simp

theorem mask8_eq_testBit {n i : Nat} (hn : n < 2 ^ 8) (hi : i < 8) :
    (UInt8.ofNat n &&& UInt8.ofNat (2 ^ i) != 0) = n.testBit i := by
  have hpow : 2 ^ i < 2 ^ 8 := Nat.pow_lt_pow_right (by norm_num) hi
  rw [Bool.eq_iff_iff, bne_iff_ne, ne_eq, ← UInt8.toNat_inj, UInt8.toNat_and,
    UInt8.toNat_ofNat_of_lt' hn, UInt8.toNat_ofNat_of_lt' hpow]
  show ¬n &&& 2 ^ i = 0 ↔ _
  rw [and_two_pow_eq_zero_iff, Bool.not_eq_false]

theorem mask16_eq_testBit {n i : Nat} (hn : n < 2 ^ 16) (hi : i < 16) :
    (UInt16.ofNat n &&& UInt16.ofNat (2 ^ i) != 0) = n.testBit i := by
  have hpow : 2 ^ i < 2 ^ 16 := Nat.pow_lt_pow_right (by norm_num) hi
  rw [Bool.eq_iff_iff, bne_iff_ne, ne_eq, ← UInt16.toNat_inj, UInt16.toNat_and,
    UInt16.toNat_ofNat_of_lt' hn, UInt16.toNat_ofNat_of_lt' hpow]
  show ¬n &&& 2 ^ i = 0 ↔ _
  rw [and_two_pow_eq_zero_iff, Bool.not_eq_false]

/-- The upper half of a byte. -/
theorem shiftRight4_eq {n : Nat} (hn : n < 2 ^ 8) :
    UInt8.ofNat n >>> 4 = UInt8.ofNat (n / 16) := by
  have hdiv : n / 16 < 2 ^ 8 := by omega
  apply UInt8.toNat_inj.mp
  rw [UInt8.toNat_shiftRight, UInt8.toNat_ofNat_of_lt' hn, UInt8.toNat_ofNat_of_lt' hdiv]
  exact Nat.shiftRight_eq_div_pow n 4

/-- The lower half of a byte. -/
theorem and15_eq {n : Nat} (hn : n < 2 ^ 8) : UInt8.ofNat n &&& 0x0f = UInt8.ofNat (n % 16) := by
  have hmod : n % 16 < 2 ^ 8 := by omega
  apply UInt8.toNat_inj.mp
  rw [UInt8.toNat_and, UInt8.toNat_ofNat_of_lt' hn, UInt8.toNat_ofNat_of_lt' hmod]
  exact Nat.and_two_pow_sub_one_eq_mod n 4

theorem and8191_eq {n : Nat} (hn : n < 2 ^ 16) :
    UInt16.ofNat n &&& 0x1fff = UInt16.ofNat (n % 2 ^ 13) := by
  have hmod : n % 2 ^ 13 < 2 ^ 16 := by omega
  apply UInt16.toNat_inj.mp
  rw [UInt16.toNat_and, UInt16.toNat_ofNat_of_lt' hn, UInt16.toNat_ofNat_of_lt' hmod]
  exact Nat.and_two_pow_sub_one_eq_mod n 13

/-! ## TCP headers -/

namespace TCPHeader

/-- The header that the first 20 bytes encode. -/
def ofBytes (b : Bytes) : TCPHeader where
  sport := UInt16.ofNat (field b 0 2)
  dport := UInt16.ofNat (field b 2 2)
  seqno := ⟨BitVec.ofNat 32 (field b 4 4)⟩
  ackno := ⟨BitVec.ofNat 32 (field b 8 4)⟩
  doff := UInt8.ofNat (field b 12 1 / 16)
  urg := (field b 13 1).testBit 5
  ack := (field b 13 1).testBit 4
  psh := (field b 13 1).testBit 3
  rst := (field b 13 1).testBit 2
  syn := (field b 13 1).testBit 1
  fin := (field b 13 1).testBit 0
  win := UInt16.ofNat (field b 14 2)
  cksum := UInt16.ofNat (field b 16 2)
  uptr := UInt16.ofNat (field b 18 2)

theorem reads_parseFields : Reads parseFields length ofBytes := by
  unfold parseFields
  refine Reads.congr (reads_u16.bind fun _ => reads_u16.bind fun _ => reads_u32.bind fun _ =>
    reads_u32.bind fun _ => reads_u8.bind fun _ => reads_u8.bind fun _ => reads_u16.bind fun _ =>
    reads_u16.bind fun _ => reads_u16.bind fun _ => reads_pure _) rfl (fun b => ?_)
  have hdoff : field b 12 1 < 2 ^ 8 := field_lt b 12 1
  have hflags : field b 13 1 < 2 ^ 8 := field_lt b 13 1
  simp only [List.drop_drop, ofBytes]
  congr 1
  · exact shiftRight4_eq hdoff
  · exact mask8_eq_testBit hflags (i := 5) (by norm_num)
  · exact mask8_eq_testBit hflags (i := 4) (by norm_num)
  · exact mask8_eq_testBit hflags (i := 3) (by norm_num)
  · exact mask8_eq_testBit hflags (i := 2) (by norm_num)
  · exact mask8_eq_testBit hflags (i := 1) (by norm_num)
  · exact mask8_eq_testBit hflags (i := 0) (by norm_num)

end TCPHeader

/-! ## IPv4 headers -/

namespace IPv4Header

/-- The header that the first 20 bytes encode. -/
def ofBytes (b : Bytes) : IPv4Header where
  ver := UInt8.ofNat (field b 0 1 / 16)
  hlen := UInt8.ofNat (field b 0 1 % 16)
  tos := UInt8.ofNat (field b 1 1)
  len := UInt16.ofNat (field b 2 2)
  id := UInt16.ofNat (field b 4 2)
  df := (field b 6 2).testBit 14
  mf := (field b 6 2).testBit 13
  offset := UInt16.ofNat (field b 6 2 % 2 ^ 13)
  ttl := UInt8.ofNat (field b 8 1)
  proto := UInt8.ofNat (field b 9 1)
  cksum := UInt16.ofNat (field b 10 2)
  src := UInt32.ofNat (field b 12 4)
  dst := UInt32.ofNat (field b 16 4)

theorem reads_parseFields : Reads parseFields length ofBytes := by
  unfold parseFields
  refine Reads.congr (reads_u8.bind fun _ => reads_u8.bind fun _ => reads_u16.bind fun _ =>
    reads_u16.bind fun _ => reads_u16.bind fun _ => reads_u8.bind fun _ => reads_u8.bind fun _ =>
    reads_u16.bind fun _ => reads_u32.bind fun _ => reads_u32.bind fun _ => reads_pure _) rfl
    (fun b => ?_)
  have hfirst : field b 0 1 < 2 ^ 8 := field_lt b 0 1
  have hfo : field b 6 2 < 2 ^ 16 := field_lt b 6 2
  simp only [List.drop_drop, ofBytes]
  congr 1
  · exact shiftRight4_eq hfirst
  · exact and15_eq hfirst
  · exact mask16_eq_testBit hfo (i := 14) (by norm_num)
  · exact mask16_eq_testBit hfo (i := 13) (by norm_num)
  · exact and8191_eq hfo

end IPv4Header

end Sponge
