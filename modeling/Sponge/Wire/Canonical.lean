import Sponge.Wire.RoundTrip

set_option autoImplicit false

/-! # Writing back what was read

A segment or a datagram that was parsed is serialized again. The headers keep neither the reserved
bits nor the options, and the checksum is computed anew, so that the bytes come back exactly if they
are canonical (`serialize_parse_iff` and `serialize_parse_iff_wellFormed`). -/

namespace Sponge

/-- A field that is written again. -/
theorem bytes_field {b : Bytes} {off len : Nat} (h : off + len ≤ b.length) :
    BigEndian.bytes len (field b off len) = (b.drop off).take len := by
  have hlen : ((b.drop off).take len).length = len := by
    rw [List.length_take, List.length_drop]
    omega
  have hbytes := BigEndian.bytes_value ((b.drop off).take len)
  rwa [hlen] at hbytes

theorem u8_field {b : Bytes} {off : Nat} (h : off + 1 ≤ b.length) :
    NetUnparser.u8 (UInt8.ofNat (field b off 1)) = (b.drop off).take 1 := by
  rw [NetUnparser.u8, UInt8.toNat_ofNat_of_lt' (field_lt b off 1), bytes_field h]

theorem u16_field {b : Bytes} {off : Nat} (h : off + 2 ≤ b.length) :
    NetUnparser.u16 (UInt16.ofNat (field b off 2)) = (b.drop off).take 2 := by
  rw [NetUnparser.u16, UInt16.toNat_ofNat_of_lt' (field_lt b off 2), bytes_field h]

theorem u32_field {b : Bytes} {off : Nat} (h : off + 4 ≤ b.length) :
    NetUnparser.u32 (UInt32.ofNat (field b off 4)) = (b.drop off).take 4 := by
  rw [NetUnparser.u32, UInt32.toNat_ofNat_of_lt' (field_lt b off 4), bytes_field h]

/-- Fields one after the other. -/
theorem take_append_field (b : Bytes) (n m : Nat) :
    b.take n ++ (b.drop n).take m = b.take (n + m) :=
  List.take_add.symm

namespace InternetChecksum

/-- The value that is filled in for a valid checksum is the one that was there, unless that is the
word of ones: both kinds of zero are valid, and only the other one is written. -/
theorem value_zeros {start : UInt32} {pre post : Bytes} {c : UInt16} (heven : pre.length % 2 = 0)
    (hfits : start.toNat + (words (pre ++ (BigEndian.bytes 2 c.toNat ++ post))).sum < 2 ^ 32)
    (hcheck : ((new start).add (pre ++ (BigEndian.bytes 2 c.toNat ++ post))).value = 0)
    (hpos : 0 < (words (pre ++ ([0, 0] ++ post))).sum) :
    ((new start).add (pre ++ ([0, 0] ++ post))).value = c ↔ c ≠ 0xffff := by
  have hfill := sum_words_fill heven post c
  have hc := c.toNat_lt
  have hfits' : start.toNat + (words (pre ++ ([0, 0] ++ post))).sum < 2 ^ 32 := by omega
  have hreduces := reduces_add hfits'
  have hmod := ((value_eq_zero_iff_mod hfits).mp hcheck).2
  have hle := hreduces.le
  have hmod' := hreduces.mod
  have hzero := hreduces.zero_iff
  rw [hfill] at hmod
  rw [← UInt16.toNat_inj, ne_eq, ← UInt16.toNat_inj, value_toNat,
    show (0xffff : UInt16).toNat = 0xffff from rfl]
  omega

end InternetChecksum

/-! ## Segments -/

namespace TCPHeader

/-- The bits of a header that the parser skips are zeros. -/
structure Canonical (b : Bytes) : Prop where
  reserved : field b 12 1 % 16 = 0
  flags : field b 13 1 < 64
  options : (b.drop 20).take (4 * (ofBytes b).doff.toNat - 20)
    = List.replicate (4 * (ofBytes b).doff.toNat - 20) 0

/-- The flags that the parser knows are the lower six bits. -/
theorem flagByte_ofBytes (b : Bytes) : (ofBytes b).flagByte.toNat = field b 13 1 % 64 := by
  have hlt : field b 13 1 < 256 := field_lt b 13 1
  have key : ∀ n < 256, (flagByte {
      urg := n.testBit 5, ack := n.testBit 4, psh := n.testBit 3, rst := n.testBit 2
      syn := n.testBit 1, fin := n.testBit 0 }).toNat = n % 64 := by
    decide +kernel
  exact key _ hlt

theorem doff_ofBytes (b : Bytes) : (ofBytes b).doff.toNat = field b 12 1 / 16 := by
  have hlt : field b 12 1 < 256 := field_lt b 12 1
  exact UInt8.toNat_ofNat_of_lt' (by show _ < 256; omega)

/-- The bytes of the fields that were read. -/
theorem fixedBytes_ofBytes {b : Bytes} (hlong : 20 ≤ b.length) (hreserved : field b 12 1 % 16 = 0)
    (hflags : field b 13 1 < 64) : (ofBytes b).fixedBytes = b.take 20 := by
  have hdoff : NetUnparser.u8 ((ofBytes b).doff <<< 4) = (b.drop 12).take 1 := by
    rw [← u8_field (by omega)]
    congr 1
    have hlt : field b 12 1 < 256 := field_lt b 12 1
    rw [← UInt8.toNat_inj, UInt8.toNat_shiftLeft, doff_ofBytes, UInt8.toNat_ofNat']
    show (field b 12 1 / 16) <<< 4 % 2 ^ 8 = _
    rw [Nat.shiftLeft_eq]
    omega
  have hflagByte : NetUnparser.u8 (ofBytes b).flagByte = (b.drop 13).take 1 := by
    rw [← u8_field (by omega)]
    congr 1
    have hlt : field b 13 1 < 256 := field_lt b 13 1
    rw [← UInt8.toNat_inj, flagByte_ofBytes, UInt8.toNat_ofNat']
    omega
  have hu32 : ∀ off, off + 4 ≤ b.length →
      NetUnparser.u32 ⟨BitVec.ofNat 32 (field b off 4)⟩ = (b.drop off).take 4 :=
    fun off h => u32_field h
  unfold fixedBytes
  rw [hdoff, hflagByte]
  simp only [ofBytes]
  rw [u16_field (by omega), u16_field (by omega), hu32 4 (by omega), hu32 8 (by omega),
    u16_field (by omega), u16_field (by omega), u16_field (by omega), List.drop_zero,
    take_append_field, take_append_field, take_append_field, take_append_field, take_append_field,
    take_append_field, take_append_field, take_append_field]

/-- The fields of bytes that were written. -/
theorem fields_fixedBytes (h : TCPHeader) (b : Bytes) :
    field (h.fixedBytes ++ b) 12 1 % 16 = 0 ∧ field (h.fixedBytes ++ b) 13 1 < 64 := by
  have hflags : h.flagByte.toNat < 64 := by
    unfold flagByte
    cases h.urg <;> cases h.ack <;> cases h.psh <;> cases h.rst <;> cases h.syn <;> cases h.fin <;>
      decide
  have hshift : (h.doff <<< 4).toNat % 256 % 16 = 0 := by
    rw [UInt8.toNat_shiftLeft]
    show h.doff.toNat <<< 4 % 2 ^ 8 % 256 % 16 = 0
    rw [Nat.shiftLeft_eq]
    omega
  unfold fixedBytes
  simp (disch := simp) only [NetUnparser.u8, NetUnparser.u16, NetUnparser.u32, List.append_assoc,
    field_append_of_le, field_bytes_append, BigEndian.length_bytes, Nat.reduceSub, Nat.reducePow]
  exact ⟨hshift, (Nat.mod_le _ _).trans_lt hflags⟩

end TCPHeader

namespace TCPSegment

open TCPHeader

/-- The zeros in the place of the options. -/
def zeros (h : TCPHeader) : Bytes := List.replicate (4 * h.doff.toNat - 20) 0

/-- The checksum that is filled in. -/
def filledIn (seg : TCPSegment) (sum : UInt32) : UInt16 :=
  ((InternetChecksum.new sum).add
    ({ seg.header with cksum := 0 }.fixedBytes ++ (zeros seg.header ++ seg.payload))).value

/-- What is written for a segment, as one string. -/
theorem serialize_eq (seg : TCPSegment) (sum : UInt32) (hdoff : 5 ≤ seg.header.doff.toNat) :
    (seg.serialize sum).map BufferList.concatenate
      = .ok ({ seg.header with cksum := seg.filledIn sum }.fixedBytes ++
        (zeros seg.header ++ seg.payload)) := by
  have hserialize : ∀ v : UInt16, ({ seg.header with cksum := v } : TCPHeader).serialize
      = .ok ({ seg.header with cksum := v }.fixedBytes ++ zeros seg.header) := by
    intro v
    exact TCPHeader.serialize_eq (h := { seg.header with cksum := v }) hdoff
  have hvalue : (((InternetChecksum.new sum).add
      ({ seg.header with cksum := 0 }.fixedBytes ++ zeros seg.header)).add seg.payload).value
        = seg.filledIn sum := by
    rw [← InternetChecksum.add_append, filledIn, List.append_assoc]
  have hstep : seg.serialize sum = (do
      let first ← ({ seg.header with cksum := 0 } : TCPHeader).serialize
      let last ← ({ seg.header with
        cksum := (((InternetChecksum.new sum).add first).add seg.payload).value } :
          TCPHeader).serialize
      return [last, seg.payload]) := rfl
  have hlist : seg.serialize sum = .ok
      [{ seg.header with cksum := seg.filledIn sum }.fixedBytes ++ zeros seg.header,
        seg.payload] := by
    rw [hstep, hserialize]
    show (do
      let last ← ({ seg.header with cksum := (((InternetChecksum.new sum).add
        ({ seg.header with cksum := 0 }.fixedBytes ++ zeros seg.header)).add seg.payload).value } :
          TCPHeader).serialize
      return [last, seg.payload]) = _
    rw [hvalue, hserialize]
    rfl
  rw [hlist]
  simp only [Except.map, BufferList.concatenate, List.flatten_cons, List.flatten_nil,
    List.append_nil, List.append_assoc]

/-- The data offset is in one of the words. -/
theorem sum_words_pos {h : TCPHeader} (hdoff : 5 ≤ h.doff.toNat) (hdoff' : h.doff.toNat < 16)
    (rest : Bytes) : 0 < (InternetChecksum.words (h.fixedBytes ++ rest)).sum := by
  set b := h.fixedBytes ++ rest with hb
  have hlong : 20 ≤ b.length := by
    rw [hb, List.length_append, length_fixedBytes]
    exact Nat.le_add_right _ _
  have hword : field b 12 2 = field b 12 1 * 256 + field b 13 1 := field_add 1 1 (by omega)
  have hbyte : field b 12 1 / 16 = h.doff.toNat := by
    rw [← doff_ofBytes, hb, ofBytes_fixedBytes h hdoff']
  have hsplit : InternetChecksum.words b
      = InternetChecksum.words (b.take 12) ++ InternetChecksum.words (b.drop 12) := by
    have heven : (b.take 12).length % 2 = 0 := by
      rw [List.length_take, Nat.min_eq_left (by omega)]
    rw [← InternetChecksum.words_append heven, List.take_append_drop]
  rw [hsplit, InternetChecksum.words_drop (by omega), List.sum_append, List.sum_cons]
  omega

/-- The checksum that is filled in where a valid one was. -/
theorem filledIn_eq_iff {seg : TCPSegment} {sum : UInt32} (hdoff : 5 ≤ seg.header.doff.toNat)
    (hdoff' : seg.header.doff.toNat < 16) (hsum : sum.toNat < 2 ^ 19)
    (hlen : 4 * seg.header.doff.toNat + seg.payload.length ≤ 65535)
    (hcheck : ((InternetChecksum.new sum).add
      (seg.header.fixedBytes ++ (zeros seg.header ++ seg.payload))).value = 0) :
    seg.filledIn sum = seg.header.cksum ↔ seg.header.cksum ≠ 0xffff := by
  obtain ⟨pre, hpre, hfixed⟩ := seg.header.exists_fixedBytes_eq
  set post := NetUnparser.u16 seg.header.uptr ++ (zeros seg.header ++ seg.payload) with hpost
  have hbytes : ∀ v : UInt16, { seg.header with cksum := v }.fixedBytes ++
      (zeros seg.header ++ seg.payload) = pre ++ (BigEndian.bytes 2 v.toNat ++ post) := by
    intro v
    rw [hfixed, hpost]
    simp only [List.append_assoc]
  have hzeros : BigEndian.bytes 2 (0 : UInt16).toNat = [0, 0] := by decide
  have hpos := sum_words_pos (h := { seg.header with cksum := 0 }) hdoff hdoff'
    (zeros seg.header ++ seg.payload)
  have hold : seg.header.fixedBytes ++ (zeros seg.header ++ seg.payload)
      = pre ++ (BigEndian.bytes 2 seg.header.cksum.toNat ++ post) := hbytes seg.header.cksum
  have hwords := InternetChecksum.sum_words_le
    (pre ++ (BigEndian.bytes 2 seg.header.cksum.toNat ++ post))
  have hlength : (pre ++ (BigEndian.bytes 2 seg.header.cksum.toNat ++ post)).length
      = 4 * seg.header.doff.toNat + seg.payload.length := by
    rw [← hold]
    simp only [List.length_append, length_fixedBytes, zeros, List.length_replicate]
    omega
  rw [hlength] at hwords
  rw [hold] at hcheck
  rw [hbytes, hzeros] at hpos
  unfold filledIn
  rw [hbytes, hzeros]
  exact InternetChecksum.value_zeros (by rw [hpre]) (by omega) hcheck hpos

/-- **What was read is written back** exactly if it is canonical, and its checksum is not the one
of the two zeros that is never filled in. Nothing is written for a data offset that is too small. -/
theorem serialize_parse_iff (seg : TCPSegment) (b : Bytes) (sum : UInt32) (hb : b.length ≤ 65535)
    (hsum : sum = 0 ∨ ∃ h : IPv4Header, sum = h.pseudoCksum)
    (hok : (seg.parse b sum).2 = .noError) :
    ((seg.parse b sum).1.serialize sum).map BufferList.concatenate = .ok b ↔
      5 ≤ (ofBytes b).doff.toNat ∧ Canonical b ∧ (ofBytes b).cksum ≠ 0xffff := by
  have hcheck := value_of_noError hok
  have hsmall : sum.toNat < 2 ^ 19 := by
    rcases hsum with rfl | ⟨h, rfl⟩
    · norm_num
    · exact h.pseudoCksum_lt
  obtain ⟨hlong, hopt⟩ := (parse_eq_noError_iff seg hcheck).mp hok
  have hrun := parse_run_of_le (b := b) hlong
  rw [parse_eq seg hcheck, hrun.1, hrun.2]
  by_cases hdoff : 5 ≤ (ofBytes b).doff.toNat
  swap
  · -- the header cannot be serialized
    have hdoff' : (ofBytes b).doff < 5 := Nat.lt_of_not_le hdoff
    rw [if_pos hdoff']
    constructor
    · intro hserialize
      have herror : ({ header := ofBytes b, payload := b.drop TCPHeader.length } :
          TCPSegment).serialize sum = .error "TCP header too short" := by
        have hheader : ({ ofBytes b with cksum := 0 } : TCPHeader).serialize
            = .error "TCP header too short" := if_pos hdoff'
        show ({ ofBytes b with cksum := 0 } : TCPHeader).serialize >>= _ = _
        rw [hheader]
        rfl
      rw [herror] at hserialize
      cases hserialize
    · rintro ⟨hge, -⟩
      exact absurd hge hdoff
  have hdoff' : ¬(ofBytes b).doff < 5 := Nat.not_lt.mpr hdoff
  have hdoff16 : (ofBytes b).doff.toNat < 16 := by
    have hlt : field b 12 1 < 256 := field_lt b 12 1
    rw [doff_ofBytes]
    omega
  have hfits := hopt hdoff
  rw [if_neg hdoff', if_pos hfits]
  set parsed : TCPSegment :=
    { header := ofBytes b, payload := b.drop (4 * (ofBytes b).doff.toNat) } with hparsed
  show (parsed.serialize sum).map BufferList.concatenate = .ok b ↔ _
  rw [serialize_eq parsed sum hdoff, Except.ok.injEq]
  -- the bytes in three parts
  have hparts : b = b.take 20 ++ ((b.drop 20).take (4 * (ofBytes b).doff.toNat - 20) ++
      parsed.payload) := by
    have hdrop : (b.drop 20).drop (4 * (ofBytes b).doff.toNat - 20) = parsed.payload := by
      rw [List.drop_drop]
      congr 1
      omega
    rw [← hdrop, List.take_append_drop, List.take_append_drop]
  have hlenParsed : 4 * parsed.header.doff.toNat + parsed.payload.length ≤ 65535 := by
    show 4 * (ofBytes b).doff.toNat + (b.drop _).length ≤ 65535
    rw [List.length_drop]
    omega
  have hfilled : b = parsed.header.fixedBytes ++ (zeros parsed.header ++ parsed.payload) →
      (parsed.filledIn sum = parsed.header.cksum ↔ parsed.header.cksum ≠ 0xffff) := by
    intro hwritten
    apply filledIn_eq_iff hdoff hdoff16 hsmall hlenParsed
    rwa [← hwritten]
  constructor
  · intro hwritten
    have hheader := ofBytes_fixedBytes { parsed.header with cksum := parsed.filledIn sum } hdoff16
      (zeros parsed.header ++ parsed.payload)
    rw [hwritten] at hheader
    have hcksum : parsed.filledIn sum = parsed.header.cksum :=
      (congrArg TCPHeader.cksum hheader).symm
    have hsame : { parsed.header with cksum := parsed.filledIn sum } = parsed.header := hheader.symm
    have hfields := fields_fixedBytes { parsed.header with cksum := parsed.filledIn sum }
      (zeros parsed.header ++ parsed.payload)
    rw [hwritten] at hfields
    rw [hsame] at hwritten
    have hoptions : (b.drop 20).take (4 * (ofBytes b).doff.toNat - 20) = zeros parsed.header := by
      have hdrop : b.drop 20 = zeros parsed.header ++ parsed.payload := by
        rw [← hwritten]
        exact List.drop_left' (length_fixedBytes _)
      rw [hdrop]
      exact List.take_left' List.length_replicate
    exact ⟨hdoff, ⟨hfields.1, hfields.2, hoptions⟩, (hfilled hwritten.symm).mp hcksum⟩
  · rintro ⟨-, hcanonical, hcksum⟩
    have hwritten : b = parsed.header.fixedBytes ++ (zeros parsed.header ++ parsed.payload) := by
      have hfixed : parsed.header.fixedBytes = b.take 20 :=
        fixedBytes_ofBytes hlong hcanonical.reserved hcanonical.flags
      have hoptions : zeros parsed.header = (b.drop 20).take (4 * (ofBytes b).doff.toNat - 20) :=
        hcanonical.options.symm
      rw [hfixed, hoptions]
      exact hparts
    rw [(hfilled hwritten).mpr hcksum]
    exact hwritten.symm

/-- A segment without payload comes back, and one whose checksum is written as the other zero, or
with a reserved bit, does not. -/
theorem serialize_parse_empty :
    let segment : Bytes → Bytes := fun end' =>
      [0, 0, 0, 0, 0, 0, 0, 0, 0, 0, 0, 0, 0x50] ++ end'
    (((parse {} (segment [0, 0, 0, 0xaf, 0xff, 0, 0]) 0).1.serialize 0).map BufferList.concatenate
      = .ok (segment [0, 0, 0, 0xaf, 0xff, 0, 0])) ∧
    ¬(((parse {} (segment [0, 0xaf, 0xff, 0xff, 0xff, 0, 0]) 0).1.serialize 0).map
      BufferList.concatenate = .ok (segment [0, 0xaf, 0xff, 0xff, 0xff, 0, 0])) ∧
    ¬(((parse {} (segment [0x40, 0, 0, 0xaf, 0xbf, 0, 0]) 0).1.serialize 0).map
      BufferList.concatenate = .ok (segment [0x40, 0, 0, 0xaf, 0xbf, 0, 0])) := by
  intro segment
  refine ⟨?_, ?_, ?_⟩
  · rw [serialize_parse_iff _ _ 0 (by decide) (Or.inl rfl) (by decide +kernel)]
    exact ⟨by decide, ⟨by decide, by decide, by decide⟩, by decide⟩
  · rw [serialize_parse_iff _ _ 0 (by decide) (Or.inl rfl) (by decide +kernel)]
    exact fun h => h.2.2 (by decide)
  · rw [serialize_parse_iff _ _ 0 (by decide) (Or.inl rfl) (by decide +kernel)]
    exact fun h => absurd h.2.1.flags (by decide)

end TCPSegment

/-! ## Datagrams -/

namespace IPv4Header

/-- The bits of a header that the parser skips are zeros. -/
structure Canonical (b : Bytes) : Prop where
  reserved : field b 6 2 < 2 ^ 15
  options : (b.drop 20).take (4 * (ofBytes b).hlen.toNat - 20)
    = List.replicate (4 * (ofBytes b).hlen.toNat - 20) 0

/-- The two flags that the parser knows, and the offset. -/
theorem foVal_eq {n : Nat} (hn : n < 2 ^ 15) :
    ((n.testBit 14).toNat * 2 + (n.testBit 13).toNat) * 8192 + n % 2 ^ 13 = n := by
  have key : ∀ q < 4, (q.testBit 1).toNat * 2 + (q.testBit 0).toNat = q := by decide
  have hbits : (n.testBit 14).toNat * 2 + (n.testBit 13).toNat = n / 2 ^ 13 := by
    rw [← Nat.testBit_div_two_pow (n := 13) n 1, ← Nat.testBit_div_two_pow (n := 13) n 0]
    exact key _ (by omega)
  omega

theorem nibbles_ofBytes (b : Bytes) :
    (ofBytes b).ver.toNat = field b 0 1 / 16 ∧ (ofBytes b).hlen.toNat = field b 0 1 % 16 ∧
      (ofBytes b).offset.toNat = field b 6 2 % 2 ^ 13 := by
  have hlt : field b 0 1 < 256 := field_lt b 0 1
  exact ⟨UInt8.toNat_ofNat_of_lt' (by show _ < 256; omega),
    UInt8.toNat_ofNat_of_lt' (by show _ < 256; omega),
    UInt16.toNat_ofNat_of_lt' (by show _ < 65536; omega)⟩

theorem fixedBytes_ofBytes {b : Bytes} (hlong : 20 ≤ b.length) (hreserved : field b 6 2 < 2 ^ 15) :
    (ofBytes b).fixedBytes = b.take 20 := by
  obtain ⟨hver, hhlen, hoff⟩ := nibbles_ofBytes b
  have hlt : field b 0 1 < 256 := field_lt b 0 1
  have hfirst : NetUnparser.u8 (((ofBytes b).ver <<< 4) ||| ((ofBytes b).hlen &&& 0xf))
      = (b.drop 0).take 1 := by
    rw [← u8_field (by omega)]
    congr 1
    rw [← UInt8.toNat_inj, toNat_firstByte (by omega) (by omega), hver, hhlen, UInt8.toNat_ofNat']
    omega
  have hfo : NetUnparser.u16 ((if (ofBytes b).df then 0x4000 else 0) |||
      (if (ofBytes b).mf then 0x2000 else 0) ||| ((ofBytes b).offset &&& 0x1fff))
        = (b.drop 6).take 2 := by
    rw [← u16_field (by omega)]
    congr 1
    rw [← UInt16.toNat_inj, toNat_foVal _ _ (by omega), hoff, UInt16.toNat_ofNat']
    show (((field b 6 2).testBit 14).toNat * 2 + ((field b 6 2).testBit 13).toNat) * 8192 + _ = _
    rw [foVal_eq hreserved]
    omega
  unfold fixedBytes
  rw [hfirst, hfo]
  simp only [ofBytes]
  rw [u8_field (by omega), u16_field (by omega), u16_field (by omega), u8_field (by omega),
    u8_field (by omega), u16_field (by omega), u32_field (by omega), u32_field (by omega),
    List.drop_zero, take_append_field, take_append_field, take_append_field, take_append_field,
    take_append_field, take_append_field, take_append_field, take_append_field, take_append_field]

/-- The reserved flag of bytes that were written. -/
theorem field_fixedBytes (h : IPv4Header) (b : Bytes) : field (h.fixedBytes ++ b) 6 2 < 2 ^ 15 := by
  have hfo : ((if h.df then 0x4000 else 0) ||| (if h.mf then 0x2000 else 0) |||
      (h.offset &&& 0x1fff) : UInt16).toNat < 2 ^ 15 := by
    have hand : (h.offset &&& 0x1fff : UInt16).toNat < 2 ^ 13 := by
      rw [UInt16.toNat_and]
      exact Nat.and_lt_two_pow _ (by decide)
    have hflags : ((if h.df then 0x4000 else 0) ||| (if h.mf then 0x2000 else 0) : UInt16).toNat
        < 2 ^ 15 := by
      cases h.df <;> cases h.mf <;> decide
    rw [UInt16.toNat_or]
    exact Nat.or_lt_two_pow hflags (hand.trans (by norm_num))
  unfold fixedBytes
  simp (disch := simp) only [NetUnparser.u8, NetUnparser.u16, NetUnparser.u32, List.append_assoc,
    field_append_of_le, field_bytes_append, BigEndian.length_bytes, Nat.reduceSub, Nat.reducePow]
  exact (Nat.mod_le _ _).trans_lt hfo

/-- The fixed bytes are the checksum, after ten bytes, and the addresses. -/
theorem exists_fixedBytes_eq (h : IPv4Header) : ∃ pre : Bytes, pre.length = 10 ∧ ∀ v : UInt16,
    { h with cksum := v }.fixedBytes
      = pre ++ (BigEndian.bytes 2 v.toNat ++ (NetUnparser.u32 h.src ++ NetUnparser.u32 h.dst)) := by
  refine ⟨NetUnparser.u8 ((h.ver <<< 4) ||| (h.hlen &&& 0xf)) ++ NetUnparser.u8 h.tos ++
    NetUnparser.u16 h.len ++ NetUnparser.u16 h.id ++
    NetUnparser.u16 ((if h.df then 0x4000 else 0) ||| (if h.mf then 0x2000 else 0) |||
      (h.offset &&& 0x1fff)) ++ NetUnparser.u8 h.ttl ++ NetUnparser.u8 h.proto, ?_, ?_⟩
  · simp [NetUnparser.u8, NetUnparser.u16]
  · intro v
    rw [← List.append_assoc, ← List.append_assoc]
    rfl

end IPv4Header

namespace IPv4Datagram

open IPv4Header

/-- The zeros in the place of the options. -/
def zeros (h : IPv4Header) : Bytes := List.replicate (4 * h.hlen.toNat - 20) 0

/-- The checksum that is filled in. -/
def filledIn (h : IPv4Header) : UInt16 :=
  ((InternetChecksum.new 0).add ({ h with cksum := 0 }.fixedBytes ++ zeros h)).value

/-- A datagram can be serialized. -/
structure Serializable (d : IPv4Datagram) : Prop where
  size : BufferList.size d.payload = d.header.payloadLength.toNat
  ver : d.header.ver = 4
  hlen_ge : 5 ≤ d.header.hlen.toNat

theorem serialize_eq {d : IPv4Datagram} (h : d.Serializable) :
    d.serialize.map BufferList.concatenate
      = .ok ({ d.header with cksum := filledIn d.header }.fixedBytes ++
        (zeros d.header ++ BufferList.concatenate d.payload)) := by
  have hserialize : ∀ v : UInt16, ({ d.header with cksum := v } : IPv4Header).serialize
      = .ok ({ d.header with cksum := v }.fixedBytes ++ zeros d.header) := by
    intro v
    have hge := h.hlen_ge
    have hlength := IPv4Header.length_fixedBytes { d.header with cksum := v }
    have hshort : ¬4 * d.header.hlen.toNat < IPv4Header.length := by
      show ¬4 * d.header.hlen.toNat < 20
      omega
    unfold IPv4Header.serialize NetUnparser.resize
    rw [if_neg (not_not.mpr h.ver), if_neg hshort, hlength,
      List.take_of_length_le (by rw [hlength]; show 20 ≤ 4 * d.header.hlen.toNat; omega)]
    rfl
  have hlist : d.serialize = .ok
      (({ d.header with cksum := filledIn d.header }.fixedBytes ++ zeros d.header) :: d.payload) := by
    unfold serialize
    rw [if_neg (not_not.mpr h.size)]
    simp only [hserialize]
    rfl
  rw [hlist]
  simp only [Except.map, BufferList.concatenate, List.flatten_cons, List.append_assoc]

theorem serializable_of_serialize {d : IPv4Datagram} {out : List Bytes} (h : d.serialize = .ok out) :
    d.Serializable := by
  by_contra hnot
  unfold serialize at h
  split_ifs at h with hsize
  have herror : ∃ e, ({ d.header with cksum := 0 } : IPv4Header).serialize = .error e := by
    unfold IPv4Header.serialize
    by_cases hver : d.header.ver ≠ 4
    · exact ⟨_, if_pos hver⟩
    · rw [if_neg hver]
      have hshort : 4 * d.header.hlen.toNat < IPv4Header.length := by
        by_contra hlong
        have hlong' : ¬4 * d.header.hlen.toNat < 20 := hlong
        exact hnot ⟨not_not.mp hsize, not_not.mp hver, by omega⟩
      exact ⟨_, if_pos hshort⟩
  obtain ⟨e, he⟩ := herror
  simp only [he, bind, Except.bind] at h
  cases h

/-- The version is in one of the words. -/
theorem sum_words_pos {h : IPv4Header} (hver : h.ver = 4) (hhlen : h.hlen.toNat < 16)
    (hoff : h.offset.toNat < 2 ^ 13) (rest : Bytes) :
    0 < (InternetChecksum.words (h.fixedBytes ++ rest)).sum := by
  have hver' : h.ver.toNat = 4 := by
    rw [hver]
    rfl
  set b := h.fixedBytes ++ rest with hb
  have hlong : 20 ≤ b.length := by
    rw [hb, List.length_append, IPv4Header.length_fixedBytes]
    exact Nat.le_add_right _ _
  have hword : field b 0 2 = field b 0 1 * 256 + field b 1 1 := field_add 1 1 (by omega)
  have hbyte : field b 0 1 / 16 = h.ver.toNat := by
    rw [← (nibbles_ofBytes b).1, hb, ofBytes_fixedBytes h (by omega) hhlen hoff]
  have hsplit := InternetChecksum.words_drop (b := b) (k := 0) (by omega)
  rw [List.drop_zero] at hsplit
  rw [hsplit, List.sum_cons]
  omega

/-- A header in parts, with its checksum at an even position. -/
theorem exists_bytes_eq (h : IPv4Header) (hhlen : h.hlen.toNat < 16) :
    ∃ pre post : Bytes, pre.length % 2 = 0 ∧
      (∀ v : UInt16, { h with cksum := v }.fixedBytes ++ zeros h
        = pre ++ (BigEndian.bytes 2 v.toNat ++ post)) ∧
      (InternetChecksum.words (pre ++ ([0, 0] ++ post))).sum + 0xffff < 2 ^ 32 := by
  obtain ⟨pre, hpre, hfixed⟩ := h.exists_fixedBytes_eq
  refine ⟨pre, (NetUnparser.u32 h.src ++ NetUnparser.u32 h.dst) ++ zeros h, by rw [hpre], ?_, ?_⟩
  · intro v
    rw [hfixed]
    simp only [List.append_assoc]
  · have hwords := InternetChecksum.sum_words_le
      (pre ++ ([0, 0] ++ ((NetUnparser.u32 h.src ++ NetUnparser.u32 h.dst) ++ zeros h)))
    simp only [List.length_append, hpre, List.length_cons, List.length_nil, NetUnparser.u32,
      BigEndian.length_bytes, zeros, List.length_replicate] at hwords
    simp only [NetUnparser.u32, zeros]
    omega

/-- The checksum that is filled in is valid. -/
theorem value_filledIn {h : IPv4Header} (hhlen : h.hlen.toNat < 16) (hcksum : filledIn h = h.cksum) :
    ((InternetChecksum.new 0).add (h.fixedBytes ++ zeros h)).value = 0 := by
  obtain ⟨pre, post, heven, hbytes, hfits⟩ := exists_bytes_eq h hhlen
  have hold : h.fixedBytes ++ zeros h = pre ++ (BigEndian.bytes 2 h.cksum.toNat ++ post) :=
    hbytes h.cksum
  have hzeros : BigEndian.bytes 2 (0 : UInt16).toNat = [0, 0] := by decide
  unfold filledIn at hcksum
  rw [hbytes, hzeros] at hcksum
  rw [hold]
  refine InternetChecksum.value_fill heven ?_ hcksum.symm
  rwa [UInt32.toNat_zero, Nat.zero_add]

/-- The checksum that is filled in where a valid one was. -/
theorem filledIn_eq_iff {h : IPv4Header} (hver : h.ver = 4) (hhlen : h.hlen.toNat < 16)
    (hoff : h.offset.toNat < 2 ^ 13)
    (hcheck : ((InternetChecksum.new 0).add (h.fixedBytes ++ zeros h)).value = 0) :
    filledIn h = h.cksum ↔ h.cksum ≠ 0xffff := by
  obtain ⟨pre, post, heven, hbytes, hfits⟩ := exists_bytes_eq h hhlen
  have hzeros : BigEndian.bytes 2 (0 : UInt16).toNat = [0, 0] := by decide
  have hpos := sum_words_pos (h := { h with cksum := 0 }) hver hhlen hoff (zeros h)
  have hold : h.fixedBytes ++ zeros h = pre ++ (BigEndian.bytes 2 h.cksum.toNat ++ post) :=
    hbytes h.cksum
  have hfill := InternetChecksum.sum_words_fill heven post h.cksum
  have hc := h.cksum.toNat_lt
  rw [hold] at hcheck
  rw [hbytes, hzeros] at hpos
  unfold filledIn
  rw [hbytes, hzeros]
  refine InternetChecksum.value_zeros heven ?_ hcheck hpos
  rw [UInt32.toNat_zero]
  omega

/-- The check of the header's checksum. -/
theorem value_eq_zero_iff {b : Bytes} {n : Nat} (hn : n ≤ 60) :
    ((InternetChecksum.new 0).add (b.take n)).value = 0 ↔
      InternetChecksum.checksum 0 (b.take n) = 0 := by
  have hwords := InternetChecksum.sum_words_le (b.take n)
  have hlen : (b.take n).length ≤ n := List.length_take_le _ _
  have hfits : (0 : UInt32).toNat + (InternetChecksum.words (b.take n)).sum < 2 ^ 32 := by
    rw [UInt32.toNat_zero]
    omega
  have hvalue := InternetChecksum.value_add hfits
  rw [UInt32.toNat_zero] at hvalue
  rw [← hvalue, ← UInt16.toNat_inj]
  rfl

/-- With fields in order the bytes come back if the checksum was valid and they are canonical. -/
theorem serialize_iff_of_fieldsOk {b : Bytes} (hlong : 20 ≤ b.length) (hok : FieldsOk b) :
    (({ header := ofBytes b, payload := [b.drop (4 * (ofBytes b).hlen.toNat)] } :
      IPv4Datagram).serialize).map BufferList.concatenate = .ok b ↔
        InternetChecksum.checksum 0 (b.take (4 * (ofBytes b).hlen.toNat)) = 0 ∧ Canonical b ∧
          (ofBytes b).cksum ≠ 0xffff := by
  obtain ⟨hver16, hhlen16, hoff13⟩ := nibbles_ofBytes b
  have hlt : field b 0 1 < 256 := field_lt b 0 1
  have hoff : (ofBytes b).offset.toNat < 2 ^ 13 := by omega
  have hhlen : (ofBytes b).hlen.toNat < 16 := by omega
  have hpayload := hok.payloadLength_eq
  obtain ⟨hfits, hver, hge, -⟩ := id hok
  have hserializable : ({ header := ofBytes b, payload := [b.drop (4 * (ofBytes b).hlen.toNat)] } :
      IPv4Datagram).Serializable := by
    refine ⟨?_, hver, hge⟩
    simp only [BufferList.size, List.map_cons, List.map_nil, List.sum_cons, List.sum_nil,
      Nat.add_zero, List.length_drop, hpayload]
  rw [serialize_eq hserializable, Except.ok.injEq]
  set h := ofBytes b with hh
  show { h with cksum := filledIn h }.fixedBytes ++
    (zeros h ++ BufferList.concatenate [b.drop (4 * h.hlen.toNat)]) = b ↔ _
  have hconcat : BufferList.concatenate [b.drop (4 * h.hlen.toNat)] = b.drop (4 * h.hlen.toNat) :=
    List.append_nil _
  rw [hconcat]
  have htake : b.take (4 * h.hlen.toNat)
      = b.take 20 ++ (b.drop 20).take (4 * h.hlen.toNat - 20) := by
    rw [take_append_field]
    congr 1
    omega
  have hfilled : b.take (4 * h.hlen.toNat) = h.fixedBytes ++ zeros h →
      InternetChecksum.checksum 0 (b.take (4 * h.hlen.toNat)) = 0 →
      (filledIn h = h.cksum ↔ h.cksum ≠ 0xffff) := by
    intro hwritten hcheck
    apply filledIn_eq_iff hver hhlen hoff
    rw [← hwritten]
    exact (value_eq_zero_iff (by omega)).mpr hcheck
  constructor
  · intro hwritten
    have hheader := ofBytes_fixedBytes { h with cksum := filledIn h } (by
      show h.ver.toNat < 16
      omega) hhlen hoff (zeros h ++ b.drop (4 * h.hlen.toNat))
    rw [hwritten, ← hh] at hheader
    have hcksum : filledIn h = h.cksum := (congrArg IPv4Header.cksum hheader).symm
    have hreserved := field_fixedBytes { h with cksum := filledIn h }
      (zeros h ++ b.drop (4 * h.hlen.toNat))
    rw [hwritten] at hreserved
    rw [← hheader] at hwritten
    have hfront : b.take (4 * h.hlen.toNat) = h.fixedBytes ++ zeros h := by
      rw [← List.append_assoc] at hwritten
      have hlength : (h.fixedBytes ++ zeros h).length = 4 * h.hlen.toNat := by
        simp only [List.length_append, IPv4Header.length_fixedBytes, zeros, List.length_replicate]
        omega
      have hcut := congrArg (List.take (4 * h.hlen.toNat)) hwritten
      rw [List.take_left' hlength] at hcut
      exact hcut.symm
    have hoptions : (b.drop 20).take (4 * h.hlen.toNat - 20) = zeros h := by
      have hparts := htake.symm.trans hfront
      exact (List.append_inj hparts (by
        rw [IPv4Header.length_fixedBytes, List.length_take, Nat.min_eq_left hlong])).2
    have hcheck : InternetChecksum.checksum 0 (b.take (4 * h.hlen.toNat)) = 0 := by
      rw [← value_eq_zero_iff (by omega), hfront]
      exact value_filledIn hhlen hcksum
    exact ⟨hcheck, ⟨hreserved, hoptions⟩, (hfilled hfront hcheck).mp hcksum⟩
  · rintro ⟨hcheck, hcanonical, hcksum⟩
    have hfixed : h.fixedBytes = b.take 20 := fixedBytes_ofBytes hlong hcanonical.reserved
    have hfront : b.take (4 * h.hlen.toNat) = h.fixedBytes ++ zeros h := by
      rw [htake, hfixed]
      exact congrArg (b.take 20 ++ ·) hcanonical.options
    rw [(hfilled hfront hcheck).mpr hcksum, ← List.append_assoc]
    show h.fixedBytes ++ zeros h ++ _ = b
    rw [← hfront, List.take_append_drop]

/-- What is written has the length of a header more than the payload. -/
theorem length_of_serialize {d : IPv4Datagram} {out : Bytes}
    (h : d.serialize.map BufferList.concatenate = .ok out) :
    d.Serializable ∧
      out.length = 4 * d.header.hlen.toNat + (BufferList.concatenate d.payload).length := by
  cases hserialize : d.serialize with
  | error e =>
      rw [hserialize] at h
      cases h
  | ok bufs =>
      have hd := serializable_of_serialize hserialize
      have hge := hd.hlen_ge
      rw [serialize_eq hd, Except.ok.injEq] at h
      refine ⟨hd, ?_⟩
      rw [← h]
      simp only [List.length_append, IPv4Header.length_fixedBytes, zeros, List.length_replicate]
      omega

/-- **A datagram that was read is written back** exactly if it is well-formed and canonical, and its
checksum is not the one of the two zeros that is never filled in. What is accepted without being
well-formed never comes back. -/
theorem serialize_parse_iff_wellFormed (d : IPv4Datagram) (b : Bytes) (hb : b.length ≤ 65535)
    (hok : (d.parse b).2 = .noError) :
    ((d.parse b).1.serialize).map BufferList.concatenate = .ok b ↔
      WellFormed b ∧ Canonical b ∧ (ofBytes b).cksum ≠ 0xffff := by
  by_cases hlong : b.length < 20
  · -- the whole string is the payload, and a header would be put in front of it
    have hrun := parse_run_of_lt d.header (b := b) hlong
    rw [d.parse_eq hrun.1 hrun.2]
    constructor
    · intro hserialize
      obtain ⟨hd, hlength⟩ := length_of_serialize hserialize
      have hge := hd.hlen_ge
      have hconcat : BufferList.concatenate [b] = b := List.append_nil b
      rw [hconcat] at hlength
      omega
    · rintro ⟨hwf, -⟩
      exact absurd hwf.long (Nat.not_le.mpr hlong)
  have hlong' : 20 ≤ b.length := Nat.le_of_not_lt hlong
  have hrun := parse_run_of_le d.header (b := b) hlong'
  have hparse := d.parse_eq hrun.1 hrun.2
  by_cases hfields : FieldsOk b
  · rw [if_pos hfields] at hparse
    rw [hparse]
    have hiff := serialize_iff_of_fieldsOk hlong' hfields
    constructor
    · intro hserialize
      obtain ⟨hcheck, hcanonical⟩ := hiff.mp hserialize
      exact ⟨⟨hlong', hfields, hcheck⟩, hcanonical⟩
    · rintro ⟨hwf, hcanonical⟩
      exact hiff.mpr ⟨hwf.checksum, hcanonical⟩
  · rw [if_neg hfields] at hparse
    rw [hparse] at hok ⊢
    constructor
    · intro hserialize
      -- the lengths agree only without options, and then the fields would be in order
      obtain ⟨hd, hlength⟩ := length_of_serialize hserialize
      have hconcat : BufferList.concatenate [b.drop IPv4Header.length] = b.drop 20 :=
        List.append_nil _
      have hge := hd.hlen_ge
      have hver := hd.ver
      change 5 ≤ (ofBytes b).hlen.toNat at hge
      change (ofBytes b).ver = 4 at hver
      change b.length = 4 * (ofBytes b).hlen.toNat + (BufferList.concatenate _).length at hlength
      rw [hconcat, List.length_drop] at hlength
      have hhlen : (ofBytes b).hlen.toNat = 5 := by omega
      have hsize : (b.drop IPv4Header.length).length = (ofBytes b).payloadLength.toNat := by
        by_contra hsize
        rw [if_neg hsize] at hok
        cases hok
      have hlt := (ofBytes b).len.toNat_lt
      rw [show (b.drop IPv4Header.length).length = b.length - 20 from List.length_drop] at hsize
      unfold payloadLength at hsize
      simp only [UInt16.toNat_sub, UInt16.toNat_mul, UInt8.toNat_toUInt16, hhlen] at hsize
      rw [show (4 : UInt16).toNat = 4 from rfl] at hsize
      exact absurd ⟨by omega, hver, hge, by omega⟩ hfields
    · rintro ⟨hwf, -⟩
      exact absurd hwf.fields hfields

/-- A header on its own comes back, and one with an invalid checksum is accepted and does not. -/
theorem serialize_parse_header :
    let header : Bytes → Bytes := fun cksum =>
      [0x45, 0, 0, 20, 0, 0, 0, 0, 0, 0] ++ cksum ++ [0, 0, 0, 0, 0, 0, 0, 0]
    ((parse {} (header [0xba, 0xeb])).1.serialize.map BufferList.concatenate
      = .ok (header [0xba, 0xeb])) ∧
    ¬((parse {} (header [0, 0])).1.serialize.map BufferList.concatenate = .ok (header [0, 0])) := by
  intro header
  constructor
  · rw [serialize_parse_iff_wellFormed _ _ (by decide) (by decide +kernel)]
    exact ⟨⟨by decide, by decide, by decide⟩, ⟨by decide, by decide⟩, by decide⟩
  · rw [serialize_parse_iff_wellFormed _ _ (by decide) (by decide +kernel)]
    exact fun h => absurd h.1.checksum (by decide)

end IPv4Datagram

end Sponge
