import Sponge.Adapter.Lawful
import Sponge.Wire.Damage

set_option autoImplicit false

/-! # Damaged datagrams

What the adapters make of a datagram that a burst has changed on its way: they find no segment in
it, or the one that was sent. -/

namespace Sponge

open InternetChecksum

/-- `Damages b b'` says that the network may deliver `b'` in place of `b`. -/
class NoticesDamage (δ : Type) {ρ ω : outParam Type} [FdAdapter δ ρ ω] [LawfulFdAdapter δ] where
  Damages : Bytes → Bytes → Prop
  segmentIn_damaged : ∀ {b b' : Bytes} {seg : TCPSegment},
    LawfulFdAdapter.segmentIn (δ := δ) b = some seg → Damages b b' →
      ∀ seg' ∈ LawfulFdAdapter.segmentIn (δ := δ) b', seg' = seg

/-! ## UDP -/

namespace TCPOverUDPSocketAdapter

/-- A burst in the payload of a UDP datagram. -/
structure Damages (b b' : Bytes) : Prop where
  fits : b.length ≤ 65535
  burst : Burst b b'

instance (b b' : Bytes) : Decidable (Damages b b') :=
  decidable_of_iff (b.length ≤ 65535 ∧ Burst b b') ⟨fun h => ⟨h.1, h.2⟩, fun h => ⟨h.1, h.2⟩⟩

theorem parse_of_segmentIn {b : Bytes} {seg : TCPSegment} (h : segmentIn b = some seg) :
    TCPSegment.parse {} b 0 = (seg, .noError) := by
  unfold segmentIn at h
  split_ifs at h with hresult
  rw [← Option.some.inj h, ← hresult]

theorem segmentIn_damaged {b b' : Bytes} {seg : TCPSegment} (h : segmentIn b = some seg)
    (hdamage : Damages b b') : ∀ seg' ∈ segmentIn b', seg' = seg := by
  intro seg' hseg'
  have hcheck := TCPSegment.value_of_noError (congrArg Prod.snd (parse_of_segmentIn h))
  have hcheck' := TCPSegment.value_of_noError
    (congrArg Prod.snd (parse_of_segmentIn (Option.mem_def.mp hseg')))
  have hsame : b' = b := by
    by_contra hne
    exact TCPSegment.value_ne_zero_of_burst hdamage.burst hne hdamage.fits (by decide) hcheck hcheck'
  rw [hsame] at hseg'
  exact Option.some.inj (hseg'.symm.trans h)

instance : NoticesDamage TCPOverUDPSocketAdapter where
  Damages := Damages
  segmentIn_damaged := segmentIn_damaged

end TCPOverUDPSocketAdapter

/-! ## TUN devices

The checksum of the IPv4 header is not looked at, and that of the segment covers what it shares
with the pseudo-header: the addresses, the protocol and the length. A burst elsewhere in the header
changes nothing about the segment, except in the first byte, which says where the segment begins. -/

namespace IPv4Header

/-- Version 4, and no options. -/
def firstByte : UInt8 := 0x45

theorem hlen_ofBytes {b : Bytes} (h : b.head? = some firstByte) : (ofBytes b).hlen = 5 := by
  cases b with
  | nil => cases h
  | cons a b =>
      obtain rfl := Option.some.inj h
      have hfield : field (firstByte :: b) 0 1 = 0x45 := by simp [field, BigEndian.value, firstByte]
      show UInt8.ofNat (field (firstByte :: b) 0 1 % 16) = 5
      rw [hfield]
      rfl

theorem head_fixedBytes {h : IPv4Header} (hver : h.ver = 4) (hhlen : h.hlen = 5) :
    h.fixedBytes.head? = some firstByte := by
  unfold fixedBytes
  rw [hver, hhlen]
  simp only [NetUnparser.u8, BigEndian.bytes, List.append_assoc, List.cons_append, List.head?_cons]
  rfl

/-- The words of an address, in the bytes that encode it. -/
theorem addrWords_field {b : Bytes} {off : Nat} (h : off + 4 ≤ b.length) :
    (addrWords (UInt32.ofNat (field b off 4))).toNat = field b off 2 + field b (off + 2) 2 := by
  have hsplit : field b off 4 = field b off 2 * 256 ^ 2 + field b (off + 2) 2 := field_add 2 2 h
  have hhigh : field b off 2 < 256 ^ 2 := field_lt b off 2
  have hlow : field b (off + 2) 2 < 256 ^ 2 := field_lt b (off + 2) 2
  have hall : field b off 4 < 2 ^ 32 := field_lt b off 4
  unfold addrWords
  rw [toNat_halves, UInt32.toNat_ofNat_of_lt' hall, hsplit]
  omega

/-- The pseudo-header is made of the addresses, the protocol and the length. -/
theorem pseudoCksum_toNat (h : IPv4Header) :
    h.pseudoCksum.toNat = (addrWords h.src).toNat + (addrWords h.dst).toNat + h.proto.toNat +
      h.payloadLength.toNat := by
  have hwords : ∀ x : UInt32, (addrWords x).toNat ≤ 2 * 0xffff := by
    intro x
    have hx := x.toNat_lt
    rw [addrWords, toNat_halves]
    omega
  have hsrc := hwords h.src
  have hdst := hwords h.dst
  have hproto : h.proto.toNat < 2 ^ 8 := h.proto.toNat_lt
  have hlen := h.payloadLength.toNat_lt
  unfold pseudoCksum
  simp only [UInt32.toNat_add, UInt8.toNat_toUInt32, UInt16.toNat_toUInt32]
  omega

/-- The checksum of a segment in a datagram without options is one over the bytes from the
addresses on. -/
theorem sum_segment {b : Bytes} (hlong : 20 ≤ b.length) :
    (ofBytes b).pseudoCksum.toNat + (words (b.drop 20)).sum
      = (words (b.drop 12)).sum + ((ofBytes b).proto.toNat + (ofBytes b).payloadLength.toNat) := by
  have hwords : words (b.drop 12) = field b 12 2 :: field b 14 2 :: field b 16 2 :: field b 18 2 ::
      words (b.drop 20) := by
    rw [words_drop (by omega), words_drop (by omega), words_drop (by omega), words_drop (by omega)]
  have hsrc : (addrWords (ofBytes b).src).toNat = field b 12 2 + field b 14 2 :=
    addrWords_field (by omega)
  have hdst : (addrWords (ofBytes b).dst).toNat = field b 16 2 + field b 18 2 :=
    addrWords_field (by omega)
  rw [pseudoCksum_toNat, hwords, hsrc, hdst]
  simp only [List.sum_cons]
  omega

/-- The addresses are in the bytes from the twelfth on. -/
theorem field_of_drop {b b' : Bytes} {k off len : Nat} (h : b'.drop k = b.drop k) (hk : k ≤ off) :
    field b' off len = field b off len := by
  unfold field
  have hoff : off = k + (off - k) := by omega
  rw [hoff, ← List.drop_drop, ← List.drop_drop, h]

end IPv4Header

namespace TCPOverIPv4OverTunFdAdapter

open IPv4Header

/-- A burst in a datagram without options, behind its first byte. -/
structure Damages (b b' : Bytes) : Prop where
  fits : b.length ≤ 65535
  first : b.head? = some firstByte
  first' : b'.head? = some firstByte
  burst : Burst b b'

instance (b b' : Bytes) : Decidable (Damages b b') :=
  decidable_of_iff (b.length ≤ 65535 ∧ b.head? = some firstByte ∧ b'.head? = some firstByte ∧
      Burst b b')
    ⟨fun h => ⟨h.1, h.2.1, h.2.2.1, h.2.2.2⟩, fun h => ⟨h.fits, h.first, h.first', h.burst⟩⟩

/-- The segment in a datagram without options. -/
structure Contains (b : Bytes) (seg : TCPSegment) : Prop where
  long : 20 ≤ b.length
  proto : (ofBytes b).proto = protoTCP
  payloadLength : (ofBytes b).payloadLength.toNat = b.length - 20
  parse : TCPSegment.parse {} (b.drop 20) (ofBytes b).pseudoCksum = (seg, .noError)

theorem contains_of_segmentIn {b : Bytes} {seg : TCPSegment} (hfirst : b.head? = some firstByte)
    (h : segmentIn b = some seg) : Contains b seg := by
  have hlong : 20 ≤ b.length := by
    by_contra hshort
    have hshort' : b.length < IPv4Header.length := Nat.lt_of_not_le hshort
    have hrun := parse_run_of_lt ({} : IPv4Header) hshort'
    have hparse := ({} : IPv4Datagram).parse_eq hrun.1 hrun.2
    -- the length that the empty header announces wraps around
    have hwrong : b.length ≠ ({} : IPv4Header).payloadLength.toNat := by
      have hwrap : ({} : IPv4Header).payloadLength.toNat = 65516 := by decide
      omega
    unfold segmentIn at h
    rw [hparse, if_neg hwrong] at h
    cases h
  have hrun := parse_run_of_le ({} : IPv4Header) hlong
  have hparse := ({} : IPv4Datagram).parse_eq hrun.1 hrun.2
  have hdrop : (if FieldsOk b then 4 * (ofBytes b).hlen.toNat else IPv4Header.length) = 20 := by
    rw [hlen_ofBytes hfirst]
    split_ifs <;> rfl
  rw [hdrop] at hparse
  have hlen : (b.drop 20).length = b.length - 20 := List.length_drop
  unfold segmentIn at h
  rw [hparse] at h
  by_cases hsize : (b.drop 20).length = (ofBytes b).payloadLength.toNat
  swap
  · rw [if_neg hsize] at h
    cases h
  rw [if_pos hsize, if_pos rfl] at h
  unfold TCPOverIPv4Adapter.carried at h
  by_cases hproto : (ofBytes b).proto = protoTCP
  swap
  · rw [if_neg hproto] at h
    cases h
  rw [if_pos hproto] at h
  change (if (TCPSegment.parse {} (b.drop 20) (ofBytes b).pseudoCksum).2 = .noError then
    some (TCPSegment.parse {} (b.drop 20) (ofBytes b).pseudoCksum).1 else none) = some seg at h
  split_ifs at h with hresult
  refine ⟨hlong, hproto, hsize.symm.trans hlen, ?_⟩
  rw [← Option.some.inj h, ← hresult]

/-- The checksum of the segment, over the bytes from the addresses on. -/
theorem Contains.value {b : Bytes} {seg : TCPSegment} (h : Contains b seg) (hb : b.length ≤ 65535) :
    ((words (b.drop 12)).sum + (6 + (b.length - 20))) % 0xffff = 0 := by
  have hcheck := TCPSegment.value_of_noError (congrArg Prod.snd h.parse)
  have hsum := sum_segment h.long
  have hwords := sum_words_le (b.drop 12)
  have hproto : (ofBytes b).proto.toNat = 6 := by
    rw [h.proto]
    rfl
  rw [h.payloadLength, hproto] at hsum
  rw [List.length_drop] at hwords
  rw [← hsum]
  exact ((value_eq_zero_iff_mod (by omega)).mp hcheck).2

/-- The segment depends on the bytes from the addresses on only. -/
theorem Contains.congr {b b' : Bytes} {seg seg' : TCPSegment} (h : Contains b seg)
    (h' : Contains b' seg') (hdrop : b'.drop 12 = b.drop 12) (hlen : b'.length = b.length) :
    seg' = seg := by
  have hrest : b'.drop 20 = b.drop 20 := by
    rw [show 20 = 12 + 8 from rfl, ← List.drop_drop, ← List.drop_drop, hdrop]
  have hpseudo : (ofBytes b').pseudoCksum = (ofBytes b).pseudoCksum := by
    have hsrc : (ofBytes b').src = (ofBytes b).src :=
      congrArg UInt32.ofNat (field_of_drop hdrop (by norm_num))
    have hdst : (ofBytes b').dst = (ofBytes b).dst :=
      congrArg UInt32.ofNat (field_of_drop hdrop (by norm_num))
    have hpayload : (ofBytes b').payloadLength = (ofBytes b).payloadLength := by
      rw [← UInt16.toNat_inj, h'.payloadLength, h.payloadLength, hlen]
    unfold pseudoCksum
    rw [hsrc, hdst, hpayload, h'.proto, h.proto]
  have hparse := h'.parse
  rw [hrest, hpseudo, h.parse] at hparse
  exact (congrArg Prod.fst hparse).symm

theorem segmentIn_damaged {b b' : Bytes} {seg : TCPSegment} (h : segmentIn b = some seg)
    (hdamage : Damages b b') : ∀ seg' ∈ segmentIn b', seg' = seg := by
  intro seg' hseg'
  have hlen := hdamage.burst.1
  have hold := contains_of_segmentIn hdamage.first h
  have hnew := contains_of_segmentIn hdamage.first' (Option.mem_def.mp hseg')
  have hmod := hold.value hdamage.fits
  have hmod' := hnew.value (hlen.trans_le hdamage.fits)
  rw [hlen] at hmod'
  have hsame : (words (b'.drop 12)).sum ≡ (words (b.drop 12)).sum [MOD 0xffff] := by
    apply Nat.ModEq.add_right_cancel' (6 + (b.length - 20))
    exact hmod'.trans hmod.symm
  exact hold.congr hnew (hdamage.burst.drop_eq_of_modEq 12 hsame) hlen

/-- What is written for a segment begins with the first byte of a header without options. -/
theorem head_serialize {a : TCPOverIPv4Adapter} {seg : TCPSegment} {r : TCPSegment × IPv4Datagram}
    {bufs : List Bytes} (hwrap : a.wrapTcpInIp seg = .ok r) (h : r.2.serialize = .ok bufs) :
    (BufferList.concatenate bufs).head? = some firstByte := by
  have hheader : r.2.header.ver = 4 ∧ r.2.header.hlen = 5 := by
    unfold TCPOverIPv4Adapter.wrapTcpInIp at hwrap
    simp only [bind, Except.bind] at hwrap
    split at hwrap
    · cases hwrap
    · cases hwrap
      exact ⟨rfl, rfl⟩
  obtain ⟨hver, hhlen⟩ := hheader
  have hsize : BufferList.size r.2.payload = r.2.header.payloadLength.toNat := by
    by_contra hsize
    unfold IPv4Datagram.serialize at h
    rw [if_pos hsize] at h
    cases h
  obtain ⟨v, hbufs⟩ := IPv4Datagram.exists_serialize_eq hver hhlen hsize
  rw [hbufs] at h
  cases h
  have hfixed := head_fixedBytes (h := { r.2.header with cksum := v }) hver hhlen
  simp only [BufferList.concatenate, List.flatten_cons, List.head?_append, hfixed, Option.some_or]

/-- A burst behind the first byte of what was written is noticed. -/
theorem damages_of_write {d d' : TCPOverIPv4OverTunFdAdapter} {seg : TCPSegment} {a : TunAnswer}
    {b b' : Bytes} (hplain : seg.Plain) (h : d.write seg a = .ok (some b, d'))
    (hburst : Burst b b') (hfirst : b'.head? = b.head?) : Damages b b' := by
  obtain ⟨r, bufs, -, hwrap, hserialize, hsize, hpos, -⟩ :=
    TCPOverIPv4Adapter.carried_wrapTcpInIp d.toIPv4 hplain
  have hhead := head_serialize hwrap hserialize
  have hwrite := TunFD.write_eq d.tun hpos hsize a
  unfold write at h
  simp only [hwrap, hserialize, throwing, bind, Except.bind, hwrite] at h
  cases a with
  | failed errno hne => cases h
  | took =>
      cases h
      refine ⟨?_, hhead, hfirst.trans hhead, hburst⟩
      have hlength : (BufferList.concatenate bufs).length = BufferList.size bufs :=
        List.length_flatten
      exact (hlength.trans_le hsize).trans (by norm_num)

instance : NoticesDamage TCPOverIPv4OverTunFdAdapter where
  Damages := Damages
  segmentIn_damaged := segmentIn_damaged

end TCPOverIPv4OverTunFdAdapter

instance {δ ρ ω : Type} [FdAdapter δ ρ ω] [LawfulFdAdapter δ] [h : NoticesDamage δ] :
    NoticesDamage (LossyFdAdapter δ) where
  Damages := h.Damages
  segmentIn_damaged := h.segmentIn_damaged

end Sponge
