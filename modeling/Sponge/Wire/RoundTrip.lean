import Sponge.Wire.PeerLock
import Sponge.Wire.Accept

set_option autoImplicit false

/-! # A segment through a datagram

A segment is serialized, wrapped in a datagram and serialized again; the bytes are parsed and
unwrapped at the peer. The two headers are read back field by field, the options of the segment
are zeros that the data offset skips, and the checksum that was filled in is found valid. -/

namespace Sponge

open NetParser

/-! ## Fields of written bytes -/

/-- Bytes before a field are skipped. -/
theorem field_append_of_le {b : Bytes} {off : Nat} (h : b.length ≤ off) (b' : Bytes) (len : Nat) :
    field (b ++ b') off len = field b' (off - b.length) len := by
  unfold field
  rw [List.drop_append, List.drop_of_length_le h, List.nil_append]

theorem field_bytes_append (len n : Nat) (b : Bytes) :
    field (BigEndian.bytes len n ++ b) 0 len = n % 256 ^ len := by
  unfold field
  rw [List.drop_zero, List.take_append_of_le_length (BigEndian.length_bytes len n).ge,
    List.take_of_length_le (BigEndian.length_bytes len n).le, BigEndian.value_bytes]

theorem ofNat_toNat16 (x : UInt16) : UInt16.ofNat (x.toNat % 65536) = x := by
  rw [Nat.mod_eq_of_lt x.toNat_lt, UInt16.ofNat_toNat]

/-! ## TCP headers -/

namespace TCPHeader

theorem testBit_flagByte (h : TCPHeader) :
    h.flagByte.toNat.testBit 5 = h.urg ∧ h.flagByte.toNat.testBit 4 = h.ack ∧
      h.flagByte.toNat.testBit 3 = h.psh ∧ h.flagByte.toNat.testBit 2 = h.rst ∧
      h.flagByte.toNat.testBit 1 = h.syn ∧ h.flagByte.toNat.testBit 0 = h.fin := by
  unfold flagByte
  cases h.urg <;> cases h.ack <;> cases h.psh <;> cases h.rst <;> cases h.syn <;> cases h.fin <;>
    decide

theorem length_fixedBytes (h : TCPHeader) : h.fixedBytes.length = 20 := by
  simp [fixedBytes, NetUnparser.u8, NetUnparser.u16, NetUnparser.u32]

/-- The fixed fields are read back. -/
theorem ofBytes_fixedBytes (h : TCPHeader) (hdoff : h.doff.toNat < 16) (b : Bytes) :
    ofBytes (h.fixedBytes ++ b) = h := by
  obtain ⟨hurg, hack, hpsh, hrst, hsyn, hfin⟩ := testBit_flagByte h
  have hflags : h.flagByte.toNat % 256 = h.flagByte.toNat := Nat.mod_eq_of_lt h.flagByte.toNat_lt
  have hdoff' : (h.doff <<< 4).toNat % 256 / 16 = h.doff.toNat := by
    rw [UInt8.toNat_shiftLeft]
    simp [Nat.shiftLeft_eq]
    omega
  have hraw : ∀ w : WrappingInt32,
      (⟨BitVec.ofNat 32 (UInt32.toNat ⟨w.rawValue⟩ % 4294967296)⟩ : WrappingInt32) = w := by
    intro w
    rw [Nat.mod_eq_of_lt (UInt32.toNat_lt _)]
    exact congrArg WrappingInt32.mk (BitVec.ofNat_toNat 32 w.rawValue)
  -- a field is what is left at its offset when the bytes of the fields before it are skipped
  unfold ofBytes fixedBytes
  simp (disch := simp) only [NetUnparser.u8, NetUnparser.u16, NetUnparser.u32, List.append_assoc,
    field_append_of_le, field_bytes_append, BigEndian.length_bytes, Nat.reduceSub, Nat.reducePow,
    ofNat_toNat16, hflags, hdoff', hurg, hack, hpsh, hrst, hsyn, hfin]
  rw [hraw, hraw, UInt8.ofNat_toNat]

/-- The fixed bytes are the checksum, after sixteen bytes, and the urgent pointer. -/
theorem exists_fixedBytes_eq (h : TCPHeader) : ∃ pre : Bytes, pre.length = 16 ∧ ∀ v : UInt16,
    { h with cksum := v }.fixedBytes
      = pre ++ (BigEndian.bytes 2 v.toNat ++ NetUnparser.u16 h.uptr) := by
  refine ⟨NetUnparser.u16 h.sport ++ NetUnparser.u16 h.dport ++
    NetUnparser.u32 ⟨h.seqno.rawValue⟩ ++ NetUnparser.u32 ⟨h.ackno.rawValue⟩ ++
    NetUnparser.u8 (h.doff <<< 4) ++ NetUnparser.u8 h.flagByte ++ NetUnparser.u16 h.win, ?_, ?_⟩
  · simp [NetUnparser.u8, NetUnparser.u16, NetUnparser.u32]
  · intro v
    rw [← List.append_assoc]
    rfl

/-- The options are zeros. -/
theorem serialize_eq {h : TCPHeader} (hdoff : 5 ≤ h.doff.toNat) :
    h.serialize = .ok (h.fixedBytes ++ List.replicate (4 * h.doff.toNat - 20) 0) := by
  have hdoff' : ¬h.doff < 5 := Nat.not_lt.mpr hdoff
  have hlen : h.fixedBytes.length ≤ 4 * h.doff.toNat := by
    rw [length_fixedBytes]
    omega
  unfold serialize NetUnparser.resize
  rw [if_neg hdoff', List.take_of_length_le hlen, length_fixedBytes]

end TCPHeader

/-! ## Segments -/

namespace TCPSegment

/-- Bytes that begin with a header, with options up to the data offset, are parsed as this
header and what follows the options. -/
theorem parse_of_valid (seg : TCPSegment) {h : TCPHeader} {opts payload : Bytes} {sum : UInt32}
    (hdoff : 5 ≤ h.doff.toNat) (hdoff' : h.doff.toNat ≤ 15)
    (hopts : opts.length = 4 * h.doff.toNat - 20)
    (hcheck : ((InternetChecksum.new sum).add (h.fixedBytes ++ (opts ++ payload))).value = 0) :
    seg.parse (h.fixedBytes ++ (opts ++ payload)) sum = ({ header := h, payload }, .noError) := by
  have hfields := h.ofBytes_fixedBytes (Nat.lt_succ_of_le hdoff') (opts ++ payload)
  have hfixed := h.length_fixedBytes
  have hlong : TCPHeader.length ≤ (h.fixedBytes ++ (opts ++ payload)).length := by
    rw [List.length_append, hfixed]
    exact Nat.le_add_right _ _
  have hrun := TCPHeader.parse_run_of_le hlong
  have hdoff'' : ¬h.doff < 5 := Nat.not_lt.mpr hdoff
  have hfits : 4 * h.doff.toNat ≤ (h.fixedBytes ++ (opts ++ payload)).length := by
    simp only [List.length_append, hfixed, hopts]
    omega
  -- the data offset points behind the options
  have hdrop : (h.fixedBytes ++ (opts ++ payload)).drop (4 * h.doff.toNat) = payload := by
    rw [← List.append_assoc]
    refine List.drop_left' ?_
    rw [List.length_append, hfixed, hopts]
    omega
  rw [hfields, if_neg hdoff'', if_pos hfits, hdrop] at hrun
  rw [parse_eq seg hcheck, hrun.1, hrun.2]

/-- What is written for a segment: the checksum is the value over the bytes with a zero in
its place. -/
theorem exists_serialize_eq (seg : TCPSegment) (sum : UInt32) (hdoff : 5 ≤ seg.header.doff.toNat)
    (hlen : 4 * seg.header.doff.toNat + seg.payload.length ≤ 65535) (hsum : sum.toNat < 2 ^ 19) :
    ∃ v opts, opts.length = 4 * seg.header.doff.toNat - 20 ∧
      seg.serialize sum = .ok [{ seg.header with cksum := v }.fixedBytes ++ opts, seg.payload] ∧
      ((InternetChecksum.new sum).add
        ({ seg.header with cksum := v }.fixedBytes ++ (opts ++ seg.payload))).value = 0 := by
  obtain ⟨pre, hpre, hfixed⟩ := seg.header.exists_fixedBytes_eq
  set opts : Bytes := List.replicate (4 * seg.header.doff.toNat - 20) 0 with hopts
  have hserialize : ∀ v : UInt16, ({ seg.header with cksum := v } : TCPHeader).serialize
      = .ok ({ seg.header with cksum := v }.fixedBytes ++ opts) := by
    intro v
    exact TCPHeader.serialize_eq (h := { seg.header with cksum := v }) hdoff
  set post := NetUnparser.u16 seg.header.uptr ++ (opts ++ seg.payload) with hpost
  -- the value is taken over the bytes with zeros in the place of the checksum
  set v := ((InternetChecksum.new sum).add (pre ++ ([0, 0] ++ post))).value with hv
  have hzeros : BigEndian.bytes 2 (0 : UInt16).toNat = [0, 0] := by decide
  refine ⟨v, opts, List.length_replicate, ?_, ?_⟩
  · have hvalue : (((InternetChecksum.new sum).add
        ({ seg.header with cksum := 0 }.fixedBytes ++ opts)).add seg.payload).value = v := by
      rw [← InternetChecksum.add_append, hfixed, hzeros, hv, hpost]
      simp only [List.append_assoc]
    -- the header is serialized twice, the second time with the value
    have hstep : seg.serialize sum = (do
        let first ← ({ seg.header with cksum := 0 } : TCPHeader).serialize
        let last ← ({ seg.header with
          cksum := (((InternetChecksum.new sum).add first).add seg.payload).value } :
            TCPHeader).serialize
        return [last, seg.payload]) := rfl
    rw [hstep, hserialize]
    show (do
        let last ← ({ seg.header with
          cksum := (((InternetChecksum.new sum).add
            ({ seg.header with cksum := 0 }.fixedBytes ++ opts)).add seg.payload).value } :
              TCPHeader).serialize
        return [last, seg.payload]) = _
    rw [hvalue, hserialize]
    rfl
  · have hbytes : { seg.header with cksum := v }.fixedBytes ++ (opts ++ seg.payload)
        = pre ++ (BigEndian.bytes 2 v.toNat ++ post) := by
      rw [hfixed, hpost]
      simp only [List.append_assoc]
    rw [hbytes]
    -- a segment that fits into a datagram does not overflow the 32-bit sum
    have hwords := InternetChecksum.sum_words_le (pre ++ ([0, 0] ++ post))
    have hlength : (pre ++ ([0, 0] ++ post)).length
        = 4 * seg.header.doff.toNat + seg.payload.length := by
      simp only [hpost, hopts, List.length_append, hpre, List.length_replicate, NetUnparser.u16,
        BigEndian.length_bytes, List.length_cons, List.length_nil]
      omega
    refine InternetChecksum.value_fill (by rw [hpre]) ?_ hv
    rw [hlength] at hwords
    omega

end TCPSegment

/-! ## IPv4 headers -/

namespace IPv4Header

theorem length_fixedBytes (h : IPv4Header) : h.fixedBytes.length = 20 := by
  simp [fixedBytes, NetUnparser.u8, NetUnparser.u16, NetUnparser.u32]

/-- A version and a header length of four bits each share a byte. -/
theorem toNat_firstByte {v l : UInt8} (hv : v.toNat < 16) (hl : l.toNat < 16) :
    ((v <<< 4) ||| (l &&& 0xf)).toNat = v.toNat * 16 + l.toNat := by
  have hand : l.toNat &&& 15 = l.toNat := by
    rw [show (15 : Nat) = 2 ^ 4 - 1 from rfl, Nat.and_two_pow_sub_one_eq_mod]
    exact Nat.mod_eq_of_lt hl
  have hshift : v.toNat <<< 4 % 2 ^ 8 = v.toNat <<< 4 := by
    rw [Nat.shiftLeft_eq]
    omega
  rw [UInt8.toNat_or, UInt8.toNat_and, UInt8.toNat_shiftLeft]
  show v.toNat <<< 4 % 2 ^ 8 ||| l.toNat &&& 15 = _
  rw [hand, hshift, ← Nat.shiftLeft_add_eq_or_of_lt hl, Nat.shiftLeft_eq]

/-- The flags and the offset share two bytes, the offset in the lower thirteen bits. -/
theorem toNat_foVal (df mf : Bool) {off : UInt16} (hoff : off.toNat < 2 ^ 13) :
    ((if df then 0x4000 else 0) ||| (if mf then 0x2000 else 0) ||| (off &&& 0x1fff) : UInt16).toNat
      = (df.toNat * 2 + mf.toNat) * 8192 + off.toNat := by
  have hand : off.toNat &&& 8191 = off.toNat := by
    rw [show (8191 : Nat) = 2 ^ 13 - 1 from rfl, Nat.and_two_pow_sub_one_eq_mod]
    exact Nat.mod_eq_of_lt hoff
  have hhigh : ((if df then 0x4000 else 0) ||| (if mf then 0x2000 else 0) : UInt16).toNat
      = (df.toNat * 2 + mf.toNat) <<< 13 := by
    cases df <;> cases mf <;> rfl
  rw [UInt16.toNat_or, UInt16.toNat_and]
  show _ ||| off.toNat &&& 8191 = _
  rw [hand, hhigh, ← Nat.shiftLeft_add_eq_or_of_lt hoff, Nat.shiftLeft_eq]

theorem testBit_flags (df mf : Bool) {n : Nat} (hn : n < 2 ^ 13) :
    ((df.toNat * 2 + mf.toNat) * 8192 + n).testBit 14 = df ∧
      ((df.toNat * 2 + mf.toNat) * 8192 + n).testBit 13 = mf := by
  have hdiv : ((df.toNat * 2 + mf.toNat) * 8192 + n) / 2 ^ 13 = df.toNat * 2 + mf.toNat := by
    omega
  constructor
  · rw [← Nat.testBit_div_two_pow (n := 13) _ 1, hdiv]
    cases df <;> cases mf <;> rfl
  · rw [← Nat.testBit_div_two_pow (n := 13) _ 0, hdiv]
    cases df <;> cases mf <;> rfl

theorem ofBytes_fixedBytes (h : IPv4Header) (hver : h.ver.toNat < 16) (hhlen : h.hlen.toNat < 16)
    (hoff : h.offset.toNat < 2 ^ 13) (b : Bytes) : ofBytes (h.fixedBytes ++ b) = h := by
  have hver' : (h.ver.toNat * 16 + h.hlen.toNat) % 256 / 16 = h.ver.toNat := by omega
  have hhlen' : (h.ver.toNat * 16 + h.hlen.toNat) % 256 % 16 = h.hlen.toNat := by omega
  -- the second word of flags and offset, whole and without its flags
  have hfo : ((h.df.toNat * 2 + h.mf.toNat) * 8192 + h.offset.toNat) % 65536
      = (h.df.toNat * 2 + h.mf.toNat) * 8192 + h.offset.toNat := by
    have hdf := h.df.toNat_le
    have hmf := h.mf.toNat_le
    omega
  have hoff' : ((h.df.toNat * 2 + h.mf.toNat) * 8192 + h.offset.toNat) % 8192
      = h.offset.toNat := by omega
  have hmod : ∀ x : UInt8, UInt8.ofNat (x.toNat % 256) = x := by
    intro x
    rw [Nat.mod_eq_of_lt x.toNat_lt, UInt8.ofNat_toNat]
  have hmod32 : ∀ x : UInt32, UInt32.ofNat (x.toNat % 4294967296) = x := by
    intro x
    rw [Nat.mod_eq_of_lt x.toNat_lt, UInt32.ofNat_toNat]
  obtain ⟨hdf, hmf⟩ := testBit_flags h.df h.mf hoff
  unfold ofBytes fixedBytes
  simp (disch := simp) only [NetUnparser.u8, NetUnparser.u16, NetUnparser.u32, List.append_assoc,
    field_append_of_le, field_bytes_append, BigEndian.length_bytes, Nat.reduceSub, Nat.reducePow,
    ofNat_toNat16, toNat_firstByte hver hhlen, toNat_foVal h.df h.mf hoff, hver', hhlen', hfo,
    hoff', hmod, hmod32, UInt8.ofNat_toNat, UInt16.ofNat_toNat]
  rw [hdf, hmf]

theorem serialize_eq {h : IPv4Header} (hver : h.ver = 4) (hhlen : h.hlen = 5) :
    h.serialize = .ok h.fixedBytes := by
  have hlen := h.length_fixedBytes
  have hhlen' : 4 * h.hlen.toNat = 20 := by
    rw [hhlen]
    rfl
  have hshort : ¬20 < length := lt_irrefl 20
  unfold serialize NetUnparser.resize
  rw [if_neg (not_not.mpr hver), hhlen', if_neg hshort, List.take_of_length_le hlen.le, hlen]
  exact congrArg Except.ok (List.append_nil _)

end IPv4Header

/-! ## Datagrams -/

namespace IPv4Datagram

open IPv4Header

/-- Bytes that begin with a header without options are parsed as this header and the rest. -/
theorem parse_of_fields (d : IPv4Datagram) {h : IPv4Header} {payload : Bytes} (hver : h.ver = 4)
    (hhlen : h.hlen = 5) (hoff : h.offset.toNat < 2 ^ 13)
    (hlen : h.len.toNat = 20 + payload.length) :
    d.parse (h.fixedBytes ++ payload) = ({ header := h, payload := [payload] }, .noError) := by
  have hfields := h.ofBytes_fixedBytes (by rw [hver]; decide) (by rw [hhlen]; decide) hoff payload
  have hfixed := h.length_fixedBytes
  have hlength : (h.fixedBytes ++ payload).length = 20 + payload.length := by
    rw [List.length_append, hfixed]
  have hok : FieldsOk (h.fixedBytes ++ payload) := by
    unfold FieldsOk
    rw [hfields, hver, hhlen, hlen, hlength]
    exact ⟨Nat.le_add_right 20 _, rfl, le_rfl, rfl⟩
  -- the rest of the buffer has the length that the header announces
  have hpayload := hok.payloadLength_eq
  have hlong : IPv4Header.length ≤ (h.fixedBytes ++ payload).length := by
    rw [hlength]
    exact Nat.le_add_right 20 _
  have hrun := parse_run_of_le d.header hlong
  have hdrop : (h.fixedBytes ++ payload).drop (4 * h.hlen.toNat) = payload := by
    refine List.drop_left' ?_
    rw [hfixed, hhlen]
    rfl
  rw [if_pos hok, hfields, hdrop] at hrun
  rw [hfields, hlength, hhlen] at hpayload
  rw [d.parse_eq hrun.1 hrun.2, if_pos]
  rw [hpayload]
  show _ = 20 + payload.length - 20
  omega

/-- What is written for a datagram without options. -/
theorem exists_serialize_eq {d : IPv4Datagram} (hver : d.header.ver = 4) (hhlen : d.header.hlen = 5)
    (hsize : BufferList.size d.payload = d.header.payloadLength.toNat) :
    ∃ v, d.serialize = .ok ({ d.header with cksum := v }.fixedBytes :: d.payload) := by
  have hserialize : ∀ v : UInt16, ({ d.header with cksum := v } : IPv4Header).serialize
      = .ok { d.header with cksum := v }.fixedBytes := by
    intro v
    exact IPv4Header.serialize_eq (h := { d.header with cksum := v }) hver hhlen
  refine ⟨((InternetChecksum.new 0).add { d.header with cksum := 0 }.fixedBytes).value, ?_⟩
  unfold serialize
  rw [if_neg (not_not.mpr hsize)]
  simp only [hserialize]
  rfl

end IPv4Datagram

/-! ## The whole way -/

namespace TCPOverIPv4Adapter

/-- A connected adapter takes a valid segment that belongs to its connection. -/
theorem unwrapTcpInIp_of_valid {a : TCPOverIPv4Adapter} {h : IPv4Header} {bytes : Bytes}
    {seg : TCPSegment} (hlistening : a.listening = false) (hdst : h.dst = a.source.ipv4Numeric)
    (hsrc : h.src = a.destination.ipv4Numeric) (hproto : h.proto = IPv4Header.protoTCP)
    (hparse : TCPSegment.parse {} bytes h.pseudoCksum = (seg, .noError))
    (hdport : seg.header.dport = a.source.port) (hsport : seg.header.sport = a.destination.port) :
    a.unwrapTcpInIp { header := h, payload := [bytes] } = .ok (some seg, a) := by
  have hcarried : carried { header := h, payload := [bytes] } = some seg := by
    have hbuffer : BufferList.toBuffer [bytes] = .ok bytes := rfl
    unfold carried
    rw [if_pos hproto, hbuffer]
    simp only [hparse, if_true]
  rw [unwrapTcpInIp_of_carried hcarried (Or.inr ⟨hdst, hsrc⟩), if_neg (not_not.mpr hdport),
    hlistening, if_neg Bool.false_ne_true, if_neg (not_not.mpr hsport)]

/-- **The round trip of a segment through a datagram**, between two adapters that mirror each
other: the bytes are accepted, and the segment comes out with the ports of the adapters and all
of its own data; only its checksum has been filled in. -/
theorem unwrapTcpInIp_wrapTcpInIp (a b : TCPOverIPv4Adapter) (seg : TCPSegment) (d : IPv4Datagram)
    (hdoff : 5 ≤ seg.header.doff.toNat) (hdoff' : seg.header.doff.toNat ≤ 15)
    (hlen : 20 + 4 * seg.header.doff.toNat + seg.payload.length ≤ 65535)
    (hsource : b.source = a.destination) (hdestination : b.destination = a.source)
    (hlistening : b.listening = false) :
    ∃ seg' dgram bufs cksum, a.wrapTcpInIp seg = .ok (seg', dgram) ∧ dgram.serialize = .ok bufs ∧
      (d.parse (BufferList.concatenate bufs)).2 = .noError ∧
      b.unwrapTcpInIp (d.parse (BufferList.concatenate bufs)).1 =
        .ok (some { seg with header := { seg.header with
          sport := a.source.port, dport := a.destination.port, cksum } }, b) := by
  set h : TCPHeader := { seg.header with sport := a.source.port, dport := a.destination.port }
    with hh
  set ip : IPv4Header := {
    src := a.source.ipv4Numeric
    dst := a.destination.ipv4Numeric
    len := UInt16.ofNat (5 * 4 + seg.header.doff.toNat * 4 + seg.payload.length) } with hip
  have hiplen : ip.len.toNat = 20 + 4 * seg.header.doff.toNat + seg.payload.length := by
    show (5 * 4 + seg.header.doff.toNat * 4 + seg.payload.length) % 2 ^ 16 = _
    omega
  -- the segment, in the buffers of the datagram
  obtain ⟨v, opts, hopts, hseg, hcheck⟩ := TCPSegment.exists_serialize_eq
    { header := h, payload := seg.payload } ip.pseudoCksum hdoff (by simp only [h]; omega)
    ip.pseudoCksum_lt
  have hopts' : opts.length = 4 * seg.header.doff.toNat - 20 := hopts
  have hwrap : a.wrapTcpInIp seg = .ok ({ header := h, payload := seg.payload },
      { header := ip, payload := [{ h with cksum := v }.fixedBytes ++ opts, seg.payload] }) := by
    unfold wrapTcpInIp
    exact congrArg (fun r => r >>= fun payload => Except.ok
      (({ header := h, payload := seg.payload } : TCPSegment),
        ({ header := ip, payload } : IPv4Datagram))) hseg
  -- the length field announces the two buffers
  have hfixed := TCPHeader.length_fixedBytes { h with cksum := v }
  have hsize : BufferList.size [{ h with cksum := v }.fixedBytes ++ opts, seg.payload]
      = ip.payloadLength.toNat := by
    have hhlen : 4 * ip.hlen.toNat = 20 := rfl
    rw [IPv4Header.payloadLength_toNat (by omega), hiplen, hhlen]
    simp only [BufferList.size, List.map_cons, List.map_nil, List.sum_cons, List.sum_nil,
      List.length_append, hfixed, hopts']
    omega
  -- the datagram
  obtain ⟨w, hdgram⟩ := IPv4Datagram.exists_serialize_eq
    (d := { header := ip, payload := [{ h with cksum := v }.fixedBytes ++ opts, seg.payload] })
    rfl rfl hsize
  have hbytes : BufferList.concatenate ({ ip with cksum := w }.fixedBytes ::
      [{ h with cksum := v }.fixedBytes ++ opts, seg.payload])
        = { ip with cksum := w }.fixedBytes ++
          ({ h with cksum := v }.fixedBytes ++ (opts ++ seg.payload)) := by
    simp [BufferList.concatenate]
  have hparse : d.parse ({ ip with cksum := w }.fixedBytes ++
      ({ h with cksum := v }.fixedBytes ++ (opts ++ seg.payload)))
        = ({ header := { ip with cksum := w }
             payload := [{ h with cksum := v }.fixedBytes ++ (opts ++ seg.payload)] },
            .noError) := by
    refine d.parse_of_fields rfl rfl (Nat.two_pow_pos 13) ?_
    show ip.len.toNat = _
    rw [hiplen]
    simp only [List.length_append, hfixed, hopts']
    omega
  refine ⟨_, _, _, v, hwrap, hdgram, ?_⟩
  rw [hbytes, hparse]
  refine ⟨rfl, ?_⟩
  -- at the peer the addresses and the ports are the expected ones
  have hpeer := TCPSegment.parse_of_valid {} (h := { h with cksum := v }) hdoff hdoff' hopts hcheck
  refine unwrapTcpInIp_of_valid hlistening ?_ ?_ rfl hpeer ?_ ?_
  · rw [hsource]
  · rw [hdestination]
  · rw [hsource]
  · rw [hdestination]

/-- An empty segment with a SYN, between two hosts. -/
theorem unwrapTcpInIp_wrapTcpInIp_syn :
    ∃ seg' dgram bufs cksum,
      wrapTcpInIp { source := ⟨0x0a000001, 4000⟩, destination := ⟨0x0a000002, 80⟩ }
        { header := { syn := true } } = .ok (seg', dgram) ∧
      dgram.serialize = .ok bufs ∧
      (IPv4Datagram.parse {} (BufferList.concatenate bufs)).2 = .noError ∧
      unwrapTcpInIp { source := ⟨0x0a000002, 80⟩, destination := ⟨0x0a000001, 4000⟩ }
          (IPv4Datagram.parse {} (BufferList.concatenate bufs)).1 =
        .ok (some { header := { syn := true, sport := 4000, dport := 80, cksum } },
          { source := ⟨0x0a000002, 80⟩, destination := ⟨0x0a000001, 4000⟩ }) :=
  unwrapTcpInIp_wrapTcpInIp _ _ _ {} (by decide) (by decide) (by decide) rfl rfl rfl

end TCPOverIPv4Adapter

end Sponge
