import Sponge.Wire.Layout

set_option autoImplicit false

/-! # What the parsers accept

Both parsers report failures in two ways: by the return value of the header's parser, and by the
error of the `NetParser`. The segment's and the datagram's parser look at the second only, so
that what the header's parser alone notices is accepted. -/

namespace Sponge

open NetParser

/-! ## Segments -/

namespace IPv4Header

/-- A sum that the pseudo-header contributes is small. -/
theorem pseudoCksum_lt (h : IPv4Header) : h.pseudoCksum.toNat < 2 ^ 19 := by
  have hwords : ∀ x : UInt32, (addrWords x).toNat ≤ 2 * 0xffff := by
    intro x
    have hx := x.toNat_lt
    rw [addrWords, InternetChecksum.toNat_halves]
    omega
  have hsrc := hwords h.src
  have hdst := hwords h.dst
  have hproto : h.proto.toNat < 2 ^ 8 := h.proto.toNat_lt
  have hlen := h.payloadLength.toNat_lt
  have hle : ∀ x y : UInt32, (x + y).toNat ≤ x.toNat + y.toNat := by
    intro x y
    rw [UInt32.toNat_add]
    exact Nat.mod_le _ _
  calc h.pseudoCksum.toNat
      ≤ (addrWords h.src + addrWords h.dst + h.proto.toUInt32).toNat
          + h.payloadLength.toUInt32.toNat := hle _ _
    _ ≤ (addrWords h.src + addrWords h.dst).toNat
          + h.proto.toUInt32.toNat + h.payloadLength.toUInt32.toNat :=
        Nat.add_le_add_right (hle _ _) _
    _ ≤ (addrWords h.src).toNat + (addrWords h.dst).toNat
          + h.proto.toUInt32.toNat + h.payloadLength.toUInt32.toNat :=
        Nat.add_le_add_right (Nat.add_le_add_right (hle _ _) _) _
    _ < 2 ^ 19 := by
        rw [UInt8.toNat_toUInt32, UInt16.toNat_toUInt32]
        omega

end IPv4Header

namespace TCPHeader

variable {b : Bytes}

/-- What parsing a header leaves behind. -/
theorem parse_run_of_le (hb : length ≤ b.length) :
    (parse.run { buffer := b }).1.1 = ofBytes b ∧
      (parse.run { buffer := b }).2 =
        if (ofBytes b).doff < 5 then { buffer := b.drop length }
        else if 4 * (ofBytes b).doff.toNat ≤ b.length then
          { buffer := b.drop (4 * (ofBytes b).doff.toNat) }
        else { buffer := b.drop length, error := .packetTooShort } := by
  unfold parse
  rw [run_bind_of_run (reads_parseFields.run_eq b hb)]
  by_cases hdoff : (ofBytes b).doff < 5
  · rw [if_pos hdoff, if_pos hdoff]
    exact ⟨rfl, rfl⟩
  · rw [if_neg hdoff, if_neg hdoff, run_bind_of_run (removePrefix_run _ _)]
    refine ⟨rfl, ?_⟩
    show (if _ then _ else _ : NetParser) = _
    have hge : 5 ≤ (ofBytes b).doff.toNat := Nat.le_of_not_lt hdoff
    have hlen : length = 20 := rfl
    -- the options are skipped if the buffer has them, and leave an error behind if not
    by_cases hopt : 4 * (ofBytes b).doff.toNat ≤ b.length
    · rw [if_pos hopt, if_pos (by rw [List.length_drop]; omega), List.drop_drop]
      congr 2
      omega
    · rw [if_neg hopt, if_neg (by rw [List.length_drop]; omega)]

theorem parse_run_of_lt (hb : b.length < length) :
    (parse.run { buffer := b }).2.error ≠ .noError := by
  have hfields : (parseFields.run { buffer := b }).2.Short 0 :=
    reads_parseFields.short _ 0 (Or.inr hb)
  generalize hrun : parseFields.run { buffer := b } = r at hfields
  obtain ⟨h, p⟩ := r
  rw [← short_zero_iff]
  unfold parse
  rw [run_bind_of_run hrun]
  split_ifs with hdoff
  · exact hfields
  · -- the error stays when options are skipped
    rw [run_bind_of_run (Prod.mk.eta (p := (removePrefix _).run p)).symm]
    exact (reads_removePrefix _).short p 0 (hfields.mono (Nat.zero_le _))

end TCPHeader

namespace TCPSegment

/-- A well-formed segment, for a checksum that starts from `start`. -/
structure WellFormed (start : Nat) (b : Bytes) : Prop where
  checksum : InternetChecksum.checksum start b = 0
  long : 20 ≤ b.length
  doff_ge : 5 ≤ (TCPHeader.ofBytes b).doff.toNat
  options : 4 * (TCPHeader.ofBytes b).doff.toNat ≤ b.length

/-- The parser accepts the well-formed segments only, and returns what they encode. -/
structure ParsesExactly (seg : TCPSegment) (b : Bytes) (sum : UInt32) : Prop where
  noError_iff : (seg.parse b sum).2 = .noError ↔ WellFormed sum.toNat b
  result : (seg.parse b sum).2 = .noError → (seg.parse b sum).1 =
    { header := TCPHeader.ofBytes b
      payload := b.drop (4 * (TCPHeader.ofBytes b).doff.toNat) }

theorem parse_eq (seg : TCPSegment) {b : Bytes} {sum : UInt32}
    (hcheck : ((InternetChecksum.new sum).add b).value = 0) :
    seg.parse b sum =
      ({ header := (TCPHeader.parse.run { buffer := b }).1.1
         payload := (TCPHeader.parse.run { buffer := b }).2.buffer },
        (TCPHeader.parse.run { buffer := b }).2.error) := by
  unfold parse
  rw [if_neg (not_not.mpr hcheck)]
  generalize TCPHeader.parse.run { buffer := b } = r
  rfl

/-- What is accepted has a valid checksum. -/
theorem value_of_noError {seg : TCPSegment} {b : Bytes} {sum : UInt32}
    (h : (seg.parse b sum).2 = .noError) : ((InternetChecksum.new sum).add b).value = 0 := by
  by_contra hcheck
  unfold parse at h
  rw [if_pos hcheck] at h
  cases h

/-- The check of the checksum, for every sum that the datagram layer supplies. -/
theorem value_eq_zero_iff {b : Bytes} {sum : UInt32} (hb : b.length ≤ 65535)
    (hsum : sum = 0 ∨ ∃ h : IPv4Header, sum = h.pseudoCksum) :
    ((InternetChecksum.new sum).add b).value = 0 ↔
      InternetChecksum.checksum sum.toNat b = 0 := by
  have hlt : sum.toNat < 2 ^ 19 := by
    rcases hsum with rfl | ⟨h, rfl⟩
    · norm_num
    · exact h.pseudoCksum_lt
  -- the words of 65535 bytes leave room for the pseudo header in 32 bits
  have hwords := InternetChecksum.sum_words_le b
  rw [← InternetChecksum.value_add (by omega), ← UInt16.toNat_inj]
  rfl

/-- The parser accepts also segments whose data offset is too small. -/
theorem parse_eq_noError_iff (seg : TCPSegment) {b : Bytes} {sum : UInt32}
    (hcheck : ((InternetChecksum.new sum).add b).value = 0) :
    (seg.parse b sum).2 = .noError ↔ 20 ≤ b.length ∧
      (5 ≤ (TCPHeader.ofBytes b).doff.toNat → 4 * (TCPHeader.ofBytes b).doff.toNat ≤ b.length) := by
  rw [parse_eq seg hcheck]
  by_cases hlong : TCPHeader.length ≤ b.length
  · rw [(TCPHeader.parse_run_of_le hlong).2]
    have hlen : 20 ≤ b.length := hlong
    split_ifs with hdoff hopt
    · have hdoff' : (TCPHeader.ofBytes b).doff.toNat < 5 := hdoff
      simp only [true_iff]
      exact ⟨hlen, fun hge => absurd hge (Nat.not_le.mpr hdoff')⟩
    · simp only [true_iff]
      exact ⟨hlen, fun _ => hopt⟩
    · have hge : 5 ≤ (TCPHeader.ofBytes b).doff.toNat := Nat.le_of_not_lt hdoff
      simp only [false_iff]
      rintro ⟨-, hall⟩
      exact hopt (hall hge)
  · have herror := TCPHeader.parse_run_of_lt (Nat.lt_of_not_le hlong)
    simp only [herror, false_iff]
    rintro ⟨hlen, -⟩
    exact hlong hlen

/-- **The segment parser accepts the well-formed segments only**, unless one comes with a valid
checksum and a data offset that is smaller than a header: the header's parser notices the
offset, and what it returns is dropped. -/
theorem parsesExactly_iff_doff_ge (seg : TCPSegment) (b : Bytes) (sum : UInt32) (hb : b.length ≤ 65535)
    (hsum : sum = 0 ∨ ∃ h : IPv4Header, sum = h.pseudoCksum) :
    ParsesExactly seg b sum ↔
      (InternetChecksum.checksum sum.toNat b = 0 → 20 ≤ b.length →
        5 ≤ (TCPHeader.ofBytes b).doff.toNat) := by
  have hvalue := value_eq_zero_iff hb hsum
  constructor
  · intro hexact hcheck hlong
    by_contra hdoff
    -- the small offset is accepted, since its error is dropped
    have hnoError := (parse_eq_noError_iff seg (hvalue.mpr hcheck)).mpr
      ⟨hlong, fun hge => absurd hge hdoff⟩
    exact hdoff (hexact.noError_iff.mp hnoError).doff_ge
  · intro hcond
    by_cases hcheck : InternetChecksum.checksum sum.toNat b = 0
    · have hiff := parse_eq_noError_iff seg (hvalue.mpr hcheck)
      constructor
      · rw [hiff]
        constructor
        · rintro ⟨hlong, hopt⟩
          have hdoff := hcond hcheck hlong
          exact ⟨hcheck, hlong, hdoff, hopt hdoff⟩
        · intro hwf
          exact ⟨hwf.long, fun _ => hwf.options⟩
      · intro hnoError
        obtain ⟨hlong, hopt⟩ := hiff.mp hnoError
        have hdoff := hcond hcheck hlong
        have hrun := TCPHeader.parse_run_of_le (b := b) hlong
        have hdoff' : ¬(TCPHeader.ofBytes b).doff < 5 := Nat.not_lt.mpr hdoff
        rw [parse_eq seg (hvalue.mpr hcheck), hrun.1, hrun.2, if_neg hdoff', if_pos (hopt hdoff)]
    · -- nothing but the checksum is looked at
      have hbad : (seg.parse b sum).2 = .badChecksum := by
        unfold parse
        rw [if_pos (fun h => hcheck (hvalue.mp h))]
      constructor
      · simp only [hbad, reduceCtorEq, false_iff]
        exact fun hwf => hcheck hwf.checksum
      · simp [hbad]

/-- A segment without payload, with a valid checksum. -/
theorem parsesExactly_empty :
    ParsesExactly {} ([0, 0, 0, 0, 0, 0, 0, 0, 0, 0, 0, 0, 0x50, 0, 0, 0, 0xaf, 0xff, 0, 0]) 0 :=
  (parsesExactly_iff_doff_ge _ _ 0 (by decide) (Or.inl rfl)).mpr (by decide)

/-- With a data offset of zero the twenty bytes are accepted, and the header is not well-formed. -/
theorem not_parsesExactly_doff_zero :
    ¬ParsesExactly {} ([0, 0, 0, 0, 0, 0, 0, 0, 0, 0, 0, 0, 0, 0, 0, 0, 0xff, 0xff, 0, 0]) 0 := by
  intro hexact
  have hwf := hexact.noError_iff.mp (by decide +kernel)
  exact absurd hwf.doff_ge (by decide)

end TCPSegment

/-! ## Datagrams -/

namespace IPv4Header

variable {b : Bytes}

/-- What the header's parser checks of the fields before it looks at the checksum. -/
def FieldsOk (b : Bytes) : Prop :=
  4 * (ofBytes b).hlen.toNat ≤ b.length ∧ (ofBytes b).ver = 4 ∧ 5 ≤ (ofBytes b).hlen.toNat ∧
    (ofBytes b).len.toNat = b.length

instance (b : Bytes) : Decidable (FieldsOk b) := inferInstanceAs (Decidable (_ ∧ _))

theorem parse_run_of_lt (h : IPv4Header) (hb : b.length < length) :
    (h.parse.run { buffer := b }).1.1 = h ∧ (h.parse.run { buffer := b }).2 = { buffer := b } := by
  unfold parse
  rw [run_get_bind, if_pos hb]
  exact ⟨rfl, rfl⟩

/-- The parser of the datagram sees the fields, and the buffer that is left. -/
theorem parse_run_of_le (h : IPv4Header) (hb : length ≤ b.length) :
    (h.parse.run { buffer := b }).1.1 = ofBytes b ∧
      (h.parse.run { buffer := b }).2 =
        { buffer := b.drop (if FieldsOk b then 4 * (ofBytes b).hlen.toNat else length) } := by
  have hlen : length = 20 := rfl
  unfold parse
  rw [run_get_bind, if_neg (Nat.not_lt.mpr hb), run_bind_of_run (reads_parseFields.run_eq b hb)]
  by_cases hok : FieldsOk b
  · rw [if_pos hok]
    obtain ⟨hfits, hver, hge, heq⟩ := hok
    have hge' : ¬(ofBytes b).hlen < 5 := Nat.not_lt.mpr hge
    have hopt : (ofBytes b).hlen.toNat * 4 - length ≤ (b.drop length).length := by
      rw [List.length_drop]
      omega
    rw [if_neg (Nat.not_lt.mpr hfits), if_neg (not_not.mpr hver), if_neg hge',
      if_neg (not_not.mpr heq.symm), run_bind_of_run (removePrefix_run _ _), if_pos hopt,
      run_get_bind, if_neg (not_not.mpr rfl), List.drop_drop]
    have hdrop : length + ((ofBytes b).hlen.toNat * 4 - length) = 4 * (ofBytes b).hlen.toNat := by
      omega
    rw [hdrop]
    -- the checksum decides about the returned result only
    dsimp only
    split_ifs
    · exact ⟨rfl, rfl⟩
    · exact ⟨rfl, rfl⟩
  · rw [if_neg hok]
    by_cases hfits : b.length < 4 * (ofBytes b).hlen.toNat
    · rw [if_pos hfits]
      exact ⟨rfl, rfl⟩
    by_cases hver : (ofBytes b).ver ≠ 4
    · rw [if_neg hfits, if_pos hver]
      exact ⟨rfl, rfl⟩
    by_cases hge : (ofBytes b).hlen < 5
    · rw [if_neg hfits, if_neg hver, if_pos hge]
      exact ⟨rfl, rfl⟩
    by_cases heq : b.length ≠ (ofBytes b).len.toNat
    · rw [if_neg hfits, if_neg hver, if_neg hge, if_pos heq]
      exact ⟨rfl, rfl⟩
    exact absurd ⟨Nat.le_of_not_lt hfits, not_not.mp hver, Nat.le_of_not_lt hge,
      (not_not.mp heq).symm⟩ hok

/-- The length of the payload does not wrap around for a header that fits into the length. -/
theorem payloadLength_toNat {h : IPv4Header} (hle : 4 * h.hlen.toNat ≤ h.len.toNat) :
    h.payloadLength.toNat = h.len.toNat - 4 * h.hlen.toNat := by
  have hlt := h.len.toNat_lt
  have hlt' : h.hlen.toNat < 2 ^ 8 := h.hlen.toNat_lt
  unfold payloadLength
  simp only [UInt16.toNat_sub, UInt16.toNat_mul, UInt8.toNat_toUInt16]
  rw [show (4 : UInt16).toNat = 4 from rfl]
  omega

theorem FieldsOk.payloadLength_eq (hok : FieldsOk b) :
    (ofBytes b).payloadLength.toNat = b.length - 4 * (ofBytes b).hlen.toNat := by
  obtain ⟨hfits, -, -, heq⟩ := hok
  rw [payloadLength_toNat (by rwa [heq]), heq]

end IPv4Header

namespace IPv4Datagram

open IPv4Header

/-- A well-formed datagram. -/
structure WellFormed (b : Bytes) : Prop where
  long : 20 ≤ b.length
  fields : FieldsOk b
  checksum : InternetChecksum.checksum 0 (b.take (4 * (ofBytes b).hlen.toNat)) = 0

/-- The parser accepts the well-formed datagrams only, and returns what they encode. -/
structure ParsesExactly (d : IPv4Datagram) (b : Bytes) : Prop where
  noError_iff : (d.parse b).2 = .noError ↔ WellFormed b
  result : (d.parse b).2 = .noError → (d.parse b).1 =
    { header := ofBytes b, payload := [b.drop (4 * (ofBytes b).hlen.toNat)] }

/-- A datagram is judged by the length of its payload alone. -/
theorem parse_eq (d : IPv4Datagram) {b rest : Bytes} {h : IPv4Header}
    (hheader : (d.header.parse.run { buffer := b }).1.1 = h)
    (hrest : (d.header.parse.run { buffer := b }).2 = { buffer := rest }) :
    d.parse b = ({ header := h, payload := [rest] },
      if rest.length = h.payloadLength.toNat then .noError else .packetTooShort) := by
  unfold parse
  generalize d.header.parse.run { buffer := b } = r at hheader hrest
  obtain ⟨⟨h', e⟩, p⟩ := r
  subst hheader hrest
  simp only [BufferList.size, List.map_cons, List.map_nil, List.sum_cons, List.sum_nil,
    Nat.add_zero]
  by_cases hsize : rest.length = h'.payloadLength.toNat
  · rw [if_neg (not_not.mpr hsize), if_pos hsize]
  · rw [if_pos hsize, if_neg hsize]

/-- **The datagram parser accepts the well-formed datagrams only**, except for three kinds, since
what the header's parser returns is dropped: a string that is too short for a header is accepted
when its length is that of the payload announced by the header the parser holds; of a string
with fields in order the checksum may be anything; and with fields out of order the rest after
twenty bytes is accepted when its length is, modulo `2 ^ 16`, the announced one. -/
theorem parsesExactly_iff_fieldsOk (d : IPv4Datagram) (b : Bytes) :
    ParsesExactly d b ↔
      (b.length < 20 → b.length ≠ d.header.payloadLength.toNat) ∧
      (20 ≤ b.length → FieldsOk b →
        InternetChecksum.checksum 0 (b.take (4 * (ofBytes b).hlen.toNat)) = 0) ∧
      (20 ≤ b.length → ¬FieldsOk b → b.length - 20 ≠ (ofBytes b).payloadLength.toNat) := by
  by_cases hlong : b.length < 20
  · -- the old header is judged against the whole string
    have hrun := parse_run_of_lt d.header (b := b) hlong
    have hparse := d.parse_eq hrun.1 hrun.2
    have hbad : ¬WellFormed b := fun hwf => absurd hwf.long (Nat.not_le.mpr hlong)
    constructor
    · intro hexact
      refine ⟨fun _ hsize => ?_, fun h => absurd h (Nat.not_le.mpr hlong),
        fun h => absurd h (Nat.not_le.mpr hlong)⟩
      refine hbad (hexact.noError_iff.mp ?_)
      rw [hparse, if_pos hsize]
    · rintro ⟨hsize, -, -⟩
      have herror : (d.parse b).2 = .packetTooShort := by
        rw [hparse, if_neg (hsize hlong)]
      constructor
      · simp [herror, hbad]
      · simp [herror]
  have hge : 20 ≤ b.length := Nat.le_of_not_lt hlong
  have hrun := parse_run_of_le d.header (b := b) hge
  have hparse := d.parse_eq hrun.1 hrun.2
  by_cases hok : FieldsOk b
  · -- the lengths agree, so that the datagram is accepted
    rw [if_pos hok] at hparse
    have hsize : (b.drop (4 * (ofBytes b).hlen.toNat)).length
        = (ofBytes b).payloadLength.toNat := by
      rw [List.length_drop, hok.payloadLength_eq]
    rw [if_pos hsize] at hparse
    have hnoError : (d.parse b).2 = .noError := by rw [hparse]
    constructor
    · intro hexact
      exact ⟨fun h => absurd h hlong, fun _ _ => (hexact.noError_iff.mp hnoError).checksum,
        fun _ h => absurd hok h⟩
    · rintro ⟨-, hcheck, -⟩
      constructor
      · simp only [hnoError, true_iff]
        exact ⟨hge, hok, hcheck hge hok⟩
      · intro _
        rw [hparse]
  · -- the parser has stopped at a field, behind the fixed part of the header
    rw [if_neg hok] at hparse
    have hlen : (b.drop IPv4Header.length).length = b.length - 20 := List.length_drop
    rw [hlen] at hparse
    have hbad : ¬WellFormed b := fun hwf => hok hwf.fields
    constructor
    · intro hexact
      refine ⟨fun h => absurd h hlong, fun _ h => absurd h hok, ?_⟩
      intro _ _ hsize
      refine hbad (hexact.noError_iff.mp ?_)
      rw [hparse, if_pos hsize]
    · rintro ⟨-, -, hsize⟩
      have herror : (d.parse b).2 = .packetTooShort := by
        rw [hparse, if_neg (hsize hge hok)]
      constructor
      · simp [herror, hbad]
      · simp [herror]

/-- A header whose checksum field is zero, with fields in order, is accepted. -/
theorem not_parsesExactly_bad_checksum :
    ¬ParsesExactly {}
      ([0x45, 0, 0, 20, 0, 0, 0, 0, 0, 0, 0, 0, 0, 0, 0, 0, 0, 0, 0, 0]) := by
  intro hexact
  have hwf := hexact.noError_iff.mp (by decide +kernel)
  exact absurd hwf.checksum (by decide)

end IPv4Datagram

end Sponge
