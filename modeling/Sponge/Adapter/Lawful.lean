import Sponge.Connection.Plain
import Sponge.FdAdapter
import Sponge.Wire.RoundTrip

set_option autoImplicit false

/-! # What the sockets rely on

`LawfulFdAdapter` says what an adapter does with segments and datagrams: a segment that is read is the
one in the datagram that arrived, a datagram that is written holds the segment, with the ports and
the checksum filled in, and only the kernel is to blame for an exception. The four adapters are
lawful. -/

namespace Sponge

open Util

/-- What a read or a write of a datagram throws. -/
inductive DatagramFault : Exception → Prop where
  | kernel {e : Exception} (h : KernelFault e) : DatagramFault e
  | oversized : DatagramFault (.runtimeError "recvfrom (oversized datagram)")
  | tooBig : DatagramFault (.runtimeError "datagram payload too big for sendmsg()")

class LawfulFdAdapter (δ : Type) {ρ ω : outParam Type} [FdAdapter δ ρ ω] where
  /-- The datagram that a read has received. -/
  heard : ρ → Bytes
  /-- The segment in a datagram, whoever it is for. -/
  segmentIn : Bytes → Option TCPSegment
  read_ok : ∀ {d d' : δ} {a : ρ} {ret : Option TCPSegment}, FdAdapter.read d a = .ok (ret, d') →
    (FdAdapter.fd d').readCount ≠ (FdAdapter.fd d).readCount ∧
      ∀ seg ∈ ret, segmentIn (heard a) = some seg
  read_error : ∀ {d : δ} {a : ρ} {e : Exception}, FdAdapter.read d a = .error e → DatagramFault e
  write_ok : ∀ {d d' : δ} {seg : TCPSegment} {a : ω} {sent : Option Bytes}, seg.Plain →
    FdAdapter.write d seg a = .ok (sent, d') → ∀ bytes ∈ sent, ∃ sport dport cksum,
      segmentIn bytes = some (seg.addressed sport dport cksum)
  write_error : ∀ {d : δ} {seg : TCPSegment} {a : ω} {e : Exception}, seg.Plain →
    FdAdapter.write d seg a = .error e → DatagramFault e

theorem readCount_ne (n : UInt32) : n + 1 ≠ n := by grind

theorem throwing_eq_ok {α : Type} {x : Except String α} {a : α} (h : throwing x = .ok a) :
    x = .ok a := by
  cases x with
  | error text => cases h
  | ok b => cases h; rfl

/-! ## UDP -/

namespace UDPSocket

section

variable {sock sock' : FDWrapper} {e : Exception}

theorem recv_ok {a : RecvAnswer} {mtu : Nat} {datagram : ReceivedDatagram}
    (h : recv sock a mtu = .ok (datagram, sock')) :
    datagram = { sourceAddress := a.source, payload := a.data.take (toSize (toInt a.value)) } ∧
      sock' = sock.registerRead := by
  unfold recv systemCall at h
  split_ifs at h
  · simp only [bind, Except.bind] at h
    split_ifs at h
    cases h
    exact ⟨rfl, rfl⟩
  · cases h

theorem recv_error {a : RecvAnswer} {mtu : Nat} (h : recv sock a mtu = .error e) :
    DatagramFault e := by
  unfold recv at h
  cases hcall : systemCall "recvfrom" (toInt a.value) a.errno 0 with
  | error e' =>
      rw [hcall] at h
      cases h
      exact .kernel (systemCall_fault hcall)
  | ok recvLen =>
      rw [hcall] at h
      simp only [bind, Except.bind] at h
      split_ifs at h
      · cases h
        exact .oversized
      · cases h

theorem sendto_ok {destination : Address} {payload : List Bytes} {a : Answer} {sent : Bytes}
    (h : sendto sock destination payload a = .ok (sent, sock')) :
    sent = BufferList.concatenate payload := by
  unfold sendto systemCall at h
  split_ifs at h
  · simp only [bind, Except.bind] at h
    split_ifs at h
    cases h
    rfl
  · cases h

theorem sendto_error {destination : Address} {payload : List Bytes} {a : Answer}
    (h : sendto sock destination payload a = .error e) : DatagramFault e := by
  unfold sendto at h
  cases hcall : systemCall "sendmsg" (toInt a.value) a.errno 0 with
  | error e' =>
      rw [hcall] at h
      cases h
      exact .kernel (systemCall_fault hcall)
  | ok bytesSent =>
      rw [hcall] at h
      simp only [bind, Except.bind] at h
      split_ifs at h
      · cases h
        exact .tooBig
      · cases h

end

end UDPSocket

namespace TCPOverUDPSocketAdapter

section

variable {d d' : TCPOverUDPSocketAdapter} {e : Exception}

/-- The segment in the payload of a UDP datagram. -/
def segmentIn (payload : Bytes) : Option TCPSegment :=
  if (TCPSegment.parse {} payload 0).2 = .noError then some (TCPSegment.parse {} payload 0).1
  else none

def heard (a : RecvAnswer) : Bytes := a.data.take (toSize (toInt a.value))

/-- What a read returns is what was received, or nothing. -/
theorem read_ok {a : RecvAnswer} {ret : Option TCPSegment} (h : d.read a = .ok (ret, d')) :
    d'.sock = d.sock.registerRead ∧ ∀ seg ∈ ret, segmentIn (heard a) = some seg := by
  unfold read at h
  cases hrecv : UDPSocket.recv d.sock a 65536 with
  | error e => rw [hrecv] at h; cases h
  | ok r =>
      obtain ⟨datagram, sock⟩ := r
      obtain ⟨rfl, rfl⟩ := UDPSocket.recv_ok hrecv
      rw [hrecv] at h
      simp only [bind, Except.bind] at h
      have hsome : ∀ seg ∈ (none : Option TCPSegment), segmentIn (heard a) = some seg := by
        intro seg hseg
        cases hseg
      have hparsed : (TCPSegment.parse {} (heard a) 0).2 = .noError → ∀ seg ∈
          some (TCPSegment.parse {} (heard a) 0).1, segmentIn (heard a) = some seg := by
        intro hresult seg hseg
        rw [Option.mem_some_iff] at hseg
        rw [← hseg]
        exact if_pos hresult
      split_ifs at h with hours hresult hlisten hsyn <;> cases h
      · exact ⟨rfl, hsome⟩
      · exact ⟨rfl, hsome⟩
      · exact ⟨rfl, hparsed (not_not.mp hresult)⟩
      · exact ⟨rfl, hsome⟩
      · exact ⟨rfl, hparsed (not_not.mp hresult)⟩

theorem read_error {a : RecvAnswer} (h : d.read a = .error e) : DatagramFault e := by
  unfold read at h
  cases hrecv : UDPSocket.recv d.sock a 65536 with
  | error e' =>
      rw [hrecv] at h
      cases h
      exact UDPSocket.recv_error hrecv
  | ok r =>
      rw [hrecv] at h
      simp only [bind, Except.bind] at h
      split_ifs at h <;> cases h

/-- What is sent for a segment is parsed as the segment. -/
theorem segmentIn_serialize {seg : TCPSegment} (hplain : seg.Plain) (sport dport : UInt16) :
    ∃ cksum bufs, (seg.addressed sport dport seg.header.cksum).serialize 0 = .ok bufs ∧
      segmentIn (BufferList.concatenate bufs) = some (seg.addressed sport dport cksum) := by
  have hdoff : seg.header.doff.toNat = 5 := by rw [hplain.doff_eq]; rfl
  have hmax : TCPConfig.maxPayloadSize = 1000 := rfl
  have hpayload := hplain.payload_le
  obtain ⟨cksum, opts, hopts, hserialize, hcheck⟩ := TCPSegment.exists_serialize_eq
    (seg.addressed sport dport seg.header.cksum) 0 hdoff.ge
    (by show 4 * seg.header.doff.toNat + seg.payload.length ≤ 65535; omega) (by decide)
  refine ⟨cksum, _, hserialize, ?_⟩
  have hparse := TCPSegment.parse_of_valid {} (h := (seg.addressed sport dport cksum).header)
    hdoff.ge (hdoff.trans_le (by omega)) hopts hcheck
  have hbytes : BufferList.concatenate [(seg.addressed sport dport cksum).header.fixedBytes ++ opts,
      seg.payload] = (seg.addressed sport dport cksum).header.fixedBytes ++ (opts ++ seg.payload) := by
    simp [BufferList.concatenate]
  show segmentIn (BufferList.concatenate
    [(seg.addressed sport dport cksum).header.fixedBytes ++ opts, seg.payload]) = _
  unfold segmentIn
  rw [hbytes]
  exact (if_pos (congrArg Prod.snd hparse)).trans (congrArg (fun r => some r.1) hparse)

theorem write_eq {seg : TCPSegment} (hplain : seg.Plain) (a : Answer) :
    ∃ cksum bufs, segmentIn (BufferList.concatenate bufs)
        = some (seg.addressed d.cfg.source.port d.cfg.destination.port cksum) ∧
      d.write seg a = (UDPSocket.sendto d.sock d.cfg.destination bufs a).map
        fun r => (some r.1, { d with sock := r.2 }) := by
  obtain ⟨cksum, bufs, hserialize, hparse⟩ :=
    segmentIn_serialize hplain d.cfg.source.port d.cfg.destination.port
  refine ⟨cksum, bufs, hparse, ?_⟩
  have hserialize' : TCPSegment.serialize { seg with header := { seg.header with
      sport := d.cfg.source.port, dport := d.cfg.destination.port } } 0 = .ok bufs := hserialize
  unfold write
  simp only [hserialize', throwing, bind, Except.bind]
  cases UDPSocket.sendto d.sock d.cfg.destination bufs a <;> rfl

end

instance : LawfulFdAdapter TCPOverUDPSocketAdapter where
  heard := heard
  segmentIn := segmentIn
  read_ok := by
    intro d d' a ret h
    obtain ⟨hsock, hseg⟩ := read_ok h
    refine ⟨?_, hseg⟩
    show d'.sock.readCount ≠ d.sock.readCount
    rw [hsock]
    exact readCount_ne _
  read_error := read_error
  write_ok := by
    intro d d' seg a sent hplain h bytes hbytes
    obtain ⟨cksum, bufs, hparse, hwrite⟩ := write_eq (d := d) hplain a
    have hsent : (UDPSocket.sendto d.sock d.cfg.destination bufs a).map
        (fun r => (some r.1, { d with sock := r.2 })) = .ok (sent, d') := hwrite.symm.trans h
    cases hsend : UDPSocket.sendto d.sock d.cfg.destination bufs a with
    | error e => rw [hsend] at hsent; cases hsent
    | ok r =>
        rw [hsend] at hsent
        cases hsent
        obtain rfl := Option.mem_some_iff.mp hbytes
        obtain ⟨sent, sock⟩ := r
        rw [UDPSocket.sendto_ok hsend]
        exact ⟨_, _, cksum, hparse⟩
  write_error := by
    intro d seg a e hplain h
    obtain ⟨cksum, bufs, -, hwrite⟩ := write_eq (d := d) hplain a
    have hsent : (UDPSocket.sendto d.sock d.cfg.destination bufs a).map
        (fun r => (some r.1, { d with sock := r.2 })) = .error e := hwrite.symm.trans h
    cases hsend : UDPSocket.sendto d.sock d.cfg.destination bufs a with
    | error e' =>
        rw [hsend] at hsent
        cases hsent
        exact UDPSocket.sendto_error hsend
    | ok r => rw [hsend] at hsent; cases hsent

end TCPOverUDPSocketAdapter

/-! ## TUN devices -/

namespace TCPOverIPv4Adapter

/-- A parsed datagram has one buffer, and then nothing is thrown. -/
theorem unwrapTcpInIp_parse (a : TCPOverIPv4Adapter) (data : Bytes) :
    ∃ r, a.unwrapTcpInIp (IPv4Datagram.parse {} data).1 = .ok r := by
  have hpayload : ∃ buffer, BufferList.toBuffer (IPv4Datagram.parse {} data).1.payload
      = .ok buffer := by
    unfold IPv4Datagram.parse
    generalize (IPv4Header.parse {}).run { buffer := data } = r
    obtain ⟨⟨h, result⟩, p⟩ := r
    dsimp only
    split_ifs
    all_goals exact ⟨p.buffer, rfl⟩
  obtain ⟨buffer, hbuffer⟩ := hpayload
  unfold unwrapTcpInIp
  rw [hbuffer]
  simp only [bind, Except.bind]
  split_ifs
  all_goals exact ⟨_, rfl⟩

/-- A segment that is returned is the one in the datagram. -/
theorem carried_of_unwrapTcpInIp {a a' : TCPOverIPv4Adapter} {d : IPv4Datagram} {seg : TCPSegment}
    (h : a.unwrapTcpInIp d = .ok (some seg, a')) : carried d = some seg := by
  by_cases hours : a.listening = true ∨
      (d.header.dst = a.source.ipv4Numeric ∧ d.header.src = a.destination.ipv4Numeric)
  · cases hcarried : carried d with
    | none =>
        rcases unwrapTcpInIp_of_not_carried (a := a) (Or.inl hcarried) with hnone | ⟨-, e, he⟩
        · rw [hnone] at h
          cases h
        · rw [he] at h
          cases h
    | some seg' =>
        rw [unwrapTcpInIp_of_carried hcarried hours] at h
        split_ifs at h <;> cases h <;> rfl
  · rw [not_or, Bool.not_eq_true, not_and_or] at hours
    rcases unwrapTcpInIp_of_not_carried (Or.inr hours) with hnone | ⟨-, e, he⟩
    · rw [hnone] at h
      cases h
    · rw [he] at h
      cases h

/-- What is written for a segment is a datagram that carries it. -/
theorem carried_wrapTcpInIp (a : TCPOverIPv4Adapter) {seg : TCPSegment} (hplain : seg.Plain) :
    ∃ r bufs cksum, a.wrapTcpInIp seg = .ok r ∧ r.2.serialize = .ok bufs ∧
      BufferList.size bufs ≤ 2000 ∧ 0 < BufferList.size bufs ∧
      (IPv4Datagram.parse {} (BufferList.concatenate bufs)).2 = .noError ∧
      carried (IPv4Datagram.parse {} (BufferList.concatenate bufs)).1
        = some (seg.addressed a.source.port a.destination.port cksum) := by
  have hdoff : seg.header.doff.toNat = 5 := by rw [hplain.doff_eq]; rfl
  have hmax : TCPConfig.maxPayloadSize = 1000 := rfl
  have hpayload := hplain.payload_le
  set wire : UInt16 → TCPSegment := seg.addressed a.source.port a.destination.port with hwire
  set ip : IPv4Header := {
    src := a.source.ipv4Numeric
    dst := a.destination.ipv4Numeric
    len := UInt16.ofNat (5 * 4 + seg.header.doff.toNat * 4 + seg.payload.length) } with hip
  have hiplen : ip.len.toNat = 40 + seg.payload.length := by
    show (5 * 4 + seg.header.doff.toNat * 4 + seg.payload.length) % 2 ^ 16 = _
    omega
  -- the segment, in the buffers of the datagram
  obtain ⟨cksum, opts, hopts, hserialize, hcheck⟩ :=
    TCPSegment.exists_serialize_eq (wire seg.header.cksum) ip.pseudoCksum hdoff.ge
      (by show 4 * seg.header.doff.toNat + seg.payload.length ≤ 65535; omega) ip.pseudoCksum_lt
  have hnil : opts = [] := by
    apply List.eq_nil_of_length_eq_zero
    have hopts' : opts.length = 4 * seg.header.doff.toNat - 20 := hopts
    omega
  subst hnil
  have hwrap : a.wrapTcpInIp seg = .ok (wire seg.header.cksum,
      { header := ip, payload := [(wire cksum).header.fixedBytes ++ [], seg.payload] }) := by
    unfold wrapTcpInIp
    exact congrArg (fun r => r >>= fun payload => Except.ok
      (wire seg.header.cksum, ({ header := ip, payload } : IPv4Datagram))) hserialize
  have hfixed := TCPHeader.length_fixedBytes (wire cksum).header
  have hsize : BufferList.size [(wire cksum).header.fixedBytes ++ [], seg.payload]
      = 20 + seg.payload.length := by
    simp only [BufferList.size, List.map_cons, List.map_nil, List.sum_cons, List.sum_nil,
      List.append_nil, hfixed, Nat.add_zero]
  -- the datagram
  have hlength : BufferList.size [(wire cksum).header.fixedBytes ++ [], seg.payload]
      = ip.payloadLength.toNat := by
    have hhlen : 4 * ip.hlen.toNat = 20 := rfl
    rw [hsize, IPv4Header.payloadLength_toNat (by omega), hiplen, hhlen]
    omega
  obtain ⟨w, hdgram⟩ := IPv4Datagram.exists_serialize_eq
    (d := { header := ip, payload := [(wire cksum).header.fixedBytes ++ [], seg.payload] })
    rfl rfl hlength
  have hfixed' := IPv4Header.length_fixedBytes { ip with cksum := w }
  have hparse : IPv4Datagram.parse {} ({ ip with cksum := w }.fixedBytes ++
      ((wire cksum).header.fixedBytes ++ ([] ++ seg.payload)))
        = ({ header := { ip with cksum := w }
             payload := [(wire cksum).header.fixedBytes ++ ([] ++ seg.payload)] }, .noError) := by
    refine IPv4Datagram.parse_of_fields {} rfl rfl (Nat.two_pow_pos 13) ?_
    show ip.len.toNat = _
    rw [hiplen]
    simp only [List.length_append, List.length_nil, hfixed]
    omega
  have hbytes : BufferList.concatenate ({ ip with cksum := w }.fixedBytes ::
      [(wire cksum).header.fixedBytes ++ [], seg.payload])
        = { ip with cksum := w }.fixedBytes ++
          ((wire cksum).header.fixedBytes ++ ([] ++ seg.payload)) := by
    simp [BufferList.concatenate]
  have hsize' : BufferList.size ({ ip with cksum := w }.fixedBytes ::
      [(wire cksum).header.fixedBytes ++ [], seg.payload]) = 40 + seg.payload.length := by
    have hcons : BufferList.size ({ ip with cksum := w }.fixedBytes ::
        [(wire cksum).header.fixedBytes ++ [], seg.payload])
        = { ip with cksum := w }.fixedBytes.length +
          BufferList.size [(wire cksum).header.fixedBytes ++ [], seg.payload] := rfl
    rw [hcons, hsize, hfixed']
    omega
  refine ⟨_, _, cksum, hwrap, hdgram, hsize'.trans_le (by omega),
    (Nat.zero_lt_of_lt (Nat.lt_add_right _ (by decide : 0 < 40))).trans_eq hsize'.symm, ?_⟩
  rw [hbytes, hparse]
  refine ⟨rfl, ?_⟩
  have hsegment := TCPSegment.parse_of_valid {} (h := (wire cksum).header) hdoff.ge
    (hdoff.trans_le (by omega)) hopts hcheck
  have hsegment' : TCPSegment.parse {} ((wire cksum).header.fixedBytes ++ ([] ++ seg.payload))
      ({ ip with cksum := w } : IPv4Header).pseudoCksum = (wire cksum, .noError) := hsegment
  have hproto : ({ ip with cksum := w } : IPv4Header).proto = IPv4Header.protoTCP := rfl
  unfold carried
  rw [if_pos hproto]
  show (if _ then _ else _) = _
  rw [hsegment']
  rfl

end TCPOverIPv4Adapter

theorem TunFD.write_eq (tun : FDWrapper) {views : List Bytes} (hpos : 0 < BufferList.size views)
    (hle : BufferList.size views ≤ 2000) (a : TunAnswer) :
    TunFD.write tun views a = match a with
      | .took => .ok (BufferList.concatenate views, tun.registerWrite)
      | .failed errno _ => .error (.unixError "writev" errno) := by
  cases a with
  | took =>
      let answer : Answer := ⟨BufferList.size views, 0⟩
      have hvalue : 0 ≤ answer.value := Int.natCast_nonneg (BufferList.size views)
      have hmax : answer.value ≤ Answer.maxTransfer := by
        show (BufferList.size views : Int) ≤ 0x7ffff000
        omega
      have hcount : answer.count = BufferList.size views := Int.toNat_natCast _
      let buffer : BufferViewList := { views }
      have hle' : answer.count ≤ buffer.size := hcount.le
      obtain ⟨left, honce, -⟩ := FileDescriptor.writeOnce_of_count (Or.inl ⟨hvalue, hmax⟩) hvalue
        hle' (fun _ => by omega)
      show (FileDescriptor.writeOnce { views := views } answer >>= fun _ =>
        Except.ok (BufferList.concatenate views, tun.registerWrite)) = _
      rw [honce]
      rfl
  | failed errno hne =>
      have hdoc : Answer.Documented ⟨-1, errno⟩ := Or.inr ⟨rfl, hne⟩
      unfold TunFD.write
      dsimp only
      rw [FileDescriptor.writeOnce_of_failure hdoc (Int.neg_neg_of_pos Int.one_pos)]
      rfl

namespace TCPOverIPv4OverTunFdAdapter

section

variable {d d' : TCPOverIPv4OverTunFdAdapter} {e : Exception}

/-- The segment in an IPv4 datagram. -/
def segmentIn (data : Bytes) : Option TCPSegment :=
  if (IPv4Datagram.parse {} data).2 = .noError then
    TCPOverIPv4Adapter.carried (IPv4Datagram.parse {} data).1
  else none

def heard (a : ReadAnswer) : Bytes := a.data.take (toSize (toInt a.value))

theorem read_ok {a : ReadAnswer} {ret : Option TCPSegment} (h : d.read a = .ok (ret, d')) :
    d'.tun.readCount = d.tun.readCount + 1 ∧ ∀ seg ∈ ret, segmentIn (heard a) = some seg := by
  unfold read at h
  cases hread : d.tun.read (2 ^ 64 - 1) a with
  | error e => rw [hread] at h; cases h
  | ok r =>
      obtain ⟨data, tun⟩ := r
      obtain ⟨hdata, hcount⟩ : data = heard a ∧ tun.readCount = d.tun.readCount + 1 :=
        FDWrapper.read_ok hread
      subst hdata
      rw [hread] at h
      simp only [bind, Except.bind] at h
      by_cases hresult : (IPv4Datagram.parse {} (heard a)).2 = .noError
      · rw [if_neg (not_not.mpr hresult)] at h
        cases hunwrap : throwing (({ d with tun } : TCPOverIPv4OverTunFdAdapter).toIPv4.unwrapTcpInIp
            (IPv4Datagram.parse {} (heard a)).1) with
        | error e =>
            rw [hunwrap] at h
            cases h
        | ok r =>
            rw [hunwrap] at h
            cases h
            refine ⟨hcount, fun seg hseg => ?_⟩
            unfold segmentIn
            rw [if_pos hresult]
            have hr : r = (some seg, r.2) := by rw [← Option.mem_def.mp hseg]
            exact TCPOverIPv4Adapter.carried_of_unwrapTcpInIp (hr ▸ throwing_eq_ok hunwrap)
      · rw [if_pos hresult] at h
        cases h
        refine ⟨hcount, fun seg hseg => ?_⟩
        cases hseg

theorem read_error {a : ReadAnswer} (h : d.read a = .error e) : DatagramFault e := by
  unfold read at h
  cases hread : d.tun.read (2 ^ 64 - 1) a with
  | error e' =>
      rw [hread] at h
      cases h
      exact .kernel (FDWrapper.read_error hread)
  | ok r =>
      obtain ⟨data, tun⟩ := r
      obtain ⟨r', hunwrap⟩ := TCPOverIPv4Adapter.unwrapTcpInIp_parse
        ({ d with tun } : TCPOverIPv4OverTunFdAdapter).toIPv4 data
      rw [hread] at h
      simp only [bind, Except.bind, hunwrap, throwing] at h
      split_ifs at h <;> cases h

theorem write_eq {seg : TCPSegment} (hplain : seg.Plain) (a : TunAnswer) :
    ∃ bytes cksum, segmentIn bytes
        = some (seg.addressed d.cfg.source.port d.cfg.destination.port cksum) ∧
      d.write seg a = match a with
        | .took => .ok (some bytes, { d with tun := d.tun.registerWrite })
        | .failed errno _ => .error (.unixError "writev" errno) := by
  obtain ⟨r, bufs, cksum, hwrap, hserialize, hle, hpos, hresult, hcarried⟩ :=
    TCPOverIPv4Adapter.carried_wrapTcpInIp d.toIPv4 hplain
  refine ⟨BufferList.concatenate bufs, cksum, ?_, ?_⟩
  · unfold segmentIn
    rw [if_pos hresult]
    exact hcarried
  · have hwrite := TunFD.write_eq d.tun hpos hle a
    unfold write
    simp only [hwrap, hserialize, throwing, bind, Except.bind, hwrite]
    cases a <;> rfl

end

instance : LawfulFdAdapter TCPOverIPv4OverTunFdAdapter where
  heard := heard
  segmentIn := segmentIn
  read_ok := by
    intro d d' a ret h
    obtain ⟨hcount, hseg⟩ := read_ok h
    refine ⟨?_, hseg⟩
    show d'.tun.readCount ≠ d.tun.readCount
    rw [hcount]
    exact readCount_ne _
  read_error := read_error
  write_ok := by
    intro d d' seg a sent hplain h bytes hbytes
    obtain ⟨bytes', cksum, hparse, hwrite⟩ := write_eq (d := d) hplain a
    cases a with
    | took =>
        cases hwrite.symm.trans h
        cases Option.mem_some_iff.mp hbytes
        exact ⟨_, _, cksum, hparse⟩
    | failed errno hne => cases hwrite.symm.trans h
  write_error := by
    intro d seg a e hplain h
    obtain ⟨bytes, cksum, -, hwrite⟩ := write_eq (d := d) hplain a
    cases a with
    | took => cases hwrite.symm.trans h
    | failed errno hne =>
        cases hwrite.symm.trans h
        exact .kernel (.failed _ _)

end TCPOverIPv4OverTunFdAdapter

/-! ## Random loss -/

namespace LossyFdAdapter

section

variable {δ ρ ω : Type} [FdAdapter δ ρ ω]

theorem read_cases {d d' : LossyFdAdapter δ} {a : UInt16 × ρ} {ret : Option TCPSegment}
    (h : d.read a = .ok (ret, d')) :
    ∃ ret', FdAdapter.read d.adapter a.2 = .ok (ret', d'.adapter) ∧ ∀ seg ∈ ret, seg ∈ ret' := by
  unfold read at h
  cases hread : FdAdapter.read d.adapter a.2 with
  | error e => rw [hread] at h; cases h
  | ok r =>
      rw [hread] at h
      simp only [bind, Except.bind] at h
      split_ifs at h <;> cases h
      · exact ⟨r.1, rfl, fun seg hseg => by cases hseg⟩
      · exact ⟨r.1, rfl, fun seg hseg => hseg⟩

theorem read_error {d : LossyFdAdapter δ} {a : UInt16 × ρ} {e : Exception}
    (h : d.read a = .error e) : FdAdapter.read d.adapter a.2 = .error e := by
  unfold read at h
  cases hread : FdAdapter.read d.adapter a.2 with
  | error e' => rw [hread] at h; cases h; rfl
  | ok r =>
      rw [hread] at h
      simp only [bind, Except.bind] at h
      split_ifs at h <;> cases h

theorem write_cases {d d' : LossyFdAdapter δ} {seg : TCPSegment} {a : UInt16 × ω}
    {sent : Option Bytes} (h : d.write seg a = .ok (sent, d')) :
    (sent = none ∧ d' = d) ∨ FdAdapter.write d.adapter seg a.2 = .ok (sent, d'.adapter) := by
  unfold write at h
  split_ifs at h
  · cases h
    exact Or.inl ⟨rfl, rfl⟩
  · right
    cases hwrite : FdAdapter.write d.adapter seg a.2 with
    | error e => rw [hwrite] at h; cases h
    | ok r => rw [hwrite] at h; cases h; rfl

theorem write_error {d : LossyFdAdapter δ} {seg : TCPSegment} {a : UInt16 × ω} {e : Exception}
    (h : d.write seg a = .error e) : FdAdapter.write d.adapter seg a.2 = .error e := by
  unfold write at h
  split_ifs at h
  · cases h
  · cases hwrite : FdAdapter.write d.adapter seg a.2 with
    | error e' => rw [hwrite] at h; cases h; rfl
    | ok r => rw [hwrite] at h; cases h

end

instance {δ ρ ω : Type} [FdAdapter δ ρ ω] [h : LawfulFdAdapter δ] :
    LawfulFdAdapter (LossyFdAdapter δ) where
  heard := fun a => h.heard a.2
  segmentIn := h.segmentIn
  read_ok := by
    intro d d' a ret hread
    obtain ⟨ret', hread', hret⟩ := read_cases hread
    obtain ⟨hcount, hseg⟩ := h.read_ok hread'
    exact ⟨hcount, fun seg hmem => hseg seg (hret seg hmem)⟩
  read_error := fun hread => h.read_error (read_error hread)
  write_ok := by
    intro d d' seg a sent hplain hwrite bytes hbytes
    rcases write_cases hwrite with ⟨rfl, -⟩ | hwrite'
    · cases hbytes
    · exact h.write_ok hplain hwrite' bytes hbytes
  write_error := fun hplain hwrite => h.write_error hplain (write_error hwrite)

end LossyFdAdapter

end Sponge
