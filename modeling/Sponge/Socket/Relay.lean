import Sponge.Adapter.Lawful
import Sponge.Socket.Calls
import Sponge.TCPSpongeSocket
import Sponge.Util.EventLoop.Contract

set_option autoImplicit false

/-! # The rules of a socket

Every callback is a sequence of calls of the connection. The contract of the four rules says so,
and that the flags of the socket agree with the streams: the owner's end is passed on to the
connection, and the end of the inbound stream to the owner. -/

namespace Sponge

open Util Util.EventLoop Run Endpoint

namespace TCPSpongeSocket

section

variable {δ : Type} (s : TCPSpongeSocket δ)

/-- What the owner of the connection sees. -/
def endpoint : Endpoint where
  conn := s.tcp
  accepted := s.accepted
  taken := s.given
  sent := s.sent

/-- The inbound stream is at its end, or has failed. -/
def inboundOver : Bool := s.tcp.inboundStream.eof || s.tcp.inboundStream.error

theorem inboundOver_iff : s.inboundOver = true ↔ InboundDone s.tcp := Bool.or_eq_true_iff

/-! ## The callbacks -/

section

variable {ρ ω : Type} (a : SocketAnswers ρ ω)

theorem rule2_run : ((rule2 (δ := δ)).callback a).run s =
    match s.threadData.read s.tcp.remainingOutboundCapacity a.read with
    | .error e => .error e s
    | .ok (data, fd) =>
        if (s.tcp.write data).2 ≠ data.length then
          .error (.runtimeError "TCPConnection::write() accepted less than advertised length")
            ({ s with threadData := fd }.write data)
        else if fd.eof then .ok () ({ s with threadData := fd }.write data).endInput
        else .ok () ({ s with threadData := fd }.write data) := by
  simp only [rule2, onThreadData, EStateM.run_bind, EStateM.run_get, onPart_run]
  cases s.threadData.read s.tcp.remainingOutboundCapacity a.read with
  | error e => rfl
  | ok r =>
      obtain ⟨data, fd⟩ := r
      simp only [EStateM.run_modify]
      by_cases hlen : (s.tcp.write data).2 = data.length
      · rw [if_neg (not_not.mpr hlen), if_neg (not_not.mpr hlen)]
        have heof : ({ s with threadData := fd }.write data).threadData.eof = fd.eof := rfl
        simp only [EStateM.run_bind, EStateM.run_get, heof]
        cases fd.eof <;> rfl
      · rw [if_pos hlen, if_pos hlen]
        rfl

theorem rule3_run : ((rule3 (δ := δ)).callback a).run s =
    match s.threadData.write s.offer a.write with
    | .error e => .error e s
    | .ok (n, fd) =>
        if ({ s with threadData := fd }.pop n).inboundOver then
          match fd.shutdown .wr a.shutdown with
          | .error e => .error e ({ s with threadData := fd }.pop n)
          | .ok (_, fd') => .ok ()
              { { s with threadData := fd }.pop n with threadData := fd', inboundShutdown := true }
        else .ok () ({ s with threadData := fd }.pop n) := by
  simp only [rule3, onThreadData, EStateM.run_bind, EStateM.run_get, onPart_run]
  cases s.threadData.write s.offer a.write with
  | error e => rfl
  | ok r =>
      obtain ⟨n, fd⟩ := r
      simp only [EStateM.run_modify]
      change (if ({ s with threadData := fd }.pop n).inboundOver then _ else _ :
        EStateM Exception (TCPSpongeSocket δ) Unit).run _ = _
      cases ({ s with threadData := fd }.pop n).inboundOver with
      | false => rfl
      | true =>
          have hfd : ({ s with threadData := fd }.pop n).threadData = fd := rfl
          simp only [if_true, EStateM.run_bind, onPart_run, hfd]
          cases fd.shutdown .wr a.shutdown <;> rfl

variable [FdAdapter δ ρ ω]

theorem rule1_run : ((rule1 (δ := δ)).callback a).run s =
    match FdAdapter.read s.datagramAdapter a.datagram with
    | .error e => .error e s
    | .ok (seg, d) => .ok () ({ s with datagramAdapter := d }.receive seg).noteAcked := by
  simp only [rule1, onAdapter, EStateM.run_bind, onPart_run]
  cases FdAdapter.read s.datagramAdapter a.datagram <;> rfl

theorem rule4_run : ((rule4 (δ := δ)).callback a).run s =
    (sendSegments s.tcp.segmentsOut a.segments).run s := by
  simp only [rule4, EStateM.run_bind, EStateM.run_get]

/-- One pass of the loop of rule 4. -/
theorem sendSegments_cons (seg : TCPSegment) (queue : List TCPSegment) (answers : Nat → ω) :
    (sendSegments (seg :: queue) answers).run s =
    match FdAdapter.write s.datagramAdapter seg (answers 0) with
    | .error e => .error e s
    | .ok (sent, d) => (sendSegments queue fun n => answers (n + 1)).run
        ({ s with datagramAdapter := d }.popSegment sent) := by
  simp only [sendSegments, onAdapter, EStateM.run_bind, onPart_run]
  cases FdAdapter.write s.datagramAdapter seg (answers 0) <;> rfl

end

end

/-! ## The contract -/

section

variable {δ ρ ω : Type} [FdAdapter δ ρ ω] [LawfulFdAdapter δ]

/-- The segment is in the datagram, with some ports and checksum. -/
def Holds (δ : Type) {ρ ω : Type} [FdAdapter δ ρ ω] [LawfulFdAdapter δ] (bytes : Bytes)
    (seg : TCPSegment) : Prop :=
  ∃ sport dport cksum,
    LawfulFdAdapter.segmentIn (δ := δ) bytes = some (seg.addressed sport dport cksum)

/-- What holds at any time between two ticks of a socket whose connection and records were `x₀`. -/
structure Inv (junk : Nat → UInt8) (allowed : TCPSegment → Prop) (x₀ : Endpoint)
    (s : TCPSpongeSocket δ) : Prop where
  reaches : Reaches junk (Callable allowed) x₀ s.endpoint
  coherent : s.endpoint.Coherent
  /-- The owner's end is the end of the outbound stream. -/
  outbound : s.outboundShutdown = s.tcp.sender.stream.isInputEnd
  inbound : s.inboundShutdown = true → InboundDone s.tcp
  wire : ∀ bytes ∈ s.wire, ∃ seg ∈ s.sent, Holds δ bytes seg

variable {junk : Nat → UInt8} {allowed : TCPSegment → Prop} {x₀ : Endpoint}

section

variable {s s' : TCPSpongeSocket δ}

/-- A callback has called the connection. -/
theorem Inv.call (h : s.Inv junk allowed x₀) (op : ConnectionOp) (hop : Callable allowed op)
    (hcall : s'.endpoint = s.endpoint.call junk op)
    (hout : s'.outboundShutdown = s'.tcp.sender.stream.isInputEnd)
    (hin : s'.inboundShutdown = s.inboundShutdown)
    (hwire : ∀ bytes ∈ s'.wire, ∃ seg ∈ s'.sent, Holds δ bytes seg) :
    s'.Inv junk allowed x₀ where
  reaches := hcall ▸ h.reaches.call hop
  coherent := hcall ▸ h.coherent.call junk op
  outbound := hout
  inbound := by
    intro hshut
    have hdone : InboundDone s.endpoint.conn := h.inbound (hin ▸ hshut)
    have hdone' := hdone.call h.coherent junk op
    rw [← hcall] at hdone'
    exact hdone'
  wire := hwire

/-- A call that does not end the outbound stream. -/
theorem Inv.call_of_ne (h : s.Inv junk allowed x₀) (op : ConnectionOp) (hop : Callable allowed op)
    (hne : op ≠ .endInputStream) (hcall : s'.endpoint = s.endpoint.call junk op)
    (hout : s'.outboundShutdown = s.outboundShutdown) (hin : s'.inboundShutdown = s.inboundShutdown)
    (hwire : s'.wire = s.wire) (hsent : s'.sent = s.sent) : s'.Inv junk allowed x₀ := by
  refine h.call op hop hcall ?_ hin ?_
  · have hended := h.coherent.call_inputEnd junk op hne
    rw [← hcall] at hended
    exact hout.trans (h.outbound.trans hended.symm)
  · rw [hwire, hsent]
    exact h.wire

theorem noteAcked_outboundShutdown (s : TCPSpongeSocket δ) :
    s.noteAcked.outboundShutdown = s.outboundShutdown := by
  unfold noteAcked
  split_ifs <;> rfl

theorem noteAcked_datagramAdapter (s : TCPSpongeSocket δ) :
    s.noteAcked.datagramAdapter = s.datagramAdapter := by
  unfold noteAcked
  split_ifs <;> rfl

theorem Inv.noteAcked (h : s.Inv junk allowed x₀) : s.noteAcked.Inv junk allowed x₀ := by
  unfold TCPSpongeSocket.noteAcked
  split_ifs
  · exact ⟨h.reaches, h.coherent, h.outbound, h.inbound, h.wire⟩
  · exact h

theorem Inv.setAdapter (h : s.Inv junk allowed x₀) (d : δ) :
    { s with datagramAdapter := d }.Inv junk allowed x₀ :=
  ⟨h.reaches, h.coherent, h.outbound, h.inbound, h.wire⟩

theorem Inv.setThreadData (h : s.Inv junk allowed x₀) (fd : FDWrapper) :
    { s with threadData := fd }.Inv junk allowed x₀ :=
  ⟨h.reaches, h.coherent, h.outbound, h.inbound, h.wire⟩

theorem Inv.receive (h : s.Inv junk allowed x₀) {seg : Option TCPSegment}
    (hseg : ∀ seg' ∈ seg, allowed seg') : (s.receive seg).Inv junk allowed x₀ := by
  cases seg with
  | none => exact h
  | some seg =>
      exact h.call_of_ne (.segmentReceived seg) (hseg seg rfl) nofun rfl rfl rfl rfl rfl

/-- The bytes of a read fit into the outbound stream, as long as it is open. -/
theorem Inv.write_count (h : s.Inv junk allowed x₀) (hout : s.outboundShutdown = false)
    {data : Bytes} (hfit : data.length ≤ s.tcp.remainingOutboundCapacity) :
    (s.tcp.write data).2 = data.length := by
  unfold TCPConnection.write
  by_cases hnil : data.isEmpty = true
  · rw [if_pos hnil, List.isEmpty_iff.mp hnil]
    rfl
  · rw [if_neg hnil]
    have hopen : s.tcp.sender.stream.isInputEnd = false := h.outbound ▸ hout
    have hcarries : s.tcp.sender.stream.Carries s.accepted := h.coherent.sender.carries
    show (s.tcp.sender.stream.write data).2 = data.length
    rw [hcarries.write_count, hopen, ← hcarries.remainingCapacity_eq]
    exact Nat.min_eq_right hfit

theorem Inv.write (h : s.Inv junk allowed x₀) {data : Bytes}
    (hcount : (s.tcp.write data).2 = data.length) : (s.write data).Inv junk allowed x₀ := by
  refine h.call_of_ne (.write data) trivial nofun ?_ rfl rfl rfl rfl
  show Endpoint.mk _ _ _ _ = Endpoint.mk _ (_ ++ data.take (s.tcp.write data).2) _ _
  rw [hcount, List.take_length]
  rfl

theorem Inv.endInput (h : s.Inv junk allowed x₀) : s.endInput.Inv junk allowed x₀ :=
  h.call .endInputStream trivial rfl h.coherent.endInputStream_inputEnd.symm rfl h.wire

theorem Inv.pop (h : s.Inv junk allowed x₀) {n : Nat} (hn : n ≤ s.offer.length) :
    (s.pop n).Inv junk allowed x₀ := by
  refine h.call_of_ne (.readInbound n) trivial nofun ?_ rfl rfl rfl rfl
  have htake : s.offer.take n = (s.tcp.readInbound n).1 := ByteStream.take_peekOutput _ hn
  show Endpoint.mk _ _ (_ ++ s.offer.take n) _ = _
  rw [htake]
  rfl

theorem Inv.popSegment (h : s.Inv junk allowed x₀) {seg : TCPSegment} {queue : List TCPSegment}
    (hqueue : s.tcp.segmentsOut = seg :: queue) {sent : Option Bytes}
    (hsent : ∀ bytes ∈ sent, Holds δ bytes seg) : (s.popSegment sent).Inv junk allowed x₀ := by
  have hpop : s.tcp.popSegment.1.toList = [seg] := by
    show s.tcp.segmentsOut.head?.toList = [seg]
    rw [hqueue]
    rfl
  refine h.call .popSegment trivial rfl h.outbound rfl ?_
  show ∀ bytes ∈ s.wire ++ sent.toList, ∃ seg ∈ s.sent ++ s.tcp.popSegment.1.toList, _
  rw [hpop]
  intro bytes hbytes
  rw [List.mem_append, Option.mem_toList] at hbytes
  rcases hbytes with hold | hnew
  · obtain ⟨seg', hseg', hholds⟩ := h.wire bytes hold
    exact ⟨seg', List.mem_append_left _ hseg', hholds⟩
  · exact ⟨seg, List.mem_append_right _ (List.mem_singleton.mpr rfl), hsent bytes hnew⟩

end

/-- The kernel answers as documented, and an `allowed` segment is in the datagram that has arrived,
if any. -/
structure Expected (δ : Type) {ρ ω : Type} [FdAdapter δ ρ ω] [LawfulFdAdapter δ]
    (allowed : TCPSegment → Prop) (a : SocketAnswers ρ ω) : Prop where
  read : a.read.Documented
  write : a.write.Documented
  datagram : ∀ seg ∈ LawfulFdAdapter.segmentIn (δ := δ) (LawfulFdAdapter.heard δ a.datagram),
    allowed seg

instance {δ ρ ω : Type} [FdAdapter δ ρ ω] [LawfulFdAdapter δ] (allowed : TCPSegment → Prop)
    [DecidablePred allowed] (a : SocketAnswers ρ ω) : Decidable (Expected δ allowed a) :=
  decidable_of_iff (a.read.Documented ∧ a.write.Documented ∧
      ∀ seg ∈ LawfulFdAdapter.segmentIn (δ := δ) (LawfulFdAdapter.heard δ a.datagram), allowed seg)
    ⟨fun h => ⟨h.1, h.2.1, h.2.2⟩, fun h => ⟨h.read, h.write, h.datagram⟩⟩

/-- What the rules of a socket may rely on, when the `allowed` segments arrive. -/
def contract (junk : Nat → UInt8) (allowed : TCPSegment → Prop) (x₀ : Endpoint) :
    Contract SocketRule (TCPSpongeSocket δ) (SocketAnswers ρ ω) where
  inv := Inv junk allowed x₀
  live := fun _ _ => True
  gone := fun i s => i = .rule2 → s.outboundShutdown = true
  armed := fun i s => i = .rule2 → s.outboundShutdown = false
  idle := fun i s => match i with
    | .rule1 => s.tcp.active = false
    | .rule2 => s.tcp.active = false ∨ s.outboundShutdown = true ∨
        s.tcp.remainingOutboundCapacity = 0
    | .rule3 => s.tcp.inboundStream.size = 0 ∧ (InboundDone s.tcp → s.inboundShutdown = true)
    | .rule4 => s.tcp.segmentsOut = []
  before := fun i j => i.ctorIdx < j.ctorIdx
  ok := Expected δ allowed
  throws := DatagramFault

section

variable {s s' : TCPSpongeSocket δ} {a : SocketAnswers ρ ω}

theorem spares_of_outbound (i : SocketRule) (h : s'.outboundShutdown = s.outboundShutdown) :
    (contract (δ := δ) junk allowed x₀).Spares i s s' := by
  intro j hj
  simp only [contract, h]
  exact ⟨id, id, id⟩

theorem spares_rule2 : (contract (δ := δ) junk allowed x₀).Spares .rule2 s s' :=
  fun _ hj => ⟨id, fun _ h => absurd h hj, fun _ h => absurd h hj⟩

theorem rule1_kept (h : s.Inv junk allowed x₀) (hok : Expected δ allowed a) :
    match ((rule1 (δ := δ)).callback a).run s with
    | .ok _ s' => s'.Inv junk allowed x₀ ∧ s'.outboundShutdown = s.outboundShutdown ∧
        (rule1 (δ := δ)).serviceCount s ≠ (rule1 (δ := δ)).serviceCount s'
    | .error e s' => s'.Inv junk allowed x₀ ∧ DatagramFault e := by
  rw [rule1_run]
  cases hread : FdAdapter.read s.datagramAdapter a.datagram with
  | error e => exact ⟨h, LawfulFdAdapter.read_error hread⟩
  | ok r =>
      obtain ⟨seg, d⟩ := r
      obtain ⟨hcount, hseg⟩ := LawfulFdAdapter.read_ok hread
      have hallowed : ∀ seg' ∈ seg, allowed seg' := fun seg' hmem =>
        hok.datagram seg' (hseg seg' hmem)
      refine ⟨((h.setAdapter d).receive hallowed).noteAcked, ?_, ?_⟩
      · rw [noteAcked_outboundShutdown]
        cases seg <;> rfl
      · show (FdAdapter.fd s.datagramAdapter).readCount
          ≠ (FdAdapter.fd (noteAcked (receive { s with datagramAdapter := d } seg)).datagramAdapter).readCount
        rw [noteAcked_datagramAdapter]
        cases seg <;> exact hcount.symm

theorem rule2_kept (h : s.Inv junk allowed x₀) (hok : Expected δ allowed a)
    (hout : s.outboundShutdown = false) :
    match ((rule2 (δ := δ)).callback a).run s with
    | .ok _ s' => s'.Inv junk allowed x₀ ∧
        (rule2 (δ := δ) (ρ := ρ) (ω := ω)).serviceCount s ≠
          (rule2 (δ := δ) (ρ := ρ) (ω := ω)).serviceCount s'
    | .error e s' => s'.Inv junk allowed x₀ ∧ DatagramFault e := by
  rw [rule2_run, FDWrapper.read_eq _ _ hok.read]
  by_cases hfail : a.read.value < 0
  · rw [if_pos hfail]
    exact ⟨h, .kernel (.failed _ _)⟩
  rw [if_neg hfail]
  by_cases hmore : min FDWrapper.bufferSize s.tcp.remainingOutboundCapacity < a.read.data.length
  · rw [if_pos hmore]
    exact ⟨h, .kernel .readMore⟩
  rw [if_neg hmore]
  set fd := s.threadData.didRead s.tcp.remainingOutboundCapacity a.read.data
  have hcount : (s.tcp.write a.read.data).2 = a.read.data.length :=
    h.write_count hout (by omega)
  have hwrite : ({ s with threadData := fd }.write a.read.data).Inv junk allowed x₀ :=
    (h.setThreadData fd).write hcount
  have hread : s.threadData.readCount ≠ s.threadData.readCount + 1 := (readCount_ne _).symm
  dsimp only
  rw [if_neg (not_not.mpr hcount)]
  by_cases heof : fd.eof = true
  · rw [if_pos heof]
    exact ⟨hwrite.endInput, hread⟩
  · rw [if_neg heof]
    exact ⟨hwrite, hread⟩

theorem rule3_kept (h : s.Inv junk allowed x₀) (hok : Expected δ allowed a) :
    match ((rule3 (δ := δ)).callback a).run s with
    | .ok _ s' => s'.Inv junk allowed x₀ ∧ s'.outboundShutdown = s.outboundShutdown ∧
        (rule3 (δ := δ) (ρ := ρ) (ω := ω)).serviceCount s ≠
          (rule3 (δ := δ) (ρ := ρ) (ω := ω)).serviceCount s'
    | .error e s' => s'.Inv junk allowed x₀ ∧ DatagramFault e := by
  rw [rule3_run, FDWrapper.write_eq _ _ hok.write]
  by_cases hfail : a.write.value < 0
  · rw [if_pos hfail]
    exact ⟨h, .kernel (.failed _ _)⟩
  rw [if_neg hfail]
  by_cases hzero : a.write.count = 0 ∧ s.offer.length ≠ 0
  · rw [if_pos hzero]
    exact ⟨h, .kernel .wroteNothing⟩
  rw [if_neg hzero]
  by_cases hmore : s.offer.length < a.write.count
  · rw [if_pos hmore]
    exact ⟨h, .kernel .wroteMore⟩
  rw [if_neg hmore]
  have hpop : ({ s with threadData := s.threadData.registerWrite }.pop a.write.count).Inv
      junk allowed x₀ := (h.setThreadData _).pop (Nat.le_of_not_lt hmore)
  dsimp only
  by_cases hover : ({ s with threadData := s.threadData.registerWrite }.pop
      a.write.count).inboundOver = true
  · rw [if_pos hover]
    rcases s.threadData.registerWrite.shutdown_wr a.shutdown with hshut | ⟨e, he, hshut⟩
    · rw [hshut]
      refine ⟨⟨hpop.reaches, hpop.coherent, hpop.outbound, fun _ => (inboundOver_iff _).mp hover,
        hpop.wire⟩, rfl, ?_⟩
      show s.threadData.writeCount ≠ s.threadData.writeCount + 1 + 1
      grind
    · rw [hshut]
      exact ⟨hpop, .kernel he⟩
  · rw [if_neg hover]
    exact ⟨hpop, rfl, (readCount_ne _).symm⟩

/-- Rule 4 sends everything that is queued, unless the kernel fails. -/
theorem sendSegments_kept (h : s.Inv junk allowed x₀) {queue : List TCPSegment}
    (hqueue : s.tcp.segmentsOut = queue) (answers : Nat → ω) :
    match (sendSegments queue answers).run s with
    | .ok _ s' => s'.Inv junk allowed x₀ ∧ s'.outboundShutdown = s.outboundShutdown ∧
        s'.tcp.segmentsOut = []
    | .error e s' => s'.Inv junk allowed x₀ ∧ DatagramFault e := by
  induction queue generalizing s answers with
  | nil => exact ⟨h, rfl, hqueue⟩
  | cons seg queue ih =>
      have hplain : seg.Plain := h.coherent.plain.queue seg (by
        show seg ∈ s.tcp.segmentsOut
        rw [hqueue]
        exact List.mem_cons_self)
      rw [sendSegments_cons]
      cases hwrite : FdAdapter.write s.datagramAdapter seg (answers 0) with
      | error e => exact ⟨h, LawfulFdAdapter.write_error hplain hwrite⟩
      | ok r =>
          obtain ⟨sent, d⟩ := r
          have hpop : ({ s with datagramAdapter := d }.popSegment sent).Inv junk allowed x₀ :=
            (h.setAdapter d).popSegment hqueue (LawfulFdAdapter.write_ok hplain hwrite)
          refine ih hpop ?_ fun n => answers (n + 1)
          show s.tcp.segmentsOut.tail = queue
          rw [hqueue]
          rfl

end

theorem asked_rule2 (s : TCPSpongeSocket δ) :
    if (rule2 (δ := δ) (ρ := ρ) (ω := ω)).interest s = true
      then (contract (δ := δ) junk allowed x₀).armed .rule2 s
      else (contract (δ := δ) junk allowed x₀).idle .rule2 s := by
  show if (s.tcp.active && !s.outboundShutdown && decide (0 < s.tcp.remainingOutboundCapacity)) = true
    then SocketRule.rule2 = .rule2 → s.outboundShutdown = false
    else s.tcp.active = false ∨ s.outboundShutdown = true ∨ s.tcp.remainingOutboundCapacity = 0
  split_ifs with h
  · simp only [Bool.and_eq_true, Bool.not_eq_true'] at h
    exact fun _ => h.1.2
  · simp only [Bool.and_eq_true, Bool.not_eq_true', decide_eq_true_eq, not_and_or,
      Bool.not_eq_true, Bool.not_eq_false, Nat.pos_iff_ne_zero, not_not] at h
    exact or_assoc.mp h

theorem asked_rule3 (s : TCPSpongeSocket δ) :
    if (rule3 (δ := δ) (ρ := ρ) (ω := ω)).interest s = true
      then (contract (δ := δ) junk allowed x₀).armed .rule3 s
      else (contract (δ := δ) junk allowed x₀).idle .rule3 s := by
  show if (s.tcp.inboundStream.size != 0 || (s.inboundOver && !s.inboundShutdown)) = true
    then SocketRule.rule3 = .rule2 → s.outboundShutdown = false
    else s.tcp.inboundStream.size = 0 ∧ (InboundDone s.tcp → s.inboundShutdown = true)
  split_ifs with h
  · exact nofun
  · simp only [Bool.or_eq_true, bne_iff_ne, Bool.and_eq_true, Bool.not_eq_true', not_or, not_not,
      not_and, Bool.not_eq_false, inboundOver_iff] at h
    exact h

/-- The four rules keep the contract, whatever segments arrive. -/
theorem contract_kept (junk : Nat → UInt8) (allowed : TCPSegment → Prop) (x₀ : Endpoint) :
    (contract (δ := δ) junk allowed x₀).Kept table where
  before_ne := by
    rintro i j hbefore rfl
    exact lt_irrefl _ hbefore
  asked := by
    intro i s hinv _ _
    cases i with
    | rule1 =>
        show if s.tcp.active = true then _ else s.tcp.active = false
        split_ifs with h
        · exact nofun
        · exact Bool.eq_false_iff.mpr h
    | rule2 => exact asked_rule2 s
    | rule3 => exact asked_rule3 s
    | rule4 =>
        show if (!s.tcp.segmentsOut.isEmpty) = true then _ else s.tcp.segmentsOut = []
        split_ifs with h
        · exact nofun
        · simpa using h
  callback := by
    intro i a s hok hinv _ harmed
    cases i with
    | rule1 =>
        have hkept := rule1_kept hinv hok
        simp only [table]
        cases hrun : ((rule1 (δ := δ)).callback a).run s with
        | error e s' =>
            simp only [hrun] at hkept
            exact hkept
        | ok _ s' =>
            simp only [hrun] at hkept
            obtain ⟨hinv', hout, hcount⟩ := hkept
            exact ⟨hinv', trivial, spares_of_outbound _ hout, fun h => absurd h hcount⟩
    | rule2 =>
        have hkept := rule2_kept hinv hok (harmed rfl)
        simp only [table]
        cases hrun : ((rule2 (δ := δ)).callback a).run s with
        | error e s' =>
            simp only [hrun] at hkept
            exact hkept
        | ok _ s' =>
            simp only [hrun] at hkept
            obtain ⟨hinv', hcount⟩ := hkept
            exact ⟨hinv', trivial, spares_rule2, fun h => absurd h hcount⟩
    | rule3 =>
        have hkept := rule3_kept hinv hok
        simp only [table]
        cases hrun : ((rule3 (δ := δ)).callback a).run s with
        | error e s' =>
            simp only [hrun] at hkept
            exact hkept
        | ok _ s' =>
            simp only [hrun] at hkept
            obtain ⟨hinv', hout, hcount⟩ := hkept
            exact ⟨hinv', trivial, spares_of_outbound _ hout, fun h => absurd h hcount⟩
    | rule4 =>
        have hkept := sendSegments_kept hinv rfl a.segments
        simp only [table]
        rw [rule4_run]
        cases hrun : (sendSegments s.tcp.segmentsOut a.segments).run s with
        | error e s' =>
            simp only [hrun] at hkept
            exact hkept
        | ok _ s' =>
            simp only [hrun] at hkept
            obtain ⟨hinv', hout, hqueue⟩ := hkept
            refine ⟨hinv', trivial, spares_of_outbound _ hout, fun _ hinterest => ?_⟩
            have hne : (!s'.tcp.segmentsOut.isEmpty) = true := hinterest
            rw [hqueue] at hne
            cases hne
  cancel := by
    intro i s hinv _
    cases i with
    | rule2 =>
        refine ⟨hinv.endInput, fun _ => rfl, spares_rule2, ?_⟩
        intro j hbefore hidle
        cases j with
        | rule1 => exact hidle
        | rule2 => exact absurd hbefore (lt_irrefl _)
        | rule3 => exact absurd (show 2 < 1 from hbefore) (by decide)
        | rule4 => exact absurd (show 3 < 1 from hbefore) (by decide)
    | rule1 => exact ⟨hinv, nofun, spares_of_outbound _ rfl, fun _ _ => id⟩
    | rule3 => exact ⟨hinv, nofun, spares_of_outbound _ rfl, fun _ _ => id⟩
    | rule4 => exact ⟨hinv, nofun, spares_of_outbound _ rfl, fun _ _ => id⟩

end

end TCPSpongeSocket

end Sponge
