import Sponge.Basic.Run
import Sponge.TCPOverIP

set_option autoImplicit false

/-! # Locking onto a peer

A listening adapter takes its addresses from the first datagram that opens a connection:
`firstOpening` finds it in a sequence of datagrams, and the adapter after the sequence is the one
`locked` onto it (`run_eq_lockedBy`). From then on a segment is returned only if it comes from that
peer. A call that throws leaves the adapter as it is. -/

namespace Sponge

open Run

namespace TCPOverIPv4Adapter

/-- The segment in the datagram, if the datagram says that it has one and it parses. -/
def carried (d : IPv4Datagram) : Option TCPSegment :=
  if d.header.proto = IPv4Header.protoTCP then
    match BufferList.toBuffer d.payload with
    | .error _ => none
    | .ok buffer =>
        if (TCPSegment.parse {} buffer d.header.pseudoCksum).2 = .noError then
          some (TCPSegment.parse {} buffer d.header.pseudoCksum).1
        else none
  else none

/-- The segment with which the datagram opens a connection to the adapter: it is for the port of
the adapter and has a SYN and no RST. -/
def opening (a : TCPOverIPv4Adapter) (d : IPv4Datagram) : Option TCPSegment :=
  (carried d).filter fun seg =>
    seg.header.dport == a.source.port && seg.header.syn && !seg.header.rst

/-- The adapter that talks to the sender of the datagram. -/
def locked (a : TCPOverIPv4Adapter) (d : IPv4Datagram) (seg : TCPSegment) : TCPOverIPv4Adapter where
  source := { ipv4Numeric := d.header.dst, port := a.source.port }
  destination := { ipv4Numeric := d.header.src, port := seg.header.sport }
  listening := false

/-- The first datagram that opens a connection, and its segment. -/
def firstOpening (a : TCPOverIPv4Adapter) (ds : List IPv4Datagram) :
    Option (IPv4Datagram × TCPSegment) :=
  ds.findSome? fun d => (a.opening d).map fun seg => (d, seg)

/-- The adapter locked onto the first opening, if there is one. -/
def lockedBy (a : TCPOverIPv4Adapter) (ds : List IPv4Datagram) : TCPOverIPv4Adapter :=
  (a.firstOpening ds).elim a fun o => a.locked o.1 o.2

/-- The adapter after a call of `unwrap_tcp_in_ip`. -/
def step (a : TCPOverIPv4Adapter) (d : IPv4Datagram) : TCPOverIPv4Adapter :=
  match a.unwrapTcpInIp d with
  | .error _ => a
  | .ok r => r.2

/-- The segment `seg'` in `d'` comes from the source of `seg` in `d` and goes to its
destination. -/
structure SamePeer (d : IPv4Datagram) (seg : TCPSegment) (d' : IPv4Datagram)
    (seg' : TCPSegment) : Prop where
  src : d'.header.src = d.header.src
  sport : seg'.header.sport = seg.header.sport
  dst : d'.header.dst = d.header.dst
  dport : seg'.header.dport = seg.header.dport

section

variable {a a' : TCPOverIPv4Adapter} {d : IPv4Datagram} {seg : TCPSegment}

theorem opening_eq_some_iff : a.opening d = some seg ↔
    carried d = some seg ∧ seg.header.dport = a.source.port ∧ seg.header.syn = true ∧
      seg.header.rst = false := by
  unfold opening
  rw [Option.filter_eq_some_iff]
  simp [and_assoc]

/-- The last four checks, on a segment. -/
theorem unwrapTcpInIp_of_carried (hcarried : carried d = some seg)
    (hours : a.listening = true ∨
      (d.header.dst = a.source.ipv4Numeric ∧ d.header.src = a.destination.ipv4Numeric)) :
    a.unwrapTcpInIp d = .ok (
      if seg.header.dport ≠ a.source.port then (none, a)
      else if a.listening = true then
        if seg.header.syn = true ∧ seg.header.rst = false then (some seg, a.locked d seg)
        else (none, a)
      else if seg.header.sport ≠ a.destination.port then (none, a)
      else (some seg, a)) := by
  unfold carried at hcarried
  split_ifs at hcarried with hproto
  have hdst : (!a.listening && d.header.dst != a.source.ipv4Numeric) = false := by
    rcases hours with h | ⟨h, -⟩ <;> simp [h]
  have hsrc : (!a.listening && d.header.src != a.destination.ipv4Numeric) = false := by
    rcases hours with h | ⟨-, h⟩ <;> simp [h]
  unfold unwrapTcpInIp
  rw [hdst, hsrc, hproto]
  cases hbuffer : BufferList.toBuffer d.payload with
  | error e => rw [hbuffer] at hcarried; cases hcarried
  | ok buffer =>
      rw [hbuffer] at hcarried
      rcases hparse : TCPSegment.parse {} buffer d.header.pseudoCksum with ⟨tcpSeg, result⟩
      simp only [hparse] at hcarried
      split_ifs at hcarried with hresult
      cases hcarried
      subst hresult
      simp only [bind, Except.bind, hparse, bne_self_eq_false, Bool.false_eq_true, if_false]
      rw [if_neg (not_not.mpr rfl)]
      by_cases hdport : seg.header.dport = a.source.port
      · rw [if_neg (not_not.mpr hdport), if_neg (not_not.mpr hdport)]
        cases hlistening : a.listening with
        | false =>
            by_cases hsport : seg.header.sport = a.destination.port
            · simp [hsport, pure, Except.pure]
            · simp [hsport, pure, Except.pure]
        | true =>
            -- the last check is against the port that has just been stored
            cases hsyn : seg.header.syn <;> cases hrst : seg.header.rst <;>
              simp [locked, pure, Except.pure]
      · rw [if_pos hdport, if_pos hdport]
        rfl

/-- Nothing is taken from a datagram that carries no segment or is not of the connection. -/
theorem unwrapTcpInIp_of_not_carried (h : carried d = none ∨ (a.listening = false ∧
      (d.header.dst ≠ a.source.ipv4Numeric ∨ d.header.src ≠ a.destination.ipv4Numeric))) :
    a.unwrapTcpInIp d = .ok (none, a) ∨
      (carried d = none ∧ ∃ e, a.unwrapTcpInIp d = .error e) := by
  unfold unwrapTcpInIp
  by_cases hdst : (!a.listening && d.header.dst != a.source.ipv4Numeric) = true
  · exact Or.inl (if_pos hdst)
  rw [if_neg hdst]
  by_cases hsrc : (!a.listening && d.header.src != a.destination.ipv4Numeric) = true
  · exact Or.inl (if_pos hsrc)
  rw [if_neg hsrc]
  by_cases hproto : (d.header.proto != IPv4Header.protoTCP) = true
  · exact Or.inl (if_pos hproto)
  · -- the datagram passes the checks of the addresses, so it carries no segment
    have hcarried : carried d = none := by
      apply h.resolve_right
      rintro ⟨hlistening, hne | hne⟩
      · exact hdst (by simp [hlistening, hne])
      · exact hsrc (by simp [hlistening, hne])
    have hproto' : d.header.proto = IPv4Header.protoTCP := by simpa using hproto
    rw [if_neg hproto, hcarried]
    unfold carried at hcarried
    rw [if_pos hproto'] at hcarried
    cases hbuffer : BufferList.toBuffer d.payload with
    | error e => exact Or.inr ⟨rfl, e, rfl⟩
    | ok buffer =>
        rw [hbuffer] at hcarried
        rcases hparse : TCPSegment.parse {} buffer d.header.pseudoCksum with ⟨tcpSeg, result⟩
        simp only [hparse] at hcarried
        split_ifs at hcarried with hresult
        simp only [bind, Except.bind, hparse]
        rw [if_pos hresult]
        exact Or.inl rfl

/-- A call throws or returns nothing, and then it changes nothing; or it locks a listening adapter
onto the sender of a SYN; or it returns a segment of the connection. -/
theorem unwrapTcpInIp_cases (a : TCPOverIPv4Adapter) (d : IPv4Datagram) :
    (((∃ e, a.unwrapTcpInIp d = .error e) ∨ a.unwrapTcpInIp d = .ok (none, a)) ∧
      (a.listening = true → a.opening d = none)) ∨
    (∃ seg, a.listening = true ∧ a.opening d = some seg ∧
      a.unwrapTcpInIp d = .ok (some seg, a.locked d seg)) ∨
    (∃ seg, a.listening = false ∧ a.unwrapTcpInIp d = .ok (some seg, a) ∧
      d.header.dst = a.source.ipv4Numeric ∧ seg.header.dport = a.source.port ∧
      d.header.src = a.destination.ipv4Numeric ∧ seg.header.sport = a.destination.port) := by
  by_cases hours : a.listening = true ∨
      (d.header.dst = a.source.ipv4Numeric ∧ d.header.src = a.destination.ipv4Numeric)
  · cases hcarried : carried d with
    | none =>
        left
        refine ⟨?_, fun _ => ?_⟩
        · rcases unwrapTcpInIp_of_not_carried (a := a) (Or.inl hcarried) with h | ⟨-, h⟩
          · exact Or.inr h
          · exact Or.inl h
        · unfold opening
          rw [hcarried]
          rfl
    | some seg =>
        have hunwrap := unwrapTcpInIp_of_carried hcarried hours
        split_ifs at hunwrap with hdport hlistening hsyn hsport
        · refine Or.inl ⟨Or.inr hunwrap, ?_⟩
          intro _
          unfold opening
          simp [hcarried, hdport]
        · exact Or.inr (Or.inl ⟨seg, hlistening,
            opening_eq_some_iff.mpr ⟨hcarried, not_not.mp hdport, hsyn⟩, hunwrap⟩)
        · refine Or.inl ⟨Or.inr hunwrap, ?_⟩
          intro _
          unfold opening
          rw [hcarried, Option.filter_some, if_neg]
          simp only [Bool.and_eq_true, Bool.not_eq_true', not_and, and_imp]
          intro _ h h'
          exact hsyn ⟨h, h'⟩
        · exact Or.inl ⟨Or.inr hunwrap, fun h => absurd h hlistening⟩
        · obtain ⟨hdst, hsrc⟩ := hours.resolve_left hlistening
          exact Or.inr (Or.inr ⟨seg, Bool.not_eq_true _ ▸ hlistening, hunwrap, hdst,
            not_not.mp hdport, hsrc, not_not.mp hsport⟩)
  · rw [not_or, Bool.not_eq_true, not_and_or] at hours
    left
    refine ⟨?_, fun h => absurd h (by simp [hours.1])⟩
    rcases unwrapTcpInIp_of_not_carried (Or.inr hours) with h | ⟨-, h⟩
    · exact Or.inr h
    · exact Or.inl h

/-- A call that returns nothing changes nothing. -/
theorem eq_of_unwrapTcpInIp_none (h : a.unwrapTcpInIp d = .ok (none, a')) : a' = a := by
  rcases unwrapTcpInIp_cases a d with ⟨⟨e, he⟩ | hnone, -⟩ | ⟨seg, -, -, hseg⟩ | ⟨seg, -, hseg, -⟩
  · rw [he] at h
    cases h
  · rw [hnone] at h
    cases h
    rfl
  · rw [hseg] at h
    cases h
  · rw [hseg] at h
    cases h

/-! ## Sequences of datagrams -/

theorem step_of_listening (h : a.listening = true) :
    a.step d = (a.opening d).elim a (a.locked d) := by
  unfold step
  rcases unwrapTcpInIp_cases a d with ⟨hnothing, hopening⟩ | ⟨seg, -, hopening, hseg⟩ |
    ⟨-, hconnected, -⟩
  · rw [hopening h]
    rcases hnothing with ⟨e, he⟩ | hnone
    · rw [he]
      rfl
    · rw [hnone]
      rfl
  · rw [hopening, hseg]
    rfl
  · rw [h] at hconnected
    cases hconnected

theorem step_of_connected (h : a.listening = false) : a.step d = a := by
  unfold step
  rcases unwrapTcpInIp_cases a d with ⟨⟨e, he⟩ | hnone, -⟩ | ⟨-, hlistening, -⟩ | ⟨seg, -, hseg, -⟩
  · rw [he]
  · rw [hnone]
  · rw [h] at hlistening
    cases hlistening
  · rw [hseg]

theorem run_of_connected (h : a.listening = false) (ds : List IPv4Datagram) :
    run step a ds = a := by
  induction ds with
  | nil => rfl
  | cons d ds ih => rw [run_cons, step_of_connected h, ih]

/-- The adapter after the datagrams is locked onto the first opening among them. -/
theorem run_eq_lockedBy (h : a.listening = true) (ds : List IPv4Datagram) :
    run step a ds = a.lockedBy ds := by
  induction ds with
  | nil => rfl
  | cons d ds ih =>
      rw [run_cons, step_of_listening h]
      unfold lockedBy firstOpening
      rw [List.findSome?_cons]
      cases hopening : a.opening d with
      | none => exact ih
      | some seg => exact run_of_connected (a := a.locked d seg) rfl ds

theorem listening_lockedBy (h : a.listening = true) (ds : List IPv4Datagram) :
    (a.lockedBy ds).listening = (a.firstOpening ds).isNone := by
  unfold lockedBy
  cases a.firstOpening ds with
  | none => exact h
  | some o => rfl

theorem dport_of_firstOpening {ds : List IPv4Datagram} (h : a.firstOpening ds = some (d, seg)) :
    seg.header.dport = a.source.port := by
  obtain ⟨d', -, hd'⟩ := List.exists_of_findSome?_eq_some h
  obtain ⟨seg', hopening, heq⟩ := Option.map_eq_some_iff.mp hd'
  cases heq
  exact (opening_eq_some_iff.mp hopening).2.1

theorem firstOpening_append (ds more : List IPv4Datagram) :
    a.firstOpening (ds ++ more) = (a.firstOpening ds).or (a.firstOpening more) :=
  List.findSome?_append

theorem firstOpening_singleton :
    a.firstOpening [d] = (a.opening d).map fun seg => (d, seg) := by
  unfold firstOpening
  rw [List.findSome?_singleton]

/-- A returned segment comes from the first peer, which may be the one it comes from. -/
theorem samePeer_of_returned (hlistening : a.listening = true) {ds : List IPv4Datagram}
    (hret : (a.lockedBy ds).unwrapTcpInIp d = .ok (some seg, a')) :
    ∃ d₁ seg₁, a.firstOpening (ds ++ [d]) = some (d₁, seg₁) ∧ SamePeer d₁ seg₁ d seg := by
  rw [firstOpening_append, firstOpening_singleton]
  unfold lockedBy at hret
  cases hfirst : a.firstOpening ds with
  | none =>
      -- still listening, so that the returned segment is the opening
      rw [hfirst, Option.elim_none] at hret
      rcases unwrapTcpInIp_cases a d with ⟨⟨e, he⟩ | hnone, -⟩ | ⟨seg', -, hopening, hseg⟩ |
        ⟨-, hconnected, -⟩
      · rw [he] at hret
        cases hret
      · rw [hnone] at hret
        cases hret
      · rw [hseg] at hret
        cases hret
        exact ⟨d, seg, by rw [hopening]; rfl, rfl, rfl, rfl, rfl⟩
      · rw [hlistening] at hconnected
        cases hconnected
  | some o =>
      obtain ⟨d₁, seg₁⟩ := o
      have hport := dport_of_firstOpening hfirst
      rw [hfirst, Option.elim_some] at hret
      refine ⟨d₁, seg₁, rfl, ?_⟩
      rcases unwrapTcpInIp_cases (a.locked d₁ seg₁) d with ⟨⟨e, he⟩ | hnone, -⟩ | ⟨-, h, -⟩ |
        ⟨seg', -, hseg, hdst, hdport, hsrc, hsport⟩
      · rw [he] at hret
        cases hret
      · rw [hnone] at hret
        cases hret
      · cases h
      · rw [hseg] at hret
        cases hret
        exact ⟨hsrc, hsport, hdst, hdport.trans hport.symm⟩

/-- **An adapter that listens locks onto the first peer that opens a connection, once and for
all.** What a call returns nothing for changes nothing, and every segment that is returned belongs
to the connection of the first opening. -/
theorem unwrapTcpInIp_locks (a : TCPOverIPv4Adapter) (hlistening : a.listening = true)
    (ds : List IPv4Datagram) :
    (∀ d a', (run step a ds).unwrapTcpInIp d = .ok (none, a') → a' = run step a ds) ∧
      run step a ds = a.lockedBy ds ∧
      (run step a ds).listening = (a.firstOpening ds).isNone ∧
      ((run step a ds).listening = false → ∀ more, run step a (ds ++ more) = run step a ds) ∧
      ∀ d seg a', (run step a ds).unwrapTcpInIp d = .ok (some seg, a') →
        ∃ d₁ seg₁, a.firstOpening (ds ++ [d]) = some (d₁, seg₁) ∧ SamePeer d₁ seg₁ d seg := by
  have hrun := run_eq_lockedBy hlistening ds
  refine ⟨fun d a' => eq_of_unwrapTcpInIp_none, hrun, ?_, ?_, ?_⟩
  · rw [hrun]
    exact listening_lockedBy hlistening ds
  · intro hconnected more
    rw [run_append]
    exact run_of_connected hconnected more
  · intro d seg a' hret
    rw [hrun] at hret
    exact samePeer_of_returned hlistening hret

/-- A SYN with an RST, a SYN and then a byte, from one host to another. -/
theorem unwrapTcpInIp_locks_syn :
    let header : IPv4Header := { src := 0x0a000001, dst := 0x0a000002, len := 40 }
    let reset : IPv4Datagram := { header, payload :=
      [[0x0f, 0xa0, 0, 80, 0, 0, 0, 0, 0, 0, 0, 0, 0x50, 0x06, 0, 0, 0x8b, 0xec, 0, 0]] }
    let syn : IPv4Datagram := { header, payload :=
      [[0x0f, 0xa0, 0, 80, 0, 0, 0, 0, 0, 0, 0, 0, 0x50, 0x02, 0, 0, 0x8b, 0xf0, 0, 0]] }
    let byte : IPv4Datagram := { header := { header with len := 41 }, payload :=
      [[0x0f, 0xa0, 0, 80, 0, 0, 0, 0, 0, 0, 0, 0, 0x50, 0x10, 0, 0, 0x2a, 0xe1, 0, 0, 0x61]] }
    let a : TCPOverIPv4Adapter := { source := ⟨0, 80⟩, listening := true }
    (run step a [reset]).listening = true ∧
      (∀ more, run step a ([reset, syn] ++ more) = run step a [reset, syn]) ∧
      ∃ seg d₁ seg₁, (run step a [reset, syn]).unwrapTcpInIp byte
          = .ok (some seg, { source := ⟨0x0a000002, 80⟩, destination := ⟨0x0a000001, 4000⟩ }) ∧
        a.firstOpening ([reset, syn] ++ [byte]) = some (d₁, seg₁) ∧ SamePeer d₁ seg₁ byte seg := by
  intro header reset syn byte a
  obtain ⟨-, -, hreset, -, -⟩ := unwrapTcpInIp_locks a rfl [reset]
  obtain ⟨-, -, -, honce, hret⟩ := unwrapTcpInIp_locks a rfl [reset, syn]
  refine ⟨hreset.trans (by decide +kernel), honce (by decide +kernel), ?_⟩
  have hbyte : (run step a [reset, syn]).unwrapTcpInIp byte = .ok
      (some { header := { sport := 4000, dport := 80, ack := true, cksum := 0x2ae1 },
              payload := [0x61] },
        { source := ⟨0x0a000002, 80⟩, destination := ⟨0x0a000001, 4000⟩ }) := by
    decide +kernel
  obtain ⟨d₁, seg₁, h⟩ := hret _ _ _ hbyte
  exact ⟨_, d₁, seg₁, hbyte, h⟩

end

end TCPOverIPv4Adapter

end Sponge
