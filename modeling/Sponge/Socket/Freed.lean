import Sponge.Connection.Freed
import Sponge.Socket.Loop
import Sponge.Util.EventLoop.Agree

set_option autoImplicit false

/-! # A socket, whatever an erased element reads

The first rule over a connection whose reassembler uses what it has erased
(`StreamReassembler.Freed`). A pass does what it does in the model (`Upheld.freed_pass`) when the
segment that is heard makes the receiver do what it does there. -/

namespace Sponge

open Util Util.EventLoop

namespace TCPSpongeSocket

namespace Freed

section

variable {δ ρ ω : Type} (freed : Nat × Bytes → Nat × Bytes)

def receive (s : TCPSpongeSocket δ) : Option TCPSegment → TCPSpongeSocket δ
  | some seg => { s with tcp := TCPConnection.Freed.segmentReceived freed s.tcp seg }
  | none => s

variable [FdAdapter δ ρ ω]

def rule1 : Rule (TCPSpongeSocket δ) (SocketAnswers ρ ω) :=
  { TCPSpongeSocket.rule1 with
    callback := fun a => do
      let seg ← onAdapter fun d => FdAdapter.read d a.datagram
      modify fun s => (receive freed s seg).noteAcked }

def table : SocketRule → Rule (TCPSpongeSocket δ) (SocketAnswers ρ ω)
  | .rule1 => rule1 freed
  | .rule2 => rule2
  | .rule3 => rule3
  | .rule4 => rule4

theorem rule1_run (s : TCPSpongeSocket δ) (a : SocketAnswers ρ ω) :
    ((rule1 (δ := δ) freed).callback a).run s =
      match FdAdapter.read s.datagramAdapter a.datagram with
      | .error e => .error e s
      | .ok (seg, d) => .ok () (receive freed { s with datagramAdapter := d } seg).noteAcked := by
  simp only [rule1, onAdapter, EStateM.run_bind, onPart_run]
  cases FdAdapter.read s.datagramAdapter a.datagram <;> rfl

theorem sameBut : SameBut (TCPSpongeSocket.table (δ := δ) (ρ := ρ) (ω := ω)) (table freed) := by
  constructor <;> intro i <;> cases i <;> rfl

theorem table_of_ne {i : SocketRule} (hi : i ≠ .rule1) :
    (table (δ := δ) (ρ := ρ) (ω := ω) freed i).callback = (TCPSpongeSocket.table i).callback := by
  cases i with
  | rule1 => exact absurd rfl hi
  | rule2 | rule3 | rule4 => rfl

/-! ## What a pass has read from the owner -/

/-- The callback for cancelling ends the outbound stream, or does nothing. -/
theorem cancels_of_endInput {P E : TCPSpongeSocket δ → Prop} (hend : ∀ s, P s → P s.endInput) :
    Cancels (TCPSpongeSocket.table (δ := δ) (ρ := ρ) (ω := ω)) P E := by
  intro i
  cases i with
  | rule2 => exact fun s hs => ⟨rfl, hend s hs⟩
  | rule1 | rule3 | rule4 => exact fun s hs => ⟨rfl, hs⟩

theorem sendSegments_accepted (old : Bytes) (queue : List TCPSegment) (answers : Nat → ω)
    (s : TCPSpongeSocket δ) (h : old <+: s.accepted) :
    Leaves (fun _ s' => old <+: s'.accepted) (fun s' => old <+: s'.accepted)
      ((sendSegments queue answers).run s) := by
  induction queue generalizing s answers with
  | nil => exact h
  | cons seg queue ih =>
      rw [sendSegments_cons]
      cases FdAdapter.write s.datagramAdapter seg (answers 0) with
      | error e => exact h
      | ok r => exact ih (fun n => answers (n + 1)) _ h

theorem noteAcked_accepted (s : TCPSpongeSocket δ) : s.noteAcked.accepted = s.accepted := by
  unfold noteAcked
  split_ifs <;> rfl

theorem receive_accepted (s : TCPSpongeSocket δ) (seg : Option TCPSegment) :
    (receive freed s seg).accepted = s.accepted := by
  cases seg <;> rfl

/-- Nothing is taken back of what was read. -/
theorem callback_accepted (old : Bytes) (i : SocketRule) (a : SocketAnswers ρ ω)
    (s : TCPSpongeSocket δ) (h : old <+: s.accepted) :
    Leaves (fun _ s' => old <+: s'.accepted) (fun s' => old <+: s'.accepted)
      (((table freed i).callback a).run s) := by
  cases i with
  | rule1 =>
      simp only [table]
      rw [rule1_run]
      cases FdAdapter.read s.datagramAdapter a.datagram with
      | error e => exact h
      | ok r =>
          show old <+: (receive freed _ r.1).noteAcked.accepted
          rw [noteAcked_accepted, receive_accepted]
          exact h
  | rule2 =>
      simp only [table]
      rw [rule2_run]
      cases s.threadData.read s.tcp.remainingOutboundCapacity a.read with
      | error e => exact h
      | ok r =>
          simp only
          split_ifs <;> exact h.trans (List.prefix_append _ _)
  | rule3 =>
      simp only [table]
      rw [rule3_run]
      cases s.threadData.write s.offer a.write with
      | error e => exact h
      | ok r =>
          simp only
          split_ifs
          · cases r.2.shutdown .wr a.shutdown <;> exact h
          · exact h
  | rule4 =>
      simp only [table]
      rw [rule4_run]
      exact sendSegments_accepted old s.tcp.segmentsOut a.segments s h

theorem step_accepted (m : Machine SocketRule (TCPSpongeSocket δ))
    (poll : Poll (SocketAnswers ρ ω)) :
    m.state.accepted <+: (m.step (table freed) poll).state.accepted := by
  have hcancel : Cancels (table (δ := δ) (ρ := ρ) (ω := ω) freed)
      (fun s => m.state.accepted <+: s.accepted) (fun s => m.state.accepted <+: s.accepted) := by
    intro i
    rw [(sameBut freed).cancel]
    exact cancels_of_endInput (fun _ => id) i
  exact Machine.step_keeps hcancel
    (fun i a s hs => ⟨rfl, callback_accepted freed m.state.accepted i a s hs⟩) List.prefix_rfl poll

/-! ## The same rule -/

theorem step_eq {m : Machine SocketRule (TCPSpongeSocket δ)} [LawfulFdAdapter δ]
    (hfirst : ∀ i ∈ m.rules.tail, i ≠ .rule1) {poll : Poll (SocketAnswers ρ ω)}
    (hsame : poll.All fun a => ∀ seg ∈ LawfulFdAdapter.segmentIn (δ := δ)
        (LawfulFdAdapter.heard δ a.datagram), ∀ c, TCPConnection.SameInbound m.state.tcp c →
      TCPConnection.Freed.segmentReceived freed c seg = c.segmentReceived seg) :
    m.step (table freed) poll = m.step TCPSpongeSocket.table poll := by
  have hcancel : Cancels (TCPSpongeSocket.table (δ := δ) (ρ := ρ) (ω := ω))
      (fun s => TCPConnection.SameInbound m.state.tcp s.tcp) (fun _ => True) := by
    apply cancels_of_endInput
    intro s hs
    exact ⟨hs.receiver, hs.active⟩
  refine Machine.step_eq_of_head (sameBut freed) hcancel (fun i => table_of_ne freed) hfirst
    ⟨rfl, rfl⟩ (hsame.mono fun a ha s hs => ⟨?_, (agrees_self (fun _ => True) _ s trivial).2⟩)
  simp only [table, TCPSpongeSocket.table]
  rw [rule1_run, TCPSpongeSocket.rule1_run]
  cases hread : FdAdapter.read s.datagramAdapter a.datagram with
  | error e => rfl
  | ok r =>
      obtain ⟨seg, d⟩ := r
      cases seg with
      | none => rfl
      | some seg =>
          have hseg := (LawfulFdAdapter.read_ok hread).2 seg rfl
          have hreceive := ha seg hseg s.tcp hs
          simp only [receive, TCPSpongeSocket.receive, hreceive]

end

end Freed

end TCPSpongeSocket

namespace SocketLoop

section

variable {δ ρ ω : Type}

theorem afterEvent_accepted (junk : Nat → UInt8) (t : SocketLoop δ) (p : SocketPass ρ ω) :
    (t.afterEvent junk p).socket.accepted = t.socket.accepted := by
  rcases t.afterEvent_endpoint junk p with heq | ⟨-, heq⟩
  · exact congrArg Endpoint.accepted heq
  · exact congrArg Endpoint.accepted heq

variable [FdAdapter δ ρ ω]

def Freed.pass (freed : Nat × Bytes → Nat × Bytes) (junk : Nat → UInt8) (t : SocketLoop δ)
    (p : SocketPass ρ ω) : SocketLoop δ :=
  match t.loop.status with
  | .running =>
      afterEvent junk { t with
        loop := t.loop.step (TCPSpongeSocket.Freed.table freed) p.poll
        opening := t.opening && t.role.waits t.socket.tcp } p
  | _ => t

theorem Freed.pass_accepted (freed : Nat × Bytes → Nat × Bytes) (junk : Nat → UInt8)
    (t : SocketLoop δ) (p : SocketPass ρ ω) :
    t.socket.accepted <+: (Freed.pass freed junk t p).socket.accepted := by
  unfold Freed.pass
  cases hstatus : t.loop.status with
  | running =>
      simp only [afterEvent_accepted]
      exact TCPSpongeSocket.Freed.step_accepted freed t.loop p.poll
  | exited => exact List.prefix_rfl
  | threw e => exact List.prefix_rfl

variable [LawfulFdAdapter δ]

/-- The segment that is heard in the pass makes the reassembler write stored substrings as a whole
only. -/
def Unbroken (t : SocketLoop δ) (p : SocketPass ρ ω) : Prop :=
  p.poll.All fun a => ∀ seg ∈ LawfulFdAdapter.segmentIn (δ := δ)
    (LawfulFdAdapter.heard δ a.datagram), t.socket.tcp.Unbroken seg

instance (t : SocketLoop δ) (p : SocketPass ρ ω) : Decidable (t.Unbroken p) :=
  inferInstanceAs (Decidable (p.poll.All _))

/-- What is erased makes no difference to a pass in which it makes none to the receiver. -/
theorem Upheld.freed_pass {junk : Nat → UInt8} {t : SocketLoop δ} {p : SocketPass ρ ω}
    {allowed : TCPSegment → Prop} {interrupted : Prop} (h : t.Upheld junk allowed interrupted)
    (freed : Nat × Bytes → Nat × Bytes)
    (hsame : p.poll.All fun a => ∀ seg ∈ LawfulFdAdapter.segmentIn (δ := δ)
        (LawfulFdAdapter.heard δ a.datagram), t.socket.tcp.gives seg = true →
      TCPReceiver.Freed.segmentReceived freed t.socket.tcp.receiver seg
        = t.socket.tcp.receiver.segmentReceived seg) :
    Freed.pass freed junk t p = t.pass junk p := by
  have hfirst : ∀ i ∈ t.loop.rules.tail, i ≠ .rule1 := by
    have hordered := h.ordered
    cases hrules : t.loop.rules with
    | nil => simp
    | cons i₀ rules =>
        rw [hrules] at hordered
        rintro i hi rfl
        exact absurd ((List.pairwise_cons.mp hordered).1 _ hi) (Nat.not_lt_zero _)
  have hstep := TCPSpongeSocket.Freed.step_eq freed hfirst (hsame.mono fun a ha seg hseg c hc => by
    apply TCPConnection.Freed.segmentReceived_eq
    intro hgives
    rw [hc.receiver]
    exact ha seg hseg (hc.gives_eq seg ▸ hgives))
  cases hstatus : t.loop.status <;> simp [Freed.pass, SocketLoop.pass, hstatus, hstep]

end

end SocketLoop

end Sponge
