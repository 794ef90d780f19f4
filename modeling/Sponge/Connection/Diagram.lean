import Mathlib.Logic.Relation
import Sponge.Connection.Official

set_option autoImplicit false

/-! # The state diagram

The official states and the transitions between them that the protocol has. A call may pass several
transitions at once, and it passes nothing else: the official states of a run whose steps are all
in turn are a walk through the diagram (`run_walks`). -/

namespace Sponge

open Run

namespace TCPState

/-- The transitions of the protocol. A connection that is not over can always be reset. -/
def State.next : State → List State
  | .listen => [.synRcvd, .synSent, .reset]
  | .synRcvd => [.established, .finWait1, .reset]
  | .synSent => [.synRcvd, .established, .reset]
  | .established => [.finWait1, .closeWait, .reset]
  | .closeWait => [.lastAck, .reset]
  | .lastAck => [.closed, .reset]
  | .finWait1 => [.finWait2, .closing, .timeWait, .reset]
  | .finWait2 => [.timeWait, .reset]
  | .closing => [.timeWait, .reset]
  | .timeWait => [.closed, .reset]
  | .closed => []
  | .reset => []

/-- There is a walk from `s` to `s'`. -/
def State.Walk (s s' : State) : Prop := Relation.ReflTransGen (fun t t' => t' ∈ t.next) s s'

/-- There is a walk of at most so many transitions. -/
def State.walkIn : Nat → State → State → Bool
  | 0, s, s' => s == s'
  | n + 1, s, s' => s == s' || s.next.any fun t => t.walkIn n s'

theorem State.walk_of_walkIn {n : Nat} {s s' : State} (h : s.walkIn n s' = true) : s.Walk s' := by
  induction n generalizing s with
  | zero =>
      obtain rfl := beq_iff_eq.mp h
      exact Relation.ReflTransGen.refl
  | succ n ih =>
      rw [walkIn, Bool.or_eq_true, beq_iff_eq, List.any_eq_true] at h
      rcases h with rfl | ⟨t, ht, hrest⟩
      · exact Relation.ReflTransGen.refl
      · exact Relation.ReflTransGen.head ht (ih hrest)

end TCPState

/-! ## What never goes back -/

def TCPSenderStateSummary.rank : TCPSenderStateSummary → Nat
  | .closed => 0
  | .synSent => 1
  | .synAcked => 2
  | .finSent => 3
  | .finAcked => 4
  | .error => 5

def TCPReceiverStateSummary.rank : TCPReceiverStateSummary → Nat
  | .listen => 0
  | .synRecv => 1
  | .finRecv => 2
  | .error => 3

namespace TCPState

/-- Neither stream goes back, and whether the connection lingers is decided when the first FIN is
sent or received. -/
structure Before (s s' : TCPState) : Prop where
  sender : s.sender.rank ≤ s'.sender.rank
  receiver : s.receiver.rank ≤ s'.receiver.rank
  active : s'.active = true → s.active = true
  linger : s'.active = true → (3 ≤ s.sender.rank ∨ 2 ≤ s.receiver.rank) →
    s'.lingerAfterStreamsFinish = s.lingerAfterStreamsFinish

instance (s s' : TCPState) : Decidable (s.Before s') :=
  decidable_of_iff (s.sender.rank ≤ s'.sender.rank ∧ s.receiver.rank ≤ s'.receiver.rank ∧
      (s'.active = true → s.active = true) ∧
      (s'.active = true → (3 ≤ s.sender.rank ∨ 2 ≤ s.receiver.rank) →
        s'.lingerAfterStreamsFinish = s.lingerAfterStreamsFinish))
    ⟨fun h => ⟨h.1, h.2.1, h.2.2.1, h.2.2.2⟩, fun h => ⟨h.sender, h.receiver, h.active, h.linger⟩⟩

/-- What does not go back walks through the diagram. -/
theorem walk_of_before {s s' : State} (h : (ofState s).Before (ofState s')) (hs' : s' ≠ .reset) :
    s.Walk s' := by
  refine State.walk_of_walkIn (n := 6) ?_
  revert h hs'
  cases s <;> cases s' <;> decide +kernel

/-- Every state that is not over can be reset. -/
theorem walk_reset {s : State} (h : (ofState s).active = true ∨ s = .reset) : s.Walk .reset := by
  refine State.walk_of_walkIn (n := 1) ?_
  revert h
  cases s <;> decide

end TCPState

/-! ## Steps -/

namespace TCPSender

theorem ackReceived_keeps_finAcked (s : TCPSender) (ackno : WrappingInt32) (w : UInt16)
    (hfin : s.unAckQueue.finAcked = true) :
    (s.ackReceived ackno w).unAckQueue.finAcked = true := by
  rw [ackReceived_eq]
  split_ifs with hign
  · exact hfin
  · have hbase := base_lt_of_not_ignores w hign
    rcases UnAckQueue.updateBase_cases hbase with ⟨-, heq⟩ | ⟨-, -, -, -, heq⟩ |
        ⟨-, -, -, -, heq⟩ | ⟨-, -, -, heq⟩ | ⟨-, hf, -, heq⟩
    · rw [heq]
      exact hfin
    · rw [heq]
    · rw [heq]
    · rw [heq]
      exact hfin
    · obtain ⟨sizes, e, -, -, heq'⟩ := UnAckQueue.erase_spec hbase hf
      rw [heq, heq']
      exact hfin

end TCPSender

namespace TCPConnection

/-- What a step keeps, whatever it is. -/
structure Progresses (c c' : TCPConnection) : Prop where
  queue : c.sender.unAckQueue.Keeps c'.sender.unAckQueue
  finAcked : c.sender.unAckQueue.finAcked = true → c'.sender.unAckQueue.finAcked = true
  written : c.sender.stream.bytesWritten ≤ c'.sender.stream.bytesWritten
  synRecv : c.receiver.synRecv = true → c'.receiver.synRecv = true
  ended : c.Ended → c'.Ended
  active : c'.active = true → c.active = true
  linger : (c.sender.unAckQueue.finSent = true ∨ c.Ended) →
    c'.lingerAfterStreamsFinish = c.lingerAfterStreamsFinish

section

variable {c c' c'' : TCPConnection}

theorem Progresses.refl (c : TCPConnection) : Progresses c c :=
  ⟨⟨id, id, id⟩, id, le_rfl, id, id, id, fun _ => rfl⟩

theorem Progresses.trans (h : Progresses c c') (h' : Progresses c' c'') : Progresses c c'' where
  queue := h.queue.trans h'.queue
  finAcked := h'.finAcked ∘ h.finAcked
  written := h.written.trans h'.written
  synRecv := h'.synRecv ∘ h.synRecv
  ended := h'.ended ∘ h.ended
  active := h.active ∘ h'.active
  linger := fun hdecided =>
    (h'.linger (hdecided.imp h.queue.finSent h.ended)).trans (h.linger hdecided)

/-- What the sender keeps. -/
theorem senderStable_progress (q₀ : UnAckQueue) (n : Nat) :
    SenderStable fun s => ∃ data, s.Sound data ∧ n ≤ data.length ∧ q₀.Keeps s.unAckQueue ∧
      (q₀.finAcked = true → s.unAckQueue.finAcked = true) where
  segmentsOut := fun _ _ ⟨data, h, hrest⟩ => ⟨data, h.segmentsOut _, hrest⟩
  write := fun s d ⟨data, h, hn, hrest⟩ => by
    refine ⟨_, h.write d, ?_, hrest⟩
    rw [List.length_append]
    exact hn.trans (Nat.le_add_right _ _)
  endStream := fun _ ⟨data, h, hrest⟩ => ⟨data, h.endStream, hrest⟩
  setError := fun _ ⟨data, h, hrest⟩ => ⟨data, h.setError, hrest⟩
  fillWindow := fun s ⟨data, h, hn, hkeeps, hfin⟩ =>
    ⟨data, h.fillWindow, hn, ((senderStable_keeps q₀).fillWindow s ⟨⟨data, h⟩, hkeeps⟩).2,
      fun hf => (TCPSender.fillWindow_finAcked h).trans (hfin hf)⟩
  tick := fun s junk ms ⟨data, h, hn, hkeeps, hfin⟩ =>
    ⟨data, h.tick junk ms, hn, ((senderStable_keeps q₀).tick s junk ms ⟨⟨data, h⟩, hkeeps⟩).2,
      fun hf => (TCPSender.tick_finAcked junk s ms).trans (hfin hf)⟩

theorem sender_progresses (junk : Nat → UInt8) (op : ConnectionOp)
    (hs : ∃ data, c.sender.Sound data) :
    c.sender.unAckQueue.Keeps (c.step junk op).sender.unAckQueue ∧
      (c.sender.unAckQueue.finAcked = true →
        (c.step junk op).sender.unAckQueue.finAcked = true) ∧
      c.sender.stream.bytesWritten ≤ (c.step junk op).sender.stream.bytesWritten := by
  obtain ⟨data, hs⟩ := hs
  have hstart : ∃ data', c.sender.Sound data' ∧ data.length ≤ data'.length ∧
      c.sender.unAckQueue.Keeps c.sender.unAckQueue ∧
      (c.sender.unAckQueue.finAcked = true → c.sender.unAckQueue.finAcked = true) :=
    ⟨data, hs, le_rfl, ⟨id, id, id⟩, id⟩
  have hrule : ∃ data', (c.step junk op).sender.Sound data' ∧ data.length ≤ data'.length ∧
      c.sender.unAckQueue.Keeps (c.step junk op).sender.unAckQueue ∧
      (c.sender.unAckQueue.finAcked = true →
        (c.step junk op).sender.unAckQueue.finAcked = true) := by
    apply sender_rule (senderStable_progress c.sender.unAckQueue data.length) junk _ hstart
    rintro seg segs - - ⟨data', h, hn, hkeeps, hfin⟩
    exact ⟨data', h.ackReceived _ _, hn, hkeeps.trans (TCPSender.ackReceived_keeps _ _ _),
      fun hf => TCPSender.ackReceived_keeps_finAcked _ _ _ (hfin hf)⟩
  obtain ⟨data', hs', hlen, hkeeps, hfin⟩ := hrule
  refine ⟨hkeeps, hfin, ?_⟩
  show c.sender.stream.numBytesWritten ≤ (c.step junk op).sender.stream.numBytesWritten
  rw [hs.carries.written, hs'.carries.written]
  exact hlen

/-- What an incoming segment does to the receiver and to the flags. -/
theorem segmentReceived_progresses (seg : TCPSegment) (hs : ∃ data, c.sender.Sound data) :
    (c.receiver.synRecv = true → (c.segmentReceived seg).receiver.synRecv = true) ∧
      ((c.sender.unAckQueue.finSent = true ∨ c.Ended) →
        (c.segmentReceived seg).lingerAfterStreamsFinish = c.lingerAfterStreamsFinish) := by
  by_cases hactive : c.active = true
  swap
  · rw [segmentReceived_of_inactive seg (by simpa using hactive)]
    exact ⟨id, fun _ => rfl⟩
  have hsame : (c.receiver.segmentReceived seg).synRecv = true ∨ ¬c.receiver.synRecv = true := by
    by_cases hrecv : c.receiver.synRecv = true
    · exact Or.inl (TCPReceiver.segmentReceived_synRecv seg (Or.inl hrecv))
    · exact Or.inr hrecv
  rcases segmentReceived_cases seg hactive with ⟨-, hf, hr⟩ | ⟨-, heq⟩ | ⟨-, heq⟩ |
      ⟨-, -, -, -, hf, hr⟩ | ⟨-, heq⟩ | ⟨hopen, heq⟩
  · rw [hr]
    exact ⟨fun hrecv => hsame.resolve_right (not_not.mpr hrecv),
      fun _ => congrArg Flags.linger hf⟩
  · rw [heq]
    exact ⟨id, fun _ => rfl⟩
  · obtain ⟨hr, hf⟩ := finRecvReceived_flags c.received seg
    rw [heq, hr]
    refine ⟨id, fun _ => ?_⟩
    rcases hf with hf | ⟨hf, -⟩ <;> exact congrArg Flags.linger hf
  · rw [hr]
    exact ⟨fun hrecv => hsame.resolve_right (not_not.mpr hrecv),
      fun _ => congrArg Flags.linger hf⟩
  · rw [heq]
    exact ⟨id, fun _ => rfl⟩
  · have hfinSent := (sender_progresses (fun _ => 0) (.segmentReceived seg) hs).1.finSent
    have hfinSent' : c.sender.unAckQueue.finSent = true →
        (c.segmentReceived seg).sender.unAckQueue.finSent = true := hfinSent
    have hflags := synRecvReceived_flags (c := c.received) seg hopen
    have hreceiver := synRecvReceived_receiver c.received seg
    rw [← heq] at hflags hreceiver
    refine ⟨fun hrecv => ?_, fun hdecided => ?_⟩
    · exact (TCPReceiver.marks_of_received hreceiver).2 hrecv
    · have hfin := hdecided.resolve_right hopen
      rcases hflags with ⟨-, hf⟩ | ⟨-, hnot, -⟩ | ⟨-, -, hf⟩
      · exact congrArg Flags.linger hf
      · exact absurd (hnot.symm.trans (hfinSent' hfin)) Bool.false_ne_true
      · exact congrArg Flags.linger hf

/-- Time does not open the receiver. -/
theorem tick_synRecv (c : TCPConnection) (junk : Nat → UInt8) (ms : Nat) :
    (c.tick junk ms).receiver.synRecv = c.receiver.synRecv := by
  by_cases hactive : c.active = true
  · rcases tick_cases junk ms hactive with heq | ⟨-, -, heq⟩ | ⟨-, heq⟩
    · rw [heq]
      show (c.ticked junk ms).sendRSTSeg.receiver.synRecv = _
      rw [sendRSTSeg_receiver]
      rfl
    · rw [heq]
      rfl
    · rw [heq]
      rfl
  · rw [tick_of_inactive junk ms (by simpa using hactive)]

/-- **No step goes back.** -/
theorem step_progresses (junk : Nat → UInt8) (op : ConnectionOp)
    (hs : ∃ data, c.sender.Sound data) : Progresses c (c.step junk op) := by
  obtain ⟨hqueue, hfin, hwritten⟩ := sender_progresses junk op hs
  have hactive : (c.step junk op).active = true → c.active = true := by
    intro hstill
    by_contra hend
    exact absurd (step_inactive junk op (by simpa using hend)) (by simp [hstill])
  have hrest : (c.receiver.synRecv = true → (c.step junk op).receiver.synRecv = true) ∧
      ((c.sender.unAckQueue.finSent = true ∨ c.Ended) →
        (c.step junk op).lingerAfterStreamsFinish = c.lingerAfterStreamsFinish) := by
    cases op using ConnectionOp.kindCases with
    | tick ms =>
        exact ⟨fun hrecv => (tick_synRecv c junk ms.toNat).trans hrecv,
          fun _ => (tick_flags c junk ms.toNat).2.1⟩
    | segmentReceived seg => exact segmentReceived_progresses seg hs
    | owner op htick hseg =>
        refine ⟨fun hrecv => ?_, fun _ => congrArg Flags.linger (step_flags junk op htick hseg).1⟩
        cases op with
        | write data =>
            show (c.write data).1.receiver.synRecv = true
            unfold TCPConnection.write
            split_ifs <;> exact hrecv
        | tick ms => exact absurd rfl (htick ms)
        | segmentReceived seg => exact absurd rfl (hseg seg)
        | connect => exact hrecv
        | endInputStream => exact hrecv
        | readInbound len => exact hrecv
        | popSegment => exact hrecv
  exact ⟨hqueue, hfin, hwritten, hrest.1, fun h => h.step junk op, hactive, hrest.2⟩

theorem run_progresses (junk : Nat → UInt8) (hs : ∃ data, c.sender.Sound data)
    (ops : List ConnectionOp) : Progresses c (run (step junk) c ops) :=
  (run_invariant' (I := fun c' => (∃ data, c'.sender.Sound data) ∧ Progresses c c')
    (fun _ op ⟨hs', h⟩ => ⟨sound_step junk op hs', h.trans (step_progresses junk op hs')⟩)
    ⟨hs, Progresses.refl c⟩ ops).2

/-! ## Walks -/

/-- The phases in terms of the flags, as `Regular.state_eq` has them. -/
def senderPhase (synSent synAcked finSent finAcked : Bool) : TCPSenderStateSummary :=
  if !synSent then .closed else if !synAcked then .synSent else if !finSent then .synAcked
  else if !finAcked then .finSent else .finAcked

def receiverPhase (synRecv ended : Bool) : TCPReceiverStateSummary :=
  if !synRecv then .listen else if ended then .finRecv else .synRecv

theorem senderPhase_rank : ∀ a b c d a' b' c' d' : Bool, (a = true → a' = true) →
    (b = true → b' = true) → (c = true → c' = true) → (d = true → d' = true) →
    (senderPhase a b c d).rank ≤ (senderPhase a' b' c' d').rank := by
  decide

theorem senderPhase_finSent : ∀ a b c d : Bool, 3 ≤ (senderPhase a b c d).rank → c = true := by
  decide

theorem receiverPhase_rank : ∀ a b a' b' : Bool, (a = true → a' = true) → (b = true → b' = true) →
    (receiverPhase a b).rank ≤ (receiverPhase a' b').rank := by
  decide

theorem receiverPhase_ended : ∀ a b : Bool, 2 ≤ (receiverPhase a b).rank → b = true := by
  decide

/-- What does not go back in the flags does not go back in the state. -/
theorem Progresses.before (h : Progresses c c') (hc : c.Regular) (hc' : c'.Regular)
    (hsmall : c'.sender.stream.bytesWritten + 2 < 2 ^ 64) : c.state.Before c'.state := by
  have hwritten := h.written
  rw [hc.state_eq (by omega), hc'.state_eq hsmall]
  refine ⟨?_, ?_, h.active, ?_⟩
  · exact senderPhase_rank _ _ _ _ _ _ _ _ h.queue.synSent h.queue.synAcked h.queue.finSent
      h.finAcked
  · exact receiverPhase_rank _ _ _ _ h.synRecv h.ended
  · intro hactive hdecided
    have hactive' : c'.active = true := hactive
    have hlinger := h.linger (hdecided.imp (senderPhase_finSent _ _ _ _) (receiverPhase_ended _ _))
    show (c'.active && c'.lingerAfterStreamsFinish) = (c.active && c.lingerAfterStreamsFinish)
    rw [hactive', h.active hactive', hlinger]

theorem WasReset.state_eq (h : c.WasReset) : c.state = TCPState.ofState .reset := by
  unfold state TCPSender.stateSummary TCPReceiver.stateSummary
  rw [h.failed.1, h.failed.2, h.inactive]
  rfl

theorem Regular.not_wasReset (h : c.Regular) : ¬c.WasReset :=
  fun hreset => absurd (h.receiver_ok.symm.trans hreset.failed.2) Bool.false_ne_true

theorem Regular.state_ne_reset (h : c.Regular) : c.state ≠ TCPState.ofState .reset := by
  intro hstate
  have hreceiver : c.receiver.stateSummary = .error := congrArg TCPState.receiver hstate
  unfold TCPReceiver.stateSummary at hreceiver
  rw [h.receiver_ok, if_neg Bool.false_ne_true] at hreceiver
  split_ifs at hreceiver

/-- A connection that ended without an error is not reset any more. -/
theorem Regular.step_of_inactive (h : c.Regular) (hend : c.active = false) (junk : Nat → UInt8)
    {op : ConnectionOp} (hop : c.InTurn op) : (c.step junk op).Regular := by
  cases op using ConnectionOp.kindCases with
  | tick ms =>
      show (c.tick junk ms.toNat).Regular
      rwa [tick_of_inactive junk ms.toNat hend]
  | segmentReceived seg =>
      show (c.segmentReceived seg).Regular
      rwa [segmentReceived_of_inactive seg hend]
  | owner op htick hseg => exact h.other junk hop htick hseg

/-- Between two regular connections the walk is one through the diagram. -/
theorem Progresses.walk (h : Progresses c c') (hc : c.Regular) (hc' : c'.Regular)
    (hsmall : c'.sender.stream.bytesWritten + 2 < 2 ^ 64) :
    ∃ s s', c.state = TCPState.ofState s ∧ c'.state = TCPState.ofState s' ∧ s.Walk s' := by
  have hwritten := h.written
  obtain ⟨s, hs⟩ := hc.official (by omega)
  obtain ⟨s', hs'⟩ := hc'.official hsmall
  refine ⟨s, s', hs, hs', TCPState.walk_of_before ?_ ?_⟩
  · rw [← hs, ← hs']
    exact h.before hc hc' hsmall
  · rintro rfl
    exact hc'.state_ne_reset hs'

/-- A reset ends the walk of a connection that was not over. -/
theorem Progresses.walk_reset (h : Progresses c c') (hc : c.Regular) (hactive : c.active = true)
    (hc' : c'.WasReset) (hsmall : c'.sender.stream.bytesWritten + 2 < 2 ^ 64) :
    ∃ s s', c.state = TCPState.ofState s ∧ c'.state = TCPState.ofState s' ∧ s.Walk s' := by
  have hwritten := h.written
  obtain ⟨s, hs⟩ := hc.official (by omega)
  have hs' : (TCPState.ofState s).active = true := by
    rw [← hs]
    exact hactive
  exact ⟨s, .reset, hs, hc'.state_eq, TCPState.walk_reset (Or.inl hs')⟩

end

/-- **The official states of a run are a walk through the diagram**: between any two points of a
run whose steps are all in turn, the state has passed transitions of the protocol only. -/
theorem run_walks (junk : Nat → UInt8) (cfg : TCPConfig) (isn : WrappingInt32)
    (ops ops' : List ConnectionOp) (hops : Admits (step junk) InTurn (new cfg isn) (ops ++ ops'))
    (hsmall : (after junk cfg isn (ops ++ ops')).sender.stream.bytesWritten + 2 < 2 ^ 64) :
    ∃ s s', (after junk cfg isn ops).state = TCPState.ofState s ∧
      (after junk cfg isn (ops ++ ops')).state = TCPState.ofState s' ∧ s.Walk s' := by
  obtain ⟨hfirst, hrest⟩ := admits_append.mp hops
  have hsplit : after junk cfg isn (ops ++ ops') = run (step junk) (after junk cfg isn ops) ops' :=
    run_append _ _ _ _
  rw [hsplit] at hsmall ⊢
  have hinv : (after junk cfg isn ops).WasReset ∨ (after junk cfg isn ops).Regular :=
    run_invariant (I := fun c : TCPConnection => c.WasReset ∨ c.Regular)
      (fun _ _ h hop => regular_step junk h hop) (Or.inr (regular_new cfg isn)) hfirst
  have hsound : ∃ data, (after junk cfg isn ops).sender.Sound data := hinv.elim (fun h => h.sender)
    fun h => h.sender.imp fun _ hs => hs.1
  have hprogress := run_progresses junk hsound ops'
  change Admits (step junk) InTurn (after junk cfg isn ops) ops' at hrest
  generalize after junk cfg isn ops = c at hinv hprogress hrest hsmall ⊢
  rcases hinv with hreset | hregular
  · have hreset' : (run (step junk) c ops').WasReset :=
      run_invariant' (I := WasReset) (fun _ op h => h.step junk op) hreset ops'
    exact ⟨.reset, .reset, hreset.state_eq, hreset'.state_eq, Relation.ReflTransGen.refl⟩
  · have hinv' : (run (step junk) c ops').WasReset ∨ (run (step junk) c ops').Regular :=
      run_invariant (I := fun c : TCPConnection => c.WasReset ∨ c.Regular)
        (fun _ _ h hop => regular_step junk h hop) (Or.inr hregular) hrest
    rcases hinv' with hreset' | hregular'
    · refine hprogress.walk_reset hregular ?_ hreset' hsmall
      -- a connection that is over is not reset
      by_contra hend
      have hover : (run (step junk) c ops').Regular ∧ (run (step junk) c ops').active = false :=
        run_invariant (I := fun c : TCPConnection => c.Regular ∧ c.active = false)
          (fun _ op ⟨h, hend⟩ hop => ⟨h.step_of_inactive hend junk hop, step_inactive junk op hend⟩)
          ⟨hregular, by simpa using hend⟩ hrest
      exact hover.1.not_wasReset hreset'
    · exact hprogress.walk hregular hregular' hsmall

/-- The peer opens, closes after it was answered, and the connection closes too. -/
theorem passiveClose_walks :
    ∃ s s', (after (fun _ => 0) {} ⟨0⟩ [.segmentReceived { header := { syn := true } }]).state
        = TCPState.ofState s ∧
      (after (fun _ => 0) {} ⟨0⟩ ([.segmentReceived { header := { syn := true } }] ++
        [.segmentReceived { header := { seqno := ⟨1⟩, ack := true, ackno := ⟨1⟩, win := 100 } },
          .write [97],
          .segmentReceived
            { header := { seqno := ⟨1⟩, fin := true, ack := true, ackno := ⟨2⟩, win := 100 } },
          .endInputStream])).state = TCPState.ofState s' ∧ s.Walk s' :=
  run_walks (fun _ => 0) {} ⟨0⟩ _ _ (by decide +kernel) (by decide +kernel)

end TCPConnection

end Sponge
