import Sponge.Apps.StreamCopy

set_option autoImplicit false

/-! # The copying loop

What one callback of a rule does to the state, the contract that the four rules keep, and what
follows for every run of the loop. -/

namespace Sponge

open Util Util.EventLoop Run

namespace StreamCopy

/-! ## The callbacks -/

section

variable (s : StreamCopy) (w w' : CopyWay) (f : CopyHalf → CopyHalf) (fd : FDWrapper)

@[simp] theorem half_onHalf_self : (s.onHalf w f).half w = f (s.half w) := by cases w <;> rfl

theorem half_onHalf_of_ne (h : w' ≠ w) : (s.onHalf w f).half w' = s.half w' := by
  cases w <;> cases w' <;> first | rfl | exact absurd rfl h

@[simp] theorem half_setSource : (setSource w s fd).half w' = s.half w' := by
  cases w <;> cases w' <;> rfl

@[simp] theorem half_setSink : (setSink w s fd).half w' = s.half w' := by
  cases w <;> cases w' <;> rfl

@[simp] theorem source_onHalf : source w' (s.onHalf w f) = source w' s := by
  cases w <;> cases w' <;> rfl

@[simp] theorem sink_onHalf : sink w' (s.onHalf w f) = sink w' s := by
  cases w <;> cases w' <;> rfl

@[simp] theorem source_setSource : source w (setSource w s fd) = fd := by cases w <;> rfl

@[simp] theorem sink_setSink : sink w (setSink w s fd) = fd := by cases w <;> rfl

theorem source_setSource_of_ne (h : w' ≠ w) : source w' (setSource w s fd) = source w' s := by
  cases w <;> cases w' <;> first | rfl | exact absurd rfl h

/-- The sink of the outbound way is the source of the other one. -/
theorem source_setSink {s : StreamCopy} {fd : FDWrapper}
    (h : w = .outbound → fd.eof = (sink w s).eof) :
    (source w' (setSink w s fd)).eof = (source w' s).eof := by
  cases w with
  | outbound =>
      cases w' with
      | outbound => rfl
      | inbound => exact h rfl
  | inbound => cases w' <;> rfl

end

section

variable (s : StreamCopy) (w : CopyWay) (a : CopyAnswers)

/-- The state after a read that returned `data`. -/
def didRead (data : Bytes) (fd : FDWrapper) : StreamCopy :=
  let s' := (setSource w s fd).onHalf w fun h => h.write data
  if fd.eof then s'.onHalf w CopyHalf.endInput else s'

/-- The state after a write that took `n` bytes. -/
def didWrite (n : Nat) (fd : FDWrapper) : StreamCopy :=
  (setSink w s fd).onHalf w fun h => h.pop n

theorem readRule_run :
    ((readRule w).callback a).run s =
      match (source w s).read (s.half w).stream.remainingCapacity a.read with
      | .error e => .error e s
      | .ok (data, fd) => .ok () (s.didRead w data fd) := by
  simp only [readRule, EStateM.run_bind, EStateM.run_get, onPart_run]
  cases (source w s).read (s.half w).stream.remainingCapacity a.read with
  | error e => rfl
  | ok r =>
      simp only [EStateM.run_modify, source_onHalf, source_setSource, didRead]
      split_ifs <;> rfl

theorem writeRule_run (finish : FDWrapper → Answer → Except Exception (Unit × FDWrapper)) :
    ((writeRule w finish).callback a).run s =
      match (sink w s).write (s.half w).offer a.write with
      | .error e => .error e s
      | .ok (n, fd) =>
          if ((s.half w).pop n).stream.eof then
            match finish fd a.finish with
            | .error e => .error e (s.didWrite w n fd)
            | .ok (_, fd') =>
                .ok () ((setSink w (s.didWrite w n fd) fd').onHalf w CopyHalf.finish)
          else .ok () (s.didWrite w n fd) := by
  simp only [writeRule, EStateM.run_bind, EStateM.run_get, onPart_run]
  cases (sink w s).write (s.half w).offer a.write with
  | error e => rfl
  | ok r =>
      obtain ⟨n, fd⟩ := r
      simp only [EStateM.run_modify, half_onHalf_self, half_setSink, didWrite]
      split_ifs
      · simp only [EStateM.run_bind, onPart_run, sink_onHalf, sink_setSink]
        cases finish fd a.finish <;> rfl
      · rfl

end

/-! ## The contract -/

/-- The place of a rule in the loop. -/
def order : CopyRule → Nat
  | .read .outbound => 1
  | .write .outbound => 2
  | .read .inbound => 3
  | .write .inbound => 4

/-- The rule that reads relies on the end of its source as the only reason for the end of the
stream, as long as the sink has not broken off. -/
def contract : Contract CopyRule StreamCopy CopyAnswers where
  inv := fun s => ∀ w, (s.half w).Inv
  live := fun i s => match i with
    | .read w => (s.half w).brokenOff = false → (s.half w).stream.isInputEnd = true →
        (source w s).eof = true
    | .write w => (s.half w).brokenOff = false
  gone := fun i s => match i with
    | .read w => (s.half w).stream.isInputEnd = true
    | .write w => (s.half w).brokenOff = true ∨ (s.half w).shutdown = true
  armed := fun i s => match i with
    | .read w => (s.half w).brokenOff = false → (s.half w).stream.isInputEnd = false
    | .write _ => True
  idle := fun i s => match i with
    | .read w => (s.half w).stream.remainingCapacity = 0
    | .write w => (s.half w).stream.size = 0 ∧
        ((s.half w).stream.isInputEnd = true → (s.half w).shutdown = true)
  before := fun i j => order i < order j
  ok := fun a => a.read.Documented ∧ a.write.Documented
  throws := KernelFault

def CopyRule.way : CopyRule → CopyWay
  | .read w | .write w => w

section

variable {s s' : StreamCopy} {w : CopyWay}

theorem forall_way {P : CopyWay → Prop} (w : CopyWay) (h : P w) (hother : ∀ w', w' ≠ w → P w') :
    ∀ w', P w' := by
  intro w'
  by_cases hw : w' = w
  · rw [hw]; exact h
  · exact hother w' hw

/-- What the rules of the other way rely on. -/
theorem spares_of_other {j : CopyRule} (hhalf : s'.half j.way = s.half j.way)
    (hsource : (source j.way s').eof = (source j.way s).eof) :
    (contract.live j s → contract.live j s') ∧ (contract.gone j s → contract.gone j s') ∧
      (contract.armed j s → contract.armed j s') := by
  cases j with
  | read w =>
      have hhalf' : s'.half w = s.half w := hhalf
      have hsource' : (source w s').eof = (source w s).eof := hsource
      simp only [contract, hhalf', hsource']
      exact ⟨id, id, id⟩
  | write w =>
      have hhalf' : s'.half w = s.half w := hhalf
      simp only [contract, hhalf']
      exact ⟨id, id, id⟩

/-- A rule that reads changes its half and its source. -/
theorem spares_read (hhalf : ∀ w', w' ≠ w → s'.half w' = s.half w')
    (hsource : ∀ w', w' ≠ w → (source w' s').eof = (source w' s).eof)
    (hbroken : (s'.half w).brokenOff = (s.half w).brokenOff)
    (hshut : (s'.half w).shutdown = (s.half w).shutdown) : contract.Spares (.read w) s s' := by
  intro j hj
  by_cases hw : j.way = w
  · cases j with
    | read w' =>
        obtain rfl : w' = w := hw
        exact absurd rfl hj
    | write w' =>
        obtain rfl : w' = w := hw
        simp only [contract, hbroken, hshut]
        exact ⟨id, id, id⟩
  · exact spares_of_other (hhalf _ hw) (hsource _ hw)

/-- A rule that writes changes its half and the counters of its sink. -/
theorem spares_write (hhalf : ∀ w', w' ≠ w → s'.half w' = s.half w')
    (hsource : ∀ w', (source w' s').eof = (source w' s).eof)
    (hbroken : (s'.half w).brokenOff = false → (s.half w).brokenOff = false)
    (hend : (s'.half w).brokenOff = false →
      (s'.half w).stream.isInputEnd = (s.half w).stream.isInputEnd)
    (hended : (s.half w).stream.isInputEnd = true → (s'.half w).stream.isInputEnd = true) :
    contract.Spares (.write w) s s' := by
  intro j hj
  by_cases hw : j.way = w
  · cases j with
    | read w' =>
        obtain rfl : w' = w := hw
        refine ⟨fun hlive hb he => ?_, hended, fun harmed hb => ?_⟩
        · rw [hsource]
          exact hlive (hbroken hb) (hend hb ▸ he)
        · rw [hend hb]
          exact harmed (hbroken hb)
    | write w' =>
        obtain rfl : w' = w := hw
        exact absurd rfl hj
  · exact spares_of_other (hhalf _ hw) (hsource _)

end

/-! ## The rules that read -/

section

variable {s : StreamCopy} (w : CopyWay) (a : CopyAnswers)

theorem half_didRead (data : Bytes) (fd : FDWrapper) :
    (s.didRead w data fd).half w =
      if fd.eof then ((s.half w).write data).endInput else (s.half w).write data := by
  unfold didRead
  split_ifs <;> simp

theorem half_didRead_of_ne {w' : CopyWay} (h : w' ≠ w) (data : Bytes) (fd : FDWrapper) :
    (s.didRead w data fd).half w' = s.half w' := by
  unfold didRead
  split_ifs <;> simp [half_onHalf_of_ne _ _ _ _ h]

theorem source_didRead (w' : CopyWay) (data : Bytes) (fd : FDWrapper) :
    source w' (s.didRead w data fd) = source w' (setSource w s fd) := by
  unfold didRead
  split_ifs <;> simp

theorem readRule_kept (hok : contract.ok a) (hinv : contract.inv s)
    (harmed : contract.armed (.read w) s) :
    match ((readRule w).callback a).run s with
    | .ok _ s' => contract.inv s' ∧ contract.live (.read w) s' ∧ contract.Spares (.read w) s s' ∧
        (readRule w).serviceCount s ≠ (readRule w).serviceCount s'
    | .error e s' => contract.inv s' ∧ KernelFault e := by
  rw [readRule_run, FDWrapper.read_eq _ _ hok.1]
  by_cases hfail : a.read.value < 0
  · rw [if_pos hfail]
    exact ⟨hinv, .failed _ _⟩
  rw [if_neg hfail]
  by_cases hmore : min FDWrapper.bufferSize (s.half w).stream.remainingCapacity
      < a.read.data.length
  · rw [if_pos hmore]
    exact ⟨hinv, .readMore⟩
  rw [if_neg hmore]
  set fd := (source w s).didRead (s.half w).stream.remainingCapacity a.read.data
  have hwrite : ((s.half w).write a.read.data).Inv := (hinv w).write (by omega) harmed
  refine ⟨?_, ?_, ?_, ?_⟩
  · apply forall_way (P := fun w' => ((s.didRead w a.read.data fd).half w').Inv) w
    · rw [half_didRead]
      split_ifs
      · exact hwrite.endInput
      · exact hwrite
    · intro w' hw'
      rw [half_didRead_of_ne w hw']
      exact hinv w'
  · intro hbroken hend
    rw [source_didRead, source_setSource]
    rw [half_didRead] at hbroken hend
    by_contra heof
    rw [if_neg heof] at hbroken hend
    rw [show ((s.half w).write a.read.data).stream.isInputEnd = (s.half w).stream.isInputEnd from
      ByteStream.write_isInputEnd _ _, harmed hbroken] at hend
    cases hend
  · apply spares_read
    · intro w' hw'
      exact half_didRead_of_ne w hw' _ _
    · intro w' hw'
      rw [source_didRead, source_setSource_of_ne _ _ _ _ hw']
    · rw [half_didRead]
      split_ifs <;> rfl
    · rw [half_didRead]
      split_ifs <;> rfl
  · show (source w s).readCount ≠ (source w (s.didRead w a.read.data fd)).readCount
    rw [source_didRead, source_setSource]
    show (source w s).readCount ≠ (source w s).readCount + 1
    grind

end

/-! ## The rules that write -/

/-- What the call that tells the sink about the end does to the handle of the sink. -/
def Finishes (w : CopyWay)
    (finish : FDWrapper → Answer → Except Exception (Unit × FDWrapper)) : Prop :=
  ∀ fd a, match finish fd a with
    | .ok (_, fd') => (w = .outbound → fd'.eof = fd.eof) ∧
        (fd'.writeCount = fd.writeCount ∨ fd'.writeCount = fd.writeCount + 1)
    | .error e => KernelFault e

theorem finishes_shutdown : Finishes .outbound fun fd => fd.shutdown .wr := by
  intro fd a
  unfold FDWrapper.shutdown systemCall
  dsimp only
  by_cases hok : 0 ≤ a.value ∨ a.errno = 0
  · rw [if_pos hok]
    exact ⟨fun _ => rfl, Or.inr rfl⟩
  · rw [if_neg hok]
    exact .failed _ _

theorem finishes_close : Finishes .inbound FDWrapper.close := by
  intro fd a
  unfold FDWrapper.close systemCall
  by_cases hok : 0 ≤ a.value ∨ a.errno = 0
  · rw [if_pos hok]
    exact ⟨nofun, Or.inl rfl⟩
  · rw [if_neg hok]
    exact .failed _ _

section

variable {s : StreamCopy} (w : CopyWay) (a : CopyAnswers)

theorem half_didWrite (n : Nat) (fd : FDWrapper) :
    (s.didWrite w n fd).half w = (s.half w).pop n := by
  unfold didWrite
  rw [half_onHalf_self, half_setSink]

theorem half_didWrite_of_ne {w' : CopyWay} (h : w' ≠ w) (n : Nat) (fd : FDWrapper) :
    (s.didWrite w n fd).half w' = s.half w' := by
  unfold didWrite
  rw [half_onHalf_of_ne _ _ _ _ h, half_setSink]

theorem source_didWrite {n : Nat} {fd : FDWrapper} (h : w = .outbound → fd.eof = (sink w s).eof)
    (w' : CopyWay) : (source w' (s.didWrite w n fd)).eof = (source w' s).eof := by
  unfold didWrite
  rw [source_onHalf, source_setSink w w' h]

theorem sink_didWrite (n : Nat) (fd : FDWrapper) : sink w (s.didWrite w n fd) = fd := by
  unfold didWrite
  rw [sink_onHalf, sink_setSink]

theorem inv_didWrite (hinv : contract.inv s) {n : Nat} (hn : n ≤ (s.half w).offer.length)
    (fd : FDWrapper) : contract.inv (s.didWrite w n fd) := by
  apply forall_way (P := fun w' => ((s.didWrite w n fd).half w').Inv) w
  · rw [half_didWrite]
    exact (hinv w).pop hn
  · intro w' hw'
    rw [half_didWrite_of_ne w hw']
    exact hinv w'

theorem writeRule_kept {finish : FDWrapper → Answer → Except Exception (Unit × FDWrapper)}
    (hfinish : Finishes w finish) (hok : contract.ok a) (hinv : contract.inv s)
    (hlive : contract.live (.write w) s) :
    match ((writeRule w finish).callback a).run s with
    | .ok _ s' => contract.inv s' ∧ contract.live (.write w) s' ∧
        contract.Spares (.write w) s s' ∧ (writeRule w finish).serviceCount s ≠
          (writeRule w finish).serviceCount s'
    | .error e s' => contract.inv s' ∧ KernelFault e := by
  rw [writeRule_run, FDWrapper.write_eq _ _ hok.2]
  by_cases hfail : a.write.value < 0
  · rw [if_pos hfail]
    exact ⟨hinv, .failed _ _⟩
  rw [if_neg hfail]
  by_cases hzero : a.write.count = 0 ∧ (s.half w).offer.length ≠ 0
  · rw [if_pos hzero]
    exact ⟨hinv, .wroteNothing⟩
  rw [if_neg hzero]
  by_cases hmore : (s.half w).offer.length < a.write.count
  · rw [if_pos hmore]
    exact ⟨hinv, .wroteMore⟩
  rw [if_neg hmore]
  have hinv' := inv_didWrite w hinv (Nat.le_of_not_lt hmore) (sink w s).registerWrite
  set s' := s.didWrite w a.write.count (sink w s).registerWrite with hs'
  have hhalf : s'.half w = (s.half w).pop a.write.count := half_didWrite w _ _
  have hother : ∀ w', w' ≠ w → s'.half w' = s.half w' := fun w' h => half_didWrite_of_ne w h _ _
  have hsource : ∀ w', (source w' s').eof = (source w' s).eof := source_didWrite w fun _ => rfl
  by_cases heof : ((s.half w).pop a.write.count).stream.eof = true
  · simp only [if_pos heof]
    have hspec := hfinish (sink w s).registerWrite a.finish
    cases hrun : finish (sink w s).registerWrite a.finish with
    | error e =>
        simp only [hrun] at hspec
        exact ⟨hinv', hspec⟩
    | ok r =>
        obtain ⟨_, fd'⟩ := r
        simp only [hrun] at hspec ⊢
        have hdone : ((setSink w s' fd').onHalf w CopyHalf.finish).half w
            = ((s.half w).pop a.write.count).finish := by
          rw [half_onHalf_self, half_setSink, hhalf]
        have hdone' : ∀ w', w' ≠ w →
            ((setSink w s' fd').onHalf w CopyHalf.finish).half w' = s.half w' := by
          intro w' hw'
          rw [half_onHalf_of_ne _ _ _ _ hw', half_setSink, hother w' hw']
        refine ⟨?_, ?_, ?_, ?_⟩
        · apply forall_way
            (P := fun w' => (((setSink w s' fd').onHalf w CopyHalf.finish).half w').Inv) w
          · rw [hdone]
            exact ((hinv w).pop (Nat.le_of_not_lt hmore)).finish heof hlive
          · intro w' hw'
            rw [hdone' w' hw']
            exact hinv w'
        · show (((setSink w s' fd').onHalf w CopyHalf.finish).half w).brokenOff = false
          rw [hdone]
          exact hlive
        · apply spares_write hdone'
          · intro w'
            rw [source_onHalf, source_setSink w w', hsource]
            intro hw
            rw [sink_didWrite]
            exact hspec.1 hw
          · rw [hdone]
            exact id
          · rw [hdone]
            exact fun _ => rfl
          · rw [hdone]
            exact id
        · show (sink w s).writeCount
            ≠ (sink w ((setSink w s' fd').onHalf w CopyHalf.finish)).writeCount
          rw [sink_onHalf, sink_setSink]
          have hcount : (sink w s).registerWrite.writeCount = (sink w s).writeCount + 1 := rfl
          rw [hcount] at hspec
          grind
  · simp only [if_neg heof]
    refine ⟨hinv', ?_, ?_, ?_⟩
    · show (s'.half w).brokenOff = false
      rw [hhalf]
      exact hlive
    · apply spares_write hother hsource
      · rw [hhalf]
        exact id
      · rw [hhalf]
        exact fun _ => rfl
      · rw [hhalf]
        exact id
    · show (sink w s).writeCount ≠ (sink w s').writeCount
      rw [hs', sink_didWrite]
      show (sink w s).writeCount ≠ (sink w s).writeCount + 1
      grind

end

/-! ## Every run -/

theorem table_read (w : CopyWay) : table (.read w) = readRule w := by cases w <;> rfl

theorem table_write (w : CopyWay) :
    ∃ finish, table (.write w) = writeRule w finish ∧ Finishes w finish := by
  cases w with
  | outbound => exact ⟨_, rfl, finishes_shutdown⟩
  | inbound => exact ⟨_, rfl, finishes_close⟩

section

variable {s : StreamCopy} (w : CopyWay)

theorem inv_onHalf (hinv : contract.inv s) {f : CopyHalf → CopyHalf}
    (hf : (s.half w).Inv → (f (s.half w)).Inv) : contract.inv (s.onHalf w f) := by
  apply forall_way (P := fun w' => ((s.onHalf w f).half w').Inv) w
  · rw [half_onHalf_self]
    exact hf (hinv w)
  · intro w' hw'
    rw [half_onHalf_of_ne _ _ _ _ hw']
    exact hinv w'

theorem asked_read (hinv : contract.inv s) (hlive : contract.live (.read w) s)
    (hopen : finished table (.read w) s = false) :
    if (table (.read w)).interest s then contract.armed (.read w) s
    else contract.idle (.read w) s := by
  rw [table_read]
  have heof : (source w s).eof = false := by
    unfold finished at hopen
    rw [table_read, Bool.or_eq_false_iff] at hopen
    simpa [readRule] using hopen.1
  split_ifs with hinterest
  · intro hbroken
    by_contra hend
    rw [hlive hbroken (by simpa using hend)] at heof
    cases heof
  · show (s.half w).stream.remainingCapacity = 0
    by_contra hpos
    exact hinterest (by simp [readRule, (hinv w).noError, (hinv w.other).noError]; omega)

theorem asked_write :
    if (table (.write w)).interest s then contract.armed (.write w) s
    else contract.idle (.write w) s := by
  obtain ⟨finish, htable, -⟩ := table_write w
  rw [htable]
  split_ifs with hinterest
  · trivial
  · have hsize : (s.half w).stream.size = 0 := by
      by_contra hsize
      exact hinterest (by simp [writeRule, hsize])
    refine ⟨hsize, fun hend => ?_⟩
    by_contra hshut
    exact hinterest (by simp [writeRule, ByteStream.eof, hsize, hend, hshut])

theorem order_of_before {w' : CopyWay} {f : CopyHalf → CopyHalf} {j : CopyRule}
    (hj : j.way = w' → contract.idle j s → contract.idle j (s.onHalf w' f)) :
    contract.idle j s → contract.idle j (s.onHalf w' f) := by
  by_cases hw : j.way = w'
  · exact hj hw
  · have hhalf : (s.onHalf w' f).half j.way = s.half j.way := half_onHalf_of_ne _ _ _ _ hw
    cases j <;> (simp only [contract, CopyRule.way] at hhalf ⊢; rw [hhalf]; exact id)

theorem cancel_read (hinv : contract.inv s) :
    contract.inv (s.onHalf w CopyHalf.endInput) ∧
      contract.gone (.read w) (s.onHalf w CopyHalf.endInput) ∧
      contract.Spares (.read w) s (s.onHalf w CopyHalf.endInput) ∧
      ∀ j, contract.before j (.read w) → contract.idle j s →
        contract.idle j (s.onHalf w CopyHalf.endInput) := by
  refine ⟨inv_onHalf w hinv CopyHalf.Inv.endInput, ?_, ?_, ?_⟩
  · show ((s.onHalf w CopyHalf.endInput).half w).stream.isInputEnd = true
    rw [half_onHalf_self]
    rfl
  · apply spares_read
    · intro w' hw'
      exact half_onHalf_of_ne _ _ _ _ hw'
    · intro w' _
      rw [source_onHalf]
    · rw [half_onHalf_self]
      rfl
    · rw [half_onHalf_self]
      rfl
  · -- the rules that come before this one belong to the other way
    intro j hbefore
    apply order_of_before
    intro hw
    exfalso
    subst hw
    cases j with
    | read w => exact absurd hbefore (lt_irrefl _)
    | write w =>
        have hlt : order (.write w) < order (.read w) := hbefore
        cases w <;> exact absurd hlt (by decide)

theorem cancel_write (hinv : contract.inv s) :
    contract.inv (s.onHalf w CopyHalf.breakOff) ∧
      contract.gone (.write w) (s.onHalf w CopyHalf.breakOff) ∧
      contract.Spares (.write w) s (s.onHalf w CopyHalf.breakOff) ∧
      ∀ j, contract.before j (.write w) → contract.idle j s →
        contract.idle j (s.onHalf w CopyHalf.breakOff) := by
  have hhalf : (s.onHalf w CopyHalf.breakOff).half w = (s.half w).breakOff :=
    half_onHalf_self _ _ _
  have hbroken : (s.half w).breakOff.brokenOff = false →
      (s.half w).brokenOff = false ∧ (s.half w).shutdown = true := by
    intro h
    have h' : ((s.half w).brokenOff || !(s.half w).shutdown) = false := h
    simpa using h'
  refine ⟨inv_onHalf w hinv CopyHalf.Inv.breakOff, ?_, ?_, ?_⟩
  · show ((s.onHalf w CopyHalf.breakOff).half w).brokenOff = true ∨
      ((s.onHalf w CopyHalf.breakOff).half w).shutdown = true
    rw [hhalf]
    show ((s.half w).brokenOff || !(s.half w).shutdown) = true ∨ (s.half w).shutdown = true
    cases (s.half w).shutdown <;> simp
  · apply spares_write
    · intro w' hw'
      exact half_onHalf_of_ne _ _ _ _ hw'
    · intro w'
      rw [source_onHalf]
    · rw [hhalf]
      exact fun h => (hbroken h).1
    · rw [hhalf]
      intro h
      -- after the shutdown the stream is at its end already
      have heof := (hinv w).eof_of_shutdown (hbroken h).2
      simp only [ByteStream.eof, Bool.and_eq_true] at heof
      exact heof.2.symm
    · rw [hhalf]
      exact fun _ => rfl
  · intro j hbefore
    apply order_of_before
    intro hw
    cases j with
    | read w' =>
        obtain rfl : w' = w := hw
        simp only [contract]
        rw [hhalf]
        exact id
    | write w' =>
        obtain rfl : w' = w := hw
        exact absurd hbefore (lt_irrefl _)

end

/-- The four rules keep the contract. -/
theorem contract_kept : contract.Kept table where
  before_ne := by
    rintro i j hbefore rfl
    exact lt_irrefl _ hbefore
  asked := by
    intro i s hinv hlive hopen
    cases i with
    | read w => exact asked_read w hinv hlive hopen
    | write w => exact asked_write w
  callback := by
    intro i a s hok hinv hlive harmed
    cases i with
    | read w =>
        have hkept := readRule_kept w a hok hinv harmed
        rw [table_read]
        cases hrun : ((readRule w).callback a).run s with
        | error e s' =>
            simp only [hrun] at hkept
            exact hkept
        | ok _ s' =>
            simp only [hrun] at hkept
            obtain ⟨hinv', hlive', hspares, hcount⟩ := hkept
            exact ⟨hinv', hlive', hspares, fun h => absurd h hcount⟩
    | write w =>
        obtain ⟨finish, htable, hfinish⟩ := table_write w
        have hkept := writeRule_kept w a hfinish hok hinv hlive
        rw [htable]
        cases hrun : ((writeRule w finish).callback a).run s with
        | error e s' =>
            simp only [hrun] at hkept
            exact hkept
        | ok _ s' =>
            simp only [hrun] at hkept
            obtain ⟨hinv', hlive', hspares, hcount⟩ := hkept
            exact ⟨hinv', hlive', hspares, fun h => absurd h hcount⟩
  cancel := by
    intro i s hinv _
    cases i with
    | read w =>
        rw [table_read]
        exact cancel_read w hinv
    | write w =>
        obtain ⟨finish, htable, -⟩ := table_write w
        rw [htable]
        exact cancel_write w hinv

/-- The answers of the kernel to the callbacks of a run are documented ones. -/
def Documented (polls : List (Poll CopyAnswers)) : Prop :=
  ∀ poll ∈ polls, contract.Answered poll

instance (a : CopyAnswers) : Decidable (contract.ok a) := inferInstanceAs (Decidable (_ ∧ _))

instance (polls : List (Poll CopyAnswers)) : Decidable (Documented polls) :=
  inferInstanceAs (Decidable (∀ poll ∈ polls, contract.Answered poll))

theorem after_upholds {polls : List (Poll CopyAnswers)} (hok : Documented polls) :
    contract.Upholds rules (.failed eintr ∈ polls) (after polls) := by
  have hrules : rules.Pairwise fun i j => order i < order j := by decide
  refine contract_kept.run hrules (fun w => ?_) (fun i _ => ?_) hok
  · cases w <;> exact CopyHalf.inv_new
  · cases i with
    | read w => cases w <;> exact fun _ h => h
    | write w => cases w <;> rfl

/-- When the loop returns `Exit` without a signal, every way is complete or its sink broke off. -/
theorem exited_shutdown {polls : List (Poll CopyAnswers)} {m : Machine CopyRule StreamCopy}
    (h : contract.Upholds rules (.failed eintr ∈ polls) m) (hexit : m.status = .exited)
    (hsignal : .failed eintr ∉ polls) (w : CopyWay) (hbroken : (m.state.half w).brokenOff = false) :
    (m.state.half w).shutdown = true := by
  have hnever : ∀ e, m.status ≠ .threw e := by
    intro e he
    rw [hexit] at he
    cases he
  have hidle := (h.idle hexit).resolve_left hsignal
  have hall : ∀ i, i ∈ rules := by rintro (w | w) <;> cases w <;> decide
  by_cases hwrite : .write w ∈ m.rules
  · obtain ⟨hsize, hshut⟩ := hidle _ hwrite
    -- an empty stream has room, so that the rule that reads is not idle but gone
    have hread : .read w ∉ m.rules := by
      intro hread
      have hfull : (m.state.half w).stream.remainingCapacity = 0 := hidle _ hread
      rw [(h.inv w).carries.remainingCapacity_eq, (h.inv w).capacity_eq, hsize] at hfull
      cases hfull
    exact hshut (h.gone hnever _ (hall _) hread)
  · have hgone : (m.state.half w).brokenOff = true ∨ (m.state.half w).shutdown = true :=
      h.gone hnever _ (hall _) hwrite
    rw [hbroken] at hgone
    exact hgone.resolve_left Bool.false_ne_true

/-- **Copying loses, repeats and reorders nothing.** Whatever is ready when, and however few bytes a
read or a write moves: in each direction, what was written followed by at most one buffer is what was
read, up to the point where the sink breaks off. The sink is told about the end only when everything
has been written; the loop is over, unless a signal interrupts it, only when every sink has been told
so or has broken off; and it throws only if the kernel is at fault. -/
theorem run_copies (polls : List (Poll CopyAnswers)) (hok : Documented polls) :
    let m := after polls
    (∀ w, (m.state.half w).given ++ (m.state.half w).stream.buf <+: (m.state.half w).taken ∧
        (m.state.half w).stream.buf.length ≤ 1048576 ∧
        ((m.state.half w).brokenOff = false →
          (m.state.half w).given ++ (m.state.half w).stream.buf = (m.state.half w).taken) ∧
        ((m.state.half w).shutdown = true → (m.state.half w).given = (m.state.half w).taken) ∧
        (m.status = .exited → .failed eintr ∉ polls →
          (m.state.half w).brokenOff = true ∨ (m.state.half w).shutdown = true)) ∧
      ∀ e, m.status = .threw e → KernelFault e ∨ e = pollError := by
  intro m
  have h : contract.Upholds rules (.failed eintr ∈ polls) m := after_upholds hok
  refine ⟨fun w => ⟨(h.inv w).isPrefix, ?_, (h.inv w).whole, (h.inv w).given_eq, ?_⟩, h.throws⟩
  · have hsize := (h.inv w).carries.size_eq
    have hle := (h.inv w).carries.size_le
    have hcap := (h.inv w).capacity_eq
    omega
  · intro hexit hsignal
    by_cases hbroken : (m.state.half w).brokenOff = true
    · exact Or.inl hbroken
    · exact Or.inr (exited_shutdown h hexit hsignal w (by simpa using hbroken))

/-- Two bytes arrive, and leave one by one; then both sides end. -/
def twoBytes : List (Poll CopyAnswers) :=
  [.ready [({ pollin := true }, { read := ⟨2, 0, [97, 98]⟩ })],
    .ready [({ pollin := true }, {}), ({ pollout := true }, { write := ⟨1, 0⟩ })],
    .ready [({ pollout := true }, { write := ⟨1, 0⟩ }), ({ pollin := true }, {})],
    .ready [({}, {}), ({ pollout := true }, {})],
    .timeout]

theorem twoBytes_copies :
    let m := after twoBytes
    m.status = .exited ∧ m.state.outbound.taken = [97, 98] ∧
      m.state.outbound.given = m.state.outbound.taken := by
  intro m
  have hexit : m.status = .exited := by decide +kernel
  have hshut : m.state.outbound.shutdown = true := by decide +kernel
  obtain ⟨hways, -⟩ := run_copies twoBytes (by decide)
  exact ⟨hexit, by decide +kernel, (hways .outbound).2.2.2.1 hshut⟩

end StreamCopy

end Sponge
