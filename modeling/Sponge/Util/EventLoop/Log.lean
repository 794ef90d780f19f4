import Sponge.Util.EventLoop.Contract

set_option autoImplicit false

/-! # What an event loop does with its rules

The calls of the callbacks are written to a log, which changes nothing else (`unlogged_run`). For
any rules whatsoever, the log shows that a rule is cancelled at most once and never called again
(`run_onceOnly`). -/

namespace Sponge

namespace Util

namespace EventLoop

open Run

/-- A call of a callback, or of the callback for cancelling. -/
inductive Event (ι : Type) where
  | called (i : ι)
  | cancelled (i : ι)

def Event.rule {ι : Type} : Event ι → ι
  | .called i | .cancelled i => i

section

variable {ι σ α : Type}

/-- Write down that something happens, and let it happen. -/
def record {τ β : Type} (event : τ) (x : EStateM Exception σ β) :
    EStateM Exception (σ × List τ) β := fun s =>
  match x.run s.1 with
  | .ok b s' => .ok b (s', s.2 ++ [event])
  | .error e s' => .error e (s', s.2 ++ [event])

theorem record_run {τ β : Type} (event : τ) (x : EStateM Exception σ β) (s : σ) (log : List τ) :
    (record event x).run (s, log) =
      match x.run s with
      | .ok b s' => .ok b (s', log ++ [event])
      | .error e s' => .error e (s', log ++ [event]) :=
  rfl

/-- The same rules with a log of their calls. -/
def logged (table : ι → Rule σ α) (i : ι) : Rule (σ × List (Event ι)) α where
  fd := fun s => (table i).fd s.1
  direction := (table i).direction
  callback := fun a => record (.called i) ((table i).callback a)
  interest := fun s => (table i).interest s.1
  cancel := record (.cancelled i) (table i).cancel

/-- Nothing of a rule happens after it has been cancelled. -/
def OnceOnly (log : List (Event ι)) : Prop :=
  ∀ i before after, log = before ++ .cancelled i :: after → ∀ event ∈ after, event.rule ≠ i

theorem OnceOnly.snoc {log : List (Event ι)} (h : OnceOnly log) {event : Event ι}
    (hevent : .cancelled event.rule ∉ log) : OnceOnly (log ++ [event]) := by
  intro i before after hlog event' hevent'
  rcases List.eq_nil_or_concat after with rfl | ⟨after', last, rfl⟩
  · cases hevent'
  · rw [List.concat_eq_append, ← List.cons_append, ← List.append_assoc] at hlog
    obtain ⟨hlog', hlast⟩ := List.append_inj' hlog rfl
    obtain rfl : event = last := by simpa using hlast
    rw [List.concat_eq_append, List.mem_append, List.mem_singleton] at hevent'
    rcases hevent' with hold | rfl
    · exact h i before after' hlog' event' hold
    · rintro rfl
      exact hevent (hlog' ▸ List.mem_append_right _ List.mem_cons_self)

/-- The contract that any rules keep: a rule is in the list until it is cancelled. -/
def loggedContract (ι σ α : Type) : Contract ι (σ × List (Event ι)) α where
  inv := fun s => OnceOnly s.2
  live := fun i s => .cancelled i ∉ s.2
  gone := fun i s => .cancelled i ∈ s.2
  armed := fun _ _ => True
  idle := fun _ _ => True
  before := fun i j => i ≠ j
  ok := fun _ => True
  throws := fun _ => True

theorem loggedContract_kept (table : ι → Rule σ α) :
    (loggedContract ι σ α).Kept (logged table) := by
  have hspares : ∀ (i : ι) (event : Event ι) (s s' : σ) (log : List (Event ι)), event.rule = i →
      (loggedContract ι σ α).Spares i (s, log) (s', log ++ [event]) := by
    intro i event s s' log hi j hj
    have hne : Event.cancelled j ≠ event := by
      rintro rfl
      exact hj hi
    refine ⟨fun hlive => ?_, fun hgone => List.mem_append_left _ hgone, id⟩
    intro hmem
    rw [List.mem_append, List.mem_singleton] at hmem
    exact hmem.elim hlive hne
  refine ⟨fun _ _ => id, fun i s _ _ _ => by split_ifs <;> trivial, ?_, ?_⟩
  · rintro i a ⟨s, log⟩ - hinv hlive -
    rw [show (logged table i).callback a = record (.called i) ((table i).callback a) from rfl,
      record_run]
    cases ((table i).callback a).run s with
    | error e s' => exact ⟨hinv.snoc hlive, trivial⟩
    | ok _ s' =>
        refine ⟨hinv.snoc hlive, ?_, hspares i _ s s' log rfl, fun _ _ => trivial⟩
        show .cancelled i ∉ log ++ [.called i]
        rw [List.mem_append, List.mem_singleton]
        rintro (hold | hnew)
        · exact hlive hold
        · cases hnew
  · rintro i ⟨s, log⟩ hinv hlive
    rw [show (logged table i).cancel = record (.cancelled i) (table i).cancel from rfl,
      record_run]
    cases (table i).cancel.run s with
    | error e s' => exact ⟨hinv.snoc hlive, trivial⟩
    | ok _ s' =>
        exact ⟨hinv.snoc hlive, List.mem_append_right _ (List.mem_singleton_self _),
          hspares i _ s s' log rfl, fun _ _ => id⟩

/-- `x` does what `x'` does, and keeps a log. -/
def Logs {τ β : Type} (x : EStateM Exception (σ × τ) β) (x' : EStateM Exception σ β) : Prop :=
  ∀ s, (match x.run s with
    | .ok b s' => .ok b s'.1
    | .error e s' => .error e s'.1) = x'.run s.1

section

variable {τ β γ : Type} {x : EStateM Exception (σ × τ) β} {x' : EStateM Exception σ β}
  {f : β → EStateM Exception (σ × τ) γ} {f' : β → EStateM Exception σ γ}

theorem logs_pure (b : β) :
    Logs (pure b : EStateM Exception (σ × τ) β) (pure b : EStateM Exception σ β) :=
  fun _ => rfl

theorem logs_throw (e : Exception) :
    Logs (throw e : EStateM Exception (σ × τ) β) (throw e : EStateM Exception σ β) :=
  fun _ => rfl

theorem logs_record (event : τ) (x : EStateM Exception σ β) : Logs (record event x) x := by
  rintro ⟨s, log⟩
  rw [record_run]
  cases x.run s <;> rfl

theorem Logs.bind (h : Logs x x') (hf : ∀ b, Logs (f b) (f' b)) : Logs (x >>= f) (x' >>= f') := by
  intro s
  have hs := h s
  rw [EStateM.run_bind, EStateM.run_bind, ← hs]
  cases x.run s with
  | error e s' => rfl
  | ok b s' => exact hf b s'

/-- A program that looks at the state sees the same. -/
theorem logs_get (f : σ × τ → EStateM Exception (σ × τ) γ) (f' : σ → EStateM Exception σ γ)
    (h : ∀ s, Logs (f s) (f' s.1)) : Logs (get >>= f) (get >>= f') :=
  fun s => h s s

theorem logs_ite (p : Prop) [Decidable p] {y : EStateM Exception (σ × τ) β}
    {y' : EStateM Exception σ β} (hx : Logs x x') (hy : Logs y y') :
    Logs (if p then x else y) (if p then x' else y') := by
  split_ifs
  · exact hx
  · exact hy

end

theorem logs_setup (table : ι → Rule σ α) (rules : List ι) :
    Logs (setup (logged table) rules) (setup table rules) := by
  induction rules with
  | nil => exact logs_pure []
  | cons i rules ih =>
      unfold setup
      refine logs_get _ _ fun s => logs_ite _ ?_ ?_
      · exact (logs_record (Event.cancelled i) (table i).cancel).bind fun _ => ih
      · exact logs_get _ _ fun s => ih.bind fun polled => logs_pure _

theorem logs_serve (table : ι → Rule σ α) (i : ι) (a : α) :
    Logs (serve (logged table) i a) (serve table i a) := by
  unfold serve
  refine logs_get _ _ fun s => (logs_record (Event.called i) ((table i).callback a)).bind fun _ => ?_
  exact logs_get _ _ fun s' => logs_get _ _ fun s'' => logs_ite _ (logs_throw _) (logs_pure _)

theorem logs_turn (table : ι → Rule σ α) (i : ι) (interested : Bool) (revents : Revents) (a : α) :
    Logs (turn (logged table) i interested revents a) (turn table i interested revents a) := by
  unfold turn
  refine logs_ite _ (logs_throw _) (logs_ite _ ?_ (logs_ite _ ?_ (logs_pure true)))
  · exact (logs_record (Event.cancelled i) (table i).cancel).bind fun _ => logs_pure false
  · exact (logs_serve table i a).bind fun _ => logs_pure true

theorem logs_service (table : ι → Rule σ α) (polled : List (ι × Bool))
    (answers : List (Revents × α)) :
    Logs (service (logged table) polled answers) (service table polled answers) := by
  induction polled generalizing answers with
  | nil => exact logs_pure []
  | cons p polled ih =>
      cases answers with
      | nil => exact logs_pure _
      | cons answer answers =>
          unfold service
          exact (logs_turn table _ _ _ _).bind fun stays => (ih answers).bind fun rules =>
            logs_pure _

theorem logs_waitNextEvent (table : ι → Rule σ α) (rules : List ι) (poll : Poll α) :
    Logs (waitNextEvent (logged table) rules poll) (waitNextEvent table rules poll) := by
  unfold waitNextEvent
  refine (logs_setup table rules).bind fun polled => logs_ite _ (logs_pure _) ?_
  cases poll with
  | timeout => exact logs_pure _
  | failed errno =>
      exact logs_ite _ (logs_pure _) ((logs_service table polled []).bind fun _ => logs_pure _)
  | ready answers => exact (logs_service table polled answers).bind fun _ => logs_pure _

/-- The machine without its log. -/
def Machine.unlogged {τ : Type} (m : Machine ι (σ × τ)) : Machine ι σ :=
  { rules := m.rules, state := m.state.1, status := m.status }

theorem unlogged_step (table : ι → Rule σ α) (m : Machine ι (σ × List (Event ι)))
    (poll : Poll α) :
    (m.step (logged table) poll).unlogged = m.unlogged.step table poll := by
  unfold Machine.step
  cases hstatus : m.status with
  | running =>
      have hwait := logs_waitNextEvent table m.rules poll m.state
      simp only [Machine.unlogged, hstatus]
      rw [← hwait]
      cases (waitNextEvent (logged table) m.rules poll).run m.state <;> rfl
  | exited => simp only [Machine.unlogged, hstatus]
  | threw e => simp only [Machine.unlogged, hstatus]

theorem unlogged_run (table : ι → Rule σ α) (m : Machine ι (σ × List (Event ι)))
    (polls : List (Poll α)) :
    (run (Machine.step (logged table)) m polls).unlogged
      = run (Machine.step table) m.unlogged polls := by
  induction polls generalizing m with
  | nil => rfl
  | cons poll polls ih => rw [run_cons, run_cons, ih, unlogged_step]

/-- **A rule is cancelled at most once, and nothing of it happens afterwards.** This holds for any
rules, whatever their callbacks do and whatever `poll` reports; the log changes nothing, and as long
as no exception leaves the loop, the rules that are left are those that were not cancelled. -/
theorem run_onceOnly (table : ι → Rule σ α) (rules : List ι) (hrules : rules.Nodup) (s : σ)
    (polls : List (Poll α)) :
    let m := run (Machine.step (logged table)) { rules := rules, state := (s, []) } polls
    OnceOnly m.state.2 ∧
      m.unlogged = run (Machine.step table) { rules := rules, state := s } polls ∧
      ((∀ e, m.status ≠ .threw e) →
        ∀ i ∈ rules, i ∈ m.rules ↔ Event.cancelled i ∉ m.state.2) := by
  intro m
  have hnil : OnceOnly ([] : List (Event ι)) := by
    intro i before after hlog
    exact absurd hlog.symm (by simp)
  have hok : ∀ poll ∈ polls, (loggedContract ι σ α).Answered poll := by
    intro poll _
    cases poll with
    | ready answers => exact fun _ _ => trivial
    | timeout => trivial
    | failed errno => trivial
  have hm : (loggedContract ι σ α).Upholds rules (.failed eintr ∈ polls) m :=
    (loggedContract_kept table).run (s := (s, [])) hrules hnil (fun i _ => List.not_mem_nil) hok
  refine ⟨hm.inv, unlogged_run table _ polls, ?_⟩
  intro hnever i hi
  refine ⟨hm.live hnever i, fun hnot => ?_⟩
  by_contra hmem
  exact hnot (hm.gone hnever i hi hmem)

end

/-- Two rules that count what is read; the one with the name `true` stops at two. -/
def counting (b : Bool) : Rule FDWrapper Unit where
  fd := id
  direction := .In
  callback := fun _ => modify FDWrapper.registerRead
  interest := fun fd => !b || fd.readCount != 2

/-- Both rules are called, then one of them is hung up. -/
theorem counting_onceOnly :
    let polls : List (Poll Unit) :=
      [.ready [({ pollin := true }, ()), ({ pollin := true }, ())],
        .ready [({}, ()), ({ pollhup := true }, ())]]
    let m := run (Machine.step (logged counting)) { rules := [true, false], state := ({}, []) } polls
    m.rules = [true] ∧ Event.cancelled false ∈ m.state.2 ∧ OnceOnly m.state.2 := by
  intro polls m
  have honce := run_onceOnly counting [true, false] (by decide) {} polls
  have hstatus : ∀ e, m.status ≠ .threw e := by
    have hrunning : m.status = .running := by decide
    rw [hrunning]
    exact nofun
  have hrules : m.rules = [true] := by decide
  refine ⟨hrules, ?_, honce.1⟩
  by_contra hnot
  have hmem : false ∈ m.rules := (honce.2.2 hstatus false (by decide)).mpr hnot
  rw [hrules] at hmem
  exact absurd hmem (by decide)

end EventLoop

end Util

end Sponge
