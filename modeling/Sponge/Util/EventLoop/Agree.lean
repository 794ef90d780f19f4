import Sponge.Util.EventLoop.Contract

set_option autoImplicit false

/-! # Event loops that do the same

Two lists of rules that differ in a callback make the same loop, as long as the callbacks do the same
wherever they are called. `Agrees` says so of two programs, and what holds in the states that they
leave; its rules follow the program of the loop down to the callbacks (`agrees_waitNextEvent`). -/

namespace Sponge

namespace Util

namespace EventLoop

section

variable {σ β γ : Type} {P : σ → Prop} {Q : β → σ → Prop} {R : γ → σ → Prop} {E : σ → Prop}
  {x x' : EStateM Exception σ β}

/-- What holds of the result of a program: `Q`, or `E` if it has thrown. -/
def Leaves (Q : β → σ → Prop) (E : σ → Prop) : EStateM.Result Exception σ β → Prop
  | .ok b s => Q b s
  | .error _ s => E s

/-- In every state in which `P` holds, `x'` does what `x` does. -/
def Agrees (P : σ → Prop) (x x' : EStateM Exception σ β) (Q : β → σ → Prop) (E : σ → Prop) : Prop :=
  ∀ s, P s → x'.run s = x.run s ∧ Leaves Q E (x.run s)

/-! ## The rules -/

theorem Agrees.mono (h : Agrees P x x' Q E) {Q' : β → σ → Prop} (hQ : ∀ b s, Q b s → Q' b s) :
    Agrees P x x' Q' E := by
  intro s hs
  obtain ⟨heq, hleaves⟩ := h s hs
  refine ⟨heq, ?_⟩
  cases hrun : x.run s with
  | ok b s' =>
      rw [hrun] at hleaves
      exact hQ b s' hleaves
  | error e s' =>
      rw [hrun] at hleaves
      exact hleaves

/-- A fact that does not depend on the state. -/
theorem agrees_of_and {p : Prop} (h : p → Agrees P x x' Q E) :
    Agrees (fun s => P s ∧ p) x x' Q E :=
  fun s hs => h hs.2 s hs.1

theorem agrees_pure (b : β) (h : ∀ s, P s → Q b s) : Agrees P (pure b) (pure b) Q E :=
  fun s hs => ⟨rfl, h s hs⟩

theorem agrees_throw (e : Exception) (h : ∀ s, P s → E s) :
    Agrees P (throw e : EStateM Exception σ β) (throw e) Q E :=
  fun s hs => ⟨rfl, h s hs⟩

/-- One program after another. -/
theorem Agrees.bind (h : Agrees P x x' Q E) {f f' : β → EStateM Exception σ γ}
    (hf : ∀ b, Agrees (Q b) (f b) (f' b) R E) : Agrees P (x >>= f) (x' >>= f') R E := by
  intro s hs
  obtain ⟨heq, hleaves⟩ := h s hs
  rw [EStateM.run_bind, EStateM.run_bind, heq]
  cases hrun : x.run s with
  | ok b s' =>
      rw [hrun] at hleaves
      exact hf b s' hleaves
  | error e s' =>
      rw [hrun] at hleaves
      exact ⟨rfl, hleaves⟩

theorem agrees_get {f f' : σ → EStateM Exception σ γ} (h : ∀ s, Agrees P (f s) (f' s) R E) :
    Agrees P (get >>= f) (get >>= f') R E :=
  fun s hs => h s s hs

theorem agrees_ite (p : Prop) [Decidable p] {y y' : EStateM Exception σ β}
    (hx : Agrees P x x' Q E) (hy : Agrees P y y' Q E) :
    Agrees P (if p then x else y) (if p then x' else y') Q E := by
  split_ifs
  · exact hx
  · exact hy

end

/-! ## Down to the callbacks -/

section

variable {ι σ α : Type} {table table' : ι → Rule σ α} {P Q E : σ → Prop}

/-- The rules differ in their callbacks only. -/
structure SameBut (table table' : ι → Rule σ α) : Prop where
  fd : ∀ i, (table' i).fd = (table i).fd
  direction : ∀ i, (table' i).direction = (table i).direction
  interest : ∀ i, (table' i).interest = (table i).interest
  cancel : ∀ i, (table' i).cancel = (table i).cancel

theorem sameBut_refl (table : ι → Rule σ α) : SameBut table table :=
  ⟨fun _ => rfl, fun _ => rfl, fun _ => rfl, fun _ => rfl⟩

/-- The callback for cancelling leaves `P` alone. -/
def Cancels (table : ι → Rule σ α) (P E : σ → Prop) : Prop :=
  ∀ i, Agrees P (table i).cancel (table i).cancel (fun _ => P) E

/-- The setup calls no callback. -/
theorem agrees_setup (h : SameBut table table') (hcancel : Cancels table P E) (rules : List ι) :
    Agrees P (setup table rules) (setup table' rules)
      (fun polled s => P s ∧ (polled.map Prod.fst).Sublist rules) E := by
  induction rules with
  | nil => exact agrees_pure [] (fun s hs => ⟨hs, List.Sublist.refl _⟩)
  | cons i rules ih =>
      unfold setup
      refine agrees_get fun s => ?_
      have hfinished : finished table' i s = finished table i s := by
        unfold finished
        rw [h.fd, h.direction]
      rw [hfinished]
      apply agrees_ite
      · rw [h.cancel]
        apply (hcancel i).bind
        intro _
        exact ih.mono fun polled s hs => ⟨hs.1, hs.2.trans (List.sublist_cons_self _ _)⟩
      · rw [h.interest]
        refine agrees_get fun s => ih.bind fun polled => ?_
        exact agrees_pure _ fun s hs => ⟨hs.1, hs.2.cons_cons i⟩

theorem agrees_serve (h : SameBut table table') {i : ι} {a : α}
    (hcall : Agrees P ((table i).callback a) ((table' i).callback a) (fun _ => Q) E)
    (hthrow : ∀ s, Q s → E s) :
    Agrees P (serve table i a) (serve table' i a) (fun _ => Q) E := by
  have hcount : ∀ s, (table' i).serviceCount s = (table i).serviceCount s := by
    intro s
    unfold Rule.serviceCount
    rw [h.direction, h.fd]
  unfold serve
  refine agrees_get fun s => hcall.bind fun _ => ?_
  refine agrees_get fun s' => agrees_get fun s'' => ?_
  rw [hcount, hcount, h.interest]
  exact agrees_ite _ (agrees_throw _ hthrow) (agrees_pure _ fun _ => id)

theorem agrees_turn (h : SameBut table table') (hcancel : Cancels table P E) {i : ι} {a : α}
    (hcall : Agrees P ((table i).callback a) ((table' i).callback a) (fun _ => Q) E)
    (hkeep : ∀ s, P s → Q s) (hthrow : ∀ s, Q s → E s) (interested : Bool) (revents : Revents) :
    Agrees P (turn table i interested revents a) (turn table' i interested revents a)
      (fun _ => Q) E := by
  unfold turn
  rw [h.direction, h.cancel]
  apply agrees_ite
  · exact agrees_throw _ fun s hs => hthrow s (hkeep s hs)
  · apply agrees_ite
    · exact (hcancel i).bind fun _ => agrees_pure false hkeep
    · apply agrees_ite
      · exact (agrees_serve h hcall hthrow).bind fun _ => agrees_pure true fun _ => id
      · exact agrees_pure true hkeep

/-- The callbacks of the rules that are polled agree wherever `P` holds, and keep it. -/
theorem agrees_service (h : SameBut table table') (hcancel : Cancels table P E)
    (hthrow : ∀ s, P s → E s) {polled : List (ι × Bool)} {answers : List (Revents × α)}
    (hcall : ∀ p ∈ polled, ∀ answer ∈ answers,
      Agrees P ((table p.1).callback answer.2) ((table' p.1).callback answer.2) (fun _ => P) E) :
    Agrees P (service table polled answers) (service table' polled answers) (fun _ => P) E := by
  induction polled generalizing answers with
  | nil => exact agrees_pure _ fun _ => id
  | cons p polled ih =>
      cases answers with
      | nil => exact agrees_pure _ fun _ => id
      | cons answer answers =>
          unfold service
          have hhead := hcall p List.mem_cons_self answer List.mem_cons_self
          refine (agrees_turn h hcancel hhead (fun _ => id) hthrow p.2 answer.1).bind fun stays => ?_
          have hrest := ih (fun p' hp' answer' hanswer' =>
            hcall p' (List.mem_cons_of_mem _ hp') answer' (List.mem_cons_of_mem _ hanswer'))
          exact hrest.bind fun rules => agrees_pure _ fun _ => id

/-- One call of `wait_next_event`, if going through the results of `poll` is the same. -/
theorem agrees_waitNextEvent (h : SameBut table table') (hcancel : Cancels table P E)
    (hkeep : ∀ s, P s → Q s) {ok : α → Prop} {rules : List ι}
    (hservice : ∀ polled answers, (polled.map Prod.fst).Sublist rules →
      (∀ answer ∈ answers, ok answer.2) →
      Agrees P (service table polled answers) (service table' polled answers) (fun _ => Q) E)
    {poll : Poll α} (hok : poll.All ok) :
    Agrees P (waitNextEvent table rules poll) (waitNextEvent table' rules poll) (fun _ => Q) E := by
  unfold waitNextEvent
  refine (agrees_setup h hcancel rules).bind fun polled => agrees_of_and fun hsub => ?_
  have hserviced : ∀ answers, (∀ answer ∈ answers, ok answer.2) →
      Agrees P (service table polled answers) (service table' polled answers) (fun _ => Q) E :=
    fun answers => hservice polled answers hsub
  apply agrees_ite
  · exact agrees_pure _ hkeep
  · cases poll with
    | timeout => exact agrees_pure _ hkeep
    | failed errno =>
        apply agrees_ite
        · exact agrees_pure _ hkeep
        · exact (hserviced [] (by simp)).bind fun rules' => agrees_pure _ fun _ => id
    | ready answers =>
        exact (hserviced answers hok).bind fun rules' => agrees_pure _ fun _ => id

/-- The machine moves on in the same way. -/
theorem Machine.step_agrees {m : Machine ι σ} {poll : Poll α} (hs : P m.state)
    (h : Agrees P (waitNextEvent table m.rules poll) (waitNextEvent table' m.rules poll)
      (fun _ => Q) Q) (hkeep : ∀ s, P s → Q s) :
    m.step table' poll = m.step table poll ∧ Q (m.step table poll).state := by
  obtain ⟨heq, hleaves⟩ := h m.state hs
  unfold Machine.step
  cases hstatus : m.status with
  | running =>
      simp only [heq, true_and]
      cases hrun : (waitNextEvent table m.rules poll).run m.state with
      | ok r s' =>
          rw [hrun] at hleaves
          exact hleaves
      | error e s' =>
          rw [hrun] at hleaves
          exact hleaves
  | exited => exact ⟨rfl, hkeep _ hs⟩
  | threw e => exact ⟨rfl, hkeep _ hs⟩

/-- What all callbacks keep, also when they throw, the machine keeps. -/
theorem Machine.step_keeps (hcancel : Cancels table P P)
    (hcall : ∀ i a, Agrees P ((table i).callback a) ((table i).callback a) (fun _ => P) P)
    {m : Machine ι σ} (hs : P m.state) (poll : Poll α) : P (m.step table poll).state := by
  have hall : poll.All fun _ => True := by
    cases poll <;> simp [Poll.All]
  have hwait : Agrees P (waitNextEvent table m.rules poll) (waitNextEvent table m.rules poll)
      (fun _ => P) P := by
    refine agrees_waitNextEvent (sameBut_refl table) hcancel (fun _ => id) ?_ hall
    intro polled answers _ _
    exact agrees_service (sameBut_refl table) hcancel (fun _ => id) fun p _ answer _ =>
      hcall p.1 answer.2
  exact (Machine.step_agrees hs hwait fun _ => id).2

/-! ## Another callback for the first rule -/

/-- A program agrees with itself. -/
theorem agrees_self {β : Type} (P : σ → Prop) (x : EStateM Exception σ β) :
    Agrees P x x (fun _ _ => True) (fun _ => True) := by
  intro s _
  refine ⟨rfl, ?_⟩
  cases x.run s <;> trivial

section

variable {i₀ : ι}

/-- Only the rule that has its turn first has another callback. -/
theorem agrees_service_head (h : SameBut table table') (hcancel : Cancels table P fun _ => True)
    (hothers : ∀ i, i ≠ i₀ → (table' i).callback = (table i).callback)
    {polled : List (ι × Bool)} {answers : List (Revents × α)}
    (hfirst : ∀ i ∈ (polled.map Prod.fst).tail, i ≠ i₀)
    (hcall : ∀ answer ∈ answers, Agrees P ((table i₀).callback answer.2)
      ((table' i₀).callback answer.2) (fun _ _ => True) (fun _ => True)) :
    Agrees P (service table polled answers) (service table' polled answers)
      (fun _ _ => True) (fun _ => True) := by
  cases polled with
  | nil => exact agrees_self P (service table [] answers)
  | cons p polled =>
      cases answers with
      | nil => exact agrees_self P (service table (p :: polled) [])
      | cons answer answers =>
          have hhead : Agrees P ((table p.1).callback answer.2) ((table' p.1).callback answer.2)
              (fun _ _ => True) (fun _ => True) := by
            by_cases hp : p.1 = i₀
            · rw [hp]
              exact hcall answer List.mem_cons_self
            · rw [hothers p.1 hp]
              exact agrees_self P _
          have hrest : Agrees (fun _ => True) (service table polled answers)
              (service table' polled answers) (fun _ _ => True) (fun _ => True) := by
            apply agrees_service h (fun _ => agrees_self _ _) (fun _ => id)
            intro p' hp' answer' _
            rw [hothers p'.1 (hfirst p'.1 (List.mem_map_of_mem hp'))]
            exact agrees_self _ _
          unfold service
          refine (agrees_turn h hcancel hhead (fun _ _ => trivial) (fun _ => id) p.2 answer.1).bind
            fun stays => hrest.bind fun rules => ?_
          exact agrees_pure _ fun _ => id

/-- **Another callback for the first rule** makes the same loop where the two callbacks do the
same, in all states that the callbacks for cancelling lead to. -/
theorem Machine.step_eq_of_head (h : SameBut table table') (hcancel : Cancels table P fun _ => True)
    (hothers : ∀ i, i ≠ i₀ → (table' i).callback = (table i).callback) {m : Machine ι σ}
    (hfirst : ∀ i ∈ m.rules.tail, i ≠ i₀) (hs : P m.state) {poll : Poll α}
    (hcall : poll.All fun a => Agrees P ((table i₀).callback a) ((table' i₀).callback a)
      (fun _ _ => True) (fun _ => True)) :
    m.step table' poll = m.step table poll := by
  refine (Machine.step_agrees hs ?_ fun _ _ => trivial).1
  refine agrees_waitNextEvent h hcancel (fun _ _ => trivial) (fun polled answers hsub hok => ?_) hcall
  exact agrees_service_head h hcancel hothers (fun i hi => hfirst i (hsub.tail.subset hi)) hok

end

end

end EventLoop

end Util

end Sponge
