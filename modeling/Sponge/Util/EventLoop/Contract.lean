import Sponge.Basic.Run
import Sponge.Util.EventLoop

set_option autoImplicit false

/-! # Contracts between the rules of an event loop

The rules of a loop share the state of the program that owns it. A `Contract` says what every rule
may rely on and has to leave alone for the others; `Kept.run` is the rule that follows from it, for
any number of calls of `wait_next_event` and anything that `poll` reports. -/

namespace Sponge

namespace Util

namespace EventLoop

open Run

/-- The answers of a poll are `ok`, all of them. -/
def Poll.All {α : Type} (ok : α → Prop) : Poll α → Prop
  | .ready answers => ∀ answer ∈ answers, ok answer.2
  | _ => True

instance {α : Type} (ok : α → Prop) [DecidablePred ok] : ∀ poll : Poll α, Decidable (poll.All ok)
  | .ready answers => inferInstanceAs (Decidable (∀ answer ∈ answers, ok answer.2))
  | .timeout | .failed _ => .isTrue trivial

theorem Poll.All.mono {α : Type} {ok ok' : α → Prop} {poll : Poll α} (h : poll.All ok)
    (himp : ∀ a, ok a → ok' a) : poll.All ok' := by
  cases poll with
  | ready answers => exact fun answer hanswer => himp answer.2 (h answer hanswer)
  | timeout | failed _ => trivial

theorem Poll.All.and {α : Type} {ok ok' : α → Prop} {poll : Poll α} (h : poll.All ok)
    (h' : poll.All ok') : poll.All fun a => ok a ∧ ok' a := by
  cases poll with
  | ready answers => exact fun answer hanswer => ⟨h answer hanswer, h' answer hanswer⟩
  | timeout | failed _ => trivial

/-- `inv` always holds, `live i` until rule `i` is cancelled and `gone i` from then on, `armed i` from
when the rule says that it is interested until its callback, and `idle i` from when it says that it
is not until the end of the setup. The rules are added in the order `before`. -/
structure Contract (ι σ α : Type) where
  inv : σ → Prop
  live : ι → σ → Prop
  gone : ι → σ → Prop
  armed : ι → σ → Prop
  idle : ι → σ → Prop
  before : ι → ι → Prop
  /-- The answers of the kernel to a callback. -/
  ok : α → Prop
  /-- What the callbacks may throw. -/
  throws : Exception → Prop

namespace Contract

section

variable {ι σ α : Type} (c : Contract ι σ α)

/-- What the other rules rely on is still there. -/
def Spares (i : ι) (s s' : σ) : Prop :=
  ∀ j, j ≠ i → (c.live j s → c.live j s') ∧ (c.gone j s → c.gone j s') ∧
    (c.armed j s → c.armed j s')

/-- The rules keep their promises. -/
structure Kept (table : ι → Rule σ α) : Prop where
  before_ne : ∀ i j, c.before i j → i ≠ j
  asked : ∀ i s, c.inv s → c.live i s → finished table i s = false →
    if (table i).interest s then c.armed i s else c.idle i s
  callback : ∀ i a s, c.ok a → c.inv s → c.live i s → c.armed i s →
    match ((table i).callback a).run s with
    | .ok _ s' => c.inv s' ∧ c.live i s' ∧ c.Spares i s s' ∧
        ((table i).serviceCount s = (table i).serviceCount s' → (table i).interest s' = true →
          c.throws busyWait)
    | .error e s' => c.inv s' ∧ c.throws e
  cancel : ∀ i s, c.inv s → c.live i s →
    match (table i).cancel.run s with
    | .ok _ s' => c.inv s' ∧ c.gone i s' ∧ c.Spares i s s' ∧
        ∀ j, c.before j i → c.idle j s → c.idle j s'
    | .error e s' => c.inv s' ∧ c.throws e

variable {c} {table : ι → Rule σ α}

/-- What holds after the setup: every rule that stays is armed or idle, and what other rules rely on
is still there. -/
theorem Kept.setup (h : c.Kept table) {rules : List ι} (hrules : rules.Pairwise c.before) {s : σ}
    (hinv : c.inv s) (hlive : ∀ i ∈ rules, c.live i s) :
    match (setup table rules).run s with
    | .ok polled s' => c.inv s' ∧ (polled.map Prod.fst).Sublist rules ∧
        (∀ p ∈ polled, c.live p.1 s' ∧ if p.2 then c.armed p.1 s' else c.idle p.1 s') ∧
        (∀ i ∈ rules, i ∉ polled.map Prod.fst → c.gone i s') ∧
        (∀ j, (∀ i ∈ rules, c.before j i) → (c.live j s → c.live j s') ∧
          (c.armed j s → c.armed j s') ∧ (c.idle j s → c.idle j s')) ∧
        ∀ j, j ∉ rules → c.gone j s → c.gone j s'
    | .error e s' => c.inv s' ∧ c.throws e := by
  induction rules generalizing s with
  | nil =>
      exact ⟨hinv, List.Sublist.refl _, by simp, by simp, fun j _ => ⟨id, id, id⟩, fun j _ => id⟩
  | cons i rules ih =>
      obtain ⟨hi, hrest⟩ := List.forall_mem_cons.mp hlive
      obtain ⟨hbefore, hpairs⟩ := List.pairwise_cons.mp hrules
      unfold EventLoop.setup
      simp only [EStateM.run_bind, EStateM.run_get]
      by_cases hfin : finished table i s = true
      · have hcancel := h.cancel i s hinv hi
        rw [if_pos hfin]
        simp only [EStateM.run_bind]
        cases hrun : (table i).cancel.run s with
        | error e s' => simpa only [hrun] using hcancel
        | ok _ s' =>
            simp only [hrun] at hcancel
            obtain ⟨hinv', hgone, hspares, hidle⟩ := hcancel
            have hrest' := ih hpairs hinv' (fun j hj =>
              (hspares j (h.before_ne i j (hbefore j hj)).symm).1 (hrest j hj))
            cases hsetup : (EventLoop.setup table rules).run s' with
            | error e s'' => simpa only [hsetup] using hrest'
            | ok polled s'' =>
                simp only [hsetup] at hrest' ⊢
                obtain ⟨hinv'', hsub, hpolled, hgone', hframe, hpast⟩ := hrest'
                refine ⟨hinv'', hsub.trans (List.sublist_cons_self _ _), hpolled, ?_, ?_, ?_⟩
                · have hi' : i ∉ rules := fun hmem => h.before_ne i i (hbefore i hmem) rfl
                  exact List.forall_mem_cons.mpr ⟨fun _ => hpast i hi' hgone, hgone'⟩
                · intro j hj
                  obtain ⟨hji, hjrest⟩ := List.forall_mem_cons.mp hj
                  obtain ⟨hl, -, ha⟩ := hspares j (h.before_ne j i hji)
                  obtain ⟨hl', ha', hi'⟩ := hframe j hjrest
                  exact ⟨hl' ∘ hl, ha' ∘ ha, hi' ∘ hidle j hji⟩
                · intro j hj hgj
                  have hgj' := (hspares j (List.ne_of_not_mem_cons hj)).2.1 hgj
                  exact hpast j (List.not_mem_of_not_mem_cons hj) hgj'
      · have hasked := h.asked i s hinv hi (by simpa using hfin)
        have hrest' := ih hpairs hinv hrest
        rw [if_neg hfin]
        simp only [EStateM.run_bind, EStateM.run_get]
        cases hsetup : (EventLoop.setup table rules).run s with
        | error e s'' => simpa only [hsetup] using hrest'
        | ok polled s'' =>
            simp only [hsetup, EStateM.run_pure] at hrest' ⊢
            obtain ⟨hinv'', hsub, hpolled, hgone, hframe, hpast⟩ := hrest'
            refine ⟨hinv'', hsub.cons_cons i, ?_, ?_, ?_, ?_⟩
            · obtain ⟨hl, ha, hd⟩ := hframe i hbefore
              refine List.forall_mem_cons.mpr ⟨⟨hl hi, ?_⟩, hpolled⟩
              show if (table i).interest s then c.armed i s'' else c.idle i s''
              split_ifs at hasked ⊢
              · exact ha hasked
              · exact hd hasked
            · intro j hj hmem
              rcases List.mem_cons.mp hj with rfl | hj
              · exact absurd List.mem_cons_self hmem
              · exact hgone j hj (List.not_mem_of_not_mem_cons hmem)
            · intro j hj
              exact hframe j (List.forall_mem_cons.mp hj).2
            · intro j hj
              exact hpast j (List.not_mem_of_not_mem_cons hj)

theorem Kept.serve (h : c.Kept table) {i : ι} {a : α} (ha : c.ok a) {s : σ} (hinv : c.inv s)
    (hlive : c.live i s) (harmed : c.armed i s) :
    match (serve table i a).run s with
    | .ok _ s' => c.inv s' ∧ c.live i s' ∧ c.Spares i s s'
    | .error e s' => c.inv s' ∧ c.throws e := by
  have hcallback := h.callback i a s ha hinv hlive harmed
  unfold EventLoop.serve
  simp only [EStateM.run_bind, EStateM.run_get]
  cases hrun : ((table i).callback a).run s with
  | error e s' => simpa only [hrun] using hcallback
  | ok _ s' =>
      simp only [hrun] at hcallback
      obtain ⟨hinv', hlive', hspares, hbusy⟩ := hcallback
      by_cases hcount : (table i).serviceCount s = (table i).serviceCount s' ∧
          (table i).interest s' = true
      · simp only [if_pos hcount]
        exact ⟨hinv', hbusy hcount.1 hcount.2⟩
      · simp only [if_neg hcount]
        exact ⟨hinv', hlive', hspares⟩

/-- One rule has had its turn. -/
theorem Kept.turn (h : c.Kept table) {i : ι} {interested : Bool} {a : α} (ha : c.ok a)
    (revents : Revents) {s : σ} (hinv : c.inv s) (hlive : c.live i s)
    (harmed : interested = true → c.armed i s) :
    match (turn table i interested revents a).run s with
    | .ok stays s' => c.inv s' ∧ c.Spares i s s' ∧ if stays then c.live i s' else c.gone i s'
    | .error e s' => c.inv s' ∧ (c.throws e ∨ e = pollError) := by
  unfold EventLoop.turn
  by_cases herr : (revents.pollerr || revents.pollnval) = true
  · rw [if_pos herr]
    exact ⟨hinv, Or.inr rfl⟩
  rw [if_neg herr]
  by_cases hhup : (revents.pollhup && interested &&
      !(interested && revents.has (table i).direction)) = true
  · have hcancel := h.cancel i s hinv hlive
    simp only [if_pos hhup, EStateM.run_bind]
    cases hrun : (table i).cancel.run s with
    | error e s' =>
        simp only [hrun] at hcancel
        exact ⟨hcancel.1, Or.inl hcancel.2⟩
    | ok _ s' =>
        simp only [hrun] at hcancel
        exact ⟨hcancel.1, hcancel.2.2.1, hcancel.2.1⟩
  · simp only [if_neg hhup]
    by_cases hready : (interested && revents.has (table i).direction) = true
    · have hinterested : interested = true := (Bool.and_eq_true _ _ ▸ hready).1
      have hserve := h.serve ha hinv hlive (harmed hinterested)
      simp only [if_pos hready, EStateM.run_bind]
      cases hrun : (EventLoop.serve table i a).run s with
      | error e s' =>
          simp only [hrun] at hserve
          exact ⟨hserve.1, Or.inl hserve.2⟩
      | ok _ s' =>
          simp only [hrun] at hserve
          exact ⟨hserve.1, hserve.2.2, hserve.2.1⟩
    · simp only [if_neg hready]
      exact ⟨hinv, fun _ _ => ⟨id, id, id⟩, hlive⟩

/-- What holds after the results of `poll` have been gone through. -/
theorem Kept.service (h : c.Kept table) {polled : List (ι × Bool)} {answers : List (Revents × α)}
    (hok : ∀ answer ∈ answers, c.ok answer.2) (hpairs : (polled.map Prod.fst).Pairwise c.before)
    {s : σ} (hinv : c.inv s)
    (hpolled : ∀ p ∈ polled, c.live p.1 s ∧ (p.2 = true → c.armed p.1 s)) :
    match (service table polled answers).run s with
    | .ok rules s' => c.inv s' ∧ rules.Sublist (polled.map Prod.fst) ∧
        (∀ i ∈ rules, c.live i s') ∧ (∀ i ∈ polled.map Prod.fst, i ∉ rules → c.gone i s') ∧
        (∀ j, (∀ i ∈ polled.map Prod.fst, c.before j i) → c.live j s → c.live j s') ∧
        ∀ j, j ∉ polled.map Prod.fst → c.gone j s → c.gone j s'
    | .error e s' => c.inv s' ∧ (c.throws e ∨ e = pollError) := by
  induction polled generalizing answers s with
  | nil =>
      unfold EventLoop.service
      exact ⟨hinv, List.Sublist.refl _, by simp, by simp, fun j _ => id, fun j _ => id⟩
  | cons p polled ih =>
      obtain ⟨i, interested⟩ := p
      cases answers with
      | nil =>
          unfold EventLoop.service
          refine ⟨hinv, List.Sublist.refl _, ?_, fun j hj hnot => absurd hj hnot, fun j _ => id,
            fun j _ => id⟩
          intro j hj
          obtain ⟨p, hp, rfl⟩ := List.mem_map.mp hj
          exact (hpolled p hp).1
      | cons answer answers =>
          obtain ⟨revents, a⟩ := answer
          obtain ⟨ha, hanswers⟩ := List.forall_mem_cons.mp hok
          obtain ⟨⟨hi, harmed⟩, hrest⟩ := List.forall_mem_cons.mp hpolled
          obtain ⟨hbefore, hpairs'⟩ := List.pairwise_cons.mp hpairs
          have hturn := h.turn ha revents hinv hi harmed
          unfold EventLoop.service
          simp only [EStateM.run_bind]
          cases hrun : (EventLoop.turn table i interested revents a).run s with
          | error e s' => simpa only [hrun] using hturn
          | ok stays s' =>
              simp only [hrun] at hturn
              obtain ⟨hinv', hspares, hstays⟩ := hturn
              have hrest' := ih hanswers hpairs' hinv' (fun p hp => by
                have hne : p.1 ≠ i :=
                  (h.before_ne i p.1 (hbefore p.1 (List.mem_map_of_mem hp))).symm
                obtain ⟨hl, -, hr⟩ := hspares p.1 hne
                exact ⟨hl (hrest p hp).1, fun hp2 => hr ((hrest p hp).2 hp2)⟩)
              cases hserv : (EventLoop.service table polled answers).run s' with
              | error e s'' => simpa only [hserv] using hrest'
              | ok rules s'' =>
                  simp only [hserv, EStateM.run_pure] at hrest' ⊢
                  obtain ⟨hinv'', hsub, hlive, hgone, hframe, hpast⟩ := hrest'
                  have hi' : i ∉ polled.map Prod.fst :=
                    fun hmem => h.before_ne i i (hbefore i hmem) rfl
                  have hframes : (∀ j, (∀ k ∈ i :: polled.map Prod.fst, c.before j k) →
                        c.live j s → c.live j s'') ∧
                      ∀ j, j ∉ i :: polled.map Prod.fst → c.gone j s → c.gone j s'' := by
                    refine ⟨fun j hj hlj => ?_, fun j hj hgj => ?_⟩
                    · obtain ⟨hji, hjrest⟩ := List.forall_mem_cons.mp hj
                      exact hframe j hjrest ((hspares j (h.before_ne j i hji)).1 hlj)
                    · have hgj' := (hspares j (List.ne_of_not_mem_cons hj)).2.1 hgj
                      exact hpast j (List.not_mem_of_not_mem_cons hj) hgj'
                  cases stays with
                  | true =>
                      refine ⟨hinv'', hsub.cons_cons i, ?_, ?_, hframes⟩
                      · exact List.forall_mem_cons.mpr ⟨hframe i hbefore hstays, hlive⟩
                      · intro j hj hmem
                        rcases List.mem_cons.mp hj with rfl | hj
                        · exact absurd List.mem_cons_self hmem
                        · exact hgone j hj (List.not_mem_of_not_mem_cons hmem)
                  | false =>
                      refine ⟨hinv'', hsub.trans (List.sublist_cons_self _ _), hlive, ?_, hframes⟩
                      exact List.forall_mem_cons.mpr ⟨fun _ => hpast i hi' hstays, hgone⟩

/-- The answers of a poll are as the contract says. -/
def Answered (c : Contract ι σ α) (poll : Poll α) : Prop := poll.All c.ok

instance (c : Contract ι σ α) [∀ a, Decidable (c.ok a)] (poll : Poll α) :
    Decidable (c.Answered poll) := inferInstanceAs (Decidable (poll.All c.ok))

/-- What holds after a call of `wait_next_event`. When it returns `Exit` and was not interrupted,
every rule that stays is idle. -/
theorem Kept.waitNextEvent (h : c.Kept table) {rules : List ι} {poll : Poll α}
    (hok : c.Answered poll) (hrules : rules.Pairwise c.before) {s : σ} (hinv : c.inv s)
    (hlive : ∀ i ∈ rules, c.live i s) :
    match (waitNextEvent table rules poll).run s with
    | .ok (result, rules') s' => c.inv s' ∧ rules'.Sublist rules ∧ (∀ i ∈ rules', c.live i s') ∧
        (∀ i ∈ rules, i ∉ rules' → c.gone i s') ∧
        (∀ j, j ∉ rules → c.gone j s → c.gone j s') ∧
        (result = .exit → poll = .failed eintr ∨ ∀ i ∈ rules', c.idle i s')
    | .error e s' => c.inv s' ∧ (c.throws e ∨ e = pollError) := by
  have hsetup := h.setup hrules hinv hlive
  unfold EventLoop.waitNextEvent
  simp only [EStateM.run_bind]
  cases hrun : (EventLoop.setup table rules).run s with
  | error e s' =>
      simp only [hrun] at hsetup
      exact ⟨hsetup.1, Or.inl hsetup.2⟩
  | ok polled s' =>
      simp only [hrun] at hsetup
      obtain ⟨hinv', hsub, hpolled, hgone, -, hpast⟩ := hsetup
      have hlive' : ∀ i ∈ polled.map Prod.fst, c.live i s' := by
        intro i hi
        obtain ⟨p, hp, rfl⟩ := List.mem_map.mp hi
        exact (hpolled p hp).1
      have hserviced : ∀ answers : List (Revents × α), (∀ answer ∈ answers, c.ok answer.2) →
          match (EventLoop.service table polled answers).run s' with
          | .ok rules' s'' => c.inv s'' ∧ rules'.Sublist rules ∧ (∀ i ∈ rules', c.live i s'') ∧
              (∀ i ∈ rules, i ∉ rules' → c.gone i s'') ∧
              ∀ j, j ∉ rules → c.gone j s → c.gone j s''
          | .error e s'' => c.inv s'' ∧ (c.throws e ∨ e = pollError) := by
        intro answers hanswers
        have hserv := h.service hanswers (hrules.sublist hsub) hinv' (fun p hp =>
          ⟨(hpolled p hp).1, fun hp2 => by simpa [hp2] using (hpolled p hp).2⟩)
        cases hrun' : (EventLoop.service table polled answers).run s' with
        | error e s'' => simpa only [hrun'] using hserv
        | ok rules' s'' =>
            simp only [hrun'] at hserv
            obtain ⟨hinv'', hsub', hlive'', hgone', -, hpast'⟩ := hserv
            refine ⟨hinv'', hsub'.trans hsub, hlive'', ?_, ?_⟩
            · intro i hi hi'
              by_cases hmem : i ∈ polled.map Prod.fst
              · exact hgone' i hmem hi'
              · exact hpast' i hmem (hgone i hi hmem)
            · intro j hj hgj
              exact hpast' j (fun hmem => hj (hsub.subset hmem)) (hpast j hj hgj)
      dsimp only
      by_cases hnone : (polled.all fun p => !p.2) = true
      · rw [if_pos hnone]
        refine ⟨hinv', hsub, hlive', hgone, hpast, fun _ => Or.inr ?_⟩
        intro i hi
        obtain ⟨p, hp, rfl⟩ := List.mem_map.mp hi
        have hp2 : p.2 = false := by simpa using List.all_eq_true.mp hnone p hp
        simpa [hp2] using (hpolled p hp).2
      · rw [if_neg hnone]
        cases poll with
        | timeout => exact ⟨hinv', hsub, hlive', hgone, hpast, nofun⟩
        | failed errno =>
            by_cases herrno : errno = eintr
            · subst herrno
              exact ⟨hinv', hsub, hlive', hgone, hpast, fun _ => Or.inl rfl⟩
            · have hserv := hserviced [] (by simp)
              simp only [if_neg herrno, EStateM.run_bind]
              cases hrun' : (EventLoop.service table polled []).run s' with
              | error e s'' => simpa only [hrun'] using hserv
              | ok rules' s'' =>
                  simp only [hrun'] at hserv
                  obtain ⟨hinv'', hsub', hlive'', hgone', hpast'⟩ := hserv
                  exact ⟨hinv'', hsub', hlive'', hgone', hpast', nofun⟩
        | ready answers =>
            have hserv := hserviced answers hok
            simp only [EStateM.run_bind]
            cases hrun' : (EventLoop.service table polled answers).run s' with
            | error e s'' => simpa only [hrun'] using hserv
            | ok rules' s'' =>
                simp only [hrun'] at hserv
                obtain ⟨hinv'', hsub', hlive'', hgone', hpast'⟩ := hserv
                exact ⟨hinv'', hsub', hlive'', hgone', hpast', nofun⟩

/-- A machine that was started with the rules `all`; `interrupted` says that a signal was caught. -/
structure Upholds (c : Contract ι σ α) (all : List ι) (interrupted : Prop) (m : Machine ι σ) :
    Prop where
  inv : c.inv m.state
  ordered : m.rules.Pairwise c.before
  subset : m.rules ⊆ all
  live : (∀ e, m.status ≠ .threw e) → ∀ i ∈ m.rules, c.live i m.state
  gone : (∀ e, m.status ≠ .threw e) → ∀ i ∈ all, i ∉ m.rules → c.gone i m.state
  idle : m.status = .exited → interrupted ∨ ∀ i ∈ m.rules, c.idle i m.state
  throws : ∀ e, m.status = .threw e → c.throws e ∨ e = pollError

theorem Kept.step (h : c.Kept table) {all : List ι} {interrupted : Prop} {m : Machine ι σ}
    (hm : c.Upholds all interrupted m) {poll : Poll α} (hok : c.Answered poll)
    (hsignal : poll = .failed eintr → interrupted) :
    c.Upholds all interrupted (m.step table poll) := by
  unfold Machine.step
  cases hstatus : m.status with
  | exited => exact hm
  | threw e => exact hm
  | running =>
      have hnever : ∀ e, m.status ≠ .threw e := by
        intro e he
        rw [hstatus] at he
        cases he
      have hwait := h.waitNextEvent hok hm.ordered hm.inv (hm.live hnever)
      cases hrun : (EventLoop.waitNextEvent table m.rules poll).run m.state with
      | error e s' =>
          simp only [hrun] at hwait ⊢
          refine ⟨hwait.1, hm.ordered, hm.subset, fun hne => absurd rfl (hne e),
            fun hne => absurd rfl (hne e), nofun, ?_⟩
          intro e' he'
          cases he'
          exact hwait.2
      | ok r s' =>
          obtain ⟨result, rules'⟩ := r
          simp only [hrun] at hwait ⊢
          obtain ⟨hinv, hsub, hlive, hgone, hpast, hexit⟩ := hwait
          refine ⟨hinv, hm.ordered.sublist hsub, fun i hi => hm.subset (hsub.subset hi), fun _ => hlive, ?_,
            ?_, ?_⟩
          · intro _ i hi hnot
            by_cases hmem : i ∈ m.rules
            · exact hgone i hmem hnot
            · exact hpast i hmem (hm.gone hnever i hi hmem)
          · intro hexited
            have hresult : result = .exit := by
              by_contra hne
              rw [if_neg hne] at hexited
              cases hexited
            exact (hexit hresult).imp_left hsignal
          · intro e he
            split_ifs at he

/-- **The rule for event loops.** If the rules of a loop keep their promises, these hold as long as
the loop is called, and when it returns `Exit` every rule is idle or has been cancelled. -/
theorem Kept.run (h : c.Kept table) {rules : List ι} (hrules : rules.Pairwise c.before) {s : σ}
    (hinv : c.inv s) (hlive : ∀ i ∈ rules, c.live i s) {polls : List (Poll α)}
    (hok : ∀ poll ∈ polls, c.Answered poll) :
    c.Upholds rules (.failed eintr ∈ polls)
      (run (Machine.step table) { rules := rules, state := s } polls) := by
  have hstart : c.Upholds rules (.failed eintr ∈ polls) { rules := rules, state := s } :=
    ⟨hinv, hrules, List.Subset.refl _, fun _ => hlive, fun _ i hi hnot => absurd hi hnot, nofun,
      nofun⟩
  have hmem : Admits (Machine.step table) (fun _ poll => poll ∈ polls)
      { rules := rules, state := s } polls := admits_of_forall fun _ hpoll => hpoll
  refine run_invariant (fun m poll hm hpoll => ?_) hstart hmem
  apply h.step hm (hok poll hpoll)
  intro hsignal
  rwa [← hsignal]

end

end Contract

end EventLoop

end Util

end Sponge
