import Mathlib.Tactic

set_option autoImplicit false

/-! # Runs of a deterministic machine

A machine is a step function `step : σ → ω → σ` on states and operations. `run` performs a
list of operations; `Admits ok` says that every operation of a run meets a condition in the
state it is performed in. The invariant rules at the end are the only inductions over runs
the development needs. -/

namespace Run

section

variable {σ ω : Type} (step : σ → ω → σ)

/-- The state after the operations `ops`, performed from left to right. -/
def run (s : σ) (ops : List ω) : σ := ops.foldl step s

@[simp] theorem run_nil (s : σ) : run step s [] = s := rfl

@[simp] theorem run_cons (s : σ) (op : ω) (ops : List ω) :
    run step s (op :: ops) = run step (step s op) ops := rfl

theorem run_append (s : σ) (ops ops' : List ω) :
    run step s (ops ++ ops') = run step (run step s ops) ops' :=
  List.foldl_append

/-- Every operation of the run meets `ok` in the state in which it is performed. -/
def Admits (ok : σ → ω → Prop) : σ → List ω → Prop
  | _, [] => True
  | s, op :: ops => ok s op ∧ Admits ok (step s op) ops

instance decidableAdmits (ok : σ → ω → Prop) [∀ s op, Decidable (ok s op)] :
    ∀ s ops, Decidable (Admits step ok s ops)
  | _, [] => inferInstanceAs (Decidable True)
  | s, op :: ops =>
      have := decidableAdmits ok (step s op) ops
      inferInstanceAs (Decidable (ok s op ∧ Admits step ok (step s op) ops))

variable {step}

theorem admits_append {ok : σ → ω → Prop} {s : σ} {ops ops' : List ω} :
    Admits step ok s (ops ++ ops') ↔
      Admits step ok s ops ∧ Admits step ok (run step s ops) ops' := by
  induction ops generalizing s with
  | nil => simp [Admits]
  | cons op ops ih => simp [Admits, ih, and_assoc]

/-- The condition holds at every operation, wherever the run is cut in front of it. -/
theorem Admits.at_split {ok : σ → ω → Prop} {s : σ} {ops rest : List ω} {op : ω}
    (h : Admits step ok s (ops ++ op :: rest)) : ok (run step s ops) op :=
  (admits_append.mp h).2.1

/-- A condition on the operations alone. -/
theorem admits_of_forall {ok : ω → Prop} {s : σ} {ops : List ω} (h : ∀ op ∈ ops, ok op) :
    Admits step (fun _ op => ok op) s ops := by
  induction ops generalizing s with
  | nil => trivial
  | cons op ops ih =>
      obtain ⟨hop, hrest⟩ := List.forall_mem_cons.mp h
      exact ⟨hop, ih hrest⟩

/-- **The invariant rule.** What every admitted operation preserves holds after every
admitted run. -/
theorem run_invariant {ok : σ → ω → Prop} {I : σ → Prop}
    (hstep : ∀ s op, I s → ok s op → I (step s op)) {s : σ} {ops : List ω}
    (hs : I s) (hops : Admits step ok s ops) : I (run step s ops) := by
  induction ops generalizing s with
  | nil => exact hs
  | cons op ops ih => exact ih (hstep s op hs hops.1) hops.2

/-- The invariant rule for operations that are always allowed. -/
theorem run_invariant' {I : σ → Prop} (hstep : ∀ s op, I s → I (step s op)) {s : σ}
    (hs : I s) (ops : List ω) : I (run step s ops) := by
  induction ops generalizing s with
  | nil => exact hs
  | cons op ops ih => exact ih (hstep s op hs)

/-- Conditions that agree wherever an invariant holds admit the same runs, if one of them keeps
the invariant. -/
theorem admits_iff {p q : σ → ω → Prop} {I : σ → Prop}
    (hstep : ∀ s op, I s → q s op → I (step s op)) (hpq : ∀ s op, I s → (p s op ↔ q s op)) {s : σ}
    (hs : I s) (ops : List ω) : Admits step p s ops ↔ Admits step q s ops := by
  induction ops generalizing s with
  | nil => exact Iff.rfl
  | cons op ops ih =>
      constructor
      · rintro ⟨hop, hrest⟩
        have hq := (hpq s op hs).mp hop
        exact ⟨hq, (ih (hstep s op hs hq)).mp hrest⟩
      · rintro ⟨hop, hrest⟩
        exact ⟨(hpq s op hs).mpr hop, (ih (hstep s op hs hop)).mpr hrest⟩

theorem admits_congr {ok ok' : σ → ω → Prop} {I : σ → Prop}
    (hstep : ∀ s op, I s → I (step s op)) (hok : ∀ s op, I s → (ok s op ↔ ok' s op)) {s : σ}
    (hs : I s) (ops : List ω) : Admits step ok s ops ↔ Admits step ok' s ops :=
  admits_iff (fun s op h _ => hstep s op h) hok hs ops

/-- The same along a run whose operations meet a condition of their own. -/
theorem admits_congr_of_admits {ok p q : σ → ω → Prop} {I : σ → Prop}
    (hstep : ∀ s op, I s → ok s op → I (step s op))
    (hpq : ∀ s op, I s → ok s op → (p s op ↔ q s op)) {s : σ} (hs : I s) {ops : List ω}
    (hops : Admits step ok s ops) : Admits step p s ops ↔ Admits step q s ops := by
  induction ops generalizing s with
  | nil => exact Iff.rfl
  | cons op ops ih => exact and_congr (hpq s op hs hops.1) (ih (hstep s op hs hops.1) hops.2)

/-- A property that every operation keeps exactly under a condition holds in all states of a
run exactly if the run meets the condition. -/
theorem admits_iff_forall {ok : σ → ω → Prop} {I P : σ → Prop}
    (hstep : ∀ s op, I s → I (step s op))
    (hok : ∀ s op, I s → P s → (P (step s op) ↔ ok s op)) {s : σ} (hs : I s) (h : P s)
    (ops : List ω) :
    (∀ before after, ops = before ++ after → P (run step s before)) ↔
      Admits step ok s ops := by
  induction ops generalizing s with
  | nil =>
      refine ⟨fun _ => trivial, ?_⟩
      intro _ before after hops
      rw [(List.append_eq_nil_iff.mp hops.symm).1]
      exact h
  | cons op ops ih =>
      constructor
      · intro hall
        have hnext : P (step s op) := hall [op] ops rfl
        refine ⟨(hok s op hs h).mp hnext, (ih (hstep s op hs) hnext).mp ?_⟩
        intro before after hops
        exact hall (op :: before) after (by rw [hops, List.cons_append])
      · rintro ⟨hop, hrest⟩ before after hops
        have hnext : P (step s op) := (hok s op hs h).mpr hop
        cases before with
        | nil => exact h
        | cons op' before =>
            obtain ⟨rfl, hops'⟩ := List.cons.inj hops
            exact (ih (hstep s op hs) hnext).mpr hrest before after hops'

/-- **The simulation rule.** If every admitted operation is matched by a run of another machine,
then so is every admitted run, and a condition that is carried over with every operation is carried
over to the run. -/
theorem exists_run_of_simulates {τ υ : Type} {step' : τ → υ → τ} {ok p : σ → ω → Prop}
    {p' : τ → υ → Prop} {R : σ → τ → Prop}
    (hsim : ∀ s t op, R s t → ok s op →
      ∃ ops', R (step s op) (run step' t ops') ∧ (p s op → Admits step' p' t ops'))
    {s : σ} {t : τ} (hst : R s t) {ops : List ω} (hops : Admits step ok s ops) :
    ∃ ops', R (run step s ops) (run step' t ops') ∧
      (Admits step p s ops → Admits step' p' t ops') := by
  induction ops generalizing s t with
  | nil => exact ⟨[], hst, fun _ => trivial⟩
  | cons op ops ih =>
      obtain ⟨first, hst', hfirst⟩ := hsim s t op hst hops.1
      obtain ⟨rest, hst'', hrest⟩ := ih hst' hops.2
      refine ⟨first ++ rest, ?_, fun hp => ?_⟩
      · rw [run_append]
        exact hst''
      · exact admits_append.mpr ⟨hfirst hp.1, hrest hp.2⟩

end

end Run
