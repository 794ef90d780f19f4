import Mathlib.Tactic

set_option autoImplicit false

/-! # Loops with a condition

The loop `while (go) body` over a state. `Ends` is its meaning and does not say that it ends;
`exists_ends` is the rule for that, with an invariant and a measure. `upTo` is the loop with a
bound on its rounds, which computes the same state as soon as the bound is large enough. -/

namespace Loop

section

variable {σ : Type} (go : σ → Prop) (body : σ → σ)

/-- The loop that is entered in `s` is left in `s'`, after `n` rounds. -/
inductive Ends : σ → Nat → σ → Prop where
  | done {s : σ} (hdone : ¬go s) : Ends s 0 s
  | round {s s' : σ} {n : Nat} (hgo : go s) (hrest : Ends (body s) n s') : Ends s (n + 1) s'

/-- The loop, left after `n` rounds at the latest. -/
def upTo [DecidablePred go] : Nat → σ → σ
  | 0, s => s
  | n + 1, s => if go s then upTo n (body s) else s

variable {go body} {s s' : σ} {n : Nat}

theorem Ends.not_go (h : Ends go body s n s') : ¬go s' := by
  induction h with
  | done hdone => exact hdone
  | round _ _ ih => exact ih

theorem Ends.invariant {I : σ → Prop} (hbody : ∀ s, I s → go s → I (body s))
    (h : Ends go body s n s') (hs : I s) : I s' := by
  induction h with
  | done _ => exact hs
  | round hgo _ ih => exact ih (hbody _ hs hgo)

/-- A loop is left at one place only. -/
theorem Ends.unique (h : Ends go body s n s') {n' : Nat} {s'' : σ} (h' : Ends go body s n' s'') :
    n' = n ∧ s'' = s' := by
  induction h generalizing n' with
  | done hdone =>
      cases h' with
      | done _ => exact ⟨rfl, rfl⟩
      | round hgo _ => exact absurd hgo hdone
  | round hgo _ ih =>
      cases h' with
      | done hdone => exact absurd hgo hdone
      | round _ hrest =>
          obtain ⟨hn, hs⟩ := ih hrest
          exact ⟨by rw [hn], hs⟩

theorem Ends.upTo_eq [DecidablePred go] (h : Ends go body s n s') {fuel : Nat} (hn : n ≤ fuel) :
    upTo go body fuel s = s' := by
  induction h generalizing fuel with
  | done hdone =>
      cases fuel with
      | zero => rfl
      | succ fuel => exact if_neg hdone
  | round hgo _ ih =>
      cases fuel with
      | zero => exact absurd hn (Nat.not_succ_le_zero _)
      | succ fuel => exact (if_pos hgo).trans (ih (Nat.le_of_succ_le_succ hn))

/-- Whatever the bound, the rounds keep an invariant. -/
theorem upTo_invariant [DecidablePred go] {I : σ → Prop}
    (hbody : ∀ s, I s → go s → I (body s)) (hs : I s) (fuel : Nat) :
    I (upTo go body fuel s) := by
  induction fuel generalizing s with
  | zero => exact hs
  | succ fuel ih =>
      unfold upTo
      split_ifs with hgo
      · exact ih (hbody s hs hgo)
      · exact hs

/-- **The rule for total correctness.** A loop whose rounds keep an invariant and make a measure
smaller ends, after as many rounds as the measure allows. -/
theorem exists_ends {I : σ → Prop} (measure : σ → Nat)
    (hbody : ∀ s, I s → go s → I (body s) ∧ measure (body s) < measure s) (hs : I s) :
    ∃ n s', n ≤ measure s ∧ Ends go body s n s' := by
  induction hm : measure s using Nat.strong_induction_on generalizing s with
  | _ m ih =>
      by_cases hgo : go s
      · obtain ⟨hs', hlt⟩ := hbody s hs hgo
        obtain ⟨n, s', hn, hends⟩ := ih (measure (body s)) (hm ▸ hlt) hs' rfl
        exact ⟨n + 1, s', by omega, .round hgo hends⟩
      · exact ⟨0, s, Nat.zero_le _, .done hgo⟩

end

end Loop
