import Mathlib.Tactic

set_option autoImplicit false

/-! # Ones' complement sums of 16-bit words

A word is a natural number up to `0xffff`. `carryAdd` is addition with end-around carry, which
is addition modulo `0xffff` that returns zero only for two zeros. `Reduces n r` says the same of
any number of words at once: `r` is the word that the sum `n` reduces to, in whatever order the
carries are added back. -/

namespace OnesComplement

/-- Addition of two words with end-around carry. -/
def carryAdd (a b : Nat) : Nat := if a + b < 2 ^ 16 then a + b else a + b - 0xffff

/-- The ones' complement sum of the words, from a first word. -/
def sum (a : Nat) (ws : List Nat) : Nat := ws.foldl carryAdd a

/-- The word `r` is what the plain sum `n` reduces to. -/
structure Reduces (n r : Nat) : Prop where
  le : r ≤ 0xffff
  mod : r % 0xffff = n % 0xffff
  zero_iff : r = 0 ↔ n = 0

theorem Reduces.refl {n : Nat} (h : n ≤ 0xffff) : Reduces n n := ⟨h, rfl, Iff.rfl⟩

/-- A sum reduces to one word only. -/
theorem Reduces.unique {n r r' : Nat} (h : Reduces n r) (h' : Reduces n r') : r = r' := by
  have hle := h.le
  have hle' := h'.le
  have hmod := h.mod.trans h'.mod.symm
  have hzero := h.zero_iff.trans h'.zero_iff.symm
  omega

theorem Reduces.carryAdd {n m r q : Nat} (hn : Reduces n r) (hm : Reduces m q) :
    Reduces (n + m) (carryAdd r q) := by
  have hr := hn.le
  have hq := hm.le
  have hmod := hn.mod
  have hmod' := hm.mod
  have hzero := hn.zero_iff
  have hzero' := hm.zero_iff
  unfold OnesComplement.carryAdd
  constructor
  · split_ifs <;> omega
  · split_ifs <;> omega
  · split_ifs <;> omega

theorem Reduces.sum {n r : Nat} (h : Reduces n r) {ws : List Nat} (hws : ∀ w ∈ ws, w ≤ 0xffff) :
    Reduces (n + ws.sum) (sum r ws) := by
  induction ws generalizing n r with
  | nil => exact h
  | cons w ws ih =>
      have hw : Reduces w w := Reduces.refl (hws w List.mem_cons_self)
      have hrest := ih (h.carryAdd hw) (fun w' hw' => hws w' (List.mem_cons_of_mem w hw'))
      rwa [Nat.add_assoc, ← List.sum_cons] at hrest

/-- Adding the carries of a sum back to its lower word changes nothing. -/
theorem Reduces.of_halves {n r : Nat} (h : Reduces (n / 2 ^ 16 + n % 2 ^ 16) r) :
    Reduces n r := by
  have hmod := h.mod
  have hzero := h.zero_iff
  refine ⟨h.le, ?_, ?_⟩
  · omega
  · omega

/-- A sum and the complement of what it reduces to add up to the word of ones. -/
theorem Reduces.add_complement {n r : Nat} (h : Reduces n r) :
    Reduces (n + (0xffff - r)) 0xffff := by
  have hle := h.le
  have hmod := h.mod
  have hzero := h.zero_iff
  refine ⟨le_rfl, ?_, ?_⟩
  · omega
  · omega

end OnesComplement
