import Mathlib.Tactic

set_option autoImplicit false

/-! # 64-bit unsigned arithmetic on natural numbers

A `size_t` or `uint64_t` is kept as a natural number. Sums and differences that may leave
the range are taken modulo `2 ^ 64` with `add64` and `sub64`, and the lemmas below say when
they agree with the operations on `Nat`. -/

namespace Word

/-- The sum of two 64-bit words, with wrap-around. -/
def add64 (a b : Nat) : Nat := (a + b) % 2 ^ 64

/-- The difference of two 64-bit words, with wrap-around below zero. -/
def sub64 (a b : Nat) : Nat := (a + (2 ^ 64 - b % 2 ^ 64)) % 2 ^ 64

theorem add64_eq {a b : Nat} (h : a + b < 2 ^ 64) : add64 a b = a + b :=
  Nat.mod_eq_of_lt h

theorem add64_le (a b : Nat) : add64 a b ≤ a + b := Nat.mod_le _ _

theorem sub64_eq {a b : Nat} (h : b ≤ a) (ha : a - b < 2 ^ 64) : sub64 a b = a - b := by
  unfold sub64
  omega

theorem sub64_le {a b : Nat} (h : b ≤ a) : sub64 a b ≤ a - b := by
  unfold sub64
  omega

@[simp] theorem sub64_self (a : Nat) : sub64 a a = 0 := by
  unfold sub64
  omega

end Word
