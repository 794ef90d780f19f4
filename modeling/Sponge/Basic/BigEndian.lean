import Mathlib.Tactic

set_option autoImplicit false

/-! # Numbers as bytes in network order

`value` reads a list of bytes as one number, most significant byte first, and `bytes` writes
the lowest bytes of a number. Writing and reading back is reduction modulo a power of 256. -/

namespace BigEndian

/-- The number that the bytes encode, most significant byte first. -/
def value (l : List UInt8) : Nat := l.foldl (fun n b => n * 256 + b.toNat) 0

/-- The lowest `len` bytes of `n`, most significant byte first. -/
def bytes : Nat → Nat → List UInt8
  | 0, _ => []
  | len + 1, n => UInt8.ofNat (n / 256 ^ len) :: bytes len n

@[simp] theorem length_bytes (len n : Nat) : (bytes len n).length = len := by
  induction len with
  | zero => rfl
  | succ len ih => rw [bytes, List.length_cons, ih]

theorem foldl_bytes (len n a : Nat) :
    (bytes len n).foldl (fun n b => n * 256 + b.toNat) a = a * 256 ^ len + n % 256 ^ len := by
  induction len generalizing a with
  | zero => simp [bytes, Nat.mod_one]
  | succ len ih =>
      have hmod : n % 256 ^ (len + 1) = n / 256 ^ len % 256 * 256 ^ len + n % 256 ^ len := by
        rw [pow_succ, Nat.mod_mul, Nat.add_comm, Nat.mul_comm]
      calc (bytes (len + 1) n).foldl (fun n b => n * 256 + b.toNat) a
          = (bytes len n).foldl (fun n b => n * 256 + b.toNat)
              (a * 256 + n / 256 ^ len % 256) := by simp [bytes]
        _ = (a * 256 + n / 256 ^ len % 256) * 256 ^ len + n % 256 ^ len := ih _
        _ = a * 256 ^ (len + 1) + n % 256 ^ (len + 1) := by
            rw [hmod, pow_succ]
            ring

/-- **The round trip** of a number through its bytes. -/
theorem value_bytes (len n : Nat) : value (bytes len n) = n % 256 ^ len := by
  unfold value
  rw [foldl_bytes, Nat.zero_mul, Nat.zero_add]

theorem foldl_lt (l : List UInt8) {a k : Nat} (ha : a < 256 ^ k) :
    l.foldl (fun n b => n * 256 + b.toNat) a < 256 ^ (k + l.length) := by
  induction l generalizing a k with
  | nil => exact ha
  | cons b l ih =>
      have hb : b.toNat < 256 := b.toNat_lt
      have hstep : a * 256 + b.toNat < 256 ^ (k + 1) := by
        rw [pow_succ]
        omega
      have hlt := ih hstep
      rwa [Nat.add_assoc, Nat.add_comm 1] at hlt

theorem value_lt (l : List UInt8) : value l < 256 ^ l.length := by
  have hlt := foldl_lt l (a := 0) (k := 0) (by norm_num)
  rwa [Nat.zero_add] at hlt

theorem foldl_eq (l : List UInt8) (a : Nat) :
    l.foldl (fun n b => n * 256 + b.toNat) a = a * 256 ^ l.length + value l := by
  unfold value
  induction l generalizing a with
  | nil => simp
  | cons b l ih =>
      rw [List.foldl_cons, List.foldl_cons, ih, ih (0 * 256 + b.toNat), List.length_cons, pow_succ]
      ring

/-- **The round trip** of bytes through the number that they encode. -/
theorem bytes_value (l : List UInt8) : bytes l.length (value l) = l := by
  have key : ∀ k, bytes l.length (k * 256 ^ l.length + value l) = l := by
    induction l with
    | nil => exact fun _ => rfl
    | cons b l ih =>
        intro k
        have hb : b.toNat < 256 := b.toNat_lt
        have hlt := value_lt l
        have hvalue : value (b :: l) = b.toNat * 256 ^ l.length + value l := by
          show l.foldl _ (0 * 256 + b.toNat) = _
          rw [foldl_eq, Nat.zero_mul, Nat.zero_add]
        have hsplit : k * 256 ^ (l.length + 1) + value (b :: l)
            = (k * 256 + b.toNat) * 256 ^ l.length + value l := by
          rw [hvalue, pow_succ]
          ring
        rw [List.length_cons, hsplit, bytes, ih]
        have hdiv : ((k * 256 + b.toNat) * 256 ^ l.length + value l) / 256 ^ l.length
            = k * 256 + b.toNat := by
          rw [Nat.add_comm, Nat.add_mul_div_right _ _ (by positivity), Nat.div_eq_of_lt hlt,
            Nat.zero_add]
        rw [hdiv]
        congr 1
        rw [← UInt8.toNat_inj, UInt8.toNat_ofNat', Nat.mul_add_mod_of_lt hb]
  have h := key 0
  rwa [Nat.zero_mul, Nat.zero_add] at h

theorem value_append (l l' : List UInt8) : value (l ++ l') = value l * 256 ^ l'.length + value l' := by
  rw [← foldl_eq]
  exact List.foldl_append

end BigEndian
