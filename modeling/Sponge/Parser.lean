import Sponge.Basic.BigEndian
import Sponge.ByteStream

set_option autoImplicit false

/-! # Parsing and unparsing integers

`parser.hh` and `parser.cc`: a parser takes integers in network byte order from the front of a
buffer. Its error is sticky: once a token did not fit, every later one is zero and nothing more
is taken. `Reads m n v` is the specification of a parsing step that takes `n` bytes: it returns
`v` of the buffer and removes the bytes, and leaves an error behind when there are fewer. -/

namespace Sponge

inductive ParseResult where
  /-- Success. -/
  | noError
  | badChecksum
  /-- Not enough data to finish parsing. -/
  | packetTooShort
  /-- Got a version of IP other than 4. -/
  | wrongIPVersion
  /-- Header length is shorter than minimum required. -/
  | headerTooShort
  /-- Packet length is shorter than header claims. -/
  | truncatedPacket
  /-- Packet uses unsupported features. -/
  | unsupported
  deriving DecidableEq, Repr

/-! ## The parser -/

structure NetParser where
  buffer : Bytes
  /-- Result of parsing so far. -/
  error : ParseResult := .noError
  deriving DecidableEq, Repr

namespace NetParser

def checkSize (p : NetParser) (size : Nat) : NetParser :=
  if p.buffer.length < size then { p with error := .packetTooShort } else p

/-- Take `n` bytes from the buffer, and return `f` of it; after an error return `default`. -/
def token {α : Type} (n : Nat) (default : α) (f : Bytes → α) : StateM NetParser α := fun p =>
  let p := p.checkSize n
  if p.error ≠ .noError then (default, p)
  else (f p.buffer, { p with buffer := p.buffer.drop n })

/-- Parse an integer of `len` bytes. -/
def parseInt (len : Nat) : StateM NetParser Nat :=
  token len 0 (fun b => BigEndian.value (b.take len))

def u32 : StateM NetParser UInt32 := UInt32.ofNat <$> parseInt 4

def u16 : StateM NetParser UInt16 := UInt16.ofNat <$> parseInt 2

def u8 : StateM NetParser UInt8 := UInt8.ofNat <$> parseInt 1

/-- Remove `n` bytes from the buffer. -/
def removePrefix (n : Nat) : StateM NetParser Unit := token n () (fun _ => ())

end NetParser

/-! ## The unparser -/

namespace NetUnparser

def u32 (val : UInt32) : Bytes := BigEndian.bytes 4 val.toNat

def u16 (val : UInt16) : Bytes := BigEndian.bytes 2 val.toNat

def u8 (val : UInt8) : Bytes := BigEndian.bytes 1 val.toNat

/-- `std::string::resize`: cut the string, or fill it up with zeros. -/
def resize (s : Bytes) (n : Nat) : Bytes := s.take n ++ List.replicate (n - s.length) 0

end NetUnparser

/-! ## What a parsing step does -/

namespace NetParser

/-- The parser cannot supply `n` bytes. -/
def Short (p : NetParser) (n : Nat) : Prop := p.error ≠ .noError ∨ p.buffer.length < n

theorem short_zero_iff {p : NetParser} : p.Short 0 ↔ p.error ≠ .noError := by
  simp [Short]

theorem Short.mono {p : NetParser} {n k : Nat} (h : p.Short n) (hle : n ≤ k) : p.Short k :=
  h.imp id (fun hlt => hlt.trans_le hle)

/-- The step takes `n` bytes, and its result is a function of the buffer. -/
structure Reads {α : Type} (m : StateM NetParser α) (n : Nat) (v : Bytes → α) : Prop where
  run_eq : ∀ b, n ≤ b.length → m.run { buffer := b } = (v b, { buffer := b.drop n })
  short : ∀ p k, p.Short (n + k) → (m.run p).2.Short k

section

variable {α β : Type} {m : StateM NetParser α} {n : Nat} {v : Bytes → α}

theorem reads_pure (a : α) : Reads (pure a) 0 (fun _ => a) where
  run_eq := fun _ _ => rfl
  short := fun p k h => by rwa [Nat.zero_add] at h

theorem run_bind_of_run {p p' : NetParser} {a : α} (h : m.run p = (a, p'))
    (f : α → StateM NetParser β) : (m >>= f).run p = (f a).run p' := by
  rw [StateT.run_bind, h]
  rfl

theorem run_get_bind (p : NetParser) (f : NetParser → StateM NetParser β) :
    (get >>= f).run p = (f p).run p := rfl

theorem Reads.bind (h : Reads m n v) {f : α → StateM NetParser β} {n' : Nat} {v' : α → Bytes → β}
    (hf : ∀ a, Reads (f a) n' (v' a)) :
    Reads (m >>= f) (n + n') (fun b => v' (v b) (b.drop n)) where
  run_eq := by
    intro b hb
    have hdrop : n' ≤ (b.drop n).length := by
      rw [List.length_drop]
      omega
    rw [run_bind_of_run (h.run_eq b (by omega)), (hf (v b)).run_eq (b.drop n) hdrop,
      List.drop_drop]
  short := by
    intro p k hp
    rw [Nat.add_assoc] at hp
    exact (hf _).short _ k (h.short p (n' + k) hp)

theorem Reads.congr (h : Reads m n v) {n' : Nat} {v' : Bytes → α} (hn : n = n')
    (hv : ∀ b, v b = v' b) : Reads m n' v' := by
  subst hn
  rwa [← funext hv]

theorem Reads.map (h : Reads m n v) (f : α → β) : Reads (f <$> m) n (fun b => f (v b)) :=
  h.bind (fun a => reads_pure (f a))

end

theorem reads_token {α : Type} (n : Nat) (default : α) (f : Bytes → α) :
    Reads (token n default f) n f where
  run_eq := by
    intro b hb
    have hsize : ({ buffer := b } : NetParser).checkSize n = { buffer := b } :=
      if_neg (Nat.not_lt.mpr hb)
    show token n default f { buffer := b } = _
    simp [token, hsize]
  short := by
    intro p k hp
    show (token n default f p).2.Short k
    unfold token
    by_cases herr : (p.checkSize n).error = .noError
    · -- the bytes are there, and too few are left
      have hlen : ¬p.buffer.length < n := by
        intro hlt
        simp [checkSize, hlt] at herr
      have hsize : p.checkSize n = p := if_neg hlen
      rw [hsize] at herr ⊢
      have hshort := hp.resolve_left (not_not.mpr herr)
      simp only [herr, ne_eq, not_true_eq_false, if_false]
      apply Or.inr
      rw [List.length_drop]
      omega
    · simp only [herr, ne_eq, not_false_eq_true, if_true]
      exact Or.inl herr

theorem reads_removePrefix (n : Nat) : Reads (removePrefix n) n (fun _ => ()) :=
  reads_token n () _

theorem removePrefix_run (b : Bytes) (n : Nat) :
    (removePrefix n).run { buffer := b } = ((),
      if n ≤ b.length then { buffer := b.drop n }
      else { buffer := b, error := .packetTooShort }) := by
  by_cases hn : n ≤ b.length
  · rw [if_pos hn, (reads_removePrefix n).run_eq b hn]
  · rw [if_neg hn]
    show token n () (fun _ => ()) { buffer := b } = _
    simp [token, checkSize, Nat.lt_of_not_le hn]

theorem reads_u32 : Reads u32 4 (fun b => UInt32.ofNat (BigEndian.value (b.take 4))) :=
  (reads_token 4 0 _).map _

theorem reads_u16 : Reads u16 2 (fun b => UInt16.ofNat (BigEndian.value (b.take 2))) :=
  (reads_token 2 0 _).map _

theorem reads_u8 : Reads u8 1 (fun b => UInt8.ofNat (BigEndian.value (b.take 1))) :=
  (reads_token 1 0 _).map _

end NetParser

end Sponge
