import Mathlib.Tactic

set_option autoImplicit false

/-! # 32-bit sequence numbers

`wrapping_integers.hh` and `wrapping_integers.cc`: a sequence number on the wire is a 32-bit
integer relative to an initial sequence number, and `wrap` and `unwrap` translate between it
and the absolute 64-bit number. `unwrap` works in signed arithmetic; `unwrap_eq` says what
it returns wherever that arithmetic cannot overflow, and `unwrap_wrap` is the form the
sender and the receiver use. In other words, the answer is the preimage of `wrap` that is
`Nearest` to the checkpoint. -/

namespace Sponge

/-- A 32-bit integer, expressed relative to an arbitrary initial sequence number. -/
structure WrappingInt32 where
  rawValue : BitVec 32
  deriving DecidableEq, Repr

/-- `a + b`, the point `b` steps past `a`. -/
def WrappingInt32.add (a : WrappingInt32) (b : Nat) : WrappingInt32 :=
  ⟨a.rawValue + BitVec.ofNat 32 b⟩

/-- `a - b` as an `int32_t`: the offset of `a` relative to `b`. -/
def WrappingInt32.sub (a b : WrappingInt32) : Int := (a.rawValue - b.rawValue).toInt

/-- The relative sequence number of the absolute sequence number `n`. -/
def wrap (n : Nat) (isn : WrappingInt32) : WrappingInt32 := isn.add n

/-- The absolute sequence number that wraps to `n` and is closest to `checkpoint`, computed
in 32-bit and 64-bit two's-complement arithmetic. -/
def unwrap (n isn : WrappingInt32) (checkpoint : Nat) : Nat :=
  let dis : Int := (wrap checkpoint isn).sub n
  let rst : BitVec 64 := BitVec.ofNat 64 checkpoint - BitVec.ofInt 64 dis
  -- a negative result means that the true one is a round of `2 ^ 32` higher
  let rst := if rst.toInt < 0 then rst + BitVec.ofNat 64 (2 ^ 32) else rst
  rst.toNat

theorem wrap_add (n k : Nat) (isn : WrappingInt32) : (wrap n isn).add k = wrap (n + k) isn := by
  unfold wrap WrappingInt32.add
  rw [BitVec.add_assoc, ← BitVec.ofNat_add]

@[simp] theorem wrap_zero (isn : WrappingInt32) : wrap 0 isn = isn := by
  simp [wrap, WrappingInt32.add]

/-- The signed distance of two wrapped numbers is their difference modulo `2 ^ 32`. -/
theorem wrap_sub_wrap (a b : Nat) (isn : WrappingInt32) :
    -2 ^ 31 ≤ (wrap a isn).sub (wrap b isn) ∧ (wrap a isn).sub (wrap b isn) < 2 ^ 31 ∧
      ∃ k : Int, (wrap a isn).sub (wrap b isn) = (a : Int) - b + k * 2 ^ 32 := by
  have hsub : (wrap a isn).sub (wrap b isn)
      = (BitVec.ofNat 32 a - BitVec.ofNat 32 b).toInt := by
    simp only [WrappingInt32.sub, wrap, WrappingInt32.add]
    congr 1
    apply BitVec.eq_of_toNat_eq
    simp only [BitVec.toNat_sub, BitVec.toNat_add, BitVec.toNat_ofNat]
    omega
  rw [hsub, BitVec.toInt_eq_toNat_cond, BitVec.toNat_sub, BitVec.toNat_ofNat, BitVec.toNat_ofNat]
  have hk : ∀ d : Int, (∃ k : Int, d = (a : Int) - b + k * 2 ^ 32) ↔
      (d - ((a : Int) - b)) % 2 ^ 32 = 0 := by
    intro d
    constructor
    · rintro ⟨k, rfl⟩; omega
    · intro h
      exact ⟨(d - ((a : Int) - b)) / 2 ^ 32, by omega⟩
  rw [hk]
  split_ifs with h
  · refine ⟨?_, ?_, ?_⟩ <;> push_cast <;> omega
  · refine ⟨?_, ?_, ?_⟩ <;> push_cast <;> omega

/-- What `unwrap` returns where its signed arithmetic does not overflow. -/
theorem unwrap_eq (n isn : WrappingInt32) {c : Nat} (hc : c < 2 ^ 63 - 2 ^ 31) :
    (unwrap n isn c : Int) =
      if (c : Int) - (wrap c isn).sub n < 0 then c - (wrap c isn).sub n + 2 ^ 32
      else c - (wrap c isn).sub n := by
  have hlo : -2 ^ 31 ≤ (wrap c isn).sub n := BitVec.le_toInt _
  have hhi : (wrap c isn).sub n < 2 ^ 31 := BitVec.toInt_lt
  unfold unwrap
  generalize (wrap c isn).sub n = dis at hlo hhi ⊢
  have hrst : (BitVec.ofNat 64 c - BitVec.ofInt 64 dis).toNat = (((c : Int) - dis) % 2 ^ 64).toNat := by
    rw [BitVec.toNat_sub, BitVec.toNat_ofNat, BitVec.toNat_ofInt]
    push_cast
    omega
  have hint : (BitVec.ofNat 64 c - BitVec.ofInt 64 dis).toInt = (c : Int) - dis := by
    rw [BitVec.toInt_eq_toNat_cond, hrst]
    split_ifs with h <;> push_cast at h ⊢ <;> omega
  simp only [hint]
  by_cases hneg : (c : Int) - dis < 0
  · rw [if_pos hneg, if_pos hneg, BitVec.toNat_add, hrst, BitVec.toNat_ofNat]
    push_cast
    omega
  · rw [if_neg hneg, if_neg hneg, hrst]
    omega

/-- **The round trip.** Below `2 ^ 32` a wrapped number is recovered unless it lies `2 ^ 31`
or more in front of the checkpoint, when `unwrap` answers a round later. -/
theorem unwrap_wrap {x c : Nat} (isn : WrappingInt32) (hx : x < 2 ^ 32) (hc : c < 2 ^ 32) :
    unwrap (wrap x isn) isn c = if x + 2 ^ 31 ≤ c then x + 2 ^ 32 else x := by
  have h := unwrap_eq (wrap x isn) isn (c := c) (by omega)
  obtain ⟨hlo, hhi, k, hk⟩ := wrap_sub_wrap c x isn
  split_ifs at h ⊢ <;> omega

/-- A number less than `2 ^ 31` in front of the checkpoint, or anywhere after it, is
recovered. -/
theorem unwrap_wrap_eq {x c : Nat} (isn : WrappingInt32) (hx : x < 2 ^ 32) (hc : c < x + 2 ^ 31)
    (hc' : c < 2 ^ 32) : unwrap (wrap x isn) isn c = x := by
  rw [unwrap_wrap isn hx hc', if_neg (by omega)]

/-- Close to the checkpoint a wrapped number is recovered exactly where it is below `2 ^ 63`.
From there on it is negative as an `int64_t`, and `unwrap` answers a round later. -/
theorem unwrap_wrap_near {x c : Nat} (isn : WrappingInt32) (hx : x < 2 ^ 64 - 2 ^ 32)
    (hlo : c < x + 2 ^ 31) (hhi : x < c + 2 ^ 31) :
    unwrap (wrap x isn) isn c = if x < 2 ^ 63 then x else x + 2 ^ 32 := by
  have hdis : (wrap c isn).sub (wrap x isn) = (c : Int) - x := by
    obtain ⟨h1, h2, k, hk⟩ := wrap_sub_wrap c x isn
    omega
  have hrst : BitVec.ofNat 64 c - BitVec.ofInt 64 ((c : Int) - x) = BitVec.ofNat 64 x := by
    apply BitVec.eq_of_toNat_eq
    rw [BitVec.toNat_sub, BitVec.toNat_ofNat, BitVec.toNat_ofNat, BitVec.toNat_ofInt]
    push_cast
    omega
  unfold unwrap
  simp only [hdis, hrst]
  have hint : (BitVec.ofNat 64 x).toInt < 0 ↔ ¬ x < 2 ^ 63 := by
    rw [BitVec.toInt_eq_toNat_cond, BitVec.toNat_ofNat, Nat.mod_eq_of_lt (by omega)]
    split_ifs <;> push_cast <;> omega
  by_cases hneg : x < 2 ^ 63
  · rw [if_neg (by rw [hint]; exact not_not.mpr hneg), if_pos hneg, BitVec.toNat_ofNat]
    omega
  · rw [if_pos (hint.mpr hneg), if_neg hneg, BitVec.toNat_add, BitVec.toNat_ofNat,
      BitVec.toNat_ofNat]
    omega

/-! ## The nearest preimage -/

theorem wrap_eq_wrap_iff {a b : Nat} {isn : WrappingInt32} :
    wrap a isn = wrap b isn ↔ a % 2 ^ 32 = b % 2 ^ 32 := by
  unfold wrap WrappingInt32.add
  rw [WrappingInt32.mk.injEq, BitVec.add_right_inj]
  constructor
  · intro h
    simpa using congrArg BitVec.toNat h
  · intro h
    apply BitVec.eq_of_toNat_eq
    simpa using h

/-- Every sequence number is that of an absolute one. -/
theorem exists_wrap_eq (n isn : WrappingInt32) : ∃ p, wrap p isn = n := by
  refine ⟨(n.rawValue - isn.rawValue).toNat, ?_⟩
  unfold wrap WrappingInt32.add
  rw [BitVec.ofNat_toNat, BitVec.setWidth_eq, BitVec.add_comm, BitVec.sub_add_cancel]

/-- Whatever the checkpoint, overflow or not, the answer wraps to the number asked for. -/
theorem wrap_unwrap (n isn : WrappingInt32) (c : Nat) : wrap (unwrap n isn c) isn = n := by
  obtain ⟨p, rfl⟩ := exists_wrap_eq n isn
  rw [wrap_eq_wrap_iff]
  obtain ⟨-, -, k, hk⟩ := wrap_sub_wrap c p isn
  unfold unwrap
  generalize (wrap c isn).sub (wrap p isn) = dis at hk ⊢
  have hrst : ((BitVec.ofNat 64 c - BitVec.ofInt 64 dis).toNat : Int)
      = ((c : Int) - dis) % 2 ^ 64 := by
    rw [BitVec.toNat_sub, BitVec.toNat_ofNat, BitVec.toNat_ofInt]
    push_cast
    omega
  -- a round of `2 ^ 32` more or less wraps to the same number
  simp only
  split_ifs with hneg
  · rw [BitVec.toNat_add, BitVec.toNat_ofNat]
    omega
  · omega

theorem unwrap_lt (n isn : WrappingInt32) (c : Nat) : unwrap n isn c < 2 ^ 64 := BitVec.isLt _

/-- `u` is the number closest to `c` among the 64-bit numbers that wrap to `n`, and the larger one
where two are equally close. -/
structure Nearest (n isn : WrappingInt32) (c u : Nat) : Prop where
  lt : u < 2 ^ 64
  wraps : wrap u isn = n
  closest : ∀ m < 2 ^ 64, wrap m isn = n → |(u : Int) - c| ≤ |(m : Int) - c|
  larger : ∀ m < 2 ^ 64, wrap m isn = n → |(m : Int) - c| = |(u : Int) - c| → m ≤ u

theorem nearest_unwrap (n isn : WrappingInt32) {c : Nat} (hc : c < 2 ^ 63 - 2 ^ 31) :
    Nearest n isn c (unwrap n isn c) := by
  have hlo : -2 ^ 31 ≤ (wrap c isn).sub n := BitVec.le_toInt _
  have hhi : (wrap c isn).sub n < 2 ^ 31 := BitVec.toInt_lt
  have hu := unwrap_eq n isn hc
  have hwrap := wrap_unwrap n isn c
  -- two numbers that wrap to `n` are whole rounds apart
  have hround : ∀ m, wrap m isn = n → (m : Int) % 2 ^ 32 = (unwrap n isn c : Int) % 2 ^ 32 := by
    intro m hm
    have h := wrap_eq_wrap_iff.mp (hm.trans hwrap.symm)
    omega
  generalize (wrap c isn).sub n = dis at hlo hhi hu
  refine ⟨unwrap_lt n isn c, hwrap, fun m _ hm => ?_, fun m _ hm hdist => ?_⟩
  · have hmod := hround m hm
    rw [Int.abs_eq_natAbs, Int.abs_eq_natAbs]
    split_ifs at hu <;> omega
  · have hmod := hround m hm
    rw [Int.abs_eq_natAbs, Int.abs_eq_natAbs] at hdist
    split_ifs at hu <;> omega

/-- A number less than half a round from the checkpoint is the nearest one. -/
theorem Nearest.eq_of_near {x c u : Nat} {isn : WrappingInt32} (h : Nearest (wrap x isn) isn c u)
    (hx : x < 2 ^ 64) (hnear : |(x : Int) - c| < 2 ^ 31) : u = x := by
  have hmod := wrap_eq_wrap_iff.mp h.wraps
  have hclosest := h.closest x hx rfl
  rw [Int.abs_eq_natAbs] at hnear
  rw [Int.abs_eq_natAbs, Int.abs_eq_natAbs] at hclosest
  omega

/-- **The nearest preimage.** `unwrap` returns a preimage of `wrap`, and wherever its signed
arithmetic cannot overflow the nearest one, so that it undoes `wrap` near the checkpoint. -/
theorem unwrap_nearest (n isn : WrappingInt32) (c : UInt64) :
    wrap (unwrap n isn c.toNat) isn = n ∧
      (c.toNat < 2 ^ 63 - 2 ^ 31 →
        Nearest n isn c.toNat (unwrap n isn c.toNat) ∧
          ∀ x : UInt64, |(x.toNat : Int) - c.toNat| < 2 ^ 31 →
            unwrap (wrap x.toNat isn) isn c.toNat = x.toNat) := by
  refine ⟨wrap_unwrap n isn c.toNat, fun hc => ⟨nearest_unwrap n isn hc, ?_⟩⟩
  intro x hx
  exact (nearest_unwrap (wrap x.toNat isn) isn hc).eq_of_near x.toNat_lt hx

/-- Halfway between two preimages the larger one is returned. -/
theorem unwrap_nearest_tie :
    unwrap ⟨0⟩ ⟨0⟩ 2147483648 = 4294967296 ∧
      Nearest ⟨0⟩ ⟨0⟩ 2147483648 (unwrap ⟨0⟩ ⟨0⟩ 2147483648) :=
  ⟨by decide, ((unwrap_nearest ⟨0⟩ ⟨0⟩ 2147483648).2 (by decide)).1⟩

end Sponge
