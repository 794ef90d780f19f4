import Sponge.Basic.Run
import Sponge.Reassembler.Push

set_option autoImplicit false

/-! # Assembling one byte string

When every pushed substring is a slice of one byte string `S`, the output is a prefix of `S`
and the stored substrings are slices of it (`Assembles`). The invariant is kept by every push
of a slice and by every read, whatever the capacity; with a capacity of at least `|S|`, no
reads and slices that cover `S`, the output ends up as `S` in whichever order the slices came
(`assemble_eq`). -/

namespace Sponge

open Word Pieces Run

namespace StreamReassembler

/-! ## The invariant -/

/-- `r` is assembling the byte string `S`. -/
structure Assembles (S : Bytes) (r : StreamReassembler) : Prop where
  wf : r.Wf (S.take r.exIdx)
  agrees : ∀ i b, Holds r.unassembledStrs i b → S[i]? = some b
  eofIdx_eq : r.eofSignRecv = true → r.eofIdx = S.length
  ended_iff : r.output.isInputEnd = true ↔ r.eofSignRecv = true ∧ r.exIdx = S.length

theorem assembles_new (S : Bytes) (capacity : UInt64) : (new capacity).Assembles S where
  wf := wf_new capacity
  agrees i b h := absurd h (not_holds_empty i b)
  eofIdx_eq h := by cases h
  ended_iff := by simp [new, ByteStream.new]

section

variable {S : Bytes} {r : StreamReassembler}

theorem Assembles.exIdx_le (h : r.Assembles S) : r.exIdx ≤ S.length := by
  have := h.wf.exIdx_eq
  rw [List.length_take] at this
  omega

theorem Assembles.written_eq (h : r.Assembles S) : r.output.numBytesWritten = r.exIdx :=
  h.wf.written_eq

/-- A stored substring lies inside `S`. -/
theorem Assembles.stored_le (h : r.Assembles S) {k : Nat} {d : Bytes}
    (hm : (k, d) ∈ r.unassembledStrs) : k + d.length ≤ S.length := by
  have hpos := List.length_pos_iff.mpr (h.wf.stored.nonempty _ hm)
  simp only at hpos
  have hlast : d[k + d.length - 1 - k]? = some (d.get ⟨k + d.length - 1 - k, by omega⟩) :=
    List.getElem?_eq_getElem _
  obtain ⟨hlt, _⟩ := List.getElem?_eq_some_iff.mp
    (h.agrees (k + d.length - 1) _ ⟨k, d, hm, by omega, hlast⟩)
  omega

/-- Every stored substring is the slice of `S` at its index. -/
theorem Assembles.stored_eq (h : r.Assembles S) {k : Nat} {d : Bytes}
    (hm : (k, d) ∈ r.unassembledStrs) : d = (S.drop k).take d.length := by
  have hle := h.stored_le hm
  apply List.ext_getElem?
  intro j
  by_cases hj : j < d.length
  · have hS := h.agrees (k + j) (d.get ⟨j, hj⟩)
      ⟨k, d, hm, by omega, by rw [Nat.add_sub_cancel_left]; exact List.getElem?_eq_getElem _⟩
    rw [List.getElem?_take_of_lt hj, List.getElem?_drop, hS]
    exact List.getElem?_eq_getElem _
  · rw [List.getElem?_eq_none (by omega), List.getElem?_eq_none]
    rw [List.length_take]
    omega

/-- Once everything is assembled nothing is stored. -/
theorem Assembles.stored_eq_nil (h : r.Assembles S) (hex : r.exIdx = S.length) :
    ∀ e, ¬ e ∈ r.unassembledStrs := by
  intro e he
  have h1 := h.stored_le (k := e.1) (d := e.2) he
  have h2 := h.wf.stored.ahead e he
  have h3 := List.length_pos_iff.mpr (h.wf.stored.nonempty e he)
  omega

theorem Assembles.popOutput (h : r.Assembles S) (len : Nat) : (r.popOutput len).Assembles S :=
  ⟨h.wf.popOutput len, h.agrees, h.eofIdx_eq, h.ended_iff⟩

/-- What was popped was assembled. -/
theorem Assembles.read_le (h : r.Assembles S) : r.output.numBytesRead ≤ r.exIdx := by
  have hread := h.wf.out.read_le
  rw [List.length_take] at hread
  exact hread.trans (Nat.min_le_left _ _)

/-- What was popped followed by what is buffered is the assembled part of `S`. -/
theorem Assembles.take_append_buf (h : r.Assembles S) :
    S.take r.output.numBytesRead ++ r.output.buf = S.take r.exIdx := by
  have happend := h.wf.out.take_append_buf
  rwa [List.take_take, Nat.min_eq_left h.read_le] at happend

/-- The popped part of `S` grows by what a read returns. -/
theorem Assembles.take_read (h : r.Assembles S) (len : Nat) :
    S.take (r.output.popOutput len).numBytesRead
      = S.take r.output.numBytesRead ++ r.output.peekOutput len := by
  have hle : (r.output.popOutput len).numBytesRead ≤ r.exIdx := (h.popOutput len).read_le
  have htake := h.wf.out.take_read len
  rwa [List.take_take, List.take_take, Nat.min_eq_left hle, Nat.min_eq_left h.read_le] at htake

/-- The stream may grow as long as its end has not been seen. -/
theorem Assembles.extend (h : r.Assembles S) {S' : Bytes} (hpre : S <+: S')
    (heof : r.eofSignRecv = true → S' = S) : r.Assembles S' := by
  obtain ⟨t, rfl⟩ := hpre
  have hex := h.exIdx_le
  refine ⟨?_, ?_, ?_, ?_⟩
  · rw [List.take_append_of_le_length hex]
    exact h.wf
  · intro i b hb
    have hS := h.agrees i b hb
    obtain ⟨hlt, _⟩ := List.getElem?_eq_some_iff.mp hS
    rw [List.getElem?_append_left hlt, hS]
  · intro hs
    rw [h.eofIdx_eq hs, heof hs]
  · rw [h.ended_iff]
    apply and_congr_right
    intro hs
    rw [heof hs]

/-- The data pushed at `index` agrees with `S`. -/
def IsSlice (S data : Bytes) (index : Nat) : Prop :=
  ∀ j b, data[j]? = some b → S[index + j]? = some b

theorem isSlice_take_drop (S : Bytes) (index len : Nat) :
    IsSlice S ((S.drop index).take len) index := by
  intro j b hj
  obtain ⟨hlt, _⟩ := List.getElem?_eq_some_iff.mp hj
  rw [List.length_take] at hlt
  rwa [List.getElem?_take_of_lt (by omega), List.getElem?_drop] at hj

/-- Writing a slice of `S` over bytes of `S` gives bytes of `S`. -/
theorem IsSlice.over {data : Bytes} {index : Nat} (hs : IsSlice S data index)
    (h : r.Assembles S) {i : Nat} {b : UInt8}
    (ho : Over index data (Holds r.unassembledStrs) i b) : S[i]? = some b := by
  by_cases hc : Covers index data i
  · have := hs _ _ ((over_of_covers hc).mp ho)
    unfold Covers at hc
    rwa [show index + (i - index) = i by omega] at this
  · exact h.agrees i b ((over_of_not_covers hc).mp ho)

/-- **A push of a slice keeps the invariant**, and records the end when it has it. -/
theorem Assembles.pushSubstring {data : Bytes} {index : Nat} (eof : Bool) (h : r.Assembles S)
    (hs : IsSlice S data index) (hlt : index + data.length < 2 ^ 64)
    (heof : eof = true → index + data.length = S.length) :
    (r.pushSubstring data index eof).Assembles S ∧
      (r.pushSubstring data index eof).eofSignRecv = (r.eofSignRecv || eof) := by
  by_cases hend : r.output.isInputEnd = true
  · rw [pushSubstring_of_ended data index eof hend]
    exact ⟨h, by rw [(h.ended_iff.mp hend).1, Bool.true_or]⟩
  · obtain ⟨w, hw⟩ := pushSubstring_spec eof h.wf (by simpa using hend) hlt
    set r' := r.pushSubstring data index eof
    have hex := h.exIdx_le
    -- the bytes written continue the prefix of `S`
    have hwS : ∀ j b, w[j]? = some b → S[r.exIdx + j]? = some b := by
      intro j b hj
      refine hs.over h (hw.sound (r.exIdx + j) b (by omega) (Or.inl ?_))
      rwa [Nat.add_sub_cancel_left]
    have hlen : r'.exIdx = r.exIdx + w.length := by
      rw [hw.wf.exIdx_eq, List.length_append, List.length_take]
      omega
    have hout : S.take r.exIdx ++ w = S.take r'.exIdx := by
      rw [hlen, List.take_add]
      congr 1
      apply List.ext_getElem?
      intro j
      by_cases hj : j < w.length
      · rw [List.getElem?_take_of_lt hj, List.getElem?_drop,
          hwS j (w.get ⟨j, hj⟩) (List.getElem?_eq_getElem _)]
        exact List.getElem?_eq_getElem _
      · rw [List.getElem?_eq_none (by omega), List.getElem?_eq_none]
        rw [List.length_take]
        omega
    have hwf' : r'.Wf (S.take r'.exIdx) := hout ▸ hw.wf
    have hex' : r'.exIdx ≤ S.length := by
      have := hwf'.exIdx_eq
      rw [List.length_take] at this
      omega
    have hidx' : r'.eofSignRecv = true → r'.eofIdx = S.length := by
      intro hsign
      rw [hw.eofIdx]
      by_cases he : eof = true
      · rw [if_pos he, heof he]
      · rw [if_neg he]
        rw [hw.eofSign] at hsign
        exact h.eofIdx_eq (by simpa [he] using hsign)
    refine ⟨⟨hwf', ?_, hidx', ?_⟩, hw.eofSign⟩
    · intro i b hb
      have hi := hw.wf.stored.le_of_holds hb
      exact hs.over h (hw.sound i b (by omega) (Or.inr hb))
    · constructor
      · intro he
        obtain ⟨h1, h2⟩ := hw.ended he
        have := hidx' h1
        exact ⟨h1, by omega⟩
      · rintro ⟨h1, h2⟩
        have h3 := hidx' h1
        apply hw.ends h1 (by omega)
        by_cases hadv : r.exIdx < r'.exIdx
        · exact Or.inl hadv
        · -- nothing was written, so the end was not known before
          apply Or.inr
          have hold : r.eofSignRecv = false := by
            by_contra hne
            exact hend (h.ended_iff.mpr ⟨by simpa using hne, by omega⟩)
          rw [hw.eofSign, hold, Bool.false_or] at h1
          exact ⟨h1, by rw [heof h1]; omega⟩

end

end StreamReassembler

/-! ## Runs of pushes and reads -/

/-- A push of the slice `S[start..stop)`, with its end mark only at the end of `S`. -/
structure SlicePush (S : Bytes) where
  start : Nat
  stop : Nat
  eof : Bool
  start_le : start ≤ stop
  stop_le : stop ≤ S.length
  stop_lt : stop < 2 ^ 64
  eof_stop : eof = true → stop = S.length

namespace SlicePush

variable {S : Bytes} (p : SlicePush S)

def data : Bytes := (S.drop p.start).take (p.stop - p.start)

theorem data_length : p.data.length = p.stop - p.start := by
  have := p.stop_le
  rw [data, List.length_take, List.length_drop]
  omega

theorem start_add_length : p.start + p.data.length = p.stop := by
  have := p.start_le
  rw [data_length]
  omega

end SlicePush

/-- What can happen to a reassembler that receives slices of `S`. -/
inductive AssemblyOp (S : Bytes) where
  | push (p : SlicePush S)
  | read (len : UInt64)
  | pop (len : UInt64)

/-- A reassembler together with the bytes that have left its output and whether a push with
the end mark has occurred. -/
structure Assembly where
  reassembler : StreamReassembler
  taken : Bytes := []
  eofPushed : Bool := false

namespace Assembly

variable {S : Bytes}

def new (capacity : UInt64) : Assembly := { reassembler := StreamReassembler.new capacity }

def step (a : Assembly) : AssemblyOp S → Assembly
  | .push p =>
      { a with
        reassembler := a.reassembler.pushSubstring p.data p.start p.eof
        eofPushed := a.eofPushed || p.eof }
  | .read len =>
      { a with
        reassembler := (a.reassembler.readOutput len.toNat).2
        taken := a.taken ++ (a.reassembler.readOutput len.toNat).1 }
  | .pop len =>
      { a with
        reassembler := a.reassembler.popOutput len.toNat
        taken := a.taken ++ a.reassembler.output.peekOutput len.toNat }

/-- The invariant of a run: the reassembler assembles `S`, what was taken is what the output
has popped, and the end is recorded exactly when it was pushed. -/
structure Inv (S : Bytes) (a : Assembly) : Prop where
  assembles : a.reassembler.Assembles S
  taken_eq : a.taken =
    (S.take a.reassembler.exIdx).take a.reassembler.output.numBytesRead
  eof_eq : a.reassembler.eofSignRecv = a.eofPushed

theorem inv_new (capacity : UInt64) : (new capacity).Inv S :=
  ⟨StreamReassembler.assembles_new S capacity, by simp [new, StreamReassembler.new], rfl⟩

/-- Taking bytes from the output. -/
theorem Inv.pop {a : Assembly} (h : a.Inv S) (len : Nat) :
    Inv S { a with
      reassembler := a.reassembler.popOutput len
      taken := a.taken ++ a.reassembler.output.peekOutput len } := by
  refine ⟨h.assembles.popOutput len, ?_, h.eof_eq⟩
  show a.taken ++ a.reassembler.output.peekOutput len
    = (S.take a.reassembler.exIdx).take (a.reassembler.output.popOutput len).numBytesRead
  rw [h.taken_eq, h.assembles.wf.out.take_read len]

theorem Inv.step {a : Assembly} (h : a.Inv S) (op : AssemblyOp S) : (a.step op).Inv S := by
  cases op with
  | push p =>
      have hlt : p.start + p.data.length < 2 ^ 64 := by
        rw [p.start_add_length]; exact p.stop_lt
      obtain ⟨h1, h2⟩ := h.assembles.pushSubstring p.eof
        (StreamReassembler.isSlice_take_drop S p.start (p.stop - p.start)) hlt
        (fun he => by rw [← p.eof_stop he]; exact p.start_add_length)
      refine ⟨h1, ?_, h2.trans (by rw [h.eof_eq]; rfl)⟩
      -- a push pops nothing, and the popped bytes were assembled before it
      obtain ⟨w, hw, hread⟩ := h.assembles.wf.pushSubstring p.eof hlt
      have hmono : a.reassembler.exIdx
          ≤ (a.reassembler.pushSubstring p.data p.start p.eof).exIdx := by
        rw [hw.exIdx_eq, List.length_append, ← h.assembles.wf.exIdx_eq]
        omega
      have hle := h.assembles.wf.out.read_le
      rw [List.length_take] at hle
      show a.taken = (S.take (a.reassembler.pushSubstring p.data p.start p.eof).exIdx).take
        (a.reassembler.pushSubstring p.data p.start p.eof).output.numBytesRead
      rw [h.taken_eq, hread, List.take_take, List.take_take]
      congr 1
      omega
  | read len => exact h.pop len.toNat
  | pop len => exact h.pop len.toNat

/-- **Every interleaving of slices and reads assembles `S`.** -/
theorem run_assembles (capacity : UInt64) (ops : List (AssemblyOp S)) :
    let a := run step (new capacity) ops
    a.taken ++ a.reassembler.output.buf = S.take a.reassembler.exIdx ∧
    a.reassembler.exIdx = a.reassembler.output.bytesWritten ∧
    (∀ k d, (k, d) ∈ a.reassembler.unassembledStrs → d = (S.drop k).take d.length) ∧
    (a.reassembler.output.inputEnded = true ↔
      a.eofPushed = true ∧ a.reassembler.exIdx = S.length) := by
  intro a
  have h : a.Inv S := run_invariant' (fun _ op hs => hs.step op) (inv_new capacity) ops
  refine ⟨?_, ?_, fun k d hm => h.assembles.stored_eq hm, ?_⟩
  · rw [h.taken_eq]
    exact h.assembles.wf.out.take_append_buf
  · exact h.assembles.wf.exIdx_eq.trans h.assembles.wf.out.written.symm
  · rw [← h.eof_eq]
    exact h.assembles.ended_iff

end Assembly

/-! ## Order independence -/

namespace StreamReassembler

variable {S : Bytes}

/-- Push slices of `S` into a fresh reassembler. -/
def assemble (capacity : UInt64) (ps : List (SlicePush S)) : StreamReassembler :=
  run (fun r p => r.pushSubstring p.data p.start p.eof) (new capacity) ps

/-- The invariant of a run without reads whose capacity is at least `|S|`: the pushed indices
are written or stored, and never is a substring stored where the output could take it. -/
structure Fills (S : Bytes) (capacity : UInt64) (ps : List (SlicePush S))
    (r : StreamReassembler) : Prop where
  assembles : r.Assembles S
  eof_iff : r.eofSignRecv = true ↔ ∃ p ∈ ps, p.eof = true
  unread : r.output.numBytesRead = 0
  noError : r.output.error = false
  capacity_eq : r.capacity = capacity.toNat
  covered : ∀ p ∈ ps, ∀ i, p.start ≤ i → i < p.stop →
    i < r.exIdx ∨ ∃ b, Holds r.unassembledStrs i b
  waiting : ∀ e ∈ r.unassembledStrs, e.1 ≠ r.exIdx

theorem fills_new (capacity : UInt64) : Fills S capacity [] (new capacity) where
  assembles := assembles_new S capacity
  eof_iff := by simp [new]
  unread := rfl
  noError := rfl
  capacity_eq := rfl
  covered p hp := absurd hp List.not_mem_nil
  waiting e he := absurd he (OrdMap.not_mem_empty e)

/-- Without reads the window ends at the capacity. -/
theorem Fills.firstUnacceptableIdx_eq {capacity : UInt64} {ps : List (SlicePush S)}
    {r : StreamReassembler} (h : Fills S capacity ps r) :
    r.firstUnacceptableIdx = capacity.toNat := by
  have h1 := h.assembles.wf.out.read_add
  have h2 := h.assembles.wf.out.written
  have h3 := h.assembles.wf.exIdx_eq
  have h4 := h.unread
  have h5 := capacity.toNat_lt
  unfold firstUnacceptableIdx ByteStream.bufferSize add64 sub64
  rw [h.capacity_eq]
  omega

theorem Fills.push {capacity : UInt64} (hcap : S.length ≤ capacity.toNat)
    {ps : List (SlicePush S)} {r : StreamReassembler} (h : Fills S capacity ps r)
    (p : SlicePush S) :
    Fills S capacity (ps ++ [p]) (r.pushSubstring p.data p.start p.eof) := by
  have hlt : p.start + p.data.length < 2 ^ 64 := by
    rw [p.start_add_length]; exact p.stop_lt
  have hslice : IsSlice S p.data p.start := isSlice_take_drop S p.start (p.stop - p.start)
  obtain ⟨hasm, hsign⟩ := h.assembles.pushSubstring p.eof hslice hlt
    (fun he => by rw [← p.eof_stop he]; exact p.start_add_length)
  have heof : (r.pushSubstring p.data p.start p.eof).eofSignRecv = true ↔
      ∃ q ∈ ps ++ [p], q.eof = true := by
    rw [hsign, Bool.or_eq_true, h.eof_iff]
    simp [or_and_right, exists_or]
  by_cases hend : r.output.isInputEnd = true
  · -- everything was there already
    rw [pushSubstring_of_ended p.data p.start p.eof hend] at heof ⊢
    refine ⟨h.assembles, heof, h.unread, h.noError, h.capacity_eq, ?_, h.waiting⟩
    intro q _ i _ hi
    have := (h.assembles.ended_iff.mp hend).2
    have := q.stop_le
    exact Or.inl (by omega)
  · obtain ⟨w, hw⟩ := pushSubstring_spec p.eof h.assembles.wf (by simpa using hend) hlt
    set r' := r.pushSubstring p.data p.start p.eof
    have hlen : r'.exIdx = r.exIdx + w.length := by
      rw [hw.wf.exIdx_eq, List.length_append, ← h.assembles.wf.exIdx_eq]
    -- what is held over or pushed is written or held afterwards
    have hkeep : ∀ i b, i < S.length → r.exIdx ≤ i →
        Over p.start p.data (Holds r.unassembledStrs) i b →
        i < r'.exIdx ∨ ∃ b, Holds r'.unassembledStrs i b := by
      intro i b hi hge ho
      have hfu := h.firstUnacceptableIdx_eq
      rcases hw.complete i b hge (Or.inl (by omega)) ho with hb | hb
      · obtain ⟨hlt', _⟩ := List.getElem?_eq_some_iff.mp hb
        exact Or.inl (by omega)
      · exact Or.inr ⟨b, hb⟩
    refine ⟨hasm, heof, hw.read.trans h.unread, hw.error.trans h.noError,
      hw.capacity.trans h.capacity_eq, ?_, ?_⟩
    · intro q hq i hi1 hi2
      have hqS := q.stop_le
      by_cases hge : r.exIdx ≤ i
      · by_cases hc : Covers p.start p.data i
        · have hi : i - p.start < p.data.length := by unfold Covers at hc; omega
          exact hkeep i (p.data.get ⟨i - p.start, hi⟩) (by omega) hge
            ((over_of_covers hc).mpr (List.getElem?_eq_getElem _))
        · rcases List.mem_append.mp hq with hq | hq
          · rcases h.covered q hq i hi1 hi2 with h1 | ⟨b, hb⟩
            · exact absurd h1 (by omega)
            · exact hkeep i b (by omega) hge ((over_of_not_covers hc).mpr hb)
          · rw [List.mem_singleton.mp hq] at hi1 hi2
            refine absurd ?_ hc
            have := p.start_add_length
            unfold Covers
            omega
      · exact Or.inl (by omega)
    · intro e he hk
      -- a substring is stored at `exIdx` only if the output has ended or is full
      have hfull : r'.exIdx = S.length := by
        rcases hw.stop h.waiting e he hk with h1 | h1
        · exact (hasm.ended_iff.mp h1).2
        · have h2 := hasm.wf.out.read_add
          have h3 := hasm.wf.out.written
          have h4 := hasm.wf.exIdx_eq
          have h5 := hw.read.trans h.unread
          have h6 := hasm.wf.capacity_eq
          have h7 := hw.capacity.trans h.capacity_eq
          have h8 := hasm.exIdx_le
          omega
      exact hasm.stored_eq_nil hfull e he

theorem assemble_fills (capacity : UInt64) (hcap : S.length ≤ capacity.toNat)
    (ps : List (SlicePush S)) : Fills S capacity ps (assemble capacity ps) := by
  induction ps using List.reverseRecOn with
  | nil => exact fills_new capacity
  | append_singleton ps p ih =>
      unfold assemble
      rw [run_append]
      exact ih.push hcap p

/-- The output stream once `S` has been assembled. -/
def assembled (S : Bytes) (capacity : UInt64) : ByteStream :=
  { buf := S
    capacity := capacity.toNat
    size := S.length
    isInputEnd := true
    numBytesWritten := S.length }

/-- If the pushed slices cover `S` and one has the end mark, `S` is assembled. -/
theorem Fills.complete {capacity : UInt64} {ps : List (SlicePush S)} {r : StreamReassembler}
    (h : Fills S capacity ps r)
    (hcover : ∀ i, i < S.length → ∃ p ∈ ps, p.start ≤ i ∧ i < p.stop)
    (heof : ∃ p ∈ ps, p.eof = true) :
    r.output = assembled S capacity ∧ r.unassembledBytes = 0 := by
  have hle := h.assembles.exIdx_le
  have hex : r.exIdx = S.length := by
    by_contra hne
    -- the byte at `exIdx` was pushed and is stored, so a substring starts there
    obtain ⟨p, hp, h1, h2⟩ := hcover r.exIdx (by omega)
    rcases h.covered p hp r.exIdx h1 h2 with h3 | ⟨b, hb⟩
    · omega
    · obtain ⟨k, d, hm, hk, _⟩ := hb.covers
      have h4 := h.assembles.wf.stored.ahead _ hm
      have h5 := h.waiting _ hm
      simp only at h4 h5
      omega
  have hended : r.output.isInputEnd = true :=
    h.assembles.ended_iff.mpr ⟨h.eof_iff.mpr heof, hex⟩
  have hcar := h.assembles.wf.out
  have hbuf := hcar.buf_eq
  rw [h.unread, hex, List.take_length, List.drop_zero] at hbuf
  constructor
  · have h1 := hcar.size_eq
    have h2 := hcar.written
    have h3 := h.assembles.wf.capacity_eq.trans h.capacity_eq
    have h4 := h.unread
    have h5 := h.noError
    rw [hbuf] at h1
    rw [hex, List.take_length] at h2
    unfold assembled
    cases hr : r.output
    simp_all
  · show r.unassembledSize = 0
    have hnil : r.unassembledStrs.entries = [] :=
      List.eq_nil_iff_forall_not_mem.mpr (h.assembles.stored_eq_nil hex)
    rw [h.assembles.wf.stored.size_eq, OrdMap.total, hnil]
    rfl

/-- **Order independence.** Slices that cover `S`, one of them with the end mark, assemble `S`
in every order. -/
theorem assemble_eq (capacity : UInt64) (hcap : S.length ≤ capacity.toNat)
    (ps : List (SlicePush S))
    (hcover : ∀ i, i < S.length → ∃ p ∈ ps, p.start ≤ i ∧ i < p.stop)
    (heof : ∃ p ∈ ps, p.eof = true) :
    (assemble capacity ps).output.buf = S ∧
    (assemble capacity ps).output.inputEnded = true ∧
    (assemble capacity ps).unassembledBytes = 0 ∧
    ∀ qs : List (SlicePush S), qs.Perm ps →
      (assemble capacity qs).output = (assemble capacity ps).output := by
  obtain ⟨h1, h2⟩ := (assemble_fills capacity hcap ps).complete hcover heof
  refine ⟨by rw [h1]; rfl, by rw [h1]; rfl, h2, ?_⟩
  intro qs hperm
  rw [h1]
  refine ((assemble_fills capacity hcap qs).complete (fun i hi => ?_) ?_).1
  · obtain ⟨p, hp, hi'⟩ := hcover i hi
    exact ⟨p, hperm.mem_iff.mpr hp, hi'⟩
  · obtain ⟨p, hp, he⟩ := heof
    exact ⟨p, hperm.mem_iff.mpr hp, he⟩

/-- Two overlapping slices, the one with the end mark first. -/
def endFirst : List (SlicePush [97, 98, 99, 100]) :=
  [⟨2, 4, true, by decide, by decide, by decide, by decide⟩,
   ⟨0, 3, false, by decide, by decide, by decide, by decide⟩]

theorem assemble_endFirst :
    (assemble 4 endFirst).output.buf = [97, 98, 99, 100] ∧
    (assemble 4 endFirst).output.inputEnded = true ∧
    (assemble 4 endFirst).unassembledBytes = 0 ∧
    ∀ qs, qs.Perm endFirst → (assemble 4 qs).output = (assemble 4 endFirst).output :=
  assemble_eq 4 (by decide) endFirst (by decide) (by decide)

end StreamReassembler

end Sponge
