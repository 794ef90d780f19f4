import Sponge.Util.Buffer

set_option autoImplicit false

/-! # Writing to a file descriptor

`FileDescriptor::write` of `file_descriptor.cc`, with `SystemCall` of `util.cc`. The loop offers the
buffer to `writev`, which belongs to the kernel and takes as many bytes as it likes from the front;
the model is given what `writev` reports, call by call. The counter of writes is left out. -/

namespace Sponge

namespace Util

/-- What a call of `writev` reports. -/
structure Answer where
  value : Int
  errno : Int
  deriving DecidableEq, Repr

namespace Answer

/-- The most bytes that one call transfers. -/
def maxTransfer : Int := 0x7ffff000

/-- The answer is one that is documented: a number of bytes, or a failure with its error number. -/
def Documented (a : Answer) : Prop :=
  0 ≤ a.value ∧ a.value ≤ maxTransfer ∨ a.value = -1 ∧ a.errno ≠ 0

instance (a : Answer) : Decidable a.Documented := inferInstanceAs (Decidable (_ ∨ _))

/-- The number of bytes that the call took from the front of what it was offered. -/
def count (a : Answer) : Nat := a.value.toNat

end Answer

/-- A `ssize_t` where an `int` is expected. -/
def toInt (value : Int) : Int := value.bmod (2 ^ 32)

/-- A `ssize_t` where a `size_t` is expected. -/
def toSize (value : Int) : Nat := (value % 2 ^ 64).toNat

/-- Error-checking wrapper for system calls. -/
def systemCall (attempt : String) (returnValue errno errnoMask : Int) : Except Exception Int :=
  if 0 ≤ returnValue ∨ errno = errnoMask then .ok returnValue
  else .error (.unixError attempt errno)

namespace FileDescriptor

/-- How a call of `write` ends, unless it waits for the next answer. -/
inductive Outcome where
  | returned (totalBytesWritten : Nat)
  | threw (e : Exception)
  | waiting
  deriving DecidableEq, Repr

/-- One pass through the loop of `write`, from the answer on: what is left of the buffer, and the
number of bytes written. -/
def writeOnce (buffer : BufferViewList) (a : Answer) :
    Except Exception (BufferViewList × Nat) := do
  let bytesWritten ← systemCall "writev" (toInt a.value) a.errno 0
  if bytesWritten = 0 ∧ buffer.size ≠ 0 then
    throw (.runtimeError "write returned 0 given non-empty input buffer")
  if bytesWritten > buffer.size then
    throw (.runtimeError "write wrote more than length of input buffer")
  return (← buffer.removePrefix (toSize bytesWritten), toSize bytesWritten)

/-- The loop of `write`, for the given answers: what is offered to `writev`, call by call, and the
outcome. -/
def writeLoop (writeAll : Bool) :
    BufferViewList → Nat → List Answer → List (List Bytes) × Outcome
  | buffer, _, [] => ([buffer.asIovecs], .waiting)
  | buffer, total, a :: answers =>
      match writeOnce buffer a with
      | .error e => ([buffer.asIovecs], .threw e)
      | .ok (left, n) =>
          if writeAll && left.size != 0 then
            let rest := writeLoop writeAll left (total + n) answers
            (buffer.asIovecs :: rest.1, rest.2)
          else ([buffer.asIovecs], .returned (total + n))

/-- Write a buffer, possibly blocking until all is written. -/
def write (buffer : BufferViewList) (writeAll : Bool) (answers : List Answer) :
    List (List Bytes) × Outcome :=
  writeLoop writeAll buffer 0 answers

/-- The bytes that the calls took, one after the other. -/
def taken (offers : List (List Bytes)) (answers : List Answer) : Bytes :=
  (List.zipWith (fun offer a => offer.flatten.take a.count) offers answers).flatten

/-- Every answer takes something, and at most what is left, as long as something is left. -/
def Partial : Nat → List Answer → Prop
  | _, [] => True
  | left, a :: answers =>
      (0 ≤ a.value ∧ a.count ≤ left ∧ (left ≠ 0 → a.count ≠ 0)) ∧
        (left - a.count ≠ 0 → Partial (left - a.count) answers)

instance decidablePartial : ∀ left answers, Decidable (Partial left answers)
  | _, [] => inferInstanceAs (Decidable True)
  | left, a :: answers =>
      have := decidablePartial (left - a.count) answers
      inferInstanceAs (Decidable (_ ∧ (_ → Partial (left - a.count) answers)))

/-! ## One pass -/

section

variable {buffer : BufferViewList} {a : Answer}

theorem toInt_of_documented (h : a.Documented) : toInt a.value = a.value := by
  unfold Answer.Documented Answer.maxTransfer at h
  exact Int.bmod_eq_of_le (by omega) (by omega)

theorem toSize_of_documented (h : a.Documented) (hvalue : 0 ≤ a.value) :
    toSize a.value = a.count := by
  unfold Answer.Documented Answer.maxTransfer at h
  unfold toSize Answer.count
  rw [Int.emod_eq_of_lt hvalue (by omega)]

/-- What a pass does with a number of bytes. -/
theorem writeOnce_of_value (h : a.Documented) (hvalue : 0 ≤ a.value) (buffer : BufferViewList) :
    writeOnce buffer a =
      if a.count = 0 ∧ buffer.size ≠ 0 then
        .error (.runtimeError "write returned 0 given non-empty input buffer")
      else if buffer.size < a.count then
        .error (.runtimeError "write wrote more than length of input buffer")
      else (buffer.removePrefix a.count).map fun left => (left, a.count) := by
  have hcount : (a.count : Int) = a.value := Int.toNat_of_nonneg hvalue
  have hzero : a.value = 0 ↔ a.count = 0 := by omega
  have hgt : a.value > buffer.size ↔ buffer.size < a.count := by omega
  unfold writeOnce systemCall
  rw [toInt_of_documented h, if_pos (Or.inl hvalue)]
  simp only [bind, Except.bind, toSize_of_documented h hvalue, hzero, hgt]
  by_cases hnone : a.count = 0 ∧ buffer.size ≠ 0
  · rw [if_pos hnone, if_pos hnone]
    rfl
  · rw [if_neg hnone, if_neg hnone]
    by_cases hmore : buffer.size < a.count
    · rw [if_pos hmore, if_pos hmore]
      rfl
    · rw [if_neg hmore, if_neg hmore]
      cases buffer.removePrefix a.count <;> rfl

theorem writeOnce_of_failure (h : a.Documented) (hvalue : a.value < 0) (buffer : BufferViewList) :
    writeOnce buffer a = .error (.unixError "writev" a.errno) := by
  have herrno : a.errno ≠ 0 := by
    unfold Answer.Documented at h
    omega
  unfold writeOnce systemCall
  rw [toInt_of_documented h, if_neg (by omega)]
  rfl

/-- A pass throws, or it shortens the buffer by the bytes that were taken. -/
theorem writeOnce_cases (h : a.Documented) (buffer : BufferViewList) :
    (∃ e, writeOnce buffer a = .error e) ∨
      ∃ left, writeOnce buffer a = .ok (left, a.count) ∧ a.count ≤ buffer.size ∧
        left.contents = buffer.contents.drop a.count := by
  by_cases hvalue : 0 ≤ a.value
  · rw [writeOnce_of_value h hvalue]
    split_ifs with hzero hlt
    · exact Or.inl ⟨_, rfl⟩
    · exact Or.inl ⟨_, rfl⟩
    · obtain ⟨left, hleft, hcontents⟩ :=
        BufferViewList.removePrefix_of_le (Nat.le_of_not_lt hlt)
      rw [hleft]
      exact Or.inr ⟨left, rfl, Nat.le_of_not_lt hlt, hcontents⟩
  · exact Or.inl ⟨_, writeOnce_of_failure h (by omega) buffer⟩

/-- A number of bytes that the pass does not object to. -/
theorem writeOnce_of_count (h : a.Documented) (hvalue : 0 ≤ a.value) (hle : a.count ≤ buffer.size)
    (hpos : buffer.size ≠ 0 → a.count ≠ 0) :
    ∃ left, writeOnce buffer a = .ok (left, a.count) ∧
      left.contents = buffer.contents.drop a.count := by
  obtain ⟨left, hleft, hcontents⟩ := BufferViewList.removePrefix_of_le hle
  refine ⟨left, ?_, hcontents⟩
  rw [writeOnce_of_value h hvalue, if_neg (fun hzero => hpos hzero.2 hzero.1),
    if_neg (Nat.not_lt.mpr hle), hleft]
  rfl

end

/-! ## The loop -/

section

variable {buffer left : BufferViewList} {a : Answer} {answers : List Answer}

theorem size_of_contents {n : Nat} (h : left.contents = buffer.contents.drop n) :
    left.size = buffer.size - n :=
  calc left.size = (buffer.contents.drop n).length := by rw [left.size_eq, h]
    _ = buffer.contents.length - n := List.length_drop
    _ = buffer.size - n := by rw [buffer.size_eq]

theorem writeLoop_of_error {e : Exception} (writeAll : Bool) (total : Nat)
    (h : writeOnce buffer a = .error e) :
    writeLoop writeAll buffer total (a :: answers) = ([buffer.asIovecs], .threw e) := by
  unfold writeLoop
  rw [h]

theorem writeLoop_of_ok {n : Nat} (writeAll : Bool) (total : Nat)
    (h : writeOnce buffer a = .ok (left, n)) :
    writeLoop writeAll buffer total (a :: answers) =
      if writeAll && left.size != 0 then
        (buffer.asIovecs :: (writeLoop writeAll left (total + n) answers).1,
          (writeLoop writeAll left (total + n) answers).2)
      else ([buffer.asIovecs], .returned (total + n)) := by
  rw [writeLoop, h]

theorem taken_cons (offer : List Bytes) (offers : List (List Bytes)) (a : Answer)
    (answers : List Answer) :
    taken (offer :: offers) (a :: answers) = offer.flatten.take a.count ++ taken offers answers :=
  rfl

theorem taken_append_of_last {before after : List (List Bytes)} {offer : List Bytes}
    (h : [buffer.asIovecs] = before ++ offer :: after) (answers : List Answer) :
    taken before answers ++ offer.flatten = buffer.contents := by
  cases before with
  | nil =>
      obtain ⟨rfl, -⟩ := List.cons.inj h
      unfold taken
      rw [List.zipWith_nil_left]
      rfl
  | cons offer' before =>
      obtain ⟨-, hnil⟩ := List.cons.inj h
      cases before <;> cases hnil

/-- What has been taken and what is offered next are the contents of the buffer. -/
theorem taken_append_offer (writeAll : Bool) (hdoc : ∀ a ∈ answers, a.Documented)
    (buffer : BufferViewList) (total : Nat) {before after : List (List Bytes)} {offer : List Bytes}
    (h : (writeLoop writeAll buffer total answers).1 = before ++ offer :: after) :
    taken before answers ++ offer.flatten = buffer.contents := by
  induction answers generalizing buffer total before with
  | nil => exact taken_append_of_last h []
  | cons a answers ih =>
      obtain ⟨ha, hdoc'⟩ := List.forall_mem_cons.mp hdoc
      rcases writeOnce_cases ha buffer with ⟨e, he⟩ |
        ⟨left, hleft, -, hcontents⟩
      · rw [writeLoop_of_error writeAll total he] at h
        exact taken_append_of_last h _
      · rw [writeLoop_of_ok writeAll total hleft] at h
        split_ifs at h
        · cases before with
          | nil =>
              obtain ⟨rfl, -⟩ := List.cons.inj h
              rfl
          | cons offer' before =>
              obtain ⟨rfl, hrest⟩ := List.cons.inj h
              have hnext := ih hdoc' left _ hrest
              calc taken (buffer.asIovecs :: before) (a :: answers) ++ offer.flatten
                  = buffer.contents.take a.count ++ (taken before answers ++ offer.flatten) := by
                    rw [taken_cons, List.append_assoc]
                    rfl
                _ = buffer.contents.take a.count ++ buffer.contents.drop a.count := by
                    rw [hnext, hcontents]
                _ = buffer.contents := List.take_append_drop _ _
        · exact taken_append_of_last h _

/-- The loop returns where everything has been taken. -/
theorem taken_of_returned (hdoc : ∀ a ∈ answers, a.Documented) (buffer : BufferViewList)
    (total : Nat) {n : Nat} (h : (writeLoop true buffer total answers).2 = .returned n) :
    taken (writeLoop true buffer total answers).1 answers = buffer.contents ∧
      n = total + buffer.size := by
  induction answers generalizing buffer total with
  | nil => cases h
  | cons a answers ih =>
      obtain ⟨ha, hdoc'⟩ := List.forall_mem_cons.mp hdoc
      rcases writeOnce_cases ha buffer with ⟨e, he⟩ |
        ⟨left, hleft, hle, hcontents⟩
      · rw [writeLoop_of_error true total he] at h
        cases h
      · have hsize := size_of_contents hcontents
        rw [writeLoop_of_ok true total hleft] at h ⊢
        split_ifs at h ⊢ with hmore
        · obtain ⟨htaken, hn⟩ := ih hdoc' left _ h
          refine ⟨?_, by omega⟩
          calc taken (buffer.asIovecs :: (writeLoop true left (total + a.count) answers).1)
                (a :: answers)
              = buffer.contents.take a.count ++ left.contents := by
                rw [taken_cons, htaken]
                rfl
            _ = buffer.contents.take a.count ++ buffer.contents.drop a.count := by rw [hcontents]
            _ = buffer.contents := List.take_append_drop _ _
        · have hnone : left.size = 0 := by simpa using hmore
          cases h
          rw [taken_cons]
          unfold taken
          rw [List.zipWith_nil_left, List.flatten_nil, List.append_nil]
          refine ⟨List.take_of_length_le ?_, by omega⟩
          show buffer.contents.length ≤ a.count
          rw [← buffer.size_eq]
          omega

/-- Partial writes never make the loop throw; it returns as soon as enough of them have been
reported. -/
theorem outcome_of_partial (hdoc : ∀ a ∈ answers, a.Documented) (buffer : BufferViewList)
    (total : Nat) (h : Partial buffer.size answers) :
    (writeLoop true buffer total answers).2 = .returned (total + buffer.size) ∨
      (writeLoop true buffer total answers).2 = .waiting ∧ answers.length ≤ buffer.size := by
  induction answers generalizing buffer total with
  | nil => exact Or.inr ⟨rfl, Nat.zero_le _⟩
  | cons a answers ih =>
      obtain ⟨ha, hdoc'⟩ := List.forall_mem_cons.mp hdoc
      obtain ⟨⟨hvalue, hle, hpos⟩, hrest⟩ := h
      obtain ⟨left, hleft, hcontents⟩ := writeOnce_of_count ha hvalue hle hpos
      have hsize := size_of_contents hcontents
      rw [writeLoop_of_ok true total hleft]
      split_ifs with hmore
      · have hmore' : left.size ≠ 0 := by simpa using hmore
        rw [← hsize] at hrest
        rcases ih hdoc' left (total + a.count) (hrest hmore') with hret | ⟨hwait, hlen⟩
        · have htotal : total + a.count + left.size = total + buffer.size := by omega
          rw [hret, htotal]
          exact Or.inl rfl
        · refine Or.inr ⟨hwait, ?_⟩
          rw [List.length_cons]
          omega
      · have hnone : left.size = 0 := by simpa using hmore
        have htotal : total + a.count = total + buffer.size := by omega
        rw [htotal]
        exact Or.inl rfl

end

/-- **Discontiguous buffers behave like their concatenation.** Both lists lose a prefix as their
contents do; and whatever numbers of bytes `writev` takes, each call of it is offered the bytes that
no call has taken yet, and `write` returns when all are taken. -/
theorem write_consumes (l : BufferList) (views : BufferViewList) (n : Nat) (answers : List Answer)
    (hdoc : ∀ a ∈ answers, a.Documented) :
    RemovesPrefix BufferList.concatenate BufferList.size BufferList.removePrefix l n ∧
      RemovesPrefix BufferViewList.contents BufferViewList.size BufferViewList.removePrefix
        views n ∧
      (∀ before offer after, (write views true answers).1 = before ++ offer :: after →
        taken before answers ++ offer.flatten = views.contents) ∧
      (∀ total, (write views true answers).2 = .returned total →
        taken (write views true answers).1 answers = views.contents ∧ total = views.size) ∧
      (Partial views.size answers → (write views true answers).2 = .returned views.size ∨
        (write views true answers).2 = .waiting ∧ answers.length ≤ views.size) := by
  refine ⟨l.removesPrefix n, views.removesPrefix n, ?_, ?_, ?_⟩
  · intro before offer after h
    exact taken_append_offer true hdoc views 0 h
  · intro total h
    obtain ⟨htaken, htotal⟩ := taken_of_returned hdoc views 0 h
    exact ⟨htaken, htotal.trans (Nat.zero_add _)⟩
  · intro h
    have houtcome := outcome_of_partial hdoc views 0 h
    rw [Nat.zero_add] at houtcome
    exact houtcome

/-- A buffer whose storage is gone, an empty one, a partly consumed one and a fresh one, written by
two calls. -/
theorem write_consumes_two_calls :
    let l : BufferList := { buffers := [{ startingOffset := 3 }, .ofString [],
      { storage := some [9, 1, 2], startingOffset := 1 }, .ofString [3, 4]] }
    let answers : List Answer := [⟨3, 0⟩, ⟨1, 0⟩]
    (write (.ofBufferList l) true answers).1 = [[[], [], [1, 2], [3, 4]], [[4]]] ∧
      taken [[[], [], [1, 2], [3, 4]]] answers ++ [4] = l.concatenate ∧
      taken (write (.ofBufferList l) true answers).1 answers = l.concatenate ∧
      (write (.ofBufferList l) true answers).2 = .returned 4 := by
  intro l answers
  obtain ⟨-, -, hoffer, hreturned, houtcomes⟩ :=
    write_consumes l (.ofBufferList l) 4 answers (by decide)
  rw [BufferViewList.contents_ofBufferList] at hoffer hreturned
  have houtcome : (write (.ofBufferList l) true answers).2 = .returned 4 :=
    (houtcomes (by decide)).resolve_right (by decide)
  exact ⟨rfl, hoffer [[[], [], [1, 2], [3, 4]]] [[4]] [] rfl, (hreturned 4 houtcome).1, houtcome⟩

end FileDescriptor

end Util

end Sponge
