import Sponge.IPv4

set_option autoImplicit false

/-! # Discontiguous buffers

`buffer.hh` and `buffer.cc`. A `Buffer` shares its storage and hides what has been removed from
the front behind an offset; a `BufferList` is a queue of them, and a `BufferViewList` a queue of
views that own nothing. Both lists lose a prefix in the same way (`removeLoop`), which is that of
their contents (`RemovesPrefix`). The datagrams of `IPv4.lean` use a `BufferList` through the
contents of its buffers only (`strs`).

The sizes are natural numbers. What a function leaves behind when it throws is not modelled. -/

namespace Sponge

namespace Util

/-- What the functions throw. -/
inductive Exception where
  | outOfRange (what : String)
  | runtimeError (what : String)
  | unixError (attempt : String) (errno : Int)
  deriving DecidableEq, Repr

/-- Removing the first `n` bytes drops them from the contents, and throws exactly if there are
fewer. -/
structure RemovesPrefix {α : Type} (contents : α → Bytes) (size : α → Nat)
    (removePrefix : α → Nat → Except Exception α) (a : α) (n : Nat) : Prop where
  throws_iff : (∃ e, removePrefix a n = .error e) ↔ size a < n
  contents_eq : ∀ a', removePrefix a n = .ok a' → contents a' = (contents a).drop n
  size_eq : ∀ a', removePrefix a n = .ok a' → size a' = size a - n

theorem removesPrefix_of_cases {α : Type} {contents : α → Bytes} {size : α → Nat}
    {removePrefix : α → Nat → Except Exception α} {a : α} {n : Nat}
    (hsize : ∀ a, size a = (contents a).length)
    (hle : n ≤ size a → ∃ a', removePrefix a n = .ok a' ∧ contents a' = (contents a).drop n)
    (hlt : size a < n → ∃ e, removePrefix a n = .error e) :
    RemovesPrefix contents size removePrefix a n := by
  have hcontents : ∀ a', removePrefix a n = .ok a' → contents a' = (contents a).drop n := by
    intro a' ha'
    by_cases hn : n ≤ size a
    · obtain ⟨a'', ha'', heq⟩ := hle hn
      rw [ha'] at ha''
      cases ha''
      exact heq
    · obtain ⟨e, he⟩ := hlt (Nat.lt_of_not_le hn)
      rw [ha'] at he
      cases he
  refine ⟨⟨fun ⟨e, he⟩ => ?_, hlt⟩, hcontents, fun a' ha' => ?_⟩
  · by_contra hn
    obtain ⟨a', ha', -⟩ := hle (Nat.le_of_not_lt hn)
    rw [ha'] at he
    cases he
  · calc size a' = ((contents a).drop n).length := by rw [hsize a', hcontents a' ha']
      _ = (contents a).length - n := List.length_drop
      _ = size a - n := by rw [hsize a]

/-! ## One buffer -/

/-- A reference-counted read-only string that can discard bytes from the front. A buffer without
storage keeps the offset it had when the storage was released. -/
structure Buffer where
  storage : Option Bytes := none
  startingOffset : Nat := 0
  offset_le : ∀ s, storage = some s → startingOffset ≤ s.length := by simp

namespace Buffer

def ofString (str : Bytes) : Buffer := { storage := some str }

/-- The contents. -/
def str (b : Buffer) : Bytes :=
  match b.storage with
  | none => []
  | some s => s.drop b.startingOffset

def size (b : Buffer) : Nat := b.str.length

/-- The storage is released when nothing of it is left behind the offset. -/
def storageAfter (b : Buffer) (n : Nat) : Option Bytes :=
  b.storage.filter fun s => b.startingOffset + n != s.length

theorem offset_le_of_removed {b : Buffer} {n : Nat} (hn : n ≤ b.str.length) (s : Bytes)
    (hs : b.storageAfter n = some s) : b.startingOffset + n ≤ s.length := by
  obtain ⟨hstorage, -⟩ := Option.filter_eq_some_iff.mp hs
  have hle := b.offset_le s hstorage
  simp only [str, hstorage, List.length_drop] at hn
  omega

/-- Discard the first `n` bytes of the string. -/
def removePrefix (b : Buffer) (n : Nat) : Except Exception Buffer :=
  if hn : n ≤ b.str.length then
    .ok {
      storage := b.storageAfter n
      startingOffset := b.startingOffset + n
      offset_le := offset_le_of_removed hn }
  else .error (.outOfRange "Buffer::remove_prefix")

theorem removePrefix_of_le {b : Buffer} {n : Nat} (hn : n ≤ b.size) :
    ∃ b', b.removePrefix n = .ok b' ∧ b'.str = b.str.drop n := by
  refine ⟨_, dif_pos hn, ?_⟩
  cases hstorage : b.storage with
  | none => simp [str, storageAfter, hstorage]
  | some s =>
      simp only [str, storageAfter, hstorage, Option.filter_some, List.drop_drop]
      by_cases hall : b.startingOffset + n = s.length
      · -- the storage goes, and nothing of it was left
        rw [if_neg (by simp [hall]), hall, List.drop_length]
      · rw [if_pos (by simp [hall])]

theorem removesPrefix (b : Buffer) (n : Nat) : RemovesPrefix str size removePrefix b n :=
  removesPrefix_of_cases (fun _ => rfl) removePrefix_of_le
    (fun hn => ⟨_, dif_neg (Nat.not_le.mpr hn)⟩)

end Buffer

/-! ## The loop of the lists -/

section

variable {α : Type} (str : α → Bytes) (cut : α → Nat → Except Exception α) (what : String)

/-- The loop that removes a prefix from a queue of pieces: `str` is what a piece holds, `cut`
shortens the first piece, and `what` is said when the pieces do not suffice. -/
def removeLoop : List α → Nat → Except Exception (List α)
  | pieces, 0 => .ok pieces
  | [], _ + 1 => .error (.outOfRange what)
  | front :: rest, n + 1 =>
      if n + 1 < (str front).length then do return (← cut front (n + 1)) :: rest
      else removeLoop rest (n + 1 - (str front).length)

variable {str cut what}

/-- If shortening a piece drops bytes from its front, removing a prefix drops bytes from the front
of all pieces. -/
theorem removeLoop_of_le (hcut : ∀ a n, n ≤ (str a).length →
      ∃ a', cut a n = .ok a' ∧ str a' = (str a).drop n) {pieces : List α} {n : Nat}
    (hn : n ≤ (pieces.flatMap str).length) :
    ∃ rest, removeLoop str cut what pieces n = .ok rest ∧
      rest.flatMap str = (pieces.flatMap str).drop n := by
  induction pieces generalizing n with
  | nil =>
      obtain rfl : n = 0 := Nat.le_zero.mp hn
      exact ⟨[], rfl, rfl⟩
  | cons front rest ih =>
      cases n with
      | zero => exact ⟨front :: rest, rfl, rfl⟩
      | succ n =>
          unfold removeLoop
          rw [List.flatMap_cons, List.drop_append]
          rw [List.flatMap_cons, List.length_append] at hn
          split_ifs with hlt
          · -- within the first piece
            obtain ⟨front', heq, hstr⟩ := hcut front (n + 1) hlt.le
            rw [heq]
            refine ⟨front' :: rest, rfl, ?_⟩
            rw [List.flatMap_cons, hstr, Nat.sub_eq_zero_of_le hlt.le, List.drop_zero]
          · -- the first piece goes, even if it is empty
            have hrest : n + 1 - (str front).length ≤ (rest.flatMap str).length := by omega
            have hall : (str front).length ≤ n + 1 := by omega
            obtain ⟨rest', heq, hstr⟩ := ih hrest
            refine ⟨rest', heq, ?_⟩
            rw [hstr, List.drop_of_length_le hall, List.nil_append]

theorem removeLoop_of_lt {pieces : List α} {n : Nat} (hn : (pieces.flatMap str).length < n) :
    removeLoop str cut what pieces n = .error (.outOfRange what) := by
  induction pieces generalizing n with
  | nil =>
      cases n with
      | zero => exact absurd hn (Nat.not_lt_zero _)
      | succ n => rfl
  | cons front rest ih =>
      rw [List.flatMap_cons, List.length_append] at hn
      cases n with
      | zero => exact absurd hn (Nat.not_lt_zero _)
      | succ n =>
          unfold removeLoop
          rw [if_neg (by omega)]
          exact ih (by omega)

end

/-! ## Lists of buffers -/

/-- A discontiguous string that can discard bytes from the front. -/
structure BufferList where
  buffers : List Buffer := []

namespace BufferList

def append (l other : BufferList) : BufferList := { buffers := l.buffers ++ other.buffers }

/-- Transform to a buffer, unless there is more than one. -/
def toBuffer (l : BufferList) : Except Exception Buffer :=
  match l.buffers with
  | [] => .ok {}
  | [buf] => .ok buf
  | _ :: _ :: _ => .error (.runtimeError
      "BufferList: please use concatenate() to combine a multi-Buffer BufferList into one Buffer")

/-- Make a copy to a new string. -/
def concatenate (l : BufferList) : Bytes := l.buffers.flatMap Buffer.str

def size (l : BufferList) : Nat := (l.buffers.map Buffer.size).sum

/-- Discard the first `n` bytes of the string. -/
def removePrefix (l : BufferList) (n : Nat) : Except Exception BufferList := do
  return { buffers :=
    ← removeLoop Buffer.str Buffer.removePrefix "BufferList::remove_prefix" l.buffers n }

theorem size_eq (l : BufferList) : l.size = l.concatenate.length :=
  List.length_flatMap.symm

theorem removePrefix_of_le {l : BufferList} {n : Nat} (hn : n ≤ l.size) :
    ∃ l', l.removePrefix n = .ok l' ∧ l'.concatenate = l.concatenate.drop n := by
  rw [size_eq] at hn
  obtain ⟨buffers, heq, hstr⟩ :
      ∃ buffers, removeLoop Buffer.str Buffer.removePrefix "BufferList::remove_prefix" l.buffers n
          = .ok buffers ∧ buffers.flatMap Buffer.str = l.concatenate.drop n :=
    removeLoop_of_le (fun _ _ => Buffer.removePrefix_of_le) hn
  refine ⟨{ buffers }, ?_, hstr⟩
  unfold removePrefix
  rw [heq]
  rfl

theorem removePrefix_of_lt {l : BufferList} {n : Nat} (hn : l.size < n) :
    l.removePrefix n = .error (.outOfRange "BufferList::remove_prefix") := by
  rw [size_eq] at hn
  unfold removePrefix
  rw [removeLoop_of_lt hn]
  rfl

theorem removesPrefix (l : BufferList) (n : Nat) :
    RemovesPrefix concatenate size removePrefix l n :=
  removesPrefix_of_cases size_eq removePrefix_of_le fun hn => ⟨_, removePrefix_of_lt hn⟩

/-- The contents of the buffers, one by one. -/
def strs (l : BufferList) : List Bytes := l.buffers.map Buffer.str

theorem strs_append (l other : BufferList) : (l.append other).strs = l.strs ++ other.strs :=
  List.map_append

theorem concatenate_eq_strs (l : BufferList) :
    l.concatenate = Sponge.BufferList.concatenate l.strs :=
  List.flatMap_def

theorem size_eq_strs (l : BufferList) : l.size = Sponge.BufferList.size l.strs := by
  unfold size strs Sponge.BufferList.size
  rw [List.map_map]
  rfl

theorem toBuffer_strs (l : BufferList) :
    (l.toBuffer.map Buffer.str).toOption = (Sponge.BufferList.toBuffer l.strs).toOption := by
  unfold toBuffer strs
  rcases l.buffers with _ | ⟨buf, _ | ⟨buf', rest⟩⟩ <;> rfl

end BufferList

/-! ## Lists of views -/

/-- A non-owning temporary view of a discontiguous string. -/
structure BufferViewList where
  views : List Bytes := []
  deriving DecidableEq, Repr

namespace BufferViewList

def ofBufferList (buffers : BufferList) : BufferViewList :=
  { views := buffers.buffers.map Buffer.str }

def size (l : BufferViewList) : Nat := (l.views.map List.length).sum

/-- The views as they are given to a system call. -/
def asIovecs (l : BufferViewList) : List Bytes := l.views

/-- The bytes that the views show. -/
def contents (l : BufferViewList) : Bytes := l.views.flatten

/-- Discard the first `n` bytes of the string. -/
def removePrefix (l : BufferViewList) (n : Nat) : Except Exception BufferViewList := do
  return { views :=
    ← removeLoop id (fun view n => .ok (view.drop n)) "BufferListView::remove_prefix" l.views n }

theorem size_eq (l : BufferViewList) : l.size = l.contents.length :=
  List.length_flatten.symm

theorem removePrefix_of_le {l : BufferViewList} {n : Nat} (hn : n ≤ l.size) :
    ∃ l', l.removePrefix n = .ok l' ∧ l'.contents = l.contents.drop n := by
  rw [size_eq, contents, ← List.flatMap_id] at hn
  obtain ⟨views, heq, hstr⟩ :
      ∃ views, removeLoop id (fun view n => .ok (view.drop n)) "BufferListView::remove_prefix"
          l.views n = .ok views ∧ views.flatMap id = (l.views.flatMap id).drop n :=
    removeLoop_of_le (fun view n _ => ⟨view.drop n, rfl, rfl⟩) hn
  rw [List.flatMap_id, List.flatMap_id] at hstr
  refine ⟨{ views }, ?_, hstr⟩
  unfold removePrefix
  rw [heq]
  rfl

theorem removePrefix_of_lt {l : BufferViewList} {n : Nat} (hn : l.size < n) :
    l.removePrefix n = .error (.outOfRange "BufferListView::remove_prefix") := by
  rw [size_eq, contents, ← List.flatMap_id] at hn
  unfold removePrefix
  rw [removeLoop_of_lt hn]
  rfl

theorem removesPrefix (l : BufferViewList) (n : Nat) :
    RemovesPrefix contents size removePrefix l n :=
  removesPrefix_of_cases size_eq removePrefix_of_le fun hn => ⟨_, removePrefix_of_lt hn⟩

theorem contents_ofBufferList (l : BufferList) : (ofBufferList l).contents = l.concatenate :=
  List.flatMap_def.symm

end BufferViewList

end Util

end Sponge
