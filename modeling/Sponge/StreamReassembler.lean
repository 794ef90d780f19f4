import Sponge.Basic.Pieces
import Sponge.ByteStream

set_option autoImplicit false

/-! # The stream reassembler

`stream_reassembler.hh` and `stream_reassembler.cc`: substrings of a byte stream arrive out of
order and overlapping, and are written to the output stream in order. Substrings that cannot
be written yet are kept in a map from their start index.

Indices are 64-bit words: sums of an index and a length wrap around. The number of assembled
bytes is a natural number, as the counters of the byte stream are.

Two accesses of the source through iterators that are not valid are read as follows.
Dereferencing the past-the-end iterator finds nothing (`getFrontItr` and the test in front of the
flush loop on an empty map), and in the flush loop the references into an erased element act on a
copy. The source has freed that element: `StreamReassembler.Freed` is the same loop over whatever
it reads, and `Wf.pushSubstring_eq_iff` says for which pushes this makes no difference. -/

namespace Sponge

open Word

/-- The state of a `StreamReassembler`. -/
structure StreamReassembler where
  /-- The first unassembled index. -/
  exIdx : Nat := 0
  unassembledStrs : OrdMap Nat Bytes := OrdMap.empty
  unassembledSize : Nat := 0
  eofSignRecv : Bool := false
  /-- The index after the last byte of the stream, once that is known. -/
  eofIdx : Nat := 0
  output : ByteStream
  capacity : Nat
  deriving DecidableEq

namespace StreamReassembler

def new (capacity : UInt64) : StreamReassembler :=
  { output := ByteStream.new capacity, capacity := capacity.toNat }

/-- `std::string::replace`: the `n` bytes from `pos` on become `d`. -/
def strReplace (s : Bytes) (pos n : Nat) (d : Bytes) : Bytes := s.take pos ++ d ++ s.drop (pos + n)

/-- The stored substrings from the first one whose index is at least `idx`. -/
def getBackItr (r : StreamReassembler) (idx : Nat) : List (Nat × Bytes) :=
  if idx = 0 then r.unassembledStrs.upperBound idx else r.unassembledStrs.upperBound (idx - 1)

/-- The last stored substring whose index is at most `idx`. -/
def getFrontItr (r : StreamReassembler) (idx : Nat) : Option (Nat × Bytes) :=
  let fIt := match r.unassembledStrs.before (add64 idx 1) with
    | some e => some e
    | none => r.unassembledStrs.entries.head?
  match fIt with
  | none => none
  | some e => if idx < e.1 then none else some e

/-- The second half of `cutData`: walk over the stored substrings behind `idx`, removing
those that the new data covers and cutting the data at the first one that reaches further.
`none` means that the data is dropped. -/
def cutBack : List (Nat × Bytes) → StreamReassembler → Nat → Bytes →
    StreamReassembler × Option (Nat × Bytes)
  | [], r, idx, data => (r, some (idx, data))
  | (bIdx, bData) :: bIt, r, idx, data =>
      if add64 idx data.length ≤ bIdx then (r, some (idx, data))
      else if add64 idx data.length ≤ add64 bIdx bData.length then
        if idx = bIdx then
          ({ r with
              unassembledStrs := r.unassembledStrs.insert bIdx
                (strReplace bData 0 data.length data) }, none)
        else
          let n := sub64 (add64 idx data.length) bIdx
          ({ r with
              unassembledStrs := r.unassembledStrs.insert bIdx
                (strReplace bData 0 n ((data.drop (bIdx - idx)).take n)) },
            some (idx, data.take (bIdx - idx)))
      else
        cutBack bIt
          { r with
            unassembledSize := sub64 r.unassembledSize bData.length
            unassembledStrs := r.unassembledStrs.erase bIdx } idx data

/-- Handle overlap by cutting the data: the pair returned is the part that is new and its
index, or `none` when nothing is left to store. -/
def cutData (r : StreamReassembler) (idx : Nat) (data : Bytes) :
    StreamReassembler × Option (Nat × Bytes) :=
  if idx < r.exIdx then
    if add64 idx data.length ≤ r.exIdx then (r, none)
    else cutBack (r.getBackItr r.exIdx) r r.exIdx (data.drop (r.exIdx - idx))
  else
    match r.getFrontItr idx with
    | none => cutBack (r.getBackItr idx) r idx data
    | some (fIdx, fData) =>
        let fTailIdxNext := add64 fIdx fData.length
        if idx < fTailIdxNext then
          if add64 idx data.length ≤ fTailIdxNext then
            ({ r with
                unassembledStrs := r.unassembledStrs.insert fIdx
                  (strReplace fData (idx - fIdx) data.length data) }, none)
          else
            let n := fTailIdxNext - idx
            let r' := { r with
              unassembledStrs := r.unassembledStrs.insert fIdx
                (strReplace fData (idx - fIdx) n (data.take n)) }
            cutBack (r'.getBackItr fTailIdxNext) r' fTailIdxNext (data.drop n)
        else cutBack (r.getBackItr idx) r idx data

/-- The flush loop of `push_substring`: write the stored substrings to the output as long as
they continue it. -/
def flush : List (Nat × Bytes) → StreamReassembler → StreamReassembler
  | [], r => r
  | (currIdx, currData) :: it, r =>
      if r.exIdx < currIdx then r
      else
        let pushed := (r.output.write currData).2
        let exIdx := r.exIdx + pushed
        let output := (r.output.write currData).1
        let r' := { r with
          exIdx := exIdx
          output := if r.eofSignRecv && decide (r.eofIdx ≤ exIdx) then output.endInput else output
          unassembledSize := sub64 r.unassembledSize pushed
          unassembledStrs := r.unassembledStrs.erase currIdx }
        if pushed < currData.length then
          -- the output is full: the rest goes back into the map
          { r' with
            unassembledStrs :=
              r'.unassembledStrs.insertNew (currIdx + pushed) (currData.drop pushed) }
        else flush it r'

/-- Record the end of the stream; the output ends at once when every byte is there. -/
def recordEof (r : StreamReassembler) (eofIdx : Nat) : StreamReassembler :=
  { r with
    eofSignRecv := true
    eofIdx := eofIdx
    output := if eofIdx = r.exIdx then r.output.endInput else r.output }

def firstUnacceptableIdx (r : StreamReassembler) : Nat :=
  sub64 (add64 r.exIdx r.capacity) r.output.bufferSize

/-- Store what is left of the data unless it starts beyond the window. -/
def tryInsert (r : StreamReassembler) (newIdx : Nat) (dataCopy : Bytes) : StreamReassembler :=
  if newIdx < r.firstUnacceptableIdx then
    { r with
      unassembledStrs := r.unassembledStrs.insert newIdx dataCopy
      unassembledSize := add64 r.unassembledSize dataCopy.length }
  else r

/-- Start the flush loop if the first stored substring is the next one. -/
def tryPush (r : StreamReassembler) : StreamReassembler :=
  match r.unassembledStrs.entries with
  | [] => r
  | e :: _ => if r.exIdx = e.1 then flush r.unassembledStrs.entries r else r

/-- Cut the data, store what is left of it and flush; nothing more happens when the data is
dropped. -/
def store (r : StreamReassembler) (data : Bytes) (index : Nat) : StreamReassembler :=
  match r.cutData index data with
  | (r', none) => r'
  | (r', some (newIdx, dataCopy)) => (r'.tryInsert newIdx dataCopy).tryPush

/-- Receive a substring and write any newly contiguous bytes into the stream. -/
def pushSubstring (r : StreamReassembler) (data : Bytes) (index : Nat) (eof : Bool) :
    StreamReassembler :=
  if r.output.inputEnded then r
  else
    let r := if eof then r.recordEof (add64 index data.length) else r
    if data.length = 0 then r else r.store data index

def unassembledBytes (r : StreamReassembler) : Nat := r.unassembledSize

def empty (r : StreamReassembler) : Bool := r.unassembledSize == 0

/-- Read `len` bytes from the output stream. -/
def readOutput (r : StreamReassembler) (len : Nat) : Bytes × StreamReassembler :=
  ((r.output.read len).1, { r with output := (r.output.read len).2 })

/-- Pop `len` bytes from the output stream. -/
def popOutput (r : StreamReassembler) (len : Nat) : StreamReassembler :=
  { r with output := r.output.popOutput len }

end StreamReassembler

end Sponge
