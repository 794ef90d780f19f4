import Sponge.TCPSegment

set_option autoImplicit false

/-! # The sender

`tcp_sender.hh` and `tcp_sender.cc`: bytes of the outgoing stream are cut into segments,
unacknowledged bytes are kept for retransmission, and a timer decides when to retransmit.

Sequence numbers and byte counters are natural numbers; the bytes in flight and the space left
in the window are 64-bit differences, and the timer wraps as its fields do. A retransmission
may read behind the last byte of the deque `_unAcked`. What is found there is not determined
by the program; it is the parameter `junk` of the functions that retransmit. -/

namespace Sponge

open Word

/-! ## The unacknowledged bytes -/

/-- The helper class `UnAckQueue`: the unacknowledged bytes and the sizes of the segments they
were sent in, the flags for SYN and FIN, and the window. -/
structure UnAckQueue where
  unAcked : Bytes := []
  unAckedPayloadSize : List Nat := []
  synSent : Bool := false
  synAcked : Bool := false
  finSent : Bool := false
  finAcked : Bool := false
  /-- The absolute sequence number of the first unacknowledged byte. -/
  baseSqn : Nat := 0
  /-- The absolute sequence number of the next byte to be sent. -/
  nextSeqno : Nat := 0
  winSize : Nat := 1
  deriving DecidableEq, Repr

namespace UnAckQueue

/-- The acknowledgment of a sent FIN. -/
def ackSqnForFin (q : UnAckQueue) : Nat := q.nextSeqno

def bytesInFlight (q : UnAckQueue) : Nat := sub64 q.nextSeqno q.baseSqn

/-- No unacknowledged byte; SYN and FIN are not counted. -/
def empty (q : UnAckQueue) : Bool := q.unAcked.isEmpty

def push (q : UnAckQueue) (seg : TCPSegment) : UnAckQueue :=
  { q with
    unAcked := q.unAcked ++ seg.payload
    unAckedPayloadSize := q.unAckedPayloadSize ++ [seg.payload.length] }

/-- The first `n` bytes from the start of the deque, which may be more than it has. -/
def readFront (junk : Nat → UInt8) (s : Bytes) (n : Nat) : Bytes :=
  s.take n ++ (List.range (n - s.length)).map junk

/-- The segment to retransmit: the first one of the queue. -/
def frontSeg (junk : Nat → UInt8) (q : UnAckQueue) (isn : WrappingInt32) : TCPSegment :=
  let toSend := q.unAckedPayloadSize.headD 0
  { header :=
      { seqno := wrap q.baseSqn isn
        -- FIN was sent and this is the last segment
        fin := q.finSent && q.ackSqnForFin - 1 == q.baseSqn + toSend }
    payload := readFront junk q.unAcked toSend }

/-- The loop of `erase`, which walks over the segment sizes. `passed` are the sizes that lie
entirely below the acknowledgment; they are removed from the queue only when the
acknowledgment ends at a segment boundary. Returns the sizes that stay, the new base and the
number of acknowledged bytes. -/
def eraseLoop (ackno : Nat) : List Nat → List Nat → Nat → Nat → List Nat × Nat × Nat
  | passed, [], base, bytesToErase => (passed, base, bytesToErase)
  | passed, size :: rest, base, bytesToErase =>
      let nextSqn := base + size
      if nextSqn = ackno then (rest, ackno, bytesToErase + size)
      else if nextSqn < ackno then
        eraseLoop ackno (passed ++ [size]) rest nextSqn (bytesToErase + size)
      else
        let bytesAcked := ackno - base
        (passed ++ (size - bytesAcked) :: rest, ackno, bytesToErase + bytesAcked)

/-- Erase what is acknowledged. Erasing more bytes than `unAcked` holds is undefined in the source,
and empties the queue here. -/
def erase (q : UnAckQueue) (ackno : Nat) : UnAckQueue :=
  if q.finSent && ackno == q.ackSqnForFin then
    { q with baseSqn := ackno, unAcked := [], unAckedPayloadSize := [] }
  else
    let res := eraseLoop ackno [] q.unAckedPayloadSize q.baseSqn 0
    { q with
      unAckedPayloadSize := res.1
      baseSqn := res.2.1
      unAcked := q.unAcked.drop res.2.2 }

def updateBase (q : UnAckQueue) (ackno : Nat) : UnAckQueue :=
  if ackno ≤ q.baseSqn then q
  else if ackno = 1 then { q with synAcked := true, baseSqn := q.baseSqn + 1 }
  else if q.finSent && ackno == q.ackSqnForFin then
    let q' := { q with finAcked := true }
    if q'.empty then { q' with baseSqn := q'.baseSqn + 1 } else q'.erase ackno
  else if q.empty then q
  else q.erase ackno

end UnAckQueue

/-! ## The retransmission timer -/

structure Timer where
  initialRetransmissionTimeout : Nat
  timeout : Nat
  isTimerRunning : Bool := false
  msSinceBaseSegSent : Nat := 0
  consecutiveRetransmissions : Nat := 0
  /-- False after a window of size zero. -/
  doubleTimeout : Bool := true
  deriving DecidableEq, Repr

namespace Timer

def new (initialTimeout : UInt16) : Timer :=
  { initialRetransmissionTimeout := initialTimeout.toNat, timeout := initialTimeout.toNat }

def startTimer (t : Timer) : Timer :=
  { t with
    isTimerRunning := true
    msSinceBaseSegSent := 0
    consecutiveRetransmissions := 0
    timeout := t.initialRetransmissionTimeout }

def stopTimer (t : Timer) : Timer := { t.startTimer with isTimerRunning := false }

/-- The timer part of a retransmission. -/
def retransmitted (t : Timer) : Timer :=
  { t with
    timeout := if t.doubleTimeout then t.timeout * 2 % 2 ^ 32 else t.timeout
    msSinceBaseSegSent := 0
    consecutiveRetransmissions := (t.consecutiveRetransmissions + 1) % 2 ^ 32 }

/-- The timer after `ms` milliseconds. -/
def elapse (t : Timer) (ms : Nat) : Timer :=
  { t with msSinceBaseSegSent := add64 t.msSinceBaseSegSent ms }

/-- Letting `ms` milliseconds pass makes the timer expire. -/
def expires (t : Timer) (ms : Nat) : Bool :=
  t.isTimerRunning && decide (t.timeout ≤ (t.elapse ms).msSinceBaseSegSent)

/-- Only a running timer expires. -/
theorem running_of_expires {t : Timer} {ms : Nat} (h : t.expires ms = true) :
    t.isTimerRunning = true := by
  simp only [expires, Bool.and_eq_true] at h
  exact h.1

end Timer

/-! ## The sender -/

structure TCPSender where
  timer : Timer
  isn : WrappingInt32
  /-- The outgoing bytes that have not yet been sent. -/
  stream : ByteStream
  /-- The segments that the sender wants sent. -/
  segmentsOut : List TCPSegment := []
  unAckQueue : UnAckQueue := {}
  deriving DecidableEq, Repr

namespace TCPSender

def new (capacity : UInt64) (retxTimeout : UInt16) (isn : WrappingInt32) : TCPSender :=
  { timer := Timer.new retxTimeout, isn := isn, stream := ByteStream.new capacity }

def bytesInFlight (s : TCPSender) : Nat := s.unAckQueue.bytesInFlight

def remainSpace (s : TCPSender) : Nat := sub64 s.unAckQueue.winSize s.unAckQueue.bytesInFlight

def finAcked (s : TCPSender) : Bool := s.unAckQueue.finAcked

def nextSeqnoAbsolute (s : TCPSender) : Nat := s.unAckQueue.nextSeqno

def consecutiveRetransmissions (s : TCPSender) : Nat := s.timer.consecutiveRetransmissions

/-- Send a segment that has never been sent before. -/
def firstPush (s : TCPSender) (seg : TCPSegment) : TCPSender :=
  { s with
    segmentsOut := s.segmentsOut ++ [seg]
    timer := if s.timer.isTimerRunning then s.timer else s.timer.startTimer }

/-- Make the SYN segment, for the first transmission or for a retransmission. -/
def makeSynSeg (s : TCPSender) : TCPSegment × TCPSender :=
  let h : TCPHeader := { seqno := wrap 0 s.isn, syn := true }
  let s' :=
    if s.unAckQueue.synSent then s
    else { s with
      unAckQueue :=
        { s.unAckQueue with synSent := true, nextSeqno := s.unAckQueue.nextSeqno + 1 } }
  if s'.stream.eof && decide (2 ≤ s'.remainSpace) then
    ({ header := { h with fin := true } },
      { s' with
        unAckQueue :=
          { s'.unAckQueue with finSent := true, nextSeqno := s'.unAckQueue.nextSeqno + 1 } })
  else ({ header := h }, s')

def makeFirstFinSeg (s : TCPSender) : TCPSegment × TCPSender :=
  ({ header := { seqno := wrap s.unAckQueue.nextSeqno s.isn, fin := true } },
    { s with
      unAckQueue :=
        { s.unAckQueue with nextSeqno := s.unAckQueue.nextSeqno + 1, finSent := true } })

def makeNotFirstFinSeg (s : TCPSender) : TCPSegment :=
  { header := { fin := true, seqno := wrap (s.unAckQueue.ackSqnForFin - 1) s.isn } }

def hasContentToPush (s : TCPSender) : Bool :=
  decide (0 < s.stream.bufferSize) || (s.stream.eof && !s.unAckQueue.finSent)

def makePayLoadSeg (s : TCPSender) : TCPSegment × TCPSender :=
  let toSend := min s.remainSpace TCPConfig.maxPayloadSize
  let payload := (s.stream.read toSend).1
  let s' := { s with stream := (s.stream.read toSend).2 }
  let fin := s'.stream.eof && decide (0 < sub64 s'.remainSpace payload.length)
  ({ header := { seqno := wrap s.unAckQueue.nextSeqno s.isn, fin := fin }, payload := payload },
    { s' with
      unAckQueue :=
        { s'.unAckQueue with
          finSent := s'.unAckQueue.finSent || fin
          nextSeqno := s'.unAckQueue.nextSeqno + (if fin then 1 else 0) + payload.length } })

/-- Send the first SYN. -/
def sendSyn (s : TCPSender) : TCPSender := s.makeSynSeg.2.firstPush s.makeSynSeg.1

/-- Send a FIN of its own. -/
def sendFin (s : TCPSender) : TCPSender := s.makeFirstFinSeg.2.firstPush s.makeFirstFinSeg.1

/-- One round of the loop of `fill_window`. -/
def sendPayLoad (s : TCPSender) : TCPSender :=
  let seg := s.makePayLoadSeg.1
  let s' := s.makePayLoadSeg.2
  { s' with unAckQueue := s'.unAckQueue.push seg }.firstPush seg

/-- The loop of `fill_window`, with a bound on the number of rounds. -/
def sendLoop : Nat → TCPSender → TCPSender
  | 0, s => s
  | n + 1, s =>
      if 0 < s.remainSpace ∧ s.hasContentToPush = true then sendLoop n s.sendPayLoad else s

/-- Send segments to fill as much of the window as possible. Every round of the loop takes a
byte from the stream or sends the FIN, so one more round than there are buffered bytes is
enough. -/
def fillWindow (s : TCPSender) : TCPSender :=
  if s.unAckQueue.finAcked || (s.unAckQueue.finSent && !s.unAckQueue.finAcked) then s
  else if !s.unAckQueue.synSent then s.sendSyn
  else
    let s' :=
      if !s.unAckQueue.finSent && s.stream.eof && decide (1 < s.remainSpace) then s.sendFin
      else s
    if s'.unAckQueue.synSent && !s'.unAckQueue.synAcked then s'
    else sendLoop (s'.stream.bufferSize + 1) s'

def setWindowSize (s : TCPSender) (size : UInt16) : TCPSender :=
  { s with
    timer := { s.timer with doubleTimeout := size != 0 }
    unAckQueue := { s.unAckQueue with winSize := if 0 < size.toNat then size.toNat else 1 } }

/-- The absolute acknowledgment number that the sender reads from a 32-bit one. -/
def absAckno (s : TCPSender) (ackno : WrappingInt32) : Nat :=
  unwrap ackno s.isn s.unAckQueue.baseSqn

/-- A new acknowledgment was received. -/
def ackReceived (s : TCPSender) (ackno : WrappingInt32) (windowSize : UInt16) : TCPSender :=
  let s := s.setWindowSize windowSize
  let absAckno := s.absAckno ackno
  if (s.unAckQueue.finSent && decide (s.unAckQueue.ackSqnForFin < absAckno)) ||
      decide (absAckno ≤ 0) || decide (absAckno < s.unAckQueue.baseSqn) then s
  else if s.unAckQueue.baseSqn < absAckno then
    let q := s.unAckQueue.updateBase absAckno
    { s with
      unAckQueue := q
      timer :=
        if !q.empty || (q.finSent && !q.finAcked) then s.timer.startTimer else s.timer.stopTimer }
  else s

/-- The segment that a timeout retransmits, and the sender after making it. -/
def retransmitSeg (junk : Nat → UInt8) (s : TCPSender) : TCPSegment × TCPSender :=
  if s.unAckQueue.finSent && !s.unAckQueue.finAcked then
    if s.unAckQueue.empty then (s.makeNotFirstFinSeg, s)
    else (s.unAckQueue.frontSeg junk s.isn, s)
  else if s.unAckQueue.synSent && !s.unAckQueue.synAcked then s.makeSynSeg
  else if !s.unAckQueue.empty then (s.unAckQueue.frontSeg junk s.isn, s)
  else ({}, s)

def timeoutRetransmit (junk : Nat → UInt8) (s : TCPSender) : TCPSender :=
  if s.unAckQueue.finAcked then s
  else
    let s' := (s.retransmitSeg junk).2
    { s' with
      segmentsOut := s'.segmentsOut ++ [(s.retransmitSeg junk).1]
      timer := s'.timer.retransmitted }

def tick (junk : Nat → UInt8) (s : TCPSender) (msSinceLastTick : Nat) : TCPSender :=
  if s.timer.isTimerRunning then
    let s' := { s with timer := s.timer.elapse msSinceLastTick }
    if s'.timer.timeout ≤ s'.timer.msSinceBaseSegSent then s'.timeoutRetransmit junk else s'
  else s

/-- Generate a segment without payload and flags. -/
def sendEmptySegment (s : TCPSender) : TCPSender :=
  { s with
    segmentsOut :=
      s.segmentsOut ++ [{ header := { seqno := wrap s.unAckQueue.nextSeqno s.isn } }] }

/-- Write to the outgoing stream; also returns the number of bytes accepted. -/
def writeStream (s : TCPSender) (data : Bytes) : TCPSender × Nat :=
  ({ s with stream := (s.stream.write data).1 }, (s.stream.write data).2)

def endStream (s : TCPSender) : TCPSender := { s with stream := s.stream.endInput }

end TCPSender

end Sponge
