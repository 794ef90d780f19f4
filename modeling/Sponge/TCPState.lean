import Sponge.TCPConnection

set_option autoImplicit false

/-! # The official states

`tcp_state.hh` and `tcp_state.cc`: the state of a connection, summarised from its sender, its
receiver and two of its flags, and the twelve official states it is compared with. -/

namespace Sponge

inductive TCPReceiverStateSummary where
  /-- The connection was reset. -/
  | error
  /-- Waiting for SYN: `ackno` is empty. -/
  | listen
  /-- SYN received, and the input to the stream has not ended. -/
  | synRecv
  /-- The input to the stream has ended. -/
  | finRecv
  deriving DecidableEq, Repr

inductive TCPSenderStateSummary where
  /-- The connection was reset. -/
  | error
  /-- Waiting for the stream to begin: no SYN sent. -/
  | closed
  /-- The stream has started but nothing is acknowledged. -/
  | synSent
  /-- The stream is ongoing. -/
  | synAcked
  /-- The FIN is sent but not fully acknowledged. -/
  | finSent
  /-- The stream is finished and fully acknowledged. -/
  | finAcked
  deriving DecidableEq, Repr

/-- Summary of a connection's internal state. -/
structure TCPState where
  sender : TCPSenderStateSummary
  receiver : TCPReceiverStateSummary
  active : Bool := true
  lingerAfterStreamsFinish : Bool := true
  deriving DecidableEq, Repr

namespace TCPState

/-- Official state names. -/
inductive State where
  | listen
  | synRcvd
  | synSent
  | established
  | closeWait
  | lastAck
  | finWait1
  | finWait2
  | closing
  | timeWait
  | closed
  | reset
  deriving DecidableEq, Repr

/-- The summary of an official state. -/
def ofState : State → TCPState
  | .listen => { receiver := .listen, sender := .closed }
  | .synRcvd => { receiver := .synRecv, sender := .synSent }
  | .synSent => { receiver := .listen, sender := .synSent }
  | .established => { receiver := .synRecv, sender := .synAcked }
  | .closeWait =>
      { receiver := .finRecv, sender := .synAcked, lingerAfterStreamsFinish := false }
  | .lastAck => { receiver := .finRecv, sender := .finSent, lingerAfterStreamsFinish := false }
  | .closing => { receiver := .finRecv, sender := .finSent }
  | .finWait1 => { receiver := .synRecv, sender := .finSent }
  | .finWait2 => { receiver := .synRecv, sender := .finAcked }
  | .timeWait => { receiver := .finRecv, sender := .finAcked }
  | .reset =>
      { receiver := .error, sender := .error, lingerAfterStreamsFinish := false, active := false }
  | .closed =>
      { receiver := .finRecv, sender := .finAcked, lingerAfterStreamsFinish := false,
        active := false }

end TCPState

def TCPReceiver.stateSummary (receiver : TCPReceiver) : TCPReceiverStateSummary :=
  if receiver.streamOut.error then .error
  else if receiver.ackno.isNone then .listen
  else if receiver.streamOut.inputEnded then .finRecv
  else .synRecv

def TCPSender.stateSummary (sender : TCPSender) : TCPSenderStateSummary :=
  if sender.stream.error then .error
  else if sender.nextSeqnoAbsolute = 0 then .closed
  else if sender.nextSeqnoAbsolute = sender.bytesInFlight then .synSent
  else if !sender.stream.eof then .synAcked
  else if sender.nextSeqnoAbsolute < sender.stream.bytesWritten + 2 then .synAcked
  else if sender.bytesInFlight ≠ 0 then .finSent
  else .finAcked

/-- The state of a connection. -/
def TCPConnection.state (c : TCPConnection) : TCPState where
  sender := c.sender.stateSummary
  receiver := c.receiver.stateSummary
  active := c.active
  lingerAfterStreamsFinish := if c.active then c.lingerAfterStreamsFinish else false

/-! ## Names -/

def TCPReceiverStateSummary.text : TCPReceiverStateSummary → String
  | .error => "error (connection was reset)"
  | .listen => "waiting for SYN: ackno is empty"
  | .synRecv => "SYN received (ackno exists), and input to stream hasn't ended"
  | .finRecv => "input to stream has ended"

def TCPSenderStateSummary.text : TCPSenderStateSummary → String
  | .error => "error (connection was reset)"
  | .closed => "waiting for stream to begin (no SYN sent)"
  | .synSent => "stream started but nothing acknowledged"
  | .synAcked => "stream ongoing"
  | .finSent => "stream finished (FIN sent) but not fully acknowledged"
  | .finAcked => "stream finished and fully acknowledged"

/-- Summarize the state in a string. -/
def TCPState.name (s : TCPState) : String :=
  "sender=`" ++ s.sender.text ++ "`, receiver=`" ++ s.receiver.text ++ "`, active=" ++
    (if s.active then "1" else "0") ++ ", linger_after_streams_finish=" ++
    (if s.lingerAfterStreamsFinish then "1" else "0")

/-- The state of the connection is one of the official ones. -/
def TCPConnection.Official (c : TCPConnection) : Prop :=
  ∃ s : TCPState.State, c.state = TCPState.ofState s

end Sponge
