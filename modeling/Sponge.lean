import Sponge.Basic.Word
import Sponge.Basic.Run
import Sponge.Basic.Loop
import Sponge.Basic.OrdMap
import Sponge.Basic.Pieces
import Sponge.Basic.BigEndian
import Sponge.Basic.OnesComplement
import Sponge.WrappingIntegers
import Sponge.ByteStream
import Sponge.ByteStream.Fifo
import Sponge.StreamReassembler
import Sponge.Reassembler.Cut
import Sponge.Reassembler.Push
import Sponge.Reassembler.Advance
import Sponge.Reassembler.Memory
import Sponge.Reassembler.Shape
import Sponge.Reassembler.Stall
import Sponge.Reassembler.Contents
import Sponge.Reassembler.Access
import Sponge.Reassembler.Live
import Sponge.Reassembler.Freed
import Sponge.Reassembler.Assembly
import Sponge.TCPSegment
import Sponge.TCPReceiver
import Sponge.Receiver.Machine
import Sponge.Receiver.Stream
import Sponge.Receiver.Freed
import Sponge.Receiver.Inert
import Sponge.TCPSender
import Sponge.Sender.Send
import Sponge.Sender.Invariant
import Sponge.Sender.Fill
import Sponge.Sender.Exhausted
import Sponge.Sender.Window
import Sponge.Sender.Ack
import Sponge.Sender.Tracking
import Sponge.Sender.Queue
import Sponge.Sender.Tiling
import Sponge.Sender.InFlight
import Sponge.Sender.Alarm
import Sponge.Sender.Shift
import Sponge.TCPConnection
import Sponge.TCPState
import Sponge.Connection.Machine
import Sponge.Connection.Freed
import Sponge.Connection.Reply
import Sponge.Connection.Flags
import Sponge.Connection.Shutdown
import Sponge.Connection.Finish
import Sponge.Connection.Advertise
import Sponge.Connection.Reset
import Sponge.Connection.Silence
import Sponge.Connection.ZeroWindow
import Sponge.Connection.Backoff
import Sponge.Connection.Abort
import Sponge.Connection.Shift
import Sponge.Connection.Orderly
import Sponge.Connection.Official
import Sponge.Connection.Diagram
import Sponge.Connection.Plain
import Sponge.Network.Outflow
import Sponge.Network.Link
import Sponge.Network.Delivery
import Sponge.Network.Abort
import Sponge.Network.Agreement
import Sponge.Util.Buffer
import Sponge.Util.FileDescriptor
import Sponge.Util.FDWrapper
import Sponge.Util.EventLoop
import Sponge.Util.EventLoop.Contract
import Sponge.Util.EventLoop.Agree
import Sponge.Util.EventLoop.Log
import Sponge.Apps.StreamCopy
import Sponge.Apps.StreamCopy.Loop
import Sponge.Parser
import Sponge.InternetChecksum
import Sponge.TCPWire
import Sponge.IPv4
import Sponge.TCPOverIP
import Sponge.Wire.Layout
import Sponge.Wire.Accept
import Sponge.Wire.PeerLock
import Sponge.Wire.RoundTrip
import Sponge.Wire.Canonical
import Sponge.Wire.Damage
import Sponge.FdAdapter
import Sponge.Adapter.Lawful
import Sponge.Adapter.Damage
import Sponge.Adapter.Peer
import Sponge.TCPSpongeSocket
import Sponge.Socket.Calls
import Sponge.Socket.Relay
import Sponge.Socket.Loop
import Sponge.Socket.Freed
import Sponge.Socket.Pair
import Sponge.Socket.Noise
