import ProbICE.Lib.LocalArray
import ProbICE.SocketMonitor
import ProbICE.Stun

/-! # The way of a packet

A datagram comes from the socket by way of its connection and the target channel to the prober, which copies it to a
local array and prints it. The sender chooses the length. -/

namespace ProbICE

variable [Host]

namespace AsyncUDPSocket

def BUF_SIZE : Nat := 64 * 1024

/-- `OnReadEvent`: what `RecvFrom` leaves in `buf_`. What does not fit is lost. -/
def OnReadEvent (datagram : List UInt8) : List UInt8 := datagram.take BUF_SIZE

end AsyncUDPSocket

/-- `Connection::OnReadPacket`: the packet that `SignalReadPacket` carries. A STUN message is for the connection itself. -/
def Connection.OnReadPacket (connection : Connection) (data : List UInt8) : Option (List UInt8) :=
  if ¬ GetStunMessage data then
    if connection.read_state = .readable then some data else none
  else none

namespace P2PTransportChannel

def FindConnection (channel : P2PTransportChannel) (connection : Connection) : Bool :=
  channel.connections.any fun c => c.key = connection.key

/-- `OnReadPacket`: the packet that `SignalReadPacket` of the channel carries. -/
def OnReadPacket (channel : P2PTransportChannel) (connection : Connection) (data : List UInt8) : Option (List UInt8) :=
  if ¬ channel.FindConnection connection then none else some data

end P2PTransportChannel

namespace IceProber

/-- The string that is printed, or the index of the first access outside of `temp`. Nobody has set `temp` before. -/
def onChannelReadPacket (temp : Vector UInt8 128) (data : List UInt8) : Except Nat CString := do
  let temp ← LocalArray.memcpy temp 0 data
  let temp ← LocalArray.write temp data.length 0
  let tempStr ← LocalArray.text 0 temp
  return cstr "Get packet:" ++ tempStr

/-- What the prober does about a datagram that comes in on a connection, if it comes to the prober. -/
def receive (temp : Vector UInt8 128) (channel : P2PTransportChannel) (connection : Connection) (datagram : List UInt8) :
    Option (Except Nat CString) :=
  ((connection.OnReadPacket (AsyncUDPSocket.OnReadEvent datagram)).bind (channel.OnReadPacket connection)).map
    (onChannelReadPacket temp)

end IceProber

end ProbICE
