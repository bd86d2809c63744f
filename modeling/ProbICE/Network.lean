import ProbICE.DialogServer
import ProbICE.Lib.Machine
import ProbICE.Peer

/-! # Clients and their server

Any number of clients, each on a connection of its own. A connection carries the bytes that its client's
socket has accepted and the bytes that the server has written. Both streams arrive in order, in pieces of any
size, and the pieces of different connections in any order. -/

namespace ProbICE
open DialogServer (SockId bytesTo)

structure Network where
  server : DialogServer.State
  /-- The client at the other end of a connection. -/
  clients : SockId → Peer
  /-- The bytes that the server has written and that the client has not read. -/
  down : SockId → List UInt8
  /-- The signals that a client has raised, oldest first. -/
  signals : SockId → List Signal

/-- The socket is connected. -/
def Peer.established (p : Peer) : Peer := { p with sock := p.sock.map fun sock => { sock with state := .connected } }

/-- The first `n` bytes of the socket have left the host. -/
def Peer.leave (p : Peer) (n : Nat) : Peer :=
  { p with sock := p.sock.map fun sock => { sock with outgoing := sock.outgoing.drop n } }

namespace Network

def init (name : SockId → CString) : Network where
  server := .init
  clients c := .new (name c)
  down _ := []
  signals _ := []

/-- A function of a client has returned. -/
def setClient (n : Network) (c : SockId) (result : Peer × List Signal) : Network :=
  { n with
    clients := Function.update n.clients c result.1
    signals := Function.update n.signals c (n.signals c ++ result.2) }

/-- The server handles an event. -/
def serverStep (n : Network) (e : DialogServer.Event) : Option Network :=
  (DialogServer.step n.server e).map fun s =>
    { n with
      server := s
      down := fun d => n.down d ++ bytesTo d (s.written.drop n.server.written.length) }

inductive Event where
  /-- A client starts to connect to the server. -/
  | start (c : SockId)
  /-- The server accepts the connection of a client. -/
  | accept (c : SockId) (remoteAddress : JsString) (remotePort : Nat)
  /-- The connection of a client is established. -/
  | connected (c : SockId)
  /-- `SendMessage` is called. -/
  | send (c : SockId) (to_ : CString) (msg : List CString)
  /-- The server reads the next bytes of a client. -/
  | upload (c : SockId) (bytes : List UInt8)
  /-- A client reads the next bytes of the server. -/
  | download (c : SockId) (temp : List UInt8)

/-- The next event, if it can happen. -/
def step (n : Network) : Event → Option Network
  | .start c => if (n.clients c).sock.isNone then some (n.setClient c ((n.clients c).onStart_w false)) else none
  | .accept c a p => if (n.clients c).sock.isSome then n.serverStep (.connection c a p) else none
  | .connected c =>
    if (n.clients c).sock.map (·.state) = some .connecting then
      some (n.setClient c (n.clients c).established.onConnectEvent)
    else none
  | .send c to_ msg =>
    if (n.clients c).sock.isSome then
      some (n.setClient c (((n.clients c).SendMessage to_ msg).1, ((n.clients c).SendMessage to_ msg).2.1))
    else none
  | .upload c bytes =>
    if bytes ≠ [] ∧ bytes <+: (n.clients c).outgoing then
      { n with clients := Function.update n.clients c ((n.clients c).leave bytes.length) }.serverStep (.data c bytes)
    else none
  | .download c temp =>
    if temp ≠ [] ∧ temp.length ≤ Peer.readSize ∧ temp <+: n.down c ∧ (n.clients c).sock.isSome then
      some ({ n with down := Function.update n.down c ((n.down c).drop temp.length) }.setClient c
        ((n.clients c).onReadEvent temp))
    else none

/-- The state after a list of events, if they can all happen. -/
abbrev run : Network → List Event → Option Network := Machine.run step

end Network

end ProbICE
