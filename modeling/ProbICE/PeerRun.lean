import ProbICE.Lib.Machine
import ProbICE.Peer

/-! # Runs of a peer

The program starts a peer, the socket reports what becomes of the connection, and `SendMessage` may be called at any
time. -/

namespace ProbICE

/-- `SignalOnline` or `SignalOffline`. -/
def Signal.isConnection : Signal → Bool
  | online _ | offline => true
  | _ => false

structure PeerRun where
  peer : Peer
  /-- The signals of the connection so far, oldest first. -/
  signals : List Signal
  /-- Those that were raised since the last `Start`, if there was one. -/
  attempt : Option (List Signal)

namespace PeerRun

def init (id : CString) : PeerRun := { peer := .new id, signals := [], attempt := none }

/-- A function of the peer has returned. -/
def after (r : PeerRun) (result : Peer × List Signal) : PeerRun where
  peer := result.1
  signals := r.signals ++ result.2.filter Signal.isConnection
  attempt := r.attempt.map fun signals => signals ++ result.2.filter Signal.isConnection

inductive Event where
  | start (connectFails : Bool)
  /-- The socket reports the end of its `Connect`. When it has been closed by then, a close event follows. `answers` is
      what its `Send` will answer. -/
  | connect (connected : Bool) (answers : List (Option Nat))
  | close
  | read (temp : List UInt8)
  | send (to_ : CString) (msg : List CString)

/-- The next event, if it can happen. A socket connects once, and a peer with a socket is not started again. -/
def step (r : PeerRun) : Event → Option PeerRun
  | .start connectFails =>
    if r.peer.sock.isNone then some ({ r with attempt := some [] }.after (r.peer.onStart_w connectFails)) else none
  | .connect connected answers =>
    match r.peer.sock with
    | none => none
    | some sock =>
      if sock.state = .connecting then
        let sock := { sock with state := if connected then .connected else .closed, answers }
        some (r.after { r.peer with sock := some sock }.onConnectEvent)
      else none
  | .close => if r.peer.sock.isSome then some (r.after r.peer.onCloseEvent) else none
  | .read temp =>
    if r.peer.sock.isSome ∧ 0 < temp.length ∧ temp.length ≤ Peer.readSize then some (r.after (r.peer.onReadEvent temp))
    else none
  | .send to_ msg => some (r.after ((r.peer.SendMessage to_ msg).1, (r.peer.SendMessage to_ msg).2.1))

/-- The state after a list of events, if they can all happen. -/
abbrev run : PeerRun → List Event → Option PeerRun := Machine.run step

end PeerRun

/-! ### Calls on a socket that stays open -/

namespace Peer

/-- What makes a peer send a frame. -/
inductive Call where
  /-- The connect event. -/
  | login
  | send (to_ : CString) (msg : List CString)

/-- The frame of a call. -/
def callFrame (p : Peer) : Call → CString
  | .login => loginMessage p.id
  | .send to_ msg => msgPayload to_ msg

/-- A call: the peer behind it and the result. The login frame has no result of its own. -/
def call (p : Peer) : Call → Peer × Int
  | .login => (p.onConnectEvent.1, 0)
  | .send to_ msg => ((p.SendMessage to_ msg).1, (p.SendMessage to_ msg).2.2)

end Peer

/-- A peer and the frames whose calls have returned 0, oldest first. -/
structure Outbox where
  peer : Peer
  returned : List CString

namespace Outbox

def call (o : Outbox) (c : Peer.Call) : Outbox where
  peer := (o.peer.call c).1
  returned := if (o.peer.call c).2 = 0 then o.returned ++ [o.peer.callFrame c] else o.returned

/-- The next call, on a socket that is still open. -/
def step (o : Outbox) (c : Peer.Call) : Option Outbox :=
  if o.peer.sock.map (·.state) = some .connected then some (o.call c) else none

/-- The state after a list of calls, if the socket is open for each of them. -/
abbrev run : Outbox → List Peer.Call → Option Outbox := Machine.run step

end Outbox

end ProbICE
