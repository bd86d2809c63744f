import Mathlib.Data.List.Sort
import ProbICE.IceConnection
import ProbICE.Lib.Machine

/-! # The channel that looks for a way

A `P2PTransportChannel` pairs its ports with the candidates of the other side, pings the connections that come of it, and
keeps to the best one. All of it runs on one thread. What is posted to the thread comes in any order here, and the clock
is whatever it is each time that the channel looks at it. -/

namespace ProbICE.Ice
open Stun

/-- The arithmetic of `float`. -/
class Arithmetic extends Host where
  mul : Float → Float → Float
  less : Float → Float → Bool

/-- Whole numbers. -/
@[reducible] def Arithmetic.plain : Arithmetic where
  toHost := Host.plain
  mul x y := Nat.mul x y
  less x y := Nat.blt x y

variable [Arithmetic]

def MAX_CURRENT_WRITABLE_DELAY : UInt32 := 900
def kMinImprovement : Nat := 10

/-! ### Comparisons -/

/-- Smaller values are better. -/
def stateRank : WriteState → Nat
  | .writable => 0
  | .writeConnect => 1
  | .writeTimeout => 2

def combinedPreference (c : Connection) : Host.Float :=
  Arithmetic.mul c.port.local_candidate.preference c.remote_candidate.preference

/-- Positive where `a` is better. The generations are added and subtracted in 32 bits. -/
def CompareConnectionCandidates (a b : Connection) : Int32 :=
  if Arithmetic.less (combinedPreference b) (combinedPreference a) then 1
  else if Arithmetic.less (combinedPreference a) (combinedPreference b) then -1
  else ((a.remote_candidate.generation + a.port.generation) - (b.remote_candidate.generation + b.port.generation)).toInt32

def CompareConnections (a b : Connection) : Int32 :=
  if stateRank a.write_state < stateRank b.write_state then 1
  else if stateRank a.write_state > stateRank b.write_state then -1
  else CompareConnectionCandidates a b

def ConnectionCompare (a b : Connection) : Bool :=
  let cmp := CompareConnections a b
  if 0 < cmp then true else if cmp < 0 then false else a.rtt < b.rtt

def ShouldSwitch (a_conn b_conn : Option Connection) : Bool :=
  if a_conn.map Connection.key = b_conn.map Connection.key then false
  else
    match a_conn, b_conn with
    | some a, some b =>
      let prefs_cmp := CompareConnections a b
      if prefs_cmp < 0 then true else if 0 < prefs_cmp then false else b.rtt.toNat ≤ a.rtt.toNat + kMinImprovement
    | _, _ => true

/-! ### The channel -/

/-- A candidate of the other side, with the port that its pings came to. One that came in a message has none. -/
structure RemoteCandidate where
  candidate : Candidate
  origin_port : Option Nat

structure P2PTransportChannel where
  /-- The ports that the allocator has made ready and that are still there. -/
  allocated : List Port
  /-- How many ports there have been. -/
  ports_constructed : Nat
  /-- The ports of the newest session. -/
  ports : List Nat
  connections : List Connection
  /-- The port and the remote address of each connection that the channel has constructed. -/
  constructed : List (Nat × SocketAddress)
  best_connection : Option Nat
  remote_candidates : List RemoteCandidate
  /-- Which of the sessions are getting all ports. -/
  allocator_sessions : List Bool
  incoming_only : Bool
  waiting_for_signaling : Bool
  pinging_started : Bool
  was_writable : Bool
  was_timed_out : Bool
  readable : Bool
  writable : Bool
  queue : Queue
  /-- How many `MSG_PING` and how many `MSG_ALLOCATE` are waiting. -/
  pings : Nat
  allocates : Nat
  /-- What the clock will say. -/
  times : Nat → UInt32
  /-- What the ports were told to send, oldest first. -/
  sent : List (Nat × SocketAddress × List UInt8)
  /-- The packets that were passed on to the client, oldest first. -/
  received : List (List UInt8)

namespace P2PTransportChannel

/-- The constructor. -/
def new (times : Nat → UInt32) : P2PTransportChannel :=
  { allocated := [], ports_constructed := 0, ports := [], connections := [], constructed := [], best_connection := none,
    remote_candidates := [], allocator_sessions := [], incoming_only := false, waiting_for_signaling := false,
    pinging_started := false, was_writable := false, was_timed_out := true, readable := false, writable := false,
    queue := { sort_dirty := false, sorts := 0, deletes := [] }, pings := 0, allocates := 0, times, sent := [], received := [] }

/-- `talk_base::Time()`. -/
def Time (ch : P2PTransportChannel) : UInt32 := ch.times 0

/-- The clock has been read. -/
def tick (ch : P2PTransportChannel) : P2PTransportChannel := { ch with times := fun n => ch.times (n + 1) }

def best (ch : P2PTransportChannel) : Option Connection :=
  ch.best_connection.bind fun key => ch.connections.find? (·.key = key)

def port (ch : P2PTransportChannel) (key : Nat) : Option Port := ch.allocated.find? (·.key = key)

def connection (ch : P2PTransportChannel) (key : Nat) : Option Connection := ch.connections.find? (·.key = key)

def modifyPort (ch : P2PTransportChannel) (key : Nat) (f : Port → Port) : P2PTransportChannel :=
  { ch with allocated := ch.allocated.map fun p => if p.key = key then f p else p }

/-! #### Work on the connections -/

/-- Each connection in turn. -/
def visit (f : Connection → Queue → Connection × Queue) : List Connection → Queue → List Connection × Queue
  | [], q => ([], q)
  | c :: cs, q =>
    let (c, q) := f c q
    let (cs, q) := visit f cs q
    (c :: cs, q)

def forConnections (ch : P2PTransportChannel) (f : Connection → Queue → Connection × Queue) : P2PTransportChannel :=
  { ch with connections := (visit f ch.connections ch.queue).1, queue := (visit f ch.connections ch.queue).2 }

/-- Work on the connection with a key. -/
def forConnection (ch : P2PTransportChannel) (key : Nat) (f : Connection → Queue → Connection × Queue) :
    P2PTransportChannel :=
  ch.forConnections fun c q => if c.key = key then f c q else (c, q)

def UpdateConnectionStates (ch : P2PTransportChannel) : P2PTransportChannel :=
  ch.tick.forConnections (Connection.UpdateState ch.Time)

def RequestSort (ch : P2PTransportChannel) : P2PTransportChannel := { ch with queue := ch.queue.RequestSort }

def SendTo (ch : P2PTransportChannel) (port : Nat) (addr : SocketAddress) (data : List UInt8) : P2PTransportChannel :=
  { ch with sent := ch.sent ++ [(port, addr, data)] }

/-- `SendTo` for a message, if there is one. -/
def SendMessage (ch : P2PTransportChannel) (port : Nat) (addr : SocketAddress) (msg : Option StunMessage) :
    P2PTransportChannel :=
  match msg with
  | none => ch
  | some msg => ch.SendTo port addr msg.Write

/-! #### Allocation -/

/-- `CancelPendingAllocate`. -/
def CancelPendingAllocate (ch : P2PTransportChannel) : P2PTransportChannel := { ch with allocates := 0 }

def Allocate (ch : P2PTransportChannel) : P2PTransportChannel :=
  { ch.CancelPendingAllocate with waiting_for_signaling := true }

/-- A new session, whose `IsGettingAllPorts` is true after `StartGetAllPorts`. -/
def AddAllocatorSession (ch : P2PTransportChannel) : P2PTransportChannel :=
  { ch with allocator_sessions := ch.allocator_sessions ++ [ch.pinging_started], ports := [] }

def OnSignalingReady (ch : P2PTransportChannel) : P2PTransportChannel :=
  if ch.waiting_for_signaling then
    let ch := { ch with waiting_for_signaling := false }.AddAllocatorSession
    { ch with allocates := ch.allocates + 1 }
  else ch

/-! #### Sorting -/

/-- `std::stable_sort` with a `ConnectionCompare`. -/
def sorted (connections : List Connection) : List Connection :=
  connections.insertionSort fun a b => ¬ ConnectionCompare b a

def GetBestConnectionOnNetwork (ch : P2PTransportChannel) (network : Nat) : Option Connection :=
  match ch.best with
  | some best => if best.port.network = network then some best else ch.connections.find? (·.port.network = network)
  | none => ch.connections.find? (·.port.network = network)

/-- A turn of the loop over the networks. -/
def pruneNetwork (ch : P2PTransportChannel) (network : Nat) : P2PTransportChannel :=
  match ch.GetBestConnectionOnNetwork network with
  | none => ch
  | some primier =>
    if primier.write_state ≠ .writable then ch
    else
      ch.forConnections fun c q =>
        if c.key ≠ primier.key ∧ c.port.network = network ∧ 0 ≤ CompareConnectionCandidates primier c then c.Prune q
        else (c, q)

/-- `SwitchBestConnectionTo`. -/
def SwitchBestConnectionTo (ch : P2PTransportChannel) (conn : Option Connection) : P2PTransportChannel :=
  { ch with best_connection := conn.map Connection.key }

def HandleWritable (ch : P2PTransportChannel) : P2PTransportChannel :=
  let ch :=
    if ¬ ch.writable then
      { ch with allocator_sessions := ch.allocator_sessions.map fun _ => false }.CancelPendingAllocate
    else ch
  { ch with was_writable := true, was_timed_out := false, writable := true }

def HandleNotWritable (ch : P2PTransportChannel) : P2PTransportChannel :=
  let ch := if ch.was_writable then { ch with was_writable := false }.Allocate else ch
  { ch with was_timed_out := false, writable := false }

def HandleAllTimedOut (ch : P2PTransportChannel) : P2PTransportChannel :=
  let ch := if ¬ ch.was_timed_out then ch.Allocate else ch
  { ch with was_timed_out := true, was_writable := false, writable := false }

/-- The connections in the various states decide which of the three it is. -/
def handleStates (ch : P2PTransportChannel) : P2PTransportChannel :=
  if ch.connections.any (·.write_state = .writable) then ch.HandleWritable
  else if ch.connections.any (·.write_state = .writeConnect) then ch.HandleNotWritable
  else ch.HandleAllTimedOut

/-- What `UpdateChannelState` asserts to be `writable()`. -/
def isWritable (ch : P2PTransportChannel) : Bool := ch.best.any (·.write_state = .writable)

def UpdateChannelState (ch : P2PTransportChannel) : P2PTransportChannel :=
  { ch with readable := ch.connections.any (·.read_state = .readable) }

/-- The part of `SortConnections` that chooses the best connection. The networks are those before the connections are
    sorted. -/
def chooseBest (ch : P2PTransportChannel) : P2PTransportChannel :=
  let ch := { ch with connections := sorted ch.connections }
  if ShouldSwitch ch.best ch.connections.head? then ch.SwitchBestConnectionTo ch.connections.head? else ch

/-- `SortConnections`, after the states of the connections are up to date. Changes after this point ask for another
    sort. -/
def settle (ch : P2PTransportChannel) : P2PTransportChannel :=
  let ch := { ch with queue := { ch.queue with sort_dirty := false } }
  let networks := (ch.connections.map (·.port.network)).dedup
  let ch := networks.foldl pruneNetwork ch.chooseBest
  ch.handleStates.UpdateChannelState

def SortConnections (ch : P2PTransportChannel) : P2PTransportChannel := ch.UpdateConnectionStates.settle

/-! #### New connections -/

/-- `UDPPort::CreateConnection` and `StunPort::CreateConnection`, with `AddConnection` and what the channel does with the
    connection. -/
def PortCreateConnection (ch : P2PTransportChannel) (port : Port) (remote_candidate : Candidate) :
    Bool × P2PTransportChannel :=
  if remote_candidate.protocol ≠ cstr "udp" then (false, ch)
  else
    let key := ch.constructed.length
    let address := remote_candidate.address
    (true,
      { ch.modifyPort port.key fun p => { p with connections := p.connections ++ [(address, key)] } with
        connections := ch.connections ++ [.new key port.toPortBase remote_candidate]
        constructed := ch.constructed ++ [(port.key, address)] })

/-- `ReceivedPing` of a connection. -/
def ReceivedPing (ch : P2PTransportChannel) (key : Nat) : P2PTransportChannel :=
  ch.tick.forConnection key (Connection.ReceivedPing ch.Time)

/-- `CreateConnection`: whether there is a connection now that the candidate fits. -/
def CreateConnection (ch : P2PTransportChannel) (port : Nat) (remote_candidate : Candidate) (origin_port : Option Nat)
    (readable : Bool) : Bool × P2PTransportChannel :=
  match ch.port port with
  | none => (false, ch)
  | some port =>
    match (port.GetConnection remote_candidate.address).bind ch.connection with
    | some connection =>
      if ¬ remote_candidate.IsEquivalent connection.remote_candidate then (false, ch)
      else (true, if readable then ch.ReceivedPing connection.key else ch)
    | none =>
      if origin_port = none ∧ ch.incoming_only then (false, ch)
      else
        match ch.PortCreateConnection port remote_candidate with
        | (false, ch') => (false, ch')
        | (true, ch') => (true, if readable then ch'.ReceivedPing ch.constructed.length else ch')

/-- A turn of the loops over the ports, with whether the origin port has a connection. -/
def createOn (remote_candidate : Candidate) (origin_port : Option Nat) (readable : Bool) (s : Bool × P2PTransportChannel)
    (port : Nat) : Bool × P2PTransportChannel :=
  let (created, ch) := s.2.CreateConnection port remote_candidate origin_port readable
  (s.1 || created && origin_port = some port, ch)

/-- `RememberRemoteCandidate`. -/
def RememberRemoteCandidate (ch : P2PTransportChannel) (remote_candidate : Candidate) (origin_port : Option Nat) :
    P2PTransportChannel :=
  let ch :=
    { ch with
      remote_candidates := ch.remote_candidates.filter fun rc => ¬ rc.candidate.generation < remote_candidate.generation }
  if ch.remote_candidates.any (·.candidate.IsEquivalent remote_candidate) then ch
  else
    let ch := { ch with remote_candidates := ch.remote_candidates ++ [{ candidate := remote_candidate, origin_port }] }
    if ¬ ch.pinging_started then
      { ch with pinging_started := true, allocator_sessions := ch.allocator_sessions.map fun _ => true }
    else ch

def CreateConnections (ch : P2PTransportChannel) (remote_candidate : Candidate) (origin_port : Option Nat) (readable : Bool) :
    Bool × P2PTransportChannel :=
  let s := ch.ports.reverse.foldl (createOn remote_candidate origin_port readable) (false, ch)
  let s :=
    match origin_port with
    | none => s
    | some port => if port ∈ ch.ports then s else createOn remote_candidate origin_port readable s port
  (s.1, s.2.RememberRemoteCandidate remote_candidate origin_port)

/-- The first part of `OnPortReady`: the port is remembered. -/
def addPort (ch : P2PTransportChannel) (port : Port) : P2PTransportChannel :=
  { ch with
    allocated := ch.allocated ++ [port], ports_constructed := ch.ports_constructed + 1, ports := ch.ports ++ [port.key] }

/-- A turn of the loop of `OnPortReady`. -/
def tryCandidate (port : Nat) (ch : P2PTransportChannel) (rc : RemoteCandidate) : P2PTransportChannel :=
  (ch.CreateConnection port rc.candidate rc.origin_port false).2

def OnPortReady (ch : P2PTransportChannel) (port : Port) : P2PTransportChannel :=
  ((ch.addPort port).remote_candidates.foldl (tryCandidate port.key) (ch.addPort port)).SortConnections

def OnCandidate (ch : P2PTransportChannel) (candidate : Candidate) : P2PTransportChannel :=
  (ch.CreateConnections candidate none false).2.SortConnections

/-! #### Packets -/

/-- `Port::SendBindingResponse`. -/
def SendBindingResponse (ch : P2PTransportChannel) (port : Nat) (request : StunMessage) (addr : SocketAddress) :
    P2PTransportChannel :=
  match bindingResponse request addr with
  | none => ch
  | some response =>
    let ch := ch.SendTo port addr response.Write
    match (ch.port port).bind (·.GetConnection addr) with
    | none => ch
    | some key => ch.ReceivedPing key

/-- `OnUnknownAddress`. -/
def OnUnknownAddress (ch : P2PTransportChannel) (port : Nat) (address : SocketAddress) (stun_msg : StunMessage)
    (remote_username : CString) : P2PTransportChannel :=
  match ch.remote_candidates.find? (·.candidate.username = remote_username) with
  | none =>
    ch.SendMessage port address
      (bindingErrorResponse stun_msg STUN_ERROR_STALE_CREDENTIALS STUN_ERROR_REASON_STALE_CREDENTIALS)
  | some candidate =>
    match ch.CreateConnections { candidate.candidate with address } (some port) true with
    | (true, ch) => (ch.SendBindingResponse port stun_msg address).SortConnections
    | (false, ch) =>
      -- ASSERT(false)
      ch.SendMessage port address (bindingErrorResponse stun_msg STUN_ERROR_SERVER_ERROR STUN_ERROR_REASON_SERVER_ERROR)

/-- `OnReadPacket` of the channel, which passes the packet on. -/
def SignalReadPacket (ch : P2PTransportChannel) (data : List UInt8) : P2PTransportChannel :=
  { ch with received := ch.received ++ [data] }

/-- `Connection::OnReadPacket`. -/
def OnConnectionReadPacket (ch : P2PTransportChannel) (c : Connection) (data : List UInt8) : P2PTransportChannel :=
  let addr := c.remote_candidate.address
  match GetStunMessage c.port.username_fragment data with
  | .notStun =>
    if c.read_state = .readable then
      let now := ch.Time
      let ch := ch.tick.forConnection c.key fun c q => ({ c with last_data_received := now }, q)
      (ch.SignalReadPacket data).forConnection c.key Connection.startAgain
    else ch
  | .handled reply => ch.SendMessage c.port.key addr reply
  | .message msg remote_username =>
    if remote_username ≠ c.remote_candidate.username then
      if msg.type = STUN_BINDING_REQUEST then
        ch.SendMessage c.port.key addr
          (bindingErrorResponse msg STUN_ERROR_BAD_REQUEST STUN_ERROR_REASON_BAD_REQUEST)
      else ch
    else if msg.type = STUN_BINDING_REQUEST then
      (ch.SendBindingResponse c.port.key msg addr).forConnection c.key Connection.startAgain
    else ch.tick.forConnection c.key (Connection.CheckResponse msg ch.Time)

/-- `Port::OnReadPacket`. -/
def OnPortReadPacket (ch : P2PTransportChannel) (port : Port) (addr : SocketAddress) (data : List UInt8) :
    P2PTransportChannel :=
  match GetStunMessage port.username_fragment data with
  | .notStun => ch
  | .handled reply => ch.SendMessage port.key addr reply
  | .message msg remote_username =>
    if msg.type = STUN_BINDING_REQUEST then ch.OnUnknownAddress port.key addr msg remote_username else ch

/-- `UDPPort::OnReadPacket` and `StunPort::OnReadPacket`, which keeps what comes from its servers. -/
def OnReadPacket (ch : P2PTransportChannel) (port : Port) (remote_addr : SocketAddress) (data : List UInt8) :
    P2PTransportChannel :=
  if port.servers.any remote_addr.Equal then ch
  else
    match (port.GetConnection remote_addr).bind ch.connection with
    | some c => ch.OnConnectionReadPacket c data
    | none => ch.OnPortReadPacket port remote_addr data

/-- `SendPacket`, by `ProxyConnection::Send`. -/
def SendPacket (ch : P2PTransportChannel) (data : List UInt8) : P2PTransportChannel :=
  match ch.best with
  | none => ch
  | some c => if c.write_state ≠ .writable then ch else ch.SendTo c.port.key c.remote_candidate.address data

/-! #### Pings -/

def IsPingable (ch : P2PTransportChannel) (conn : Connection) : Bool :=
  if ¬ conn.connected then false
  else if ch.writable then conn.write_state ≠ .writeTimeout
  else conn.write_state ≠ .writeTimeout ∨ conn.read_state ≠ .readTimeout

/-- A turn of the loop that looks for the oldest pingable connection. -/
def oldest (ch : P2PTransportChannel) (s : Option Connection × UInt32) (conn : Connection) : Option Connection × UInt32 :=
  if ch.IsPingable conn then if conn.last_ping_sent < s.2 then (some conn, conn.last_ping_sent) else s else s

def FindNextPingableConnection (ch : P2PTransportChannel) (now : UInt32) : Option Connection :=
  let oldest_conn := (ch.connections.foldl ch.oldest (none, 0xFFFFFFFF)).1
  match ch.best with
  | none => oldest_conn
  | some best =>
    if best.write_state = .writable ∧ best.last_ping_sent + MAX_CURRENT_WRITABLE_DELAY ≤ now then some best else oldest_conn

/-- `OnPing`. A request that is constructed now gets `id`. The `MSG_PING` that is handled and the one that is posted are
    counted where the message is dispatched. -/
def OnPing (ch : P2PTransportChannel) (id : CString) : P2PTransportChannel :=
  let ch := ch.UpdateConnectionStates
  match ch.FindNextPingableConnection ch.Time with
  | none => ch.tick
  | some conn => ch.tick.tick.forConnection conn.key (Connection.Ping id ch.tick.Time)

/-- `StunRequest::OnMessage` of a request of a connection. -/
def OnStunSend (ch : P2PTransportChannel) (c : Connection) (request : ConnectionRequest) : P2PTransportChannel :=
  let ch' := ch.tick.forConnection c.key fun c q => (c.OnStunSend request.id ch.Time, q)
  if request.timeout then ch'
  else ch'.SendTo c.port.key c.remote_candidate.address (c.pingMessage request.id).Write

/-! #### Ends -/

/-- `Port::CheckTimeout`, with `Destroy` and the `OnPortDestroyed` of the channel. -/
def CheckPortTimeout (ch : P2PTransportChannel) (key : Nat) : P2PTransportChannel :=
  if (ch.port key).any fun port => port.lifetime = .postTimeout ∧ port.connections.isEmpty then
    { ch with allocated := ch.allocated.filter (·.key ≠ key), ports := ch.ports.filter (· ≠ key) }
  else ch

/-- `Port::OnConnectionDestroyed`. -/
def OnPortConnectionDestroyed (ch : P2PTransportChannel) (c : Connection) : P2PTransportChannel :=
  (ch.modifyPort c.port.key fun p =>
    { p with connections := p.connections.filter fun entry => ¬ entry.1.Equal c.remote_candidate.address }).CheckPortTimeout
    c.port.key

/-- `OnConnectionDestroyed`. -/
def OnConnectionDestroyed (ch : P2PTransportChannel) (c : Connection) : P2PTransportChannel :=
  let ch := { ch with connections := ch.connections.filter (·.key ≠ c.key) }
  if ch.best_connection = some c.key then (ch.SwitchBestConnectionTo none).RequestSort else ch

/-- The messages to a connection go with it. -/
def clearDeletes (ch : P2PTransportChannel) (key : Nat) : P2PTransportChannel :=
  { ch with queue := { ch.queue with deletes := ch.queue.deletes.filter (· ≠ key) } }

/-- `Connection::OnMessage`: the port hears of the end of the connection before the channel. -/
def OnDelete (ch : P2PTransportChannel) (c : Connection) : P2PTransportChannel :=
  ((ch.OnPortConnectionDestroyed c).OnConnectionDestroyed c).clearDeletes c.key

/-- `Port::Start`. -/
def StartPort (ch : P2PTransportChannel) (key : Nat) : P2PTransportChannel :=
  ch.modifyPort key fun p => if p.lifetime = .preStart then { p with lifetime := .preTimeout } else p

/-- `Port::OnMessage`. -/
def OnPortTimeout (ch : P2PTransportChannel) (key : Nat) : P2PTransportChannel :=
  (ch.modifyPort key fun p => { p with lifetime := .postTimeout }).CheckPortTimeout key

/-- `PollSocket` of a monitor, which has seen all the connections. -/
def PollSocket (ch : P2PTransportChannel) : P2PTransportChannel :=
  { ch with connections := ch.connections.map fun c => { c with reported := true } }

/-! #### Runs -/

inductive Event where
  /-- `Connect`. -/
  | connect
  | signalingReady
  /-- The allocator has made a port ready. -/
  | portReady (port : Port)
  /-- `Start` of a port. -/
  | startPort (key : Nat)
  | candidate (candidate : Candidate)
  /-- A packet comes to a port. -/
  | packet (port : Nat) (remote_addr : SocketAddress) (data : List UInt8)
  | sendPacket (data : List UInt8)
  /-- `MSG_SORT`. -/
  | sort
  /-- `MSG_PING`. -/
  | ping (id : CString)
  /-- `MSG_ALLOCATE`. -/
  | allocate
  /-- `MSG_STUN_SEND` of a request. -/
  | stunSend (key : Nat) (id : CString)
  /-- `MSG_DELETE` of a connection. -/
  | delete (key : Nat)
  /-- `MSG_CHECKTIMEOUT` of a port. -/
  | portTimeout (key : Nat)
  /-- A monitor polls the connections. -/
  | poll

/-- The next event, if it can happen. An id is not that of another request. -/
def step (ch : P2PTransportChannel) : Event → Option P2PTransportChannel
  | .connect => if ch.pings = 0 then some { ch.Allocate with pings := 1 } else none
  | .signalingReady => some ch.OnSignalingReady
  | .portReady port =>
    if port.key = ch.ports_constructed ∧ port.connections = [] ∧ port.lifetime ≠ .postTimeout then some (ch.OnPortReady port)
    else none
  | .startPort key => some (ch.StartPort key)
  | .candidate candidate => some (ch.OnCandidate candidate)
  | .packet port remote_addr data => (ch.port port).map fun port => ch.OnReadPacket port remote_addr data
  | .sendPacket data => some (ch.SendPacket data)
  | .sort =>
    if 0 < ch.queue.sorts then some { ch with queue := { ch.queue with sorts := ch.queue.sorts - 1 } }.SortConnections
    else none
  | .ping id =>
    if 0 < ch.pings ∧ id.length = kStunTransactionIdLength ∧ ∀ c ∈ ch.connections, ∀ request ∈ c.requests, request.id ≠ id then
      some { ch.OnPing id with pings := ch.pings - 1 + 1 }
    else none
  | .allocate => if 0 < ch.allocates then some { ch with allocates := ch.allocates - 1 }.Allocate else none
  | .stunSend key id => do
    let c ← ch.connection key
    let request ← c.requests.find? (·.id = id)
    some (ch.OnStunSend c request)
  | .delete key => if key ∈ ch.queue.deletes then (ch.connection key).map ch.OnDelete else none
  | .portTimeout key =>
    if (ch.port key).any (·.lifetime = .preTimeout) then some (ch.OnPortTimeout key) else none
  | .poll => some ch.PollSocket

/-- The state after a list of events, if they can all happen. -/
def run (ch : P2PTransportChannel) (es : List Event) : Option P2PTransportChannel := Machine.run step ch es

end P2PTransportChannel

end ProbICE.Ice
