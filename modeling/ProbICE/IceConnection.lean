import ProbICE.SocketMonitor
import ProbICE.StunMessage

/-! # Ports and their connections

A port is a local socket, and a connection is a port with a remote candidate. A port answers the pings that carry its
username fragment, and a connection is pinged until the answers show that it can be written to. -/

namespace ProbICE

/-- `operator==`. -/
def SocketAddress.Equal (a b : SocketAddress) : Bool :=
  a.ip = b.ip ∧ (IPIsAny a.ip → a.hostname = b.hostname) ∧ a.port = b.port

/-- Neither the network name nor the preference counts. -/
def Candidate.IsEquivalent [Host] (c d : Candidate) : Bool :=
  c.name = d.name ∧ c.protocol = d.protocol ∧ c.address.Equal d.address ∧ c.username = d.username ∧
    c.password = d.password ∧ c.type = d.type ∧ c.generation = d.generation

namespace Ice
open Stun

/-! ### Constants -/

def CONNECTION_READ_TIMEOUT : UInt32 := 30 * 1000
def CONNECTION_WRITE_TIMEOUT : UInt32 := 15 * 1000
def CONNECTION_WRITE_CONNECT_TIMEOUT : UInt32 := 5 * 1000
def CONNECTION_WRITE_CONNECT_FAILURES : Nat := 5

def MINIMUM_RTT : UInt32 := 100
def MAXIMUM_RTT : UInt32 := 3000
def DEFAULT_RTT : UInt32 := MAXIMUM_RTT
def RTT_RATIO : UInt32 := 3

def ConservativeRTTEstimate (rtt : UInt32) : UInt32 := max MINIMUM_RTT (min MAXIMUM_RTT (2 * rtt))

def TooManyFailures (pings_since_last_response : List UInt32) (maximum_failures : Nat) (rtt_estimate now : UInt32) : Bool :=
  match pings_since_last_response[maximum_failures - 1]? with
  | none => false
  | some ping => ping + rtt_estimate < now

def TooLongWithoutResponse (pings_since_last_response : List UInt32) (maximum_time now : UInt32) : Bool :=
  match pings_since_last_response with
  | [] => false
  | ping :: _ => ping + maximum_time < now

/-! ### The packets of a port -/

/-- The message that `SendBindingResponse` writes. -/
def bindingResponse (request : StunMessage) (addr : SocketAddress) : Option StunMessage :=
  request.GetUsername.map fun username =>
    ((StunMessage.new STUN_BINDING_RESPONSE request.transaction_id).AddAttribute
      (.ofBytes STUN_ATTR_USERNAME username)).AddAttribute (.ofAddress STUN_ATTR_MAPPED_ADDRESS addr.ip addr.port)

/-- The message that `SendBindingErrorResponse` writes. -/
def bindingErrorResponse (request : StunMessage) (error_code : UInt32) (reason : CString) : Option StunMessage :=
  request.GetUsername.map fun username =>
    ((StunMessage.new STUN_BINDING_ERROR_RESPONSE request.transaction_id).AddAttribute
      (.ofBytes STUN_ATTR_USERNAME username)).AddAttribute (.ofErrorCode error_code reason)

/-- What `Port::GetStunMessage` makes of a packet. -/
inductive StunPacket where
  /-- It returns false. -/
  | notStun
  /-- There is no message for the caller, but perhaps one that goes back. -/
  | handled (reply : Option StunMessage)
  | message (msg : StunMessage) (remote_username : CString)
deriving DecidableEq

/-- `Port::GetStunMessage`. The username is that of the addressee in front of that of the sender of a request. -/
def GetStunMessage (username_frag : CString) (data : List UInt8) : StunPacket :=
  match Stun.StunMessage.Read data with
  | none => .notStun
  | some (msg, buf) =>
    let username := msg.GetUsername.getD []
    let remote_frag_len := username.length - username_frag.length
    if buf.length > 0 then .notStun
    else if msg.type = STUN_BINDING_REQUEST then
      if username.length < username_frag.length then .handled none
      else if username.take username_frag.length ≠ username_frag then
        .handled (bindingErrorResponse msg STUN_ERROR_BAD_REQUEST STUN_ERROR_REASON_BAD_REQUEST)
      else .message msg (username.drop username_frag.length)
    else if msg.type = STUN_BINDING_RESPONSE ∨ msg.type = STUN_BINDING_ERROR_RESPONSE then
      if username.length < username_frag.length then .handled none
      else if username.drop remote_frag_len ≠ username_frag then .handled none
      else if msg.type = STUN_BINDING_ERROR_RESPONSE ∧ msg.GetErrorCode = none then .handled none
      else .message msg (username.take remote_frag_len)
    else .handled none

/-! ### Ports -/

variable [Host]

inductive Lifetime where
  | preStart
  | preTimeout
  | postTimeout
deriving DecidableEq

/-- What stays the same of a port. -/
structure PortBase where
  /-- Which object it is. -/
  key : Nat
  /-- Which object `network()` is. -/
  network : Nat
  generation : UInt32
  username_fragment : CString
  /-- `candidates()[0]`: the local candidate of all the connections, with the preference of the port. -/
  local_candidate : Candidate
  /-- The STUN servers of a `StunPort`. -/
  servers : List SocketAddress
  fragment : username_fragment.length = 16

structure Port extends PortBase where
  /-- The `key`s of the connections by their remote addresses. -/
  connections : List (SocketAddress × Nat)
  lifetime : Lifetime

def Port.GetConnection (port : Port) (remote_addr : SocketAddress) : Option Nat :=
  (port.connections.find? fun entry => entry.1.Equal remote_addr).map Prod.snd

/-! ### Connections -/

/-- A `ConnectionRequest`, which is sent once. -/
structure ConnectionRequest where
  id : CString
  /-- It has been sent, and waits for its answer. -/
  timeout : Bool
  /-- When it was sent. -/
  tstamp : UInt32
deriving DecidableEq

structure Connection where
  /-- Which object it is. -/
  key : Nat
  port : PortBase
  remote_candidate : Candidate
  read_state : ReadState
  write_state : WriteState
  connected : Bool
  pruned : Bool
  requests : List ConnectionRequest
  rtt : UInt32
  last_ping_sent : UInt32
  last_ping_received : UInt32
  last_data_received : UInt32
  pings_since_last_response : List UInt32
  reported : Bool

/-- What the connections of a channel have told it and posted to its thread. -/
structure Queue where
  sort_dirty : Bool
  /-- How many `MSG_SORT` are waiting. -/
  sorts : Nat
  /-- The connections that a `MSG_DELETE` is waiting for, oldest first. -/
  deletes : List Nat

/-- `P2PTransportChannel::RequestSort`, which `SignalStateChange` of a connection ends in. -/
def Queue.RequestSort (q : Queue) : Queue := if ¬ q.sort_dirty then { q with sorts := q.sorts + 1, sort_dirty := true } else q

namespace Connection

def new (key : Nat) (port : PortBase) (remote_candidate : Candidate) : Connection :=
  { key, port, remote_candidate, read_state := .readTimeout, write_state := .writeConnect, connected := true, pruned := false,
    requests := [], rtt := DEFAULT_RTT, last_ping_sent := 0, last_ping_received := 0, last_data_received := 0,
    pings_since_last_response := [], reported := false }

/-- Both directions have timed out. -/
def IsDead (c : Connection) : Bool := c.read_state = .readTimeout ∧ c.write_state = .writeTimeout

def CheckTimeout (c : Connection) (q : Queue) : Queue := if c.IsDead then { q with deletes := q.deletes ++ [c.key] } else q

def set_read_state (value : ReadState) (c : Connection) (q : Queue) : Connection × Queue :=
  let c' := { c with read_state := value }
  if value ≠ c.read_state then (c', c'.CheckTimeout q.RequestSort) else (c', q)

def set_write_state (value : WriteState) (c : Connection) (q : Queue) : Connection × Queue :=
  let c' := { c with write_state := value }
  if value ≠ c.write_state then (c', c'.CheckTimeout q.RequestSort) else (c', q)

def ReceivedPing (now : UInt32) (c : Connection) (q : Queue) : Connection × Queue :=
  { c with last_ping_received := now }.set_read_state .readable q

/-- What a packet does to a connection that has given up writing. -/
def startAgain (c : Connection) (q : Queue) : Connection × Queue :=
  if ¬ c.pruned ∧ c.write_state = .writeTimeout then c.set_write_state .writeConnect q else (c, q)

def Prune (c : Connection) (q : Queue) : Connection × Queue :=
  if ¬ c.pruned then { c with pruned := true, requests := [] }.set_write_state .writeTimeout q else (c, q)

/-- The three checks of `UpdateState`. -/
def checkReadable (now : UInt32) (c : Connection) (q : Queue) : Connection × Queue :=
  if c.read_state = .readable ∧ c.last_ping_received + CONNECTION_READ_TIMEOUT ≤ now then c.set_read_state .readTimeout q
  else (c, q)

def checkWritable (now : UInt32) (c : Connection) (q : Queue) : Connection × Queue :=
  if c.write_state = .writable ∧
      TooManyFailures c.pings_since_last_response CONNECTION_WRITE_CONNECT_FAILURES (ConservativeRTTEstimate c.rtt) now ∧
      TooLongWithoutResponse c.pings_since_last_response CONNECTION_WRITE_CONNECT_TIMEOUT now then
    c.set_write_state .writeConnect q
  else (c, q)

def checkConnecting (now : UInt32) (c : Connection) (q : Queue) : Connection × Queue :=
  if c.write_state = .writeConnect ∧ TooLongWithoutResponse c.pings_since_last_response CONNECTION_WRITE_TIMEOUT now then
    c.set_write_state .writeTimeout q
  else (c, q)

def UpdateState (now : UInt32) (c : Connection) (q : Queue) : Connection × Queue :=
  let (c, q) := c.checkReadable now q
  let (c, q) := c.checkWritable now q
  c.checkConnecting now q

/-- `Ping`: the request gets the id that it is constructed with. -/
def Ping (id : CString) (now : UInt32) (c : Connection) (q : Queue) : Connection × Queue :=
  ({ c with
      last_ping_sent := now
      pings_since_last_response := c.pings_since_last_response ++ [now]
      requests := c.requests ++ [{ id, timeout := false, tstamp := 0 }] }, q)

/-- The message of a `ConnectionRequest`. -/
def pingMessage (c : Connection) (id : CString) : StunMessage :=
  (StunMessage.new STUN_BINDING_REQUEST id).AddAttribute
    (.ofBytes STUN_ATTR_USERNAME (c.remote_candidate.username ++ c.port.username_fragment))

def OnConnectionRequestResponse (request : ConnectionRequest) (now : UInt32) (c : Connection) (q : Queue) :
    Connection × Queue :=
  let rtt := now - request.tstamp
  let (c, q) := c.set_write_state .writable q
  ({ c with pings_since_last_response := [], rtt := ( RTT_RATIO * c.rtt + rtt) / ( RTT_RATIO + 1) }, q)

def OnConnectionRequestErrorResponse (response : StunMessage) (c : Connection) (q : Queue) : Connection × Queue :=
  let error_code := response.GetErrorCode.getD STUN_ERROR_GLOBAL_FAILURE
  if error_code = STUN_ERROR_UNKNOWN_ATTRIBUTE ∨ error_code = STUN_ERROR_SERVER_ERROR ∨
      error_code = STUN_ERROR_UNAUTHORIZED then (c, q)
  else if error_code = STUN_ERROR_STALE_CREDENTIALS then (c, q)
  else c.set_write_state .writeTimeout q

/-- The request is deleted. -/
def Remove (id : CString) (c : Connection) : Connection := { c with requests := c.requests.filter (·.id ≠ id) }

/-- `StunRequestManager::CheckResponse`. -/
def CheckResponse (msg : StunMessage) (now : UInt32) (c : Connection) (q : Queue) : Connection × Queue :=
  match c.requests.find? (·.id = msg.transaction_id) with
  | none => (c, q)
  | some request =>
    if msg.type = STUN_BINDING_RESPONSE then
      let (c, q) := c.OnConnectionRequestResponse request now q
      (c.Remove msg.transaction_id, q)
    else if msg.type = STUN_BINDING_ERROR_RESPONSE then
      let (c, q) := c.OnConnectionRequestErrorResponse msg q
      (c.Remove msg.transaction_id, q)
    else (c, q)

/-- `StunRequest::OnMessage`, which has sent the request or has waited for its answer in vain. -/
def OnStunSend (id : CString) (now : UInt32) (c : Connection) : Connection :=
  match c.requests.find? (·.id = id) with
  | none => c
  | some request =>
    if request.timeout then c.Remove id
    else
      { c with
        requests := c.requests.map fun request =>
          if request.id = id then { request with timeout := true, tstamp := now } else request }

end Connection

end Ice

end ProbICE
