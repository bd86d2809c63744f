import ProbICE.Candidate
import ProbICE.Lib.Machine

/-! # The monitor of the target channel

A `SocketMonitor` polls the connections of a channel on the thread of the channel, and the prober hears of it on the
signaling thread. A poll holds the lock of the monitor, and so does a `MSG_MONITOR_SIGNAL` until it has its copy of
the list, so each of the two is one step. The prober monitors a `P2PTransportChannel` itself, so what
`GetP2PChannel` answers stays the same. -/

namespace ProbICE

variable [Host]

inductive ReadState where
  | readable
  | readTimeout
deriving DecidableEq

inductive WriteState where
  | writable
  | writeConnect
  | writeTimeout
deriving DecidableEq

structure Connection where
  /-- Which object it is. -/
  key : Nat
  read_state : ReadState
  write_state : WriteState
  reported : Bool
  pruned : Bool
  rtt : UInt32
  sent_total_bytes : Nat
  sent_bytes_second : Nat
  recv_total_bytes : Nat
  recv_bytes_second : Nat
  last_ping_sent : UInt32
  last_ping_received : UInt32
  local_candidate : Candidate
  remote_candidate : Candidate

def Connection.set_reported (c : Connection) (reported : Bool) : Connection := { c with reported }

structure P2PTransportChannel where
  connections : List Connection
  /-- The `key` of the best connection. -/
  best_connection : Option Nat
  /-- How many connections the channel has constructed. -/
  constructed : Nat
  distinct : (connections.map Connection.key).Nodup
  known : ∀ c ∈ connections, c.key < constructed

namespace P2PTransportChannel

def new : P2PTransportChannel where
  connections := []
  best_connection := none
  constructed := 0
  distinct := List.nodup_nil
  known := by simp

/-- What the channel may do to its connections: change them in all but the flag of the monitor, sort them, drop some
    of them, and construct new ones, which nobody has reported. -/
def MayBecome (c c' : P2PTransportChannel) : Prop :=
  c.constructed ≤ c'.constructed ∧
    ∀ x ∈ c'.connections,
      (x.key < c.constructed ∧ ∃ y ∈ c.connections, y.key = x.key ∧ y.reported = x.reported) ∨
        (c.constructed ≤ x.key ∧ x.reported = false)

instance (c c' : P2PTransportChannel) : Decidable (c.MayBecome c') :=
  inferInstanceAs (Decidable (_ ∧ _))

/-- The flags of a whole poll. -/
def set_reported (c : P2PTransportChannel) : P2PTransportChannel where
  connections := c.connections.map fun x => x.set_reported true
  best_connection := c.best_connection
  constructed := c.constructed
  distinct := by
    rw [List.map_map]
    exact c.distinct
  known x hx := by
    obtain ⟨y, hy, rfl⟩ := List.mem_map.mp hx
    exact c.known y hy

end P2PTransportChannel

structure ConnectionInfo where
  best_connection : Bool
  writable : Bool
  readable : Bool
  timeout : Bool
  new_connection : Bool
  pruned : Bool
  rtt : Nat
  sent_total_bytes : Nat
  sent_bytes_second : Nat
  recv_total_bytes : Nat
  recv_bytes_second : Nat
  last_ping_sent : Nat
  last_ping_received : Nat
  local_candidate : Candidate
  remote_candidate : Candidate
  key : Nat

/-- What a poll writes down of a connection, before it sets the flag. -/
def P2PTransportChannel.info (c : P2PTransportChannel) (connection : Connection) : ConnectionInfo where
  best_connection := c.best_connection == some connection.key
  readable := connection.read_state == .readable
  writable := connection.write_state == .writable
  timeout := connection.write_state == .writeTimeout
  new_connection := !connection.reported
  pruned := connection.pruned
  rtt := connection.rtt.toNat
  sent_total_bytes := connection.sent_total_bytes
  sent_bytes_second := connection.sent_bytes_second
  recv_total_bytes := connection.recv_total_bytes
  recv_bytes_second := connection.recv_bytes_second
  last_ping_sent := connection.last_ping_sent.toNat
  last_ping_received := connection.last_ping_received.toNat
  local_candidate := connection.local_candidate
  remote_candidate := connection.remote_candidate
  key := connection.key

/-- What `Start` and `Stop` post to the thread of the channel. -/
inductive MonitorMessage where
  | start
  | stop
deriving DecidableEq

structure SocketMonitor where
  /-- `GetP2PChannel()`. -/
  channel : Option P2PTransportChannel
  connection_infos : List ConnectionInfo
  monitoring : Bool
  /-- `SignalConnectionMonitor` of the channel is connected. -/
  connected : Bool
  /-- The messages posted to the thread of the channel, oldest first. -/
  messages : List MonitorMessage
  /-- How many `MSG_MONITOR_POLL` are waiting for their time. -/
  polls : Nat
  /-- The events in the `MSG_MONITOR_SIGNAL`s posted to the signaling thread, oldest first. -/
  signals : List CString
  /-- What each `PollSocket` was called with, and the list that it left behind. -/
  gathered : List (CString × List ConnectionInfo)
  /-- The `SignalUpdate`s, each of which `onMonitorCallback` writes to the log file. -/
  updates : List (CString × List ConnectionInfo)

namespace SocketMonitor

/-- The monitor of a new channel, which may be a `P2PTransportChannel`. -/
def new (isP2P : Bool) : SocketMonitor where
  channel := if isP2P then some .new else none
  connection_infos := []
  monitoring := false
  connected := false
  messages := []
  polls := 0
  signals := []
  gathered := []
  updates := []

/-- The list that a poll leaves in `connection_infos_`. -/
def gather (m : SocketMonitor) : List ConnectionInfo :=
  match m.channel with
  | none => m.connection_infos
  | some channel => channel.connections.map channel.info

def PollSocket (m : SocketMonitor) (poll : Bool) (evt : CString) : SocketMonitor :=
  { m with
    channel := m.channel.map P2PTransportChannel.set_reported
    connection_infos := m.gather
    signals := m.signals ++ [evt]
    gathered := m.gathered ++ [(evt, m.gather)]
    polls := if poll then m.polls + 1 else m.polls }

/-- `OnMessage` for `MSG_MONITOR_START` and for `MSG_MONITOR_STOP`, which clears what is posted to the thread of the
    channel. -/
def OnMessage (m : SocketMonitor) : MonitorMessage → SocketMonitor
  | .start =>
    if ¬ m.monitoring then
      { m with monitoring := true, connected := m.connected || m.channel.isSome }.PollSocket true (cstr "Poll")
    else m
  | .stop =>
    if m.monitoring then
      { m with monitoring := false, connected := m.connected && !m.channel.isSome, messages := [], polls := 0 }
    else m

def OnConnectionMonitor (m : SocketMonitor) (evt : CString) : SocketMonitor :=
  if m.monitoring then m.PollSocket false evt else m

inductive Event where
  /-- `Start` or `Stop` is called. -/
  | post (msg : MonitorMessage)
  /-- The thread of the channel dispatches the oldest message of the two. -/
  | dispatch
  /-- The time of a `MSG_MONITOR_POLL` has come. -/
  | poll
  /-- The channel raises `SignalConnectionMonitor`. -/
  | connectionMonitor (evt : CString)
  /-- The channel works on its connections. -/
  | work (channel : P2PTransportChannel)
  /-- The signaling thread dispatches the oldest `MSG_MONITOR_SIGNAL`. -/
  | signal

/-- The next event of either thread, if it can happen. -/
def step (m : SocketMonitor) : Event → Option SocketMonitor
  | .post msg => some { m with messages := m.messages ++ [msg] }
  | .dispatch =>
    match m.messages with
    | [] => none
    | msg :: messages => some ({ m with messages }.OnMessage msg)
  | .poll => if 0 < m.polls then some ({ m with polls := m.polls - 1 }.PollSocket true (cstr "Poll")) else none
  | .connectionMonitor evt => if m.connected then some (m.OnConnectionMonitor evt) else none
  | .work channel =>
    match m.channel with
    | none => none
    | some old => if old.MayBecome channel then some { m with channel := some channel } else none
  | .signal =>
    match m.signals with
    | [] => none
    | evt :: signals => some { m with signals, updates := m.updates ++ [(evt, m.connection_infos)] }

/-- The state after a list of events, if they can all happen. -/
def run (m : SocketMonitor) (es : List Event) : Option SocketMonitor := Machine.run step m es

end SocketMonitor

end ProbICE
