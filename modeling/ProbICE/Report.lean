import ProbICE.SocketMonitor

/-! # The report of the monitor

On every update the prober writes a block to its log file: a heading, an entry for each connection, and two empty
lines. -/

namespace ProbICE

variable [Host]

def SocketAddress.ToString (a : SocketAddress) : CString := a.IPAsString ++ cstr ":" ++ Decimal.print a.port.toNat

def Candidate.ToString (c : Candidate) : CString :=
  cstr "Cand[" ++ c.name ++ cstr ":" ++ c.type ++ cstr ":" ++ c.protocol ++ cstr ":" ++ c.network_name ++ cstr ":" ++
    c.address.ToString ++ cstr ":" ++ c.username ++ cstr ":" ++ c.password ++ cstr "]"

/-- What `ToString` of a channel reads. -/
structure TransportChannel where
  name : CString
  readable : Bool
  writable : Bool

def TransportChannel.ToString (c : TransportChannel) : CString :=
  cstr "Channel[" ++ c.name ++ cstr "|" ++ cstr (if c.readable then "R" else "_") ++ cstr (if c.writable then "W" else "_") ++
    cstr "]"

/-- The `\t` in a literal. -/
def tab : CString := [0x09]

/-- `std::endl`. -/
def endl : CString := [0x0A]

/-- `ost << b` for a `bool`. -/
def showBool (b : Bool) : CString := if b then cstr "1" else cstr "0"

namespace IceProber

/-- The heading of a block. The two clocks are `asctime` of the local time, whose last character is cut off, and
    `talk_base::Time()`. -/
def heading (asctime : CString) (time : UInt32) (targetChannel : TransportChannel) (evt : CString) : CString :=
  cstr "____________________________________________________" ++ endl ++
    cstr "Update:" ++ asctime.dropLast ++ tab ++ Decimal.print time.toNat ++ endl ++
    cstr "Event:" ++ evt ++ endl ++
    targetChannel.ToString ++ endl ++
    cstr "--------Connections----------------" ++ endl

/-- A turn of the loop over the connections: what it writes, piece by piece. -/
def entry (i : Nat) (connection : ConnectionInfo) : CString :=
  [Decimal.print i, cstr ".",
    tab, cstr "best:", showBool connection.best_connection,
    tab, cstr "writable:", showBool connection.writable,
    tab, cstr "readabel:", showBool connection.readable,
    tab, cstr "timeout:", showBool connection.timeout,
    tab, cstr "new_connection:", showBool connection.new_connection,
    tab, cstr "pruned:", showBool connection.pruned,
    endl,
    tab, tab, cstr "last_ping_sent:", Decimal.print connection.last_ping_sent,
    tab, cstr "last_ping_recvied:", Decimal.print connection.last_ping_sent,
    tab, cstr "rtt:", Decimal.print connection.rtt,
    tab, cstr "sent:", Decimal.print connection.sent_total_bytes,
    tab, cstr "recv:", Decimal.print connection.recv_total_bytes,
    endl,
    tab, cstr "Local:", connection.local_candidate.ToString, endl,
    tab, cstr "Remote:", connection.remote_candidate.ToString, endl].flatten

/-- `(int)connections.size()`. -/
def size (connections : List ConnectionInfo) : Int := Int.bmod connections.length (2 ^ 32)

/-- What the loop writes, turn by turn. -/
def entries (connections : List ConnectionInfo) : List CString := (connections.take (size connections).toNat).mapIdx entry

/-- The block that `onMonitorCallback` writes. -/
def onMonitorCallback (asctime : CString) (time : UInt32) (targetChannel : TransportChannel) (evt : CString)
    (connections : List ConnectionInfo) : CString :=
  heading asctime time targetChannel evt ++ (entries connections).flatten ++ endl ++ endl

end IceProber

end ProbICE
