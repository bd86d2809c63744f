import ProbICE.SocketAddress

/-! # Candidates

A candidate travels as ten words. `words` prints them in the order in which `SendTransportInfoMessage`
pushes them, and `ofWords` sets the fields as `OnTransportInfoMessage` does. -/

namespace ProbICE

variable [Host]

structure Candidate where
  name : CString
  protocol : CString
  address : SocketAddress
  preference : Host.Float
  username : CString
  password : CString
  type : CString
  network_name : CString
  generation : UInt32

namespace Candidate

def preference_str (c : Candidate) : CString := Host.showFloat c.preference

def generation_str (c : Candidate) : CString := Decimal.print c.generation.toNat

/-- The words that `SendTransportInfoMessage` pushes for a candidate. -/
def words (c : Candidate) : List CString :=
  [c.name, c.protocol, c.preference_str, c.address.IPAsString, c.address.PortAsString, c.username, c.password, c.type,
    c.network_name, c.generation_str]

/-- The port that `OnTransportInfoMessage` hands to the constructor of `SocketAddress`. -/
def portOfWord (word : CString) : Int := Decimal.atoi (c_str word)

/-- The candidate that `OnTransportInfoMessage` makes of the ten words that begin at `argvs[i]`. `none` is
    a read behind the end of the vector. -/
def ofWords (argvs : List CString) (i : Nat) : Option Candidate := do
  let hostname ← argvs[i + 3]?
  let port ← argvs[i + 4]?
  let name ← argvs[i]?
  let protocol ← argvs[i + 1]?
  let preference ← argvs[i + 2]?
  let username ← argvs[i + 5]?
  let password ← argvs[i + 6]?
  let type ← argvs[i + 7]?
  let network_name ← argvs[i + 8]?
  let generation ← argvs[i + 9]?
  some
    { name, protocol, username, password, type, network_name
      address := .ofHostname hostname (portOfWord port)
      preference := Host.readFloat preference
      generation := Decimal.readUInt32 generation }

end Candidate

end ProbICE
