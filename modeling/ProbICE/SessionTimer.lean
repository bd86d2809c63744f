import ProbICE.Lib.Machine
import ProbICE.Prober

/-! # The timer of the session

`MSG_TIMEOUT` is posted with a delay when a transport is not writable, and cleared when the transport changes. The
channels change on the worker thread, and the transport learns of it by messages. Here are the runs in which the
messages of the transport of one content are dispatched, in any order and as often as one likes. -/

namespace ProbICE
variable [Host]

/-- `Transport::writable()` of the transport of a content. -/
def IceProber.transportWritable (p : IceProber) (content_name : CString) : Bool :=
  (p.session.bind fun s => s.GetTransport content_name).any (·.writable)

structure SessionTimer where
  prober : IceProber
  /-- Connecting has been signalled. -/
  signalled : Bool
  /-- A `MSG_TIMEOUT` has been delivered since connecting was signalled or the transport became unwritable, whichever was
      later. -/
  delivered : Bool

namespace SessionTimer

def init (prober : IceProber) : SessionTimer := { prober, signalled := false, delivered := false }

inductive Event where
  /-- A message of the transport is dispatched. -/
  | dispatch (task : TransportTask)
  | worker (e : PPSession.WorkerEvent)
  /-- A `MSG_TIMEOUT` is dispatched. -/
  | timeout

/-- The next event of the transport of a content, if it can happen. -/
def step (content_name : CString) (r : SessionTimer) : Event → Option SessionTimer
  | .dispatch task =>
    let prober := r.prober.dispatch false (.transport content_name task)
    let unwritable := r.prober.transportWritable content_name && !prober.transportWritable content_name
    some
      { prober
        signalled := r.signalled || task = .connecting
        delivered := r.delivered && task ≠ .connecting && !unwritable }
  | .worker e => (r.prober.step (.worker content_name e)).map fun prober => { r with prober }
  | .timeout => (r.prober.step .timeout).map fun prober => { r with prober, delivered := true }

/-- The state after a list of events, if they can all happen. -/
abbrev run (content_name : CString) : SessionTimer → List Event → Option SessionTimer := Machine.run (step content_name)

end SessionTimer

end ProbICE
