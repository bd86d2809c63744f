import ProbICE.Lib.Machine
import ProbICE.Prober

/-! # Starting a prober

`Login` runs on the main thread, and the signaling thread is live from the constructor on. Between two
statements of `Login` anything may happen on the other thread. -/

namespace ProbICE

variable [Host]

/-- A prober while its `Login` is being executed. -/
structure Startup where
  prober : IceProber
  /-- The messages that `Login` has still to post, in the order of its statements. -/
  posts : List Task

namespace Startup

/-- The main thread comes to the first `Post`. -/
def Login (output : Bool) (myName remoteName : CString) : Startup where
  prober := { IceProber.Login output myName remoteName with tasks := [] }
  posts := (IceProber.Login output myName remoteName).tasks

inductive Event where
  /-- The main thread executes the next `Post`. -/
  | post
  /-- Something happens on the signaling thread. -/
  | signaling (e : IceProber.Event)

/-- The signaling thread dispatches the oldest message of its queue. -/
def inOrder : IceProber.Event → Bool
  | .dispatch i _ => i == 0
  | _ => true

/-- The next event of either thread, if it can happen. -/
def step (s : Startup) : Event → Option Startup
  | .post =>
    match s.posts with
    | [] => none
    | task :: posts => some { prober := s.prober.post task, posts }
  | .signaling e => if inOrder e then (s.prober.step e).map fun prober => { s with prober } else none

/-- The state after a list of events, if they can all happen. -/
def run (s : Startup) (es : List Event) : Option Startup := Machine.run step s es

end Startup

end ProbICE
