import ProbICE.Lib.Machine
import ProbICE.PPSession

/-! # Two sessions that talk to each other

One session initiates and the other one responds. What a session emits reaches the other side in order, and nothing is
lost on the way. The listeners of the sessions only post, so the responder accepts in a call of its own. -/

namespace ProbICE

inductive Side where
  | initiator
  | responder
deriving DecidableEq

def Side.other : Side → Side
  | initiator => responder
  | responder => initiator

theorem Side.eq_or_other (a b : Side) : b = a ∨ b = a.other := by
  cases a <;> cases b <;> decide

@[simp] theorem Side.other_other (a : Side) : a.other.other = a := by
  cases a <;> rfl

section
variable [Host]

/-- A new session with its channels, each with the name of its content. -/
def PPSession.create (allow_local_ips : Bool) (channels : List (CString × CString)) : PPSession :=
  channels.foldl (fun s channel => s.CreateChannel channel.1 channel.2)
    ((PPSession.new false).set_allow_local_ips allow_local_ips)

structure Handshake where
  session : Side → PPSession
  /-- The messages of a side that have not reached the other one, oldest first. -/
  flight : Side → List PPMessage
  /-- The candidates that the transport of a content has signalled, oldest first. -/
  signalled : Side → CString → List Candidate

namespace Handshake

def init (session : Side → PPSession) : Handshake := { session, flight := fun _ => [], signalled := fun _ _ => [] }

/-- A function of the session of a side has returned, and what it has emitted is on its way. -/
def act (h : Handshake) (a : Side) (session : PPSession) : Handshake :=
  { h with
    session := Function.update h.session a session
    flight := Function.update h.flight a (h.flight a ++ session.messages.drop (h.session a).messages.length) }

inductive Event where
  | initiate (content : CString)
  /-- The `Accept` that the responder has posted. -/
  | accept
  /-- The oldest message of a side reaches the other one. -/
  | deliver (a : Side)
  /-- The transport of a content raises `SignalCandidatesReady`. -/
  | candidatesReady (a : Side) (content_name : CString) (candidates : List Candidate)
  /-- A `MSG_STATE` is dispatched. -/
  | state (a : Side)

/-- The next event, if it can happen. A transport signals its candidates when it has been told to connect, and only if
    there are any. -/
def step (h : Handshake) : Event → Option Handshake
  | .initiate content => some (h.act .initiator ((h.session .initiator).Initiate id content).1)
  | .accept => some (h.act .responder ((h.session .responder).Accept id).1)
  | .deliver a =>
    match h.flight a with
    | [] => none
    | msg :: flight =>
      some ({ h with flight := Function.update h.flight a flight }.act a.other
        ((h.session a.other).OnIncomingMessage id msg))
  | .candidatesReady a content_name candidates =>
    if ((h.session a).GetTransport content_name).any (·.connect_requested) ∧ candidates ≠ [] then
      some ({ h with
        signalled := Function.update h.signalled a
          (Function.update (h.signalled a) content_name (h.signalled a content_name ++ candidates)) }.act a
        ((h.session a).OnTransportCandidatesReady content_name candidates))
    else none
  | .state a => some (h.act a ((h.session a).OnStateMessage id))

/-- The state after a list of events, if they can all happen. -/
abbrev run : Handshake → List Event → Option Handshake := Machine.run step

end Handshake

end

end ProbICE
