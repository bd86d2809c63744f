import ProbICE.PPSession

/-! # Runs of a session

The user of a session calls it, messages of the other side come in, and the signaling thread dispatches what
has been posted to it. A listener of `SignalState` may call the session in the middle of a handler, and the
listeners are called again for what that call changes. -/

namespace ProbICE

variable [Host]

namespace PPSession

/-- A call of the session by its user. -/
inductive LocalCall where
  | initiate (content : CString)
  | accept
  | reject
  | terminate
deriving DecidableEq

def callLocal (L : PPSession → PPSession) (s : PPSession) : LocalCall → PPSession
  | .initiate content => (s.Initiate L content).1
  | .accept => (s.Accept L).1
  | .reject => (s.Reject L).1
  | .terminate => (s.TerminateWithReason L).1

/-- Local calls lead from one session to the other. The listeners of each call make local calls themselves. -/
inductive Calls : PPSession → PPSession → Prop where
  | nil (s : PPSession) : Calls s s
  | call {s t : PPSession} (h : Calls s t) {L : PPSession → PPSession} (hL : ∀ u, Calls u (L u)) (c : LocalCall) :
    Calls s (t.callLocal L c)

/-- The listeners of `SignalState` do nothing to the session but call it. -/
def Listener (L : PPSession → PPSession) : Prop := ∀ s, Calls s (L s)

theorem listener_id : Listener id := Calls.nil

/-- What can happen to a session. A change of its state comes with the listeners of that moment. -/
inductive SessionEvent where
  | call (L : PPSession → PPSession) (c : LocalCall)
  | incoming (L : PPSession → PPSession) (msg : PPMessage)
  /-- A `MSG_STATE` is dispatched. -/
  | state (L : PPSession → PPSession)
  /-- A `MSG_TIMEOUT` is dispatched. -/
  | timeout
  /-- A message of the transport of a content is dispatched. -/
  | transport (content_name : CString) (task : TransportTask)
  /-- The transport of a content raises `SignalCandidatesReady`. -/
  | candidatesReady (content_name : CString) (candidates : List Candidate)
  | worker (content_name : CString) (e : WorkerEvent)
  | createChannel (content_name channel_name : CString)
  | signalingReady

/-- A session after an event. -/
def handle (s : PPSession) : SessionEvent → PPSession
  | .call L c => s.callLocal L c
  | .incoming L msg => s.OnIncomingMessage L msg
  | .state L => s.OnStateMessage L
  | .timeout => s.OnTimeoutMessage
  | .transport content_name task => s.OnTransportMessage content_name task
  | .candidatesReady content_name candidates => s.OnTransportCandidatesReady content_name candidates
  | .worker content_name e => s.OnWorkerEvent content_name e
  | .createChannel content_name channel_name => s.CreateChannel content_name channel_name
  | .signalingReady => s.OnSignalingReady

/-- The listeners only call the session, and a message has an argument. A `MSG_STATE` may come at any time, so
    what is shown does not depend on when it was posted. -/
def SessionEvent.Proper : SessionEvent → Prop
  | call L _ | state L => Listener L
  | incoming L msg => Listener L ∧ msg.argvs ≠ []
  | _ => True

/-- A session after a list of events. -/
def run (s : PPSession) (es : List SessionEvent) : PPSession := es.foldl handle s

theorem run_append (s : PPSession) (es₁ es₂ : List SessionEvent) : s.run (es₁ ++ es₂) = (s.run es₁).run es₂ :=
  List.foldl_append

/-- Each event of a run is as it should be for the session that it happens to. -/
def Along (P : PPSession → SessionEvent → Prop) : PPSession → List SessionEvent → Prop
  | _, [] => True
  | s, e :: es => P s e ∧ Along P (s.handle e) es

theorem along_append {P : PPSession → SessionEvent → Prop} {s : PPSession} {es₁ es₂ : List SessionEvent} :
    Along P s (es₁ ++ es₂) ↔ Along P s es₁ ∧ Along P (s.run es₁) es₂ := by
  induction es₁ generalizing s with
  | nil => exact (and_iff_right trivial).symm
  | cons e es₁ ih => exact (and_congr_right fun _ => ih).trans and_assoc.symm

/-- What the program itself sees to. The listeners only call the session, what a transport has dispatched has
    been posted, a transport has candidates after it was told to connect, and no channel is created twice. -/
def Enabled (s : PPSession) : SessionEvent → Prop
  | .call L _ | .state L | .incoming L _ => Listener L
  | .transport content_name task => .postTransport content_name task ∈ s.out
  | .candidatesReady content_name _ => ∃ t, s.GetTransport content_name = some t ∧ t.connect_requested = true
  | .createChannel content_name channel_name =>
    ∀ p, s.GetTransportProxy content_name = some p → p.GetChannel channel_name = none
  | .timeout | .worker _ _ | .signalingReady => True

/-! ### The build with `_DEBUG` -/

end PPSession

/-- The program is at its end: an `ASSERT` has failed, or it has read behind the end of a vector. -/
def SessionEffect.ends : SessionEffect → Bool
  | assertFailed _ | outOfRange => true
  | _ => false

/-- A session after an event, or `none` when the program has ended. -/
def PPSession.handleDebug (s : PPSession) (e : PPSession.SessionEvent) : Option PPSession :=
  if (s.handle e).out.any SessionEffect.ends then none else some (s.handle e)

end ProbICE
