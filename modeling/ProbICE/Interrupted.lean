import ProbICE.Lib.Machine
import ProbICE.SessionRun

/-! # Handlers that are interrupted

`SetState` raises its signal in the middle of a handler. Here a handler stops at the signal, and the rest of it follows
when the listeners have returned. What the listeners do are steps of their own, so one can see what happens to a session
between a change of its state and the end of the handler. -/

namespace ProbICE

/-- What is left of a handler behind the signal of `SetState`. -/
inductive Rest where
  /-- Nothing but the `MSG_STATE` that `SetState` posts. -/
  | post
  | initiate
  | accept
  /-- The rest of `OnInitiateMessage` or `OnAcceptMessage` and of `OnIncomingMessage` around it. -/
  | negotiate (msg : PPMessage) (content : CString)

variable [Host]

namespace PPSession

/-- `SetState` up to its signal, for a state that is not the present one. -/
def change (s : PPSession) (state : SessionState) : PPSession :=
  { s with state }.emit (.stateChanged state s.content_name)

/-- The session at the signal of `SetState`, and what is left of the handler. There is nothing left where the handler
    does not change the state. -/
def upToSignal (s : PPSession) : SessionEvent → Option (PPSession × Rest)
  | .call _ (.initiate content) =>
    if s.state ≠ .init then none
    else
      let s := { s with content_name := content, local_description := true }
      let s := s.CreateTransportProxies { content_name := content, candidates := [] }
      let s := s.emit (.outgoingMessage { type := .sessionInitiate, argvs := [content] })
      some (s.change .sentInitiate, .initiate)
  | .call _ .accept =>
    if s.state ≠ .receivedInitiate then none
    else
      let s := { s with local_description := true }
      let s := s.emit (.outgoingMessage { type := .sessionAccept, argvs := [s.content_name] })
      some (s.change .sentAccept, .accept)
  | .call _ .reject =>
    if s.state ≠ .receivedInitiate ∧ s.state ≠ .receivedModify then none
    else some ((s.emit (.outgoingMessage { type := .sessionReject, argvs := [] })).change .sentReject, .post)
  | .call _ .terminate =>
    match s.state with
    | .sentTerminate | .receivedTerminate => none
    | .sentReject | .receivedReject => some (s.change .sentTerminate, .post)
    | _ => some ((s.emit (.outgoingMessage { type := .sessionTerminate, argvs := [] })).change .sentTerminate, .post)
  | .incoming _ msg =>
    match msg.type, msg.argvs[0]? with
    | .sessionInitiate, some content =>
      if s.state ≠ .init then none
      else
        let s := { s with content_name := content, remote_description := true }
        let s := s.CreateTransportProxies { content_name := content, candidates := [] }
        some (s.change .receivedInitiate, .negotiate msg content)
    | .sessionAccept, some content =>
      if s.state ≠ .sentInitiate then none
      else
        let s := { s.SendAllUnsentTransportInfoMessages with remote_description := true }
        some (s.change .receivedAccept, .negotiate msg content)
    | .sessionReject, _ => if s.state ≠ .sentInitiate then none else some (s.change .receivedReject, .post)
    | .sessionTerminate, some reason =>
      if s.state = .receivedTerminate then none
      else some ((s.emit (.receivedTerminateReason reason)).change .receivedTerminate, .post)
    | _, _ => none
  | .state _ =>
    match s.state with
    | .sentAccept | .receivedAccept => some (s.change .inProgress, .post)
    | _ => none
  | _ => none

/-- The rest of a handler. -/
def finish (s : PPSession) : Rest → PPSession
  | .post => s.emit .postState
  | .initiate => (s.emit .postState).SpeculativelyConnectAllTransportChannels
  | .accept => (s.emit .postState).SendAllUnsentTransportInfoMessages
  | .negotiate msg content =>
    let s := s.emit .postState
    let (s, valid) :=
      if s.state ≠ .sentReject then s.OnRemoteCandidates { content_name := content, candidates := [] } else (s, true)
    if valid then s else s.emit (.errorMessage msg)

/-- The listeners that an event comes with. -/
def SessionEvent.listener : SessionEvent → PPSession → PPSession
  | call L _ | incoming L _ | state L => L
  | _ => id

/-- An event whose listeners do nothing. -/
def SessionEvent.bare : SessionEvent → SessionEvent
  | call _ c => call id c
  | incoming _ msg => incoming id msg
  | state _ => state id
  | e => e

end PPSession

structure Interrupted where
  session : PPSession
  /-- What is left of the handlers that have been interrupted, the innermost one first. -/
  rests : List Rest

namespace Interrupted

def new (allow_local_ips : Bool) : Interrupted := { session := .new allow_local_ips, rests := [] }

inductive Event where
  /-- An event of the session begins, at any time. Its own listeners are not called. -/
  | enter (e : PPSession.SessionEvent)
  /-- The listeners of the last change have returned. -/
  | resume

def step (i : Interrupted) : Event → Option Interrupted
  | .enter e =>
    match i.session.upToSignal e with
    | none => some { i with session := i.session.handle e.bare }
    | some (session, rest) => some { session, rests := rest :: i.rests }
  | .resume =>
    match i.rests with
    | [] => none
    | rest :: rests => some { session := i.session.finish rest, rests }

end Interrupted

end ProbICE
