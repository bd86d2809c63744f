import ProbICE.Transport

/-! # The session

`PPSession` with the parts of `BaseSession` that it uses. What the session does to its surroundings is
the list `out` of its effects, oldest first: the messages it emits, the signals it raises and what it
posts to the signaling thread.

`SetState` raises a signal in the middle of the handlers. `L` stands for what the listeners do to the
session before `SetState` goes on; a listener that does not call back is `id`.

Descriptions are always `new SessionDescription()`. They have no groups, so `MaybeEnableMuxingSupport`
only writes to the log, and the model keeps no more than whether a description is set. -/

namespace ProbICE

/-- `BaseSession::State`. -/
inductive SessionState where
  | init
  | sentInitiate
  | receivedInitiate
  | sentAccept
  | receivedAccept
  | sentModify
  | receivedModify
  | sentReject
  | receivedReject
  | sentRedirect
  | sentTerminate
  | receivedTerminate
  | inProgress
  | deinit
deriving DecidableEq

/-- `BaseSession::Error`. -/
inductive SessionError where
  | none
  | time
  | response
  | network
  | content
deriving DecidableEq

/-- `PPMessage::type`: the `PPMSG_` numbers, and any other number. -/
inductive PPMessageType where
  | sessionInitiate
  | sessionAccept
  | sessionReject
  | sessionTerminate
  | sessionInfo
  | transportInfo
  | other
deriving DecidableEq

structure PPMessage where
  type : PPMessageType
  argvs : List CString
deriving DecidableEq

inductive SessionEffect where
  | outgoingMessage (msg : PPMessage)
  /-- `SignalStateChanged`, with what its handlers read from the session. -/
  | stateChanged (state : SessionState) (content_name : CString)
  | errorMessage (msg : PPMessage)
  | infoMessage (text : CString)
  | receivedTerminateReason (reason : CString)
  | requestSignaling
  | timeout
  /-- `MSG_STATE` is posted. -/
  | postState
  | postTransport (content_name : CString) (task : TransportTask)
  /-- The pending `MSG_TIMEOUT` is cleared. -/
  | clearTimeout
  /-- `MSG_TIMEOUT` is posted with its delay. -/
  | postTimeout
  | assertFailed (a : Assertion)
  /-- `argvs` is read behind its end. The program has no defined behaviour from here on. -/
  | outOfRange
deriving DecidableEq

/-- The message that an effect emits. -/
def SessionEffect.message? : SessionEffect → Option PPMessage
  | outgoingMessage msg => some msg
  | _ => none

variable [Host]

structure PPSession where
  state : SessionState
  error : SessionError
  local_description : Bool
  remote_description : Bool
  allow_local_ips : Bool
  transports : Std.ExtTreeMap CString TransportProxy
  content_name : CString
  pending_candidates : Bool
  out : List SessionEffect

structure P2PInfo where
  content_name : CString
  candidates : List Candidate

/-- An effect of a transport, seen from its session. -/
def TransportEffect.ofContent (content_name : CString) : TransportEffect → SessionEffect
  | post task => .postTransport content_name task
  | assertFailed a => .assertFailed a

namespace PPSession

/-- The constructor. It leaves `allow_local_ips_` as it is. -/
def new (allow_local_ips : Bool) : PPSession where
  state := .init
  error := .none
  local_description := false
  remote_description := false
  allow_local_ips := allow_local_ips
  transports := ∅
  content_name := []
  pending_candidates := false
  out := []

/-- The messages among the effects of a session. -/
def messages (s : PPSession) : List PPMessage := s.out.filterMap SessionEffect.message?

def emit (s : PPSession) (e : SessionEffect) : PPSession := { s with out := s.out ++ [e] }

/-! ### BaseSession -/

def GetTransportProxy (s : PPSession) (content_name : CString) : Option TransportProxy := s.transports[content_name]?

def GetTransport (s : PPSession) (content_name : CString) : Option Transport :=
  (s.GetTransportProxy content_name).map (·.transport)

/-- An operation of the proxy of a content. -/
def onProxy (s : PPSession) (content_name : CString) (f : TransportProxy → TransportProxy × List TransportEffect) :
    PPSession :=
  match s.GetTransportProxy content_name with
  | none => s
  | some p =>
    { s with
      transports := s.transports.insert content_name (f p).1
      out := s.out ++ (f p).2.map (TransportEffect.ofContent content_name) }

def set_allow_local_ips (s : PPSession) (allow : Bool) : PPSession :=
  { s with
    allow_local_ips := allow
    transports := s.transports.map fun _ p => { p with transport := { p.transport with allow_local_ips := allow } } }

def GetOrCreateTransportProxy (s : PPSession) (content_name : CString) : PPSession :=
  match s.GetTransportProxy content_name with
  | some _ => s
  | none => { s with transports := s.transports.insert content_name (.new content_name (.new s.allow_local_ips)) }

def CreateChannel (s : PPSession) (content_name channel_name : CString) : PPSession :=
  (s.GetOrCreateTransportProxy content_name).onProxy content_name fun p => p.CreateChannel channel_name

def OnSignalingReady (s : PPSession) : PPSession :=
  { s with transports := s.transports.map fun _ p => { p with transport := p.transport.OnSignalingReady } }

def SpeculativelyConnectAllTransportChannels (s : PPSession) : PPSession :=
  s.transports.keys.foldl (fun s k => s.onProxy k TransportProxy.SpeculativelyConnectChannels) s

/-- `SetState`. -/
def SetState (L : PPSession → PPSession) (s : PPSession) (state : SessionState) : PPSession :=
  if state = s.state then s
  else (L ({ s with state }.emit (.stateChanged state s.content_name))).emit .postState

/-! ### Transport information -/

def CreateTransportProxies (s : PPSession) (p2pInfo : P2PInfo) : PPSession :=
  { s with pending_candidates := true }.GetOrCreateTransportProxy p2pInfo.content_name

def OnRemoteCandidates (s : PPSession) (p2pInfo : P2PInfo) : PPSession × Bool :=
  match s.GetTransportProxy p2pInfo.content_name with
  | none => (s, false)
  | some _ =>
    let s := s.onProxy p2pInfo.content_name TransportProxy.CompleteNegotiation
    match s.GetTransport p2pInfo.content_name with
    | none => (s, false)
    | some t =>
      if p2pInfo.candidates.all fun cand => t.VerifyCandidate cand && t.HasChannel cand.name then
        (s.onProxy p2pInfo.content_name fun p =>
          ({ p with transport := p.transport.OnRemoteCandidates p2pInfo.candidates }, []), true)
      else (s, false)

/-- The words of `SendTransportInfoMessage`. -/
def transportInfo (content_name : CString) (candidates : List Candidate) : PPMessage where
  type := .transportInfo
  argvs := content_name :: candidates.flatMap Candidate.words

def SendTransportInfoMessage (s : PPSession) (content_name : CString) (candidates : List Candidate) : PPSession :=
  s.emit (.outgoingMessage (transportInfo content_name candidates))

/-- One round of the loop of `SendAllUnsentTransportInfoMessages`. -/
def SendUnsent (s : PPSession) (content_name : CString) : PPSession :=
  match s.GetTransportProxy content_name with
  | none => s
  | some p =>
    if p.unsent_candidates.length > 0 then
      (s.SendTransportInfoMessage content_name p.unsent_candidates).onProxy content_name fun p =>
        (p.ClearUnsentCandidates, [])
    else s

def SendAllUnsentTransportInfoMessages (s : PPSession) : PPSession :=
  s.transports.keys.foldl SendUnsent { s with pending_candidates := false }

def OnTransportCandidatesReady (s : PPSession) (content_name : CString) (candidates : List Candidate) : PPSession :=
  match s.GetTransportProxy content_name with
  | none => s
  | some _ =>
    if s.pending_candidates then s.onProxy content_name fun p => (p.AddUnsentCandidates candidates, [])
    else s.SendTransportInfoMessage content_name candidates

/-- `OnTransportWritable`. -/
def OnTransportWritable (s : PPSession) (content_name : CString) : PPSession :=
  match s.GetTransport content_name with
  | none => s
  | some t =>
    let s := s.emit .clearTimeout
    if t.HasChannels ∧ ¬ t.writable then s.emit .postTimeout else s

/-! ### Local calls -/

def Initiate (L : PPSession → PPSession) (s : PPSession) (content : CString) : PPSession × Bool :=
  if s.state ≠ .init then (s, false)
  else
    let s := { s with content_name := content, local_description := true }
    let s := s.CreateTransportProxies { content_name := content, candidates := [] }
    let s := s.emit (.outgoingMessage { type := .sessionInitiate, argvs := [content] })
    let s := s.SetState L .sentInitiate
    (s.SpeculativelyConnectAllTransportChannels, true)

def Accept (L : PPSession → PPSession) (s : PPSession) : PPSession × Bool :=
  if s.state ≠ .receivedInitiate then (s, false)
  else
    let s := { s with local_description := true }
    let s := s.emit (.outgoingMessage { type := .sessionAccept, argvs := [s.content_name] })
    let s := s.SetState L .sentAccept
    (s.SendAllUnsentTransportInfoMessages, true)

def Reject (L : PPSession → PPSession) (s : PPSession) : PPSession × Bool :=
  if s.state ≠ .receivedInitiate ∧ s.state ≠ .receivedModify then (s, false)
  else
    let s := s.emit (.outgoingMessage { type := .sessionReject, argvs := [] })
    (s.SetState L .sentReject, true)

def TerminateWithReason (L : PPSession → PPSession) (s : PPSession) : PPSession × Bool :=
  match s.state with
  | .sentTerminate | .receivedTerminate => (s, false)
  | .sentReject | .receivedReject => (s.SetState L .sentTerminate, true)
  | _ => ((s.emit (.outgoingMessage { type := .sessionTerminate, argvs := [] })).SetState L .sentTerminate, true)

/-! ### Incoming messages -/

def CheckState (s : PPSession) (expected : SessionState) : PPSession × Bool :=
  if s.state = expected then (s, true) else (s.emit (.assertFailed .expectedState), false)

/-- `msg.argvs[0]` for the rest of a handler. -/
def withContent (s : PPSession) (msg : PPMessage) (rest : CString → PPSession × Bool) : PPSession × Bool :=
  match msg.argvs[0]? with
  | some content => rest content
  | none => (s.emit .outOfRange, true)

def OnInitiateMessage (L : PPSession → PPSession) (s : PPSession) (msg : PPMessage) : PPSession × Bool :=
  let (s, ok) := s.CheckState .init
  if ¬ ok then (s, false)
  else s.withContent msg fun content =>
    let s := { s with content_name := content, remote_description := true }
    let newP2PInfo : P2PInfo := { content_name := content, candidates := [] }
    let s := s.CreateTransportProxies newP2PInfo
    let s := s.SetState L .receivedInitiate
    if s.state ≠ .sentReject then s.OnRemoteCandidates newP2PInfo else (s, true)

def OnAcceptMessage (L : PPSession → PPSession) (s : PPSession) (msg : PPMessage) : PPSession × Bool :=
  let (s, ok) := s.CheckState .sentInitiate
  if ¬ ok then (s, false)
  else s.withContent msg fun content =>
    let newP2PInfo : P2PInfo := { content_name := content, candidates := [] }
    let s := s.SendAllUnsentTransportInfoMessages
    let s := { s with remote_description := true }
    let s := s.SetState L .receivedAccept
    if s.state ≠ .sentReject then s.OnRemoteCandidates newP2PInfo else (s, true)

def OnRejectMessage (L : PPSession → PPSession) (s : PPSession) (_msg : PPMessage) : PPSession × Bool :=
  let (s, ok) := s.CheckState .sentInitiate
  if ¬ ok then (s, false) else (s.SetState L .receivedReject, true)

def OnInfoMessage (s : PPSession) (msg : PPMessage) : PPSession × Bool :=
  s.withContent msg fun text => (s.emit (.infoMessage text), true)

def OnTerminateMessage (L : PPSession → PPSession) (s : PPSession) (msg : PPMessage) : PPSession × Bool :=
  s.withContent msg fun reason =>
    ((s.emit (.receivedTerminateReason reason)).SetState L .receivedTerminate, true)

/-- The number of candidates in a `pp_transport` message. -/
def nCandidates (argvs : List CString) : Nat := (argvs.length - 1) / 10

/-- The loop of `OnTransportInfoMessage`. -/
def decodeCandidates (argvs : List CString) : Option (List Candidate) :=
  (List.range (nCandidates argvs)).mapM fun i => Candidate.ofWords argvs (i * 10 + 1)

/-- The ports that `OnTransportInfoMessage` hands to `SetPort` and that do not fit. -/
def badPorts (argvs : List CString) : List Nat :=
  (List.range (nCandidates argvs)).filter fun i =>
    (argvs[i * 10 + 1 + 4]?).any fun port => !SocketAddress.portFits (Candidate.portOfWord port)

def OnTransportInfoMessage (s : PPSession) (msg : PPMessage) : PPSession × Bool :=
  s.withContent msg fun content =>
    match decodeCandidates msg.argvs with
    | none => (s.emit .outOfRange, true)
    | some candidates =>
      let s := (badPorts msg.argvs).foldl (fun s _ => s.emit (.assertFailed .portFits)) s
      s.OnRemoteCandidates { content_name := content, candidates }

def OnIncomingMessage (L : PPSession → PPSession) (s : PPSession) (msg : PPMessage) : PPSession :=
  let (s, valid) :=
    match msg.type with
    | .sessionInitiate => s.OnInitiateMessage L msg
    | .sessionInfo => s.OnInfoMessage msg
    | .sessionAccept => s.OnAcceptMessage L msg
    | .sessionReject => s.OnRejectMessage L msg
    | .sessionTerminate => s.OnTerminateMessage L msg
    | .transportInfo => s.OnTransportInfoMessage msg
    | .other => (s, false)
  if valid then s else s.emit (.errorMessage msg)

/-! ### Messages of the signaling thread -/

/-- `OnMessage` with `MSG_STATE`. -/
def OnStateMessage (L : PPSession → PPSession) (s : PPSession) : PPSession :=
  match s.state with
  | .sentAccept | .receivedAccept => s.SetState L .inProgress
  | _ => s

/-- `OnMessage` with `MSG_TIMEOUT`. -/
def OnTimeoutMessage (s : PPSession) : PPSession := { s with error := .time }.emit .timeout

/-- `Transport::OnMessage` for a message of the transport of a content, with what the session does about
    the signal it raises. -/
def OnTransportMessage (s : PPSession) (content_name : CString) (task : TransportTask) : PPSession :=
  match task, s.GetTransport content_name with
  | _, none => s
  | .connecting, some _ => s.OnTransportWritable content_name
  | .candidateReady, some t =>
    let s := s.onProxy content_name fun p =>
      ({ p with transport := p.transport.OnChannelCandidateReady_s.1 }, p.transport.OnChannelCandidateReady_s.2.1)
    if t.ready_candidates = [] then s else s.OnTransportCandidatesReady content_name t.ready_candidates
  | .writeState, some t =>
    let s := s.onProxy content_name fun p => ({ p with transport := p.transport.OnChannelWritableState_s.1 }, [])
    if t.OnChannelWritableState_s.2 then s.OnTransportWritable content_name else s
  | .requestSignaling, some _ => s.emit .requestSignaling

/-! ### Events of the worker thread -/

inductive WorkerEvent where
  /-- A channel has a local candidate. -/
  | candidateReady (candidate : Candidate)
  | writableState (name : CString) (writable : Bool)
  | requestSignaling

/-- An event on a channel of a content. -/
def OnWorkerEvent (s : PPSession) (content_name : CString) (e : WorkerEvent) : PPSession :=
  s.onProxy content_name fun p => p.onTransport fun t =>
    match e with
    | .candidateReady candidate => t.OnChannelCandidateReady candidate
    | .writableState name writable => t.OnChannelWritableState name writable
    | .requestSignaling => (t, [.post .requestSignaling])

end PPSession

end ProbICE
