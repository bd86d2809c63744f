import Mathlib.Logic.Function.Basic
import ProbICE.Candidate
import ProbICE.Lib.Emit

/-! # Transports and transport proxies

A session has a `TransportProxy` for each content, and each proxy has a `Transport` of its own. A proxy
gives its channels an implementation when the negotiation is complete. The functions with a synchronous
`Send` to the worker thread are modelled as plain calls, since the caller waits for them.

An `ASSERT` that fails is an effect and the code behind it runs on, as in a build without `_DEBUG`. In a
build with `_DEBUG` the program ends at the first of these effects. -/

namespace ProbICE

/-- The conditions that the program relies on and that the model can see fail. It asserts all of them but the last. -/
inductive Assertion where
  /-- `CheckState`: `state() == expected`. -/
  | expectedState
  /-- `TransportProxy::CreateChannel`: `GetChannel(name) == NULL`. -/
  | newChannel
  /-- `TransportProxy::CreateChannel`: `!transport_->get()->HasChannel(name)`. -/
  | newImpl
  /-- `SpeculativelyConnectChannels`: the proxy is not negotiated. -/
  | notNegotiated
  /-- `OnChannelCandidateReady_s`: `connect_requested_`. -/
  | connectRequested
  /-- `SocketAddress::SetPort`: the port fits. -/
  | portFits
  /-- `SetImplementation`: the channel that is set has not just been destroyed. It would be used after it is freed, so
      the program has no defined behaviour from here on. -/
  | implAlive
deriving DecidableEq

/-- The messages that a transport posts to the signaling thread. -/
inductive TransportTask where
  | connecting
  | candidateReady
  | writeState
  | requestSignaling
deriving DecidableEq

inductive TransportEffect where
  | post (task : TransportTask)
  | assertFailed (a : Assertion)
deriving DecidableEq

/-- An entry of `Transport::channels_`. -/
structure ChannelMapEntry where
  ref : Nat
  writable : Bool
deriving DecidableEq

section
variable [Host]

/-- The messages that a transport posts to the worker thread. -/
inductive WorkerTask where
  | signalingReady
  | remoteCandidate (candidate : Candidate)

structure Transport where
  channels : Std.ExtTreeMap CString ChannelMapEntry
  destroyed : Bool
  writable : Bool
  connect_requested : Bool
  allow_local_ips : Bool
  ready_candidates : List Candidate
  /-- What has been posted to the worker thread, oldest first. -/
  worker : List WorkerTask

namespace Transport

/-- The constructor, and `set_allow_local_ips`. -/
def new (allow_local_ips : Bool) : Transport where
  channels := ∅
  destroyed := false
  writable := false
  connect_requested := false
  allow_local_ips := allow_local_ips
  ready_candidates := []
  worker := []

def GetChannel (t : Transport) (name : CString) : Option ChannelMapEntry := t.channels[name]?

def HasChannel (t : Transport) (name : CString) : Bool := (t.GetChannel name).isSome

def HasChannels (t : Transport) : Bool := !t.channels.isEmpty

/-- `CreateChannel_w`. A channel that is new when the transport has been told to connect connects at
    once; the first one starts the connecting message. -/
def CreateChannel (t : Transport) (name : CString) : Transport × List TransportEffect :=
  let entry := (t.GetChannel name).getD { ref := 0, writable := false }
  let t := { t with channels := t.channels.insert name { entry with ref := entry.ref + 1 }, destroyed := false }
  (t, if t.connect_requested ∧ t.channels.size = 1 then [.post .connecting] else [])

/-- `DestroyChannel_w`. -/
def DestroyChannel (t : Transport) (name : CString) : Transport × List TransportEffect :=
  match t.GetChannel name with
  | none => (t, [])
  | some entry =>
    let gone := entry.ref - 1 = 0
    let t := { t with channels :=
      if gone then t.channels.erase name else t.channels.insert name { entry with ref := entry.ref - 1 } }
    (t, (if t.connect_requested ∧ ¬ t.HasChannels then [.post .connecting] else []) ++
      if gone then [.post .writeState] else [])

/-- `ConnectChannels_w`. -/
def ConnectChannels (t : Transport) : Transport × List TransportEffect :=
  if t.connect_requested ∨ ¬ t.HasChannels then (t, [])
  else ({ t with connect_requested := true }, [.post .candidateReady, .post .connecting])

def OnSignalingReady (t : Transport) : Transport :=
  if t.destroyed then t else { t with worker := t.worker ++ [.signalingReady] }

def VerifyCandidate (t : Transport) (cand : Candidate) : Bool :=
  if cand.address.IsLocalIP ∧ ¬ t.allow_local_ips then false
  else if cand.address.IsAny then false
  else
    let port := cand.address.port
    if port < 1024 then
      if port ≠ 80 ∧ port ≠ 443 then false else ¬ cand.address.IsPrivateIP
    else true

/-- A candidate for an unknown channel is ignored. -/
def OnRemoteCandidate (t : Transport) (candidate : Candidate) : Transport :=
  if t.destroyed then t
  else if ¬ t.HasChannel candidate.name then t
  else { t with worker := t.worker ++ [.remoteCandidate candidate] }

def OnRemoteCandidates (t : Transport) (candidates : List Candidate) : Transport :=
  candidates.foldl OnRemoteCandidate t

/-! ### Events on the worker thread and their messages -/

/-- `OnChannelCandidateReady`: a channel has found a local candidate. -/
def OnChannelCandidateReady (t : Transport) (candidate : Candidate) : Transport × List TransportEffect :=
  ({ t with ready_candidates := t.ready_candidates ++ [candidate] },
    if t.connect_requested then [.post .candidateReady] else [])

/-- `OnChannelCandidateReady_s`: the candidates that `SignalCandidatesReady` passes on, if any. -/
def OnChannelCandidateReady_s (t : Transport) : Transport × List TransportEffect × List Candidate :=
  ({ t with ready_candidates := [] }, if t.connect_requested then [] else [.assertFailed .connectRequested],
    t.ready_candidates)

/-- A channel becomes writable or stops being so, and `OnChannelWritableState` posts. -/
def OnChannelWritableState (t : Transport) (name : CString) (writable : Bool) : Transport × List TransportEffect :=
  ({ t with channels := t.channels.modify name fun entry => { entry with writable } }, [.post .writeState])

/-- `GetTransportState_s(false)`. -/
def GetTransportState_s (t : Transport) : Bool := t.channels.toList.any fun e => e.2.writable

/-- `OnChannelWritableState_s`: whether `SignalWritableState` is raised. -/
def OnChannelWritableState_s (t : Transport) : Transport × Bool :=
  ({ t with writable := t.GetTransportState_s }, t.writable ≠ t.GetTransportState_s)

end Transport

/-! ### Transport proxies -/

/-- A `TransportChannelProxy`: whether `impl_` is set. -/
structure TransportChannelProxy where
  impl : Bool
deriving DecidableEq

inductive TransportState where
  | init
  | connecting
  | negotiated
deriving DecidableEq

structure TransportProxy where
  content_name : CString
  transport : Transport
  state : TransportState
  channels : Std.ExtTreeMap CString TransportChannelProxy
  unsent_candidates : List Candidate

namespace TransportProxy

def new (content_name : CString) (transport : Transport) : TransportProxy where
  content_name := content_name
  transport := transport
  state := .init
  channels := ∅
  unsent_candidates := []

def GetChannel (p : TransportProxy) (name : CString) : Option TransportChannelProxy := p.channels[name]?

/-- An operation of the transport behind the proxy. -/
def onTransport (p : TransportProxy) (f : Transport → Transport × List TransportEffect) :
    TransportProxy × List TransportEffect :=
  ({ p with transport := (f p.transport).1 }, (f p.transport).2)

def GetOrCreateImpl (p : TransportProxy) (name : CString) : TransportProxy × List TransportEffect :=
  if p.transport.HasChannel name then (p, []) else p.onTransport fun t => t.CreateChannel name

/-- `SetProxyImpl` with `TransportChannelProxy::SetImplementation`, which destroys the channel it replaces, also when that
    is the channel it sets. -/
def SetProxyImpl (p : TransportProxy) (name : CString) : TransportProxy × List TransportEffect :=
  Emit.andThen (p.GetOrCreateImpl name) fun p =>
    Emit.andThen
      (if (p.GetChannel name).any (·.impl) then p.onTransport fun t => t.DestroyChannel name else (p, []))
      fun p =>
        ({ p with channels := p.channels.insert name { impl := true } },
          if p.transport.HasChannel name then [] else [.assertFailed .implAlive])

def CreateChannel (p : TransportProxy) (name : CString) : TransportProxy × List TransportEffect :=
  let failed := (if (p.GetChannel name).isSome then [.assertFailed .newChannel] else []) ++
    if p.transport.HasChannel name then [.assertFailed .newImpl] else []
  Emit.andThen ({ p with channels := p.channels.insert name { impl := false } }, failed) fun p =>
    match p.state with
    | .negotiated => p.SetProxyImpl name
    | .connecting => p.GetOrCreateImpl name
    | .init => (p, [])

def AddUnsentCandidates (p : TransportProxy) (candidates : List Candidate) : TransportProxy :=
  { p with unsent_candidates := p.unsent_candidates ++ candidates }

def ClearUnsentCandidates (p : TransportProxy) : TransportProxy := { p with unsent_candidates := [] }

def SpeculativelyConnectChannels (p : TransportProxy) : TransportProxy × List TransportEffect :=
  let failed := if p.state = .negotiated then [.assertFailed .notNegotiated] else []
  Emit.andThen ({ p with state := .connecting }, failed) fun p =>
    Emit.andThen (Emit.forEach GetOrCreateImpl p p.channels.keys) fun p => p.onTransport Transport.ConnectChannels

def CompleteNegotiation (p : TransportProxy) : TransportProxy × List TransportEffect :=
  if p.state = .negotiated then (p, [])
  else
    let p := { p with state := .negotiated }
    Emit.andThen (Emit.forEach SetProxyImpl p p.channels.keys) fun p => p.onTransport Transport.ConnectChannels

end TransportProxy

end

end ProbICE
