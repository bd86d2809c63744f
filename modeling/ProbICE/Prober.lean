import ProbICE.Peer
import ProbICE.PPSession

/-! # The prober

`IceProber` connects a `Peer` with a `PPSession`. Its handlers run on the signaling thread: events of the
socket of the `Peer`, and the messages posted to the thread. The listeners of the session never call it
back while it changes its state, so the prober handles the effects of a session function when that
function has returned, in the order in which they were emitted. -/

namespace ProbICE

/-- The messages posted to the signaling thread, other than the delayed ones. -/
inductive Task where
  /-- `MSG_START` of the peer. -/
  | start
  | createSession
  | doInitiate
  | doAccept
  /-- `MSG_STATE` of the session. -/
  | state
  | transport (content_name : CString) (task : TransportTask)
deriving DecidableEq

/-- What an observer of the prober sees. -/
inductive Output where
  | print (msg : CString)
  /-- `SignalExit`. -/
  | exit (code : Int)
  /-- The handlers of the target channel are connected. -/
  | connectTarget
  /-- A `SocketMonitor` is started. -/
  | startMonitor
  /-- `SendPacket` of the target channel is called. -/
  | sendPacket (data : CString)
  | assertFailed (a : Assertion)
  /-- A vector is read behind its end. -/
  | outOfRange
  /-- `sock_` is used while it is `NULL`. -/
  | nullSocket
  /-- `session_` is used while it is `NULL`. -/
  | nullSession
  /-- `targetTransport_` is used while it is `NULL`. -/
  | nullTransport
deriving DecidableEq

variable [Host]

structure IceProber where
  session : Option PPSession
  peer : Peer
  remote_online : Bool
  content_name : CString
  channel_name : CString
  remote_name : CString
  /-- The log file is open. -/
  output : Bool
  /-- `targetChannel_` is set. -/
  targetChannel : Bool
  /-- The messages posted to the signaling thread, oldest first. -/
  tasks : List Task
  /-- How many `MSG_TIMEOUT` and how many `MSG_DO_DATA` are waiting for their time. -/
  timeouts : Nat
  dataTimers : Nat
  log : List Output

namespace IceProber

def post (p : IceProber) (task : Task) : IceProber := { p with tasks := p.tasks ++ [task] }

def record (p : IceProber) (o : Output) : IceProber := { p with log := p.log ++ [o] }

/-- The constructor and `Login`. -/
def Login (output : Bool) (myName remoteName : CString) : IceProber where
  session := none
  peer := .new myName
  remote_online := false
  content_name := cstr "data"
  channel_name := cstr "prober"
  remote_name := remoteName
  output := output
  targetChannel := false
  tasks := [.start, .createSession]
  timeouts := 0
  dataTimers := 0
  log := []

/-! ### Handlers of the session's signals -/

/-- The word that `onOutgoingMessage` sends for a type of message. -/
def msgType : PPMessageType → Option CString
  | .sessionInitiate => some (cstr "pp_initiate")
  | .sessionAccept => some (cstr "pp_accept")
  | .transportInfo => some (cstr "pp_transport")
  | _ => none

/-- `SignalPrintString` and the faults of `Peer::SendMessage`. -/
def onPeerOutput (p : IceProber) : Signal → IceProber
  | .printString msg => p.record (.print msg)
  | .nullSocket => p.record .nullSocket
  | _ => p

def onOutgoingMessage (p : IceProber) (msg : PPMessage) : IceProber :=
  match msgType msg.type with
  | none => p
  | some word =>
    let (peer, signals, _) := p.peer.SendMessage p.remote_name (word :: msg.argvs)
    signals.foldl onPeerOutput { p with peer }

def onStateChanged (p : IceProber) (state : SessionState) (content_name : CString) : IceProber :=
  match state with
  | .receivedInitiate => if content_name = p.content_name then p.post .doAccept else p
  | .inProgress => p.record (.print (cstr "Session is established!"))
  | _ => p

def onSessionTimeout (p : IceProber) : IceProber :=
  (p.record (.print (cstr "* Exception * Building p2p timeout ..."))).record (.exit (-1))

def onSignalRequest (p : IceProber) : IceProber :=
  match p.session with
  | none => p.record .nullSession
  | some session => { p with session := some session.OnSignalingReady }

/-- What follows from one effect of the session. -/
def onSessionEffect (p : IceProber) : SessionEffect → IceProber
  | .outgoingMessage msg => p.onOutgoingMessage msg
  | .stateChanged state content_name => p.onStateChanged state content_name
  | .requestSignaling => p.onSignalRequest
  | .timeout => p.onSessionTimeout
  | .postState => p.post .state
  | .postTransport content_name task => p.post (.transport content_name task)
  | .clearTimeout => { p with timeouts := 0 }
  | .postTimeout => { p with timeouts := p.timeouts + 1 }
  | .assertFailed a => p.record (.assertFailed a)
  | .outOfRange => p.record .outOfRange
  -- nobody listens to these signals
  | .errorMessage _ | .infoMessage _ | .receivedTerminateReason _ => p

/-- A session function has returned: its effects are handled. -/
def afterSession (p : IceProber) (session : PPSession) : IceProber :=
  session.out.foldl onSessionEffect { p with session := some { session with out := [] } }

/-- A call of a session function. -/
def callSession (p : IceProber) (f : PPSession → PPSession) : IceProber :=
  match p.session with
  | none => p.record .nullSession
  | some session => p.afterSession (f session)

/-! ### Handlers of the peer's signals -/

def onOnLine (p : IceProber) (isOk : Bool) : IceProber :=
  if isOk then p.record (.print (cstr "Connected to server is OK, wait remote..."))
  else (p.record (.print (cstr "Can't connect to server, please start the session server."))).record (.exit 0)

def onOffline (p : IceProber) : IceProber :=
  (p.record (.print (cstr "* Exception * Disconnected from server!"))).record (.exit 0)

def onRemoteLogin (p : IceProber) (remote : CString) : IceProber :=
  if remote = p.remote_name ∧ p.remote_online = false then { p with remote_online := true }.post .doInitiate else p

def onRemoteOnline (p : IceProber) (_remote : CString) : IceProber := p

def onRemoteOffline (p : IceProber) (_remote : CString) : IceProber :=
  (p.record (.print (cstr "* Exception * Remote is disconnected from server!"))).record (.exit (-1))

/-- The type of message that a word stands for. -/
def messageType (word : CString) : Option PPMessageType :=
  if word = cstr "pp_initiate" then some .sessionInitiate
  else if word = cstr "pp_accept" then some .sessionAccept
  else if word = cstr "pp_transport" then some .transportInfo
  else none

/-- `onRemoteMessage`. Who has sent the message is not looked at. -/
def onRemoteMessage (p : IceProber) (_remote : CString) (msgBody : List CString) : IceProber :=
  match msgBody with
  | [] => p.record .outOfRange
  | word :: argvs =>
    match messageType word with
    | none => p
    | some type => p.callSession fun session => session.OnIncomingMessage id { type, argvs }

def onPrintString (p : IceProber) (msg : CString) : IceProber := p.record (.print msg)

/-- The handler of a signal of the peer. -/
def onSignal (p : IceProber) : Signal → IceProber
  | .online isOk => p.onOnLine isOk
  | .offline => p.onOffline
  | .remoteOnline remote => p.onRemoteOnline remote
  | .remoteLogin remote => p.onRemoteLogin remote
  | .remoteOffline remote => p.onRemoteOffline remote
  | .remoteMessage remote msgBody => p.onRemoteMessage remote msgBody
  | .printString msg => p.onPrintString msg
  | .nullSocket => p.record .nullSocket
  | .outOfRange => p.record .outOfRange

/-- A call of a function of the peer. -/
def callPeer (p : IceProber) (f : Peer → Peer × List Signal) : IceProber :=
  (f p.peer).2.foldl onSignal { p with peer := (f p.peer).1 }

/-! ### Messages of the signaling thread -/

def createSession_s (p : IceProber) : IceProber :=
  -- `allow_local_ips_` has no value before it is set
  let session := (PPSession.new false).set_allow_local_ips true
  p.afterSession (session.CreateChannel p.content_name p.channel_name)

def setupTarget (p : IceProber) : IceProber :=
  match p.session.bind fun session => session.GetTransport p.content_name with
  | none => p.record .nullTransport
  | some targetTransport =>
    match targetTransport.GetChannel p.channel_name with
    | none => p
    | some _ =>
      let p := { p with targetChannel := true }.record .connectTarget
      if p.output then p.record .startMonitor else p

def doInitiate_s (p : IceProber) : IceProber :=
  match p.session with
  | none => p.record .nullSession
  | some session => (p.afterSession (session.Initiate id p.content_name).1).setupTarget

def doAccept_s (p : IceProber) : IceProber :=
  match p.session with
  | none => p.record .nullSession
  | some session => (p.afterSession (session.Accept id).1).setupTarget

def onChannelWriteable (p : IceProber) : IceProber :=
  let p := p.record (.sendPacket (cstr "ABCD"))
  { p with dataTimers := p.dataTimers + 1 }

/-- A message of the signaling thread is dispatched. `connectFails` is what `Connect` answers if the
    message is `MSG_START`. -/
def dispatch (p : IceProber) (connectFails : Bool) : Task → IceProber
  | .start => p.callPeer fun peer => peer.onStart_w connectFails
  | .createSession => p.createSession_s
  | .doInitiate => p.doInitiate_s
  | .doAccept => p.doAccept_s
  | .state => p.callSession fun session => session.OnStateMessage id
  | .transport content_name task => p.callSession fun session => session.OnTransportMessage content_name task

inductive Event where
  /-- The `i`-th message in the queue of the signaling thread is dispatched. -/
  | dispatch (i : Nat) (connectFails : Bool)
  /-- The socket reports that it is connected. -/
  | connect
  | close
  /-- The socket has bytes to read. -/
  | read (temp : List UInt8)
  | worker (content_name : CString) (e : PPSession.WorkerEvent)
  /-- The target channel raises `SignalWritableState`. -/
  | channelWriteable
  /-- The time of a `MSG_TIMEOUT` or of a `MSG_DO_DATA` has come. -/
  | timeout
  | doData

/-- The state of the socket is what the network makes it. -/
def setSockState (p : IceProber) (state : ConnState) : IceProber :=
  { p with peer := { p.peer with sock := p.peer.sock.map fun sock => { sock with state } } }

/-- The next event, if it can happen. The signaling thread handles its queue in order; the model lets any
    message be next, so what it shows does not depend on the order. -/
def step (p : IceProber) : Event → Option IceProber
  | .dispatch i connectFails =>
    p.tasks[i]?.map fun task => { p with tasks := p.tasks.eraseIdx i }.dispatch connectFails task
  | .connect => if p.peer.sock.isSome then some ((p.setSockState .connected).callPeer Peer.onConnectEvent) else none
  | .close => if p.peer.sock.isSome then some (p.callPeer Peer.onCloseEvent) else none
  | .read temp =>
    if p.peer.sock.isSome ∧ 0 < temp.length ∧ temp.length ≤ Peer.readSize then
      some (p.callPeer fun peer => peer.onReadEvent temp)
    else none
  | .worker content_name e =>
    if p.session.isSome then some (p.callSession fun session => session.OnWorkerEvent content_name e) else none
  | .channelWriteable => if p.targetChannel then some p.onChannelWriteable else none
  | .timeout =>
    if 0 < p.timeouts then
      some ({ p with timeouts := p.timeouts - 1 }.callSession PPSession.OnTimeoutMessage)
    else none
  | .doData => if 0 < p.dataTimers then some { p with dataTimers := p.dataTimers - 1 }.onChannelWriteable else none

/-- The state after a list of events, if they can all happen. -/
def run : IceProber → List Event → Option IceProber
  | p, [] => some p
  | p, e :: es => (p.step e).bind fun p => run p es

end IceProber

end ProbICE
