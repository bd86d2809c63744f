import ProbICE.Text

/-! # The client side of the dialog server

A `Peer` is a prober's connection to the dialog server. It writes login and send frames and reads the
frames of the server one byte after the other. What it tells the prober is a list of signals, oldest
first: the prober's handlers never change what the rest of a `Peer` function reads. -/

namespace ProbICE

/-! ### Sockets -/

inductive ConnState where
  | closed
  | connecting
  | connected
deriving DecidableEq

structure AsyncSocket where
  state : ConnState
  /-- The bytes that the socket has accepted and that have not left the host. -/
  outgoing : List UInt8
  /-- What the coming calls of `send` answer: how many bytes they accept, or an error. When the list is
      used up they accept everything. -/
  answers : List (Option Nat)
deriving DecidableEq

namespace AsyncSocket

/-- `Send(pv, cb)`: the number of bytes that were accepted, or -1. -/
def Send (s : AsyncSocket) (pv : List UInt8) : AsyncSocket × Int :=
  if s.state ≠ .connected then (s, -1)
  else
    match s.answers with
    | [] => ({ s with outgoing := s.outgoing ++ pv }, pv.length)
    | none :: answers => ({ s with answers }, -1)
    | some n :: answers =>
      ({ s with outgoing := s.outgoing ++ pv.take n, answers }, (pv.take n).length)

end AsyncSocket

/-! ### Peer -/

inductive Signal where
  | online (isOk : Bool)
  | offline
  | remoteOnline (remote : CString)
  | remoteLogin (remote : CString)
  | remoteOffline (remote : CString)
  | remoteMessage (remote : CString) (msgBody : List CString)
  | printString (msg : CString)
  /-- A method of the socket is called while `sock_` is `NULL`. -/
  | nullSocket
  /-- An element is read that the vector does not have. -/
  | outOfRange
deriving DecidableEq

structure Peer where
  id : CString
  isOnline : Bool
  sock : Option AsyncSocket
  xmlBuffer : CString
deriving DecidableEq

namespace Peer

/-- The constructor. -/
def new (id : CString) : Peer := { id, isOnline := true, sock := none, xmlBuffer := [] }

/-- The frame of `SendMessage`. -/
def msgPayload (to_ : CString) (msg : List CString) : CString :=
  msg.foldl (fun text w => text ++ cstr ":" ++ w) (cstr "<send:" ++ to_) ++ cstr ">"

/-- `SendMessage`. What the socket answers is not looked at. -/
def SendMessage (p : Peer) (to_ : CString) (msg : List CString) : Peer × List Signal × Int :=
  if ¬ p.isOnline then (p, [], -1)
  else
    match p.sock with
    | none => (p, [.nullSocket], 0)
    | some sock =>
      ({ p with sock := some (sock.Send (msgPayload to_ msg)).1 },
        [.printString (cstr "\t===>: " ++ msgPayload to_ msg)], 0)

/-- `onStart_w`: a new socket, and what its `Connect` answers. -/
def onStart_w (p : Peer) (connectFails : Bool) : Peer × List Signal :=
  let p := { p with xmlBuffer := [] }
  if connectFails then ({ p with sock := none }, [.online false])
  else ({ p with sock := some { state := .connecting, outgoing := [], answers := [] } }, [])

/-- The login frame. -/
def loginMessage (id : CString) : CString := cstr "<login:" ++ id ++ cstr ">"

def onConnectEvent (p : Peer) : Peer × List Signal :=
  match p.sock with
  | none => (p, [.nullSocket])
  | some sock =>
    if sock.state = .connected then
      ({ p with isOnline := true, sock := some (sock.Send (loginMessage p.id)).1 }, [.online true])
    else (p, [])

def onCloseEvent (p : Peer) : Peer × List Signal :=
  match p.sock with
  | none => (p, [.nullSocket])
  | some _ =>
    if p.isOnline then ({ p with sock := none, isOnline := false }, [.offline])
    else ({ p with sock := none }, [.online false])

/-- The loop of `processXML` that splits a frame: a word ends at `:` or at `>`, and what stands behind the
    last of them is dropped. -/
def splitWords : CString → CString → List CString
  | _, [] => []
  | currentWord, b :: bs =>
    if b = colon ∨ b = greater then currentWord :: splitWords [] bs else splitWords (currentWord ++ [b]) bs

/-- The words of the frame in `xmlBuffer`, whose first byte is not looked at. -/
def wordsOf (xmlBuffer : CString) : List CString := splitWords [] (xmlBuffer.drop 1)

/-- `words[1]` for a signal. -/
def withSecond (words : List CString) (signal : CString → Signal) : Signal :=
  match words[1]? with
  | some w => signal w
  | none => .outOfRange

/-- The signals that `processXML` raises for the words of a frame. -/
def signalsOf (words : List CString) : List Signal :=
  match words with
  | [] => []
  | word :: _ =>
    if word = cstr "online" then [withSecond words .remoteOnline]
    else if word = cstr "offline" then [withSecond words .remoteOffline]
    else if word = cstr "login" then [withSecond words .remoteLogin]
    else if word = cstr "message" then [withSecond words fun remote => .remoteMessage remote (words.drop 2)]
    else []

def processXML (xmlBuffer : CString) : List Signal := signalsOf (wordsOf xmlBuffer)

/-- The loop of `onReadEvent`: the buffer at the end and the signals of the frames. -/
def readBytes (xmlBuffer : CString) : List UInt8 → CString × List Signal
  | [] => (xmlBuffer, [])
  | b :: bs =>
    let xmlBuffer := xmlBuffer ++ [b]
    if b = greater then
      let (rest, signals) := readBytes [] bs
      (rest, processXML xmlBuffer ++ signals)
    else readBytes xmlBuffer bs

/-- The size of the buffer that `onReadEvent` reads into, less the byte for its end. -/
def readSize : Nat := 2047

/-- `onReadEvent`, when `Recv` gives `temp`: at most `readSize` bytes. -/
def onReadEvent (p : Peer) (temp : List UInt8) : Peer × List Signal :=
  match p.sock with
  | none => (p, [.nullSocket])
  | some _ =>
    if temp = [] then (p, [])
    else
      let (xmlBuffer, signals) := readBytes p.xmlBuffer temp
      ({ p with xmlBuffer }, .printString (cstr "\t<===: " ++ temp.takeWhile (· ≠ 0)) :: signals)

/-- The bytes that have not left the host. -/
def outgoing (p : Peer) : List UInt8 := (p.sock.map (·.outgoing)).getD []

end Peer

end ProbICE
