import Mathlib.Data.List.Sort
import Mathlib.Logic.Function.Basic
import Mathlib.Tactic.Simps.Basic
import ProbICE.Text

/-! # The dialog server

The server keeps one `PeerClass` object for each connection and one object, `peerObjects`, that maps
login names to them. It reads `<login:...>` and `<send:...>` frames and writes `<online:...>`,
`<login:...>`, `<offline:...>` and `<message:...>` frames. Its state lives between events: a new
connection, data on a connection, the end of a connection.

A JavaScript object is more than a map: it inherits properties from its prototype, and the name
`__proto__` reaches the prototype itself. Both show when a name is a property name of the language,
so they are part of the model. An exception that nobody catches ends the server. -/

namespace ProbICE.DialogServer

/-- A connection. Its socket and its `PeerClass` object belong together and share the name. -/
abbrev SockId := Nat

/-- What `pid` can be: `null` at first, then the second word of a login frame, which may be missing. -/
inductive JsValue where
  | null
  | undefined
  | string (text : JsString)
deriving DecidableEq, Repr

namespace JsValue

/-- `"" + v`. It is also the property name that `v` stands for as a key. -/
def toText : JsValue → JsString
  | null => "null".toList
  | undefined => "undefined".toList
  | string t => t

@[simp] theorem toText_string (t : JsString) : (string t).toText = t := rfl

/-- `words[i]`. -/
def word (words : List JsString) (i : Nat) : JsValue :=
  match words[i]? with
  | some t => string t
  | none => undefined

end JsValue

structure PeerClass where
  pid : JsValue
  xmlWord : JsString
  sid : JsString

structure Socket where
  /-- The server has accepted the connection. -/
  accepted : Bool
  /-- The server has called `end()`. -/
  ended : Bool
  /-- The close event has been delivered. -/
  closed : Bool
  /-- The bytes that the `utf8` decoder of the socket still holds. -/
  pending : List UInt8

/-! ### Frames the server writes -/

inductive Frame where
  | online (pid : JsString)
  | login (pid : JsString)
  | offline (pid : JsString)
  | message (sender : JsString) (words : List JsString)
deriving DecidableEq

/-- The text of a frame. -/
def Frame.xml : Frame → JsString
  | online p => "<online:".toList ++ p ++ ">".toList
  | login p => "<login:".toList ++ p ++ ">".toList
  | offline p => "<offline:".toList ++ p ++ ">".toList
  | message p ws => ws.foldl (fun text w => text ++ ":".toList ++ w) ("<message:".toList ++ p) ++ ">".toList

/-! ### peerObjects -/

/-- `"__proto__"`. -/
def protoName : JsString := "__proto__".toList

/-- The object `peerObjects`: its own properties in the order they were added, and the `PeerClass`
    object that `peerObjects["__proto__"] = peer` has made its prototype. -/
structure PeerObjects where
  own : List (JsString × SockId)
  proto : Option SockId
  /-- An object has one property of a name. -/
  keys_nodup : (own.map Prod.fst).Nodup
  /-- Assigning to `__proto__` never makes a property of that name. -/
  proto_not_own : protoName ∉ own.map Prod.fst
deriving DecidableEq

/-- `"hasOwnProperty"`. -/
def hasOwnPropertyName : JsString := "hasOwnProperty".toList

/-- What reading a property that a `for`-`in` loop lists can give. -/
inductive Property where
  | peer (c : SockId)
  | plain (v : JsValue)
  | sock (c : SockId)

namespace PeerObjects

/-- `{}`. -/
def empty : PeerObjects := ⟨[], none, List.nodup_nil, List.not_mem_nil⟩

theorem lookup_eq_some_iff {α β : Type} [BEq α] [LawfulBEq α] {es : List (α × β)} (h : (es.map Prod.fst).Nodup)
    {a : α} {b : β} : es.lookup a = some b ↔ (a, b) ∈ es := by
  induction es with
  | nil => simp
  | cons e es ih =>
    obtain ⟨a', b'⟩ := e
    simp only [List.map_cons, List.nodup_cons] at h
    by_cases ha : a = a'
    · subst ha
      have hmem : (a, b) ∉ es := fun hmem => h.1 (List.mem_map_of_mem hmem)
      simp [hmem, eq_comm]
    · have ha' : (a == a') = false := by simpa using ha
      simp [List.lookup_cons, ha, ha', ih h.2]

/-- The peer object under an own property. -/
def find (o : PeerObjects) (k : JsString) : Option SockId := o.own.lookup k

theorem find_eq_some_iff {o : PeerObjects} {k : JsString} {c : SockId} : o.find k = some c ↔ (k, c) ∈ o.own :=
  lookup_eq_some_iff o.keys_nodup

theorem find_eq_none_iff {o : PeerObjects} {k : JsString} : o.find k = none ↔ k ∉ o.own.map Prod.fst := by
  rw [Option.eq_none_iff_forall_not_mem]
  simp [Option.mem_def, find_eq_some_iff]

/-- `peerObjects[k]` where it is a peer object that somebody stored there. -/
def get (o : PeerObjects) (k : JsString) : Option SockId := if k = protoName then o.proto else o.find k

/-- `peerObjects.hasOwnProperty(k)`. It throws when a client called hasOwnProperty is registered,
    because the property then holds its peer object. -/
def hasOwnProperty (o : PeerObjects) (k : JsString) : Option Bool :=
  if (o.find hasOwnPropertyName).isSome then none else some (o.find k).isSome

/-- `peerObjects[k] = peer`. -/
def assign (o : PeerObjects) (k : JsString) (c : SockId) : PeerObjects :=
  if hk : k = protoName then { o with proto := some c }
  else if h : k ∈ o.own.map Prod.fst then
    { o with
      own := o.own.map fun e => (e.1, if e.1 = k then c else e.2)
      keys_nodup := by simpa [Function.comp_def] using o.keys_nodup
      proto_not_own := by simpa [Function.comp_def] using o.proto_not_own }
  else
    { o with
      own := o.own ++ [(k, c)]
      keys_nodup := by
        rw [List.map_append]
        exact o.keys_nodup.append (List.nodup_singleton k) (by simpa using h)
      proto_not_own := by
        rw [List.map_append, List.mem_append, not_or]
        exact ⟨o.proto_not_own, by simpa using Ne.symm hk⟩ }

/-- `delete peerObjects[k]`. -/
def delete (o : PeerObjects) (k : JsString) : PeerObjects where
  own := o.own.filter fun e => e.1 ≠ k
  proto := o.proto
  keys_nodup := (List.filter_sublist.map Prod.fst).nodup o.keys_nodup
  proto_not_own h := o.proto_not_own ((List.filter_sublist.map Prod.fst).subset h)

/-- The number that an array index is written for: these keys come first in a `for`-`in` loop. -/
def arrayIndex (k : JsString) : Option Nat :=
  let n := Nat.ofDigitChars 10 k 0
  if Nat.toDigits 10 n = k ∧ n < 4294967295 then some n else none

/-- The own properties as a `for`-`in` loop lists them: array indices by number, then the others in the
    order they were added. -/
def ownInOrder (o : PeerObjects) : List (JsString × SockId) :=
  ((o.own.filter fun e => (arrayIndex e.1).isSome).insertionSort
      fun e f => (arrayIndex e.1).getD 0 ≤ (arrayIndex f.1).getD 0)
    ++ o.own.filter fun e => (arrayIndex e.1).isNone

/-- The properties of a `PeerClass` object in the order its constructor adds them. -/
def inherited (peers : SockId → PeerClass) (c : SockId) : List (JsString × Property) :=
  [("pid".toList, .plain (peers c).pid), ("xmlWord".toList, .plain (.string (peers c).xmlWord)),
    ("sid".toList, .plain (.string (peers c).sid)), ("sock".toList, .sock c)]

/-- `for (var p in peerObjects)`: what `peerObjects[p]` is for each `p`. An own property hides an
    inherited one of the same name. -/
def forIn (o : PeerObjects) (peers : SockId → PeerClass) : List Property :=
  (o.ownInOrder.map fun e => .peer e.2) ++
    match o.proto with
    | none => []
    | some c => ((inherited peers c).filter fun e => (o.find e.1).isNone).map Prod.snd

end PeerObjects

namespace Property

/-- `peerObjects[p].pid`. It throws on `null` and `undefined`. -/
def pid (peers : SockId → PeerClass) : Property → Option JsValue
  | peer c => some (peers c).pid
  | plain (.string _) => some .undefined
  | plain _ => none
  | sock _ => some .undefined

/-- The socket of `peerObjects[p].sock.write(...)`. Only a peer object has one; the others throw. -/
def writer : Property → Option SockId
  | peer c => some c
  | _ => none

end Property

/-! ### State -/

/-- A call of `sock.write`: the socket, the frame, the connection whose event is being handled, and
    what `peerObjects` is at that moment. -/
structure Write where
  sock : SockId
  frame : Frame
  cause : SockId
  registry : PeerObjects
deriving DecidableEq

structure State where
  socks : SockId → Socket
  peers : SockId → PeerClass
  peerObjects : PeerObjects
  /-- Every call of `sock.write` so far, oldest first. -/
  written : List Write
  /-- An exception has ended the server. -/
  crashed : Bool

namespace State

def init : State where
  socks _ := { accepted := false, ended := false, closed := false, pending := [] }
  peers _ := { pid := .null, xmlWord := [], sid := [] }
  peerObjects := .empty
  written := []
  crashed := false

/-- The connection has been accepted and its close event has not been delivered: it can have events. -/
def live (s : State) (c : SockId) : Bool := (s.socks c).accepted && !(s.socks c).closed

@[simps -fullyApplied]
def setSock (s : State) (c : SockId) (x : Socket) : State := { s with socks := Function.update s.socks c x }

@[simps -fullyApplied]
def setPeer (s : State) (c : SockId) (x : PeerClass) : State := { s with peers := Function.update s.peers c x }

@[simps! -fullyApplied]
def setPid (s : State) (c : SockId) (v : JsValue) : State := s.setPeer c { s.peers c with pid := v }

@[simps! -fullyApplied]
def setXmlWord (s : State) (c : SockId) (w : JsString) : State := s.setPeer c { s.peers c with xmlWord := w }

@[simps! -fullyApplied]
def setPending (s : State) (c : SockId) (p : List UInt8) : State := s.setSock c { s.socks c with pending := p }

/-- `peer.sock.end()`. -/
@[simps! -fullyApplied]
def endSock (s : State) (c : SockId) : State := s.setSock c { s.socks c with ended := true }

@[simps! -fullyApplied]
def closeSock (s : State) (c : SockId) : State := s.setSock c { s.socks c with closed := true }

@[simps -fullyApplied]
def setRegistry (s : State) (o : PeerObjects) : State := { s with peerObjects := o }

/-- Calls of `sock.write`, one after the other. -/
@[simps -fullyApplied]
def log (s : State) (ws : List Write) : State := { s with written := s.written ++ ws }

/-- `sock.write(frame)` while an event of `cause` is handled. -/
def write (s : State) (cause sock : SockId) (frame : Frame) : State := s.log [⟨sock, frame, cause, s.peerObjects⟩]

/-- An exception that nobody catches. -/
@[simps -fullyApplied]
def crash (s : State) : State := { s with crashed := true }

@[simp] theorem log_nil (s : State) : s.log [] = s := by simp [log]

@[simp] theorem log_log (s : State) (ws vs : List Write) : (s.log ws).log vs = s.log (ws ++ vs) := by simp [log]

end State

/-! ### processDialog -/

/-- The words between the first `<` and the first `>` of a text. -/
def wordsOf (xmlWord : JsString) : List JsString :=
  let wordBegin := indexOf '<' xmlWord
  let wordEnd := indexOf '>' xmlWord
  let sentence := substring xmlWord (wordBegin + 1) wordEnd
  sentence.splitOn ':'

/-- The loop that sends the online list to `c`. -/
def writeOnline (c : SockId) : State → List Property → State
  | s, [] => s
  | s, p :: ps =>
    match p.pid s.peers with
    | none => s.crash
    | some pid => writeOnline c (s.write c c (.online pid.toText)) ps

/-- The loop that writes one frame to every peer. -/
def writeAll (cause : SockId) (frame : Frame) : State → List Property → State
  | s, [] => s
  | s, p :: ps =>
    match p.writer with
    | none => s.crash
    | some c => writeAll cause frame (s.write cause c frame) ps

/-- The login branch behind the assignment to `peer.pid` and the test for a name that is taken. -/
def enlist (s : State) (c : SockId) : State :=
  let pid := (s.peers c).pid.toText
  let s := writeOnline c s (s.peerObjects.forIn s.peers)
  if s.crashed then s
  else
    let s := writeAll c (.login pid) s (s.peerObjects.forIn s.peers)
    if s.crashed then s else s.setRegistry (s.peerObjects.assign pid c)

/-- The login branch. -/
def login (s : State) (c : SockId) (pid : JsValue) : State :=
  let s := s.setPid c pid
  match s.peerObjects.hasOwnProperty pid.toText with
  | none => s.crash
  | some true => s.endSock c
  | some false => enlist s c

/-- The send branch. A `pid` of `null` or `undefined` has not logged in. -/
def send (s : State) (c : SockId) (words : List JsString) : State :=
  match (s.peers c).pid with
  | .string pid =>
    match s.peerObjects.hasOwnProperty (JsValue.word words 1).toText with
    | none => s.crash
    | some false => s
    | some true =>
      match s.peerObjects.find (JsValue.word words 1).toText with
      | none => s
      | some remotePeer => s.write c remotePeer (.message pid (words.drop 2))
  | _ => s

def processDialog (s : State) (c : SockId) : State :=
  let words := wordsOf (s.peers c).xmlWord
  if words[0]? = some "login".toList then login s c (.word words 1)
  else if words[0]? = some "send".toList then send s c words
  else s

/-! ### Events -/

/-- `PeerServer.onData`: one character after the other, and a dialog at each `>`. -/
def onData (c : SockId) : State → JsString → State
  | s, [] => s
  | s, ch :: d =>
    let s := s.setXmlWord c ((s.peers c).xmlWord ++ [ch])
    if ch = '>' then
      let s := processDialog s c
      if s.crashed then s else onData c (s.setXmlWord c []) d
    else onData c s d

/-- `PeerServer.onClose`. -/
def onClose (s : State) (c : SockId) : State :=
  let pid := (s.peers c).pid.toText
  match s.peerObjects.hasOwnProperty pid with
  | none => s.crash
  | some false => s
  | some true =>
    match s.peerObjects.find pid with
    | none => s
    | some owner =>
      -- the name may belong to another connection: only the real user is deleted
      if (s.peers c).sid ≠ (s.peers owner).sid then s
      else
        let s := s.setRegistry (s.peerObjects.delete pid)
        writeAll c (.offline pid) s (s.peerObjects.forIn s.peers)

inductive Event where
  | connection (c : SockId) (remoteAddress : JsString) (remotePort : Nat)
  | data (c : SockId) (bytes : List UInt8)
  | close (c : SockId)

/-- `PeerServer.onAccept` with the constructor of `PeerClass`. -/
def onAccept (s : State) (c : SockId) (remoteAddress : JsString) (remotePort : Nat) : State :=
  (s.setSock c { accepted := true, ended := false, closed := false, pending := [] }).setPeer c
    { pid := .null, xmlWord := [], sid := remoteAddress ++ Nat.toDigits 10 remotePort }

/-- The next event. A connection is accepted once, and has no event after its close event; a server that
    has ended handles nothing. -/
def step (s : State) : Event → Option State
  | .connection c a p => if s.crashed ∨ (s.socks c).accepted then none else some (onAccept s c a p)
  | .data c bytes =>
    if s.crashed ∨ ¬ s.live c then none
    else
      -- the socket decodes before it hands the data on
      let decoded := Utf8.write (s.socks c).pending bytes
      some (onData c (s.setPending c decoded.1) decoded.2)
  | .close c => if s.crashed ∨ ¬ s.live c then none else some (onClose (s.closeSock c) c)

/-- A run: the state after a list of events, if they can all happen. -/
def run : State → List Event → Option State
  | s, [] => some s
  | s, e :: es => (step s e).bind fun s => run s es

/-- The bytes that the server writes to a connection. -/
def bytesTo (d : SockId) (ws : List Write) : List UInt8 :=
  (ws.filter fun w => w.sock = d).flatMap fun w => Utf8.encode w.frame.xml

end ProbICE.DialogServer
