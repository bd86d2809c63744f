import ProbICE.Lib.Machine
import ProbICE.Lib.PriorityQueue
import ProbICE.TimeUtils

/-! # Message queues

A thread takes the messages of its queue one after the other. A message that is posted with a delay waits in a heap until
it is due. Any thread may post, clear and quit at any time that the queue is not locked. What a call of `Get`, `Peek`,
`Post` or `DoDelayPost` does without the lock is a sequence of steps between which others come. -/

namespace ProbICE.TalkBase

def MQID_ANY : UInt32 := -1
def MQID_DISPOSE : UInt32 := -2

def kForever : Int32 := -1
def kMaxMsgLatency : UInt32 := 150

structure Message where
  /-- Which object, or `NULL`. -/
  phandler : Option Nat
  message_id : UInt32
  pdata : Option Nat
  ts_sensitive : UInt32
deriving DecidableEq

def Message.Match (m : Message) (handler : Option Nat) (id : UInt32) : Bool :=
  (handler = none ∨ handler = m.phandler) ∧ (id = MQID_ANY ∨ id = m.message_id)

structure DelayedMessage where
  cmsDelay_ : Int32
  msTrigger_ : UInt32
  num_ : UInt32
  msg_ : Message
deriving DecidableEq

/-- `operator<`: the first one in the order is the last one to come. -/
def DelayedMessage.lt (d dmsg : DelayedMessage) : Bool :=
  dmsg.msTrigger_ < d.msTrigger_ ∨ (dmsg.msTrigger_ = d.msTrigger_ ∧ dmsg.num_ < d.num_)

/-! ### The queue -/

variable {heaps : PriorityQueue.Heaps DelayedMessage.lt}

structure MessageQueue (heaps : PriorityQueue.Heaps DelayedMessage.lt) where
  fStop_ : Bool
  /-- `msgPeek_` with `fPeekKeep_`. -/
  msgPeek_ : Option Message
  active_ : Bool
  msgq_ : List Message
  dmsgq_ : PriorityQueue heaps
  dmsgq_next_num_ : UInt32

namespace MessageQueue

def new : MessageQueue heaps :=
  { fStop_ := false, msgPeek_ := none, active_ := false, msgq_ := [], dmsgq_ := .reheap heaps [], dmsgq_next_num_ := 0 }

def Quit (q : MessageQueue heaps) : MessageQueue heaps := { q with fStop_ := true }

def Restart (q : MessageQueue heaps) : MessageQueue heaps := { q with fStop_ := false }

def EnsureActive (q : MessageQueue heaps) : MessageQueue heaps := { q with active_ := true }

/-- The message that `Post` makes. -/
def message (now : UInt32) (phandler : Option Nat) (id : UInt32) (pdata : Option Nat) (time_sensitive : Bool) : Message :=
  { phandler, message_id := id, pdata, ts_sensitive := if time_sensitive then now + kMaxMsgLatency else 0 }

/-- The critical section of `Post`. -/
def Post (q : MessageQueue heaps) (msg : Message) : MessageQueue heaps :=
  { q.EnsureActive with msgq_ := q.msgq_ ++ [msg] }

/-- The message that `DoDelayPost` makes. -/
def delayedMessage (q : MessageQueue heaps) (cmsDelay : Int32) (tstamp : UInt32) (phandler : Option Nat) (id : UInt32)
    (pdata : Option Nat) : DelayedMessage :=
  { cmsDelay_ := cmsDelay, msTrigger_ := tstamp, num_ := q.dmsgq_next_num_
    msg_ := { phandler, message_id := id, pdata, ts_sensitive := 0 } }

/-- The critical section of `DoDelayPost`. -/
def DoDelayPost (q : MessageQueue heaps) (dmsg : DelayedMessage) : MessageQueue heaps :=
  { q.EnsureActive with dmsgq_ := q.dmsgq_.push dmsg, dmsgq_next_num_ := q.dmsgq_next_num_ + 1 }

def GetDelay (q : MessageQueue heaps) (now : UInt32) : Int32 :=
  if q.msgq_ ≠ [] then 0
  else
    match q.dmsgq_.top with
    | none => kForever
    | some dmsg =>
      let delay := TimeUntil now dmsg.msTrigger_
      if delay < 0 then 0 else delay

def Clear (q : MessageQueue heaps) (phandler : Option Nat) (id : UInt32) : MessageQueue heaps :=
  { q with
    msgPeek_ := q.msgPeek_.filter fun m => !m.Match phandler id
    msgq_ := q.msgq_.filter fun m => !m.Match phandler id
    dmsgq_ := .reheap heaps (q.dmsgq_.container.filter fun d => !d.msg_.Match phandler id) }

/-- The messages that `Clear` takes out: it hands them over in `removed`, or else deletes what they carry. -/
def cleared (q : MessageQueue heaps) (phandler : Option Nat) (id : UInt32) : List Message :=
  (q.msgPeek_.toList ++ q.msgq_ ++ q.dmsgq_.container.map DelayedMessage.msg_).filter (·.Match phandler id)

/-- What the critical section of `Get` leaves. -/
structure Check (heaps : PriorityQueue.Heaps DelayedMessage.lt) where
  queue : MessageQueue heaps
  cmsDelayNext : Int32
  /-- Messages that are there to have their data deleted. -/
  disposed : List Message
  message : Option Message

/-- The critical section of `Get`. -/
def check (q : MessageQueue heaps) (msCurrent : UInt32) : Check heaps :=
  let (triggered, dmsgq) := q.dmsgq_.popWhile fun d => !TimeIsLater msCurrent d.msTrigger_
  let msgq := q.msgq_ ++ triggered.map DelayedMessage.msg_
  let rest := msgq.dropWhile fun m => m.message_id = MQID_DISPOSE
  { queue := { q with msgq_ := rest.tail, dmsgq_ := dmsgq }
    cmsDelayNext :=
      match dmsgq.top with
      | none => kForever
      | some d => TimeDiff d.msTrigger_ msCurrent
    disposed := msgq.takeWhile fun m => m.message_id = MQID_DISPOSE
    message := rest.head? }

end MessageQueue

/-! ### The queue in use -/

/-- The locals of `Get`. -/
structure Getting where
  /-- Whether `Peek` calls it. -/
  peek : Bool
  cmsWait : Int32
  cmsElapsed : Int32
  msStart : UInt32
  msCurrent : UInt32
deriving DecidableEq

/-- The shorter of the delay wait and the asked wait. -/
def Getting.cmsNext (g : Getting) (cmsDelayNext : Int32) : Int32 :=
  if g.cmsWait = kForever then cmsDelayNext
  else
    let cmsNext := max 0 (g.cmsWait - g.cmsElapsed)
    if cmsDelayNext ≠ kForever ∧ cmsDelayNext < cmsNext then cmsDelayNext else cmsNext

/-- Where the owner of the queue is. -/
inductive Control where
  /-- In no call. -/
  | idle
  /-- `fPeekKeep_` has been set, and `Get` (or `Peek`) is about to return the message that is kept. -/
  | kept (peek : Bool) (msg : Message)
  /-- In front of the critical section. -/
  | checking (g : Getting)
  /-- Behind the critical section, with nothing found. -/
  | checked (g : Getting) (cmsDelayNext : Int32)
  /-- In `ss_->Wait`. -/
  | waiting (g : Getting) (cmsNext : Int32)
  /-- Behind the critical section, or with `fPeekKeep_` reset: the message is only in `pmsg`. -/
  | popped (peek : Bool) (msg : Message)
deriving DecidableEq

/-- The message that a call is about to return. -/
def Control.pmsg : Control → Option Message
  | kept _ msg => some msg
  | popped _ msg => some msg
  | _ => none

/-- The message that is on its way out. -/
def Control.hand : Control → List Message
  | kept false msg => [msg]
  | popped _ msg => [msg]
  | _ => []

/-- A call of `Get` or `Peek` that has returned, and the message if it has returned true. -/
structure Call where
  peek : Bool
  result : Option Message
deriving DecidableEq

/-- A call of `Post` or of `DoDelayPost`. -/
inductive Posting where
  | post (phandler : Option Nat) (id : UInt32) (pdata : Option Nat) (time_sensitive : Bool)
  | doDelayPost (cmsDelay : Int32) (tstamp : UInt32) (phandler : Option Nat) (id : UInt32) (pdata : Option Nat)
deriving DecidableEq

structure MessageLoop (heaps : PriorityQueue.Heaps DelayedMessage.lt) where
  queue : MessageQueue heaps
  control : Control
  /-- The postings that are in front of their test of `fStop_`. -/
  called : List Posting
  /-- The postings that have passed it and are in front of their critical section. -/
  passed : List Posting
  /-- What `Post` has put in. -/
  posted : List Message
  /-- What `DoDelayPost` has put in. -/
  delayed : List DelayedMessage
  calls : List Call
  /-- The messages whose data has been deleted. -/
  deleted : List Message
  /-- The messages that have been handed over by `Clear`. -/
  removed : List Message
  /-- The messages that `Clear` has taken out although `Get` was about to return them. -/
  torn : List Message

inductive Action where
  | post (phandler : Option Nat) (id : UInt32) (pdata : Option Nat) (time_sensitive : Bool)
  | postDelayed (cmsDelay : Int32) (phandler : Option Nat) (id : UInt32) (pdata : Option Nat)
  | postAt (tstamp : UInt32) (phandler : Option Nat) (id : UInt32) (pdata : Option Nat)
  /-- The test of `fStop_` of a posting. -/
  | test (p : Posting)
  /-- The critical section of a posting. -/
  | push (p : Posting)
  /-- Whether there is a list to put the messages in. -/
  | clear (phandler : Option Nat) (id : UInt32) (removed : Bool)
  | quit
  | restart
  | get (cmsWait : Int32)
  | peek (cmsWait : Int32)
  | check
  /-- The check of `fStop_`. -/
  | stop
  /-- What `ss_->Wait` returns. -/
  | woke (ok : Bool)
  /-- `Peek` sets `fPeekKeep_`. -/
  | keep
  /-- `Get` resets it. -/
  | unkeep
  /-- `Get` or `Peek` returns true. -/
  | leave
deriving DecidableEq

structure Event where
  /-- The clock in milliseconds. -/
  time : Nat
  action : Action
deriving DecidableEq

namespace MessageLoop

def new : MessageLoop heaps :=
  { queue := .new, control := .idle, called := [], passed := [], posted := [], delayed := [], calls := [], deleted := []
    removed := [], torn := [] }

/-- The messages that `Get` has returned. -/
def got (s : MessageLoop heaps) : List Message := (s.calls.filter (! ·.peek)).filterMap Call.result

/-- The message that is kept for the next call. -/
def front (s : MessageLoop heaps) : List Message :=
  match s.control with
  | .kept false _ => []
  | _ => s.queue.msgPeek_.toList

def call (s : MessageLoop heaps) (p : Posting) : MessageLoop heaps := { s with called := s.called ++ [p] }

def test (s : MessageLoop heaps) (p : Posting) : MessageLoop heaps :=
  { s with called := s.called.erase p, passed := if s.queue.fStop_ then s.passed else s.passed ++ [p] }

def Post (s : MessageLoop heaps) (msg : Message) : MessageLoop heaps :=
  { s with queue := s.queue.Post msg, posted := s.posted ++ [msg] }

def DoDelayPost (s : MessageLoop heaps) (dmsg : DelayedMessage) : MessageLoop heaps :=
  { s with queue := s.queue.DoDelayPost dmsg, delayed := s.delayed ++ [dmsg] }

def push (s : MessageLoop heaps) (p : Posting) (now : UInt32) : MessageLoop heaps :=
  let s := { s with passed := s.passed.erase p }
  match p with
  | .post phandler id pdata time_sensitive => s.Post (MessageQueue.message now phandler id pdata time_sensitive)
  | .doDelayPost cmsDelay tstamp phandler id pdata =>
    s.DoDelayPost (s.queue.delayedMessage cmsDelay tstamp phandler id pdata)

/-- What `Clear` takes out although `Get` is about to return it. -/
def tearing (s : MessageLoop heaps) (phandler : Option Nat) (id : UInt32) : List Message :=
  match s.control with
  | .kept false _ => s.queue.msgPeek_.toList.filter (·.Match phandler id)
  | _ => []

def Clear (s : MessageLoop heaps) (phandler : Option Nat) (id : UInt32) (removed : Bool) : MessageLoop heaps :=
  let cleared := s.queue.cleared phandler id
  { s with
    queue := s.queue.Clear phandler id
    deleted := if removed then s.deleted else s.deleted ++ cleared
    removed := if removed then s.removed ++ cleared else s.removed
    torn := s.torn ++ s.tearing phandler id }

/-- A call of `Get`, or of `Peek`, up to its critical section. -/
def enter (s : MessageLoop heaps) (peek : Bool) (cmsWait : Int32) (now : UInt32) : MessageLoop heaps :=
  match s.queue.msgPeek_ with
  | some msg => { s with control := .kept peek msg }
  | none => { s with control := .checking ⟨peek, cmsWait, 0, now, now⟩ }

/-- The end of the call. -/
def leave (s : MessageLoop heaps) (peek : Bool) (result : Option Message) : MessageLoop heaps :=
  { s with control := .idle, calls := s.calls ++ [⟨peek, result⟩] }

def check (s : MessageLoop heaps) (g : Getting) : MessageLoop heaps :=
  let found := s.queue.check g.msCurrent
  { s with
    queue := found.queue
    control :=
      match found.message with
      | some msg => .popped g.peek msg
      | none => .checked g found.cmsDelayNext
    deleted := s.deleted ++ found.disposed }

def stop (s : MessageLoop heaps) (g : Getting) (cmsDelayNext : Int32) : MessageLoop heaps :=
  if s.queue.fStop_ then s.leave g.peek none else { s with control := .waiting g (g.cmsNext cmsDelayNext) }

/-- `ss_->Wait` has returned. -/
def woke (s : MessageLoop heaps) (g : Getting) (ok : Bool) (now : UInt32) : MessageLoop heaps :=
  if ok then
    let g := { g with msCurrent := now, cmsElapsed := TimeDiff now g.msStart }
    if g.cmsWait ≠ kForever ∧ g.cmsElapsed ≥ g.cmsWait then s.leave g.peek none else { s with control := .checking g }
  else s.leave g.peek none

def keep (s : MessageLoop heaps) (msg : Message) : MessageLoop heaps :=
  { s with queue := { s.queue with msgPeek_ := some msg }, control := .kept true msg }

def unkeep (s : MessageLoop heaps) (msg : Message) : MessageLoop heaps :=
  { s with queue := { s.queue with msgPeek_ := none }, control := .popped false msg }

def step (s : MessageLoop heaps) (e : Event) : Option (MessageLoop heaps) :=
  let now := Time e.time
  match e.action, s.control with
  | .post phandler id pdata time_sensitive, _ => some (s.call (.post phandler id pdata time_sensitive))
  | .postDelayed cmsDelay phandler id pdata, _ =>
    some (s.call (.doDelayPost cmsDelay (TimeAfter now cmsDelay) phandler id pdata))
  | .postAt tstamp phandler id pdata, _ =>
    some (s.call (.doDelayPost (TimeUntil now tstamp) tstamp phandler id pdata))
  | .test p, _ => if p ∈ s.called then some (s.test p) else none
  | .push p, _ => if p ∈ s.passed then some (s.push p now) else none
  | .clear phandler id removed, _ => some (s.Clear phandler id removed)
  | .quit, _ => some { s with queue := s.queue.Quit }
  | .restart, _ => some { s with queue := s.queue.Restart }
  | .get cmsWait, .idle => some (s.enter false cmsWait now)
  | .peek cmsWait, .idle => some (s.enter true cmsWait now)
  | .check, .checking g => some (s.check g)
  | .stop, .checked g cmsDelayNext => some (s.stop g cmsDelayNext)
  | .woke ok, .waiting g _ => some (s.woke g ok now)
  | .keep, .popped true msg => some (s.keep msg)
  | .unkeep, .kept false msg => some (s.unkeep msg)
  | .leave, .kept true msg => some (s.leave true (some msg))
  | .leave, .popped false msg => some (s.leave false (some msg))
  | _, _ => none

def run (s : MessageLoop heaps) (es : List Event) : Option (MessageLoop heaps) := Machine.run step s es

end MessageLoop

end ProbICE.TalkBase
