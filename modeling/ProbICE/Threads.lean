import ProbICE.Lib.Machine
import ProbICE.MessageQueue
import Mathlib.Logic.Function.Basic

/-! # Sends from thread to thread

A `Send` to another thread puts the message in the list of that thread and waits until its handler is through with it.
While it waits, the thread handles what is sent to itself, so that the calls of a thread are a stack. Any thread may go
on between two steps of another one. -/

namespace ProbICE.TalkBase

/-- `_SendMessage`. -/
structure SendMessage where
  thread : Nat
  msg : Message
  /-- Which of the variables `ready`. -/
  ready : Nat
deriving DecidableEq

/-- Where a thread is in each call that it is in. -/
inductive Frame where
  /-- At the top of the loop of `Get`. -/
  | getting
  /-- Behind the `ReceiveSends` of `Get`. -/
  | received
  /-- In the `Wait` of `Get`. -/
  | idle
  /-- In a handler that the thread has called for itself. -/
  | dispatching
  /-- At the check of `has_sends_`. -/
  | entering
  /-- At the top of the loop of `ReceiveSends`. -/
  | receiving
  /-- In a handler that `ReceiveSends` has called. -/
  | handling (smsg : SendMessage)
  /-- At the top of the loop of `Send`. -/
  | sending (ready : Nat) (waited : Bool)
  /-- In the `Wait` of `Send`. -/
  | waiting (ready : Nat) (waited : Bool)
deriving DecidableEq

/-- What a thread does on its way out of a critical section or a call. -/
inductive Task where
  /-- Set the variable `ready`, and wake up the sender then. -/
  | reply (smsg : SendMessage)
  /-- `ss_->WakeUp()`. -/
  | wake (thread : Nat)
deriving DecidableEq

structure Threads where
  /-- The call that is going on stands in front. -/
  stack : Nat → List Frame
  sendlist_ : Nat → List SendMessage
  has_sends_ : Nat → Bool
  fStop_ : Nat → Bool
  /-- Whether the socket server of a thread has been woken up. -/
  fSignaled_ : Nat → Bool
  /-- What is to be done before the thread goes on in its call. -/
  tasks : Nat → List Task
  ready : Nat → Bool
  /-- How many variables `ready` there have been. -/
  sends : Nat
  sent : List SendMessage
  /-- The messages whose handler has been called by `ReceiveSends`. -/
  started : List SendMessage
  /-- Those whose handler has returned. -/
  finished : List SendMessage
  /-- Those that `Clear` has taken out. -/
  cleared : List SendMessage
  /-- The calls of `Send` that are over. -/
  returned : List Nat

inductive Step where
  /-- The thread goes on. -/
  | go
  /-- `OnMessage` returns. -/
  | finish
  /-- A message has been found, or something has come in. -/
  | dispatch
  /-- The `Wait` of `Get` is over without having been woken up. -/
  | timeout
  | send (target : Nat) (msg : Message)
  | clear (target : Nat) (phandler : Option Nat) (id : UInt32)
  /-- `Post` and its like, as far as they wake up the thread. -/
  | post (target : Nat)
  | quit (target : Nat)
deriving DecidableEq

structure ThreadStep where
  thread : Nat
  step : Step
deriving DecidableEq

namespace Threads

open Function (update)

def new : Threads :=
  { stack := fun _ => [.idle], sendlist_ := fun _ => [], has_sends_ := fun _ => false, fStop_ := fun _ => false
    fSignaled_ := fun _ => false, tasks := fun _ => [], ready := fun _ => false, sends := 0
    sent := [], started := [], finished := [], cleared := [], returned := [] }

variable (s : Threads) (t : Nat)

def setStack (l : List Frame) : Threads := { s with stack := update s.stack t l }

def setTasks (ts : List Task) : Threads := { s with tasks := update s.tasks t ts }

def wake (u : Nat) (ts : List Task) : Threads := { s.setTasks t ts with fSignaled_ := update s.fSignaled_ u true }

def reply (smsg : SendMessage) (ts : List Task) : Threads :=
  { s.setTasks t (.wake smsg.thread :: ts) with ready := update s.ready smsg.ready true }

/-- The `Wait` of a thread that has been woken up. -/
def woken (l : List Frame) : Threads := { s.setStack t l with fSignaled_ := update s.fSignaled_ t false }

/-- The end of the loop of `ReceiveSends`. -/
def received (l : List Frame) : Threads := { s.setStack t l with has_sends_ := update s.has_sends_ t false }

/-- One more time through the loop. -/
def receive (smsg : SendMessage) (rest : List SendMessage) (l : List Frame) : Threads :=
  { s.setStack t (.handling smsg :: .receiving :: l) with
    sendlist_ := update s.sendlist_ t rest
    started := s.started ++ [smsg] }

/-- The handler is through. -/
def finish (smsg : SendMessage) (l : List Frame) : Threads :=
  { (s.setStack t l).setTasks t [.reply smsg] with finished := s.finished ++ [smsg] }

/-- The end of `Send`. -/
def leave (i : Nat) (waited : Bool) (l : List Frame) : Threads :=
  { (s.setStack t l).setTasks t (if waited then [.wake t] else []) with returned := s.returned ++ [i] }

/-- `Send` to another thread, up to its loop. -/
def push (target : Nat) (msg : Message) : Threads :=
  { (s.setStack t (.sending s.sends false :: s.stack t)).setTasks t [.wake target] with
    sendlist_ := update s.sendlist_ target (s.sendlist_ target ++ [⟨t, msg, s.sends⟩])
    has_sends_ := update s.has_sends_ target true
    ready := update s.ready s.sends false
    sends := s.sends + 1
    sent := s.sent ++ [⟨t, msg, s.sends⟩] }

/-- A message to a thread that has been stopped is not sent at all. -/
def Send (target : Nat) (msg : Message) : Threads :=
  if s.fStop_ target then s
  else if target = t then s.setStack t (.dispatching :: s.stack t)
  else s.push t target msg

def Clear (target : Nat) (phandler : Option Nat) (id : UInt32) : Threads :=
  { s.setTasks t (((s.sendlist_ target).filter (·.msg.Match phandler id)).map .reply) with
    sendlist_ := update s.sendlist_ target ((s.sendlist_ target).filter fun smsg => !smsg.msg.Match phandler id)
    cleared := s.cleared ++ (s.sendlist_ target).filter (·.msg.Match phandler id) }

/-- What a handler may do. It does nothing else that blocks: it calls no `Get` of its own, and it joins no thread. -/
def handler : Step → Option Threads
  | .send target msg => some (s.Send t target msg)
  | .clear target phandler id => some (s.Clear t target phandler id)
  | .post target => some (s.setTasks t [.wake target])
  | .quit target => some { s.setTasks t [.wake target] with fStop_ := update s.fStop_ target true }
  | _ => none

def step (e : ThreadStep) : Option Threads :=
  match s.tasks e.thread, s.stack e.thread, e.step with
  | .wake u :: ts, _, .go => some (s.wake e.thread u ts)
  | .reply smsg :: ts, _, .go => some (s.reply e.thread smsg ts)
  | [], [.getting], .go => some (s.setStack e.thread [.entering, .received])
  | [], [.getting], .dispatch => some (s.setStack e.thread [.dispatching, .getting])
  | [], [.received], .dispatch => some (s.setStack e.thread [.dispatching, .getting])
  | [], [.received], .go => some (s.setStack e.thread (if s.fStop_ e.thread then [] else [.idle]))
  | [], [.idle], .go => if s.fSignaled_ e.thread then some (s.woken e.thread [.getting]) else none
  | [], [.idle], .timeout => some (s.setStack e.thread [.getting])
  | [], [.idle], .dispatch => some (s.setStack e.thread [.dispatching, .idle])
  | [], .entering :: l, .go => some (s.setStack e.thread (if s.has_sends_ e.thread then .receiving :: l else l))
  | [], .receiving :: l, .go =>
    match s.sendlist_ e.thread with
    | [] => some (s.received e.thread l)
    | smsg :: rest => some (s.receive e.thread smsg rest l)
  | [], .sending i waited :: l, .go =>
    if s.ready i then some (s.leave e.thread i waited l)
    else some (s.setStack e.thread (.entering :: .waiting i waited :: l))
  | [], .waiting i _ :: l, .go => if s.fSignaled_ e.thread then some (s.woken e.thread (.sending i true :: l)) else none
  | [], .handling smsg :: l, .finish => some (s.finish e.thread smsg l)
  | [], .dispatching :: l, .finish => some (s.setStack e.thread l)
  | [], .handling _ :: _, a => s.handler e.thread a
  | [], .dispatching :: _, a => s.handler e.thread a
  | _, _, _ => none

def run (s : Threads) (es : List ThreadStep) : Option Threads := Machine.run step s es

end Threads

end ProbICE.TalkBase
