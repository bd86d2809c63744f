import ProbICE.Lib.Machine
import ProbICE.Prober

/-! # The packets of the timer

The prober tries to send a packet when the target channel raises `SignalWritableState`, and then one after the other by a
delayed message that posts itself again. The channel is set writable on the worker thread, the messages are dispatched on
the signaling thread, and here is what the two do to each other, with the time. -/

namespace ProbICE

/-- A packet that the target channel has sent. -/
structure Packet where
  time : Nat
  /-- It was sent by `MSG_DO_DATA`. -/
  periodic : Bool
  /-- `writable_` of the channel when it was sent. -/
  writable : Bool
deriving DecidableEq

variable [Host]

structure Heartbeat where
  prober : IceProber
  /-- `writable_` of the target channel. -/
  writable : Bool
  /-- `SendPacket` sends: there is a best connection, it is writable, and its socket takes the packet. The connections
      change before the channel is reported to have changed. -/
  through : Bool
  /-- The time in milliseconds. -/
  now : Nat
  /-- When the messages `MSG_DO_DATA` are due, in the order in which they were posted. -/
  due : List Nat
  /-- The packets that have been sent, oldest first. -/
  sent : List Packet

namespace Heartbeat

/-- The delay of `MSG_DO_DATA`. -/
def delay : Nat := 1000

/-- The handlers of the target channel have been connected. -/
def init (prober : IceProber) (writable through : Bool) : Heartbeat :=
  { prober, writable, through, now := 0, due := [], sent := [] }

/-- `onChannelWriteable` has run and leads to `prober`. It does not look at what `SendPacket` returns. -/
def beat (h : Heartbeat) (periodic : Bool) (prober : IceProber) : Heartbeat :=
  { h with
    prober
    due := h.due ++ [h.now + delay]
    sent := if h.through then h.sent ++ [{ time := h.now, periodic, writable := h.writable }] else h.sent }

inductive Event where
  /-- The best connection, or its state, is another one. -/
  | connection (through : Bool)
  /-- `set_writable` on the worker thread. -/
  | set_writable (writable : Bool)
  /-- The `i`-th of the delayed messages is dispatched. -/
  | doData (i : Nat)
  /-- Time goes by. -/
  | wait (milliseconds : Nat)

/-- The next event, if it can happen. `set_writable` raises `SignalWritableState` only when the value changes, and a
    message is dispatched when it is due. -/
def step (h : Heartbeat) : Event → Option Heartbeat
  | .connection through => some { h with through }
  | .set_writable writable =>
    if writable = h.writable then some h
    else (h.prober.step .channelWriteable).map fun prober => { h with writable }.beat false prober
  | .doData i =>
    match h.due[i]? with
    | none => none
    | some time =>
      if time ≤ h.now then (h.prober.step .doData).map fun prober => { h with due := h.due.eraseIdx i }.beat true prober
      else none
  | .wait milliseconds => some { h with now := h.now + milliseconds }

/-- The state after a list of events, if they can all happen. -/
abbrev run : Heartbeat → List Event → Option Heartbeat := Machine.run step

end Heartbeat

end ProbICE
