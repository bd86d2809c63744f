import Mathlib.Data.Nat.Basic

/-! # Time stamps

A time stamp counts milliseconds in 32 bits, so that it begins again at 0 after less than 50 days. Which of two time
stamps is later is decided by the shorter way around. -/

namespace ProbICE.TalkBase

def LAST : UInt32 := 0xFFFFFFFF
def HALF : UInt32 := 0x80000000

/-- After so many milliseconds of the clock. -/
def Time (ms : Nat) : UInt32 := UInt32.ofNat ms

def TimeAfter (now : UInt32) (elapsed : Int32) : UInt32 := now + elapsed.toUInt32

def TimeIsBetween (earlier middle later : UInt32) : Bool :=
  if earlier ≤ later then earlier ≤ middle ∧ middle ≤ later else ¬ (later < middle ∧ middle < earlier)

def TimeIsLaterOrEqual (earlier later : UInt32) : Bool :=
  let diff := (later - earlier).toInt32
  diff ≥ 0 ∧ diff.toUInt32 < HALF

def TimeIsLater (earlier later : UInt32) : Bool :=
  let diff := (later - earlier).toInt32
  diff > 0 ∧ diff.toUInt32 < HALF

def TimeDiff (later earlier : UInt32) : Int32 := (later - earlier).toInt32

def TimeUntil (now later : UInt32) : Int32 := TimeDiff later now

/-! ### What stands behind the `#else` -/

namespace Plain

def TimeIsLaterOrEqual (earlier later : UInt32) : Bool := TimeIsBetween earlier later (earlier + HALF)

def TimeIsLater (earlier later : UInt32) : Bool :=
  let earlier_or_equal := TimeIsBetween later earlier (later + HALF)
  !earlier_or_equal

def TimeDiff (later earlier : UInt32) : Int32 :=
  let later_or_equal := TimeIsBetween earlier later (earlier + HALF)
  .ofInt <|
    if later_or_equal then
      if earlier ≤ later then (later - earlier).toNat else (later + (LAST - earlier) + 1).toNat
    else if later ≤ earlier then -(earlier - later).toNat
    else -(earlier + (LAST - later) + 1).toNat

end Plain

end ProbICE.TalkBase
