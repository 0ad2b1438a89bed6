import VirtualClock.ClockId

/-!
Why a call on a clock fails. A refusal is an answer that any caller must expect; a breach is
a call that breaks the clock's contract, such as using a timer that was never added. The
wording of every failure is here.
-/

namespace VirtualClock

/-- Names a timer of one clock, for as long as that clock exists. -/
structure TimerHandle where
  index : Nat
  deriving DecidableEq

def TimerHandle.text (h : TimerHandle) : String := "TimerHandle(" ++ toString h.index ++ ")"

inductive Refusal where
  | unsupportedClockId (id : ClockId)
  | realTimeAdvance
  | noEventLoop
  | timeOverflow
  | invalidNanoseconds (n : UInt32)
  deriving DecidableEq

def Refusal.message : Refusal → String
  | unsupportedClockId id => "clock id " ++ id.name ++ " is not emulated by the fake clock"
  | realTimeAdvance => "cannot advance a clock running on real time"
  | noEventLoop => "clock has no event loop to run timers on"
  | timeOverflow => "fake time overflowed"
  | invalidNanoseconds n => "nanosecond field out of range: " ++ toString n.toNat

inductive Breach where
  | destroyedWithTimers (count : Nat)
  | destroyedWithFakeTimers (count : Nat)
  | unknownToLoop (h : TimerHandle)
  | unknownToClock (h : TimerHandle)
  | updatedWithoutLoop (h : TimerHandle)
  | removedWithoutLoop (h : TimerHandle)
  deriving DecidableEq

def Breach.message : Breach → String
  | destroyedWithTimers n => "clock destroyed with " ++ toString n ++ " timers still registered"
  | destroyedWithFakeTimers n =>
    "clock destroyed with " ++ toString n ++ " fake timers still registered"
  | unknownToLoop h => "timer " ++ h.text ++ " is not registered with this event loop"
  | unknownToClock h => "timer " ++ h.text ++ " is not registered with this clock"
  | updatedWithoutLoop h => "timer " ++ h.text ++ " updated on a clock without event loop"
  | removedWithoutLoop h => "timer " ++ h.text ++ " removed from a clock without event loop"

inductive Failure where
  | refused (why : Refusal)
  | breach (what : Breach)
  deriving DecidableEq

def Failure.message : Failure → String
  | refused why => why.message
  | breach what => what.message

end VirtualClock
