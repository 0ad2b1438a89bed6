import VirtualClock.Duration
import VirtualClock.Failure

/-!
The wire form of an advance: seconds split into two 32-bit halves, then nanoseconds. Every
duration has one, and reading it back gives that duration; the only unreadable requests are
those with a whole second or more of nanoseconds.
-/

namespace VirtualClock

structure AdvanceRequest where
  secondsHigh : UInt32
  secondsLow : UInt32
  nanos : UInt32
  deriving DecidableEq

namespace AdvanceRequest

def ofDuration (d : Duration) : AdvanceRequest where
  secondsHigh := (d.seconds >>> 32).toUInt32
  secondsLow := (d.seconds &&& 0xFFFFFFFF).toUInt32
  nanos := .ofNat d.subsecond

def seconds (r : AdvanceRequest) : UInt64 :=
  (r.secondsHigh.toUInt64 <<< 32) ||| r.secondsLow.toUInt64

def toDuration (r : AdvanceRequest) : Except Refusal Duration :=
  if h : r.nanos.toNat < nanosPerSecond then .ok (.ofParts r.seconds ⟨r.nanos.toNat, h⟩)
  else .error (.invalidNanoseconds r.nanos)

end AdvanceRequest

end VirtualClock
