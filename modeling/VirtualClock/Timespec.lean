import VirtualClock.Duration
import VirtualClock.Text.Decimal

/-!
Signed timestamps as clocks report them. A duration too long for signed seconds is reported
with the largest seconds; in the other direction each field is clamped on its own, so every
timestamp has a duration.
-/

namespace VirtualClock

structure Timespec where
  seconds : Int64
  nanos : Int64
  deriving DecidableEq

/-- Seconds above the signed range become its largest value; nanoseconds are kept. -/
def Duration.toTimespec (d : Duration) : Timespec where
  seconds := if d.seconds.toNat < 9223372036854775808 then .ofNat d.seconds.toNat else .maxValue
  nanos := .ofNat d.subsecond

namespace Timespec

/-- Seconds below zero become zero, and nanoseconds the nearest of `0` to `999999999`. -/
def toDuration (t : Timespec) : Duration :=
  .ofParts (.ofNat t.seconds.toNatClampNeg)
    ⟨min t.nanos.toNatClampNeg 999999999, by unfold nanosPerSecond; omega⟩

/-- Nothing is lost on durations with seconds in the signed range. -/
theorem toDuration_toTimespec {d : Duration} (near : d.seconds.toNat < 9223372036854775808) :
    d.toTimespec.toDuration = d := by
  have subsecond : d.subsecond.val < 1000000000 := d.subsecond.isLt
  have seconds : UInt64.ofNat d.toTimespec.seconds.toNatClampNeg = d.seconds := by
    rw [Duration.toTimespec, if_pos near, Int64.toNatClampNeg_ofNat_of_lt near, UInt64.ofNat_toNat]
  have nanos : min d.toTimespec.nanos.toNatClampNeg 999999999 = d.subsecond.val := by
    rw [Duration.toTimespec, Int64.toNatClampNeg_ofNat_of_lt (by omega)]
    omega
  simp only [toDuration, seconds, nanos]
  exact Duration.ofParts_seconds_subsecond d

/-- Seconds, a point and nine digits. -/
def text (t : Timespec) : String :=
  toString t.seconds.toInt ++ "." ++ String.ofList (Text.fixedDigits 9 t.nanos.toNatClampNeg)

end Timespec

end VirtualClock
