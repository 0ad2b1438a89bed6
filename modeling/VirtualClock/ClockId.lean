/-!
The clocks of the host, and which of them fake time stands in for.
-/

namespace VirtualClock

inductive ClockId where
  | realtime
  | monotonic
  | processCpuTime
  | threadCpuTime
  | realtimeCoarse
  | monotonicCoarse
  | monotonicRaw
  | realtimeAlarm
  | boottime
  | boottimeAlarm
  deriving DecidableEq

namespace ClockId

def name : ClockId → String
  | realtime => "Realtime"
  | monotonic => "Monotonic"
  | processCpuTime => "ProcessCPUTime"
  | threadCpuTime => "ThreadCPUTime"
  | realtimeCoarse => "RealtimeCoarse"
  | monotonicCoarse => "MonotonicCoarse"
  | monotonicRaw => "MonotonicRaw"
  | realtimeAlarm => "RealtimeAlarm"
  | boottime => "Boottime"
  | boottimeAlarm => "BoottimeAlarm"

def all : List ClockId :=
  [realtime, monotonic, processCpuTime, threadCpuTime, realtimeCoarse, monotonicCoarse,
    monotonicRaw, realtimeAlarm, boottime, boottimeAlarm]

def ofName? (s : String) : Option ClockId := all.find? (·.name == s)

/-- Clocks that measure the passing of time for everyone; not those of one process or thread,
nor those that wake a sleeping host. -/
def isEmulated : ClockId → Bool
  | realtime | monotonic | monotonicRaw | realtimeCoarse | monotonicCoarse | boottime => true
  | processCpuTime | threadCpuTime | realtimeAlarm | boottimeAlarm => false

end ClockId

end VirtualClock
