import VirtualClock.FakeTime
import VirtualClock.Registry
import VirtualClock.Timespec
import VirtualClock.Duration.Text

/-!
A clock and the calls on it. Each call takes the clock and the loop it shares with others and
gives back both with its result; `owner` is the number under which the clock's own tasks and
sources find it again. A clock without a loop is a pure source of time: it takes no timers,
and advances apply at once.
-/

namespace VirtualClock

inductive TimeSource where
  | real
  | fake (time : FakeTime)

structure Clock where
  /-- The timers registered with the loop; none for a clock without a loop. -/
  registry : Option Registry
  source : TimeSource

/-- What a call leaves behind. -/
structure Reply (α : Type) where
  result : Except Failure α
  clock : Clock
  loop : EventLoop

namespace Clock

def new (mode : Mode) (hasLoop : Bool) : Clock where
  registry := if hasLoop then some {} else none
  source := match mode with
    | .real => .real
    | .fake => .fake {}

def mode (k : Clock) : Mode :=
  match k.source with
  | .real => .real
  | .fake _ => .fake

def fakeTime? (k : Clock) : Option FakeTime :=
  match k.source with
  | .real => none
  | .fake f => some f

def refuse {α : Type} (k : Clock) (loop : EventLoop) (why : Refusal) : Reply α :=
  ⟨.error (.refused why), k, loop⟩

def breach {α : Type} (k : Clock) (loop : EventLoop) (what : Breach) : Reply α :=
  ⟨.error (.breach what), k, loop⟩

/-- Whether the loop still has work of this clock to do. -/
def hasPendingDispatch (k : Clock) : Bool :=
  match k.source with
  | .real => false
  | .fake f => f.hasPending

/-- Host time as a timestamp. -/
def hostTime (loop : EventLoop) : Timespec :=
  ⟨.ofNat (loop.now / nanosPerSecond), .ofNat (loop.now % nanosPerSecond)⟩

def gettime (k : Clock) (id : ClockId) (loop : EventLoop) : Except Refusal Timespec :=
  match k.source with
  | .real => .ok (hostTime loop)
  | .fake f => if id.isEmulated then .ok f.now.toTimespec else .error (.unsupportedClockId id)

/-- Move fake time forward by `delta`. -/
def advance (k : Clock) (owner : Nat) (delta : Duration) (loop : EventLoop) : Reply Unit :=
  match k.source with
  | .real => k.refuse loop .realTimeAdvance
  | .fake f =>
    match f.now.add? delta with
    | none => k.refuse loop .timeOverflow
    | some target =>
      let (f, loop) := f.advanceTo k.registry.isSome owner target loop
      ⟨.ok (), { k with source := .fake f }, loop⟩

/-- Carry out an advance received over the wire. -/
def handleRequest
    (k : Clock)
    (owner : Nat)
    (r : AdvanceRequest)
    (loop : EventLoop) : Reply Unit :=
  match r.toDuration with
  | .error why => k.refuse loop why
  | .ok delta => k.advance owner delta loop

/-- Register a disarmed timer. -/
def addTimer (k : Clock) (callback : Callback) (loop : EventLoop) : Reply TimerHandle :=
  match k.registry with
  | none => k.refuse loop .noEventLoop
  | some r =>
    let h : TimerHandle := ⟨r.next⟩
    let source := match k.source with
      | .real => .real
      | .fake f => .fake { f with timers := f.timers.insert { handle := h } }
    ⟨.ok h, { registry := some (r.add callback), source }, loop⟩

/-- Arm a timer `delay` milliseconds ahead on host time, or disarm it when that is not
positive. -/
def updateReal
    (k : Clock)
    (owner : Nat)
    (h : TimerHandle)
    (delay : Int32)
    (loop : EventLoop) : Reply Unit :=
  match k.registry with
  | none => k.breach loop (.updatedWithoutLoop h)
  | some r =>
    match r.find? h with
    | none => k.breach loop (.unknownToLoop h)
    | some e =>
      let loop := loop.removeSource? e.source
      if 0 < delay.toInt then
        ⟨.ok (), { k with registry := some (r.setSource h (some loop.nextSource)) },
          loop.insertSource (delay.toInt.toNat * nanosPerMilli) owner h⟩
      else ⟨.ok (), { k with registry := some (r.setSource h none) }, loop⟩

/-- Arm a timer `delay` milliseconds after fake time `f`, or disarm it when that is not
positive. -/
def updateFake
    (k : Clock)
    (f : FakeTime)
    (owner : Nat)
    (h : TimerHandle)
    (delay : Int32)
    (loop : EventLoop) : Reply Unit :=
  match f.trigger? delay with
  | .error why => k.refuse loop why
  | .ok trigger =>
    match f.timers.find? h with
    | none => k.breach loop (.unknownToClock h)
    | some t =>
      let moved := { f with timers := f.timers.setTrigger h trigger }
      let (f, loop) := moved.reschedule owner (loop.cancelAll t.pending.toList)
      ⟨.ok (), { k with source := .fake f }, loop⟩

def updateTimer
    (k : Clock)
    (owner : Nat)
    (h : TimerHandle)
    (delay : Int32)
    (loop : EventLoop) : Reply Unit :=
  match k.source with
  | .real => k.updateReal owner h delay loop
  | .fake f => k.updateFake f owner h delay loop

/-- Unregister a timer, with a dispatch or a source that may be waiting for it. -/
def removeTimer (k : Clock) (h : TimerHandle) (loop : EventLoop) : Reply Unit :=
  match k.registry with
  | none => k.breach loop (.removedWithoutLoop h)
  | some r =>
    match r.find? h with
    | none => k.breach loop (.unknownToLoop h)
    | some e =>
      let loop := loop.removeSource? e.source
      let k := { k with registry := some (r.erase h) }
      match k.source with
      | .real => ⟨.ok (), k, loop⟩
      | .fake f =>
        match f.timers.find? h with
        | none => k.breach loop (.unknownToClock h)
        | some t =>
          ⟨.ok (), { k with source := .fake { f with timers := f.timers.erase h } },
            loop.cancelAll t.pending.toList⟩

/-- Tear the clock down: every timer must be gone, and a pending advance is given up. -/
def destroy (k : Clock) (loop : EventLoop) : Reply Unit :=
  let registered := k.registry.elim 0 Registry.size
  if 0 < registered then k.breach loop (.destroyedWithTimers registered)
  else
    match k.source with
    | .real => ⟨.ok (), k, loop⟩
    | .fake f =>
      if 0 < f.timers.size then k.breach loop (.destroyedWithFakeTimers f.timers.size)
      else
        ⟨.ok (), { k with source := .fake { f with final := none } },
          loop.cancelAll (f.final.map (·.ticket)).toList⟩

/-- One line on the clock's state. -/
def description (k : Clock) : String :=
  match k.source with
  | .real => "Clock \x7b mode: " ++ Mode.real.title ++ " \x7d"
  | .fake f =>
    let final := match f.final with
      | none => "None"
      | some final => "Some(" ++ final.target.exactText ++ ")"
    "Clock \x7b mode: " ++ Mode.fake.title ++ ", now: " ++ f.now.exactText
      ++ ", timers: " ++ toString f.timers.size ++ ", final_time: " ++ final ++ " \x7d"

end Clock

end VirtualClock
