import VirtualClock.TimerList

/-!
Fake time: its current value, its timers, and the advance that is still to be applied. While
an advance is pending, every timer due by its target has a dispatch on the loop, and the task
that applies the target comes behind them. Each change queues all of them anew, so they stay
in firing order behind whatever else was queued meanwhile.
-/

namespace VirtualClock

/-- An advance waiting on the loop. -/
structure FinalTime where
  target : Duration
  ticket : Ticket
  deriving DecidableEq

structure FakeTime where
  now : Duration := .zero
  timers : TimerList := {}
  final : Option FinalTime := none

namespace FakeTime

/-- What timers are compared with: the pending advance, or else the current time. -/
def target (f : FakeTime) : Duration :=
  match f.final with
  | some final => final.target
  | none => f.now

def hasPending (f : FakeTime) : Bool := f.final.isSome || f.timers.hasPending

/-- Queue a dispatch for each timer due by `target`, in place of the one it may have. -/
def scheduleDue
    (f : FakeTime)
    (owner : Nat)
    (target : Duration)
    (loop : EventLoop) : FakeTime × EventLoop :=
  let due := f.timers.due target
  ({ f with timers := f.timers.markDue target loop.nextTicket },
    (loop.cancelAll (due.filterMap (·.pending))).enqueueAll
      (due.map fun t => .timer owner t.handle))

/-- Queue the task that makes `target` the current time, in place of the pending one. -/
def scheduleFinal
    (f : FakeTime)
    (owner : Nat)
    (target : Duration)
    (loop : EventLoop) : FakeTime × EventLoop :=
  ({ f with final := some ⟨target, loop.nextTicket⟩ },
    (loop.cancelAll (f.final.map (·.ticket)).toList).enqueue (.finalTime owner))

/-- Queue everything that has to happen up to `target`. -/
def schedule
    (f : FakeTime)
    (owner : Nat)
    (target : Duration)
    (loop : EventLoop) : FakeTime × EventLoop :=
  let (f, loop) := f.scheduleDue owner target loop
  f.scheduleFinal owner target loop

def reschedule (f : FakeTime) (owner : Nat) (loop : EventLoop) : FakeTime × EventLoop :=
  f.schedule owner f.target loop

/-- Take over an advance to `target`, dropping dispatches that it does not reach. Without a
loop there is nothing to wait for. -/
def advanceTo
    (f : FakeTime)
    (hasLoop : Bool)
    (owner : Nat)
    (target : Duration)
    (loop : EventLoop) : FakeTime × EventLoop :=
  let loop := loop.cancelAll (f.timers.ticketsAfter target)
  let f := { f with timers := f.timers.cancelAfter target }
  if hasLoop then f.schedule owner target loop
  else ({ f with now := target, final := none }, loop)

/-- The trigger that a delay in milliseconds asks for: none to disarm. -/
def trigger? (f : FakeTime) (delay : Int32) : Except Refusal (Option Duration) :=
  if 0 < delay.toInt then
    match f.now.add? (.ofMillis (.ofNat delay.toInt.toNat)) with
    | some trigger => .ok (some trigger)
    | none => .error .timeOverflow
  else .ok none

/-- A timer's dispatch starts, which uses up its ticket. If the timer is armed, time moves to
its trigger and it is disarmed; whether it was is the second component. -/
def fire (f : FakeTime) (h : TimerHandle) : FakeTime × Bool :=
  match f.timers.find? h with
  | none => (f, false)
  | some t =>
    match t.trigger with
    | none => ({ f with timers := f.timers.forget h }, false)
    | some trigger => ({ f with now := trigger, timers := f.timers.setTrigger h none }, true)

/-- The target of the pending advance becomes the current time. A timer that came to be due
meanwhile is queued, with the target once more behind it. -/
def applyFinal (f : FakeTime) (owner : Nat) (loop : EventLoop) : FakeTime × EventLoop :=
  match f.final with
  | none => (f, loop)
  | some final =>
    let (f, loop) := { f with now := final.target, final := none }.scheduleDue owner final.target loop
    if f.timers.hasPending then f.scheduleFinal owner final.target loop else (f, loop)

end FakeTime

end VirtualClock
