import VirtualClock.Proofs.History.Armings

/-!
A discrete-event simulator of one clock on fake time. It has no loop and queues nothing: one step
fires the timer that comes first, if it is due by the pending target, and runs its callback at
once; with no timer due the target becomes the current time.
-/

namespace VirtualClock

instance (a b : Arming) : Decidable (a.Before b) := inferInstanceAs (Decidable (_ ∨ _))

structure Simulator where
  /-- The number of the clock. -/
  clock : Nat
  now : Duration
  /-- The pending advance. -/
  target : Option Duration
  registry : Registry
  arming : TimerHandle → Option Arming
  /-- Changes of armings so far. -/
  changes : Nat
  /-- Names of timers, the latest first. -/
  names : List (String × TimerHandle)
  /-- Calls and firings, the latest first. -/
  events : List Event := []

namespace Simulator

/-- Make the current time the pending target if there is none. -/
def await (s : Simulator) : Simulator := { s with target := some (s.target.getD s.now) }

/-- Give a timer a new trigger, none to disarm it. -/
def rearm (s : Simulator) (h : TimerHandle) (trigger : Option Duration) : Simulator :=
  { s with
    arming := VirtualClock.rearm s.arming s.changes (some (h, trigger))
    changes := s.changes + 1 }

def update (s : Simulator) (h : TimerHandle) (delay : Int32) : Answer × Simulator :=
  let trigger := s.now.after? delay
  if 0 < delay.toInt ∧ trigger = none then (.failed (.refused .timeOverflow), s)
  else if h ∈ s.registry.handles then (.done, (s.rearm h trigger).await)
  else (.failed (.breach (.unknownToClock h)), s)

def remove (s : Simulator) (h : TimerHandle) : Answer × Simulator :=
  if h ∈ s.registry.handles then
    (.done, { s.rearm h none with registry := s.registry.erase h })
  else (.failed (.breach (.unknownToLoop h)), s)

/-- The operations that callbacks of the clock are made of. -/
def exec (s : Simulator) : Op → Answer × Simulator
  | .add _ timer fires repeats =>
    let h : TimerHandle := ⟨s.registry.next⟩
    (.handle h,
      { s with
        registry := s.registry.add { name := timer, fires, repeats }
        names := (timer, h) :: s.names })
  | .update _ timer delay =>
    match s.names.lookup timer with
    | none => (.noTimer, s)
    | some h => s.update h delay
  | .remove _ timer =>
    match s.names.lookup timer with
    | none => (.noTimer, s)
    | some h => s.remove h
  | .advance _ delta =>
    match s.now.add? delta with
    | none => (.failed (.refused .timeOverflow), s)
    | some target => (.done, { s with target := some target })
  | .gettime _ id =>
    if id.isEmulated then (.time s.now.toTimespec, s)
    else (.failed (.refused (.unsupportedClockId id)), s)
  | .destroy _ =>
    if 0 < s.registry.size then
      (.failed (.breach (.destroyedWithTimers s.registry.size)), s)
    else (.done, { s with target := none })
  | _ => (.noClock, s)

def execLogged (s : Simulator) (op : Op) : Simulator :=
  let (answer, s') := s.exec op
  { s' with
    events := .call op (op.timer?.bind (s.names.lookup ·)) (some s.now) answer :: s.events }

def execAll (s : Simulator) (ops : List Op) : Simulator := ops.foldl execLogged s

/-- A timer with its arming, if that is due by `target` and comes before those of all others. -/
def candidate? (s : Simulator) (target : Duration) (e : Registration) :
    Option (Registration × Arming) :=
  ((s.arming e.handle).filter fun a =>
    a.trigger ≤ target && s.registry.handles.all fun h =>
      h = e.handle || (s.arming h).all fun b => a.Before b).map (e, ·)

def next? (s : Simulator) (target : Duration) : Option (Registration × Arming) :=
  s.registry.entries.findSome? (s.candidate? target)

/-- Time moves to the trigger of a timer, which is disarmed. -/
def fire (s : Simulator) (h : TimerHandle) (now : Duration) : Simulator :=
  { s.rearm h none with
    now
    registry := s.registry.markFired h
    events := .fire s.clock h (some now) :: s.events }

def step (s : Simulator) : Simulator :=
  match s.target with
  | none => s
  | some target =>
    match s.next? target with
    | none => { s with now := target, target := none }
    | some (e, a) => ((s.fire e.handle a.trigger).execAll e.callback.ops).await

def steps (n : Nat) (s : Simulator) : Simulator := Nat.repeat step n s

/-- The simulator that takes over a clock on fake time, with the armings that history has not
ended. -/
def ofClock (c : Nat) (r : Registry) (f : FakeTime) (names : List (String × TimerHandle))
    (history : List Event) : Simulator where
  clock := c
  now := f.now
  target := f.final.map (·.target)
  registry := r
  arming h := armingOf c h history
  changes := history.length
  names := names

end Simulator

end VirtualClock
