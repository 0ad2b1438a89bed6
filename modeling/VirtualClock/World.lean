import VirtualClock.Clock

/-!
Clocks on one event loop, the names their timers were added under, and the log of what
callbacks and idles did. An operation is executed at once and gives an answer; inside a
callback or an idle the answer goes into the log.
-/

namespace VirtualClock

/-- What an operation gives back. -/
inductive Answer where
  | done
  | noClock
  | noTimer
  | clockNumber (n : Nat)
  | handle (h : TimerHandle)
  | failed (why : Failure)
  | time (t : Timespec)
  /-- The host's time, whatever it is. -/
  | hostTime (t : Timespec)
  | mode (m : Mode)
  | flag (b : Bool)
  | text (s : String)
  | settled (dispatches : Nat) (isSettled : Bool)

namespace Answer

def ofUnit : Except Failure Unit → Answer
  | .ok () => done
  | .error why => failed why

end Answer

/-- What a look at a clock shows. -/
inductive Reading where
  | fake (now : Timespec)
  | real (now : Timespec)
  | gone
  deriving DecidableEq

namespace Reading

/-- Host time differs from run to run, so its value is not shown. -/
def text : Reading → String
  | fake now => now.text
  | real _ => "real"
  | gone => "gone"

def now? : Reading → Option Timespec
  | fake now => some now
  | real now => some now
  | gone => none

end Reading

inductive LogEntry where
  | fire (timer : String) (now : Reading)
  | idle (name : String) (now : List Reading)
  | op (verb : String) (answer : Answer)

structure World where
  /-- By number; none for a clock that was dropped. -/
  clocks : List (Option Clock) := []
  loop : EventLoop := {}
  /-- Names of timers, the latest first. -/
  names : List (String × TimerHandle) := []
  /-- Latest entry first. -/
  log : List LogEntry := []

namespace World

def clock? (w : World) (c : Nat) : Option Clock := (w.clocks[c]?).join

def setClock (w : World) (c : Nat) (k : Clock) : World :=
  { w with clocks := w.clocks.set c (some k) }

def newClock (w : World) (mode : Mode) (hasLoop : Bool) : World :=
  { w with clocks := w.clocks ++ [some (.new mode hasLoop)] }

/-- Let go of a clock. Its tasks and sources stay on the loop and do nothing. The clock is gone at
once, also in the callback of one of its own timers: kept to the end of that dispatch it would only
queue more work that does nothing. -/
def dropClock (w : World) (c : Nat) : World := { w with clocks := w.clocks.set c none }

def lookup (w : World) (timer : String) : Option TimerHandle := w.names.lookup timer

def record (w : World) (entry : LogEntry) : World := { w with log := entry :: w.log }

/-- Take over the state that a call on clock `c` left behind. -/
def accept {α : Type} (w : World) (c : Nat) (reply : Reply α) : World :=
  { w.setClock c reply.clock with loop := reply.loop }

def readingOf (loop : EventLoop) (k : Option Clock) : Reading :=
  match k with
  | none => .gone
  | some k =>
    match k.source with
    | .real => .real (Clock.hostTime loop)
    | .fake f => .fake f.now.toTimespec

def reading (w : World) (c : Nat) : Reading := readingOf w.loop (w.clock? c)

def readings (w : World) : List Reading := w.clocks.map (readingOf w.loop)

/-- Whether each clock has work on the loop; none for a dropped clock. -/
def pendings (w : World) : List (Option Bool) :=
  w.clocks.map fun k => k.map (·.hasPendingDispatch)

def anyPending (w : World) : Bool := w.pendings.any (· == some true)

/-- A call on a clock's timer, found by name. -/
def onTimer
    (w : World)
    (c : Nat)
    (timer : String)
    (call : Clock → TimerHandle → Reply Unit) : Answer × World :=
  match w.clock? c with
  | none => (.noClock, w)
  | some k =>
    match w.lookup timer with
    | none => (.noTimer, w)
    | some h =>
      let reply := call k h
      (.ofUnit reply.result, w.accept c reply)

/-- A call on a clock. -/
def onClock (w : World) (c : Nat) (call : Clock → Reply Unit) : Answer × World :=
  match w.clock? c with
  | none => (.noClock, w)
  | some k =>
    let reply := call k
    (.ofUnit reply.result, w.accept c reply)

/-- A question to a clock. -/
def ask (w : World) (c : Nat) (question : Clock → Answer) : Answer × World :=
  (((w.clock? c).map question).getD .noClock, w)

def addTimer (w : World) (c : Nat) (callback : Callback) : Answer × World :=
  match w.clock? c with
  | none => (.noClock, w)
  | some k =>
    let reply := k.addTimer callback w.loop
    let w := w.accept c reply
    match reply.result with
    | .ok h => (.handle h, { w with names := (callback.name, h) :: w.names })
    | .error why => (.failed why, w)

def answerTime (loop : EventLoop) (id : ClockId) (k : Clock) : Answer :=
  match k.gettime id loop with
  | .error why => .failed (.refused why)
  | .ok t => if k.mode = .real then .hostTime t else .time t

def exec (w : World) : Op → Answer × World
  | .new mode hasLoop => (.clockNumber w.clocks.length, w.newClock mode hasLoop)
  | .add c timer fires repeats => w.addTimer c { name := timer, fires, repeats }
  | .update c timer delay => w.onTimer c timer fun k h => k.updateTimer c h delay w.loop
  | .remove c timer => w.onTimer c timer fun k h => k.removeTimer h w.loop
  | .advance c delta => w.onClock c fun k => k.advance c delta w.loop
  | .request c r => w.onClock c fun k => k.handleRequest c r w.loop
  | .gettime c id => w.ask c (answerTime w.loop id)
  | .mode c => w.ask c fun k => .mode k.mode
  | .pending c => w.ask c fun k => .flag k.hasPendingDispatch
  | .describe c => w.ask c fun k => .text k.description
  | .destroy c => w.onClock c fun k => k.destroy w.loop
  | .drop c =>
    match w.clock? c with
    | none => (.noClock, w)
    | some _ => (.done, w.dropClock c)
  | .idle name ops => (.done, { w with loop := w.loop.enqueue (.idle name ops) })

/-- An operation inside a callback or an idle: its answer is logged. -/
def execLogged (w : World) (op : Op) : World :=
  let (answer, w) := w.exec op
  w.record (.op op.verb answer)

def execAll (w : World) (ops : List Op) : World := ops.foldl execLogged w

end World

end VirtualClock
