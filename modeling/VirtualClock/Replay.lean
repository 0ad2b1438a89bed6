import VirtualClock.TimerSetting
import VirtualClock.World.Dispatch

/-!
Replays: one clock on a loop of its own, timers armed in order at the start, and then either
steps of fake time, each dispatched until nothing is left to do, or host time for as long as a
timer is armed. A replay gives every firing with the time its callback saw, or nothing but the
reason why it failed.
-/

namespace VirtualClock

structure Replay where
  mode : Mode
  timers : List TimerSetting := []
  /-- Steps of fake time in milliseconds. -/
  advances : List UInt64 := []

structure Firing where
  time : Duration
  name : String
  deriving DecidableEq

inductive ReplayError where
  | failed (why : Failure)
  | unsettled
  deriving DecidableEq

namespace Replay

/-- The clock must be seen settled before this many dispatches have followed a step. -/
def settleLimit : Nat := 1024

/-- The world after an operation, which must not fail. -/
def demand : Answer × World → Except ReplayError World
  | (.failed why, _) => .error (.failed why)
  | (_, w) => .ok w

/-- Add a timer and arm it. -/
def arm (w : World) (t : TimerSetting) : Except ReplayError World := do
  let w ← demand (w.exec (.add 0 t.name [] false))
  demand (w.exec (.update 0 t.name t.delay))

/-- The clock with its timers, on a loop whose host time is `now`. -/
def start (r : Replay) (now : Nat) : Except ReplayError World :=
  r.timers.foldlM arm ((World.passTo {} now).newClock r.mode true)

/-- One step of fake time. A clock that settles with the last dispatch allowed is not seen to
have settled. -/
def advance (w : World) (step : UInt64) : Except ReplayError World := do
  let w ← demand (w.exec (.advance 0 (.ofMillis step)))
  let (n, w) := w.settle settleLimit
  if n < settleLimit then .ok w else .error .unsettled

def playFake (r : Replay) (w : World) : Except ReplayError World := r.advances.foldlM advance w

/-- Let host time pass to the next deadline and dispatch. -/
def playDeadline (w : World) : World :=
  match w.loop.sources.head? with
  | none => w
  | some s => (w.passTo (max w.loop.now s.deadline)).dispatch

/-- Host time from deadline to deadline, until no timer is armed. On this host no timer is late, so
it does not matter here that the program gives up on timers that have not fired a second after the
longest delay. -/
def playReal (w : World) : World := Nat.repeat playDeadline w.loop.sources.length w

def play (r : Replay) (w : World) : Except ReplayError World :=
  match r.mode with
  | .real => .ok (playReal w)
  | .fake => r.playFake w

def firing? : LogEntry → Option Firing
  | .fire name now => now.now?.map fun t => ⟨t.toDuration, name⟩
  | _ => none

def firings (w : World) : List Firing := w.log.reverse.filterMap firing?

/-- Remove the timers in the order in which they were added, and destroy the clock. -/
def close (w : World) : Except ReplayError World := do
  let remove (w : World) (h : TimerHandle) : Except ReplayError World :=
    demand (w.onClock 0 fun k => k.removeTimer h w.loop)
  let w ← (w.names.reverse.map (·.2)).foldlM remove w
  demand (w.exec (.destroy 0))

/-- What fired, once everything has been torn down. -/
def finish (w : World) : Except ReplayError (List Firing) := (close w).map fun _ => firings w

def run (r : Replay) : Except ReplayError (List Firing) := do
  let w ← r.start 0
  let w ← r.play w
  finish w

end Replay

def ReplayError.message : ReplayError → String
  | failed why => why.message
  | unsettled =>
    "fake clock did not settle after " ++ toString Replay.settleLimit ++ " dispatches"

/-- A line of the report: the time to three places, a tab and the name. -/
def Firing.line (f : Firing) : String := f.time.threePlaceText ++ "\t" ++ f.name ++ "\n"

end VirtualClock
