import VirtualClock.World.Dispatch

/-!
Scenarios: some clocks on a loop and a list of steps, each reported with its answer, what the
clocks show after it, and what was logged during it.
-/

namespace VirtualClock

inductive Step where
  | op (op : Op)
  | dispatch (n : Nat)
  | settle (max : Nat)
  /-- Time in milliseconds. -/
  | wait (n cap : Nat)

structure Report where
  answer : Answer
  readings : List Reading
  pendings : List (Option Bool)
  /-- Earliest entry first. -/
  events : List LogEntry

namespace Scenario

def start (clocks : List (Mode × Bool)) : World :=
  clocks.foldl (fun w (mode, hasLoop) => w.newClock mode hasLoop) {}

def runStep (w : World) : Step → Answer × World
  | .op op => w.exec op
  | .dispatch n => (.done, w.dispatchTimes n)
  | .settle max =>
    let (n, w) := w.settle max
    (.settled n !w.anyPending, w)
  | .wait n cap => (.done, w.wait n (cap * nanosPerMilli))

/-- One step, logged on its own. -/
def report (w : World) (step : Step) : Report × World :=
  let (answer, w) := runStep { w with log := [] } step
  (⟨answer, w.readings, w.pendings, w.log.reverse⟩, w)

def run : World → List Step → List Report
  | _, [] => []
  | w, step :: steps =>
    let (r, w) := report w step
    r :: run w steps

end Scenario

end VirtualClock
