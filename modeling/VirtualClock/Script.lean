import VirtualClock.AdvanceRequest
import VirtualClock.Mode

/-!
What users of clocks do, as data: operations on clocks and timers, the callbacks of timers,
which are lists of operations, and the work that waits on the event loop. An operation never
runs another one; operations inside a callback or an idle run when the loop gets to it.
-/

namespace VirtualClock

/-- Clocks go by number and timers by the name they were added under. -/
inductive Op where
  | new (mode : Mode) (hasLoop : Bool)
  | add (clock : Nat) (timer : String) (fires : List (List Op)) (repeats : Bool)
  | update (clock : Nat) (timer : String) (delay : Int32)
  | remove (clock : Nat) (timer : String)
  | advance (clock : Nat) (delta : Duration)
  | request (clock : Nat) (r : AdvanceRequest)
  | gettime (clock : Nat) (id : ClockId)
  | mode (clock : Nat)
  | pending (clock : Nat)
  | describe (clock : Nat)
  | destroy (clock : Nat)
  | drop (clock : Nat)
  | idle (name : String) (ops : List Op)

/-- The word for an operation in the log. -/
def Op.verb : Op → String
  | new .. => "new"
  | add .. => "add"
  | update .. => "update"
  | remove .. => "remove"
  | advance .. => "advance"
  | request .. => "request"
  | gettime .. => "gettime"
  | mode .. => "mode"
  | pending .. => "pending"
  | describe .. => "debug"
  | destroy .. => "destroy"
  | drop .. => "drop"
  | idle .. => "idle"

/-- What a timer does when it fires: one list of operations per firing, in order. -/
structure Callback where
  name : String
  fires : List (List Op)
  repeats : Bool
  /-- Firings so far. -/
  count : Nat := 0

namespace Callback

/-- The operations of the next firing. Past the last list a repeating callback stays with it
and another one does nothing. -/
def ops (c : Callback) : List Op :=
  match c.fires[c.count]? with
  | some ops => ops
  | none => if c.repeats then c.fires.getLast?.getD [] else []

def fired (c : Callback) : Callback := { c with count := c.count + 1 }

end Callback

/-- Work queued on the event loop. -/
inductive Task where
  /-- Run a timer of a fake clock. -/
  | timer (clock : Nat) (handle : TimerHandle)
  /-- Make the target of the last advance the time of a fake clock. -/
  | finalTime (clock : Nat)
  /-- Run a user's operations. -/
  | idle (name : String) (ops : List Op)

/-- The clock whose own task this is. -/
def Task.owner? : Task → Option Nat
  | timer c _ => some c
  | finalTime c => some c
  | idle .. => none

end VirtualClock
