import VirtualClock.Script

/-!
The event loop that clocks share: idle work in order of insertion, and one-shot sources that
expire when host time reaches their deadline. A dispatch takes the whole queue as its batch,
so work queued meanwhile waits for the next dispatch; work can be cancelled by its ticket
until it starts, in the batch or in the queue.
-/

namespace VirtualClock

/-- Identifies one queued task; tickets are never used twice. -/
abbrev Ticket := Nat

structure Idle where
  ticket : Ticket
  task : Task

/-- A real timer waiting on the host. -/
structure Source where
  id : Nat
  /-- Host time in nanoseconds. -/
  deadline : Nat
  clock : Nat
  handle : TimerHandle
  deriving DecidableEq

structure EventLoop where
  /-- Host time in nanoseconds. -/
  now : Nat := 0
  /-- Rest of the batch being run. -/
  batch : List Idle := []
  /-- Work for the next dispatch. -/
  queue : List Idle := []
  nextTicket : Ticket := 0
  /-- By deadline; sources with equal deadlines in order of insertion. -/
  sources : List Source := []
  nextSource : Nat := 0

namespace EventLoop

/-- Everything that is still to run, in the order in which it will. -/
def live (l : EventLoop) : List Idle := l.batch ++ l.queue

def enqueueAll (l : EventLoop) (tasks : List Task) : EventLoop :=
  { l with
    queue := l.queue ++ (tasks.zipIdx l.nextTicket).map fun (task, ticket) => ⟨ticket, task⟩
    nextTicket := l.nextTicket + tasks.length }

def enqueue (l : EventLoop) (task : Task) : EventLoop := l.enqueueAll [task]

def cancel (l : EventLoop) (ticket : Ticket) : EventLoop :=
  { l with
    batch := l.batch.eraseP (·.ticket == ticket)
    queue := l.queue.eraseP (·.ticket == ticket) }

def cancelAll (l : EventLoop) (tickets : List Ticket) : EventLoop := tickets.foldl cancel l

/-- Make the queue the batch. -/
def takeQueue (l : EventLoop) : EventLoop :=
  { l with batch := l.batch ++ l.queue, queue := [] }

/-- The next task of the batch, if there is one, and the loop without it. -/
def next? (l : EventLoop) : Option (Idle × EventLoop) :=
  match l.batch with
  | [] => none
  | idle :: rest => some (idle, { l with batch := rest })

/-- Register a source `delay` nanoseconds ahead; its number is the loop's `nextSource`. -/
def insertSource (l : EventLoop) (delay : Nat) (clock : Nat) (handle : TimerHandle) : EventLoop :=
  let source : Source := ⟨l.nextSource, l.now + delay, clock, handle⟩
  let early (s : Source) : Bool := s.deadline ≤ source.deadline
  { l with
    sources := l.sources.takeWhile early ++ source :: l.sources.dropWhile early
    nextSource := l.nextSource + 1 }

def removeSource (l : EventLoop) (id : Nat) : EventLoop :=
  { l with sources := l.sources.filter (·.id != id) }

def removeSource? (l : EventLoop) (id : Option Nat) : EventLoop :=
  id.elim l l.removeSource

def expired (l : EventLoop) : List Source := l.sources.filter (·.deadline ≤ l.now)

end EventLoop

end VirtualClock
