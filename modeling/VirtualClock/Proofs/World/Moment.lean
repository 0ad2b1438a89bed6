import Mathlib.Logic.Relation
import VirtualClock.World.Dispatch

/-!
Runs in their smallest steps. A moment is a world, what its loop is in the middle of, and the
history of calls and firings that led there. It goes on by one operation, one task or one source
at a time, so every point between two operations of a callback is a moment of its own; between
two dispatches any operation may be called and host time may pass.
-/

namespace VirtualClock

/-- The clock that an operation is called on. -/
def Op.clock? : Op → Option Nat
  | new .. => none
  | add c .. => some c
  | update c .. => some c
  | remove c _ => some c
  | advance c _ => some c
  | request c _ => some c
  | gettime c _ => some c
  | mode c => some c
  | pending c => some c
  | describe c => some c
  | destroy c => some c
  | drop c => some c
  | idle .. => none

/-- The name under which an operation looks for a timer. -/
def Op.timer? : Op → Option String
  | update _ timer _ => some timer
  | remove _ timer => some timer
  | _ => none

/-- The name that an operation gives to a timer. -/
def Op.adds? : Op → Option String
  | add _ timer .. => some timer
  | _ => none

inductive Event where
  /-- A call, with the timer it found, the fake time of its clock before it, and its answer. -/
  | call (op : Op) (handle : Option TimerHandle) (now : Option Duration) (answer : Answer)
  /-- The start of a timer's callback, with the fake time of its clock. -/
  | fire (clock : Nat) (handle : TimerHandle) (now : Option Duration)

def Event.clock? : Event → Option Nat
  | call op .. => op.clock?
  | fire c .. => some c

namespace World

def fakeTime? (w : World) (c : Nat) : Option FakeTime := (w.clock? c).bind (·.fakeTime?)

def fakeNow? (w : World) (c : Nat) : Option Duration := (w.fakeTime? c).map (·.now)

/-- The call of an operation, as history has it. -/
def called (w : World) (op : Op) : Event :=
  .call op (op.timer?.bind w.lookup) (op.clock?.bind w.fakeNow?) (w.exec op).1

/-- The operations of the next firing of a timer, and the world in which they start: the firing
is counted and logged. None for a timer that is not registered. -/
def enter? (w : World) (c : Nat) (h : TimerHandle) : Option (List Op × World) :=
  match w.clock? c with
  | none => none
  | some k =>
    match k.registry.bind (·.find? h) with
    | none => none
    | some e =>
      let w := w.setClock c { k with registry := k.registry.map (·.markFired h) }
      some (e.callback.ops, w.record (.fire e.callback.name (w.reading c)))

theorem runCallback_eq (w : World) (c : Nat) (h : TimerHandle) :
    w.runCallback c h = (w.enter? c h).elim w fun (ops, w) => w.execAll ops := by
  unfold runCallback enter?
  cases w.clock? c with
  | none => rfl
  | some k =>
    simp only
    cases k.registry.bind (·.find? h) <;> rfl

end World

/-- Whose operations are being run. -/
inductive Origin where
  /-- The callback of a source; with the expired sources that come after it. -/
  | source (rest : List Source)
  /-- The callback of a timer on fake time, which is `now`. -/
  | timer (clock : Nat) (handle : TimerHandle) (now : Duration)
  /-- A user's idle. -/
  | idle

inductive Stage where
  /-- Between two dispatches. -/
  | rest
  /-- In a dispatch, with expired sources to go. -/
  | expiring (sources : List Source)
  /-- In a dispatch, between two tasks of the batch. -/
  | draining
  /-- In a callback or an idle, with operations to go. -/
  | running (origin : Origin) (ops : List Op)

/-- Where a dispatch goes on after a callback or an idle. -/
def Origin.after : Origin → Stage
  | source rest => .expiring rest
  | timer .. => .draining
  | idle => .draining

structure Moment where
  world : World := {}
  stage : Stage := .rest
  /-- Latest event first. -/
  history : List Event := []

namespace Moment

/-- Start the callback of a timer, if there is one. -/
def enter (m : Moment) (c : Nat) (h : TimerHandle) (origin : Origin) : Moment :=
  match m.world.enter? c h with
  | none => { m with stage := .running origin [] }
  | some (ops, world) =>
    ⟨world, .running origin ops, .fire c h (m.world.fakeNow? c) :: m.history⟩

/-- Take up a source that had expired when the dispatch started. -/
def expire (m : Moment) (s : Source) (rest : List Source) : Moment :=
  if s ∈ m.world.loop.sources then
    let w := { m.world with loop := m.world.loop.removeSource s.id }
    match w.clock? s.clock with
    | none => { m with world := w, stage := .expiring rest }
    | some k =>
      let k := { k with registry := k.registry.map (·.setSource s.handle none) }
      { m with world := w.setClock s.clock k }.enter s.clock s.handle (.source rest)
  else { m with stage := .expiring rest }

/-- Take up the dispatch of a timer. -/
def fire (m : Moment) (c : Nat) (h : TimerHandle) : Moment :=
  match m.world.clock? c with
  | none => { m with stage := .draining }
  | some k =>
    match k.source with
    | .real => { m with stage := .draining }
    | .fake f =>
      let (f, fires) := f.fire h
      let m := { m with world := m.world.setClock c { k with source := .fake f } }
      if fires then m.enter c h (.timer c h f.now) else { m with stage := .draining }

/-- Take up a task. -/
def start (m : Moment) : Task → Moment
  | .timer c h => m.fire c h
  | .finalTime c => { m with world := m.world.applyFinal c, stage := .draining }
  | .idle name ops =>
    { m with world := m.world.record (.idle name m.world.readings), stage := .running .idle ops }

/-- Come back from a callback or an idle. A clock on fake time queues its work anew. -/
def finish (m : Moment) (origin : Origin) : Moment :=
  match origin with
  | .timer c _ _ => { m with world := m.world.reschedule c, stage := origin.after }
  | _ => { m with stage := origin.after }

/-- What comes next in a dispatch. A moment at rest stays as it is. -/
def proceed (m : Moment) : Moment :=
  match m.stage with
  | .rest => m
  | .expiring [] =>
    { m with world := { m.world with loop := m.world.loop.takeQueue }, stage := .draining }
  | .expiring (s :: rest) => m.expire s rest
  | .draining =>
    match m.world.loop.next? with
    | none => { m with stage := .rest }
    | some (idle, loop) => { m with world := { m.world with loop } }.start idle.task
  | .running origin [] => m.finish origin
  | .running origin (op :: ops) =>
    ⟨m.world.execLogged op, .running origin ops, m.world.called op :: m.history⟩

/-- A call between two dispatches. -/
def call (m : Moment) (op : Op) : Moment :=
  { m with world := (m.world.exec op).2, history := m.world.called op :: m.history }

/-- Let host time pass between two dispatches. -/
def pass (m : Moment) (t : Nat) : Moment := { m with world := m.world.passTo t }

/-- The start of a dispatch. -/
def turn (m : Moment) : Moment := { m with stage := .expiring m.world.loop.expired }

inductive Step (m : Moment) : Moment → Prop where
  | call (op : Op) : m.stage = .rest →
    Step m { m with world := (m.world.exec op).2, history := m.world.called op :: m.history }
  | pass (t : Nat) : m.stage = .rest → Step m { m with world := m.world.passTo t }
  | clear : m.stage = .rest → Step m { m with world := { m.world with log := [] } }
  | turn : m.stage = .rest → Step m m.turn
  | proceed : Step m m.proceed

/-- What a run from nothing comes to. -/
def Reachable (m : Moment) : Prop := Relation.ReflTransGen Step {} m

/-- What a dispatch under way comes to. -/
def Proceeds : Moment → Moment → Prop := Relation.ReflTransGen fun m m' => m' = m.proceed

/-- The next `n` dispatches, from rest to rest. -/
inductive Turns (m : Moment) : Nat → Moment → Prop where
  | zero : m.stage = .rest → Turns m 0 m
  | succ {n : Nat} {m' m'' : Moment} : Turns m n m' → m'.turn.Proceeds m'' → m''.stage = .rest →
    Turns m (n + 1) m''

end Moment

end VirtualClock
