import VirtualClock.Proofs.Clock.Overlay
import VirtualClock.Proofs.World.Moment

/-!
Operations and what follows them in a world with an addition to its loop. As long as no clock holds
a ticket or a source of the addition, an operation gives the same answer and the same world, with
the addition untouched; so do the end of a callback and the start of one.
-/

namespace VirtualClock

namespace World

/-- The world with an addition to its loop. -/
def overlaid (w : World) (lay : EventLoop → EventLoop) : World := { w with loop := lay w.loop }

/-- Every clock holds only tickets with `tickets` and only sources with `numbers`. -/
def Spares (w : World) (tickets : Ticket → Prop) (numbers : Nat → Prop) : Prop :=
  ∀ c k, w.clock? c = some k → k.Spares tickets numbers

variable {w : World} {lay : EventLoop → EventLoop} {tickets : Ticket → Prop}
  {numbers : Nat → Prop} (overlay : EventLoop.Overlay lay tickets numbers)

section reading

include overlay

theorem readingOf_overlaid (l : EventLoop) (k : Option Clock) :
    readingOf (lay l) k = readingOf l k := by
  unfold readingOf
  split
  · rfl
  · split
    · simp only [Clock.hostTime, overlay.now]
    · rfl

theorem reading_overlaid (w : World) (c : Nat) : (w.overlaid lay).reading c = w.reading c :=
  readingOf_overlaid overlay w.loop (w.clock? c)

theorem answerTime_overlaid (l : EventLoop) (id : ClockId) (k : Clock) :
    answerTime (lay l) id k = answerTime l id k := by
  simp only [answerTime, Clock.gettime_overlaid overlay]

end reading

section exec

theorem onClock_overlaid {c : Nat} {call call' : Clock → Reply Unit}
    (commutes : ∀ k, w.clock? c = some k → call' k = (call k).overlaid lay) :
    (w.overlaid lay).onClock c call' =
      ((w.onClock c call).1, (w.onClock c call).2.overlaid lay) := by
  have same : (w.overlaid lay).clock? c = w.clock? c := rfl
  unfold onClock
  simp only [same]
  split
  · rfl
  · next k found =>
    simp only [commutes k found]
    rfl

theorem onTimer_overlaid {c : Nat} {timer : String} {call call' : Clock → TimerHandle → Reply Unit}
    (commutes : ∀ k h, w.clock? c = some k → call' k h = (call k h).overlaid lay) :
    (w.overlaid lay).onTimer c timer call' =
      ((w.onTimer c timer call).1, (w.onTimer c timer call).2.overlaid lay) := by
  have same : (w.overlaid lay).clock? c = w.clock? c := rfl
  have names : (w.overlaid lay).lookup timer = w.lookup timer := rfl
  unfold onTimer
  simp only [same, names]
  split
  · rfl
  · next k found =>
    split
    · rfl
    · next h _ =>
      simp only [commutes k h found]
      rfl

theorem addTimer_overlaid (w : World) (lay : EventLoop → EventLoop) (c : Nat)
    (callback : Callback) :
    (w.overlaid lay).addTimer c callback =
      ((w.addTimer c callback).1, (w.addTimer c callback).2.overlaid lay) := by
  have same : (w.overlaid lay).clock? c = w.clock? c := rfl
  unfold addTimer
  simp only [same]
  split
  · rfl
  · next k _ =>
    have commutes := Clock.addTimer_overlaid (k := k) lay w.loop callback
    simp only [show (w.overlaid lay).loop = lay w.loop from rfl, commutes]
    cases answered : (k.addTimer callback w.loop).result <;>
      simp only [Reply.overlaid, answered] <;> rfl

variable (spares : w.Spares tickets numbers)

include overlay spares

/-- An operation gives the same answer, and leaves the addition where it is. -/
theorem exec_overlaid (op : Op) :
    (w.overlaid lay).exec op = ((w.exec op).1, (w.exec op).2.overlaid lay) := by
  have loop : (w.overlaid lay).loop = lay w.loop := rfl
  cases op with
  | new mode hasLoop => rfl
  | add c timer fires repeats => exact addTimer_overlaid w lay c _
  | update c timer delay =>
    refine onTimer_overlaid fun k h found => ?_
    exact Clock.updateTimer_overlaid overlay (spares c k found) c w.loop h delay
  | remove c timer =>
    refine onTimer_overlaid fun k h found => ?_
    exact Clock.removeTimer_overlaid overlay (spares c k found) w.loop h
  | advance c delta =>
    refine onClock_overlaid fun k found => ?_
    exact Clock.advance_overlaid overlay (spares c k found) c w.loop delta
  | request c r =>
    refine onClock_overlaid fun k found => ?_
    exact Clock.handleRequest_overlaid overlay (spares c k found) c w.loop r
  | gettime c id =>
    change ((((w.clock? c).map _).getD _), _) = ((((w.clock? c).map _).getD _), _)
    rw [loop, funext (answerTime_overlaid overlay w.loop id)]
    rfl
  | mode c => rfl
  | pending c => rfl
  | describe c => rfl
  | destroy c =>
    refine onClock_overlaid fun k found => ?_
    exact Clock.destroy_overlaid overlay (spares c k found) w.loop
  | drop c =>
    have same : (w.overlaid lay).clock? c = w.clock? c := rfl
    simp only [exec, same]
    cases w.clock? c <;> rfl
  | idle name ops =>
    simp only [exec, loop, EventLoop.enqueue, overlay.enqueueAll]
    rfl

theorem execLogged_overlaid (op : Op) :
    (w.overlaid lay).execLogged op = (w.execLogged op).overlaid lay := by
  simp only [execLogged, exec_overlaid overlay spares op]
  rfl

theorem called_overlaid (op : Op) : (w.overlaid lay).called op = w.called op := by
  simp only [called, exec_overlaid overlay spares op]
  rfl

theorem reschedule_overlaid (c : Nat) :
    (w.overlaid lay).reschedule c = (w.reschedule c).overlaid lay := by
  have same : (w.overlaid lay).clock? c = w.clock? c := rfl
  have loop : (w.overlaid lay).loop = lay w.loop := rfl
  unfold reschedule
  simp only [same, loop]
  split
  · rfl
  · next k found =>
    split
    · rfl
    · next f fake =>
      have held := (spares c k found).tickets f fake
      simp only [FakeTime.reschedule_overlaid overlay c w.loop held]
      rfl

end exec

section task

include overlay

/-- What applies an advance leaves the addition where it is; its own final task may hold a ticket
of it. -/
theorem applyFinal_overlaid {c : Nat}
    (spares : ∀ k f, w.clock? c = some k → k.source = .fake f →
      ∀ t ∈ f.timers.toList, ∀ n, t.pending = some n → tickets n) :
    (w.overlaid lay).applyFinal c = (w.applyFinal c).overlaid lay := by
  have same : (w.overlaid lay).clock? c = w.clock? c := rfl
  have loop : (w.overlaid lay).loop = lay w.loop := rfl
  unfold applyFinal
  simp only [same, loop]
  split
  · rfl
  · next k found =>
    split
    · rfl
    · next f fake =>
      simp only [FakeTime.applyFinal_overlaid overlay c w.loop (spares k f found fake)]
      rfl

theorem enter?_overlaid (w : World) (c : Nat) (h : TimerHandle) :
    (w.overlaid lay).enter? c h =
      (w.enter? c h).map fun entered => (entered.1, entered.2.overlaid lay) := by
  have same : (w.overlaid lay).clock? c = w.clock? c := rfl
  unfold enter?
  simp only [same]
  split
  · rfl
  · next k _ =>
    split
    · rfl
    · next e _ =>
      let counted : World := w.setClock c { k with registry := k.registry.map (·.markFired h) }
      have reading := reading_overlaid overlay counted c
      change some (e.callback.ops,
        (counted.overlaid lay).record
          (.fire e.callback.name ((counted.overlaid lay).reading c))) = _
      rw [reading]
      rfl

end task

end World

namespace Moment

/-- The moment with an addition to its loop. -/
def overlaid (m : Moment) (lay : EventLoop → EventLoop) : Moment :=
  { m with world := m.world.overlaid lay }

variable {m : Moment} {lay : EventLoop → EventLoop} {tickets : Ticket → Prop}
  {numbers : Nat → Prop} (overlay : EventLoop.Overlay lay tickets numbers)

include overlay

theorem enter_overlaid (m : Moment) (c : Nat) (h : TimerHandle) (origin : Origin) :
    (m.overlaid lay).enter c h origin = (m.enter c h origin).overlaid lay := by
  have world : (m.overlaid lay).world = m.world.overlaid lay := rfl
  have now : (m.world.overlaid lay).fakeNow? c = m.world.fakeNow? c := rfl
  unfold enter
  simp only [world, World.enter?_overlaid overlay m.world, now]
  cases m.world.enter? c h <;> rfl

theorem fire_overlaid (m : Moment) (c : Nat) (h : TimerHandle) :
    (m.overlaid lay).fire c h = (m.fire c h).overlaid lay := by
  have same : (m.overlaid lay).world.clock? c = m.world.clock? c := rfl
  unfold fire
  simp only [same]
  split
  · rfl
  · next k _ =>
    split
    · rfl
    · next f _ =>
      split
      · exact enter_overlaid overlay
          { m with world := m.world.setClock c { k with source := .fake (f.fire h).1 } } c h _
      · rfl

theorem proceed_overlaid (spares : m.world.Spares tickets numbers) {origin : Origin} {ops : List Op}
    (running : m.stage = .running origin ops) :
    (m.overlaid lay).proceed = m.proceed.overlaid lay := by
  have stage : (m.overlaid lay).stage = .running origin ops := running
  cases ops with
  | nil =>
    simp only [proceed, stage, running]
    cases origin with
    | source rest => rfl
    | idle => rfl
    | timer c g now =>
      simp only [finish]
      rw [show (m.overlaid lay).world = m.world.overlaid lay from rfl,
        World.reschedule_overlaid overlay spares]
      rfl
  | cons op ops =>
    simp only [proceed, stage, running]
    rw [show (m.overlaid lay).world = m.world.overlaid lay from rfl,
      World.execLogged_overlaid overlay spares, World.called_overlaid overlay spares]
    rfl

end Moment

end VirtualClock
