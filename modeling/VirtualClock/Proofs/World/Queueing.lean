import VirtualClock.Proofs.EventLoop.Queueing
import VirtualClock.Proofs.World.Reachable

/-!
The line of work through a run. Every step leaves live work in the order of its tickets: what is
next in the batch is older than all else. A fake time that queues what is due anew leaves the work
of its clock at the end of the queue, and none of it in the batch.
-/

namespace VirtualClock

namespace FakeTime

variable (f : FakeTime) (c : Nat) (target : Duration) (l : EventLoop)

theorem queues_schedule : l.Queues (f.schedule c target l).2 := by
  have due : l.Queues (f.scheduleDue c target l).2 :=
    (EventLoop.queues_cancelAll ..).trans (EventLoop.queues_enqueueAll ..)
  exact due.trans ((EventLoop.queues_cancelAll ..).trans (EventLoop.queues_enqueueAll ..))

theorem queues_advanceTo (hasLoop : Bool) : l.Queues (f.advanceTo hasLoop c target l).2 := by
  unfold advanceTo
  simp only
  split
  · exact (EventLoop.queues_cancelAll ..).trans (queues_schedule ..)
  · exact EventLoop.queues_cancelAll ..

variable {f c target l}

theorem Ready.requeued {l' : EventLoop} (ready : Ready c l f target l') :
    EventLoop.Requeued c l (f.schedule c target l').2 := by
  rw [loop_schedule ready.ticketed ready.linked ready.sorted ready.covered]
  exact EventLoop.requeued_without_enqueueAll ready.sameBut.nextTicket_le
    fun _ => owner_of_mem_dueTasks

end FakeTime

theorem EventLoop.queues_removeSource? (l : EventLoop) (id : Option Nat) :
    l.Queues (l.removeSource? id) := by
  cases id <;> exact .of_eq rfl rfl rfl

namespace Clock

variable (k : Clock) (c : Nat) (l : EventLoop)

theorem queues_advance (delta : Duration) : l.Queues (k.advance c delta l).loop := by
  unfold advance
  split
  · exact .refl l
  · split
    · exact .refl l
    · exact FakeTime.queues_advanceTo ..

theorem queues_handleRequest (r : AdvanceRequest) : l.Queues (k.handleRequest c r l).loop := by
  unfold handleRequest
  split
  · exact .refl l
  · exact k.queues_advance c l _

theorem queues_addTimer (callback : Callback) : l.Queues (k.addTimer callback l).loop := by
  unfold addTimer
  split <;> exact .refl l

theorem queues_updateTimer (h : TimerHandle) (delay : Int32) :
    l.Queues (k.updateTimer c h delay l).loop := by
  unfold updateTimer
  split
  · unfold updateReal
    split
    · exact .refl l
    · split
      · exact .refl l
      · simp only
        split
        · exact (EventLoop.queues_removeSource? ..).trans (.of_eq rfl rfl rfl)
        · exact EventLoop.queues_removeSource? ..
  · unfold updateFake
    split
    · exact .refl l
    · split
      · exact .refl l
      · exact (EventLoop.queues_cancelAll ..).trans (FakeTime.queues_schedule ..)

theorem queues_removeTimer (h : TimerHandle) : l.Queues (k.removeTimer h l).loop := by
  unfold removeTimer
  split
  · exact .refl l
  · split
    · exact .refl l
    · simp only
      split
      · exact EventLoop.queues_removeSource? ..
      · split
        · exact EventLoop.queues_removeSource? ..
        · exact (EventLoop.queues_removeSource? ..).trans (EventLoop.queues_cancelAll ..)

theorem queues_destroy : l.Queues (k.destroy l).loop := by
  unfold destroy
  simp only
  split
  · exact .refl l
  · split
    · exact .refl l
    · split
      · exact .refl l
      · exact EventLoop.queues_cancelAll ..

variable {k c l}

theorem Replies.queues {α : Type} {op : Op} {reply : Reply α}
    (replies : k.Replies c l op reply) : l.Queues reply.loop := by
  cases replies with
  | advance delta => exact k.queues_advance c l delta
  | request r => exact k.queues_handleRequest c l r
  | add timer fires repeats => exact k.queues_addTimer l _
  | update timer h delay => exact k.queues_updateTimer c l h delay
  | remove timer h => exact k.queues_removeTimer l h
  | destroy => exact k.queues_destroy l

end Clock

theorem World.Executed.queues {w w' : World} {op : Op} (executed : Executed w op w') :
    w.loop.Queues w'.loop := by
  cases executed with
  | queued => exact EventLoop.queues_enqueueAll ..
  | called _ _ replies => exact replies.queues
  | _ => exact .refl _

namespace Moment

variable {m m' : Moment} {i : Idle} {rest : List Idle}

theorem Progress.queues (next : m.Progress m') : m.world.loop.Queues m'.world.loop := by
  cases next with
  | takes =>
    refine .of_sublist ?_ rfl
    simp [EventLoop.live, EventLoop.takeQueue]
  | skips loop _ which => rcases which with rfl | rfl <;> exact .of_eq rfl rfl rfl
  | misses | expires => exact .of_eq rfl rfl rfl
  | orphan _ batch | user _ _ batch | fires _ _ batch | applies _ batch =>
    exact EventLoop.queues_batch batch rfl rfl rfl
  | reschedules => exact FakeTime.queues_schedule ..
  | executes => exact (World.executed_exec ..).queues
  | _ => exact .refl _

theorem Step.queues (h : m.Coherent) (step : Step m m') :
    m.world.loop.Queues m'.world.loop := by
  cases step with
  | call => exact (World.executed_exec ..).queues
  | proceed => exact (progress_proceed h).queues
  | _ => exact .of_eq rfl rfl rfl

theorem queues_of_steps (h : m.Coherent) (run : Relation.ReflTransGen Step m m') :
    m.world.loop.Queues m'.world.loop := by
  induction run with
  | refl => exact .refl _
  | tail before step ih => exact ih.trans (step.queues (h.steps before))

theorem Reachable.inLine (run : Reachable m) : m.world.loop.InLine := by
  induction run with
  | refl => exact .nil
  | tail before step ih =>
    have h := Reachable.coherent before
    exact (step.queues h).inLine h.world.ticketed ih

/-- Work that is on the loop already and still there later is not before what is next now. -/
theorem Reachable.le_of_later (run : Reachable m) {j : Idle}
    (onward : Relation.ReflTransGen Step m m') (later : i ∈ m'.world.loop.live)
    (known : i.ticket < m.world.loop.nextTicket) (batch : m.world.loop.batch = j :: rest) :
    j.ticket ≤ i.ticket := by
  rcases (queues_of_steps run.coherent onward).mem_live later with live | fresh
  · exact run.inLine.le_of_batch batch live
  · exact absurd known (Nat.not_lt_of_le fresh)

end Moment

end VirtualClock
