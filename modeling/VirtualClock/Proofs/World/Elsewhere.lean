import VirtualClock.Proofs.World.Reachable

/-!
Steps elsewhere. As long as nothing of a clock on fake time comes next, neither an operation on it
nor a task of its own nor the end of its callback, a step leaves the clock, its work on the loop
and its part of history as they are.
-/

namespace VirtualClock

/-- Two loops with the same work of clock `c` in the same places. -/
structure EventLoop.SameFor (c : Nat) (l l' : EventLoop) : Prop where
  batch : l'.batch.filter (·.isOf c) = l.batch.filter (·.isOf c)
  queue : l'.queue.filter (·.isOf c) = l.queue.filter (·.isOf c)

namespace EventLoop

variable {c d : Nat} {l l' : EventLoop}

theorem SameFor.of_eq (batch : l'.batch = l.batch) (queue : l'.queue = l.queue) : SameFor c l l' :=
  ⟨by rw [batch], by rw [queue]⟩

theorem SameBut.sameFor (h : SameBut d l l') (other : c ≠ d) : SameFor c l l' :=
  ⟨h.batch_of other, h.queue_of other⟩

theorem sameFor_withBatch {i : Idle} {rest : List Idle} (batch : l.batch = i :: rest)
    (other : i.isOf c = false) : SameFor c l (l.withBatch rest) where
  batch := by simp [withBatch, batch, other]
  queue := rfl

end EventLoop

namespace World

variable {w w' : World} {c : Nat}

theorem Coherent.sameFor (h : w.Coherent) {op : Op} (executed : Executed w op w')
    (elsewhere : op.clock? ≠ some c) : EventLoop.SameFor c w.loop w'.loop := by
  cases executed with
  | still => exact .of_eq rfl rfl
  | created => exact .of_eq rfl rfl
  | dropped => exact .of_eq rfl rfl
  | queued name ops =>
    refine ⟨rfl, ?_⟩
    simp [EventLoop.enqueue, Idle.isOf, Task.owner?]
  | called added found replies =>
    have other : c ≠ _ := fun same => elsewhere (replies.clock?.trans (congrArg some same.symm))
    exact (replies.kept h.ticketed (h.clocks _ _ found)).loop.sameFor other

end World

namespace Moment

variable {m m' : Moment} {c : Nat} {k : Clock}

/-- Nothing of clock `c` comes next. -/
structure Elsewhere (m : Moment) (c : Nat) : Prop where
  task : m.stage = .draining → ∀ i rest, m.world.loop.batch = i :: rest → i.isOf c = false
  callback : ∀ h now, m.stage ≠ .running (.timer c h now) []
  op : ∀ origin op ops, m.stage = .running origin (op :: ops) → op.clock? ≠ some c

/-- What a step elsewhere leaves as it is. -/
structure Untouched (c : Nat) (m m' : Moment) : Prop where
  clock : m'.world.clock? c = m.world.clock? c
  loop : m.stage ≠ .expiring [] → EventLoop.SameFor c m.world.loop m'.world.loop
  stage : ∀ h now ops, m'.stage = .running (.timer c h now) ops →
    ∃ ops', m.stage = .running (.timer c h now) ops'
  history : ∃ events, m'.history = events ++ m.history ∧ ∀ e ∈ events, e.clock? ≠ some c

theorem Untouched.still (clock : m'.world.clock? c = m.world.clock? c)
    (loop : m.stage ≠ .expiring [] → EventLoop.SameFor c m.world.loop m'.world.loop)
    (stage : ∀ h now ops, m'.stage = .running (.timer c h now) ops →
      ∃ ops', m.stage = .running (.timer c h now) ops')
    (history : m'.history = m.history) : Untouched c m m' where
  clock := clock
  loop := loop
  stage := stage
  history := ⟨[], history, fun _ member => absurd member List.not_mem_nil⟩

theorem Untouched.logged {e : Event} (clock : m'.world.clock? c = m.world.clock? c)
    (loop : m.stage ≠ .expiring [] → EventLoop.SameFor c m.world.loop m'.world.loop)
    (stage : ∀ h now ops, m'.stage = .running (.timer c h now) ops →
      ∃ ops', m.stage = .running (.timer c h now) ops')
    (history : m'.history = e :: m.history) (foreign : e.clock? ≠ some c) :
    Untouched c m m' where
  clock := clock
  loop := loop
  stage := stage
  history := ⟨[e], history, fun _ member => List.mem_singleton.mp member ▸ foreign⟩

theorem clock?_setClock_of_ne {w : World} {d : Nat} {k' : Clock} (found : w.clock? d = some k')
    (other : c ≠ d) (k : Clock) : (w.setClock d k).clock? c = w.clock? c := by
  rw [World.clock?_setClock (World.lt_length_of_clock? found), if_neg other]

theorem Progress.untouched (h : m.Coherent) (next : m.Progress m')
    (found : m.world.clock? c = some k) (fake : k.mode = .fake) (elsewhere : m.Elsewhere c) :
    Untouched c m m' := by
  have foreign {d : Nat} {k' : Clock} (found' : m.world.clock? d = some k')
      (real : k'.mode = .real) : c ≠ d := by
    rintro rfl
    rw [found] at found'
    cases found'
    rw [fake] at real
    cases real
  cases next with
  | resting => exact .still rfl (fun _ => .of_eq rfl rfl) (fun _ _ ops at_ => ⟨ops, at_⟩) rfl
  | takes stage =>
    exact .still rfl (fun other => absurd stage other) (fun _ _ _ => nofun) rfl
  | skips loop stage which =>
    refine .still rfl ?_ (fun _ _ _ => nofun) rfl
    intro _
    rcases which with rfl | rfl <;> exact .of_eq rfl rfl
  | misses stage found' real =>
    exact .still (clock?_setClock_of_ne found' (foreign found' real) _) (fun _ => .of_eq rfl rfl)
      (fun _ _ _ => nofun) rfl
  | expires log stage found' real registered entry =>
    have other := foreign found' real
    exact .logged (clock?_setClock_of_ne found' other _) (fun _ => .of_eq rfl rfl)
      (fun _ _ _ => nofun) rfl fun same => other (Option.some.inj same).symm
  | drained => exact .still rfl (fun _ => .of_eq rfl rfl) (fun _ _ _ => nofun) rfl
  | orphan stage batch own gone =>
    exact .still rfl
      (fun _ => EventLoop.sameFor_withBatch batch (elsewhere.task stage _ _ batch))
      (fun _ _ ops at_ => ⟨ops, at_⟩) rfl
  | user log stage batch =>
    exact .still rfl
      (fun _ => EventLoop.sameFor_withBatch batch (elsewhere.task stage _ _ batch))
      (fun _ _ _ => nofun) rfl
  | @fires ticket d g rest r f _ _ _ log stage batch found' =>
    have foreign := elsewhere.task stage _ _ batch
    have other : c ≠ d := by
      rintro rfl
      rw [Idle.isOf_timer] at foreign
      cases foreign
    refine .logged (clock?_setClock_of_ne found' other _)
      (fun _ => EventLoop.sameFor_withBatch batch foreign) (fun _ _ _ at_ => ?_) rfl
      fun same => other (Option.some.inj same).symm
    cases at_
    exact absurd rfl other
  | @applies ticket d rest r f _ stage batch found' =>
    have foreign := elsewhere.task stage _ _ batch
    have other : c ≠ d := by
      rintro rfl
      rw [Idle.isOf_finalTime] at foreign
      cases foreign
    exact .still (clock?_setClock_of_ne found' other _)
      (fun _ => EventLoop.sameFor_withBatch batch foreign) (fun _ _ ops at_ => ⟨ops, at_⟩) rfl
  | @returns origin =>
    refine .still rfl (fun _ => .of_eq rfl rfl) ?_ rfl
    intro _ _ _ at_
    cases origin <;> cases at_
  | @reschedules d g now r f stage found' outcome =>
    have other : c ≠ d := by
      rintro rfl
      exact elsewhere.callback g now stage
    exact .still (clock?_setClock_of_ne found' other _) (fun _ => outcome.sameBut.sameFor other)
      (fun _ _ _ => nofun) rfl
  | @executes origin op ops log stage =>
    have executed := World.executed_exec m.world op
    have away := elsewhere.op _ _ _ stage
    have same := h.world.sameFor executed away
    refine .logged (executed.clock?_eq (World.lt_length_of_clock? found) away)
      (fun _ => ⟨same.batch, same.queue⟩) (fun _ _ _ at_ => ?_) rfl away
    cases at_
    exact ⟨_, stage⟩

theorem untouched_call (h : m.Coherent) {op : Op} (found : m.world.clock? c = some k)
    (away : op.clock? ≠ some c) :
    Untouched c m
      { m with world := (m.world.exec op).2, history := m.world.called op :: m.history } :=
  have executed := World.executed_exec m.world op
  .logged (executed.clock?_eq (World.lt_length_of_clock? found) away)
    (fun _ => h.world.sameFor executed away) (fun _ _ ops at_ => ⟨ops, at_⟩) rfl away

end Moment

end VirtualClock
