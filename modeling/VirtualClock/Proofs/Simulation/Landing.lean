import VirtualClock.Proofs.History.Advances
import VirtualClock.Proofs.Simulation.Refinement
import VirtualClock.Proofs.TimerList.Armed

/-!
Landings. A clock with no armed timer that nothing else on the loop calls stands at its target after
one dispatch: all its work is the final task, and none of its own callbacks gets to run.
-/

namespace VirtualClock

namespace Op

variable {c : Nat} {op : Op}

/-- Neither the operation nor any that it leaves for later is on clock `c`. -/
def Shuns (c : Nat) (op : Op) : Prop := op.Avoids c fun _ => False

theorem Shuns.leaves (shuns : op.Shuns c) :
    op.Leaves (fun d op => d ≠ c → op.Shuns c) fun _ ops => ∀ op ∈ ops, op.Shuns c where
  callbacks _ _ ops script op' member _ := shuns.scripts ops script op' member
  idles name ops same := by
    subst same
    exact shuns.scripts ops (List.mem_singleton_self ops)

end Op

/-- But for the callbacks of clock `c` itself, nothing that may run on the loop calls it. -/
def World.Shuns (c : Nat) (w : World) : Prop :=
  w.Scripted (fun d op => d ≠ c → op.Shuns c) fun _ ops => ∀ op ∈ ops, op.Shuns c

theorem FakeTime.arrived_target {f : FakeTime} (settled : f.final = none) :
    f.arrived f.target = f := by
  rw [arrived, target, settled]
  obtain ⟨now, timers, _⟩ := f
  cases settled
  rfl

theorem Event.Retargets.clock? {c : Nat} {e : Event} (retargets : e.Retargets c) :
    e.clock? = some c := by
  unfold Retargets at retargets
  split at retargets
  · exact congrArg some retargets
  · exact congrArg some retargets
  · exact congrArg some retargets
  · cases retargets

namespace Moment

variable {m m' : Moment} {c : Nat} {r : Registry} {f : FakeTime} {k : Clock}

theorem Untouched.keeps (untouched : Untouched c m m') (step : Step m m') : Keeps c m m' where
  step := step
  event e history retargets := by
    obtain ⟨events, history', foreign⟩ := untouched.history
    have same : events = [e] := List.append_cancel_right (history'.symm.trans history)
    exact foreign e (same ▸ List.mem_singleton_self e) retargets.clock?

/-- No callback of clock `c` is running, and nothing else is going to call it. -/
structure Shuns (c : Nat) (m : Moment) : Prop where
  world : m.world.Shuns c
  ops : ∀ origin ops, m.stage = .running origin ops → ∀ op ∈ ops, op.Shuns c
  outside : m.Outside c

namespace Shuns

theorem of_rest (shuns : m.world.Shuns c) (rest : m.stage = .rest) : m.Shuns c where
  world := shuns
  ops origin ops stage := by cases rest.symm.trans stage
  outside := outside_of_rest rest

theorem turn (shuns : m.Shuns c) : m.turn.Shuns c where
  world := shuns.world
  ops origin ops stage := by cases stage
  outside g now ops stage := by cases stage

theorem elsewhere (shuns : m.Shuns c)
    (task : m.stage = .draining → ∀ i rest, m.world.loop.batch = i :: rest → i.isOf c = false) :
    m.Elsewhere c where
  task := task
  callback h now := shuns.outside h now []
  op origin op ops stage := (shuns.ops origin (op :: ops) stage op List.mem_cons_self).clock?

theorem progress (shuns : m.Shuns c) (h : m.Coherent) (found : m.world.clock? c = some k)
    (fake : k.mode = .fake) (next : m.Progress m') (outside : m'.Outside c) : m'.Shuns c where
  world := next.scripted h shuns.world fun origin op ops stage =>
    (shuns.ops origin (op :: ops) stage op List.mem_cons_self).leaves
  ops origin ops stage := by
    rcases next.running shuns.world stage with
      ⟨op, before⟩ | ⟨rfl, foreign⟩ | ⟨d, k', found', script, taken⟩
    · intro op' member
      exact shuns.ops origin (op :: ops) before op' (List.mem_cons_of_mem op member)
    · exact foreign
    · have foreign : d ≠ c := by
        rintro rfl
        rcases taken with ⟨sources, rfl, real⟩ | ⟨g, now, rfl⟩
        · cases found.symm.trans found'
          cases fake.symm.trans real
        · exact outside g now ops stage
      exact fun op member => script op member foreign
  outside := outside

end Shuns

/-- How far a dispatch has come with clock `c`, whose fake time it found to be `f`. -/
inductive Landing (c : Nat) (r : Registry) (f : FakeTime) (m : Moment) : Prop where
  /-- Once the batch is taken, the final task is in it. -/
  | ahead : m.world.clock? c = some ⟨some r, .fake f⟩ → m.stage ≠ .rest →
    (m.stage.hasBatch = true → m.world.loop.queue.filter (·.isOf c) = []) → Landing c r f m
  | landed : m.world.clock? c = some ⟨some r, .fake (f.arrived f.target)⟩ → Landing c r f m

namespace Landing

theorem of_task (unarmed : f.timers.armed = []) (found : m.world.clock? c = some ⟨some r, .fake f⟩)
    (shuns : m.Shuns c) (h : m.Coherent) (stage : m.stage = .draining) {i : Idle}
    {rest : List Idle} (batch : m.world.loop.batch = i :: rest) (mine : i.isOf c = true)
    (next : m.Progress m') :
    m'.world.clock? c = some ⟨some r, .fake (f.arrived f.target)⟩ ∧ m'.Shuns c ∧
      m'.history = m.history := by
  cases next with
  | resting stage' | takes stage' | skips _ stage' | misses stage' | expires _ stage'
  | returns stage' | reschedules stage' | executes _ stage' => cases stage.symm.trans stage'
  | drained _ batch' => cases batch.symm.trans batch'
  | user _ _ batch' =>
    cases batch.symm.trans batch'
    cases mine
  | @orphan d _ _ _ batch' mine' gone =>
    cases batch.symm.trans batch'
    cases (Idle.isOf_iff.mp mine).symm.trans (Idle.isOf_iff.mp mine')
    cases found.symm.trans gone
  | @fires _ d g _ _ _ t _ _ log _ batch' found' _ _ first =>
    cases batch.symm.trans batch'
    cases Idle.isOf_iff.mp mine
    cases found.symm.trans found'
    have armed : (g, t) ∈ f.timers.armed := TimerList.mem_armed.mpr first.mem
    rw [unarmed] at armed
    cases armed
  | @applies _ d _ _ _ x stage' batch' found' final later coherent nothing idle =>
    cases batch.symm.trans batch'
    cases Idle.isOf_iff.mp mine
    cases found.symm.trans found'
    have target : f.target = x.target := by rw [FakeTime.target, final]
    have next : m.Progress _ :=
      .applies stage' batch' found' final later coherent nothing idle
    refine ⟨?_, shuns.progress h found rfl next (outside_of_draining stage), rfl⟩
    rw [target]
    exact (World.clock?_setClock (World.lt_length_of_clock? found) _ _).trans (if_pos rfl)

/-- Whatever else comes next, the dispatch does not end before the final task is through. -/
theorem of_untouched (found : m.world.clock? c = some ⟨some r, .fake f⟩) (awake : m.stage ≠ .rest)
    (queue : m.stage.hasBatch = true → m.world.loop.queue.filter (·.isOf c) = [])
    (h : m.Coherent) (next : m.Progress m') (untouched : Untouched c m m') :
    Landing c r f m' := by
  have found' := untouched.clock.trans found
  by_cases rest : m'.stage = .rest
  · rcases next.drained_of_rest rest with resting | ⟨stage, drained⟩
    · exact absurd resting awake
    · have idle : m.world.loop.idlesOf c = [] := by
        rw [EventLoop.idlesOf_eq, drained, queue (stage ▸ rfl)]
        rfl
      obtain ⟨_, linked⟩ := (h.world.clocks c _ found).fake rfl
      have settled := FakeTime.final_of_idles_eq_nil (linked.symm.trans idle)
      exact .landed (found'.trans (by rw [FakeTime.arrived_target settled]))
  · refine .ahead found' rest ?_
    intro batch
    rcases next.hasBatch batch with taken | batch
    · rw [next.queue_eq_nil taken]
      rfl
    · have early : m.stage ≠ .expiring [] := fun at_ => by
        rw [at_] at batch
        cases batch
      exact (untouched.loop early).queue.trans (queue batch)

theorem proceed (landing : Landing c r f m) (h : m.Coherent) (shuns : m.Shuns c)
    (unarmed : f.timers.armed = []) :
    Landing c r f m.proceed ∧ m.proceed.Shuns c ∧ Keeps c m m.proceed := by
  have next := progress_proceed h
  cases landing with
  | landed found =>
    obtain ⟨coherent, linked⟩ := (h.world.clocks c _ found).fake rfl
    have idle : m.world.loop.idlesOf c = [] := linked.trans (coherent.idles_eq_nil rfl)
    have untouched := next.untouched h found rfl
      (shuns.elsewhere fun _ _ _ => EventLoop.isOf_eq_false_of_idle idle)
    exact ⟨.landed (untouched.clock.trans found),
      shuns.progress h found rfl next (untouched.outside shuns.outside), untouched.keeps .proceed⟩
  | ahead found awake queue =>
    by_cases task : m.stage = .draining → ∀ i rest, m.world.loop.batch = i :: rest →
        i.isOf c = false
    · have untouched := next.untouched h found rfl (shuns.elsewhere task)
      exact ⟨of_untouched found awake queue h next untouched,
        shuns.progress h found rfl next (untouched.outside shuns.outside),
        untouched.keeps .proceed⟩
    · simp only [not_forall, Bool.not_eq_false] at task
      obtain ⟨stage, i, rest, batch, mine⟩ := task
      obtain ⟨landed, shuns', history⟩ := of_task unarmed found shuns h stage batch mine next
      refine ⟨.landed landed, shuns', .proceed, ?_⟩
      intro e last
      exact absurd (last.symm.trans history) (List.cons_ne_self _ _)

end Landing

/-- After a dispatch the clock stands at its target, and the target has not moved meanwhile. -/
theorem landed_of_turn (h : m.Coherent) (rest : m.stage = .rest)
    (found : m.world.clock? c = some ⟨some r, .fake f⟩) (unarmed : f.timers.armed = [])
    (shuns : m.world.Shuns c) (dispatch : m.turn.Proceeds m') (rest' : m'.stage = .rest) :
    m'.world.clock? c = some ⟨some r, .fake (f.arrived f.target)⟩ ∧ m'.world.Shuns c ∧
      Relation.ReflTransGen (Keeps c) m m' := by
  have turns : Keeps c m m.turn := by
    refine ⟨.turn rest, ?_⟩
    intro e last
    exact absurd last.symm (List.cons_ne_self _ _)
  have onward : m'.Coherent ∧ Landing c r f m' ∧ m'.Shuns c ∧
      Relation.ReflTransGen (Keeps c) m m' := by
    clear rest'
    induction dispatch with
    | refl =>
      exact ⟨h.step (.turn rest), .ahead found (by rintro ⟨⟩) (by rintro ⟨⟩),
        (Shuns.of_rest shuns rest).turn, .single turns⟩
    | tail _ last ih =>
      subst last
      obtain ⟨h', landing, shuns, path⟩ := ih
      obtain ⟨landing', shuns', keeps⟩ := landing.proceed h' shuns unarmed
      exact ⟨h'.step .proceed, landing', shuns', path.tail keeps⟩
  obtain ⟨_, landing, shuns, path⟩ := onward
  cases landing with
  | ahead _ awake => exact absurd rest' awake
  | landed landed => exact ⟨landed, shuns.world, path⟩

end Moment

end VirtualClock
