import VirtualClock.Proofs.History.FiringOrder
import VirtualClock.Proofs.Simulation.Confinement
import VirtualClock.Proofs.Simulation.Firings
import VirtualClock.Proofs.World.Turns

/-!
A confined clock refines its simulator. In one dispatch the clock is in step with the simulator
until its first task is taken up; that task does what one step of the simulator does, callback
included; and what the clock queues after that waits for the next dispatch.
-/

namespace VirtualClock

namespace Moment

variable {m m' : Moment} {c : Nat} {own : String → Prop}

theorem Progress.eq_of_rest (next : m.Progress m') (rest : m.stage = .rest) : m' = m := by
  cases next with
  | resting => rfl
  | takes stage | skips _ stage | misses stage | expires _ stage | drained stage | orphan stage
  | user _ stage | fires _ stage | applies stage | returns stage | reschedules stage
  | executes _ stage => cases rest.symm.trans stage

theorem Progress.drained_of_rest (next : m.Progress m') (rest : m'.stage = .rest) :
    m.stage = .rest ∨ m.stage = .draining ∧ m.world.loop.batch = [] := by
  cases next with
  | resting stage => exact .inl stage
  | drained stage batch => exact .inr ⟨stage, batch⟩
  | orphan stage | applies stage => cases stage.symm.trans rest
  | @returns origin => cases origin <;> cases rest
  | _ => cases rest

theorem Progress.queue_eq_nil (next : m.Progress m') (stage : m.stage = .expiring []) :
    m'.world.loop.queue = [] := by
  cases next with
  | takes => rfl
  | resting stage' | skips _ stage' | misses stage' | expires _ stage' | drained stage'
  | orphan stage' | user _ stage' | fires _ stage' | applies stage' | returns stage'
  | reschedules stage' | executes _ stage' => cases stage.symm.trans stage'

theorem Progress.hasBatch_or_rest (next : m.Progress m') (batch : m.stage.hasBatch = true) :
    m'.stage.hasBatch = true ∨ m'.stage = .rest := by
  cases next with
  | resting => exact .inl batch
  | takes | user | fires | reschedules => exact .inl rfl
  | orphan | applies => exact .inl batch
  | drained => exact .inr rfl
  | skips _ stage | misses stage | expires _ stage => simp [stage, Stage.hasBatch] at batch
  | @returns origin stage =>
    rw [stage] at batch
    cases origin <;> first | exact .inl rfl | cases batch
  | @executes origin _ _ _ stage =>
    rw [stage] at batch
    cases origin <;> first | exact .inl rfl | cases batch

theorem Progress.hasBatch (next : m.Progress m') (batch : m'.stage.hasBatch = true) :
    m.stage = .expiring [] ∨ m.stage.hasBatch = true := by
  cases next with
  | resting | orphan | applies => exact .inr batch
  | takes stage => exact .inl stage
  | skips | misses | expires | drained => cases batch
  | user _ stage | fires _ stage | reschedules stage => exact .inr (stage ▸ rfl)
  | @returns origin stage =>
    rw [stage]
    cases origin <;> first | exact .inr rfl | cases batch
  | @executes origin _ _ _ stage =>
    rw [stage]
    cases origin <;> first | exact .inr rfl | cases batch

theorem Untouched.outside (untouched : Untouched c m m') (outside : m.Outside c) :
    m'.Outside c := by
  intro g now ops at_
  obtain ⟨ops', before⟩ := untouched.stage g now ops at_
  exact outside g now ops' before

theorem Progress.lookup_eq (next : m.Progress m') (confined : m.Confined c own)
    (elsewhere : m.Elsewhere c) {timer : String} (mine : own timer) :
    m'.world.lookup timer = m.world.lookup timer := by
  cases next with
  | @executes origin op ops log stage =>
    have avoids : op.Avoids c own :=
      (confined.ops origin _ stage op List.mem_cons_self).fine.resolve_left fun within =>
        elsewhere.op _ _ _ stage within.clock?
    exact (World.executed_exec m.world op).lookup_eq (avoids.adds? mine)
  | _ => rfl

end Moment

namespace Simulator

variable {s : Simulator} {m m' : Moment} {own : String → Prop} {base : List Event}

theorem clock_execLogged (s : Simulator) (op : Op) : (s.execLogged op).clock = s.clock :=
  s.clock_exec op

theorem clock_execAll (s : Simulator) (ops : List Op) : (s.execAll ops).clock = s.clock := by
  induction ops generalizing s with
  | nil => rfl
  | cons op ops ih => exact (ih (s.execLogged op)).trans (s.clock_execLogged op)

@[simp] theorem clock_step (s : Simulator) : s.step.clock = s.clock := by
  unfold step
  split
  · rfl
  · split
    · rfl
    · exact clock_execAll ..

@[simp] theorem clock_steps (s : Simulator) (n : Nat) : (s.steps n).clock = s.clock := by
  induction n with
  | zero => rfl
  | succ n ih => exact (s.steps n).clock_step.trans ih

/-- Simulator and clock are in step. The events of the simulator are those of the clock since
`base`. -/
structure Mirrors (own : String → Prop) (base : List Event) (s : Simulator) (m : Moment) :
    Prop where
  reflects : s.Reflects own m.world
  history : m.history.filter (·.clock? = some s.clock) = s.events ++ base
  confined : m.Confined s.clock own

namespace Mirrors

theorem elsewhere (mirrors : s.Mirrors own base m) (h : m.Coherent)
    (elsewhere : m.Elsewhere s.clock) (next : m.Progress m') :
    s.Mirrors own base m' ∧ Moment.Untouched s.clock m m' := by
  obtain ⟨f, found, agrees⟩ := mirrors.reflects.clock
  have untouched := next.untouched h found rfl elsewhere
  refine ⟨⟨⟨⟨f, untouched.clock.trans found, agrees⟩, ?_⟩, ?_, ?_⟩, untouched⟩
  · intro timer mine
    exact (next.lookup_eq mirrors.confined elsewhere mine).trans (mirrors.reflects.names timer mine)
  · obtain ⟨events, split, foreign⟩ := untouched.history
    have none : events.filter (·.clock? = some s.clock) = [] :=
      List.filter_eq_nil_iff.mpr fun e member => by simpa using foreign e member
    rw [split, List.filter_append, none, List.nil_append]
    exact mirrors.history
  · exact mirrors.confined.progress h found rfl next

theorem step_of_idle (mirrors : s.Mirrors own base m) (h : m.Coherent)
    (idle : m.world.loop.idlesOf s.clock = []) : s.step = s := by
  obtain ⟨f, found, agrees⟩ := mirrors.reflects.clock
  obtain ⟨_, linked⟩ := (h.world.clocks _ _ found).fake rfl
  have final : f.final = none := FakeTime.final_of_idles_eq_nil (linked.symm.trans idle)
  have target : s.target = none := by
    rw [agrees.target, final, Option.map_none]
  simp only [step, target]

theorem executes {op : Op} (mirrors : s.Mirrors own base m) (h : m.Coherent)
    (within : op.Within s.clock own) (confined : m'.Confined s.clock own)
    (world : ∃ log, m'.world = { (m.world.exec op).2 with log })
    (history : m'.history = m.world.called op :: m.history) :
    (s.execLogged op).Mirrors own base m' := by
  obtain ⟨f, found, agrees⟩ := mirrors.reflects.clock
  obtain ⟨answer, clock, names⟩ := mirrors.reflects.exec h.world within
  obtain ⟨log, world⟩ := world
  have event : m.world.called op =
      .call op (op.timer?.bind (s.names.lookup ·)) (some s.now) (s.exec op).1 := by
    have now : m.world.fakeNow? s.clock = some s.now :=
      (World.fakeNow?_eq found rfl).trans (congrArg some agrees.now.symm)
    have handle : op.timer?.bind m.world.lookup = op.timer?.bind (s.names.lookup ·) := by
      cases within with
      | update _ mine => exact mirrors.reflects.names _ mine
      | remove mine => exact mirrors.reflects.names _ mine
      | _ => rfl
    rw [World.called, answer, handle, within.clock?, Option.bind_some, now]
  refine ⟨⟨?_, ?_⟩, ?_, ?_⟩
  · rw [world]
    obtain ⟨f', found', agrees'⟩ := clock
    exact ⟨f', found', agrees'.now, agrees'.target, agrees'.ranked, agrees'.latest⟩
  · rw [world]
    exact names
  · have on : (m.world.called op).clock? = some s.clock := within.clock?
    rw [s.clock_execLogged, history, List.filter_cons_of_pos (by simp [on]), mirrors.history, event]
    rfl
  · rw [s.clock_execLogged]
    exact confined

theorem fires (mirrors : s.Mirrors own base m) (h : m.Coherent) {r : Registry} {f : FakeTime}
    {g : TimerHandle} {d : Duration} (found : m.world.clock? s.clock = some ⟨some r, .fake f⟩)
    (first : f.timers.First g d) (confined : m'.Confined s.clock own)
    (found' : m'.world.clock? s.clock = some ⟨some (r.markFired g), .fake (f.fired g d)⟩)
    (names : m'.world.names = m.world.names)
    (history : m'.history = .fire s.clock g (some d) :: m.history) :
    (s.fire g d).Mirrors own base m' := by
  obtain ⟨f', same, agrees⟩ := mirrors.reflects.clock
  cases found.symm.trans same
  obtain ⟨coherent, _⟩ := (h.world.clocks _ _ found).fake rfl
  refine ⟨⟨⟨_, found', agrees.fire coherent first⟩, ?_⟩, ?_, confined⟩
  · intro timer mine
    rw [World.lookup, names]
    exact mirrors.reflects.names timer mine
  · have on : (Event.fire s.clock g (some d)).clock? = some s.clock := rfl
    change m'.history.filter (·.clock? = some s.clock) =
      .fire s.clock g (some d) :: s.events ++ base
    rw [history, List.filter_cons_of_pos (by simp [on]), mirrors.history]
    rfl

/-- A step that changes fake time without an event. -/
theorem silent {f' : FakeTime} (mirrors : s.Mirrors own base m) (s' : Simulator)
    (same : s'.clock = s.clock) (sameNames : s'.names = s.names) (sameEvents : s'.events = s.events)
    (confined : m'.Confined s.clock own)
    (found' : m'.world.clock? s.clock = some ⟨some s'.registry, .fake f'⟩) (agrees : s'.Agrees f')
    (names : m'.world.names = m.world.names) (history : m'.history = m.history) :
    s'.Mirrors own base m' := by
  refine ⟨⟨⟨f', same ▸ found', agrees⟩, ?_⟩, ?_, same ▸ confined⟩
  · intro timer mine
    rw [World.lookup, names, sameNames]
    exact mirrors.reflects.names timer mine
  · rw [history, same, sameEvents]
    exact mirrors.history

end Mirrors

/-- How far a dispatch has come in what one step of the simulator does. -/
inductive Phase (own : String → Prop) (base : List Event) (s : Simulator) (m : Moment) : Prop where
  | before :
    s.Mirrors own base m → m.stage ≠ .rest → m.Outside s.clock →
    (m.stage.hasBatch = true → m.world.loop.queue.filter (·.isOf s.clock) = []) →
    Phase own base s m
  | during {s' : Simulator} {g : TimerHandle} {now : Duration} {ops : List Op} :
    s'.Mirrors own base m → s'.clock = s.clock → m.stage = .running (.timer s.clock g now) ops →
    (s'.execAll ops).await = s.step → Phase own base s m
  | after :
    s.step.Mirrors own base m → m.stage.hasBatch = true → m.Outside s.clock →
    m.world.loop.batch.filter (·.isOf s.clock) = [] → Phase own base s m
  | done : s.step.Mirrors own base m → m.stage = .rest → Phase own base s m

namespace Phase

/-- The first task of the clock does what the simulator's step starts with. -/
theorem of_task (mirrors : s.Mirrors own base m) (h : m.Coherent) (outside : m.Outside s.clock)
    (stage : m.stage = .draining) {i : Idle} {rest : List Idle}
    (batch : m.world.loop.batch = i :: rest) (mine : i.isOf s.clock = true)
    (next : m.Progress m') : Phase own base s m' := by
  obtain ⟨f, found, agrees⟩ := mirrors.reflects.clock
  obtain ⟨numbered, _⟩ := (h.world.clocks _ _ found).registered
  obtain ⟨coherent, _⟩ := (h.world.clocks _ _ found).fake rfl
  have confined := mirrors.confined.progress h found rfl next
  have known := World.lt_length_of_clock? found
  cases next with
  | resting stage' | takes stage' | skips _ stage' | misses stage' | expires _ stage'
  | returns stage' | reschedules stage' | executes _ stage' => cases stage.symm.trans stage'
  | drained _ batch' => cases batch.symm.trans batch'
  | user _ _ batch' =>
    cases batch.symm.trans batch'
    cases mine
  | @orphan c i' rest' _ batch' mine' gone =>
    cases batch.symm.trans batch'
    rw [Idle.isOf_iff] at mine mine'
    cases mine.symm.trans mine'
    cases found.symm.trans gone
  | @fires ticket c g rest' r f' d x e log _ batch' found' final due first entry =>
    cases batch.symm.trans batch'
    cases Idle.isOf_iff.mp mine
    cases found.symm.trans found'
    obtain ⟨a, rfl, chosen⟩ := agrees.next?_eq_some numbered.distinct first due entry
    obtain ⟨_, rfl⟩ := (Keyed.find?_eq_some_iff numbered.distinct).mp entry
    have target : s.target = some x.target := by
      rw [agrees.target, final, Option.map_some]
    have moved := mirrors.fires h found first confined
      ((World.clock?_setClock known _ _).trans (if_pos rfl)) rfl rfl
    refine .during moved rfl rfl ?_
    simp only [step, target, chosen]
  | @applies ticket c rest' r f' x _ batch' found' final later _ nothing =>
    cases batch.symm.trans batch'
    cases Idle.isOf_iff.mp mine
    cases found.symm.trans found'
    have target : s.target = some x.target := by
      rw [agrees.target, final, Option.map_some]
    have stepped : s.step = { s with now := x.target, target := none } := by
      simp only [step, target, agrees.next?_eq_none later]
    have arrived : s.step.Agrees (f.arrived x.target) :=
      stepped ▸ ⟨rfl, rfl, agrees.ranked, agrees.latest⟩
    refine .after (mirrors.silent s.step s.clock_step (stepped ▸ rfl) (stepped ▸ rfl) confined
      ?_ arrived rfl rfl) (stage ▸ rfl) outside ?_
    · exact (World.clock?_setClock known _ _).trans ((if_pos rfl).trans (stepped ▸ rfl))
    · rw [EventLoop.idlesOf_eq, List.append_eq_nil_iff] at nothing
      exact nothing.1

theorem of_before (mirrors : s.Mirrors own base m) (h : m.Coherent) (awake : m.stage ≠ .rest)
    (outside : m.Outside s.clock)
    (queue : m.stage.hasBatch = true → m.world.loop.queue.filter (·.isOf s.clock) = [])
    (next : m.Progress m') : Phase own base s m' := by
  by_cases task : m.stage = .draining → ∀ i rest, m.world.loop.batch = i :: rest →
      i.isOf s.clock = false
  · obtain ⟨mirrors', untouched⟩ :=
      mirrors.elsewhere h (mirrors.confined.elsewhere outside task) next
    by_cases rest : m'.stage = .rest
    · rcases next.drained_of_rest rest with resting | ⟨stage, drained⟩
      · exact absurd resting awake
      · have idle : m.world.loop.idlesOf s.clock = [] := by
          rw [EventLoop.idlesOf_eq, drained, queue (stage ▸ rfl)]
          rfl
        exact .done ((mirrors.step_of_idle h idle).symm ▸ mirrors') rest
    · refine .before mirrors' rest (untouched.outside outside) ?_
      intro batch
      rcases next.hasBatch batch with taken | batch
      · rw [next.queue_eq_nil taken]
        rfl
      · have early : m.stage ≠ .expiring [] := fun at_ => by
          rw [at_] at batch
          cases batch
        exact (untouched.loop early).queue.trans (queue batch)
  · simp only [not_forall, Bool.not_eq_false] at task
    obtain ⟨stage, i, rest, batch, mine⟩ := task
    exact of_task mirrors h outside stage batch mine next

theorem of_during {s' : Simulator} {g : TimerHandle} {now : Duration} {ops : List Op}
    (mirrors : s'.Mirrors own base m) (h : m.Coherent) (same : s'.clock = s.clock)
    (stage : m.stage = .running (.timer s.clock g now) ops)
    (stepped : (s'.execAll ops).await = s.step) (next : m.Progress m') :
    Phase own base s m' := by
  obtain ⟨f, found, agrees⟩ := mirrors.reflects.clock
  obtain ⟨coherent, linked⟩ := (h.world.clocks _ _ found).fake rfl
  have confined := mirrors.confined.progress h found rfl next
  cases next with
  | resting stage' | takes stage' | skips _ stage' | misses stage' | expires _ stage'
  | drained stage' | orphan stage' | user _ stage' | fires _ stage' | applies stage' =>
    cases stage.symm.trans stage'
  | returns stage' gone =>
    cases stage.symm.trans stage'
    cases (same ▸ found).symm.trans (gone _ _ _ rfl)
  | @executes origin op ops' log stage' =>
    cases stage.symm.trans stage'
    have running : m.stage = .running (.timer s'.clock g now) (op :: ops') := same.symm ▸ stage
    have within : op.Within s'.clock own :=
      Op.allowed_self.mp (mirrors.confined.ops _ _ running op List.mem_cons_self)
    exact .during (mirrors.executes h within confined ⟨log, rfl⟩ rfl)
      ((s'.clock_execLogged op).trans same) rfl stepped
  | @reschedules c g' now' r f' stage' found' =>
    cases stage.symm.trans stage'
    cases (same ▸ found).symm.trans found'
    have stepped : s'.await = s.step := stepped
    have known := World.lt_length_of_clock? found'
    have awaited := mirrors.silent s'.await rfl rfl rfl confined
      ((World.clock?_setClock known _ _).trans (if_pos same)) (agrees.await s.clock m.world.loop)
      rfl rfl
    refine .after (stepped ▸ awaited) rfl (fun _ _ _ => nofun) ?_
    change (f.schedule s.clock f.target m.world.loop).2.batch.filter _ = []
    rw [FakeTime.loop_schedule h.world.ticketed (same ▸ linked) coherent.sorted coherent.covered]
    exact EventLoop.batch_without_isOf ..

theorem of_after (mirrors : s.step.Mirrors own base m) (h : m.Coherent)
    (batch : m.stage.hasBatch = true) (outside : m.Outside s.clock)
    (quiet : m.world.loop.batch.filter (·.isOf s.clock) = []) (next : m.Progress m') :
    Phase own base s m' := by
  have same := s.clock_step
  have task : m.stage = .draining → ∀ i rest, m.world.loop.batch = i :: rest →
      i.isOf s.clock = false := by
    intro _ i rest split
    rw [split] at quiet
    simpa using List.filter_eq_nil_iff.mp quiet i List.mem_cons_self
  obtain ⟨mirrors', untouched⟩ :=
    mirrors.elsewhere h (mirrors.confined.elsewhere (same ▸ outside) (same ▸ task)) next
  rw [same] at untouched
  rcases next.hasBatch_or_rest batch with batch' | rest
  · have early : m.stage ≠ .expiring [] := fun at_ => by
      rw [at_] at batch
      cases batch
    exact .after mirrors' batch' (untouched.outside outside)
      ((untouched.loop early).batch.trans quiet)
  · exact .done mirrors' rest

theorem progress (phase : Phase own base s m) (h : m.Coherent) (next : m.Progress m') :
    Phase own base s m' := by
  cases phase with
  | before mirrors awake outside queue => exact of_before mirrors h awake outside queue next
  | during mirrors same stage stepped => exact of_during mirrors h same stage stepped next
  | after mirrors batch outside quiet => exact of_after mirrors h batch outside quiet next
  | done mirrors rest =>
    rw [next.eq_of_rest rest]
    exact .done mirrors rest

end Phase

/-- A dispatch does what one step of the simulator does. -/
theorem Mirrors.turn (mirrors : s.Mirrors own base m) (h : m.Coherent) (rest : m.stage = .rest)
    (dispatch : m.turn.Proceeds m') (rest' : m'.stage = .rest) :
    s.step.Mirrors own base m' ∧ m'.Coherent := by
  have started : Phase own base s m.turn :=
    .before ⟨mirrors.reflects, mirrors.history, mirrors.confined.world, nofun⟩ nofun
      (fun _ _ _ => nofun) nofun
  have both : Phase own base s m' ∧ m'.Coherent := by
    clear rest'
    induction dispatch with
    | refl => exact ⟨started, h.step (.turn rest)⟩
    | tail _ last ih =>
      subst last
      have next := Moment.progress_proceed ih.2
      exact ⟨ih.1.progress ih.2 next, ih.2.progress next⟩
  refine ⟨?_, both.2⟩
  cases both.1 with
  | before _ awake => exact absurd rest' awake
  | during _ _ stage => cases rest'.symm.trans stage
  | after _ batch =>
    rw [rest'] at batch
    cases batch
  | done mirrors' => exact mirrors'

theorem Mirrors.turns (mirrors : s.Mirrors own base m) (h : m.Coherent) {n : Nat}
    (turns : m.Turns n m') : (s.steps n).Mirrors own base m' ∧ m'.Coherent := by
  induction turns with
  | zero => exact ⟨mirrors, h⟩
  | succ before dispatch rest ih => exact ih.1.turn ih.2 before.rest dispatch rest

theorem Agrees.trigger?_eq {f : FakeTime} (agrees : s.Agrees f) (coherent : f.Coherent)
    (h : TimerHandle) : f.timers.trigger? h = (s.arming h).map (·.trigger) := by
  ext d
  rw [TimerList.trigger?_eq_some_iff coherent.distinct, agrees.ranked.armed_iff h d,
    Option.map_eq_some_iff]

end Simulator

namespace Moment

variable {m : Moment} {c : Nat} {own : String → Prop} {r : Registry} {f : FakeTime}

theorem Reachable.mirrors (run : Reachable m) (rest : m.stage = .rest)
    (found : m.world.clock? c = some ⟨some r, .fake f⟩) (confined : m.world.Confined c own) :
    (Simulator.ofClock c r f m.world.names m.history).Mirrors own
      (m.history.filter (·.clock? = some c)) m where
  reflects := ⟨⟨f, found, rfl, rfl, (run.ordered c).timers f (World.fakeTime?_of_clock? found rfl),
    fun _ _ => index_lt_of_armingOf⟩, fun _ _ => rfl⟩
  history := rfl
  confined := ⟨confined, fun _ _ => rest ▸ nofun⟩

/-- Between two dispatches of a reachable moment take a clock on fake time with a loop, whose
callbacks stay with it while everything else on the loop stays away from it. The next `n`
dispatches, whose outcome is unique, leave its time, its pending target, the triggers of its timers
and its registered timers as `n` steps of the simulator do, and the calls and firings of the clock
meanwhile, with their times, handles and answers, are those of the simulator. -/
theorem refines_simulator (run : Reachable m) (rest : m.stage = .rest)
    (found : m.world.clock? c = some ⟨some r, .fake f⟩) (confined : m.world.Confined c own)
    (n : Nat) :
    ∃ m', m.Turns n m' ∧ m'.world = m.world.dispatchTimes n ∧ (∀ m'', m.Turns n m'' → m'' = m') ∧
      let s := (Simulator.ofClock c r f m.world.names m.history).steps n
      m'.history.filter (·.clock? = some c) =
        s.events ++ m.history.filter (·.clock? = some c) ∧
      ∃ f', m'.world.clock? c = some ⟨some s.registry, .fake f'⟩ ∧ f'.now = s.now ∧
        f'.final.map (·.target) = s.target ∧
        ∀ h, f'.timers.trigger? h = (s.arming h).map (·.trigger) := by
  obtain ⟨m', turns, world, unique⟩ := exists_turns rest n
  obtain ⟨mirrors, coherent⟩ := (run.mirrors rest found confined).turns run.coherent turns
  have clock := (Simulator.ofClock c r f m.world.names m.history).clock_steps n
  obtain ⟨f', found', agrees⟩ := mirrors.reflects.clock
  obtain ⟨scheduled, _⟩ := (coherent.world.clocks _ _ found').fake rfl
  have history := mirrors.history
  rw [clock] at found' history
  exact ⟨m', turns, world, unique, history, f', found', agrees.now.symm, agrees.target.symm,
    agrees.trigger?_eq scheduled⟩

/-- A timer that arms itself anew in its callback fires once a dispatch. -/
theorem refines_simulator_rearming :
    ∃ m m', Reachable m ∧ m.Turns 2 m' ∧ m'.world = m.world.dispatchTimes 2 ∧
      ∃ r f, m'.world.clock? 0 = some ⟨r, .fake f⟩ ∧ f.now = .ofMillis 4 ∧
        f.timers.trigger? ⟨0⟩ = some (.ofMillis 6) := by
  let m := ofCalls [.new .fake true, .add 0 "tick" [[.update 0 "tick" 2]] true,
    .update 0 "tick" 2, .advance 0 (.ofMillis 5)]
  have run : Reachable m := reachable_ofCalls _
  have confined : m.world.Confined 0 fun _ => True := by
    constructor
    · intro d k found
      cases d with
      | zero =>
        cases found
        intro r registered
        cases registered
        intro e member ops fires op script
        cases List.mem_singleton.mp member
        cases List.mem_singleton.mp fires
        cases List.mem_singleton.mp script
        exact Op.allowed_self.mpr (.update 2 trivial)
      | succ d => cases found
    · intro i member name ops task
      have batch : m.world.loop.batch = [] := rfl
      have queue : m.world.loop.queue = [⟨1, .timer 0 ⟨0⟩⟩, ⟨2, .finalTime 0⟩] := rfl
      rw [EventLoop.live, batch, queue, List.nil_append] at member
      rcases List.mem_cons.mp member with rfl | member
      · cases task
      · cases List.mem_singleton.mp member
        cases task
  have found : m.world.clock? 0 = some ⟨some _, .fake _⟩ := rfl
  obtain ⟨m', turns, world, _, _, f, found', now, _, triggers⟩ :=
    refines_simulator run rfl found confined 2
  exact ⟨m, m', run, turns, world, _, f, found', now.trans (by decide),
    (triggers ⟨0⟩).trans (by decide)⟩

end Moment

end VirtualClock
