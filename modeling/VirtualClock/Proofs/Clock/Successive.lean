import VirtualClock.Proofs.Clock.Sameness
import VirtualClock.Proofs.RealTime.Tokens
import VirtualClock.Proofs.World.Failures

/-!
Calls of one clock in succession, with nothing dispatched in between. Each of them takes all work
of the clock off the loop and queues anew what is due, so what a call leaves behind is told by time,
target and timers alone: of two advances the last one counts, of two updates of one timer the last
one counts, and updates of two timers change places.
-/

namespace VirtualClock

theorem Duration.eq_of_after? {now d : Duration} {delay delay' : Int32}
    (asked : now.after? delay = some d) (asked' : now.after? delay' = some d) : delay = delay' := by
  obtain ⟨positive, sum⟩ := after?_eq_some_iff.mp asked
  obtain ⟨positive', sum'⟩ := after?_eq_some_iff.mp asked'
  unfold nanosPerMilli at sum sum'
  exact Int32.toInt_inj.mp (by omega)

theorem FakeTime.overflows_congr {f f' : FakeTime} {delay : Int32} (same : f'.now = f.now) :
    f'.Overflows delay ↔ f.Overflows delay := by
  rw [Overflows, Overflows, same]

namespace Reply

/-- One more call, on the clock and the loop that a call left behind. -/
def andThen (reply : Reply Unit) (call : Clock → EventLoop → Reply Unit) : Reply Unit :=
  call reply.clock reply.loop

/-- Where some calls of clock `c` have come to that started on loop `l`: the fake time is `f`, with
the timers and triggers of `ts`, and on the loop only work of the clock itself has moved. -/
structure Standing (c : Nat) (l : EventLoop) (r : Registry) (now target : Duration)
    (ts : TimerList) (f : FakeTime) (reply : Reply Unit) : Prop where
  clock : reply.clock = ⟨some r, .fake f⟩
  coherent : reply.clock.CoherentIn c reply.loop
  now_eq : f.now = now
  target_eq : f.target = target
  alarms_eq : f.timers.alarms = ts.alarms
  sameBut : EventLoop.SameBut c l reply.loop
  sources : l.SameSources reply.loop

/-- The last of the calls queued anew all that is due by the target. -/
structure Scheduled (c : Nat) (l : EventLoop) (r : Registry) (now target : Duration)
    (ts : TimerList) (f : FakeTime) (reply : Reply Unit) : Prop
    extends Standing c l r now target ts f reply where
  result : reply.result = .ok ()
  final : f.final.map (·.target) = some target
  batch : reply.loop.batch = l.batch.filter (!·.isOf c)
  queue : ∃ first, reply.loop.queue =
    l.queue.filter (!·.isOf c) ++ idlesFrom (tasksUpTo c target ts.armed) first

variable {c : Nat} {l l₂ : EventLoop} {r : Registry} {now target target' : Duration}
  {ts ts' : TimerList} {f f' f₁ : FakeTime} {reply reply' : Reply Unit} {h g : TimerHandle}

theorem standing_start (coherent : (⟨some r, .fake f⟩ : Clock).CoherentIn c l) :
    Standing c l r f.now f.target f.timers f ⟨.ok (), ⟨some r, .fake f⟩, l⟩ where
  clock := rfl
  coherent := coherent
  now_eq := rfl
  target_eq := rfl
  alarms_eq := rfl
  sameBut := .refl c l
  sources := .refl l

namespace Standing

theorem coherentIn (standing : Standing c l r now target ts f reply) :
    (⟨some r, .fake f⟩ : Clock).CoherentIn c reply.loop :=
  standing.clock ▸ standing.coherent

theorem fake (standing : Standing c l r now target ts f reply) :
    f.Coherent ∧ reply.loop.idlesOf c = f.idles c :=
  standing.coherentIn.fake rfl

theorem sorted (standing : Standing c l r now target ts f reply) : ts.Sorted :=
  (TimerList.sorted_congr standing.alarms_eq).mp standing.fake.1.sorted

theorem handles (standing : Standing c l r now target ts f reply) :
    f.timers.handles = ts.handles :=
  TimerList.handles_congr standing.alarms_eq

theorem distinct (standing : Standing c l r now target ts f reply) : ts.handles.Nodup :=
  standing.handles ▸ standing.fake.1.distinct

theorem mem_handles (standing : Standing c l r now target ts f reply) (known : h ∈ r.handles) :
    h ∈ ts.handles :=
  standing.handles ▸ standing.coherentIn.registered.2.mem_iff.mpr known

theorem schedule (standing : Standing c l r now target ts f reply)
    (ready : FakeTime.Ready c reply.loop f₁ target' l₂) (ahead : f₁.now ≤ target')
    (sources : reply.loop.SameSources l₂) (now_eq : f₁.now = now)
    (alarms : f₁.timers.alarms = ts'.alarms) (handles : ts'.handles.Perm ts.handles) :
    Scheduled c l r now target' ts' (f₁.schedule c target' l₂).1
      ⟨.ok (), ⟨some r, .fake (f₁.schedule c target' l₂).1⟩, (f₁.schedule c target' l₂).2⟩ := by
  have outcome := ready.outcome ahead
  obtain ⟨numbered, perm⟩ := standing.coherentIn.registered
  have scheduled : (f₁.schedule c target' l₂).1.timers.alarms = ts'.alarms :=
    (FakeTime.alarms_schedule ..).trans alarms
  have armed : f₁.timers.armed = ts'.armed := congrArg armedOf alarms
  have loop := FakeTime.loop_schedule ready.ticketed ready.linked ready.sorted ready.covered
  have others := standing.sameBut.trans ready.sameBut
  refine ⟨⟨rfl, .looped numbered ?_ outcome.coherent outcome.linked, now_eq, rfl, scheduled,
    standing.sameBut.trans outcome.sameBut,
    (standing.sources.trans sources).trans (FakeTime.sameSources_schedule ..)⟩, rfl, rfl, ?_, ?_⟩
  · rw [TimerList.handles_congr scheduled]
    exact handles.trans (standing.handles ▸ perm)
  · rw [loop]
    exact others.batch
  · refine ⟨l₂.nextTicket, ?_⟩
    rw [loop, EventLoop.queue_enqueueAll, FakeTime.dueTasks_eq_tasksUpTo ready.sorted, armed]
    exact congrArg (· ++ _) others.queue

theorem advance (standing : Standing c l r now target ts f reply) (ticketed : l.Ticketed)
    {delta far : Duration} (sum : now.add? delta = some far) :
    ∃ f', Scheduled c l r now far ts f' (reply.andThen (·.advance c delta ·)) := by
  obtain ⟨coherent, linked⟩ := standing.fake
  have ahead : f.now ≤ far := standing.now_eq ▸ Duration.le_of_add? sum
  have ready := FakeTime.ready_advance (standing.sameBut.ticketed ticketed) linked coherent far
  have scheduled := standing.schedule ready ahead (EventLoop.sameSources_cancelAll ..)
    standing.now_eq ((TimerList.alarms_cancelAfter ..).trans standing.alarms_eq) (.refl _)
  simp only [andThen, standing.clock, Clock.advance, standing.now_eq, sum, Option.isSome_some]
  exact ⟨_, scheduled⟩

theorem advance_overflow (standing : Standing c l r now target ts f reply) {delta : Duration}
    (far : now.add? delta = none) :
    Standing c l r now target ts f (reply.andThen (·.advance c delta ·)) := by
  simp only [andThen, standing.clock, Clock.advance, standing.now_eq, far]
  exact ⟨rfl, standing.coherentIn, standing.now_eq, standing.target_eq, standing.alarms_eq,
    standing.sameBut, standing.sources⟩

theorem update (standing : Standing c l r now target ts f reply) (ticketed : l.Ticketed)
    (known : h ∈ r.handles) {delay : Int32} (inTime : ¬f.Overflows delay) :
    ∃ f', Scheduled c l r now target (ts.setTrigger h (now.after? delay)) f'
      (reply.andThen (·.updateTimer c h delay ·)) := by
  obtain ⟨coherent, linked⟩ := standing.fake
  have member := standing.mem_handles known
  have asked : f.trigger? delay = .ok (now.after? delay) := by
    rw [FakeTime.trigger?_eq, if_neg (mt FakeTime.overflows_iff.mpr inTime), standing.now_eq]
  have later (d : Duration) (trigger : now.after? delay = some d) : f.now ≤ d :=
    Nat.le_of_lt (standing.now_eq ▸ Duration.lt_of_after? trigger)
  obtain ⟨t, found⟩ := Option.isSome_iff_exists.mp
    (TimerList.find?_isSome_iff.mpr (standing.handles ▸ member))
  have ready := FakeTime.ready_rearm (standing.sameBut.ticketed ticketed) linked coherent found later
  rw [standing.target_eq] at ready
  have ahead : f.now ≤ target := standing.target_eq ▸ coherent.now_le_target_of
  have kept : ({ f with timers := f.timers.setTrigger h (now.after? delay) } : FakeTime).target =
      target := standing.target_eq
  have moved : (f.timers.setTrigger h (now.after? delay)).alarms =
      (ts.setTrigger h (now.after? delay)).alarms :=
    TimerList.alarms_setTrigger_congr standing.alarms_eq standing.sorted standing.distinct member _
  have scheduled := standing.schedule ready ahead
    (EventLoop.sameSources_cancelAll ..) standing.now_eq moved (TimerList.handles_setTrigger_perm ..)
  simp only [andThen, standing.clock, Clock.updateTimer, Clock.updateFake, asked, found,
    FakeTime.reschedule, kept]
  exact ⟨_, scheduled⟩

theorem update_overflow (standing : Standing c l r now target ts f reply) {delay : Int32}
    (overflows : f.Overflows delay) (h : TimerHandle) :
    Standing c l r now target ts f (reply.andThen (·.updateTimer c h delay ·)) := by
  have refused : f.trigger? delay = .error .timeOverflow := by
    rw [FakeTime.trigger?_eq, if_pos (FakeTime.overflows_iff.mp overflows)]
  simp only [andThen, standing.clock, Clock.updateTimer, Clock.updateFake, refused]
  exact ⟨rfl, standing.coherentIn, standing.now_eq, standing.target_eq, standing.alarms_eq,
    standing.sameBut, standing.sources⟩

theorem updates (standing : Standing c l r now target ts f reply) (ticketed : l.Ticketed)
    (known : h ∈ r.handles) (known' : g ∈ r.handles) {d₁ d₂ : Int32}
    (inTime₁ : ¬f.Overflows d₁) (inTime₂ : ¬f.Overflows d₂) :
    ∃ f', Scheduled c l r now target
      ((ts.setTrigger h (now.after? d₁)).setTrigger g (now.after? d₂)) f'
      ((reply.andThen (·.updateTimer c h d₁ ·)).andThen (·.updateTimer c g d₂ ·)) := by
  obtain ⟨f₁, first⟩ := standing.update ticketed known inTime₁
  have same : f₁.now = f.now := first.now_eq.trans standing.now_eq.symm
  exact first.update ticketed known' (mt (FakeTime.overflows_congr same).mp inTime₂)

theorem update_again (standing : Standing c l r now target ts f reply) (ticketed : l.Ticketed)
    (known : h ∈ r.handles) (d₁ : Int32) {d₂ : Int32} (inTime₂ : ¬f.Overflows d₂) :
    ∃ ts' f', Scheduled c l r now target ts' f'
        ((reply.andThen (·.updateTimer c h d₁ ·)).andThen (·.updateTimer c h d₂ ·)) ∧
      ts'.alarms.Perm (ts.setTrigger h (now.after? d₂)).alarms ∧
      ts'.armed = (ts.setTrigger h (now.after? d₂)).armed := by
  by_cases overflows : f.Overflows d₁
  · obtain ⟨f', scheduled⟩ :=
      (standing.update_overflow overflows h).update ticketed known inTime₂
    exact ⟨_, f', scheduled, .refl _, rfl⟩
  · obtain ⟨f', scheduled⟩ := standing.updates ticketed known known overflows inTime₂
    have member := standing.mem_handles known
    exact ⟨_, f', scheduled,
      TimerList.alarms_setTrigger_again_perm standing.sorted standing.distinct member _ _,
      TimerList.armed_setTrigger_again standing.sorted standing.distinct member _ _⟩

end Standing

namespace Scheduled

variable {σ : TimerHandle → TimerHandle}

theorem sameUpTo (scheduled : Scheduled c l r now target ts f reply)
    (scheduled' : Scheduled c l r now target ts' f' reply')
    (triggers : ts'.alarms.Perm ts.alarms) (armed : ts'.armed = ts.armed.map (Prod.map σ id)) :
    reply.SameUpTo c σ reply' where
  result := scheduled'.result.trans scheduled.result.symm
  clock := by
    have target_eq := scheduled'.final.trans scheduled.final.symm
    have triggers : f'.timers.alarms.Perm f.timers.alarms := by
      rw [scheduled'.alarms_eq, scheduled.alarms_eq]
      exact triggers
    refine ⟨r, f, f', scheduled.clock, scheduled'.clock, ?_, target_eq, triggers, ?_, ?_⟩
    · exact scheduled'.now_eq.trans scheduled.now_eq.symm
    · exact scheduled.fake.1.isQueued_congr scheduled'.fake.1 target_eq triggers
    · rw [TimerList.armed, scheduled'.alarms_eq, TimerList.armed, scheduled.alarms_eq]
      exact armed
  loop := by
    obtain ⟨first, queue⟩ := scheduled.queue
    obtain ⟨first', queue'⟩ := scheduled'.queue
    refine ⟨?_, ?_, ?_⟩
    · rw [scheduled'.batch, scheduled.batch, map_seen_others _ c σ]
    · rw [queue', queue, List.map_append, List.map_append, map_seen_others _ c σ,
        map_seen_idlesFrom fun _ => owner_of_mem_tasksUpTo,
        map_seen_idlesFrom fun _ => owner_of_mem_tasksUpTo, armed, tasksUpTo_map, List.map_map]
      congr 2
      funext t
      cases t <;> rfl
    · have before := scheduled.sources
      have after := scheduled'.sources
      exact ⟨after.now.trans before.now.symm, after.sources.trans before.sources.symm,
        after.nextSource.trans before.nextSource.symm⟩

theorem not_queued_of_later (scheduled : Scheduled c l r now target ts f reply) {d : Duration}
    (armed : (h, some d) ∈ f.timers.alarms) (later : target < d) :
    ¬f.timers.IsQueued h ∧ ∀ i ∈ reply.loop.live, i.task ≠ .timer c h := by
  obtain ⟨coherent, linked⟩ := scheduled.fake
  have notQueued : ¬f.timers.IsQueued h := by
    rw [coherent.isQueued_iff]
    rintro ⟨x, final, e, armed', le⟩
    have same := ((TimerList.trigger?_eq_some_iff coherent.distinct).mpr armed').symm.trans
      ((TimerList.trigger?_eq_some_iff coherent.distinct).mpr armed)
    cases same
    have pending := scheduled.final
    rw [final] at pending
    cases pending
    exact Nat.not_lt_of_le le later
  refine ⟨notQueued, fun i live task => notQueued ?_⟩
  have own : i ∈ f.idles c :=
    linked ▸ List.mem_filter.mpr ⟨live, Idle.isOf_iff.mpr (by rw [task]; rfl)⟩
  rcases List.mem_append.mp own with timer | final
  · obtain ⟨t, member, pending, task'⟩ := TimerList.mem_idles_iff.mp timer
    cases task.symm.trans task'
    exact ⟨t, member, rfl, Option.isSome_of_eq_some pending⟩
  · obtain ⟨x, _, rfl⟩ := Option.map_eq_some_iff.mp (Option.mem_toList.mp final)
    cases task

/-- Timers that are due at one time stand on the loop in the order of their tie. -/
theorem sublist_live (scheduled : Scheduled c l r now target ts f reply) {d : Duration}
    (due : d ≤ target) {order : List TimerHandle} (tie : order.Sublist (dueAt ts.armed d)) :
    (order.map (Task.timer c)).Sublist (reply.loop.live.map (·.task)) := by
  obtain ⟨first, queue⟩ := scheduled.queue
  have upTo : dueAt ts.armed d = dueAt (ts.armed.filter (·.2 ≤ target)) d := by
    rw [dueAt_filter _ (· ≤ target), if_pos due]
  have tasks : (order.map (Task.timer c)).Sublist (tasksUpTo c target ts.armed) := by
    rw [upTo, dueAt] at tie
    refine (tie.map (Task.timer c)).trans (.trans ?_ (List.sublist_append_left ..))
    rw [List.map_map]
    exact List.filter_sublist.map _
  refine tasks.trans ?_
  rw [EventLoop.live, queue, List.map_append, List.map_append, map_task_idlesFrom]
  exact (List.sublist_append_right ..).trans (List.sublist_append_right ..)

end Scheduled

end Reply

namespace Moment

variable {m : Moment} {c : Nat} {r : Registry} {f : FakeTime} {h g : TimerHandle}

/-- An advance replaces the one called before it, whether that one succeeded or not: both calls
together come to what the second one alone comes to. In particular timers past the second target
have no dispatch, though the first advance may have reached them. -/
theorem last_advance_wins (run : Reachable m) (found : m.world.clock? c = some ⟨some r, .fake f⟩)
    (a : Duration) {b far : Duration} (sum : f.now.add? b = some far) :
    let k : Clock := ⟨some r, .fake f⟩
    let once := k.advance c b m.world.loop
    let twice := (k.advance c a m.world.loop).andThen (·.advance c b ·)
    once.result = .ok () ∧ once.SameUpTo c id twice ∧
      ∃ f₁ f₂, once.clock = ⟨some r, .fake f₁⟩ ∧ twice.clock = ⟨some r, .fake f₂⟩ ∧
        f₂.now = f.now ∧ f₂.final.map (·.target) = some far ∧
        f₁.timers.alarms = f.timers.alarms ∧ f₂.timers.alarms = f.timers.alarms ∧
        ∀ h d, (h, some d) ∈ f.timers.alarms → far < d →
          ¬f₂.timers.IsQueued h ∧ ∀ i ∈ twice.loop.live, i.task ≠ .timer c h := by
  intro k once twice
  have ticketed := run.coherent.world.ticketed
  have start := Reply.standing_start (run.coherent.world.clocks c _ found)
  obtain ⟨f₁, alone⟩ := start.advance ticketed sum
  obtain ⟨f₂, both⟩ : ∃ f₂,
      Reply.Scheduled c m.world.loop r f.now far f.timers f₂ twice := by
    cases first : f.now.add? a with
    | none => exact (start.advance_overflow first).advance ticketed sum
    | some near =>
      obtain ⟨f', scheduled⟩ := start.advance ticketed first
      exact scheduled.advance ticketed sum
  refine ⟨alone.result, alone.sameUpTo both (.refl _) (by simp), f₁, f₂, alone.clock, both.clock,
    both.now_eq, both.final, alone.alarms_eq, both.alarms_eq, fun h d armed later => ?_⟩
  exact both.not_queued_of_later (both.alarms_eq ▸ armed) later

/-- In the callback of a timer, with another one due at 9 ms: an advance that reaches it and then one
that does not. -/
theorem last_advance_wins_in_callback :
    ∃ m r f, Reachable m ∧ m.stage = .running (.timer 0 ⟨0⟩ (.ofMillis 1)) [.mode 0] ∧
      m.world.clock? 0 = some ⟨some r, .fake f⟩ ∧
      let k : Clock := ⟨some r, .fake f⟩
      let longer := k.advance 0 (.ofMillis 10) m.world.loop
      let twice := longer.andThen (·.advance 0 (.ofMillis 5) ·)
      longer.loop.live.map (·.task) = [.timer 0 ⟨1⟩, .timer 0 ⟨2⟩, .finalTime 0] ∧
      (k.advance 0 (.ofMillis 5) m.world.loop).SameUpTo 0 id twice ∧
      ∀ i ∈ twice.loop.live, i.task ≠ .timer 0 ⟨2⟩ := by
  have run := (reachable_ofCalls [.new .fake true, .add 0 "tick" [[.mode 0]] false,
    .add 0 "near" [] false, .add 0 "far" [] false, .update 0 "tick" 1, .update 0 "near" 3,
    .update 0 "far" 9, .advance 0 (.ofMillis 2)]).turn rfl 2
  obtain ⟨m, r, f, run, stage, found, sum, armed, reached⟩ :
      ∃ m r f, Reachable m ∧ m.stage = .running (.timer 0 ⟨0⟩ (.ofMillis 1)) [.mode 0] ∧
        m.world.clock? 0 = some ⟨some r, .fake f⟩ ∧ f.now.add? (.ofMillis 5) = some (.ofMillis 6) ∧
        (⟨2⟩, some (.ofMillis 9)) ∈ f.timers.alarms ∧
        ((⟨some r, .fake f⟩ : Clock).advance 0 (.ofMillis 10) m.world.loop).loop.live.map
          (·.task) = [.timer 0 ⟨1⟩, .timer 0 ⟨2⟩, .finalTime 0] :=
    ⟨_, _, _, run, rfl, rfl, rfl, .tail _ (.tail _ (.head _)), rfl⟩
  obtain ⟨_, same, _, _, _, _, _, _, _, _, later⟩ :=
    last_advance_wins run found (.ofMillis 10) sum
  exact ⟨m, r, f, run, stage, found, reached, same, (later _ _ armed (by decide)).2⟩

/-- An update replaces the one of the same timer called before it, whether that one succeeded or
not. Updates of two timers come to the same in either order, except when they arm both timers for
the same time: then the timers have changed places, and the one that was updated first fires
first. -/
theorem updates_replace_and_commute (run : Reachable m)
    (found : m.world.clock? c = some ⟨some r, .fake f⟩) (known : h ∈ r.handles)
    (known' : g ∈ r.handles) (apart : h ≠ g) (d₁ : Int32) {d₂ : Int32}
    (inTime₂ : ¬f.Overflows d₂) :
    let k : Clock := ⟨some r, .fake f⟩
    let once := fun h d => k.updateTimer c h d m.world.loop
    let twice := fun h d g e => (once h d).andThen (·.updateTimer c g e ·)
    (once h d₂).result = .ok () ∧ (once h d₂).SameUpTo c id (twice h d₁ h d₂) ∧
      (¬f.Overflows d₁ →
        (twice h d₁ g d₂).result = .ok () ∧
        (¬(d₁ = d₂ ∧ 0 < d₁.toInt) →
          (twice h d₁ g d₂).SameUpTo c id (twice g d₂ h d₁)) ∧
        (d₁ = d₂ → 0 < d₁.toInt →
          (twice h d₁ g d₂).SameUpTo c (Equiv.swap h g) (twice g d₂ h d₁) ∧
          ∃ e others f₁ f₂, f.now.after? d₁ = some e ∧
            (twice h d₁ g d₂).clock = ⟨some r, .fake f₁⟩ ∧
            (twice g d₂ h d₁).clock = ⟨some r, .fake f₂⟩ ∧
            dueAt f₁.timers.armed e = others ++ [h, g] ∧
            dueAt f₂.timers.armed e = others ++ [g, h] ∧
            (e ≤ f.target →
              [.timer c h, .timer c g].Sublist ((twice h d₁ g d₂).loop.live.map (·.task)) ∧
              [.timer c g, .timer c h].Sublist ((twice g d₂ h d₁).loop.live.map (·.task))))) := by
  intro k once twice
  have ticketed := run.coherent.world.ticketed
  have start := Reply.standing_start (run.coherent.world.clocks c _ found)
  have member := start.mem_handles known
  have member' := start.mem_handles known'
  obtain ⟨f₁, alone⟩ := start.update ticketed known inTime₂
  obtain ⟨ts, f₂, both, triggers, armed⟩ := start.update_again ticketed known d₁ inTime₂
  refine ⟨alone.result, alone.sameUpTo both triggers (by simp [armed]), fun inTime₁ => ?_⟩
  obtain ⟨fh, hg⟩ := start.updates ticketed known known' inTime₁ inTime₂
  obtain ⟨fg, gh⟩ := start.updates ticketed known' known inTime₂ inTime₁
  have swap := TimerList.alarms_setTrigger_swap_perm start.sorted start.distinct member member'
    apart (f.now.after? d₁) (f.now.after? d₂)
  refine ⟨hg.result, fun untied => ?_, ?_⟩
  · refine hg.sameUpTo gh swap ?_
    rw [TimerList.armed_setTrigger_swap start.sorted start.distinct member member' apart]
    · simp
    · intro e asked asked'
      exact untied ⟨Duration.eq_of_after? asked asked', (Duration.after?_eq_some_iff.mp asked).1⟩
  · rintro rfl positive
    obtain ⟨e, asked⟩ : ∃ e, f.now.after? d₁ = some e :=
      Option.ne_none_iff_exists'.mp fun none =>
        inTime₁ (FakeTime.overflows_iff.mpr ⟨positive, none⟩)
    rw [asked] at hg gh swap
    obtain ⟨others, tie, tie'⟩ :=
      TimerList.exists_dueAt_tied start.sorted start.distinct member member' apart e
    refine ⟨hg.sameUpTo gh swap ?_, e, others, fh, fg, asked, hg.clock, gh.clock, ?_, ?_, ?_⟩
    · exact TimerList.armed_setTrigger_tied start.sorted start.distinct member member' apart e
    · rw [TimerList.armed, hg.alarms_eq]
      exact tie
    · rw [TimerList.armed, gh.alarms_eq]
      exact tie'
    · intro due
      have inOrder := hg.sublist_live due (tie ▸ List.sublist_append_right others [h, g])
      have inOrder' := gh.sublist_live due (tie' ▸ List.sublist_append_right others [g, h])
      exact ⟨inOrder, inOrder'⟩

/-- In the callback of a timer, with the target at 9 ms and a timer due at 4 ms: updates of two
timers with different delays, and updates that make both of them due at 4 ms as well. -/
theorem updates_replace_and_commute_in_callback :
    ∃ m r f, Reachable m ∧ m.stage = .running (.timer 0 ⟨0⟩ (.ofMillis 1)) [.mode 0] ∧
      m.world.clock? 0 = some ⟨some r, .fake f⟩ ∧ f.target = .ofMillis 9 ∧
      f.timers.armed = [(⟨3⟩, .ofMillis 4), (⟨1⟩, .ofMillis 6)] ∧
      let once := fun h d => (⟨some r, .fake f⟩ : Clock).updateTimer 0 h d m.world.loop
      let twice := fun h d g e => (once h d).andThen (·.updateTimer 0 g e ·)
      (once ⟨1⟩ 3).SameUpTo 0 id (twice ⟨1⟩ 7 ⟨1⟩ 3) ∧
      (twice ⟨1⟩ 7 ⟨2⟩ 3).SameUpTo 0 id (twice ⟨2⟩ 3 ⟨1⟩ 7) ∧
      (twice ⟨1⟩ 3 ⟨2⟩ 3).SameUpTo 0 (Equiv.swap ⟨1⟩ ⟨2⟩) (twice ⟨2⟩ 3 ⟨1⟩ 3) ∧
      [.timer 0 ⟨1⟩, .timer 0 ⟨2⟩].Sublist ((twice ⟨1⟩ 3 ⟨2⟩ 3).loop.live.map (·.task)) ∧
      [.timer 0 ⟨2⟩, .timer 0 ⟨1⟩].Sublist ((twice ⟨2⟩ 3 ⟨1⟩ 3).loop.live.map (·.task)) := by
  have run := (reachable_ofCalls [.new .fake true, .add 0 "tick" [[.mode 0]] false,
    .add 0 "one" [] false, .add 0 "two" [] false, .add 0 "three" [] false, .update 0 "tick" 1,
    .update 0 "one" 6, .update 0 "three" 4, .advance 0 (.ofMillis 9)]).turn rfl 2
  obtain ⟨m, r, f, run, stage, found, handles, now, target, armed⟩ :
      ∃ m r f, Reachable m ∧ m.stage = .running (.timer 0 ⟨0⟩ (.ofMillis 1)) [.mode 0] ∧
        m.world.clock? 0 = some ⟨some r, .fake f⟩ ∧ r.handles = [⟨0⟩, ⟨1⟩, ⟨2⟩, ⟨3⟩] ∧
        f.now = .ofMillis 1 ∧ f.target = .ofMillis 9 ∧
        f.timers.armed = [(⟨3⟩, .ofMillis 4), (⟨1⟩, .ofMillis 6)] :=
    ⟨_, _, _, run, rfl, rfl, rfl, rfl, rfl, rfl⟩
  have one : ⟨1⟩ ∈ r.handles := by simp [handles]
  have two : ⟨2⟩ ∈ r.handles := by simp [handles]
  have inTime (d : Int32) (small : d = 3 ∨ d = 7) : ¬f.Overflows d := by
    rw [FakeTime.Overflows, now]
    rcases small with rfl | rfl <;> decide
  obtain ⟨_, again, commute⟩ := updates_replace_and_commute run found one two (by decide) 7
    (inTime 3 (.inl rfl))
  obtain ⟨_, _, tied⟩ := updates_replace_and_commute run found one two (by decide) 3
    (inTime 3 (.inl rfl))
  obtain ⟨_, apart, _⟩ := commute (inTime 7 (.inr rfl))
  obtain ⟨_, _, tied⟩ := tied (inTime 3 (.inl rfl))
  obtain ⟨swapped, e, _, _, _, asked, _, _, _, _, order⟩ := tied rfl (by decide)
  have due : e ≤ f.target := by
    have sum := (Duration.after?_eq_some_iff.mp asked).2
    rw [Duration.le_def, sum, now, target]
    decide
  exact ⟨m, r, f, run, stage, found, target, armed, again, apart (by decide), swapped,
    (order due).1, (order due).2⟩

end Moment

end VirtualClock
