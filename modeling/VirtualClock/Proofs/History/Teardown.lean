import VirtualClock.Proofs.History.Accounting
import VirtualClock.Proofs.History.Capabilities
import VirtualClock.Proofs.History.Stillness
import VirtualClock.Proofs.RealTime.Tokens

/-!
Clocks that were torn down stay silent. Once a clock is destroyed nothing of it fires before a new
timer is added and armed, and a destroyed clock on fake time keeps its time until a later advance:
what was pending is given up, even in the middle of a callback of its own. Once a clock is dropped
nothing of it fires ever again, and the tasks and sources that it left on the loop are taken off one
by one, to no effect on anything else.
-/

namespace VirtualClock

/-- The timer of clock `c` that an event arms: an update that succeeds with a positive delay. -/
def Event.arms? (c : Nat) : Event → Option TimerHandle
  | .call (.update d _ delay) (some h) _ .done =>
    if d = c ∧ 0 < delay.toInt then some h else none
  | _ => none

section arms

variable {c n : Nat} {g : TimerHandle} {e : Event} {past : List Event}

theorem Event.arms?_of_change? {d : Duration} (change : e.change? c = some (g, some d)) :
    e.arms? c = some g := by
  rcases eq_of_change? change with ⟨now, rfl⟩ | ⟨timer, delay, now, rfl⟩ | ⟨timer, now, rfl⟩
  · simp [change?] at change
  · simp only [change?, if_true, Option.some.injEq, Prod.mk.injEq, true_and] at change
    simp [arms?, (Duration.after?_eq_some_iff.mp change).1]
  · simp [change?] at change

theorem Event.arms?_of_rewires? {delay : Nat} (change : e.rewires? c = some (g, some delay)) :
    e.arms? c = some g := by
  unfold rewires? at change
  split at change
  · obtain ⟨rfl, same⟩ := Option.ite_none_right_eq_some.mp change
    obtain ⟨rfl, delayed⟩ := Prod.mk.inj (Option.some.inj same)
    obtain ⟨positive, _⟩ := Option.ite_none_right_eq_some.mp delayed
    simp [arms?, positive]
  · simp at change
  · simp at change
  · cases change

theorem Event.arms?_of_issues? (issues : e.issues? c = some g) : e.arms? c = none := by
  unfold issues? at issues
  split at issues
  · rfl
  · cases issues

theorem exists_arms_of_armingOf {a : Arming} (live : armingOf c g past = some a) :
    ∃ e ∈ past, e.arms? c = some g := by
  obtain ⟨later, e, earlier, rfl, change, _⟩ := armingOf_eq_some_iff.mp live
  exact ⟨e, by simp, Event.arms?_of_change? change⟩

theorem ArmedBy.exists_arms (armed : ArmedBy c g n past) : ∃ e ∈ past, e.arms? c = some g := by
  induction armed with
  | update change => exact ⟨_, List.mem_cons_self, Event.arms?_of_rewires? change⟩
  | later _ _ ih =>
    obtain ⟨e, member, arms⟩ := ih
    exact ⟨e, List.mem_cons_of_mem _ member, arms⟩

end arms

theorem Clock.source_of_destroyed {k : Clock} {l : EventLoop} {f : FakeTime}
    (fake : k.source = .fake f) (done : (k.destroy l).result = .ok ()) :
    (k.destroy l).clock.source = .fake { f with final := none } := by
  simp only [destroy, fake] at done ⊢
  split at done
  · cases done
  · next free =>
    split at done
    · cases done
    · next none => rw [if_neg free, if_neg none]

namespace Moment

variable {m m' : Moment} {c : Nat} {g : TimerHandle} {later past : List Event}

/-- Whatever fires was armed before, on fake time and on real time. -/
theorem Reachable.exists_arms_of_fired (run : Reachable m) {now : Option Duration}
    (split : m.history = later ++ .fire c g now :: past) : ∃ e ∈ past, e.arms? c = some g := by
  cases now with
  | some now =>
    obtain ⟨a, live, _⟩ := (run.ordered c).chronicle.fires later g now past split
    exact exists_arms_of_armingOf live
  | none =>
    obtain ⟨n, armed⟩ := run.hostReachable.accounted.fires later c g past split
    exact armed.exists_arms

theorem Reachable.held_of_arms (run : Reachable m) {e : Event}
    (split : m.history = later ++ e :: past) (arms : e.arms? c = some g) : Held c g past := by
  obtain ⟨a, b, run, step, old, new, _⟩ := run.exists_step split
  rw [← old] at new ⊢
  unfold Event.arms? at arms
  split at arms
  · next d timer delay h now =>
    obtain ⟨⟨rfl, _⟩, same⟩ := Option.ite_none_right_eq_some.mp arms
    cases same
    obtain ⟨_, named, _, done⟩ := Event.call.inj (step.of_called run.coherent new).1
    obtain ⟨k, found⟩ := World.exists_clock_of_done rfl done
    have known := ((run.coherent.world.update_done_iff found named delay).mp done).1
    exact (run.enrolled.registers_iff d k found g).mp known
  · cases arms

theorem Reachable.unarmed_before_issued (run : Reachable m) {e : Event}
    (split : m.history = later ++ e :: past) (issues : e.issues? c = some g) :
    ∀ x ∈ past, x.arms? c ≠ some g := by
  intro x member arms
  have once := run.issued_once split issues
  obtain ⟨newer, older, rfl⟩ := List.append_of_mem member
  have armed : m.history = (later ++ e :: newer) ++ x :: older := by
    rw [split, List.append_assoc, List.cons_append]
  obtain ⟨y, old, issued⟩ := (run.held_of_arms armed arms).issued
  exact (once y (List.mem_append_right _ (List.mem_cons_of_mem _ old))).1 issued

theorem Reachable.exists_done (run : Reachable m) {op : Op} {handle : Option TimerHandle}
    {time : Option Duration} (about : op.clock? = some c)
    (split : m.history = later ++ .call op handle time .done :: past) :
    ∃ a b k, Reachable a ∧ Step a b ∧ a.world.clock? c = some k ∧ (a.world.exec op).1 = .done ∧
      a.world.fakeNow? c = time ∧ b.world.clocks = (a.world.exec op).2.clocks ∧
      a.history = past ∧ b.history = .call op handle time .done :: past ∧
      Relation.ReflTransGen Step b m := by
  obtain ⟨a, b, run, step, old, new, onward⟩ := run.exists_step split
  obtain ⟨event, clocks, _⟩ := step.of_called run.coherent (old.symm ▸ new)
  obtain ⟨_, _, now, done⟩ := Event.call.inj event
  obtain ⟨k, found⟩ := World.exists_clock_of_done about done
  rw [about, Option.bind_some] at now
  exact ⟨a, b, k, run, step, found, done, now, clocks, old, new, onward⟩

theorem Reachable.not_held_of_destroyed (run : Reachable m) {handle : Option TimerHandle}
    {time : Option Duration}
    (split : m.history = later ++ .call (.destroy c) handle time .done :: past)
    (g : TimerHandle) : ¬Held c g past := by
  obtain ⟨a, b, k, run, _, found, done, _, _, old, _⟩ := run.exists_done rfl split
  rw [← old, ← run.enrolled.registers_iff c k found]
  rintro ⟨r, registered, member⟩
  have inUse : 0 < r.size := by
    rw [Registry.size_eq_length_handles]
    exact List.length_pos_of_mem member
  have atomic : a.world.FailsAtomically (.destroy c) (k.Fails (.destroy c) none) :=
    World.failsAtomically_exec run.coherent.world found rfl
  cases done.symm.trans ((atomic.failed_iff _).mpr (.destroyInUse registered inUse))

theorem Reachable.armed_since_destroyed (run : Reachable m) {now : Option Duration}
    {middle : List Event} {handle : Option TimerHandle} {time : Option Duration}
    (split : m.history =
      later ++ .fire c g now :: (middle ++ .call (.destroy c) handle time .done :: past)) :
    ∃ after arm between add before, middle = after ++ arm :: (between ++ add :: before) ∧
      arm.arms? c = some g ∧ add.issues? c = some g := by
  have held := run.held_of_fired split
  have destroyed : m.history =
      (later ++ .fire c g now :: middle) ++ .call (.destroy c) handle time .done :: past := by
    rw [split, List.append_assoc, List.cons_append]
  have unheld := run.not_held_of_destroyed destroyed g
  obtain ⟨add, member, issues⟩ := held.issued
  have since : add ∈ middle := by
    rcases List.mem_append.mp member with since | early
    · exact since
    · rcases List.mem_cons.mp early with rfl | early
      · cases issues
      · refine absurd ⟨⟨add, early, issues⟩, fun x member => held.kept x ?_⟩ unheld
        exact List.mem_append_right _ (List.mem_cons_of_mem _ member)
  obtain ⟨newer, before, rfl⟩ := List.append_of_mem since
  obtain ⟨arm, member, arms⟩ := run.exists_arms_of_fired split
  have unarmed : ∀ e ∈ before ++ .call (.destroy c) handle time .done :: past,
      e.arms? c ≠ some g := by
    have added : m.history = (later ++ .fire c g now :: newer) ++
        add :: (before ++ .call (.destroy c) handle time .done :: past) := by
      rw [split]
      simp
    exact run.unarmed_before_issued added issues
  have armed : arm ∈ newer := by
    rw [List.append_assoc, List.cons_append] at member
    rcases List.mem_append.mp member with armed | early
    · exact armed
    · rcases List.mem_cons.mp early with rfl | early
      · cases (Event.arms?_of_issues? issues).symm.trans arms
      · exact absurd arms (unarmed arm early)
  obtain ⟨after, between, rfl⟩ := List.append_of_mem armed
  exact ⟨after, arm, between, add, before, by simp, arms, issues⟩

theorem Reachable.gone_since_dropped (run : Reachable m) {handle : Option TimerHandle}
    {time : Option Duration}
    (split : m.history = later ++ .call (.drop c) handle time .done :: past) :
    m.world.clock? c = none := by
  obtain ⟨a, b, k, run, step, found, _, _, clocks, _, _, onward⟩ := run.exists_done rfl split
  have dropped : b.world.clock? c = none := by
    have gone : (a.world.exec (.drop c)).2.clock? c = none := by
      simp only [World.exec, found]
      rw [World.clock?_dropClock, if_pos rfl]
    rwa [World.clock?, clocks]
  have made := Nat.lt_of_lt_of_le (World.lt_length_of_clock? found)
    (step.descends run.coherent).length_le
  refine Option.eq_none_iff_forall_ne_some.mpr fun k' back => ?_
  obtain ⟨_, alive⟩ := (descends_of_steps (run.coherent.step step) onward).alive c k' made back
  cases dropped.symm.trans alive

/-- What fires finds its clock there, so it fires before the clock is dropped. -/
theorem Reachable.silent_since_dropped (run : Reachable m) {handle : Option TimerHandle}
    {time : Option Duration}
    (split : m.history = later ++ .call (.drop c) handle time .done :: past) (g : TimerHandle)
    (now : Option Duration) : .fire c g now ∉ later := by
  intro member
  obtain ⟨newer, older, rfl⟩ := List.append_of_mem member
  rw [List.append_assoc, List.cons_append] at split
  obtain ⟨a, b, run, step, old, new, _⟩ := run.exists_step split
  obtain ⟨k, alive, _⟩ := step.of_fired run.coherent (old.symm ▸ new)
  cases (run.gone_since_dropped old).symm.trans alive

theorem Reachable.still_since_destroyed (run : Reachable m) {handle : Option TimerHandle}
    {t : Duration} {f : FakeTime}
    (split : m.history = later ++ .call (.destroy c) handle (some t) .done :: past)
    (stays : ∀ e ∈ later, ¬e.Advances c) (found : m.world.fakeTime? c = some f) : f.Still t := by
  obtain ⟨a, b, k, run, step, alive, done, now, clocks, _, new, onward⟩ := run.exists_done rfl split
  obtain ⟨f₀, found₀, now⟩ := Option.map_eq_some_iff.mp now
  obtain ⟨k', alive', fake⟩ := World.fakeTime?_eq_some_iff.mp found₀
  cases alive.symm.trans alive'
  simp only [World.exec, World.onClock, alive] at done clocks
  cases result : (k.destroy a.world.loop).result with
  | error why =>
    rw [result] at done
    cases done
  | ok =>
    have after : b.world.clock? c = some (k.destroy a.world.loop).clock := by
      rw [World.clock?, clocks]
      exact World.clock?_accept alive _
    have source := Clock.source_of_destroyed fake result
    refine still_of_steps (run.coherent.step step) (World.fakeTime?_of_clock? after source)
      (.of_settled now rfl) onward ?_ stays found
    rw [split, new]

/-- Everything but the work of clock `c` on the loop is as it was. -/
structure Inert (c : Nat) (m m' : Moment) : Prop where
  clocks : m'.world.clocks = m.world.clocks
  names : m'.world.names = m.world.names
  log : m'.world.log = m.world.log
  history : m'.history = m.history
  batch : m'.world.loop.batch.filter (!·.isOf c) = m.world.loop.batch.filter (!·.isOf c)
  queue : m'.world.loop.queue = m.world.loop.queue
  sources : m'.world.loop.sources.filter (·.clock ≠ c) = m.world.loop.sources.filter (·.clock ≠ c)

/-- What comes next is left over from clock `c`. -/
inductive Leftover (c : Nat) (m : Moment) : Prop where
  | task {i : Idle} {rest : List Idle} :
    m.stage = .draining → m.world.loop.batch = i :: rest → i.isOf c = true → Leftover c m
  | source {s : Source} {rest : List Source} :
    m.stage = .expiring (s :: rest) → s.clock = c → Leftover c m
  /-- The end of a callback in which the clock was dropped. -/
  | callback {h : TimerHandle} {now : Duration} :
    m.stage = .running (.timer c h now) [] → Leftover c m

theorem Reachable.inert_of_gone (run : Reachable m) (gone : m.world.clock? c = none)
    (leftover : Leftover c m) : Inert c m m.proceed := by
  cases leftover with
  | @task i rest stage batch own =>
    rw [(progress_proceed run.coherent).eq_of_gone stage batch (Idle.isOf_iff.mp own) gone]
    refine ⟨rfl, rfl, rfl, rfl, ?_, rfl, rfl⟩
    simp [EventLoop.withBatch, batch, own]
  | @source s rest stage own =>
    have next : m.proceed = m.expire s rest := by simp only [proceed, stage]
    subst own
    rw [next, expire]
    split
    · next live =>
      have gone' : World.clock? { m.world with loop := m.world.loop.removeSource s.id } s.clock =
          none := gone
      simp only [gone']
      refine ⟨rfl, rfl, rfl, rfl, rfl, rfl, ?_⟩
      have wired := run.hostReachable.accounted.wired
      simp only [EventLoop.removeSource, List.filter_filter]
      refine List.filter_congr fun s' live' => ?_
      by_cases same : s'.id = s.id
      · cases Keyed.eq_of_mem wired.distinct live' live same
        simp
      · simp [same]
    · exact ⟨rfl, rfl, rfl, rfl, rfl, rfl, rfl⟩
  | @callback h now stage =>
    have next : m.proceed = { m with stage := .draining } := by
      simp only [proceed, stage, finish, World.reschedule, gone]
      rfl
    rw [next]
    exact ⟨rfl, rfl, rfl, rfl, rfl, rfl, rfl⟩

/-- Torn-down clocks stay silent. Whatever fires on a clock after it was destroyed was added after
that, and armed after it was added; nothing fires on a clock after it was dropped. A clock that was
destroyed at fake time `t` reads `t` until an advance of it succeeds, whatever was pending and
however often the loop is dispatched. What a clock that is gone left behind, on the loop or in the
middle of a callback, comes to nothing: all else stays as it was. -/
theorem torn_down_silent (run : Reachable m) (c : Nat) :
    (∀ later g now middle handle time past,
      m.history =
        later ++ .fire c g now :: (middle ++ .call (.destroy c) handle time .done :: past) →
      ∃ after arm between add before, middle = after ++ arm :: (between ++ add :: before) ∧
        arm.arms? c = some g ∧ add.issues? c = some g) ∧
    (∀ later handle time past, m.history = later ++ .call (.drop c) handle time .done :: past →
      m.world.clock? c = none ∧ ∀ g now, .fire c g now ∉ later) ∧
    (∀ later handle t past f,
      m.history = later ++ .call (.destroy c) handle (some t) .done :: past →
      (∀ e ∈ later, ¬e.Advances c) → m.world.fakeTime? c = some f → f.now = t) ∧
    (m.world.clock? c = none → Leftover c m → Inert c m m.proceed) :=
  ⟨fun _ _ _ _ _ _ _ split => run.armed_since_destroyed split,
    fun _ _ _ _ split => ⟨run.gone_since_dropped split, run.silent_since_dropped split⟩,
    fun _ _ _ _ _ split stays found => (run.still_since_destroyed split stays found).now,
    fun gone leftover => run.inert_of_gone gone leftover⟩

/-- On the way to 5 ms, the callback of a timer at 1 ms removes the timer and destroys the clock. -/
theorem torn_down_silent_midway :
    ∃ m past f, Reachable m ∧ m.stage = .rest ∧
      m.history = .call (.destroy 0) none (some (.ofMillis 1)) .done :: past ∧
      m.world.fakeTime? 0 = some f ∧ f.now = .ofMillis 1 := by
  have run := ((reachable_ofCalls [.new .fake true,
    .add 0 "tick" [[.remove 0 "tick", .destroy 0]] false, .update 0 "tick" 1,
    .advance 0 (.ofMillis 5)]).turn rfl 6).turn rfl 3
  obtain ⟨m, past, f, run, rest, history, found⟩ :
      ∃ m past f, Reachable m ∧ m.stage = .rest ∧
        m.history = [] ++ .call (.destroy 0) none (some (.ofMillis 1)) .done :: past ∧
        m.world.fakeTime? 0 = some f :=
    ⟨_, _, _, run, rfl, rfl, rfl⟩
  obtain ⟨_, _, still, _⟩ := torn_down_silent run 0
  exact ⟨m, past, f, run, rest, history, found, still [] none _ past f history (by simp) found⟩

end Moment

end VirtualClock
