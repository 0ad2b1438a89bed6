import VirtualClock.Proofs.History.Transitions

/-!
One clock with a loop, step by step. A call on the clock makes of its fake time what the event in
history tells; a step without a call on it fires its first timer, applies its pending advance,
queues its work anew after a callback, or leaves its fake time as it is.
-/

namespace VirtualClock

/-- How far an operation asks clock `c` to advance. -/
def Op.delta? (c : Nat) : Op → Option Duration
  | .advance d delta => if d = c then some delta else none
  | .request d r => if d = c then r.toDuration.toOption else none
  | _ => none

/-- A call that succeeded in giving clock `c` another target, or none. -/
def Event.Retargets (c : Nat) : Event → Prop
  | .call (.advance d _) _ _ .done => d = c
  | .call (.request d _) _ _ .done => d = c
  | .call (.destroy d) _ _ .done => d = c
  | _ => False

theorem Event.clock?_of_delta? {c : Nat} {op : Op} {delta : Duration}
    (asked : op.delta? c = some delta) (handle : Option TimerHandle) (now : Option Duration)
    (answer : Answer) : (Event.call op handle now answer).clock? = some c := by
  unfold Op.delta? at asked
  split at asked
  · exact congrArg some (Option.ite_none_right_eq_some.mp asked).1
  · exact congrArg some (Option.ite_none_right_eq_some.mp asked).1
  · cases asked

theorem Event.retargets_of_delta? {c : Nat} {op : Op} {delta : Duration}
    (asked : op.delta? c = some delta) (handle : Option TimerHandle) (now : Option Duration) :
    (Event.call op handle now .done).Retargets c := by
  unfold Op.delta? at asked
  split at asked
  · exact (Option.ite_none_right_eq_some.mp asked).1
  · exact (Option.ite_none_right_eq_some.mp asked).1
  · cases asked

namespace FakeTime

variable {f : FakeTime} {c : Nat}

/-- The event that a call on clock `c` at fake time `f` leaves, and the fake time after it. -/
inductive Handled (c : Nat) (f : FakeTime) : Event → FakeTime → Prop where
  /-- A question, or a call that fails. -/
  | kept {op : Op} {handle : Option TimerHandle} {now : Option Duration} {answer : Answer} :
    answer ≠ .done → (∀ h, answer ≠ .handle h) → Handled c f (.call op handle now answer) f
  | added (timer : String) (fires : List (List Op)) (repeats : Bool) {h : TimerHandle} :
    h ∉ f.timers.handles →
    Handled c f (.call (.add c timer fires repeats) none (some f.now) (.handle h))
      { f with timers := f.timers.insert { handle := h } }
  | updated (timer : String) (delay : Int32) (l : EventLoop) {h : TimerHandle} :
    h ∈ f.timers.handles →
    Handled c f (.call (.update c timer delay) (some h) (some f.now) .done)
      (({ f with timers := f.timers.setTrigger h (f.now.after? delay) } : FakeTime).reschedule
        c l).1
  | removed (timer : String) {h : TimerHandle} :
    Handled c f (.call (.remove c timer) (some h) (some f.now) .done)
      { f with timers := f.timers.erase h }
  | advanced (op : Op) (l : EventLoop) {delta target : Duration} :
    op.delta? c = some delta → f.now.add? delta = some target →
    Handled c f (.call op none (some f.now) .done) (f.advanceTo true c target l).1
  | destroyed :
    Handled c f (.call (.destroy c) none (some f.now) .done) { f with final := none }

theorem Handled.failed {op : Op} {handle : Option TimerHandle} {now : Option Duration}
    (why : Failure) : f.Handled c (.call op handle now (.failed why)) f :=
  .kept (by rintro ⟨⟩) (by rintro _ ⟨⟩)

end FakeTime

namespace World

variable {w : World} {c : Nat} {r : Registry} {f : FakeTime} {k' : Clock}

theorem handled_onTimer {op : Op} {timer : String} {call : Clock → TimerHandle → Reply Unit}
    (exec : w.exec op = w.onTimer c timer call) (named : op.timer? = some timer)
    (about : op.clock? = some c) (found : w.clock? c = some ⟨some r, .fake f⟩)
    (handled : ∀ h, ∃ r' f', (call ⟨some r, .fake f⟩ h).clock = ⟨some r', .fake f'⟩ ∧
      f.Handled c (.call op (some h) (some f.now) (.ofUnit (call ⟨some r, .fake f⟩ h).result)) f')
    (found' : (w.exec op).2.clock? c = some k') :
    ∃ r' f', k' = ⟨some r', .fake f'⟩ ∧ f.Handled c (w.called op) f' := by
  unfold called
  rw [exec] at found' ⊢
  simp only [named, about, Option.bind_some, fakeNow?_eq found rfl]
  unfold onTimer at found' ⊢
  simp only [found] at found' ⊢
  cases looked : w.lookup timer with
  | none =>
    simp only [looked] at found' ⊢
    cases found.symm.trans found'
    exact ⟨r, f, rfl, .kept (by rintro ⟨⟩) (by rintro _ ⟨⟩)⟩
  | some h =>
    simp only [looked] at found' ⊢
    obtain ⟨r', f', clock, handled⟩ := handled h
    rw [clock?_accept found] at found'
    cases found'
    exact ⟨r', f', clock, handled⟩

theorem handled_onClock {op : Op} {call : Clock → Reply Unit}
    (exec : w.exec op = w.onClock c call) (unnamed : op.timer? = none)
    (about : op.clock? = some c) (found : w.clock? c = some ⟨some r, .fake f⟩)
    (handled : ∃ r' f', (call ⟨some r, .fake f⟩).clock = ⟨some r', .fake f'⟩ ∧
      f.Handled c (.call op none (some f.now) (.ofUnit (call ⟨some r, .fake f⟩).result)) f')
    (found' : (w.exec op).2.clock? c = some k') :
    ∃ r' f', k' = ⟨some r', .fake f'⟩ ∧ f.Handled c (w.called op) f' := by
  unfold called
  rw [exec] at found' ⊢
  simp only [unnamed, about, Option.bind_none, Option.bind_some, fakeNow?_eq found rfl]
  unfold onClock at found' ⊢
  simp only [found] at found' ⊢
  obtain ⟨r', f', clock, handled⟩ := handled
  rw [clock?_accept found] at found'
  cases found'
  exact ⟨r', f', clock, handled⟩

theorem handled_ask {op : Op} {question : Clock → Answer}
    (exec : w.exec op = w.ask c question) (found : w.clock? c = some ⟨some r, .fake f⟩)
    (asked : question ⟨some r, .fake f⟩ ≠ .done)
    (asked' : ∀ h, question ⟨some r, .fake f⟩ ≠ .handle h)
    (found' : (w.exec op).2.clock? c = some k') :
    ∃ r' f', k' = ⟨some r', .fake f'⟩ ∧ f.Handled c (w.called op) f' := by
  have same : w.clock? c = some k' := by rwa [exec] at found'
  cases found.symm.trans same
  refine ⟨r, f, rfl, ?_⟩
  have answer : (w.exec op).1 = question ⟨some r, .fake f⟩ := by
    rw [exec, ask, found]
    rfl
  rw [called, answer]
  exact .kept asked asked'

end World

namespace Clock

variable {c : Nat} {r : Registry} {f : FakeTime} {l : EventLoop}

theorem handled_updateTimer (timer : String) (h : TimerHandle) (delay : Int32) :
    ∃ r' f', ((⟨some r, .fake f⟩ : Clock).updateTimer c h delay l).clock = ⟨some r', .fake f'⟩ ∧
      f.Handled c (.call (.update c timer delay) (some h) (some f.now)
        (.ofUnit ((⟨some r, .fake f⟩ : Clock).updateTimer c h delay l).result)) f' := by
  simp only [updateTimer, updateFake]
  split
  · exact ⟨r, f, rfl, .failed _⟩
  · next trigger asked =>
    split
    · exact ⟨r, f, rfl, .failed _⟩
    · next t known =>
      have member : h ∈ f.timers.handles := TimerList.find?_isSome_iff.mp (by simp [known])
      rw [← FakeTime.after?_of_trigger? asked]
      exact ⟨r, _, rfl, .updated timer delay _ member⟩

theorem handled_removeTimer (perm : f.timers.handles.Perm r.handles) (timer : String)
    (h : TimerHandle) :
    ∃ r' f', ((⟨some r, .fake f⟩ : Clock).removeTimer h l).clock = ⟨some r', .fake f'⟩ ∧
      f.Handled c (.call (.remove c timer) (some h) (some f.now)
        (.ofUnit ((⟨some r, .fake f⟩ : Clock).removeTimer h l).result)) f' := by
  simp only [removeTimer]
  split
  · exact ⟨r, f, rfl, .failed _⟩
  · next e entry =>
    have member : h ∈ f.timers.handles :=
      perm.mem_iff.mpr (Registry.find?_isSome_iff.mp (by simp [entry]))
    obtain ⟨t, known⟩ := Option.isSome_iff_exists.mp (TimerList.find?_isSome_iff.mpr member)
    simp only [known]
    exact ⟨r.erase h, _, rfl, .removed timer⟩

theorem handled_advance {op : Op} {delta : Duration} (asked : op.delta? c = some delta) :
    ∃ r' f', ((⟨some r, .fake f⟩ : Clock).advance c delta l).clock = ⟨some r', .fake f'⟩ ∧
      f.Handled c (.call op none (some f.now)
        (.ofUnit ((⟨some r, .fake f⟩ : Clock).advance c delta l).result)) f' := by
  simp only [advance]
  split
  · exact ⟨r, f, rfl, .failed _⟩
  · next target sum => exact ⟨r, _, rfl, .advanced op l asked sum⟩

theorem handled_handleRequest (q : AdvanceRequest) :
    ∃ r' f', ((⟨some r, .fake f⟩ : Clock).handleRequest c q l).clock = ⟨some r', .fake f'⟩ ∧
      f.Handled c (.call (.request c q) none (some f.now)
        (.ofUnit ((⟨some r, .fake f⟩ : Clock).handleRequest c q l).result)) f' := by
  unfold handleRequest
  split
  · exact ⟨r, f, rfl, .failed _⟩
  · next delta read => exact handled_advance (by simp [Op.delta?, read, Except.toOption])

theorem handled_destroy :
    ∃ r' f', ((⟨some r, .fake f⟩ : Clock).destroy l).clock = ⟨some r', .fake f'⟩ ∧
      f.Handled c (.call (.destroy c) none (some f.now)
        (.ofUnit ((⟨some r, .fake f⟩ : Clock).destroy l).result)) f' := by
  simp only [Clock.destroy]
  split
  · exact ⟨r, f, rfl, .failed _⟩
  · split
    · exact ⟨r, f, rfl, .failed _⟩
    · exact ⟨r, _, rfl, .destroyed⟩

end Clock

theorem World.Coherent.handled_exec {w : World} (h : w.Coherent) {op : Op} {c : Nat} {r : Registry}
    {f : FakeTime} {k' : Clock} (about : op.clock? = some c)
    (found : w.clock? c = some ⟨some r, .fake f⟩) (found' : (w.exec op).2.clock? c = some k') :
    ∃ r' f', k' = ⟨some r', .fake f'⟩ ∧ f.Handled c (w.called op) f' := by
  obtain ⟨numbered, perm⟩ := (h.clocks c _ found).registered
  cases op with
  | new | idle => cases about
  | add d timer fires repeats =>
    cases about
    have fresh : (⟨r.next⟩ : TimerHandle) ∉ f.timers.handles := fun member =>
      Registry.next_not_mem_handles numbered (perm.mem_iff.mp member)
    have answer : (w.exec (.add c timer fires repeats)).1 = .handle ⟨r.next⟩ := by
      simp only [World.exec, World.addTimer, found, Clock.addTimer]
    have clock : (w.exec (.add c timer fires repeats)).2.clock? c =
        some ⟨some (r.add { name := timer, fires, repeats }),
          .fake { f with timers := f.timers.insert { handle := ⟨r.next⟩ } }⟩ := by
      simp only [World.exec, World.addTimer, found, Clock.addTimer]
      exact clock?_accept found _
    cases clock.symm.trans found'
    refine ⟨_, _, rfl, ?_⟩
    have now : (Op.add c timer fires repeats).clock?.bind w.fakeNow? = some f.now :=
      fakeNow?_eq found rfl
    rw [World.called, answer, now]
    exact .added timer fires repeats fresh
  | update d timer delay =>
    cases about
    exact handled_onTimer rfl rfl rfl found
      (fun h => Clock.handled_updateTimer timer h delay) found'
  | remove d timer =>
    cases about
    exact handled_onTimer rfl rfl rfl found
      (fun h => Clock.handled_removeTimer perm timer h) found'
  | advance d delta =>
    cases about
    exact handled_onClock rfl rfl rfl found (Clock.handled_advance (if_pos rfl)) found'
  | request d q =>
    cases about
    exact handled_onClock rfl rfl rfl found (Clock.handled_handleRequest q) found'
  | destroy d =>
    cases about
    exact handled_onClock rfl rfl rfl found Clock.handled_destroy found'
  | drop d =>
    cases about
    have gone : (w.exec (.drop c)).2.clock? c = none := by
      simp only [World.exec, found]
      rw [clock?_dropClock, if_pos rfl]
    cases gone.symm.trans found'
  | gettime d id =>
    cases about
    have answer : answerTime w.loop id ⟨some r, .fake f⟩ = .time f.now.toTimespec ∨
        ∃ why, answerTime w.loop id ⟨some r, .fake f⟩ = .failed why := by
      by_cases emulated : id.isEmulated = true
      · exact .inl (by simp [answerTime, Clock.gettime, emulated, Clock.mode])
      · refine .inr ⟨.refused (.unsupportedClockId id), ?_⟩
        simp only [answerTime, Clock.gettime, if_neg emulated]
    refine handled_ask rfl found ?_ ?_ found'
    · rcases answer with told | ⟨why, told⟩ <;> simp [told]
    · rcases answer with told | ⟨why, told⟩ <;> simp [told]
  | mode d | pending d | describe d =>
    cases about
    exact handled_ask rfl found (by rintro ⟨⟩) (by rintro _ ⟨⟩) found'

namespace Moment

variable {m m' : Moment} {c : Nat} {r : Registry} {f : FakeTime} {k' : Clock}

/-- The task of the batch that comes next. -/
def task? (m : Moment) : Option Task :=
  match m.stage with
  | .draining => m.world.loop.next?.map (·.1.task)
  | _ => none

/-- What a step makes of the fake time of clock `c`. -/
inductive Move (c : Nat) (m m' : Moment) (f f' : FakeTime) : Prop where
  | elsewhere (events : List Event) :
    f' = f → m'.history = events ++ m.history → (∀ e ∈ events, e.clock? ≠ some c) →
    Move c m m' f f'
  | handled {e : Event} : f.Handled c e f' → m'.history = e :: m.history → Move c m m' f f'
  | fired {g : TimerHandle} {d : Duration} {x : FinalTime} :
    f.final = some x → d ≤ x.target → f.timers.First g d → f' = f.fired g d →
    m'.history = .fire c g (some d) :: m.history → Move c m m' f f'
  | applied {x : FinalTime} :
    m.task? = some (.finalTime c) → f.final = some x → f' = f.arrived x.target →
    m'.history = m.history → Move c m m' f f'
  | rescheduled (l : EventLoop) :
    f' = (f.reschedule c l).1 → m'.history = m.history → Move c m m' f f'

theorem task?_of_batch {i : Idle} {rest : List Idle} (draining : m.stage = .draining)
    (batch : m.world.loop.batch = i :: rest) : m.task? = some i.task := by
  simp [task?, draining, EventLoop.next?_eq batch]

theorem batch_of_task? {task : Task} (next : m.task? = some task) :
    m.stage = .draining ∧ ∃ ticket rest, m.world.loop.batch = ⟨ticket, task⟩ :: rest := by
  unfold task? at next
  split at next
  · next draining =>
    obtain ⟨⟨i, l⟩, popped, rfl⟩ := Option.map_eq_some_iff.mp next
    cases batch : m.world.loop.batch with
    | nil => simp [EventLoop.next?, batch] at popped
    | cons j rest =>
      rw [EventLoop.next?_eq batch] at popped
      cases popped
      exact ⟨draining, i.ticket, rest, rfl⟩
  · cases next

/-- A clock whose task comes next runs on fake time, and the task is the first of the work that it
knows of. -/
theorem Coherent.of_task? (h : m.Coherent) {task : Task} (next : m.task? = some task)
    (own : task.owner? = some c) {k : Clock} (found : m.world.clock? c = some k) :
    ∃ ticket rest r f, k = ⟨some r, .fake f⟩ ∧ f.Coherent ∧
      ((f.idles c).map (·.ticket)).Nodup ∧
      f.idles c = ⟨ticket, task⟩ :: (m.world.loop.withBatch rest).idlesOf c := by
  obtain ⟨_, ticket, rest, batch⟩ := batch_of_task? next
  rcases h.world.of_next batch (Idle.isOf_iff.mpr own) with gone | ⟨r, f, found', _, _, coherent,
    tickets, idles⟩
  · cases gone.symm.trans found
  · cases found'.symm.trans found
    exact ⟨ticket, rest, r, f, rfl, coherent, tickets, idles⟩

theorem move_still (found : m.world.clock? c = some ⟨some r, .fake f⟩)
    (same : m'.world.clock? c = m.world.clock? c) (history : m'.history = m.history)
    (found' : m'.world.clock? c = some k') :
    ∃ r' f', k' = ⟨some r', .fake f'⟩ ∧ Move c m m' f f' := by
  cases found.symm.trans (same.symm.trans found')
  exact ⟨r, f, rfl, .elsewhere [] rfl history nofun⟩

theorem move_logged {e : Event} (found : m.world.clock? c = some ⟨some r, .fake f⟩)
    (same : m'.world.clock? c = m.world.clock? c) (history : m'.history = e :: m.history)
    (foreign : e.clock? ≠ some c) (found' : m'.world.clock? c = some k') :
    ∃ r' f', k' = ⟨some r', .fake f'⟩ ∧ Move c m m' f f' := by
  cases found.symm.trans (same.symm.trans found')
  refine ⟨r, f, rfl, .elsewhere [e] rfl history ?_⟩
  intro x member
  rw [List.mem_singleton.mp member]
  exact foreign

theorem move_exec (h : m.Coherent) (op : Op) (found : m.world.clock? c = some ⟨some r, .fake f⟩)
    (clocks : m'.world.clocks = (m.world.exec op).2.clocks)
    (history : m'.history = m.world.called op :: m.history)
    (found' : m'.world.clock? c = some k') :
    ∃ r' f', k' = ⟨some r', .fake f'⟩ ∧ Move c m m' f f' := by
  have after : m'.world.clock? c = (m.world.exec op).2.clock? c := by
    rw [World.clock?, clocks]
    rfl
  by_cases about : op.clock? = some c
  · obtain ⟨r', f', clock, handled⟩ := h.world.handled_exec about found (after.symm.trans found')
    exact ⟨r', f', clock, .handled handled history⟩
  · have executed := World.executed_exec m.world op
    have kept := executed.clock?_eq (World.lt_length_of_clock? found) about
    exact move_logged found (after.trans kept) history about found'

theorem Progress.move (h : m.Coherent) (next : m.Progress m')
    (found : m.world.clock? c = some ⟨some r, .fake f⟩) (found' : m'.world.clock? c = some k') :
    ∃ r' f', k' = ⟨some r', .fake f'⟩ ∧ Move c m m' f f' := by
  have fake {d : Nat} {k : Clock} (other : m.world.clock? d = some k) (real : k.mode = .real) :
      c ≠ d := by
    rintro rfl
    cases found.symm.trans other
    cases real
  have own {k : Clock} (mine : m.world.clock? c = some k) (k₁ : Clock) :
      (m.world.setClock c k₁).clock? c = some k₁ := by
    rw [World.clock?_setClock (World.lt_length_of_clock? mine), if_pos rfl]
  cases next with
  | resting | takes | skips | drained | orphan | user | returns =>
    exact move_still found rfl rfl found'
  | misses stage other real =>
    exact move_still found (clock?_setClock_of_ne other (fake other real) _) rfl found'
  | expires log stage other real =>
    have ne := fake other real
    exact move_logged found (clock?_setClock_of_ne other ne _) rfl
      (fun same => ne (Option.some.inj same).symm) found'
  | @fires ticket d g rest r₁ f₁ _ x _ log stage batch other final le first =>
    by_cases same : c = d
    · subst same
      cases found.symm.trans other
      cases (own found _).symm.trans found'
      exact ⟨_, _, rfl, .fired final le first rfl rfl⟩
    · exact move_logged found (clock?_setClock_of_ne other same _) rfl
        (fun equal => same (Option.some.inj equal).symm) found'
  | @applies ticket d rest r₁ f₁ x stage batch other final =>
    by_cases same : c = d
    · subst same
      cases found.symm.trans other
      cases (own found _).symm.trans found'
      exact ⟨_, _, rfl, .applied (task?_of_batch stage batch) final rfl rfl⟩
    · exact move_still found (clock?_setClock_of_ne other same _) rfl found'
  | @reschedules d g now r₁ f₁ stage other =>
    by_cases same : c = d
    · subst same
      cases found.symm.trans other
      cases (own found _).symm.trans found'
      exact ⟨_, _, rfl, .rescheduled _ rfl rfl⟩
    · exact move_still found (clock?_setClock_of_ne other same _) rfl found'
  | executes log stage => exact move_exec h _ found rfl rfl found'

theorem Step.move (h : m.Coherent) (step : Step m m')
    (found : m.world.clock? c = some ⟨some r, .fake f⟩) (found' : m'.world.clock? c = some k') :
    ∃ r' f', k' = ⟨some r', .fake f'⟩ ∧ Move c m m' f f' := by
  cases step with
  | call op stage => exact move_exec h op found rfl rfl found'
  | pass | clear | turn => exact move_still found rfl rfl found'
  | proceed => exact (progress_proceed h).move h found found'

end Moment

end VirtualClock
