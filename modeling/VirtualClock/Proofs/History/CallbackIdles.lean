import VirtualClock.Proofs.History.FiringOrder
import VirtualClock.Proofs.History.Lifetime
import VirtualClock.Proofs.World.Queueing

/-!
Idles that a timer's callback queues run at the time of the timer. When the callback is over, the
work of its clock is queued anew, behind all that was queued meanwhile; so nothing moves the clock
before these idles have run, whatever other clocks and other idles do.
-/

namespace VirtualClock

/-- Operations on clock `c` that queue its work anew when they succeed. -/
def Op.Requeues (c : Nat) : Op → Prop
  | update d .. => d = c
  | advance d _ => d = c
  | request d _ => d = c
  | _ => False

theorem FakeTime.Handled.now_eq {c : Nat} {f f' : FakeTime} {e : Event}
    (handled : f.Handled c e f') : f'.now = f.now := by
  cases handled <;> rfl

namespace Clock

variable {k : Clock} {c : Nat} {l : EventLoop}

theorem CoherentIn.idlesOf_eq_nil (coherent : k.CoherentIn c l)
    (workless : k.mode = .real ∨ k.registry.isSome = false) : l.idlesOf c = [] := by
  cases coherent with
  | real _ idle => exact idle
  | unlooped _ _ idle => exact idle
  | looped => simp [mode] at workless

theorem Replies.requeued_of_workless {α : Type} {op : Op} {reply : Reply α}
    (replies : k.Replies c l op reply) (ticketed : l.Ticketed) (coherent : k.CoherentIn c l)
    (workless : k.mode = .real ∨ k.registry.isSome = false) :
    EventLoop.Requeued c l reply.loop := by
  refine EventLoop.requeued_of_idle ((replies.kept ticketed coherent).clock.idlesOf_eq_nil ?_)
  rw [replies.frames.mode, replies.frames.looped]
  exact workless

theorem requeued_updateTimer (ticketed : l.Ticketed) (coherent : k.CoherentIn c l)
    (timer : String) (h : TimerHandle) (delay : Int32)
    (done : (k.updateTimer c h delay l).result = .ok ()) :
    EventLoop.Requeued c l (k.updateTimer c h delay l).loop := by
  have replies : k.Replies c l (.update c timer delay) _ := .update timer h delay
  cases coherent with
  | real numbered idle =>
    exact replies.requeued_of_workless ticketed (.real numbered idle) (.inl rfl)
  | unlooped empty settled idle =>
    exact replies.requeued_of_workless ticketed (.unlooped empty settled idle) (.inr rfl)
  | @looped r f numbered perm coherent linked =>
    simp only [updateTimer, updateFake] at done ⊢
    split at done
    · cases done
    · next trigger asked =>
      split at done
      · cases done
      · next t found =>
        have later : ∀ d, trigger = some d → f.now ≤ d := by
          rintro d rfl
          exact Nat.le_of_lt (Duration.lt_of_after? (FakeTime.after?_of_trigger? asked))
        exact (FakeTime.ready_rearm ticketed linked coherent found later).requeued

theorem requeued_advance (ticketed : l.Ticketed) (coherent : k.CoherentIn c l)
    (delta : Duration) (done : (k.advance c delta l).result = .ok ()) :
    EventLoop.Requeued c l (k.advance c delta l).loop := by
  have replies : k.Replies c l (.advance c delta) _ := .advance delta
  cases coherent with
  | real numbered idle =>
    exact replies.requeued_of_workless ticketed (.real numbered idle) (.inl rfl)
  | unlooped empty settled idle =>
    exact replies.requeued_of_workless ticketed (.unlooped empty settled idle) (.inr rfl)
  | @looped r f numbered perm coherent linked =>
    simp only [advance] at done ⊢
    split at done
    · cases done
    · next target sum =>
      exact (FakeTime.ready_advance ticketed linked coherent target).requeued

theorem requeued_handleRequest (ticketed : l.Ticketed) (coherent : k.CoherentIn c l)
    (r : AdvanceRequest) (done : (k.handleRequest c r l).result = .ok ()) :
    EventLoop.Requeued c l (k.handleRequest c r l).loop := by
  unfold handleRequest at done ⊢
  split at done
  · cases done
  · next delta read =>
    exact requeued_advance ticketed coherent delta done

end Clock

namespace World

variable {w : World} {c : Nat} {op : Op}

/-- An update or an advance that succeeds puts the work of its clock at the end of the queue. -/
theorem Coherent.requeued_exec (h : w.Coherent) (requeues : op.Requeues c)
    (done : (w.exec op).1 = .done) : EventLoop.Requeued c w.loop (w.exec op).2.loop := by
  have about : op.clock? = some c := by
    cases op <;> first | exact congrArg some requeues | cases requeues
  obtain ⟨k, found⟩ := exists_clock_of_done about done
  have coherent := h.clocks c k found
  cases op with
  | update d timer delay =>
    cases requeues
    simp only [World.exec, onTimer, found] at done ⊢
    split at done
    · cases done
    · next g named =>
      exact Clock.requeued_updateTimer h.ticketed coherent timer g delay
        (ofUnit_eq_done_iff.mp done)
  | advance d delta =>
    cases requeues
    simp only [World.exec, onClock, found] at done ⊢
    exact Clock.requeued_advance h.ticketed coherent delta (ofUnit_eq_done_iff.mp done)
  | request d r =>
    cases requeues
    simp only [World.exec, onClock, found] at done ⊢
    exact Clock.requeued_handleRequest h.ticketed coherent r (ofUnit_eq_done_iff.mp done)
  | _ => cases requeues

end World

namespace Moment

variable {m m' m₂ : Moment} {c : Nat} {g : TimerHandle} {t now : Duration} {n : Ticket}
  {f f' : FakeTime} {k : Clock} {i : Idle}

theorem Coherent.finish (h : m.Coherent) (stage : m.stage = .running (.timer c g now) [])
    (found : m.world.clock? c = some k) :
    ∃ r f, k = ⟨some r, .fake f⟩ ∧
      m.proceed.world.clock? c = some ⟨some r, .fake (f.reschedule c m.world.loop).1⟩ ∧
      EventLoop.Requeued c m.world.loop m.proceed.world.loop := by
  obtain ⟨fake, registered⟩ := (h.looped c g now [] stage).2 k found
  cases h.world.clocks c k found with
  | real => cases fake
  | unlooped => cases registered
  | @looped r f numbered perm coherent linked =>
    refine ⟨r, f, rfl, ?_, ?_⟩
    · simp only [proceed, stage, Moment.finish, World.reschedule, found]
      exact World.clock?_accept found _
    · simp only [proceed, stage, Moment.finish, World.reschedule, found]
      exact (coherent.ready h.world.ticketed linked).requeued

/-- The step neither starts a callback of clock `c` nor applies its target. -/
structure Undisturbed (c : Nat) (m m' : Moment) : Prop where
  unfired : ∀ g now, m'.history ≠ .fire c g now :: m.history
  unapplied : m.task? ≠ some (.finalTime c)

theorem Move.now_eq (move : Move c m m' f f') (undisturbed : Undisturbed c m m') :
    f'.now = f.now := by
  cases move with
  | elsewhere _ same => rw [same]
  | handled handled => exact handled.now_eq
  | fired _ _ _ _ history => exact absurd history (undisturbed.unfired _ _)
  | applied next => exact absurd next undisturbed.unapplied
  | rescheduled l same => rw [same]; rfl

theorem Progress.task?_of_fired {time : Option Duration} (next : m.Progress m')
    (found : m.world.fakeTime? c = some f) (history : m'.history = .fire c g time :: m.history) :
    m.task? = some (.timer c g) := by
  cases next with
  | expires _ _ alive real =>
    cases history
    obtain ⟨k, alive', fake⟩ := World.fakeTime?_eq_some_iff.mp found
    cases alive.symm.trans alive'
    simp [Clock.mode, fake] at real
  | fires _ draining batch =>
    cases history
    exact task?_of_batch draining batch
  | executes => cases (List.cons.inj history).1
  | _ => exact absurd history List.ne_cons_self

theorem Step.task?_of_fired {time : Option Duration} (h : m.Coherent) (step : Step m m')
    (found : m.world.fakeTime? c = some f) (history : m'.history = .fire c g time :: m.history) :
    m.task? = some (.timer c g) := by
  cases step with
  | call => cases (List.cons.inj history).1
  | proceed => exact (progress_proceed h).task?_of_fired found history
  | _ => exact absurd history List.ne_cons_self

/-- A callback of clock `c` at time `t` is not over yet, or since then the clock reads `t`, and all
its work on the loop is later than ticket `n`. -/
structure Waits (c : Nat) (t : Duration) (n : Ticket) (m : Moment) : Prop where
  given : n < m.world.loop.nextTicket
  phase : (∃ g ops, m.stage = .running (.timer c g t) ops) ∨
    ∃ r f, m.world.clock? c = some ⟨some r, .fake f⟩ ∧ f.now = t ∧
      ∀ j ∈ m.world.loop.idlesOf c, n < j.ticket

theorem Waits.undisturbed (run : Reachable m) (waits : Waits c t n m) (step : Step m m')
    (alive : m.world.clock? c = some k) (onward : Relation.ReflTransGen Step m m₂)
    (later : i ∈ m₂.world.loop.live) (ticket : i.ticket = n) : Undisturbed c m m' := by
  subst ticket
  -- The clock's own task would have to be older than `i`, which is still to run.
  have notNext {task : Task} (own : task.owner? = some c) : m.task? ≠ some task := by
    intro next
    obtain ⟨draining, number, rest, batch⟩ := batch_of_task? next
    rcases waits.phase with ⟨g, ops, stage⟩ | ⟨r, f, _, _, behind⟩
    · cases draining.symm.trans stage
    · have mine : ⟨number, task⟩ ∈ m.world.loop.idlesOf c :=
        List.mem_filter.mpr ⟨by simp [EventLoop.live, batch], Idle.isOf_iff.mpr own⟩
      exact absurd (run.le_of_later onward later waits.given batch)
        (Nat.not_le_of_lt (behind _ mine))
  refine ⟨fun g time history => ?_, notNext rfl⟩
  rcases waits.phase with ⟨g', ops, stage⟩ | ⟨r, f, found, _⟩
  · obtain ⟨fake, _⟩ := (run.coherent.looped c g' t ops stage).2 k alive
    obtain ⟨f, found⟩ := World.exists_fakeTime? alive fake
    exact notNext rfl (step.task?_of_fired run.coherent found history)
  · exact notNext rfl
      (step.task?_of_fired run.coherent (World.fakeTime?_of_clock? found rfl) history)

theorem Waits.step (run : Reachable m) (waits : Waits c t n m) (step : Step m m')
    (undisturbed : Undisturbed c m m') {k' : Clock} (alive : m.world.clock? c = some k)
    (alive' : m'.world.clock? c = some k') : Waits c t n m' := by
  have queues := step.queues run.coherent
  refine ⟨Nat.lt_of_lt_of_le waits.given queues.nextTicket_le, ?_⟩
  rcases waits.phase with ⟨g, ops, stage⟩ | ⟨r, f, found, now, behind⟩
  · cases step with
    | call _ rest | pass _ rest | clear rest | turn rest => cases rest.symm.trans stage
    | proceed =>
      cases ops with
      | cons op ops =>
        refine .inl ⟨g, ops, ?_⟩
        simp only [proceed, stage]
      | nil =>
        obtain ⟨r, f, rfl, found', requeued⟩ := run.coherent.finish stage alive
        have now := ((run.ordered c).callback f g t [] (World.fakeTime?_of_clock? alive rfl)
          stage).1
        exact .inr ⟨r, _, found', now,
          fun j member => Nat.lt_of_lt_of_le waits.given (requeued.fresh j member)⟩
  · obtain ⟨r', f', rfl, move⟩ := step.move run.coherent found alive'
    refine .inr ⟨r', f', alive', (move.now_eq undisturbed).trans now, fun j member => ?_⟩
    obtain ⟨live, own⟩ := List.mem_filter.mp member
    rcases queues.mem_live live with old | new
    · exact behind j (List.mem_filter.mpr ⟨old, own⟩)
    · exact Nat.lt_of_lt_of_le waits.given new

theorem Waits.made (h : m.Coherent) (waits : Waits c t n m) : c < m.world.clocks.length := by
  rcases waits.phase with ⟨g, ops, stage⟩ | ⟨r, f, found, _⟩
  · exact (h.looped c g t ops stage).1
  · exact World.lt_length_of_clock? found

theorem Waits.alive (h : m.Coherent) (waits : Waits c t n m)
    (onward : Relation.ReflTransGen Step m m₂) (found : m₂.world.clock? c = some k) :
    ∃ k', m.world.clock? c = some k' :=
  (descends_of_steps h onward).alive c k (waits.made h) found

/-- As long as work with ticket `n` is still to run, and the clock is there, the clock waits. -/
theorem Waits.steps (run : Reachable m) (waits : Waits c t n m)
    (first : Relation.ReflTransGen Step m m') (onward : Relation.ReflTransGen Step m' m₂)
    (found : m₂.world.clock? c = some k) (later : i ∈ m₂.world.loop.live)
    (ticket : i.ticket = n) : Waits c t n m' := by
  induction first with
  | refl => exact waits
  | @tail a b before step ih =>
    have run : Reachable a := Relation.ReflTransGen.trans run before
    have waits := ih (.head step onward)
    obtain ⟨k₁, alive⟩ := waits.alive run.coherent (.head step onward) found
    have made := Nat.lt_of_lt_of_le (waits.made run.coherent)
      (step.descends run.coherent).length_le
    obtain ⟨k₂, alive'⟩ :=
      (descends_of_steps (run.coherent.step step) onward).alive c k made found
    have undisturbed := waits.undisturbed run step alive (.head step onward) later ticket
    exact waits.step run step undisturbed alive alive'

/-- Idles of a callback run at the time `t` of its timer. Whatever is on the loop once the callback
has executed an operation, what that operation put there included, finds the clock at `t` when its
turn comes, if the clock is still there: until then nothing fires on the clock and no target of it
is applied. For an update or an advance that succeeds puts the work of its clock at the end of the
queue, and so does the end of a timer's dispatch. -/
theorem callback_idles_at_its_time (run : Reachable m) (c : Nat) :
    (∀ g t op ops i m₂ rest f, m.stage = .running (.timer c g t) (op :: ops) →
      i.ticket < m.proceed.world.loop.nextTicket →
      Relation.ReflTransGen Step m.proceed m₂ → m₂.stage = .draining →
      m₂.world.loop.batch = i :: rest → m₂.world.fakeTime? c = some f →
      f.now = t ∧
        (∃ calls past a, m.history = calls ++ .fire c g (some t) :: past ∧
          armingOf c g past = some a ∧ a.trigger = t) ∧
        ∀ a b, Relation.ReflTransGen Step m.proceed a → Step a b →
          Relation.ReflTransGen Step b m₂ → Undisturbed c a b) ∧
    (∀ op, op.Requeues c → (m.world.exec op).1 = .done →
      EventLoop.Requeued c m.world.loop (m.world.exec op).2.loop) ∧
    (∀ g t k, m.stage = .running (.timer c g t) [] → m.world.clock? c = some k →
      EventLoop.Requeued c m.world.loop m.proceed.world.loop) := by
  refine ⟨?_, fun op => run.coherent.world.requeued_exec, ?_⟩
  · intro g t op ops i m₂ rest f stage given onward draining batch found
    obtain ⟨k, alive, fake⟩ := World.fakeTime?_eq_some_iff.mp found
    have run₁ : Reachable m.proceed := Relation.ReflTransGen.tail run .proceed
    have waits : Waits c t i.ticket m.proceed := by
      refine ⟨given, .inl ⟨g, ops, ?_⟩⟩
      simp only [proceed, stage]
    have later : i ∈ m₂.world.loop.live := by simp [EventLoop.live, batch]
    refine ⟨?_, ?_, fun a b first step onward => ?_⟩
    · have waits₂ := waits.steps run₁ onward .refl alive later rfl
      rcases waits₂.phase with ⟨g', ops', stage'⟩ | ⟨r, f', found', now, _⟩
      · cases draining.symm.trans stage'
      · cases alive.symm.trans found'
        cases fake
        exact now
    · have made := (run.coherent.looped c g t _ stage).1
      obtain ⟨k₀, alive₀⟩ := (descends_of_steps run.coherent
        (.head .proceed onward)).alive c k made alive
      obtain ⟨fake₀, _⟩ := (run.coherent.looped c g t _ stage).2 k₀ alive₀
      obtain ⟨f₀, found₀⟩ := World.exists_fakeTime? alive₀ fake₀
      obtain ⟨_, calls, past, history, _⟩ := (run.ordered c).callback f₀ g t _ found₀ stage
      obtain ⟨arming, live, trigger⟩ := (run.ordered c).chronicle.fires calls g t past history
      exact ⟨calls, past, arming, history, live, trigger⟩
    · have run₂ : Reachable a := Relation.ReflTransGen.trans run₁ first
      have waits := waits.steps run₁ first (.head step onward) alive later rfl
      obtain ⟨k₁, alive₁⟩ := waits.alive run₂.coherent (.head step onward) alive
      exact waits.undisturbed run₂ step alive₁ (.head step onward) later rfl
  · intro g t k stage found
    obtain ⟨_, _, _, _, requeued⟩ := run.coherent.finish stage found
    exact requeued

/-- A callback at 1 ms puts an idle on the loop and arms its timer for 2 ms, on the way to 5 ms. -/
theorem callback_idles_at_its_time_rearming :
    ∃ m m₂ ops i rest f, Reachable m ∧
      m.stage = .running (.timer 0 ⟨0⟩ (.ofMillis 1)) (.idle "note" [] :: ops) ∧
      Relation.ReflTransGen Step m.proceed m₂ ∧ m₂.stage = .draining ∧
      m₂.world.loop.batch = i :: rest ∧ i.task = .idle "note" [] ∧ rest ≠ [] ∧
      m₂.world.fakeTime? 0 = some f ∧ f.now = .ofMillis 1 := by
  have run := (reachable_ofCalls [.new .fake true,
    .add 0 "tick" [[.idle "note" [], .update 0 "tick" 1]] false, .update 0 "tick" 1,
    .advance 0 (.ofMillis 5)]).turn rfl 2
  obtain ⟨m, m₂, ops, i, rest, f, run, stage, given, onward, draining, batch, task, more,
      found⟩ :
      ∃ m m₂ ops i rest f, Reachable m ∧
        m.stage = .running (.timer 0 ⟨0⟩ (.ofMillis 1)) (.idle "note" [] :: ops) ∧
        i.ticket < m.proceed.world.loop.nextTicket ∧
        Relation.ReflTransGen Step m.proceed m₂ ∧ m₂.stage = .draining ∧
        m₂.world.loop.batch = i :: rest ∧ i.task = .idle "note" [] ∧ rest ≠ [] ∧
        m₂.world.fakeTime? 0 = some f := by
    refine ⟨_, _, _, _, _, _, run, rfl, ?_,
      .trans (.tail (.tail (.tail .refl .proceed) .proceed) .proceed) (steps_turn rfl 1),
      rfl, rfl, rfl, ?_, rfl⟩
    all_goals decide
  obtain ⟨runsAt, _, _⟩ := callback_idles_at_its_time run 0
  obtain ⟨now, _, _⟩ := runsAt ⟨0⟩ _ _ _ i m₂ rest f stage given onward draining batch found
  exact ⟨m, m₂, ops, i, rest, f, run, stage, onward, draining, batch, task, more, found, now⟩

end Moment

end VirtualClock
