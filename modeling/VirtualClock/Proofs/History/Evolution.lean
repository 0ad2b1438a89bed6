import VirtualClock.Proofs.History.Armings
import VirtualClock.Proofs.World.Reachable

/-!
How a step changes fake time. Whatever the step, the triggers of a clock's timers change only as
the event that goes into history says, and time does not go back; it moves when a timer fires, to
its trigger, and when an advance is through.
-/

namespace VirtualClock

namespace FakeTime

variable {f f' : FakeTime} {c : Nat} {e : Event} {past : List Event}

/-- Fake time before and after a change of the given timer to the given trigger. -/
inductive Retimed (f f' : FakeTime) : Option (TimerHandle × Option Duration) → Prop where
  | kept : f'.timers.alarms = f.timers.alarms → Retimed f f' none
  | added {h : TimerHandle} :
    h ∉ f.timers.handles → f'.timers.alarms = (f.timers.insert { handle := h }).alarms →
    Retimed f f' none
  | set {h : TimerHandle} {trigger : Option Duration} :
    h ∈ f.timers.handles → (∀ d, trigger = some d → f.now < d) →
    f'.timers.alarms = (f.timers.setTrigger h trigger).alarms →
    Retimed f f' (some (h, trigger))
  | erased {h : TimerHandle} :
    f'.timers.alarms = (f.timers.erase h).alarms → Retimed f f' (some (h, none))

theorem Retimed.ranked {change : Option (TimerHandle × Option Duration)}
    (retimed : f.Retimed f' change) (sorted : f.timers.Sorted) (distinct : f.timers.handles.Nodup)
    {arming : TimerHandle → Option Arming} {n : Nat}
    (latest : ∀ h a, arming h = some a → a.index < n)
    (ranked : TimerList.Ranked f.timers.alarms arming) :
    TimerList.Ranked f'.timers.alarms (rearm arming n change) := by
  have distinct' : (f.timers.alarms.map (·.1)).Nodup :=
    TimerList.handles_eq_map_alarms f.timers ▸ distinct
  cases retimed with
  | kept same => exact same ▸ ranked
  | @added h fresh same =>
    have absent : h ∉ f.timers.alarms.map (·.1) :=
      TimerList.handles_eq_map_alarms f.timers ▸ fresh
    have placed := ranked.place distinct' absent latest none
    rw [same, TimerList.alarms_insert sorted]
    convert placed using 2 with g
    rw [Option.map_none]
    split
    · next same => exact same ▸ ranked.disarmed absent
    · rfl
  | @set h trigger member _ same =>
    have sub : ((f.timers.alarms.filter (·.1 != h)).map (·.1)).Nodup :=
      distinct'.sublist (List.filter_sublist.map _)
    have absent : h ∉ (f.timers.alarms.filter (·.1 != h)).map (·.1) := by
      simp
    have latest' : ∀ g a, (if g = h then none else arming g) = some a → a.index < n := by
      intro g a live
      split at live
      · cases live
      · exact latest g a live
    have placed := (ranked.erase h).place sub absent latest' trigger
    rw [same, TimerList.alarms_setTrigger sorted distinct member]
    convert placed using 2 with g
    by_cases same : g = h <;> simp [rearm, same]
  | @erased h same =>
    rw [same, TimerList.alarms_erase distinct]
    exact ranked.erase h

theorem Retimed.armingOf (retimed : f.Retimed f' (e.change? c)) {h : TimerHandle} {a : Arming}
    (live : armingOf c h (e :: past) = some a) :
    VirtualClock.armingOf c h past = some a ∨ f.now < a.trigger := by
  generalize change : e.change? c = changed at retimed
  cases retimed with
  | kept | added => exact .inl ((armingOf_cons_of_none change).symm.trans live)
  | set _ later =>
    rw [armingOf_cons_of_some change] at live
    split at live
    · obtain ⟨d, rfl, rfl⟩ := Option.map_eq_some_iff.mp live
      exact .inr (later d rfl)
    · exact .inl live
  | erased =>
    rw [armingOf_cons_of_some change] at live
    split at live
    · cases live
    · exact .inl live

/-- An operation on a clock leaves this of its fake time: changed triggers, and no less time, the
same unless the clock has no loop. -/
structure Called (f f' : FakeTime) (change : Option (TimerHandle × Option Duration))
    (looped : Bool) : Prop where
  retimed : f.Retimed f' change
  now_le : f.now ≤ f'.now
  now_eq : looped = true → f'.now = f.now

theorem Called.of_now {change : Option (TimerHandle × Option Duration)} {looped : Bool}
    (retimed : f.Retimed f' change) (now : f'.now = f.now) : f.Called f' change looped :=
  ⟨retimed, now ▸ Nat.le_refl _, fun _ => now⟩

theorem called_refl (f : FakeTime) (looped : Bool) : f.Called f none looped :=
  .of_now (.kept rfl) rfl

theorem trigger?_eq (f : FakeTime) (delay : Int32) :
    f.trigger? delay =
      if 0 < delay.toInt ∧ f.now.after? delay = none then .error .timeOverflow
      else .ok (f.now.after? delay) := by
  unfold trigger? Duration.after?
  by_cases positive : 0 < delay.toInt
  · simp only [positive, if_true, true_and]
    cases f.now.add? (.ofMillis (.ofNat delay.toInt.toNat)) <;> rfl
  · simp only [positive, if_false, false_and]

theorem after?_of_trigger? {delay : Int32} {trigger : Option Duration}
    (asked : f.trigger? delay = .ok trigger) : f.now.after? delay = trigger := by
  rw [trigger?_eq] at asked
  split at asked
  · cases asked
  · exact Except.ok.inj asked

end FakeTime

namespace Clock

variable {k : Clock} {f : FakeTime} {c : Nat} {l : EventLoop}

/-- What a call on a clock on fake time makes of it, if it succeeds and if it does not. -/
structure Evolves (k : Clock) (f : FakeTime) (reply : Reply Unit)
    (change : Option (TimerHandle × Option Duration)) : Prop where
  done : reply.result = .ok () →
    ∃ f', reply.clock.source = .fake f' ∧ f.Called f' change k.registry.isSome
  failed : ∀ why, reply.result = .error why →
    ∃ f', reply.clock.source = .fake f' ∧ f.Called f' none k.registry.isSome

theorem evolves_error (fake : k.source = .fake f) {k' : Clock} {l' : EventLoop} {why : Failure}
    {change : Option (TimerHandle × Option Duration)} (same : k'.source = k.source) :
    k.Evolves f ⟨.error why, k', l'⟩ change :=
  ⟨nofun, fun _ _ => ⟨f, same.trans fake, f.called_refl _⟩⟩

theorem evolves_ok {k' : Clock} {l' : EventLoop} {f' : FakeTime}
    {change : Option (TimerHandle × Option Duration)} (fake : k'.source = .fake f')
    (called : f.Called f' change k.registry.isSome) : k.Evolves f ⟨.ok (), k', l'⟩ change :=
  ⟨fun _ => ⟨f', fake, called⟩, nofun⟩

theorem evolves_updateTimer (fake : k.source = .fake f) (h : TimerHandle) (delay : Int32) :
    k.Evolves f (k.updateTimer c h delay l) (some (h, f.now.after? delay)) := by
  simp only [updateTimer, fake, updateFake]
  split
  · exact evolves_error fake rfl
  · next trigger asked =>
    rw [← FakeTime.after?_of_trigger? asked]
    split
    · exact evolves_error fake rfl
    · next t found =>
      have member : h ∈ f.timers.handles := TimerList.find?_isSome_iff.mp (by simp [found])
      exact evolves_ok rfl (.of_now
        (.set member (fun _ asked => Duration.lt_of_after? asked)
          (FakeTime.alarms_schedule ..)) rfl)

theorem evolves_removeTimer (fake : k.source = .fake f) (h : TimerHandle) :
    k.Evolves f (k.removeTimer h l) (some (h, none)) := by
  unfold removeTimer
  split
  · exact evolves_error fake rfl
  · split
    · exact evolves_error fake rfl
    · simp only [fake]
      split
      · exact evolves_error fake fake.symm
      · exact evolves_ok rfl (.of_now (.erased rfl) rfl)

theorem evolves_advance (fake : k.source = .fake f) (delta : Duration) :
    k.Evolves f (k.advance c delta l) none := by
  simp only [advance, fake]
  split
  · exact evolves_error fake rfl
  · next target sum =>
    have ahead : f.now ≤ target := Duration.le_of_add? sum
    have alarms := TimerList.alarms_cancelAfter f.timers target
    cases looped : k.registry.isSome with
    | true =>
      refine evolves_ok rfl (.of_now (.kept ?_) rfl)
      exact (FakeTime.alarms_schedule ..).trans alarms
    | false =>
      refine evolves_ok rfl ⟨.kept alarms, ahead, ?_⟩
      intro registered
      rw [looped] at registered
      cases registered

theorem evolves_handleRequest (fake : k.source = .fake f) (r : AdvanceRequest) :
    k.Evolves f (k.handleRequest c r l) none := by
  unfold handleRequest
  split
  · exact evolves_error fake rfl
  · exact evolves_advance fake _

theorem evolves_destroy (fake : k.source = .fake f) : k.Evolves f (k.destroy l) none := by
  unfold destroy
  simp only [fake]
  split
  · exact evolves_error fake rfl
  · split
    · exact evolves_error fake rfl
    · exact evolves_ok rfl (.of_now (.kept rfl) rfl)

end Clock

namespace World

variable {w : World} {c : Nat} {k k' : Clock} {f : FakeTime}

theorem fakeNow?_eq (found : w.clock? c = some k) (fake : k.source = .fake f) :
    w.fakeNow? c = some f.now := by
  simp [fakeNow?, fakeTime?, found, Clock.fakeTime?, fake]

/-- The event that an update or a removal leaves tells of a change only if the call succeeded. -/
theorem evolves_onTimer {op : Op} {timer : String} {call : Clock → TimerHandle → Reply Unit}
    {change : TimerHandle → Option (TimerHandle × Option Duration)}
    (exec : w.exec op = w.onTimer c timer call) (named : op.timer? = some timer)
    (about : op.clock? = some c) (found : w.clock? c = some k) (fake : k.source = .fake f)
    (evolves : ∀ h, k.Evolves f (call k h) (change h))
    (done : ∀ h, Event.change? c (.call op (some h) (some f.now) .done) = change h)
    (found' : (w.exec op).2.clock? c = some k') :
    ∃ f', k'.source = .fake f' ∧ f.Called f' ((w.called op).change? c) k.registry.isSome := by
  have now := fakeNow?_eq found fake
  unfold called
  rw [exec] at found' ⊢
  simp only [named, about, Option.bind_some, now]
  unfold onTimer at found' ⊢
  simp only [found] at found' ⊢
  cases looked : w.lookup timer with
  | none =>
    simp only [looked] at found' ⊢
    rw [found] at found'
    cases found'
    rw [Event.change?_of_ne_done (by simp)]
    exact ⟨f, fake, f.called_refl _⟩
  | some h =>
    simp only [looked] at found' ⊢
    rw [clock?_accept found (call k h)] at found'
    cases found'
    cases result : (call k h).result with
    | ok _ => exact done h ▸ (evolves h).done result
    | error why =>
      rw [Answer.ofUnit, Event.change?_of_ne_done (by simp)]
      exact (evolves h).failed why result

theorem evolves_onClock {op : Op} {call : Clock → Reply Unit}
    (exec : w.exec op = w.onClock c call) (found : w.clock? c = some k)
    (evolves : k.Evolves f (call k) none)
    (silent : (w.called op).change? c = none)
    (found' : (w.exec op).2.clock? c = some k') :
    ∃ f', k'.source = .fake f' ∧ f.Called f' ((w.called op).change? c) k.registry.isSome := by
  rw [silent]
  rw [exec] at found'
  unfold onClock at found'
  simp only [found] at found'
  rw [clock?_accept found (call k)] at found'
  cases found'
  cases result : (call k).result with
  | ok _ => exact evolves.done result
  | error why => exact evolves.failed why result

theorem Coherent.called_exec (h : w.Coherent) {op : Op} (about : op.clock? = some c)
    (found : w.clock? c = some k) (fake : k.source = .fake f)
    (found' : (w.exec op).2.clock? c = some k') :
    ∃ f', k'.source = .fake f' ∧ f.Called f' ((w.called op).change? c) k.registry.isSome := by
  cases op with
  | new | idle => cases about
  | add d timer fires repeats =>
    cases about
    have silent : (w.called (.add c timer fires repeats)).change? c = none := rfl
    rw [silent]
    have reply : (w.exec (.add c timer fires repeats)).2.clock? c =
        some (k.addTimer { name := timer, fires, repeats } w.loop).clock := by
      simp only [World.exec, World.addTimer, found]
      split <;> exact clock?_accept found _
    cases Option.some.inj (reply.symm.trans found')
    cases h.clocks c k found with
    | real => cases fake
    | unlooped => exact ⟨f, fake, f.called_refl _⟩
    | @looped r f' numbered perm coherent linked =>
      cases fake
      have fresh : (⟨r.next⟩ : TimerHandle) ∉ f.timers.handles := fun member =>
        Registry.next_not_mem_handles numbered (perm.mem_iff.mp member)
      exact ⟨_, rfl, .of_now (.added fresh rfl) rfl⟩
  | update d timer delay =>
    cases about
    exact evolves_onTimer rfl rfl rfl found fake
      (fun h => Clock.evolves_updateTimer fake h delay) (fun h => by simp [Event.change?]) found'
  | remove d timer =>
    cases about
    exact evolves_onTimer rfl rfl rfl found fake (fun h => Clock.evolves_removeTimer fake h)
      (fun h => by simp [Event.change?]) found'
  | advance d delta =>
    cases about
    exact evolves_onClock rfl found (Clock.evolves_advance fake delta) rfl found'
  | request d r =>
    cases about
    exact evolves_onClock rfl found (Clock.evolves_handleRequest fake r) rfl found'
  | destroy d =>
    cases about
    exact evolves_onClock rfl found (Clock.evolves_destroy fake) rfl found'
  | drop d =>
    cases about
    have gone : (w.exec (.drop c)).2.clock? c = none := by
      simp only [World.exec, found]
      rw [clock?_dropClock, if_pos rfl]
    cases gone.symm.trans found'
  | gettime d | mode d | pending d | describe d =>
    have same : w.clock? c = some k' := found'
    rw [found] at same
    cases same
    exact ⟨f, fake, f.called_refl _⟩

end World

end VirtualClock
