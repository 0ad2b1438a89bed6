import VirtualClock.Proofs.History.Passage
import VirtualClock.Proofs.World.Failures
import VirtualClock.Proofs.World.Scheduler

/-!
Fake time that stands still. With nothing pending, or with work pending for the current time only,
fake time stays where it is: timers that are armed lie ahead, and only an advance that succeeds
gives it somewhere to go.
-/

namespace VirtualClock

/-- An advance of clock `c` that succeeds, or a request for one. -/
def Event.Advances (c : Nat) : Event → Prop
  | .call op _ _ .done => (op.delta? c).isSome = true
  | _ => False

/-- Fake time is `t`, and is on its way to no other time. -/
structure FakeTime.Still (t : Duration) (f : FakeTime) : Prop where
  now : f.now = t
  target : f.target = t

variable {t : Duration} {c : Nat} {f f' : FakeTime}

namespace FakeTime.Still

theorem of_eq (still : f.Still t) (now : f'.now = f.now) (target : f'.target = f.target) :
    f'.Still t :=
  ⟨now.trans still.now, target.trans still.target⟩

theorem of_settled (now : f.now = t) (final : f.final = none) : f.Still t := by
  refine ⟨now, ?_⟩
  rw [FakeTime.target, final]
  exact now

theorem reschedule (still : f.Still t) (timers : TimerList) (c : Nat) (l : EventLoop) :
    (({ f with timers } : FakeTime).reschedule c l).1.Still t :=
  still.of_eq rfl rfl

theorem target_eq (still : f.Still t) {x : FinalTime} (final : f.final = some x) :
    x.target = t := by
  rw [← still.target, FakeTime.target, final]

theorem fired (still : f.Still t) (coherent : f.Coherent) {x : FinalTime}
    (final : f.final = some x) {g : TimerHandle} {d : Duration} (le : d ≤ x.target)
    (armed : (g, some d) ∈ f.timers.alarms) : (f.fired g d).Still t := by
  rw [still.target_eq final] at le
  have same : d = t :=
    Duration.ext (Nat.le_antisymm le (still.now ▸ coherent.now_le_trigger g d armed))
  refine ⟨same, ?_⟩
  simp only [FakeTime.target, FakeTime.fired, final]
  exact still.target_eq final

end FakeTime.Still

namespace Clock

variable {k : Clock} {l : EventLoop}

theorem fakeTime?_ne_of_real (real : k.mode = .real) : k.fakeTime? ≠ some f := by
  cases source : k.source with
  | real => simp [fakeTime?, source]
  | fake => simp [mode, source] at real

theorem still_addTimer (fake : k.source = .fake f) (still : f.Still t) (callback : Callback) :
    ∃ f', (k.addTimer callback l).clock.source = .fake f' ∧ f'.Still t := by
  unfold addTimer
  split
  · exact ⟨f, fake, still⟩
  · simp only [fake]
    exact ⟨_, rfl, still.of_eq rfl rfl⟩

theorem still_updateTimer (fake : k.source = .fake f) (still : f.Still t) (h : TimerHandle)
    (delay : Int32) :
    ∃ f', (k.updateTimer c h delay l).clock.source = .fake f' ∧ f'.Still t := by
  simp only [updateTimer, fake, updateFake]
  split
  · exact ⟨f, fake, still⟩
  · split
    · exact ⟨f, fake, still⟩
    · exact ⟨_, rfl, still.reschedule _ c _⟩

theorem still_removeTimer (fake : k.source = .fake f) (still : f.Still t) (h : TimerHandle) :
    ∃ f', (k.removeTimer h l).clock.source = .fake f' ∧ f'.Still t := by
  unfold removeTimer
  split
  · exact ⟨f, fake, still⟩
  · split
    · exact ⟨f, fake, still⟩
    · simp only [fake]
      split
      · exact ⟨f, rfl, still⟩
      · exact ⟨_, rfl, still.of_eq rfl rfl⟩

theorem still_destroy (fake : k.source = .fake f) (still : f.Still t) :
    ∃ f', (k.destroy l).clock.source = .fake f' ∧ f'.Still t := by
  simp only [destroy, fake]
  split
  · exact ⟨f, fake, still⟩
  · split
    · exact ⟨f, fake, still⟩
    · exact ⟨_, rfl, .of_settled still.now rfl⟩

theorem Replies.still {α : Type} {op : Op} {reply : Reply α} (replies : k.Replies c l op reply)
    (unasked : op.delta? c = none) (fake : k.source = .fake f) (still : f.Still t) :
    ∃ f', reply.clock.source = .fake f' ∧ f'.Still t := by
  cases replies with
  | advance delta => simp [Op.delta?] at unasked
  | request r =>
    cases read : r.toDuration with
    | ok delta => simp [Op.delta?, read, Except.toOption] at unasked
    | error why =>
      simp only [handleRequest, read]
      exact ⟨f, fake, still⟩
  | add => exact still_addTimer fake still _
  | update timer h delay => exact still_updateTimer fake still h delay
  | remove timer h => exact still_removeTimer fake still h
  | destroy => exact still_destroy fake still

end Clock

namespace World

variable {w : World} {op : Op}

theorem Executed.stays_still {w' : World} (executed : Executed w op w')
    (unasked : op.delta? c = none) (found : w.fakeTime? c = some f) (still : f.Still t)
    (found' : w'.fakeTime? c = some f') : f'.Still t := by
  obtain ⟨k, alive, fake⟩ := fakeTime?_eq_some_iff.mp found
  obtain ⟨k', alive', fake'⟩ := fakeTime?_eq_some_iff.mp found'
  have known := lt_length_of_clock? alive
  by_cases about : op.clock? = some c
  · cases executed with
    | still =>
      cases found.symm.trans found'
      exact still
    | created | queued => cases about
    | dropped =>
      cases about
      rw [clock?_dropClock, if_pos rfl] at alive'
      cases alive'
    | @called _ d kd _ reply _ alive₁ replies =>
      cases replies.clock?.symm.trans about
      cases alive.symm.trans alive₁
      change (w.accept c reply).clock? c = some k' at alive'
      rw [clock?_accept alive] at alive'
      cases alive'
      obtain ⟨f₁, fake₁, still₁⟩ := replies.still unasked fake still
      cases fake₁.symm.trans fake'
      exact still₁
  · cases alive.symm.trans ((executed.clock?_eq known about).symm.trans alive')
    cases fake.symm.trans fake'
    exact still

theorem exists_failed_of_delta? {k : Clock} {delta : Duration} (asked : op.delta? c = some delta)
    (found : w.clock? c = some k) (undone : (w.exec op).1 ≠ .done) :
    ∃ why, (w.exec op).1 = .failed why := by
  unfold Op.delta? at asked
  split at asked
  · obtain ⟨rfl, _⟩ := Option.ite_none_right_eq_some.mp asked
    simp only [exec, onClock, found] at undone ⊢
    exact exists_failed_of_ofUnit undone
  · obtain ⟨rfl, _⟩ := Option.ite_none_right_eq_some.mp asked
    simp only [exec, onClock, found] at undone ⊢
    exact exists_failed_of_ofUnit undone
  · cases asked

theorem Coherent.still_exec (h : w.Coherent) (found : w.fakeTime? c = some f) (still : f.Still t)
    (stays : ¬(w.called op).Advances c) (found' : (w.exec op).2.fakeTime? c = some f') :
    f'.Still t := by
  cases asked : op.delta? c with
  | none => exact (executed_exec w op).stays_still asked found still found'
  | some delta =>
    obtain ⟨k, alive, _⟩ := fakeTime?_eq_some_iff.mp found
    have undone : (w.exec op).1 ≠ .done := by
      intro done
      rw [called, done] at stays
      exact stays (by simp [Event.Advances, asked])
    obtain ⟨why, failed⟩ := exists_failed_of_delta? asked alive undone
    have about := Event.clock?_of_delta? asked none none .done
    rw [(failsAtomically_exec h alive about).unchanged why failed] at found'
    cases found.symm.trans found'
    exact still

end World

namespace Moment

variable {m m' : Moment}

theorem Progress.still (h : m.Coherent) (next : m.Progress m')
    (event : ∀ e, m'.history = e :: m.history → ¬e.Advances c)
    (found : m.world.fakeTime? c = some f) (still : f.Still t)
    (found' : m'.world.fakeTime? c = some f') : f'.Still t := by
  have same (same : m.world.fakeTime? c = some f') : f'.Still t := by
    cases found.symm.trans same
    exact still
  have moved {d : Nat} {k : Clock} (k' : Clock) (alive : m.world.clock? d = some k)
      (own : c = d → k'.fakeTime? = some f' → f'.Still t)
      (found' : (m.world.setClock d k').fakeTime? c = some f') : f'.Still t := by
    rw [World.fakeTime?_setClock alive] at found'
    split at found'
    · next equal => exact own equal found'
    · exact same found'
  cases next with
  | resting | takes | skips | drained | orphan | user | returns => exact same found'
  | misses _ alive real | expires _ _ alive real =>
    refine moved _ alive ?_ found'
    rintro - fake
    exact absurd fake (Clock.fakeTime?_ne_of_real real)
  | @fires _ d g _ r f₁ trigger x _ _ _ _ alive final le first =>
    refine moved _ alive ?_ found'
    rintro rfl fake
    cases fake
    cases (World.fakeTime?_of_clock? alive rfl).symm.trans found
    exact still.fired (h.fakeTime found) final le first.mem
  | @applies _ d _ r f₁ x _ _ alive final =>
    refine moved _ alive ?_ found'
    rintro rfl fake
    cases fake
    cases (World.fakeTime?_of_clock? alive rfl).symm.trans found
    exact .of_settled (still.target_eq final) rfl
  | @reschedules d g _ r f₁ _ alive =>
    refine moved _ alive ?_ found'
    rintro rfl fake
    cases fake
    cases (World.fakeTime?_of_clock? alive rfl).symm.trans found
    exact still.of_eq rfl rfl
  | executes log => exact h.world.still_exec found still (event _ rfl) found'

theorem Step.still (h : m.Coherent) (step : Step m m')
    (event : ∀ e, m'.history = e :: m.history → ¬e.Advances c)
    (found : m.world.fakeTime? c = some f) (still : f.Still t)
    (found' : m'.world.fakeTime? c = some f') : f'.Still t := by
  cases step with
  | call op => exact h.world.still_exec found still (event _ rfl) found'
  | pass | clear | turn =>
    cases found.symm.trans found'
    exact still
  | proceed => exact (progress_proceed h).still h event found still found'

/-- Fake time stands still for as long as no advance of its clock succeeds. -/
theorem still_of_steps (start : m.Coherent) (found : m.world.fakeTime? c = some f)
    (still : f.Still t) (run : Relation.ReflTransGen Step m m') {events : List Event}
    (history : m'.history = events ++ m.history) (stays : ∀ e ∈ events, ¬e.Advances c)
    (found' : m'.world.fakeTime? c = some f') : f'.Still t := by
  obtain ⟨k, alive, _⟩ := World.fakeTime?_eq_some_iff.mp found
  have made := World.lt_length_of_clock? alive
  induction run generalizing events f' with
  | refl =>
    cases found.symm.trans found'
    exact still
  | @tail a b before step ih =>
    have h := start.steps before
    obtain ⟨old, earlier⟩ := suffix_of_steps start before
    obtain ⟨new, latest⟩ := step.suffix h
    have parts : events = new ++ old := by
      rw [latest, earlier, ← List.append_assoc] at history
      exact (List.append_cancel_right history).symm
    subst parts
    have made := Nat.lt_of_lt_of_le made (descends_of_steps start before).length_le
    obtain ⟨f₁, found₁⟩ := (step.transition h c).exists_fakeTime? made found'
    refine step.still h (fun e event => stays e ?_) found₁ (ih earlier (fun e member => ?_) found₁)
      found'
    · have first : new = [e] := List.append_cancel_right (latest.symm.trans event)
      simp [first]
    · exact stays e (List.mem_append_right _ member)

end Moment

end VirtualClock
