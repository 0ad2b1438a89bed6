import VirtualClock.Proofs.History.FiringOrder

/-!
The account of armings. Every successful update with a positive delay arms its timer; the arming
stays until the timer fires for it, is updated again or is removed, and from then on nothing fires
for it. While it stays the timer is in the list with its trigger, ahead of time or due by a pending
advance.
-/

namespace VirtualClock

/-- The events that end an arming of timer `h` of clock `c`. -/
inductive Arming.EndedBy (a : Arming) (c : Nat) (h : TimerHandle) : Event → Prop where
  | fired : EndedBy a c h (.fire c h (some a.trigger))
  | updated (timer : String) (delay : Int32) (now : Duration) :
    EndedBy a c h (.call (.update c timer delay) (some h) (some now) .done)
  | removed (timer : String) (now : Duration) :
    EndedBy a c h (.call (.remove c timer) (some h) (some now) .done)

theorem Event.eq_of_change? {c : Nat} {h : TimerHandle} {trigger : Option Duration} {e : Event}
    (change : e.change? c = some (h, trigger)) :
    (∃ now, e = .fire c h (some now)) ∨
      (∃ timer delay now, e = .call (.update c timer delay) (some h) (some now) .done) ∨
      ∃ timer now, e = .call (.remove c timer) (some h) (some now) .done := by
  unfold change? at change
  split at change
  · next d timer delay g now =>
    obtain ⟨rfl, same⟩ := Option.ite_none_right_eq_some.mp change
    cases same
    exact .inr (.inl ⟨timer, delay, now, rfl⟩)
  · next d timer g now =>
    obtain ⟨rfl, same⟩ := Option.ite_none_right_eq_some.mp change
    cases same
    exact .inr (.inr ⟨timer, now, rfl⟩)
  · next d g now =>
    obtain ⟨rfl, same⟩ := Option.ite_none_right_eq_some.mp change
    cases same
    exact .inl ⟨now, rfl⟩
  · cases change

theorem World.after?_of_called {w : World} {op : Op} {c : Nat} {timer : String} {delay : Int32}
    {h : TimerHandle} {now : Duration}
    (called : w.called op = .call (.update c timer delay) (some h) (some now) .done)
    (positive : 0 < delay.toInt) : ∃ d, now.after? delay = some d := by
  obtain ⟨rfl, found, time, done⟩ := Event.call.inj called
  obtain ⟨f, alive, rfl⟩ := Option.map_eq_some_iff.mp time
  obtain ⟨k, alive, fake⟩ := fakeTime?_eq_some_iff.mp alive
  change w.lookup timer = some h at found
  simp only [exec, onTimer, alive, found, Clock.updateTimer, fake, Clock.updateFake] at done
  split at done
  · cases done
  · next trigger asked =>
    rw [FakeTime.trigger?_eq] at asked
    split at asked
    · cases asked
    · next valid => exact Option.ne_none_iff_exists'.mp fun none => valid ⟨positive, none⟩

namespace Moment

variable {m m' : Moment} {c : Nat} {h : TimerHandle}

theorem Reachable.after?_of_mem (run : Reachable m) {timer : String} {delay : Int32}
    {now : Duration}
    (called : .call (.update c timer delay) (some h) (some now) .done ∈ m.history)
    (positive : 0 < delay.toInt) : ∃ d, now.after? delay = some d := by
  induction run with
  | refl => cases called
  | tail before step ih =>
    rcases step.history (Reachable.coherent before) with same | ⟨op, new⟩ | ⟨_, _, _, new⟩
    · exact ih (same ▸ called)
    · rw [new] at called
      rcases List.mem_cons.mp called with same | old
      · exact World.after?_of_called same.symm positive
      · exact ih old
    · rw [new] at called
      rcases List.mem_cons.mp called with same | old
      · cases same
      · exact ih old

/-- A live arming is in the list of timers, and time has not passed it by. -/
theorem Reachable.armed (run : Reachable m) {f : FakeTime} (found : m.world.fakeTime? c = some f)
    {a : Arming} (live : armingOf c h m.history = some a) :
    (h, some a.trigger) ∈ f.timers.alarms ∧ f.now ≤ a.trigger ∧
      (f.hasPending = false → f.now < a.trigger) := by
  obtain ⟨k, alive, fake⟩ := World.fakeTime?_eq_some_iff.mp found
  have coherent := ((run.coherent.world.clocks c k alive).fake fake).1
  have member := ((run.ordered c).timers f found).armed live
  refine ⟨member, coherent.now_le_trigger h _ member, ?_⟩
  intro idle
  exact coherent.now_lt_trigger (coherent.settled_iff.mp idle) h _ member

/-- Each firing on fake time is for one live arming, which triggers at that time. An update that
succeeds with a positive delay is an arming, and either it is live still, in the list of timers and
not passed by, nor come to be due without a pending advance; or the timer fired for it, was updated
or was removed, and nothing has been fired for it since then. -/
theorem exactly_once_accounting (run : Reachable m) (c : Nat) :
    (∀ later h now past, m.history = later ++ .fire c h (some now) :: past →
      ∃ a, armingOf c h past = some a ∧ a.trigger = now) ∧
    ∀ later h timer delay now past,
      m.history = later ++ .call (.update c timer delay) (some h) (some now) .done :: past →
      0 < delay.toInt →
      ∃ a : Arming, a.index = past.length ∧
        a.trigger.nanos = now.nanos + delay.toInt.toNat * nanosPerMilli ∧
        ((armingOf c h m.history = some a ∧
            ∀ registry f, m.world.clock? c = some ⟨registry, .fake f⟩ →
              (h, some a.trigger) ∈ f.timers.alarms ∧ f.now ≤ a.trigger ∧
                (f.hasPending = false → f.now < a.trigger)) ∨
          ∃ after e before, m.history = after ++ e :: before ∧
            armingOf c h before = some a ∧ a.EndedBy c h e ∧
            ∀ rest more, after = rest ++ more → armingOf c h (more ++ e :: before) ≠ some a) := by
  have ordered := run.ordered c
  refine ⟨ordered.chronicle.fires, ?_⟩
  intro later h timer delay now past split positive
  let update : Event := .call (.update c timer delay) (some h) (some now) .done
  have split : m.history = later ++ update :: past := split
  obtain ⟨d, asked⟩ := run.after?_of_mem
    (split ▸ List.mem_append_right _ List.mem_cons_self) positive
  have change : update.change? c = some (h, some d) := by
    simp [update, Event.change?, asked]
  have live : armingOf c h (update :: past) = some ⟨d, past.length⟩ := by
    rw [armingOf_cons_of_some change, if_pos rfl, Option.map_some]
  refine ⟨⟨d, past.length⟩, rfl, ?_, ?_⟩
  · exact (Duration.after?_eq_some_iff.mp asked).2
  · rcases armingOf_append_or live later with still | ⟨after, e, before, trigger, rfl, kept, change⟩
    · rw [← split] at still
      exact .inl ⟨still, fun registry f alive =>
        run.armed (World.fakeTime?_of_clock? alive rfl) still⟩
    · rw [List.append_assoc, List.cons_append] at split
      refine .inr ⟨after, e, before ++ update :: past, split, kept, ?_, ?_⟩
      · rcases Event.eq_of_change? change with
          ⟨now, rfl⟩ | ⟨timer, delay, now, rfl⟩ | ⟨timer, now, rfl⟩
        · obtain ⟨a, ends, rfl⟩ := ordered.chronicle.fires after h now _ split
          cases ends.symm.trans kept
          exact .fired
        · exact .updated timer delay now
        · exact .removed timer now
      · intro rest more _ again
        have late := le_index_of_armingOf change again
        simp only [List.length_append, List.length_cons] at late
        omega

/-- An update that replaces an earlier one is what the timer then fires for. -/
theorem exactly_once_accounting_replaced :
    ∃ m, Reachable m ∧ ∃ a : Arming, a.index = 3 ∧ a.trigger.nanos = 3 * nanosPerMilli ∧
      ∃ after e before, m.history = after ++ e :: before ∧ armingOf 0 ⟨0⟩ before = some a ∧
        a.EndedBy 0 ⟨0⟩ e := by
  have armed : Reachable _ := reachable_ofCalls [.new .fake true, .add 0 "tick" [] false,
    .update 0 "tick" 2, .update 0 "tick" 3, .advance 0 (.ofMillis 5)]
  have run : Reachable _ := armed.turn rfl 2
  obtain ⟨a, index, trigger, live | ⟨after, e, before, split, live, ends, _⟩⟩ :=
    (exactly_once_accounting run 0).2 [.fire 0 ⟨0⟩ (some (.ofMillis 3)), _] ⟨0⟩ "tick" 3 .zero _ rfl
      (by decide)
  · cases live.1
  · exact ⟨_, run, a, index, trigger, after, e, before, split, live, ends⟩

end Moment

end VirtualClock
