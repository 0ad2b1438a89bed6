import VirtualClock.Proofs.History.Lifetime

/-!
Fake time never runs backwards. Whatever is called, and in whatever order advances replace one
another, a step leaves the fake time of a clock where it was or further on; a dispatch finds its
trigger, and the final task its target, no earlier than the time it replaces.
-/

namespace VirtualClock.Moment

variable {m m' : Moment} {c : Nat} {f f' : FakeTime}

theorem Transition.exists_fakeTime? (transition : Transition c m m')
    (made : c < m.world.clocks.length) (found' : m'.world.fakeTime? c = some f') :
    ∃ f, m.world.fakeTime? c = some f := by
  cases transition with
  | gone _ gone => cases gone.symm.trans found'
  | created fresh => exact absurd made (Nat.not_lt_of_le (Nat.le_of_eq fresh.symm))
  | passed before | happened before | fired before => exact ⟨_, before⟩

theorem Transition.now_le (h : m.Coherent) (transition : Transition c m m')
    (found : m.world.fakeTime? c = some f) (found' : m'.world.fakeTime? c = some f') :
    f.now ≤ f'.now := by
  cases transition with
  | gone _ gone => cases gone.symm.trans found'
  | created fresh =>
    obtain ⟨k, alive, _⟩ := World.fakeTime?_eq_some_iff.mp found
    exact absurd (World.lt_length_of_clock? alive) (Nat.not_lt_of_le (Nat.le_of_eq fresh.symm))
  | passed before after _ _ le =>
    cases before.symm.trans found
    cases after.symm.trans found'
    exact le
  | happened before after called =>
    cases before.symm.trans found
    cases after.symm.trans found'
    exact called.now_le
  | @fired _ g d _ before after first =>
    cases before.symm.trans found
    cases after.symm.trans found'
    exact (h.fakeTime found).now_le_trigger g d first.mem

theorem now_le_of_steps (h : m.Coherent) (found : m.world.fakeTime? c = some f)
    (run : Relation.ReflTransGen Step m m') (found' : m'.world.fakeTime? c = some f') :
    f.now ≤ f'.now := by
  have onward : m'.Coherent ∧ c < m'.world.clocks.length ∧
      ∀ f', m'.world.fakeTime? c = some f' → f.now ≤ f'.now := by
    clear found'
    induction run with
    | refl =>
      obtain ⟨k, alive, _⟩ := World.fakeTime?_eq_some_iff.mp found
      refine ⟨h, World.lt_length_of_clock? alive, ?_⟩
      intro f' same
      cases found.symm.trans same
      exact Nat.le_refl _
    | @tail a b _ step ih =>
      obtain ⟨coherent, made, le⟩ := ih
      have transition := step.transition coherent c
      refine ⟨coherent.step step, Nat.lt_of_lt_of_le made (step.descends coherent).length_le, ?_⟩
      intro f₂ after
      obtain ⟨f₁, before⟩ := transition.exists_fakeTime? made after
      exact Nat.le_trans (le f₁ before) (transition.now_le coherent before after)
  exact onward.2.2 f' found'

theorem now_le_of_timer_task (h : m.Coherent) (found : m.world.fakeTime? c = some f)
    {g : TimerHandle} (next : m.task? = some (.timer c g)) :
    ∃ d, f.timers.trigger? g = some d ∧ (f.fire g).1.now = d ∧ f.now ≤ d := by
  obtain ⟨k, alive, fake⟩ := World.fakeTime?_eq_some_iff.mp found
  obtain ⟨ticket, rest, r, f₁, rfl, coherent, tickets, idles⟩ := h.of_task? next rfl alive
  cases fake
  obtain ⟨d, x, _, _, first, fired, _⟩ := FakeTime.fire_of_idles coherent tickets idles
  refine ⟨d, ?_, ?_, ?_⟩
  · exact (TimerList.trigger?_eq_some_iff coherent.distinct).mpr first.mem
  · rw [fired]
  · exact coherent.now_le_trigger g d first.mem

theorem now_le_of_finalTime_task (h : m.Coherent) (found : m.world.fakeTime? c = some f)
    (next : m.task? = some (.finalTime c)) :
    ∃ x, f.final = some x ∧ (∀ l, (f.applyFinal c l).1.now = x.target) ∧ f.now ≤ x.target := by
  obtain ⟨k, alive, fake⟩ := World.fakeTime?_eq_some_iff.mp found
  obtain ⟨ticket, rest, r, f₁, rfl, coherent, _, idles⟩ := h.of_task? next rfl alive
  cases fake
  obtain ⟨_, x, final, _⟩ := FakeTime.applyFinal_of_idles coherent idles m.world.loop
  refine ⟨x, final, fun l => ?_, coherent.now_le_target x final⟩
  obtain ⟨_, y, final', _, applied, _⟩ := FakeTime.applyFinal_of_idles coherent idles l
  cases final.symm.trans final'
  rw [applied]

/-- However a run goes on, the fake time of a clock that is still there is no earlier than it was;
and neither a timer's dispatch, which sets it to a trigger, nor the final task, which sets it to a
target fixed before, ever takes it back. -/
theorem now_never_decreases (run : Reachable m) (found : m.world.fakeTime? c = some f) :
    (∀ m' f', Relation.ReflTransGen Step m m' → m'.world.fakeTime? c = some f' →
      f.now ≤ f'.now) ∧
      (∀ g, m.task? = some (.timer c g) →
        ∃ d, f.timers.trigger? g = some d ∧ (f.fire g).1.now = d ∧ f.now ≤ d) ∧
      (m.task? = some (.finalTime c) →
        ∃ x, f.final = some x ∧ (∀ l, (f.applyFinal c l).1.now = x.target) ∧
          f.now ≤ x.target) :=
  have h := run.coherent
  ⟨fun _ _ onward found' => now_le_of_steps h found onward found',
    fun _ next => now_le_of_timer_task h found next,
    fun next => now_le_of_finalTime_task h found next⟩

/-- After a timer at 1 ms has fired for an advance of 5 ms, a shorter one replaces that. -/
theorem now_never_decreases_shorter :
    ∃ m m' f f', Reachable m ∧ Relation.ReflTransGen Step m m' ∧
      m.world.fakeTime? 0 = some f ∧ m'.world.fakeTime? 0 = some f' ∧
      f.target = .ofMillis 5 ∧ f.now = .ofMillis 1 ∧ f'.now = .ofMillis 3 ∧ f.now ≤ f'.now := by
  have run : Reachable _ := reachable_ofCalls
    [.new .fake true, .add 0 "tick" [] false, .update 0 "tick" 1, .advance 0 (.ofMillis 5)]
  have fired : Reachable _ := run.turn rfl 4
  refine ⟨_, _, _, _, fired, steps_call_turn rfl (.advance 0 (.ofMillis 2)) 2, rfl, rfl, rfl, rfl,
    rfl, ?_⟩
  exact (now_never_decreases (c := 0) fired rfl).1 _ _
    (steps_call_turn rfl (.advance 0 (.ofMillis 2)) 2) rfl

end VirtualClock.Moment
