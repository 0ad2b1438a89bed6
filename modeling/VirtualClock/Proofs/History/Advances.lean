import VirtualClock.Proofs.History.Lifetime

/-!
What becomes of an advance. Calls other than advances and the end of the clock, and the dispatches
of its timers, leave its target where it is, and only the final task ends its wait; the final task
comes when no timer is due by the target any more.
-/

namespace VirtualClock

namespace FakeTime

variable {f f' : FakeTime} {c : Nat} {e : Event}

theorem Handled.target_eq (handled : f.Handled c e f') (keeps : ¬e.Retargets c) :
    f'.target = f.target := by
  cases handled with
  | kept | added | updated | removed => rfl
  | advanced op l asked => exact absurd (Event.retargets_of_delta? asked _ _) keeps
  | destroyed => exact absurd rfl keeps

theorem Handled.final_isSome (handled : f.Handled c e f') (keeps : ¬e.Retargets c)
    (pending : f.final.isSome = true) : f'.final.isSome = true := by
  cases handled with
  | kept | added | removed => exact pending
  | updated => rfl
  | advanced op l asked => exact absurd (Event.retargets_of_delta? asked _ _) keeps
  | destroyed => exact absurd rfl keeps

theorem Handled.of_delta? {op : Op} {handle : Option TimerHandle} {now : Option Duration}
    {delta : Duration} (handled : f.Handled c (.call op handle now .done) f')
    (asked : op.delta? c = some delta) :
    ∃ target, f.now.add? delta = some target ∧ f'.final.map (·.target) = some target := by
  cases handled with
  | kept failed => exact absurd rfl failed
  | updated | removed | destroyed => cases asked
  | advanced _ l asked' sum =>
    cases asked.symm.trans asked'
    exact ⟨_, sum, rfl⟩

theorem target_eq_of_final {target : Duration} (final : f.final.map (·.target) = some target) :
    f.target = target := by
  obtain ⟨x, pending, rfl⟩ := Option.map_eq_some_iff.mp final
  rw [FakeTime.target, pending]

end FakeTime

namespace Moment

variable {m m' m₁ : Moment} {c : Nat} {f f' : FakeTime}

/-- A step with no successful advance of clock `c`, nor an end of it. -/
structure Keeps (c : Nat) (m m' : Moment) : Prop where
  step : Step m m'
  event : ∀ e, m'.history = e :: m.history → ¬e.Retargets c

/-- A step of this kind that does not take up the clock's final task either. -/
structure Awaits (c : Nat) (m m' : Moment) : Prop extends Keeps c m m' where
  task : m.task? ≠ some (.finalTime c)

theorem Move.target_eq (move : Move c m m' f f')
    (keeps : ∀ e, m'.history = e :: m.history → ¬e.Retargets c) : f'.target = f.target := by
  cases move with
  | elsewhere events same => rw [same]
  | handled handled history => exact handled.target_eq (keeps _ history)
  | fired final _ _ fired =>
    rw [fired, FakeTime.target, FakeTime.target]
    simp only [FakeTime.fired, final]
  | applied _ final applied =>
    rw [applied, FakeTime.target, FakeTime.target, final]
    rfl
  | rescheduled l rescheduled =>
    rw [rescheduled]
    rfl

theorem Move.final_isSome (move : Move c m m' f f')
    (keeps : ∀ e, m'.history = e :: m.history → ¬e.Retargets c)
    (waits : m.task? ≠ some (.finalTime c)) (pending : f.final.isSome = true) :
    f'.final.isSome = true := by
  cases move with
  | elsewhere events same => rwa [same]
  | handled handled history => exact handled.final_isSome (keeps _ history) pending
  | fired _ _ _ fired => rwa [fired]
  | applied next => exact absurd next waits
  | rescheduled l rescheduled =>
    rw [rescheduled]
    rfl

theorem target_eq_of_lives {R : Moment → Moment → Prop} {a b : Moment × FakeTime}
    (keeps : ∀ m m', R m m' → Keeps c m m') (run : Relation.ReflTransGen (Lives R c) a b) :
    b.2.target = a.2.target := by
  induction run with
  | refl => rfl
  | tail _ last ih => exact (last.move.target_eq (keeps _ _ last.step).event).trans ih

theorem final_isSome_of_lives {a b : Moment × FakeTime}
    (run : Relation.ReflTransGen (Lives (Awaits c) c) a b) (pending : a.2.final.isSome = true) :
    b.2.final.isSome = true := by
  induction run with
  | refl => exact pending
  | tail _ last ih => exact last.move.final_isSome last.step.event last.step.task ih

theorem Step.advanced {op : Op} {handle : Option TimerHandle} {now : Option Duration}
    {delta : Duration} {r : Registry} (h : m.Coherent) (step : Step m m₁)
    (history : m₁.history = .call op handle now .done :: m.history)
    (asked : op.delta? c = some delta) (found : m.world.clock? c = some ⟨some r, .fake f⟩) :
    ∃ target r₁ f₁, f.now.add? delta = some target ∧
      m₁.world.clock? c = some ⟨some r₁, .fake f₁⟩ ∧ f₁.final.map (·.target) = some target := by
  cases found₁ : m₁.world.clock? c with
  | none =>
    have last := (List.cons.inj (history.symm.trans (step.dropped h found found₁))).1
    obtain ⟨rfl, _⟩ := Event.call.inj last
    cases asked
  | some k₁ =>
    obtain ⟨r₁, f₁, rfl, move⟩ := step.move h found found₁
    have event {e : Event} (last : m₁.history = e :: m.history) :
        e = .call op handle now .done := (List.cons.inj (last.symm.trans history)).1
    cases move with
    | elsewhere events _ last foreign =>
      have same : events = [.call op handle now .done] :=
        List.append_cancel_right (last.symm.trans history)
      have about := Event.clock?_of_delta? asked handle now .done
      exact absurd about (foreign _ (same ▸ List.mem_singleton_self _))
    | handled handled last =>
      cases event last
      obtain ⟨target, sum, final⟩ := handled.of_delta? asked
      exact ⟨target, r₁, f₁, sum, rfl, final⟩
    | fired _ _ _ _ last => cases event last
    | applied _ _ _ last | rescheduled _ _ last =>
      exact absurd (history.symm.trans last) (List.cons_ne_self _ _)

/-- The final task finds no timer due by its target: looking for some changes nothing, and the
target is not queued again. -/
theorem final_task_last (h : m.Coherent) (next : m.task? = some (.finalTime c)) {k : Clock}
    (found : m.world.clock? c = some k) :
    ∃ r f x, k = ⟨some r, .fake f⟩ ∧ f.final = some x ∧
      (∀ g d, (g, some d) ∈ f.timers.alarms → x.target < d) ∧ ∀ l,
        ({ f with now := x.target, final := none } : FakeTime).scheduleDue c x.target l =
          ({ f with now := x.target, final := none }, l) ∧ f.timers.hasPending = false ∧
        f.applyFinal c l = ({ f with now := x.target, final := none }, l) := by
  obtain ⟨ticket, rest, r, f, rfl, coherent, _, idles⟩ := h.of_task? next rfl found
  obtain ⟨_, x, final, later, _, coherent', _⟩ :=
    FakeTime.applyFinal_of_idles coherent idles m.world.loop
  refine ⟨r, f, x, rfl, final, later, fun l => ⟨?_, ?_, ?_⟩⟩
  · exact FakeTime.scheduleDue_of_later coherent.sorted later
  · have settled := coherent'.settled_iff.mpr rfl
    simpa [FakeTime.hasPending] using settled
  · obtain ⟨_, y, final', _, applied, _⟩ := FakeTime.applyFinal_of_idles coherent idles l
    cases final.symm.trans final'
    exact applied

/-- A successful advance of a clock with a loop by `delta`, at fake time `f.now`, has their sum as
its target. Until the clock is advanced again or destroyed, that stays the pending target up to
the final task, whatever is called and dispatched; fake time does not pass it, and is exactly that
whenever nothing is pending. The final task always comes when every armed timer is later than the
target, so that its look for due timers queues nothing and it does not put itself off. -/
theorem advance_applied_exactly_and_last (run : Reachable m) (c : Nat) :
    (∀ m₁ op handle now delta r f, Step m m₁ →
      m₁.history = .call op handle now .done :: m.history → op.delta? c = some delta →
      m.world.clock? c = some ⟨some r, .fake f⟩ →
      ∃ target, f.now.add? delta = some target ∧
        (∀ m' f', Relation.ReflTransGen (Awaits c) m₁ m' → m'.world.fakeTime? c = some f' →
          f'.final.map (·.target) = some target) ∧
        (∀ m' f', Relation.ReflTransGen (Keeps c) m₁ m' → m'.world.fakeTime? c = some f' →
          f'.now ≤ target ∧ (f'.hasPending = false → f'.now = target))) ∧
      (∀ k, m.task? = some (.finalTime c) → m.world.clock? c = some k →
        ∃ r f x, k = ⟨some r, .fake f⟩ ∧ f.final = some x ∧
          (∀ g d, (g, some d) ∈ f.timers.alarms → x.target < d) ∧ ∀ l,
            ({ f with now := x.target, final := none } : FakeTime).scheduleDue c x.target l =
              ({ f with now := x.target, final := none }, l) ∧ f.timers.hasPending = false ∧
            f.applyFinal c l = ({ f with now := x.target, final := none }, l)) := by
  have h := run.coherent
  refine ⟨?_, fun k next found => final_task_last h next found⟩
  intro m₁ op handle now delta r f step history asked found
  obtain ⟨target, r₁, f₁, sum, found₁, final⟩ := step.advanced h history asked found
  have h₁ := h.step step
  have pending : f₁.final.isSome = true := by
    rw [← Option.isSome_map, final]
    rfl
  refine ⟨target, sum, ?_, ?_⟩
  · intro m' f' onward found'
    obtain ⟨k', alive, fake⟩ := World.fakeTime?_eq_some_iff.mp found'
    obtain ⟨r', f₂, rfl, path⟩ := lives (fun _ _ awaits => awaits.step) h₁ found₁ onward alive
    cases fake
    obtain ⟨x, final'⟩ := Option.isSome_iff_exists.mp (final_isSome_of_lives path pending)
    have same := target_eq_of_lives (fun _ _ awaits => awaits.toKeeps) path
    rw [FakeTime.target_eq_of_final final, FakeTime.target, final'] at same
    rw [final', ← same]
    rfl
  · intro m' f' onward found'
    obtain ⟨k', alive, fake⟩ := World.fakeTime?_eq_some_iff.mp found'
    obtain ⟨r', f₂, rfl, path⟩ := lives (fun _ _ keeps => keeps.step) h₁ found₁ onward alive
    cases fake
    have same := (target_eq_of_lives (fun _ _ => id) path).trans
      (FakeTime.target_eq_of_final final)
    have steps : Relation.ReflTransGen Step m₁ m' :=
      Relation.ReflTransGen.mono (fun _ _ keeps => Keeps.step keeps) _ _ onward
    have coherent := (h₁.steps steps).fakeTime found'
    refine ⟨same ▸ coherent.now_le_target_of, ?_⟩
    intro settled
    have none : f'.final = none := by
      rw [← Option.not_isSome_iff_eq_none, ← coherent.hasPending_iff, settled]
      exact Bool.false_ne_true
    rw [← same, FakeTime.target, none]

/-- A timer armed after an advance of 5 ms leaves its target. -/
theorem advance_applied_exactly_and_last_armed :
    ∃ m m' f', Reachable m ∧ Relation.ReflTransGen Step m m' ∧
      m'.world.fakeTime? 0 = some f' ∧ f'.timers.trigger? ⟨0⟩ = some (.ofMillis 3) ∧
      f'.final.map (·.target) = some (.ofMillis 5) := by
  have run := reachable_ofCalls [.new .fake true, .add 0 "tick" [] false]
  have advance := step_ofCalls [.new .fake true, .add 0 "tick" [] false] (.advance 0 (.ofMillis 5))
  have update := step_ofCalls [.new .fake true, .add 0 "tick" [] false,
    .advance 0 (.ofMillis 5)] (.update 0 "tick" 3)
  obtain ⟨target, sum, waits, _⟩ := (advance_applied_exactly_and_last run 0).1 _ _ _ _
    (.ofMillis 5) _ _ advance rfl rfl rfl
  have awaits : Awaits 0 _ _ := ⟨⟨update, fun e same => (List.cons.inj same).1 ▸ nofun⟩, nofun⟩
  have final := waits _ _ (.single awaits) rfl
  cases sum
  exact ⟨_, _, _, run, .tail (.single advance) update, rfl, rfl, final⟩

end Moment

end VirtualClock
