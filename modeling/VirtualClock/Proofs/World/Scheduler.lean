import VirtualClock.Proofs.World.Elsewhere

/-!
The scheduler invariant. In every reachable moment a clock on fake time has on the loop exactly the
work that its fake time knows of; while that is none, nothing happens to the clock without a call.
-/

namespace VirtualClock.Moment

variable {m m' : Moment} {c : Nat} {k : Clock}

theorem Step.suffix (h : m.Coherent) (step : Step m m') :
    ∃ events, m'.history = events ++ m.history := by
  rcases step.history h with same | ⟨op, called⟩ | ⟨c, g, now, fired⟩
  · exact ⟨[], same⟩
  · exact ⟨[_], called⟩
  · exact ⟨[_], fired⟩

theorem suffix_of_steps (h : m.Coherent) (run : Relation.ReflTransGen Step m m') :
    ∃ events, m'.history = events ++ m.history := by
  induction run with
  | refl => exact ⟨[], rfl⟩
  | tail before step ih =>
    obtain ⟨old, history⟩ := ih
    obtain ⟨new, history'⟩ := step.suffix (h.steps before)
    exact ⟨new ++ old, by rw [history', history, List.append_assoc]⟩

/-- No call in these events is one on clock `c`. -/
def NoCall (c : Nat) (events : List Event) : Prop :=
  ∀ op handle now answer, .call op handle now answer ∈ events → op.clock? ≠ some c

theorem NoCall.of_append {events more : List Event} (h : NoCall c (more ++ events)) :
    NoCall c more ∧ NoCall c events :=
  ⟨fun op g now answer member => h op g now answer (List.mem_append_left _ member),
    fun op g now answer member => h op g now answer (List.mem_append_right _ member)⟩

/-- The clock is `k`, with nothing to do on the loop, and no callback of its own is running. -/
structure Settled (m : Moment) (c : Nat) (k : Clock) : Prop where
  found : m.world.clock? c = some k
  fake : k.mode = .fake
  pending : k.hasPendingDispatch = false
  stage : ∀ h now ops, m.stage ≠ .running (.timer c h now) ops

theorem idlesOf_eq_nil {l : EventLoop}
    (coherent : k.CoherentIn c l) (pending : k.hasPendingDispatch = false) :
    l.idlesOf c = [] := by
  cases coherent with
  | real _ idle => exact idle
  | unlooped _ _ idle => exact idle
  | @looped r f _ _ coherent linked =>
    rw [linked, coherent.idles_eq_nil (coherent.settled_iff.mp pending)]

namespace Settled

theorem untouched (settled : m.Settled c k) (h : m.Coherent) (step : Step m m')
    {events : List Event} (history : m'.history = events ++ m.history) (quiet : NoCall c events) :
    Untouched c m m' := by
  have called {op : Op} (later : m'.history = m.world.called op :: m.history) :
      op.clock? ≠ some c := by
    have : events = [m.world.called op] :=
      List.append_cancel_right (history.symm.trans later)
    exact quiet op _ _ _ (this ▸ List.mem_singleton_self _)
  cases step with
  | call op stage => exact untouched_call h settled.found (called rfl)
  | pass t stage =>
    exact .still rfl (fun _ => .of_eq rfl rfl) (fun _ _ ops at_ => ⟨ops, at_⟩) rfl
  | clear stage =>
    exact .still rfl (fun _ => .of_eq rfl rfl) (fun _ _ ops at_ => ⟨ops, at_⟩) rfl
  | turn stage =>
    exact .still rfl (fun _ => .of_eq rfl rfl) (fun _ _ _ => nofun) rfl
  | proceed =>
    refine (progress_proceed h).untouched h settled.found settled.fake
      ⟨?_, fun h now => settled.stage h now [], ?_⟩
    · intro _ i rest batch
      have idle := idlesOf_eq_nil (h.world.clocks c k settled.found) settled.pending
      exact EventLoop.isOf_eq_false_of_idle idle batch
    · intro origin op ops stage
      apply called
      simp only [Moment.proceed, stage]

theorem step (settled : m.Settled c k) (h : m.Coherent) (step : Step m m')
    {events : List Event} (history : m'.history = events ++ m.history) (quiet : NoCall c events) :
    m'.Settled c k ∧ ∀ e ∈ events, e.clock? ≠ some c := by
  have untouched := settled.untouched h step history quiet
  have found := untouched.clock.trans settled.found
  obtain ⟨new, history', foreign⟩ := untouched.history
  have same : new = events := List.append_cancel_right (history'.symm.trans history)
  refine ⟨⟨found, settled.fake, settled.pending, ?_⟩, same ▸ foreign⟩
  intro g now ops at_
  obtain ⟨ops', before⟩ := untouched.stage g now ops at_
  exact settled.stage g now ops' before

theorem steps (settled : m.Settled c k) (h : m.Coherent)
    (run : Relation.ReflTransGen Step m m') :
    m'.Coherent ∧ ∃ events, m'.history = events ++ m.history ∧
      (NoCall c events → m'.Settled c k ∧ ∀ e ∈ events, e.clock? ≠ some c) := by
  induction run with
  | refl => exact ⟨h, [], rfl, fun _ => ⟨settled, nofun⟩⟩
  | @tail a b _ last ih =>
    obtain ⟨coherent, events, history, before⟩ := ih
    obtain ⟨new, history'⟩ := last.suffix coherent
    refine ⟨coherent.step last, new ++ events, ?_, ?_⟩
    · rw [history', history, List.append_assoc]
    · intro quiet
      obtain ⟨settled', foreign⟩ := before quiet.of_append.2
      obtain ⟨settled'', foreign'⟩ := settled'.step coherent last history' quiet.of_append.1
      refine ⟨settled'', ?_⟩
      intro e member
      rcases List.mem_append.mp member with late | early
      · exact foreign' e late
      · exact foreign e early

end Settled

/-- In every reachable moment a clock on fake time with a loop is coherent, and its live work on
the loop is what its timers and its pending advance have queued: the dispatches in the order of
the timers, then the final task, each once. With nothing pending, and outside callbacks of its own
timers, the clock stays as it is and none of them fires, whatever the loop dispatches, until the
next call on it. -/
theorem scheduling_invariant (run : Reachable m) {r : Registry} {f : FakeTime}
    (found : m.world.clock? c = some ⟨some r, .fake f⟩) :
    f.Coherent ∧ m.world.loop.idlesOf c = f.idles c ∧
      ((m.world.loop.idlesOf c).map (·.ticket)).Nodup ∧
      (f.hasPending = false → (∀ h now ops, m.stage ≠ .running (.timer c h now) ops) →
        ∀ m', Relation.ReflTransGen Step m m' →
          ∃ events, m'.history = events ++ m.history ∧
            (NoCall c events →
              m'.world.clock? c = some ⟨some r, .fake f⟩ ∧
                ∀ h now, .fire c h now ∉ events)) := by
  have coherent := run.coherent
  obtain ⟨scheduled, linked⟩ := (coherent.world.clocks c _ found).fake rfl
  refine ⟨scheduled, linked, ?_, ?_⟩
  · exact coherent.world.ticketed.distinct.sublist (List.filter_sublist.map _)
  · intro pending stage m' later
    obtain ⟨_, events, history, quiet⟩ :=
      Settled.steps ⟨found, rfl, pending, stage⟩ coherent later
    refine ⟨events, history, ?_⟩
    intro noCall
    obtain ⟨settled, foreign⟩ := quiet noCall
    exact ⟨settled.found, fun h now fired => foreign _ fired rfl⟩

/-- A timer due by a pending advance is queued before the final task. -/
theorem scheduling_invariant_due :
    ∃ r f, (ofCalls [.new .fake true, .add 0 "tick" [] false, .update 0 "tick" 2,
        .advance 0 (.ofMillis 5)]).world.clock? 0 = some ⟨some r, .fake f⟩ ∧
      f.idles 0 = [⟨1, .timer 0 ⟨0⟩⟩, ⟨2, .finalTime 0⟩] ∧ f.Coherent := by
  have found : (ofCalls [.new .fake true, .add 0 "tick" [] false, .update 0 "tick" 2,
      .advance 0 (.ofMillis 5)]).world.clock? 0 = some ⟨some _, .fake _⟩ := rfl
  exact ⟨_, _, found, rfl, (scheduling_invariant (reachable_ofCalls _) found).1⟩

end VirtualClock.Moment
