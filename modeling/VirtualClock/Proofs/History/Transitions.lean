import VirtualClock.Proofs.History.Evolution
import VirtualClock.Proofs.World.Elsewhere

/-!
One step of a run as a clock on fake time sees it: the clock is new, or the step goes by without
changing a timer, or it is a call on the clock, or one of its timers fires.
-/

namespace VirtualClock

namespace World

variable {w w' : World} {c : Nat} {f : FakeTime} {k : Clock}

theorem fakeTime?_congr (same : w'.clock? c = w.clock? c) : w'.fakeTime? c = w.fakeTime? c := by
  rw [fakeTime?, fakeTime?, same]

theorem fakeTime?_setClock (found : w.clock? c = some k) (k' : Clock) (d : Nat) :
    (w.setClock c k').fakeTime? d = if d = c then k'.fakeTime? else w.fakeTime? d := by
  rw [fakeTime?, clock?_setClock (lt_length_of_clock? found)]
  split <;> rfl

theorem Executed.eq_new {op : Op} (executed : Executed w op w') (fresh : w.clocks.length ≤ c)
    (found : w'.clock? c = some k) :
    c = w.clocks.length ∧ ∃ mode hasLoop, op = .new mode hasLoop ∧ k = .new mode hasLoop := by
  have absent : w.clock? c = none := by
    rw [clock?, List.getElem?_eq_none fresh]
    rfl
  cases executed with
  | created mode hasLoop =>
    rw [clock?_newClock] at found
    split at found
    · next same =>
      cases found
      exact ⟨same, mode, hasLoop, rfl, rfl⟩
    · rw [absent] at found
      cases found
  | dropped =>
    rw [clock?_dropClock] at found
    split at found
    · cases found
    · rw [absent] at found
      cases found
  | called _ found' =>
    change (World.setClock ..).clock? c = _ at found
    rw [clock?_setClock (lt_length_of_clock? found'), if_neg, absent] at found
    · cases found
    · rintro rfl
      exact Nat.not_lt_of_le fresh (lt_length_of_clock? found')
  | _ => cases absent.symm.trans found

theorem Executed.eq_drop {op : Op} (executed : Executed w op w') (found : w.clock? c = some k)
    (gone : w'.clock? c = none) : op = .drop c := by
  cases executed with
  | created mode hasLoop =>
    rw [clock?_newClock, if_neg (Nat.ne_of_lt (lt_length_of_clock? found)), found] at gone
    cases gone
  | @dropped d =>
    rw [clock?_dropClock] at gone
    split at gone
    · next same => rw [same]
    · cases found.symm.trans gone
  | called _ found' =>
    change (World.setClock ..).clock? c = _ at gone
    rw [clock?_setClock (lt_length_of_clock? found')] at gone
    split at gone
    · cases gone
    · cases found.symm.trans gone
  | _ => cases found.symm.trans gone

end World

theorem Event.change?_of_foreign {c : Nat} {e : Event} (foreign : e.clock? ≠ some c) :
    e.change? c = none := by
  unfold change?
  split
  · exact if_neg fun same => foreign (congrArg some same)
  · exact if_neg fun same => foreign (congrArg some same)
  · exact if_neg fun same => foreign (congrArg some same)
  · rfl

namespace Moment

variable {m m' : Moment} {c : Nat} {f f' : FakeTime} {k : Clock}

/-- No callback of a timer of clock `c` is running. -/
def Outside (c : Nat) (m : Moment) : Prop := ∀ h now ops, m.stage ≠ .running (.timer c h now) ops

theorem outside_of_draining (stage : m.stage = .draining) : m.Outside c := by
  intro g now ops at_
  cases stage.symm.trans at_

theorem outside_of_rest (stage : m.stage = .rest) : m.Outside c := by
  intro g now ops at_
  cases stage.symm.trans at_

/-- What a step has to do with clock `c` on fake time. -/
inductive Transition (c : Nat) (m m' : Moment) : Prop where
  /-- There is no such clock. -/
  | gone (events : List Event) :
    m'.world.fakeTime? c = none → m.world.clocks.length ≤ m'.world.clocks.length →
    m'.history = events ++ m.history → (∀ e ∈ events, e.change? c = none) → Transition c m m'
  | created {e : Event} :
    c = m.world.clocks.length → m'.world.fakeTime? c = some {} → m'.Outside c →
    m'.history = e :: m.history → e.change? c = none → Transition c m m'
  | passed {f f' : FakeTime} :
    m.world.fakeTime? c = some f → m'.world.fakeTime? c = some f' → m'.Outside c →
    f'.timers.alarms = f.timers.alarms → f.now ≤ f'.now → m'.history = m.history →
    Transition c m m'
  /-- A call, on the clock or not, or something elsewhere. A callback stays at its time. -/
  | happened {f f' : FakeTime} {e : Event} {looped : Bool} :
    m.world.fakeTime? c = some f → m'.world.fakeTime? c = some f' →
    f.Called f' (e.change? c) looped → m'.history = e :: m.history → e.fires? c = none →
    (∀ h now ops, m'.stage = .running (.timer c h now) ops →
      f'.now = f.now ∧ ∃ ops' op, m.stage = .running (.timer c h now) ops' ∧
        e = m.world.called op) →
    Transition c m m'
  | fired {f : FakeTime} {g : TimerHandle} {d : Duration} {ops : List Op} :
    m.world.fakeTime? c = some f → m'.world.fakeTime? c = some (f.fired g d) →
    f.timers.First g d → m'.history = .fire c g (some d) :: m.history →
    m'.stage = .running (.timer c g d) ops → Transition c m m'

theorem change?_called_of_fakeTime? {op : Op} (absent : m.world.fakeTime? c = none) :
    (m.world.called op).change? c = none := by
  by_cases about : op.clock? = some c
  · unfold World.called Event.change?
    simp [about, World.fakeNow?, absent]
  · exact Event.change?_of_foreign about

theorem Transition.of_same (same : m'.world.fakeTime? c = m.world.fakeTime? c)
    (length : m.world.clocks.length ≤ m'.world.clocks.length) (outside : m'.Outside c)
    (history : m'.history = m.history) : Transition c m m' := by
  cases found : m.world.fakeTime? c with
  | none => exact .gone [] (same.trans found) length history nofun
  | some f => exact .passed found (same.trans found) outside rfl (Nat.le_refl _) history

theorem Transition.of_quiet {e : Event} (same : m'.world.fakeTime? c = m.world.fakeTime? c)
    (length : m.world.clocks.length ≤ m'.world.clocks.length) (outside : m'.Outside c)
    (history : m'.history = e :: m.history) (quiet : e.change? c = none) : Transition c m m' := by
  cases found : m.world.fakeTime? c with
  | none =>
    refine .gone [e] (same.trans found) length history ?_
    intro x member
    rw [List.mem_singleton.mp member]
    exact quiet
  | some f =>
    exact .happened found (same.trans found) (quiet ▸ f.called_refl true) history
      (Event.fires?_of_change? quiet) fun h now ops at_ => absurd at_ (outside h now ops)

theorem transition_exec (h : m.Coherent) (op : Op)
    (clocks : m'.world.clocks = (m.world.exec op).2.clocks)
    (history : m'.history = m.world.called op :: m.history)
    (stage : ∀ h now ops, m'.stage = .running (.timer c h now) ops →
      ∃ ops', m.stage = .running (.timer c h now) ops') : Transition c m m' := by
  have executed := World.executed_exec m.world op
  have same : m'.world.clock? c = (m.world.exec op).2.clock? c := by
    rw [World.clock?, clocks]
    rfl
  have length : m.world.clocks.length ≤ m'.world.clocks.length := clocks ▸ executed.length_le
  have after := World.fakeTime?_congr same
  cases before : m.world.fakeTime? c with
  | none =>
    have quiet : (m.world.called op).change? c = none := change?_called_of_fakeTime? before
    cases found : m'.world.fakeTime? c with
    | none =>
      refine .gone [m.world.called op] found length history ?_
      intro e member
      rw [List.mem_singleton.mp member]
      exact quiet
    | some f' =>
      obtain ⟨k', alive, fake⟩ := World.fakeTime?_eq_some_iff.mp (after ▸ found)
      have fresh : m.world.clocks.length ≤ c := by
        by_contra known
        obtain ⟨k, alive', mode, _⟩ := executed.kind (Nat.not_le.mp known) alive
        have fake' : k.mode = .fake := by
          rw [← mode, Clock.mode, fake]
        obtain ⟨f, found'⟩ := World.exists_fakeTime? alive' fake'
        cases before.symm.trans found'
      obtain ⟨rfl, mode, hasLoop, rfl, rfl⟩ := executed.eq_new fresh alive
      have new : f' = {} := by
        cases mode <;> cases fake
        rfl
      refine .created rfl (new ▸ found) ?_ history quiet
      intro g now ops at_
      obtain ⟨ops', at_⟩ := stage g now ops at_
      exact Nat.lt_irrefl _ (h.looped _ _ _ _ at_).1
  | some f =>
    obtain ⟨k, alive, fake⟩ := World.fakeTime?_eq_some_iff.mp before
    by_cases about : op.clock? = some c
    · cases found : (m.world.exec op).2.clock? c with
      | none =>
        have dropped := executed.eq_drop alive found
        subst dropped
        refine .gone [m.world.called (.drop c)] ?_ length history ?_
        · rw [World.fakeTime?, same, found]
          rfl
        · intro e member
          rw [List.mem_singleton.mp member]
          rfl
      | some k' =>
        obtain ⟨f', fake', called⟩ := h.world.called_exec about alive fake found
        refine .happened before (World.fakeTime?_of_clock? (same.trans found) fake') called history
          rfl fun g now ops at_ => ?_
        obtain ⟨ops', at_⟩ := stage g now ops at_
        exact ⟨called.now_eq ((h.looped c g now ops' at_).2 k alive).2, ops', op, at_, rfl⟩
    · have kept := executed.clock?_eq (World.lt_length_of_clock? alive) about
      have quiet := Event.change?_of_foreign (c := c) (e := m.world.called op) about
      refine .happened before (after.trans ((World.fakeTime?_congr kept).trans before))
        (quiet ▸ f.called_refl true) history rfl fun g now ops at_ => ?_
      obtain ⟨ops', at_⟩ := stage g now ops at_
      exact ⟨rfl, ops', op, at_, rfl⟩

/-- Every step is one of these, for every clock. -/
theorem Progress.transition (h : m.Coherent) (next : m.Progress m') (c : Nat) :
    Transition c m m' := by
  have length {d : Nat} {k : Clock} :
      m.world.clocks.length ≤ (m.world.setClock d k).clocks.length :=
    Nat.le_of_eq (List.length_set ..).symm
  have real {d : Nat} {k : Clock} (k' : Clock) (found : m.world.clock? d = some k)
      (real : k.mode = .real) (same : k'.source = k.source) :
      (m.world.setClock d k').fakeTime? c = m.world.fakeTime? c := by
    rw [World.fakeTime?_setClock found]
    split
    · next equal =>
      subst equal
      rw [World.fakeTime?, found, Option.bind_some, Clock.fakeTime?, Clock.fakeTime?, same]
    · rfl
  have other {d : Nat} {k : Clock} (k' : Clock) (found : m.world.clock? d = some k) (ne : c ≠ d) :
      (m.world.setClock d k').fakeTime? c = m.world.fakeTime? c := by
    rw [World.fakeTime?_setClock found, if_neg ne]
  have own {k : Clock} (registry : Option Registry) (f : FakeTime)
      (found : m.world.clock? c = some k) :
      (m.world.setClock c ⟨registry, .fake f⟩).fakeTime? c = some f := by
    rw [World.fakeTime?_setClock found, if_pos rfl]
    rfl
  cases next with
  | resting stage => exact .of_same rfl (Nat.le_refl _) (outside_of_rest stage) rfl
  | takes | skips | drained | user =>
    exact .of_same rfl (Nat.le_refl _) (by rintro _ _ _ ⟨⟩) rfl
  | orphan stage => exact .of_same rfl (Nat.le_refl _) (outside_of_draining stage) rfl
  | @returns origin =>
    refine .of_same rfl (Nat.le_refl _) ?_ rfl
    cases origin <;> rintro _ _ _ ⟨⟩
  | misses _ found isReal =>
    exact .of_same (real _ found isReal rfl) length (by rintro _ _ _ ⟨⟩) rfl
  | expires log _ found isReal =>
    exact .of_quiet (real _ found isReal rfl) length (by rintro _ _ _ ⟨⟩) rfl rfl
  | @fires _ d g _ _ f t _ _ log _ _ found _ _ first =>
    by_cases same : c = d
    · subst same
      exact .fired (World.fakeTime?_of_clock? found rfl) (own _ _ found) first rfl rfl
    · refine .of_quiet (other _ found same) length ?_ rfl ?_
      · intro h now ops at_
        cases at_
        exact same rfl
      · exact Event.change?_of_foreign fun equal => same (Option.some.inj equal).symm
  | @applies _ d _ _ f x stage _ found final =>
    by_cases same : c = d
    · subst same
      have coherent := ((h.world.clocks c _ found).fake rfl).1
      exact .passed (World.fakeTime?_of_clock? found rfl) (own _ _ found)
        (outside_of_draining stage) rfl (coherent.now_le_target x final) rfl
    · exact .of_same (other _ found same) length (outside_of_draining stage) rfl
  | @reschedules d g now r f stage found =>
    by_cases same : c = d
    · subst same
      exact .passed (World.fakeTime?_of_clock? found rfl) (own _ _ found) (outside_of_draining rfl)
        (FakeTime.alarms_schedule ..) (Nat.le_refl _) rfl
    · exact .of_same (other _ found same) length (outside_of_draining rfl) rfl
  | executes log stage =>
    refine transition_exec h _ rfl rfl ?_
    intro g now ops at_
    cases at_
    exact ⟨_, stage⟩

theorem Step.transition (h : m.Coherent) (step : Step m m') (c : Nat) : Transition c m m' := by
  cases step with
  | call op stage =>
    exact transition_exec h op rfl rfl fun g now ops at_ => ⟨ops, at_⟩
  | pass _ stage | clear stage =>
    exact .of_same rfl (Nat.le_refl _) (outside_of_rest stage) rfl
  | turn => exact .of_same rfl (Nat.le_refl _) (by rintro _ _ _ ⟨⟩) rfl
  | proceed => exact (progress_proceed h).transition h c

end Moment

end VirtualClock
