import VirtualClock.Proofs.History.Transitions

/-!
The order of firings. Whatever is called and dispatched, each firing of a timer on fake time ends
an arming, these armings come one after the other in firing order, and until the end of its callback
the clock reads the trigger.
-/

namespace VirtualClock

/-- In this history each firing of clock `c` ends an arming with that trigger, and the armings that
fired were in firing order. -/
structure Chronicle (c : Nat) (history : List Event) : Prop where
  fires : ∀ later h now past, history = later ++ .fire c h (some now) :: past →
    ∃ a, armingOf c h past = some a ∧ a.trigger = now
  order : (fired c history).Pairwise fun a b => b.Before a

namespace Chronicle

variable {c : Nat} {history : List Event} {e : Event}

theorem nil (c : Nat) : Chronicle c [] where
  fires later h now past split := by simp at split
  order := List.Pairwise.nil

theorem cons_of_none (chronicle : Chronicle c history) (quiet : e.fires? c = none) :
    Chronicle c (e :: history) where
  fires later h now past split := by
    cases later with
    | nil =>
      obtain ⟨rfl, _⟩ := List.cons.inj split
      simp [Event.fires?] at quiet
    | cons x later => exact chronicle.fires later h now past (List.cons.inj split).2
  order := by
    rw [fired_cons_of_none quiet]
    exact chronicle.order

theorem cons_fire (chronicle : Chronicle c history) {h : TimerHandle} {a : Arming}
    (live : armingOf c h history = some a) (latest : ∀ b ∈ fired c history, b.Before a) :
    Chronicle c (.fire c h (some a.trigger) :: history) where
  fires later g now past split := by
    cases later with
    | nil =>
      cases split
      exact ⟨a, live, rfl⟩
    | cons x later => exact chronicle.fires later g now past (List.cons.inj split).2
  order := by
    have fires : (Event.fire c h (some a.trigger)).fires? c = some h := if_pos rfl
    rw [fired_cons_of_some fires live, List.pairwise_cons]
    exact ⟨latest, chronicle.order⟩

theorem append_of_none (chronicle : Chronicle c history) {events : List Event}
    (quiet : ∀ e ∈ events, e.fires? c = none) : Chronicle c (events ++ history) := by
  induction events with
  | nil => exact chronicle
  | cons e events ih =>
    exact cons_of_none (ih fun x member => quiet x (List.mem_cons_of_mem e member))
      (quiet e List.mem_cons_self)

end Chronicle

namespace Moment

variable {m m' : Moment} {c : Nat}

/-- What history says of clock `c` is true. -/
structure Ordered (c : Nat) (m : Moment) : Prop where
  chronicle : Chronicle c m.history
  /-- Before the clock is made nothing can be said of it. -/
  fresh : m.world.clocks.length ≤ c → ∀ e ∈ m.history, e.change? c = none
  timers : ∀ f, m.world.fakeTime? c = some f →
    TimerList.Ranked f.timers.alarms fun h => armingOf c h m.history
  past : ∀ f, m.world.fakeTime? c = some f → ∀ a ∈ fired c m.history,
    a.trigger ≤ f.now ∧ ∀ g b, armingOf c g m.history = some b → a.Before b
  callback : ∀ f h now ops, m.world.fakeTime? c = some f →
    m.stage = .running (.timer c h now) ops →
    f.now = now ∧ ∃ calls past, m.history = calls ++ .fire c h (some now) :: past ∧
      ∀ e ∈ calls, ∃ op handle time answer, e = .call op handle time answer

namespace Ordered

theorem empty (c : Nat) : Ordered c {} where
  chronicle := .nil c
  fresh _ := nofun
  timers f found := by simp [World.fakeTime?, World.clock?] at found
  past f found := by simp [World.fakeTime?, World.clock?] at found
  callback f h now ops found := by simp [World.fakeTime?, World.clock?] at found

theorem not_le_of_fakeTime? {f : FakeTime} (found : m.world.fakeTime? c = some f) :
    ¬m.world.clocks.length ≤ c := by
  obtain ⟨k, alive, _⟩ := World.fakeTime?_eq_some_iff.mp found
  exact Nat.not_le_of_lt (World.lt_length_of_clock? alive)

theorem gone (ordered : m.Ordered c) {events : List Event} (absent : m'.world.fakeTime? c = none)
    (length : m.world.clocks.length ≤ m'.world.clocks.length)
    (history : m'.history = events ++ m.history) (quiet : ∀ e ∈ events, e.change? c = none) :
    m'.Ordered c where
  chronicle := by
    rw [history]
    exact ordered.chronicle.append_of_none fun e member => Event.fires?_of_change? (quiet e member)
  fresh late e member := by
    rw [history] at member
    rcases List.mem_append.mp member with new | old
    · exact quiet e new
    · exact ordered.fresh (Nat.le_trans length late) e old
  timers f found := by cases absent.symm.trans found
  past f found := by cases absent.symm.trans found
  callback f h now ops found := by cases absent.symm.trans found

theorem created (ordered : m.Ordered c) {e : Event} (new : m.world.clocks.length ≤ c)
    (found : m'.world.fakeTime? c = some {}) (outside : m'.Outside c)
    (history : m'.history = e :: m.history) (quiet : e.change? c = none) : m'.Ordered c := by
  have silent : ∀ x ∈ m'.history, x.change? c = none := by
    rw [history]
    exact List.forall_mem_cons.mpr ⟨quiet, ordered.fresh new⟩
  have none (h : TimerHandle) : armingOf c h m'.history = none := armingOf_eq_none silent h
  refine ⟨?_, fun _ => silent, ?_, ?_,
    fun f h now ops _ at_ => absurd at_ (outside h now ops)⟩
  · rw [history]
    exact ordered.chronicle.cons_of_none (Event.fires?_of_change? quiet)
  · intro f found'
    cases found.symm.trans found'
    exact ⟨by simp [TimerList.alarms, none], List.Pairwise.nil⟩
  · intro f _ a member
    rw [fired_eq_nil silent] at member
    cases member

theorem passed (ordered : m.Ordered c) {f f' : FakeTime} (found : m.world.fakeTime? c = some f)
    (found' : m'.world.fakeTime? c = some f') (outside : m'.Outside c)
    (alarms : f'.timers.alarms = f.timers.alarms) (now : f.now ≤ f'.now)
    (history : m'.history = m.history) : m'.Ordered c where
  chronicle := history ▸ ordered.chronicle
  fresh late := absurd late (not_le_of_fakeTime? found')
  timers x found'' := by
    cases found'.symm.trans found''
    rw [alarms, history]
    exact ordered.timers f found
  past x found'' a member := by
    cases found'.symm.trans found''
    rw [history] at member ⊢
    obtain ⟨le, before⟩ := ordered.past f found a member
    exact ⟨Nat.le_trans le now, before⟩
  callback x h now ops _ at_ := absurd at_ (outside h now ops)

theorem happened (ordered : m.Ordered c) (h : m.Coherent) {f f' : FakeTime} {e : Event}
    {looped : Bool} (found : m.world.fakeTime? c = some f)
    (found' : m'.world.fakeTime? c = some f') (called : f.Called f' (e.change? c) looped)
    (history : m'.history = e :: m.history) (silent : e.fires? c = none)
    (callback : ∀ h now ops, m'.stage = .running (.timer c h now) ops →
      f'.now = f.now ∧ ∃ ops' op, m.stage = .running (.timer c h now) ops' ∧
        e = m.world.called op) : m'.Ordered c := by
  obtain ⟨k, alive, fake⟩ := World.fakeTime?_eq_some_iff.mp found
  have coherent := ((h.world.clocks c k alive).fake fake).1
  refine ⟨?_, fun late => absurd late (not_le_of_fakeTime? found'), ?_, ?_, ?_⟩
  · rw [history]
    exact ordered.chronicle.cons_of_none silent
  · intro x found''
    cases found'.symm.trans found''
    rw [history, armingOf_cons]
    exact called.retimed.ranked coherent.sorted coherent.distinct (fun _ _ => index_lt_of_armingOf)
      (ordered.timers f found)
  · intro x found'' a member
    cases found'.symm.trans found''
    rw [history, fired_cons_of_none silent] at member
    obtain ⟨le, before⟩ := ordered.past f found a member
    refine ⟨Nat.le_trans le called.now_le, ?_⟩
    intro g b live
    rw [history] at live
    rcases called.retimed.armingOf live with old | later
    · exact before g b old
    · exact .inl (Nat.lt_of_le_of_lt le later)
  · intro x g now ops found'' at_
    cases found'.symm.trans found''
    obtain ⟨same, ops', op, at', rfl⟩ := callback g now ops at_
    obtain ⟨now_eq, calls, past, split, only⟩ := ordered.callback f g now ops' found at'
    refine ⟨same.trans now_eq, m.world.called op :: calls, past, by rw [history, split]; rfl, ?_⟩
    exact List.forall_mem_cons.mpr ⟨⟨_, _, _, _, rfl⟩, only⟩

theorem fired (ordered : m.Ordered c) (h : m.Coherent) {f : FakeTime} {g : TimerHandle}
    {d : Duration} {ops : List Op} (found : m.world.fakeTime? c = some f)
    (found' : m'.world.fakeTime? c = some (f.fired g d)) (first : f.timers.First g d)
    (history : m'.history = .fire c g (some d) :: m.history)
    (stage : m'.stage = .running (.timer c g d) ops) : m'.Ordered c := by
  obtain ⟨k, alive, fake⟩ := World.fakeTime?_eq_some_iff.mp found
  have coherent := ((h.world.clocks c k alive).fake fake).1
  have ranked := ordered.timers f found
  obtain ⟨a, live, rfl⟩ := (ranked.armed_iff g d).mp first.mem
  have member : g ∈ f.timers.handles := by
    rw [TimerList.handles_eq_map_alarms]
    exact List.mem_map_of_mem first.mem
  have change : (Event.fire c g (some a.trigger)).change? c = some (g, none) := if_pos rfl
  have fires : (Event.fire c g (some a.trigger)).fires? c = some g := if_pos rfl
  have latest : ∀ b ∈ VirtualClock.fired c m.history, b.Before a := fun b old =>
    (ordered.past f found b old).2 g a live
  refine ⟨?_, fun late => absurd late (not_le_of_fakeTime? found'), ?_, ?_, ?_⟩
  · rw [history]
    exact ordered.chronicle.cons_fire live latest
  · intro x found''
    cases found'.symm.trans found''
    have disarmed : f.Retimed (f.fired g a.trigger) (some (g, none)) := .set member nofun rfl
    rw [history, armingOf_cons, change]
    exact disarmed.ranked coherent.sorted coherent.distinct (fun _ _ => index_lt_of_armingOf) ranked
  · intro x found'' b old
    cases found'.symm.trans found''
    rw [history, fired_cons_of_some fires live] at old
    rw [history]
    have others {g' : TimerHandle} {b' : Arming}
        (live' : armingOf c g' (.fire c g (some a.trigger) :: m.history) = some b') :
        g' ≠ g ∧ armingOf c g' m.history = some b' := by
      rw [armingOf_cons_of_some change] at live'
      split at live'
      · cases live'
      · next other => exact ⟨other, live'⟩
    rcases List.mem_cons.mp old with rfl | old
    · refine ⟨Nat.le_refl _, ?_⟩
      intro g' b' live'
      obtain ⟨other, live'⟩ := others live'
      exact ranked.before_of_first first live live' other
    · refine ⟨(latest b old).trigger_le, ?_⟩
      intro g' b' live'
      exact (ordered.past f found b old).2 g' b' (others live').2
  · intro x g' now ops' found'' at_
    cases found'.symm.trans found''
    rw [stage] at at_
    cases at_
    exact ⟨rfl, [], m.history, history, nofun⟩

theorem transition (ordered : m.Ordered c) (h : m.Coherent) (next : Transition c m m') :
    m'.Ordered c := by
  cases next with
  | gone events absent length history quiet => exact ordered.gone absent length history quiet
  | created new found outside history quiet =>
    exact ordered.created (Nat.le_of_eq new.symm) found outside history quiet
  | passed found found' outside alarms now history =>
    exact ordered.passed found found' outside alarms now history
  | happened found found' called history silent callback =>
    exact ordered.happened h found found' called history silent callback
  | fired found found' first history stage => exact ordered.fired h found found' first history stage

end Ordered

theorem Reachable.ordered (run : Reachable m) (c : Nat) : m.Ordered c := by
  have both : m.Coherent ∧ m.Ordered c := by
    induction run with
    | refl => exact ⟨.empty, .empty c⟩
    | tail _ step ih => exact ⟨ih.1.step step, ih.2.transition ih.1 (step.transition ih.1 c)⟩
  exact both.2

theorem gettime_of_fakeTime? {w : World} {f : FakeTime} (found : w.fakeTime? c = some f)
    {id : ClockId} (emulated : id.isEmulated = true) :
    (w.exec (.gettime c id)).1 = .time f.now.toTimespec := by
  obtain ⟨k, alive, fake⟩ := World.fakeTime?_eq_some_iff.mp found
  simp [World.exec, World.ask, alive, World.answerTime, Clock.gettime, fake, emulated, Clock.mode]

end Moment

end VirtualClock
