import VirtualClock.Proofs.History.Registrations
import VirtualClock.Proofs.RealTime.Tokens

/-!
One set of timers in two tables. A clock on fake time keeps its timers in order of firing, and the
loop keeps their callbacks by handle. Every call edits both tables or neither, and a timer that
moves to a new place in the order stays the timer that it is, so at every moment of a run both
tables have the same timers, each once. Handles are given away in counting order, so no handle
comes twice; and no timer of a clock on fake time holds a source.
-/

namespace VirtualClock

/-- The first `n` handles, the latest first. -/
def TimerHandle.countdown : Nat → List TimerHandle
  | 0 => []
  | n + 1 => ⟨n⟩ :: countdown n

/-- The handles that were given away on clock `c`, the latest first. -/
def handlesGiven (c : Nat) (history : List Event) : List TimerHandle :=
  history.filterMap (·.issues? c)

section countdown

variable {c n : Nat} {h : TimerHandle} {e : Event} {past : List Event}

theorem TimerHandle.mem_countdown : h ∈ countdown n ↔ h.index < n := by
  induction n with
  | zero => simp [countdown]
  | succ n ih =>
    rw [countdown, List.mem_cons, ih, Nat.lt_succ_iff_lt_or_eq, or_comm]
    exact or_congr_right ⟨congrArg index, fun same => by cases h; exact congrArg mk same⟩

theorem TimerHandle.nodup_countdown (n : Nat) : (countdown n).Nodup := by
  induction n with
  | zero => exact List.nodup_nil
  | succ n ih => exact List.nodup_cons.mpr ⟨fun old => Nat.lt_irrefl n (mem_countdown.mp old), ih⟩

theorem handlesGiven_cons_of_quiet (quiet : e.issues? c = none) :
    handlesGiven c (e :: past) = handlesGiven c past :=
  List.filterMap_cons_none quiet

theorem handlesGiven_cons_of_issues (issues : e.issues? c = some h) :
    handlesGiven c (e :: past) = h :: handlesGiven c past :=
  List.filterMap_cons_some issues

end countdown

namespace Clock

/-- What an event makes of the count of clock `c`: it gives the next handle away, or none. -/
inductive Counts (c : Nat) (k : Clock) (e : Event) (k' : Clock) : Prop where
  | keeps : e.issues? c = none → k'.issued = k.issued → Counts c k e k'
  | gives : e.issues? c = some ⟨k.issued⟩ → k'.issued = k.issued + 1 → Counts c k e k'

variable {k k' : Clock} {c : Nat} {l : EventLoop} {e : Event} {past : List Event}

theorem Counts.handlesGiven_cons (counts : k.Counts c e k')
    (counted : handlesGiven c past = TimerHandle.countdown k.issued) :
    handlesGiven c (e :: past) = TimerHandle.countdown k'.issued := by
  cases counts with
  | keeps quiet same => rw [handlesGiven_cons_of_quiet quiet, same, counted]
  | gives issues next => rw [handlesGiven_cons_of_issues issues, next, counted]; rfl

theorem issued_removeTimer (k : Clock) (h : TimerHandle) (l : EventLoop) :
    (k.removeTimer h l).clock.issued = k.issued := by
  unfold removeTimer
  split
  · rfl
  · next r registered =>
    split
    · rfl
    · have same : ({ k with registry := some (r.erase h) } : Clock).issued = k.issued := by
        rw [issued_of_registry registered]
        rfl
      simp only
      split
      · exact same
      · split <;> exact same

end Clock

namespace World

variable {w : World} {c : Nat} {k k' : Clock} {op : Op} {past : List Event}

theorem counts_exec_add {timer : String} {fires : List (List Op)} {repeats : Bool}
    (found : w.clock? c = some k)
    (found' : (w.exec (.add c timer fires repeats)).2.clock? c = some k') :
    k.Counts c (w.called (.add c timer fires repeats)) k' := by
  unfold called
  cases registered : k.registry with
  | none =>
    simp only [exec, addTimer, found, Clock.addTimer, registered, Clock.refuse] at found' ⊢
    rw [clock?_accept found] at found'
    cases found'
    exact .keeps rfl rfl
  | some r =>
    simp only [exec, addTimer, found, Clock.addTimer, registered] at found' ⊢
    change (w.accept c _).clock? c = some k' at found'
    rw [clock?_accept found] at found'
    cases found'
    have issued := Clock.issued_of_registry registered
    exact .gives (by simp [Event.issues?, issued]) (by rw [issued]; rfl)

theorem issued_exec_remove {timer : String} (found : w.clock? c = some k)
    (found' : (w.exec (.remove c timer)).2.clock? c = some k') : k'.issued = k.issued := by
  simp only [exec, onTimer, found] at found'
  cases named : w.lookup timer with
  | none =>
    simp only [named] at found'
    cases found.symm.trans found'
    rfl
  | some h =>
    simp only [named] at found'
    rw [clock?_accept found] at found'
    cases found'
    exact k.issued_removeTimer h w.loop

theorem counts_exec (op : Op) (found : w.clock? c = some k)
    (found' : (w.exec op).2.clock? c = some k') : k.Counts c (w.called op) k' := by
  have executed := executed_exec w op
  by_cases about : op.clock? = some c
  · cases op
    case add d timer fires repeats =>
      cases about
      exact counts_exec_add found found'
    case remove d timer =>
      cases about
      exact .keeps rfl (issued_exec_remove found found')
    all_goals
      exact .keeps rfl
        (Clock.issued_congr (executed.roster_eq found found' rfl fun _ _ other => by cases other))
  · have same := executed.clock?_eq (lt_length_of_clock? found) about
    cases found.symm.trans (same.symm.trans found')
    exact .keeps (Event.issues?_of_foreign about) rfl

/-- Handles are given away in counting order, from zero on a new clock. -/
theorem handlesGiven_exec (op : Op) (found' : (w.exec op).2.clock? c = some k')
    (counted : ∀ k, w.clock? c = some k → handlesGiven c past = TimerHandle.countdown k.issued)
    (unused : w.clocks.length ≤ c → handlesGiven c past = []) :
    handlesGiven c (w.called op :: past) = TimerHandle.countdown k'.issued := by
  rcases Nat.lt_or_ge c w.clocks.length with known | fresh
  · obtain ⟨k, alive, _⟩ := (executed_exec w op).kind known found'
    exact (counts_exec op alive found').handlesGiven_cons (counted k alive)
  · obtain ⟨rfl, mode, hasLoop, rfl, rfl⟩ := (executed_exec w op).eq_new fresh found'
    have none_given : (Clock.new mode hasLoop).issued = 0 := by cases hasLoop <;> rfl
    rw [handlesGiven_cons_of_quiet rfl, unused (Nat.le_refl _), none_given]
    rfl

theorem Wired.sourceless {r : Registry} {f : FakeTime} (wired : w.Wired) (coherent : w.Coherent)
    (found : w.clock? c = some ⟨some r, .fake f⟩) :
    (∀ e ∈ r.entries, e.source = none) ∧ ∀ s ∈ w.loop.sources, s.clock ≠ c := by
  have apart : ∀ s ∈ w.loop.sources, s.clock ≠ c := by
    rintro s member rfl
    have real := (coherent.sources s member).2 _ found
    cases real
  refine ⟨fun e entry => Option.eq_none_iff_forall_ne_some.mpr fun n token => ?_, apart⟩
  have numbered := (coherent.clocks c _ found).registered.1
  have holds : w.source? c e.handle = some n := by
    rw [source?_of_clock? found]
    exact (Registry.source?_eq_some_iff numbered).mpr (Registry.mem_tokens.mpr ⟨e, entry, rfl, token⟩)
  obtain ⟨s, member, own, _⟩ :=
    (wired.held_iff c (by rw [found]; rfl) e.handle n).mp holds
  exact apart s member own

end World

namespace Moment

variable {m m' : Moment} {c : Nat} {k : Clock}

theorem Step.handlesGiven_eq (h : m.Coherent) (step : Step m m')
    (counted : ∀ k, m.world.clock? c = some k →
      handlesGiven c m.history = TimerHandle.countdown k.issued)
    (unused : m.world.clocks.length ≤ c → handlesGiven c m.history = []) {k' : Clock}
    (found : m'.world.clock? c = some k') :
    handlesGiven c m'.history = TimerHandle.countdown k'.issued := by
  cases step with
  | call op => exact World.handlesGiven_exec op found counted unused
  | pass | clear | turn => exact counted k' found
  | proceed =>
    rcases (progress_proceed h).roster_eq found with
      ⟨op, found, called⟩ | ⟨k, alive, same, history⟩
    · rw [called]
      exact World.handlesGiven_exec op found counted unused
    · rw [Clock.issued_congr same, ← counted k alive]
      rcases history with quiet | ⟨_, _, _, fired⟩
      · rw [quiet]
      · rw [fired, handlesGiven_cons_of_quiet rfl]

theorem Reachable.handlesGiven_eq (run : Reachable m) (found : m.world.clock? c = some k) :
    handlesGiven c m.history = TimerHandle.countdown k.issued := by
  induction run generalizing k with
  | refl => simp [World.clock?] at found
  | tail before step ih =>
    refine step.handlesGiven_eq (Reachable.coherent before) (fun _ => ih) (fun fresh => ?_) found
    exact List.filterMap_eq_nil_iff.mpr fun e old =>
      ((Reachable.enrolled before).known c fresh e old).1

/-- Wherever a run has come to, between two dispatches or between two operations of a callback: the
timers that a clock on fake time keeps in order of firing are those whose callbacks the loop keeps,
each once, with handles below the next one. None of them holds a source, and no source on the loop
is the clock's. The handles given away so far are the first ones in counting order, so none was
given twice. Hence a removal fails only for a timer that the loop does not know, and a clock that
the loop has no timers of is destroyed without complaint. -/
theorem registries_agree (run : Reachable m) {r : Registry} {f : FakeTime}
    (found : m.world.clock? c = some ⟨some r, .fake f⟩) :
    f.timers.handles.Nodup ∧ f.timers.handles.Perm r.handles ∧
      (∀ h ∈ r.handles, h.index < r.next) ∧
      (∀ e ∈ r.entries, e.source = none) ∧ (∀ s ∈ m.world.loop.sources, s.clock ≠ c) ∧
      handlesGiven c m.history = TimerHandle.countdown r.next ∧
      (handlesGiven c m.history).Nodup ∧
      (∀ h why,
        ((⟨some r, .fake f⟩ : Clock).removeTimer h m.world.loop).result = .error why →
        why = .breach (.unknownToLoop h) ∧ h ∉ r.handles) ∧
      (∀ why, ((⟨some r, .fake f⟩ : Clock).destroy m.world.loop).result = .error why →
        why = .breach (.destroyedWithTimers r.size) ∧ r.handles ≠ []) := by
  have coherent := run.coherent.world.clocks c _ found
  have distinct := (coherent.fake rfl).1.distinct
  obtain ⟨numbered, same⟩ := coherent.registered
  obtain ⟨tokenless, sourceless⟩ :=
    run.hostReachable.accounted.wired.sourceless run.coherent.world found
  have given : handlesGiven c m.history = TimerHandle.countdown r.next := run.handlesGiven_eq found
  refine ⟨distinct, same, numbered.lt_next, tokenless, sourceless, given, ?_, ?_, ?_⟩
  · rw [given]
    exact TimerHandle.nodup_countdown _
  · intro h why failed
    cases ((Clock.failsAtomically_removeTimer coherent "" h).error_iff why).mp failed with
    | removeUnlooped unlooped => cases unlooped
    | removeUnregistered looped unregistered =>
      cases looped
      exact ⟨rfl, unregistered⟩
  · intro why failed
    cases ((Clock.failsAtomically_destroy coherent).error_iff why).mp failed with
    | destroyInUse looped inUse =>
      cases looped
      rw [Registry.size_eq_length_handles] at inUse
      exact ⟨rfl, List.ne_nil_of_length_pos inUse⟩

/-- In the callback of a timer, after it removed another one and added a new one: the two tables
keep the same timers in different orders, and the handle that was taken back is not given again. -/
theorem registries_agree_in_callback :
    ∃ m r f, Reachable m ∧ m.stage = .running (.timer 0 ⟨1⟩ (.ofMillis 2)) [.mode 0] ∧
      m.world.clock? 0 = some ⟨some r, .fake f⟩ ∧
      f.timers.handles = [⟨1⟩, ⟨3⟩, ⟨0⟩] ∧ r.handles = [⟨0⟩, ⟨1⟩, ⟨3⟩] ∧
      f.timers.handles.Perm r.handles ∧
      handlesGiven 0 m.history = [⟨3⟩, ⟨2⟩, ⟨1⟩, ⟨0⟩] ∧ (handlesGiven 0 m.history).Nodup := by
  have run := (reachable_ofCalls [.new .fake true, .add 0 "late" [] false,
    .add 0 "early" [[.remove 0 "other", .add 0 "new" [] false, .mode 0]] false,
    .add 0 "other" [] false, .update 0 "late" 5, .update 0 "early" 2,
    .advance 0 (.ofMillis 3)]).turn rfl 4
  obtain ⟨m, r, f, run, stage, found, order, entries, given⟩ :
      ∃ m r f, Reachable m ∧ m.stage = .running (.timer 0 ⟨1⟩ (.ofMillis 2)) [.mode 0] ∧
        m.world.clock? 0 = some ⟨some r, .fake f⟩ ∧
        f.timers.handles = [⟨1⟩, ⟨3⟩, ⟨0⟩] ∧ r.handles = [⟨0⟩, ⟨1⟩, ⟨3⟩] ∧
        handlesGiven 0 m.history = [⟨3⟩, ⟨2⟩, ⟨1⟩, ⟨0⟩] :=
    ⟨_, _, _, run, rfl, rfl, rfl, rfl, rfl⟩
  obtain ⟨_, same, _, _, _, _, once, _⟩ := registries_agree run found
  exact ⟨m, r, f, run, stage, found, order, entries, same, given, once⟩

end Moment

end VirtualClock
