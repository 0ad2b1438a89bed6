import VirtualClock.Proofs.History.Registrations

/-!
Handles as capabilities. Updates and removals go through for the handles that a clock has given
away and not taken back, and for no others. A handle is no more than its number, though: one that
another clock gave away stands for the clock's own timer of the same number. And an update looks at
its delay first, so one that is too long for fake time is refused whatever the handle.
-/

namespace VirtualClock

namespace Clock

/-- Whether an update by that delay is past the last time there is. -/
def Late (k : Clock) (delay : Int32) : Prop := ∃ f, k.source = .fake f ∧ f.Overflows delay

variable {k : Clock} {c : Nat} {timer : String} {delay : Int32} {h : TimerHandle} {why : Failure}

theorem fails_update_of_late (late : k.Late delay) :
    k.Fails (.update c timer delay) (some h) (.refused .timeOverflow) := by
  obtain ⟨f, fake, overflows⟩ := late
  exact .updateOverflows fake overflows

theorem exists_breach_update (unknown : ¬k.Registers h) (inTime : ¬k.Late delay) :
    ∃ what, k.Fails (.update c timer delay) (some h) (.breach what) := by
  cases source : k.source with
  | fake f => exact ⟨_, .updateUnknown source (fun late => inTime ⟨f, source, late⟩) unknown⟩
  | real =>
    cases registry : k.registry with
    | none => exact ⟨_, .updateUnlooped source registry⟩
    | some r =>
      exact ⟨_, .updateUnregistered source registry fun member => unknown ⟨r, registry, member⟩⟩

theorem not_fails_update (known : k.Registers h) (inTime : ¬k.Late delay) :
    ¬k.Fails (.update c timer delay) (some h) why := by
  obtain ⟨r, registered, member⟩ := known
  intro fails
  cases fails with
  | updateOverflows fake late => exact inTime ⟨_, fake, late⟩
  | updateUnknown _ _ unknown => exact unknown ⟨r, registered, member⟩
  | updateUnlooped _ unlooped => cases registered.symm.trans unlooped
  | updateUnregistered _ looped unregistered =>
    cases registered.symm.trans looped
    exact unregistered member

theorem exists_breach_remove (unknown : ¬k.Registers h) :
    ∃ what, k.Fails (.remove c timer) (some h) (.breach what) := by
  cases registry : k.registry with
  | none => exact ⟨_, .removeUnlooped registry⟩
  | some r => exact ⟨_, .removeUnregistered registry fun member => unknown ⟨r, registry, member⟩⟩

theorem not_fails_remove (known : k.Registers h) : ¬k.Fails (.remove c timer) (some h) why := by
  obtain ⟨r, registered, member⟩ := known
  intro fails
  cases fails with
  | removeUnlooped unlooped => cases registered.symm.trans unlooped
  | removeUnregistered looped unregistered =>
    cases registered.symm.trans looped
    exact unregistered member

end Clock

namespace World

variable {w : World} {c : Nat} {k : Clock} {op : Op} {timer : String} {h : TimerHandle}

theorem onTimer_done_iff {call : Clock → TimerHandle → Reply Unit}
    (found : w.clock? c = some k) (named : w.lookup timer = some h)
    (exec : w.exec op = w.onTimer c timer call) :
    (w.exec op).1 = .done ↔ ∀ why, (w.exec op).1 ≠ .failed why := by
  simp only [exec, onTimer, found, named]
  cases (call k h).result <;> simp [Answer.ofUnit]

theorem Coherent.failsAtomically_update (coherent : w.Coherent) (found : w.clock? c = some k)
    (named : w.lookup timer = some h) (delay : Int32) :
    w.FailsAtomically (.update c timer delay) (k.Fails (.update c timer delay) (some h)) := by
  have atomic : w.FailsAtomically (.update c timer delay)
      (k.Fails (.update c timer delay) (w.lookup timer)) :=
    failsAtomically_exec coherent found rfl
  rwa [named] at atomic

theorem Coherent.failsAtomically_remove (coherent : w.Coherent) (found : w.clock? c = some k)
    (named : w.lookup timer = some h) :
    w.FailsAtomically (.remove c timer) (k.Fails (.remove c timer) (some h)) := by
  have atomic : w.FailsAtomically (.remove c timer)
      (k.Fails (.remove c timer) (w.lookup timer)) := failsAtomically_exec coherent found rfl
  rwa [named] at atomic

theorem Coherent.update_done_iff (coherent : w.Coherent) (found : w.clock? c = some k)
    (named : w.lookup timer = some h) (delay : Int32) :
    (w.exec (.update c timer delay)).1 = .done ↔ k.Registers h ∧ ¬k.Late delay := by
  have atomic := coherent.failsAtomically_update found named delay
  rw [onTimer_done_iff found named rfl]
  constructor
  · intro done
    have inTime : ¬k.Late delay := fun late =>
      done _ ((atomic.failed_iff _).mpr (Clock.fails_update_of_late late))
    refine ⟨?_, inTime⟩
    by_contra unknown
    obtain ⟨what, fails⟩ := Clock.exists_breach_update unknown inTime
    exact done _ ((atomic.failed_iff _).mpr fails)
  · rintro ⟨known, inTime⟩ why failed
    exact Clock.not_fails_update known inTime ((atomic.failed_iff why).mp failed)

theorem Coherent.remove_done_iff (coherent : w.Coherent) (found : w.clock? c = some k)
    (named : w.lookup timer = some h) :
    (w.exec (.remove c timer)).1 = .done ↔ k.Registers h := by
  have atomic := coherent.failsAtomically_remove found named
  rw [onTimer_done_iff found named rfl]
  constructor
  · intro done
    by_contra unknown
    obtain ⟨what, fails⟩ := Clock.exists_breach_remove unknown
    exact done _ ((atomic.failed_iff _).mpr fails)
  · intro known why failed
    exact Clock.not_fails_remove known ((atomic.failed_iff why).mp failed)

end World

namespace Moment

variable {m : Moment} {w : World} {c : Nat} {k : Clock} {timer : String} {h : TimerHandle}

/-- Whatever timers the names stand for, an update or a removal goes through just if its clock gave
the handle away and has not taken it back, and an update only with a delay that is not too long.
Without the handle the call is a breach, but for an update that is refused for its delay first; in
any case the world stays as it is. -/
theorem timer_calls_done_iff_held (run : Reachable m) (clocks : w.clocks = m.world.clocks)
    (loop : w.loop = m.world.loop) (found : w.clock? c = some k)
    (named : w.lookup timer = some h) (delay : Int32) :
    ((w.exec (.update c timer delay)).1 = .done ↔ Held c h m.history ∧ ¬k.Late delay) ∧
    ((w.exec (.remove c timer)).1 = .done ↔ Held c h m.history) ∧
    (¬Held c h m.history →
      (k.Late delay →
        (w.exec (.update c timer delay)).1 = .failed (.refused .timeOverflow)) ∧
      (¬k.Late delay → ∃ what, (w.exec (.update c timer delay)).1 = .failed (.breach what)) ∧
      (∃ what, (w.exec (.remove c timer)).1 = .failed (.breach what)) ∧
      (w.exec (.update c timer delay)).2 = w ∧ (w.exec (.remove c timer)).2 = w) := by
  have coherent : w.Coherent := run.coherent.world.of_eq clocks loop
  have alive : m.world.clock? c = some k := by rwa [World.clock?, ← clocks]
  have held := run.enrolled.registers_iff c k alive h
  have update := coherent.failsAtomically_update found named delay
  have remove := coherent.failsAtomically_remove found named
  rw [← held]
  refine ⟨coherent.update_done_iff found named delay, coherent.remove_done_iff found named,
    fun unknown => ?_⟩
  have late (late : k.Late delay) := (update.failed_iff _).mpr (Clock.fails_update_of_late late)
  have inTime (inTime : ¬k.Late delay) :
      ∃ what, (w.exec (.update c timer delay)).1 = .failed (.breach what) := by
    obtain ⟨what, fails⟩ := Clock.exists_breach_update unknown inTime
    exact ⟨what, (update.failed_iff _).mpr fails⟩
  obtain ⟨what, fails⟩ := Clock.exists_breach_remove unknown
  have removed := (remove.failed_iff _).mpr fails
  refine ⟨late, inTime, ⟨what, removed⟩, ?_, remove.unchanged _ removed⟩
  by_cases isLate : k.Late delay
  · exact update.unchanged _ (late isLate)
  · obtain ⟨what, failed⟩ := inTime isLate
    exact update.unchanged _ failed

/-- An update of a timer that was removed, at the end of time. -/
theorem timer_calls_done_iff_held_late :
    ∃ m k, Reachable m ∧ m.world.clock? 0 = some k ∧ m.world.lookup "tick" = some ⟨0⟩ ∧
      ¬Held 0 ⟨0⟩ m.history ∧ k.Late 1 ∧
      (m.world.exec (.update 0 "tick" 1)).1 = .failed (.refused .timeOverflow) ∧
      (m.world.exec (.update 0 "tick" 1)).2 = m.world := by
  have run := (reachable_ofCalls [.new .fake true, .add 0 "tick" [] false, .remove 0 "tick",
    .advance 0 ⟨Duration.limit - 1, by decide⟩]).turn rfl 3
  obtain ⟨m, r, f, run, found, named, ⟨e, member, taken⟩, now⟩ :
      ∃ m r f, Reachable m ∧ m.world.clock? 0 = some ⟨some r, .fake f⟩ ∧
        m.world.lookup "tick" = some ⟨0⟩ ∧ (∃ e ∈ m.history, e.revokes? 0 = some ⟨0⟩) ∧
        f.now.nanos = Duration.limit - 1 :=
    ⟨_, _, _, run, rfl, rfl, ⟨_, .tail _ (.head _), rfl⟩, rfl⟩
  have stale : ¬Held 0 ⟨0⟩ m.history := fun held => held.kept e member taken
  have late : (⟨some r, .fake f⟩ : Clock).Late 1 := by
    refine ⟨f, rfl, by decide, ?_⟩
    rw [now]
    decide
  obtain ⟨_, _, without⟩ := timer_calls_done_iff_held run rfl rfl found named 1
  obtain ⟨refused, _, _, unchanged, _⟩ := without stale
  exact ⟨m, _, run, found, named, stale, late, refused late, unchanged⟩

/-- What handles do not protect from. The timer "tick" is gone, and yet an update of it is refused
for its delay. The handle of "far" was given away by clock 1, and yet clock 0 takes it for that of
"near" and arms this one. -/
theorem handles_unprotected :
    (∃ m, Reachable m ∧ m.world.lookup "tick" = some ⟨0⟩ ∧
      (∃ e ∈ m.history, e.revokes? 0 = some ⟨0⟩) ∧
      (m.world.exec (.update 0 "tick" 1)).1 = .failed (.refused .timeOverflow)) ∧
    ∃ m f, Reachable m ∧
      m.history.map (fun e => (e.issues? 0, e.issues? 1)) =
        [(none, some ⟨0⟩), (some ⟨0⟩, none), (none, none), (none, none)] ∧
      m.world.names = [("far", ⟨0⟩), ("near", ⟨0⟩)] ∧
      (m.world.exec (.update 0 "far" 5)).1 = .done ∧
      (m.world.exec (.update 0 "far" 5)).2.fakeTime? 0 = some f ∧
      f.timers.alarms = [(⟨0⟩, some (.ofMillis 5))] := by
  constructor
  · have run := (reachable_ofCalls [.new .fake true, .add 0 "tick" [] false, .remove 0 "tick",
      .advance 0 ⟨Duration.limit - 1, by decide⟩]).turn rfl 3
    exact ⟨_, run, rfl, ⟨_, .tail _ (.head _), rfl⟩, rfl⟩
  · have run := reachable_ofCalls [.new .fake true, .new .fake true, .add 0 "near" [] false,
      .add 1 "far" [] false]
    exact ⟨_, _, run, rfl, rfl, rfl, rfl, rfl⟩

end Moment

end VirtualClock
