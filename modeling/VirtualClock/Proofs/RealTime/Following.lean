import VirtualClock.Proofs.RealTime.Deadlines
import VirtualClock.Proofs.Simulation.Pacing

/-!
The simulator follows a clock on real time. Its time is host time counted from a start, its armed
timers are the sources on the loop. As long as fake time does not overflow, adding, moving and
removing timers keeps the two in step.
-/

namespace VirtualClock

/-- Moving or removing a timer of clock `c`. -/
def Op.AdjustsOn (c : Nat) (op : Op) : Prop := op.Adjusts ∧ op.clock? = some c

/-- Adding, moving and removing timers of clock `c`, with callbacks that move and remove timers of
it. -/
inductive Op.Schedules (c : Nat) : Op → Prop where
  | add (timer : String) {fires : List (List Op)} (repeats : Bool) :
    (∀ ops ∈ fires, ∀ op ∈ ops, op.AdjustsOn c) → Schedules c (.add c timer fires repeats)
  | update (timer : String) (delay : Int32) : Schedules c (.update c timer delay)
  | remove (timer : String) : Schedules c (.remove c timer)

theorem Op.AdjustsOn.schedules {c : Nat} {op : Op} (adjusts : op.AdjustsOn c) :
    op.Schedules c := by
  obtain ⟨adjusts, about⟩ := adjusts
  cases adjusts with
  | update d timer delay =>
    cases about
    exact .update timer delay
  | remove d timer =>
    cases about
    exact .remove timer

theorem Duration.exists_after? {now : Duration} (early : now.nanos < 2 ^ 63 * nanosPerSecond)
    {delay : Int32} (positive : 0 < delay.toInt) : ∃ d, now.after? delay = some d := by
  have short := delay.toInt_lt
  refine ⟨⟨now.nanos + delay.toInt.toNat * nanosPerMilli, ?_⟩,
    after?_eq_some_iff.mpr ⟨positive, rfl⟩⟩
  rw [limit_eq]
  unfold nanosPerMilli
  unfold nanosPerSecond at early
  omega

theorem Duration.after?_eq_none {now : Duration} {delay : Int32} (idle : ¬0 < delay.toInt) :
    now.after? delay = none :=
  if_neg idle

namespace EventLoop

theorem now_removeSource? (l : EventLoop) (id : Option Nat) : (l.removeSource? id).now = l.now := by
  cases id <;> rfl

theorem expired_removeSource?_sublist (l : EventLoop) (id : Option Nat) :
    (l.removeSource? id).expired.Sublist l.expired := by
  cases id with
  | none => exact List.Sublist.refl _
  | some n => exact List.Sublist.filter _ List.filter_sublist

theorem expired_insertSource (l : EventLoop) {delay : Nat} (ahead : 0 < delay) (c : Nat)
    (h : TimerHandle) : (l.insertSource delay c h).expired = l.expired := by
  let source : Source := ⟨l.nextSource, l.now + delay, c, h⟩
  let due (s : Source) : Bool := s.deadline ≤ l.now
  let early (s : Source) : Bool := s.deadline ≤ source.deadline
  have late : ¬due source = true := by
    rw [decide_eq_true_eq]
    change ¬l.now + delay ≤ l.now
    omega
  change (l.sources.takeWhile early ++ source :: l.sources.dropWhile early).filter due =
    l.sources.filter due
  rw [List.filter_append, List.filter_cons_of_neg late, ← List.filter_append,
    List.takeWhile_append_dropWhile]

end EventLoop

namespace Simulator

variable {s s' : Simulator} {w : World} {epoch : Nat} {h : TimerHandle} {op : Op}

@[simp] theorem now_exec (s : Simulator) (op : Op) : (s.exec op).2.now = s.now := by
  cases op <;> simp only [exec, update, remove] <;> repeat' split
  all_goals rfl

theorem now_execAll (s : Simulator) (ops : List Op) : (s.execAll ops).now = s.now := by
  induction ops generalizing s with
  | nil => rfl
  | cons op ops ih => exact (ih (s.execLogged op)).trans (s.now_exec op)

/-- The simulator has the registered timers, the names and the armings of a clock on real time, and
its time is host time since `epoch`. -/
structure Follows (epoch : Nat) (s : Simulator) (w : World) : Prop where
  clock : ∃ r, w.clock? s.clock = some ⟨some r, .real⟩ ∧ r.unsourced = s.registry
  names : w.names = s.names
  now : w.loop.now = epoch + s.now.nanos
  timed : w.loop.Timed epoch s.clock s.arming
  latest : ∀ h a, s.arming h = some a → a.index < s.changes
  adjusts : s.registry.Runs (Op.AdjustsOn s.clock)

namespace Follows

/-- Neither the target and the events of the simulator nor the log of the world matter. -/
theorem apart (follows : s.Follows epoch w) (target : Option Duration) (events : List Event)
    (log : List LogEntry) : ({ s with target, events } : Simulator).Follows epoch { w with log } :=
  ⟨follows.clock, follows.names, follows.now, follows.timed, follows.latest, follows.adjusts⟩

theorem rearm (follows : s.Follows epoch w) (h : TimerHandle) (trigger : Option Duration)
    {r registry : Registry} (unsourced : r.unsourced = registry) {l : EventLoop}
    (timed : l.Timed epoch s.clock (s.rearm h trigger).arming) (now : l.now = w.loop.now)
    (adjusts : registry.Runs (Op.AdjustsOn s.clock)) :
    ({ s.rearm h trigger with registry } : Simulator).Follows epoch
      (w.accept s.clock (⟨.ok (), ⟨some r, .real⟩, l⟩ : Reply Unit)) := by
  obtain ⟨_, found, _⟩ := follows.clock
  exact ⟨⟨r, World.clock?_accept found _, unsourced⟩, follows.names, now.trans follows.now, timed,
    index_lt_of_rearm follows.latest, adjusts⟩

theorem fail (follows : s.Follows epoch w) {k : Clock} (found : w.clock? s.clock = some k)
    {reply : Reply Unit} (clock : reply.clock = k) (loop : reply.loop = w.loop) :
    s.Follows epoch (w.accept s.clock reply) := by
  have same : (w.accept s.clock reply).clock? s.clock = w.clock? s.clock :=
    (World.clock?_accept found reply).trans ((congrArg some clock).trans found.symm)
  have kept : (w.accept s.clock reply).loop = w.loop := loop
  exact ⟨same ▸ follows.clock, follows.names, kept ▸ follows.now, kept ▸ follows.timed,
    follows.latest, follows.adjusts⟩

theorem mem_handles (follows : s.Follows epoch w) {r : Registry}
    (found : w.clock? s.clock = some ⟨some r, .real⟩) : h ∈ s.registry.handles ↔ h ∈ r.handles := by
  obtain ⟨_, found', registry⟩ := follows.clock
  cases found.symm.trans found'
  rw [← registry, Registry.handles_unsourced]

section entry

variable {r : Registry} {e : Registration}

theorem timed_disarmed (follows : s.Follows epoch w) (wired : w.Wired)
    (found : w.clock? s.clock = some ⟨some r, .real⟩) (entry : r.find? h = some e) :
    (w.loop.removeSource? e.source).Timed epoch s.clock (s.rearm h none).arming := by
  have held : w.source? s.clock h = e.source := by
    rw [World.source?_of_clock? found]
    exact Clock.source?_of_find? rfl entry
  rw [← held]
  exact follows.timed.disarm wired (by simp [found]) h s.changes

theorem timed_armed (follows : s.Follows epoch w) (wired : w.Wired)
    (found : w.clock? s.clock = some ⟨some r, .real⟩) (entry : r.find? h = some e) {d : Duration}
    {delay : Nat} (ahead : d.nanos = s.now.nanos + delay) :
    ((w.loop.removeSource? e.source).insertSource delay s.clock h).Timed epoch s.clock
      (s.rearm h (some d)).arming := by
  have disarmed := follows.timed_disarmed wired found entry
  have latest : ∀ g a, (s.rearm h none).arming g = some a → a.index < s.changes := by
    intro g a live
    simp only [Simulator.rearm, VirtualClock.rearm] at live
    split at live
    · cases live
    · exact follows.latest g a live
  have deadline : (w.loop.removeSource? e.source).now + delay = epoch + d.nanos := by
    rw [EventLoop.now_removeSource?, follows.now, ahead, Nat.add_assoc]
  have twice : VirtualClock.rearm (s.rearm h none).arming s.changes (some (h, some d)) =
      (s.rearm h (some d)).arming := by
    funext g
    simp only [VirtualClock.rearm, Simulator.rearm]
    split <;> rfl
  exact twice ▸ disarmed.arm (by simp [Simulator.rearm, VirtualClock.rearm]) latest deadline

end entry

theorem update (follows : s.Follows epoch w) (wired : w.Wired)
    (early : s.now.nanos < 2 ^ 63 * nanosPerSecond) (timer : String) (delay : Int32) :
    (s.exec (.update s.clock timer delay)).2.Follows epoch
        (w.exec (.update s.clock timer delay)).2 ∧
      (w.exec (.update s.clock timer delay)).2.loop.expired.Sublist w.loop.expired := by
  obtain ⟨r, found, registry⟩ := follows.clock
  have fits : ¬(0 < delay.toInt ∧ s.now.after? delay = none) := by
    rintro ⟨positive, overflow⟩
    obtain ⟨d, asked⟩ := Duration.exists_after? early positive
    cases overflow.symm.trans asked
  simp only [World.exec, World.onTimer, found, exec, World.lookup, follows.names]
  cases s.names.lookup timer with
  | none => exact ⟨follows, List.Sublist.refl _⟩
  | some h =>
    simp only [Clock.updateTimer, Clock.updateReal]
    cases entry : r.find? h with
    | none =>
      have unknown := (follows.mem_handles found).not.mpr (Registry.find?_eq_none_iff.mp entry)
      rw [s.update_of_not_mem fits unknown]
      exact ⟨follows.fail found rfl rfl, List.Sublist.refl _⟩
    | some e =>
      have member : h ∈ r.handles := Registry.find?_isSome_iff.mp (by simp [entry])
      have fewer := w.loop.expired_removeSource?_sublist e.source
      rw [s.update_of_mem fits ((follows.mem_handles found).mpr member)]
      by_cases positive : 0 < delay.toInt
      · obtain ⟨d, asked⟩ := Duration.exists_after? early positive
        obtain ⟨_, sum⟩ := Duration.after?_eq_some_iff.mp asked
        have ahead : 0 < delay.toInt.toNat * nanosPerMilli := by
          unfold nanosPerMilli
          omega
        have moved := follows.rearm h (some d)
          ((r.unsourced_setSource h (some w.loop.nextSource)).trans registry)
          (follows.timed_armed wired found entry sum) (EventLoop.now_removeSource? ..)
          follows.adjusts
        simp only [if_pos positive, asked, EventLoop.nextSource_removeSource?]
        exact ⟨moved.apart _ _ _, (EventLoop.expired_insertSource _ ahead s.clock h).symm ▸ fewer⟩
      · have moved := follows.rearm h none ((r.unsourced_setSource h none).trans registry)
          (follows.timed_disarmed wired found entry) (EventLoop.now_removeSource? ..)
          follows.adjusts
        simp only [if_neg positive, Duration.after?_eq_none positive]
        exact ⟨moved.apart _ _ _, fewer⟩

theorem remove (follows : s.Follows epoch w) (wired : w.Wired) (timer : String) :
    (s.exec (.remove s.clock timer)).2.Follows epoch (w.exec (.remove s.clock timer)).2 ∧
      (w.exec (.remove s.clock timer)).2.loop.expired.Sublist w.loop.expired := by
  obtain ⟨r, found, registry⟩ := follows.clock
  simp only [World.exec, World.onTimer, found, exec, World.lookup, follows.names]
  cases s.names.lookup timer with
  | none => exact ⟨follows, List.Sublist.refl _⟩
  | some h =>
    simp only [Clock.removeTimer]
    cases entry : r.find? h with
    | none =>
      have unknown := (follows.mem_handles found).not.mpr (Registry.find?_eq_none_iff.mp entry)
      rw [s.remove_of_not_mem unknown]
      exact ⟨follows.fail found rfl rfl, List.Sublist.refl _⟩
    | some e =>
      have member : h ∈ r.handles := Registry.find?_isSome_iff.mp (by simp [entry])
      have erased : (r.erase h).unsourced = s.registry.erase h := by
        rw [Registry.unsourced_erase, registry]
      rw [s.remove_of_mem ((follows.mem_handles found).mpr member)]
      exact ⟨follows.rearm h none erased (follows.timed_disarmed wired found entry)
        (EventLoop.now_removeSource? ..) (follows.adjusts.erase h),
        w.loop.expired_removeSource?_sublist e.source⟩

theorem add (follows : s.Follows epoch w) (timer : String) {fires : List (List Op)}
    (repeats : Bool) (adjusts : ∀ ops ∈ fires, ∀ op ∈ ops, op.AdjustsOn s.clock) :
    (s.exec (.add s.clock timer fires repeats)).2.Follows epoch
        (w.exec (.add s.clock timer fires repeats)).2 ∧
      (w.exec (.add s.clock timer fires repeats)).2.loop.expired.Sublist w.loop.expired := by
  obtain ⟨r, found, registry⟩ := follows.clock
  have next : r.next = s.registry.next :=
    r.next_unsourced.symm.trans (congrArg Registry.next registry)
  simp only [World.exec, World.addTimer, found, exec, Clock.addTimer]
  refine ⟨⟨⟨_, World.clock?_accept found _, ?_⟩, ?_, follows.now, follows.timed, follows.latest,
    follows.adjusts.add adjusts⟩, List.Sublist.refl _⟩
  · rw [Registry.unsourced_add, registry]
  · simp only [next]
    exact congrArg _ follows.names

/-- An operation that adds, moves or removes timers; no timer is due at once. -/
theorem exec (follows : s.Follows epoch w) (wired : w.Wired)
    (early : s.now.nanos < 2 ^ 63 * nanosPerSecond) (fine : op.Schedules s.clock) :
    (s.exec op).2.Follows epoch (w.exec op).2 ∧
      (w.exec op).2.loop.expired.Sublist w.loop.expired := by
  cases fine with
  | add timer repeats adjusts => exact follows.add timer repeats adjusts
  | update timer delay => exact follows.update wired early timer delay
  | remove timer => exact follows.remove wired timer

end Follows

end Simulator

end VirtualClock
