import VirtualClock.Proofs.RealTime.Lapsing
import VirtualClock.Proofs.Simulation.Settling

/-!
Real and fake timers behave alike. One script of timers, run on a clock on real time and on a clock
on fake time, makes the same timers fire at the same times, whether an ideal host lets time pass or
fake time is advanced; and it leaves the same timers armed with the same time to go.
-/

namespace VirtualClock

theorem Op.AdjustsOn.within {c : Nat} {op : Op} (adjusts : op.AdjustsOn c) :
    op.Within c fun _ => True := by
  obtain ⟨adjusts, about⟩ := adjusts
  cases adjusts with
  | update d timer delay =>
    cases about
    exact .update delay trivial
  | remove d timer =>
    cases about
    exact .remove trivial

theorem Op.Schedules.within {c : Nat} {op : Op} (schedules : op.Schedules c) :
    op.Within c fun _ => True := by
  cases schedules with
  | add timer repeats adjusts =>
    exact .add repeats trivial fun ops script op member => (adjusts ops script op member).within
  | update timer delay => exact .update delay trivial
  | remove timer => exact .remove trivial

/-- The armed timers in firing order, each with the nanoseconds that are left. -/
def EventLoop.remaining (l : EventLoop) : List (TimerHandle × Int) :=
  l.sources.map fun s => (s.handle, (s.deadline : Int) - l.now)

/-- The armed timers in firing order, each with the nanoseconds that are left. -/
def FakeTime.remaining (f : FakeTime) : List (TimerHandle × Int) :=
  f.timers.alarms.filterMap fun p => p.2.map fun d => (p.1, (d.nanos : Int) - f.now.nanos)

theorem EventLoop.Timed.remaining_eq {epoch c : Nat} {arming : TimerHandle → Option Arming}
    {l : EventLoop} {f : FakeTime} (timed : l.Timed epoch c arming)
    (ranked : TimerList.Ranked f.timers.alarms arming) (now : l.now = epoch + f.now.nanos) :
    l.remaining = f.remaining := by
  have same : l.sources.map (·.alarm epoch) = f.timers.alarms.filter (·.2.isSome) :=
    timed.ranked.eq_of_armed ranked.filter_isSome timed.isSome_alarm
      fun _ member => (List.mem_filter.mp member).2
  let left (p : TimerHandle × Option Duration) : Option (TimerHandle × Int) :=
    p.2.map fun d => (p.1, (d.nanos : Int) - f.now.nanos)
  calc l.remaining
      = l.sources.filterMap fun s => left (s.alarm epoch) := by
        rw [EventLoop.remaining, ← List.filterMap_eq_map]
        refine List.filterMap_congr fun s member => ?_
        obtain ⟨d, deadline⟩ := timed.inReach s member
        simp only [Function.comp_apply, left, Source.alarm_eq deadline, Option.map_some, deadline,
          now]
        congr 2
        omega
    _ = (f.timers.alarms.filter (·.2.isSome)).filterMap left := by
        rw [← same, List.filterMap_map]
        rfl
    _ = f.remaining := by
        rw [List.filterMap_filter]
        refine List.filterMap_congr fun p _ => ?_
        obtain ⟨h, trigger⟩ := p
        cases trigger <;> rfl

theorem Event.clock?_of_stamp? {c : Nat} {e : Event} {p : TimerHandle × Duration}
    (stamp : e.stamp? c = some p) : e.clock? = some c := by
  unfold stamp? at stamp
  split at stamp
  · next d h now =>
    split at stamp
    · next same => exact congrArg some same
    · cases stamp
  · cases stamp

namespace Moment

/-- A clock with a loop is made at host time `epoch`, and a script is run at once. -/
def setUp (mode : Mode) (epoch : Nat) (script : List Op) : Moment :=
  script.foldl call ((({} : Moment).pass epoch).call (.new mode true))

end Moment

namespace Simulator

variable {s : Simulator} {m : Moment} {epoch : Nat} {target : Duration} {ops : List Op}

theorem Follows.calls (run : m.Reachable) (rest : m.stage = .rest)
    (follows : s.Follows epoch m.world) (early : s.now.nanos < 2 ^ 63 * nanosPerSecond)
    (ahead : m.world.loop.expired = []) (schedules : ∀ op ∈ ops, op.Schedules s.clock) :
    (ops.foldl Moment.call m).Reachable ∧ (ops.foldl Moment.call m).stage = .rest ∧
      (s.execAll ops).Follows epoch (ops.foldl Moment.call m).world ∧
      (ops.foldl Moment.call m).world.loop.expired = [] := by
  induction ops generalizing s m with
  | nil => exact ⟨run, rest, follows, ahead⟩
  | cons op ops ih =>
    obtain ⟨executed, fewer⟩ := follows.exec run.hostReachable.accounted.wired early
      (schedules op List.mem_cons_self)
    rw [ahead] at fewer
    refine ih (s := s.execLogged op) (run.tail (.call op rest)) rest (executed.apart _ _ _)
      ((s.now_exec op).symm ▸ early) (List.sublist_nil.mp fewer) fun op' member => ?_
    rw [clock_execLogged]
    exact schedules op' (List.mem_cons_of_mem op member)

/-- The simulator of a clock that was just made. -/
def blank : Simulator where
  clock := 0
  now := .zero
  target := none
  registry := {}
  arming _ := none
  changes := 1
  names := []

theorem follows_blank (epoch : Nat) :
    blank.Follows epoch ((({} : Moment).pass epoch).call (.new .real true)).world := by
  refine ⟨⟨{}, rfl, rfl⟩, rfl, rfl, ⟨rfl, rfl, ?_, ?_, ?_, .nil⟩, ?_, ?_⟩
  · intro s member
    cases member
  · intro s member
    cases member
  · intro h d
    refine iff_of_false (fun member => ?_) ?_
    · cases member
    · rintro ⟨a, live, _⟩
      cases live
  · intro h a live
    cases live
  · intro e member
    cases member

theorem tracks_blank (epoch : Nat) :
    ∃ base, blank.Tracks 0 (fun _ => True) base
        ((({} : Moment).pass epoch).call (.new .fake true)) ∧
      base.filterMap (Event.stamp? 0) = [] := by
  let m : Moment := (({} : Moment).pass epoch).call (.new .fake true)
  have run : m.Reachable :=
    (Relation.ReflTransGen.single (.pass epoch rfl)).tail (.call (.new .fake true) rfl)
  have confined : m.world.Confined 0 fun _ => True := by
    refine ⟨fun d k found => ?_, fun i member => ?_⟩
    · cases d with
      | zero =>
        cases found
        rintro r ⟨⟩ e member
        cases member
      | succ d => cases found
    · cases member
  exact ⟨_, run.tracks rfl (r := {}) (f := {}) rfl confined, rfl⟩

section setUp

variable {script : List Op}

theorem follows_setUp (schedules : ∀ op ∈ script, op.Schedules 0) (epoch : Nat) :
    (Moment.setUp .real epoch script).Reachable ∧ (Moment.setUp .real epoch script).stage = .rest ∧
      (blank.execAll script).Follows epoch (Moment.setUp .real epoch script).world ∧
      (Moment.setUp .real epoch script).world.loop.expired = [] := by
  have start : ((({} : Moment).pass epoch).call (.new .real true)).Reachable :=
    (Relation.ReflTransGen.single (.pass epoch rfl)).tail (.call (.new .real true) rfl)
  exact (follows_blank epoch).calls start rfl (by decide) rfl schedules

theorem tracks_setUp (schedules : ∀ op ∈ script, op.Schedules 0) (epoch : Nat) (span : Duration) :
    ∃ past base,
      (((blank.execAll script).fresh.toward span).onto past).Tracks 0 (fun _ => True) base
        ((Moment.setUp .fake epoch script).call (.advance 0 span)) ∧
      (past ++ base).filterMap (Event.stamp? 0) = [] := by
  obtain ⟨base, tracks, unfired⟩ := tracks_blank epoch
  have tracks := (tracks.calls fun op member => (schedules op member).within).advance span
  have sum : (blank.execAll script).now.add? span = some span := by
    rw [now_execAll, Duration.add?_eq_some_iff]
    exact (Nat.zero_add _).symm
  have quiet : (blank.execAll script).events.filterMap (Event.stamp? 0) = [] :=
    filterMap_events_execAll (fun _ _ _ _ => rfl) blank script
  rw [execLogged_advance sum] at tracks
  refine ⟨_, base, tracks, ?_⟩
  rw [List.filterMap_append, unfired, List.append_nil, List.filterMap_cons_none rfl, quiet]

theorem Tracks.stamps_eq {own : String → Prop} {past base : List Event}
    (tracks : (s.onto past).Tracks 0 own base m)
    (unfired : (past ++ base).filterMap (Event.stamp? 0) = []) :
    m.history.filterMap (Event.stamp? 0) = s.stamps := by
  have clock : s.clock = 0 := tracks.clock
  rw [tracks.filterMap_history fun _ _ stamp => Event.clock?_of_stamp? stamp, onto,
    ← List.filterMap_append, List.append_assoc, List.filterMap_append, unfired, List.append_nil,
    stamps, clock]

end setUp

theorem Paced.of_start (adjusts : s.registry.Runs Op.Adjusts) (now : s.now = .zero)
    (target : Duration) : (s.fresh.toward target).Paced .zero target s.registry.handles := by
  have least (d : Duration) : Duration.zero ≤ d := Nat.zero_le _
  refine ⟨rfl, adjusts, least _, now.symm ▸ least _, fun _ => id, ?_, ?_, ?_, ?_⟩
  · intro h member
    cases member
  · intro h _ a _
    exact now.symm ▸ least _
  · intro h member
    cases member
  · intro h _ a _
    change 0 + 0 * nanosPerMilli ≤ a.trigger.nanos
    rw [Nat.zero_mul]
    exact Nat.zero_le _

end Simulator

namespace Moment

open Simulator

/-- Run one script on two clocks with a loop, one on real time, at host time `epoch`, and one on
fake time, which then advances by `span`, less than half of all fake time. The script adds, moves
and removes timers, and the callbacks of the timers move and remove timers of the clock. Then an
ideal host comes to `epoch + span`, and the clock on fake time settles; and however that goes, the
same timers fire in the same order, each as long after `epoch` as fake time tells for the other
clock, the same timers are registered, with as many firings behind them, and the same timers are
armed, with the same time to go. For timers that are due at one instant this rests on the order in
which the loop keeps sources with equal deadlines (`EventLoop.sources`), which another host's loop
need not keep. -/
theorem real_as_fake {script : List Op} (schedules : ∀ op ∈ script, op.Schedules 0) (epoch : Nat)
    {span : Duration} (early : span.nanos < 2 ^ 63 * nanosPerSecond) :
    let real := setUp .real epoch script
    let fake := (setUp .fake epoch script).call (.advance 0 span)
    (∃ fired m, real.Lapses 0 (epoch + span.nanos) fired m) ∧ (∃ m, fake.Settles 0 m) ∧
    ∀ fired m₁ m₂, real.Lapses 0 (epoch + span.nanos) fired m₁ → fake.Settles 0 m₂ →
      fired = ((m₂.history.filterMap (Event.stamp? 0)).reverse.map fun p =>
        (p.1, epoch + p.2.nanos)) ∧
      ∃ r₁ r₂ f, m₁.world.clock? 0 = some ⟨some r₁, .real⟩ ∧
        m₂.world.clock? 0 = some ⟨some r₂, .fake f⟩ ∧ r₁.unsourced = r₂ ∧ f.now = span ∧
        m₁.world.loop.now = epoch + span.nanos ∧ m₁.world.loop.remaining = f.remaining := by
  intro real fake
  obtain ⟨run, rest, follows, ahead⟩ := follows_setUp schedules epoch
  obtain ⟨past, base, tracks, unfired⟩ := tracks_setUp schedules epoch span
  let s : Simulator := (blank.execAll script).fresh.toward span
  have follows : s.Follows epoch real.world := follows.apart _ _ _
  have clock : s.clock = 0 := blank.clock_execAll script
  have now : s.now = .zero := blank.now_execAll script
  have paced : s.Paced .zero span (blank.execAll script).registry.handles :=
    .of_start (fun e member ops mine op among => (follows.adjusts e member ops mine op among).1) now
      span
  obtain ⟨n, _, _, settled, _⟩ := paced.exists_settled
  obtain ⟨fired, m₁, lapses, follows₁, stamps⟩ :=
    follows.exists_lapses run rest paced.bound paced.now_le_finish early ahead settled
  rw [clock] at lapses
  refine ⟨⟨fired, m₁, lapses⟩, ?_, ?_⟩
  · rw [← target_steps_onto _ past] at settled
    obtain ⟨m₂, settles, _⟩ := tracks.exists_settles settled
    exact ⟨m₂, settles⟩
  · intro fired' m₁' m₂ lapses' settles
    obtain ⟨rfl, rfl⟩ := lapses.unique lapses'
    -- the clock on fake time settles in the same state of the simulator
    obtain ⟨k, settled₂, tracks₂⟩ := tracks.of_settles settles
    rw [steps_onto] at settled₂ tracks₂
    rw [steps_eq_of_settled (m := k) settled₂ settled] at tracks₂
    obtain ⟨r, found, registry⟩ := follows₁.clock
    obtain ⟨f, found', agrees⟩ := tracks₂.mirrors.reflects.clock
    have number : (s.steps (n + 1)).clock = 0 := (s.clock_steps (n + 1)).trans clock
    have time : (s.steps (n + 1)).now = span :=
      (paced.bound.steps_toward (Nat.le_refl _) settled).1
    have arrived := follows₁.now
    rw [number] at found
    rw [time] at arrived
    have agreed : span = f.now := time.symm.trans agrees.now
    refine ⟨?_, r, _, f, found, number ▸ found', registry, agreed.symm, arrived, ?_⟩
    · rw [tracks₂.stamps_eq unfired]
      exact stamps.symm
    · exact follows₁.timed.remaining_eq agrees.ranked (agreed ▸ arrived)

/-- A timer that arms itself anew every 2 ms, for 5 ms. -/
theorem real_as_fake_rearming :
    ∃ fired m₁ m₂,
      (setUp .real 7 [.add 0 "tick" [[.update 0 "tick" 2]] true, .update 0 "tick" 2]).Lapses 0
        5000007 fired m₁ ∧
      ((setUp .fake 7 [.add 0 "tick" [[.update 0 "tick" 2]] true, .update 0 "tick" 2]).call
        (.advance 0 (.ofMillis 5))).Settles 0 m₂ ∧
      fired = [(⟨0⟩, 2000007), (⟨0⟩, 4000007)] ∧
      (⟨0⟩, 1000000) ∈ m₁.world.loop.remaining := by
  have schedules : ∀ op ∈ [Op.add 0 "tick" [[.update 0 "tick" 2]] true, .update 0 "tick" 2],
      op.Schedules 0 := by
    intro op member
    simp only [List.mem_cons, List.not_mem_nil, or_false] at member
    rcases member with rfl | rfl
    · refine .add "tick" true fun ops script op member => ?_
      cases List.mem_singleton.mp script
      cases List.mem_singleton.mp member
      exact ⟨.update 0 "tick" 2, rfl⟩
    · exact .update "tick" 2
  obtain ⟨⟨fired, m₁, lapses⟩, _, alike⟩ :=
    real_as_fake schedules 7 (show (Duration.ofMillis 5).nanos < _ by decide)
  obtain ⟨past, base, tracks, unfired⟩ := tracks_setUp schedules 7 (.ofMillis 5)
  obtain ⟨s, at_⟩ : ∃ s : Simulator, s = (blank.execAll [.add 0 "tick" [[.update 0 "tick" 2]] true,
      .update 0 "tick" 2]).fresh.toward (.ofMillis 5) := ⟨_, rfl⟩
  have settled : (s.steps 3).target = none := by
    rw [at_]
    decide
  rw [← at_] at tracks
  rw [← target_steps_onto _ past] at settled
  obtain ⟨m₂, settles, tracks₂⟩ := tracks.exists_settles settled
  rw [steps_onto] at tracks₂
  obtain ⟨same, r₁, r₂, f, _, found, _, now, _, remaining⟩ := alike fired m₁ m₂ lapses settles
  refine ⟨fired, m₁, m₂, lapses, settles, ?_, ?_⟩
  · rw [same, tracks₂.stamps_eq unfired, at_]
    decide
  · obtain ⟨f', found', agrees⟩ := tracks₂.mirrors.reflects.clock
    rw [tracks₂.clock] at found'
    cases found.symm.trans found'
    have arming : (s.steps 3).arming ⟨0⟩ = some ⟨.ofMillis 6, 5⟩ := by
      rw [at_]
      decide
    have armed : (⟨0⟩, some (.ofMillis 6)) ∈ f.timers.alarms :=
      agrees.ranked.armed arming
    rw [remaining]
    refine List.mem_filterMap.mpr ⟨_, armed, ?_⟩
    rw [now]
    decide

end Moment

end VirtualClock
