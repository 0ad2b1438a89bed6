import VirtualClock.Proofs.RealTime.Expiring

/-!
An ideal host: its operations take no time, and it dispatches exactly when the earliest deadline
comes. With it a clock on real time does what the simulator does on its way to a target.
-/

namespace VirtualClock

namespace Moment

theorem Reachable.pass_turn {m : Moment} (run : m.Reachable) (rest : m.stage = .rest) (t : Nat) :
    (m.pass t).turn.Reachable :=
  (run.tail (.pass t rest)).tail (.turn rest)

/-- The run of an ideal host up to host time `limit`: as long as there is a deadline up to it, time
passes to the earliest one and the loop dispatches; then time passes to `limit`. The timers of clock
`c` that fire are listed with the host time. -/
inductive Lapses (c limit : Nat) : Moment → List (TimerHandle × Nat) → Moment → Prop where
  | done {m : Moment} :
    m.stage = .rest → m.world.loop.now ≤ limit →
    (∀ s ∈ m.world.loop.sources, limit < s.deadline) → Lapses c limit m [] (m.pass limit)
  | next {m m' m'' : Moment} {s : Source} {events : List Event}
    {fired : List (TimerHandle × Nat)} :
    m.stage = .rest → s ∈ m.world.loop.sources →
    (∀ t ∈ m.world.loop.sources, s.deadline ≤ t.deadline) →
    m.world.loop.now ≤ s.deadline → s.deadline ≤ limit →
    (m.pass s.deadline).turn.Proceeds m' → m'.stage = .rest →
    m'.history = events ++ m.history → Lapses c limit m' fired m'' →
    Lapses c limit m
      ((events.filterMap (Event.expires? c)).reverse.map (·, s.deadline) ++ fired) m''

variable {m m' m'' : Moment} {c limit : Nat} {fired fired' : List (TimerHandle × Nat)}

theorem Lapses.unique (first : m.Lapses c limit fired m') (second : m.Lapses c limit fired' m'') :
    fired = fired' ∧ m' = m'' := by
  induction first generalizing fired' m'' with
  | done _ _ later =>
    cases second with
    | done => exact ⟨rfl, rfl⟩
    | next _ member _ _ le => exact absurd le (Nat.not_le_of_lt (later _ member))
  | @next m m₁ _ s events fired rest member least _ le dispatch rest₁ history onward ih =>
    cases second with
    | done _ _ later => exact absurd le (Nat.not_le_of_lt (later _ member))
    | @next _ m₁' _ s' events' fired' _ member' least' _ _ dispatch' rest₁' history' onward' =>
      have same : s.deadline = s'.deadline :=
        Nat.le_antisymm (least s' member') (least' s member)
      rw [← same] at dispatch'
      cases dispatch.eq_of_rest rest₁ dispatch' rest₁'
      obtain ⟨rfl, rfl⟩ := ih onward'
      cases List.append_cancel_right (history.symm.trans history')
      rw [same]
      exact ⟨rfl, rfl⟩

end Moment

namespace Simulator

variable {s : Simulator} {w : World} {epoch : Nat} {target : Duration}

theorem Bound.step_at (bound : s.Bound target) (now : Duration) :
    ({ s with now } : Simulator).step = s.step := by
  obtain ⟨clock, _, _, registry, arming, changes, names, events⟩ := s
  cases bound.target
  exact Simulator.step_at _ now target

theorem Bound.steps_at (bound : s.Bound target) (now : Duration) {n : Nat} (some : 0 < n) :
    ({ s with now } : Simulator).steps n = s.steps n := by
  obtain ⟨k, rfl⟩ := Nat.exists_eq_add_of_lt some
  rw [steps_succ, bound.step_at, steps_succ]

theorem Bound.lt_of_settled {k n : Nat} (bound : (s.steps k).Bound target)
    (settled : (s.steps n).target = none) : k < n := by
  by_contra late
  obtain ⟨j, rfl⟩ := Nat.exists_eq_add_of_le (Nat.not_lt.mp late)
  have stays := bound.target
  rw [steps_add, steps_of_settled settled, settled] at stays
  cases stays

/-- The simulator's firings as host time has them, the earliest first. -/
def hostStamps (epoch : Nat) (s : Simulator) : List (TimerHandle × Nat) :=
  s.stamps.reverse.map fun p => (p.1, epoch + p.2.nanos)

namespace Follows

theorem pass (follows : s.Follows epoch w) (now : Duration) (target : Option Duration) :
    ({ s with now, target } : Simulator).Follows epoch (w.passTo (epoch + now.nanos)) := by
  obtain ⟨clock, names, _, timed, latest, adjusts⟩ := follows
  exact ⟨clock, names, rfl, ⟨timed.batch, timed.queue, timed.own, timed.inReach, timed.ranked⟩,
    latest, adjusts⟩

theorem proceeds_deadline {m : Moment} (run : m.Reachable) (rest : m.stage = .rest)
    (follows : s.Follows epoch m.world) (bound : s.Bound target)
    (early : target.nanos < 2 ^ 63 * nanosPerSecond) {x : Source} {later : List Source}
    (sources : m.world.loop.sources = x :: later) (due : x.deadline ≤ epoch + target.nanos) :
    ∃ n m' events, 0 < n ∧ (m.pass x.deadline).turn.Proceeds m' ∧ m'.stage = .rest ∧
      m'.history = events ++ m.history ∧ (s.steps n).Follows epoch m'.world ∧
      (s.steps n).Bound target ∧ (s.steps n).now ≤ target ∧ m'.world.loop.expired = [] ∧
      (s.steps n).hostStamps epoch =
        s.hostStamps epoch ++
          (events.filterMap (Event.expires? s.clock)).reverse.map (·, x.deadline) := by
  have live : x ∈ m.world.loop.sources := sources ▸ List.mem_cons_self
  obtain ⟨a, _, deadline⟩ := follows.timed.armed live
  have le : a.trigger ≤ target := Nat.le_of_add_le_add_left (deadline ▸ due)
  have least := follows.timed.least sources
  let started : Moment := (m.pass x.deadline).turn
  have passed : ({ s with now := a.trigger } : Simulator).Follows epoch started.world := by
    have passed := follows.pass a.trigger s.target
    rw [← deadline] at passed
    exact passed
  have bound' : ({ s with now := a.trigger } : Simulator).Bound target :=
    ⟨bound.target, bound.steady⟩
  have run' : started.Reachable := run.pass_turn rest x.deadline
  have distinct : started.world.loop.expired.Nodup :=
    (List.Nodup.of_map _ run'.hostReachable.accounted.wired.distinct).sublist List.filter_sublist
  have now : ∀ y ∈ started.world.loop.expired, y.deadline = started.world.loop.now := by
    intro y expired
    obtain ⟨member, past⟩ := List.mem_filter.mp expired
    exact Nat.le_antisymm (of_decide_eq_true past) (least y member)
  obtain ⟨n, m', events, alike, rest', ahead, some⟩ :=
    passed.matches_expiring run' rfl (List.Sublist.refl _) distinct now bound' le early
  have first : x ∈ started.world.loop.expired :=
    List.mem_filter.mpr ⟨live, decide_eq_true (Nat.le_refl _)⟩
  have positive : 0 < n := some.resolve_left (List.ne_nil_of_mem first)
  rw [bound.steps_at _ positive] at alike
  refine ⟨_, m', events, positive, alike.proceeds, rest', alike.history, alike.follows,
    alike.bound, alike.now ▸ le, ahead, ?_⟩
  rw [hostStamps, alike.stamps, deadline, List.reverse_append, List.map_append, ← List.map_reverse,
    List.map_map]
  rfl

theorem exists_lapses_of_later {m : Moment} (rest : m.stage = .rest)
    (follows : s.Follows epoch m.world) (bound : s.Bound target) (le : s.now ≤ target)
    (later : ∀ x ∈ m.world.loop.sources, epoch + target.nanos < x.deadline) {n : Nat}
    (settled : (s.steps n).target = none) :
    ∃ fired m', m.Lapses s.clock (epoch + target.nanos) fired m' ∧
      (s.steps n).Follows epoch m'.world ∧
      (s.steps n).hostStamps epoch = s.hostStamps epoch ++ fired := by
  have nothing : s.next? target = none := by
    refine next?_eq_none_of_later fun h a live => ?_
    obtain ⟨x, member, _, deadline⟩ := follows.timed.exists_source live
    exact Nat.lt_of_add_lt_add_left (deadline ▸ later x member)
  have one : s.steps 1 = { s with now := target, target := none } := bound.step_of_none nothing
  have stepped : s.steps n = { s with now := target, target := none } :=
    (steps_eq_of_settled settled (one ▸ rfl)).trans one
  have now : m.world.loop.now ≤ epoch + target.nanos := by
    rw [follows.now]
    exact Nat.add_le_add_left le epoch
  refine ⟨[], _, .done rest now later, ?_, ?_⟩
  · rw [stepped]
    exact follows.pass target none
  · rw [stepped, List.append_nil]
    rfl

/-- Up to where the simulator reaches its target, an ideal host goes the same way. -/
theorem exists_lapses {m : Moment} (run : m.Reachable) (rest : m.stage = .rest)
    (follows : s.Follows epoch m.world) (bound : s.Bound target) (le : s.now ≤ target)
    (early : target.nanos < 2 ^ 63 * nanosPerSecond) (ahead : m.world.loop.expired = []) {n : Nat}
    (settled : (s.steps n).target = none) :
    ∃ fired m', m.Lapses s.clock (epoch + target.nanos) fired m' ∧
      (s.steps n).Follows epoch m'.world ∧
      (s.steps n).hostStamps epoch = s.hostStamps epoch ++ fired := by
  induction n using Nat.strongRecOn generalizing s m with
  | ind n ih =>
    cases sources : m.world.loop.sources with
    | nil => exact follows.exists_lapses_of_later rest bound le (by simp [sources]) settled
    | cons x later =>
      have least := follows.timed.least sources
      by_cases due : x.deadline ≤ epoch + target.nanos
      · obtain ⟨k, m', events, positive, dispatch, rest', history, follows', bound', le', ahead',
          stamps⟩ := follows.proceeds_deadline run rest bound early sources due
        have live : x ∈ m.world.loop.sources := sources ▸ List.mem_cons_self
        have before : m.world.loop.now ≤ x.deadline := by
          by_contra past
          have expired : x ∈ m.world.loop.expired :=
            List.mem_filter.mpr ⟨live, decide_eq_true (Nat.le_of_lt (Nat.lt_of_not_le past))⟩
          rw [ahead] at expired
          cases expired
        have run' : m'.Reachable :=
          Relation.ReflTransGen.trans (run.pass_turn rest x.deadline) dispatch.steps
        have shorter := bound'.lt_of_settled settled
        have left : ((s.steps k).steps (n - k)).target = none := by
          rw [← steps_add, Nat.add_sub_cancel' (Nat.le_of_lt shorter)]
          exact settled
        obtain ⟨fired, m'', onward, follows'', stamps'⟩ :=
          ih (n - k) (by omega) run' rest' follows' bound' le' ahead' left
        rw [clock_steps] at onward
        rw [← steps_add, Nat.add_sub_cancel' (Nat.le_of_lt shorter)] at follows'' stamps'
        refine ⟨_, m'', .next rest live least before due dispatch rest' history onward, follows'',
          ?_⟩
        rw [stamps', stamps, List.append_assoc]
      · refine follows.exists_lapses_of_later rest bound le (fun y member => ?_) settled
        exact Nat.lt_of_lt_of_le (Nat.lt_of_not_le due) (least y member)

end Follows

end Simulator

end VirtualClock
