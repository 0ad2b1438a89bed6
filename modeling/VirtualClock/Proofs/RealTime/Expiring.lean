import VirtualClock.Proofs.RealTime.Following
import VirtualClock.Proofs.RealTime.Tokens

/-!
A dispatch on real time, source by source. The first source on the loop belongs to the timer that
the simulator picks; taking it up and running its callback is one step of the simulator. A dispatch
at the earliest deadline takes the steps of all timers that are due then.
-/

namespace VirtualClock

/-- The timer of clock `c` that fires, on real time. -/
def Event.expires? (c : Nat) : Event → Option TimerHandle
  | .fire d h none => if d = c then some h else none
  | _ => none

/-- The timer of clock `c` that fires, on fake time, with the time. -/
def Event.stamp? (c : Nat) : Event → Option (TimerHandle × Duration)
  | .fire d h (some now) => if d = c then some (h, now) else none
  | _ => none

theorem EventLoop.expired_removeSource (l : EventLoop) (id : Nat) :
    (l.removeSource id).expired = l.expired.filter (·.id != id) := by
  change (l.sources.filter (·.id != id)).filter (·.deadline ≤ l.now) = _
  simp only [expired, List.filter_filter, Bool.and_comm]

namespace EventLoop.Timed

variable {epoch c : Nat} {arming : TimerHandle → Option Arming} {l : EventLoop}

theorem least (timed : l.Timed epoch c arming) {s : Source} {later : List Source}
    (sources : l.sources = s :: later) : ∀ t ∈ l.sources, s.deadline ≤ t.deadline := by
  intro t member
  have sorted := timed.sorted
  rw [sources] at sorted member
  rcases List.mem_cons.mp member with rfl | behind
  · exact Nat.le_refl _
  · exact (List.pairwise_cons.mp sorted).1 t behind

theorem expired_eq (timed : l.Timed epoch c arming) :
    l.expired = l.sources.takeWhile (·.deadline ≤ l.now) := by
  refine (Keyed.takeWhile_eq_filter (timed.sorted.imp fun {s t} le due => ?_)).symm
  exact decide_eq_true (Nat.le_trans le (of_decide_eq_true due))

theorem sources_of_expired (timed : l.Timed epoch c arming) {s : Source} {rest : List Source}
    (expired : l.expired = s :: rest) : ∃ later, l.sources = s :: later := by
  rw [timed.expired_eq] at expired
  exact ⟨_, (List.takeWhile_append_dropWhile ..).symm.trans (congrArg (· ++ _) expired)⟩

end EventLoop.Timed

namespace Simulator

variable {s : Simulator} {w : World} {m : Moment} {epoch : Nat} {target : Duration} {x : Source}
  {xs : List Source}

/-- The timers that have fired, with their times. -/
def stamps (s : Simulator) : List (TimerHandle × Duration) :=
  s.events.filterMap (Event.stamp? s.clock)

theorem stamps_execAll (s : Simulator) (ops : List Op) : (s.execAll ops).stamps = s.stamps := by
  rw [stamps, clock_execAll]
  exact filterMap_events_execAll (fun _ _ _ _ => rfl) s ops

theorem stamps_fire (s : Simulator) (h : TimerHandle) (now : Duration) :
    (s.fire h now).stamps = (h, now) :: s.stamps := by
  have fires : (Event.fire s.clock h (some now)).stamp? s.clock = some (h, now) := if_pos rfl
  exact List.filterMap_cons_some fires

/-- At one instant a clock on real time goes from `m` to `m'` as the simulator goes from `s` to
`s'`: the same timers fire, and in the end the one follows the other again. -/
structure Matches (epoch : Nat) (target : Duration) (s s' : Simulator) (m m' : Moment)
    (events : List Event) : Prop where
  proceeds : m.Proceeds m'
  history : m'.history = events ++ m.history
  follows : s'.Follows epoch m'.world
  bound : s'.Bound target
  clock : s'.clock = s.clock
  now : s'.now = s.now
  stamps : s'.stamps = (events.filterMap (Event.expires? s.clock)).map (·, s.now) ++ s.stamps

theorem Matches.trans {s' s'' : Simulator} {m' m'' : Moment} {before after : List Event}
    (first : Matches epoch target s s' m m' before)
    (second : Matches epoch target s' s'' m' m'' after) :
    Matches epoch target s s'' m m'' (after ++ before) where
  proceeds := first.proceeds.trans second.proceeds
  history := by rw [second.history, first.history, List.append_assoc]
  follows := second.follows
  bound := second.bound
  clock := second.clock.trans first.clock
  now := second.now.trans first.now
  stamps := by
    rw [second.stamps, first.stamps, first.clock, first.now, List.filterMap_append,
      List.map_append, List.append_assoc]

namespace Follows

theorem exists_holder (follows : s.Follows epoch w) (wired : w.Wired) (live : x ∈ w.loop.sources)
    {r : Registry} (found : w.clock? s.clock = some ⟨some r, .real⟩) :
    ∃ e, r.find? x.handle = some e ∧ e.source = some x.id := by
  have held : w.source? s.clock x.handle = some x.id :=
    (wired.held_iff s.clock (by simp [found]) x.handle x.id).mpr
      ⟨x, live, follows.timed.own x live, rfl, rfl⟩
  rw [World.source?_of_clock? found, Clock.source?_of_registry (k := ⟨some r, .real⟩) rfl] at held
  exact Option.bind_eq_some_iff.mp held

theorem fire (follows : s.Follows epoch w) (wired : w.Wired) (live : x ∈ w.loop.sources)
    {r : Registry} (found : w.clock? s.clock = some ⟨some r, .real⟩) (log : List LogEntry) :
    (s.fire x.handle s.now).Follows epoch
      { w.setClock s.clock ⟨some ((r.setSource x.handle none).markFired x.handle), .real⟩ with
        loop := w.loop.removeSource x.id
        log } := by
  obtain ⟨e, entry, held⟩ := follows.exists_holder wired live found
  have disarmed := follows.timed_disarmed wired found entry
  rw [held] at disarmed
  obtain ⟨_, found', registry⟩ := follows.clock
  cases found.symm.trans found'
  have unsourced : ((r.setSource x.handle none).markFired x.handle).unsourced =
      s.registry.markFired x.handle := by
    rw [Registry.unsourced_markFired, Registry.unsourced_setSource, registry]
  have moved := follows.rearm x.handle none unsourced disarmed rfl (follows.adjusts.markFired _)
  exact ⟨moved.clock, moved.names, moved.now, moved.timed, moved.latest, moved.adjusts⟩

theorem next?_of_first (follows : s.Follows epoch w) {later : List Source}
    (sources : w.loop.sources = x :: later) (now : x.deadline = w.loop.now) (le : s.now ≤ target)
    {r : Registry} (numbered : r.Numbered) (found : w.clock? s.clock = some ⟨some r, .real⟩)
    {e : Registration} (entry : r.find? x.handle = some e) :
    ∃ a : Arming, s.next? target = some ({ e with source := none }, a) ∧ a.trigger = s.now := by
  obtain ⟨_, found', registry⟩ := follows.clock
  cases found.symm.trans found'
  have handle : e.handle = x.handle := Registry.handle_of_find? entry
  obtain ⟨a, armed, deadline⟩ := follows.timed.armed (sources ▸ List.mem_cons_self)
  have trigger : a.trigger = s.now := by
    rw [now, follows.now] at deadline
    exact Duration.ext (Nat.add_left_cancel deadline).symm
  have member : { e with source := none } ∈ s.registry.entries := by
    rw [← registry]
    exact List.mem_map_of_mem (List.mem_of_find?_eq_some entry)
  have distinct : s.registry.handles.Nodup := by
    rw [← registry, Registry.handles_unsourced]
    exact numbered.distinct
  have leads (h : TimerHandle) (b : Arming) (live : s.arming h = some b) (other : h ≠ e.handle) :
      a.Before b := by
    obtain ⟨y, known, rfl, _⟩ := follows.timed.exists_source live
    have order := follows.timed.order
    rw [sources] at known order
    rcases List.mem_cons.mp known with rfl | behind
    · exact absurd handle.symm other
    · exact (List.pairwise_cons.mp order).1 y behind a b armed live
  exact ⟨a, next?_eq_some_of_leads distinct member (handle ▸ armed) (trigger ▸ le) leads, trigger⟩

theorem proceeds_running {origin : Origin} {ops : List Op} {history : List Event}
    (run : Moment.Reachable ⟨w, .running origin ops, history⟩) (follows : s.Follows epoch w)
    (early : s.now.nanos < 2 ^ 63 * nanosPerSecond) (adjusts : ∀ op ∈ ops, op.AdjustsOn s.clock) :
    ∃ w' events, (⟨w, .running origin ops, history⟩ : Moment).Proceeds
        ⟨w', .running origin [], events ++ history⟩ ∧
      (s.execAll ops).Follows epoch w' ∧ w'.loop.expired.Sublist w.loop.expired ∧
      events.filterMap (Event.expires? s.clock) = [] := by
  induction ops generalizing s w history with
  | nil => exact ⟨w, [], .refl, follows, List.Sublist.refl _, rfl⟩
  | cons op ops ih =>
    obtain ⟨executed, fewer⟩ := follows.exec run.hostReachable.accounted.wired early
      (adjusts op List.mem_cons_self).schedules
    have same : (s.execLogged op).clock = s.clock := s.clock_execLogged op
    have run' : Moment.Reachable ⟨w.execLogged op, .running origin ops, w.called op :: history⟩ :=
      run.tail .proceed
    obtain ⟨w', events, proceeds, after, fewer', quiet⟩ :=
      ih run' (s := s.execLogged op) (executed.apart _ _ _) ((s.now_exec op).symm ▸ early)
        fun op' member => same.symm ▸ adjusts op' (List.mem_cons_of_mem op member)
    refine ⟨w', events ++ [w.called op], .head rfl ?_, after, fewer'.trans fewer, ?_⟩
    · rw [List.append_assoc]
      exact proceeds
    · rw [List.filterMap_append, ← same, quiet]
      rfl

/-- Taking up the first source is a step of the simulator. -/
theorem matches_expire (run : m.Reachable) (stage : m.stage = .expiring (x :: xs))
    {later : List Source} (sources : m.world.loop.sources = x :: later)
    (follows : s.Follows epoch m.world) (now : x.deadline = m.world.loop.now)
    (bound : s.Bound target) (le : s.now ≤ target)
    (early : target.nanos < 2 ^ 63 * nanosPerSecond) :
    ∃ w' events,
      Matches epoch target s s.step m ⟨w', .expiring xs, events ++ m.history⟩ events ∧
      w'.loop.expired.Sublist (m.world.loop.removeSource x.id).expired := by
  have live : x ∈ m.world.loop.sources := sources ▸ List.mem_cons_self
  have wired := run.hostReachable.accounted.wired
  have own := follows.timed.own x live
  obtain ⟨r, found, _⟩ := follows.clock
  have numbered := (run.coherent.world.clocks _ _ found).numbered rfl
  obtain ⟨e, entry, _⟩ := follows.exists_holder wired live found
  obtain ⟨a, next, trigger⟩ := follows.next?_of_first sources now le numbered found entry
  obtain ⟨stepped, bound'⟩ := bound.step_eq next
  rw [trigger, show e.handle = x.handle from Registry.handle_of_find? entry] at stepped
  -- its callback
  obtain ⟨log, expires⟩ := Moment.exists_proceed_expire stage live (own ▸ found) entry
  rw [own] at expires
  have run' : m.proceed.Reachable := run.tail .proceed
  have fired := follows.fire wired live found log
  have adjusts : ∀ op ∈ e.callback.ops, op.AdjustsOn s.clock := by
    intro op among
    obtain ⟨ops, script, among⟩ := Callback.exists_of_mem_ops among
    exact follows.adjusts _ (mem_of_next? next) ops script op among
  rw [expires] at run'
  obtain ⟨w', events, proceeds, after, fewer, quiet⟩ :=
    proceeds_running run' fired (Nat.lt_of_le_of_lt le early) adjusts
  have event : (events ++ [Event.fire s.clock x.handle none]).filterMap (Event.expires? s.clock) =
      [x.handle] := by
    have own : Event.expires? s.clock (.fire s.clock x.handle none) = some x.handle := if_pos rfl
    rw [List.filterMap_append, List.filterMap_cons_some own]
    exact congrArg (· ++ _) quiet
  refine ⟨w', events ++ [.fire s.clock x.handle none], ?_, fewer⟩
  refine ⟨.head rfl ?_, rfl, stepped ▸ after, bound', s.clock_step, ?_, ?_⟩
  · rw [expires, List.append_assoc]
    exact proceeds.tail rfl
  · rw [stepped, now_execAll]
    rfl
  · rw [stepped, stamps_execAll, stamps_fire, event]
    rfl

theorem proceeds_drained (stage : m.stage = .expiring []) (follows : s.Follows epoch m.world) :
    m.Proceeds { m with stage := .rest } := by
  obtain ⟨⟨clocks, loop, names, log⟩, _, history⟩ := m
  cases stage
  have batch : loop.batch = [] := follows.timed.batch
  have queue : loop.queue = [] := follows.timed.queue
  have taken : loop.takeQueue = loop := by
    obtain ⟨now, b, q, nextTicket, sources, nextSource⟩ := loop
    cases batch
    cases queue
    rfl
  refine .head rfl (.single ?_)
  simp [Moment.proceed, taken, EventLoop.next?, batch]

/-- A dispatch whose sources are all due now is as many steps of the simulator as timers fire. -/
theorem matches_expiring (run : m.Reachable) (stage : m.stage = .expiring xs)
    (live : m.world.loop.expired.Sublist xs) (distinct : xs.Nodup)
    (now : ∀ y ∈ xs, y.deadline = m.world.loop.now) (follows : s.Follows epoch m.world)
    (bound : s.Bound target) (le : s.now ≤ target)
    (early : target.nanos < 2 ^ 63 * nanosPerSecond) :
    ∃ n m' events, Matches epoch target s (s.steps n) m m' events ∧ m'.stage = .rest ∧
      m'.world.loop.expired = [] ∧ (m.world.loop.expired = [] ∨ 0 < n) := by
  induction xs generalizing s m with
  | nil =>
    have nothing : m.world.loop.expired = [] := List.sublist_nil.mp live
    exact ⟨0, _, [], ⟨follows.proceeds_drained stage, rfl, follows, bound, rfl, rfl, rfl⟩, rfl,
      nothing, .inl nothing⟩
  | cons x xs ih =>
    obtain ⟨fresh, distinct⟩ := List.nodup_cons.mp distinct
    by_cases present : x ∈ m.world.loop.sources
    · have due : x ∈ m.world.loop.expired :=
        List.mem_filter.mpr ⟨present,
          decide_eq_true (Nat.le_of_eq (now x List.mem_cons_self))⟩
      rcases List.sublist_cons_iff.mp live with among | ⟨rest, expired, among⟩
      · exact absurd (among.subset due) fresh
      obtain ⟨later, sources⟩ := follows.timed.sources_of_expired expired
      obtain ⟨w', before, first, fewer⟩ :=
        follows.matches_expire run stage sources (now x List.mem_cons_self) bound le early
      have left : w'.loop.expired.Sublist xs := by
        rw [EventLoop.expired_removeSource, expired, List.filter_cons_of_neg (by simp)] at fewer
        exact (fewer.trans List.filter_sublist).trans among
      have now' : ∀ y ∈ xs, y.deadline = w'.loop.now := by
        intro y member
        rw [first.follows.now, first.now, ← follows.now]
        exact now y (List.mem_cons_of_mem x member)
      have run' : Moment.Reachable ⟨w', .expiring xs, before ++ m.history⟩ :=
        Relation.ReflTransGen.trans run first.proceeds.steps
      obtain ⟨n, m', after, second, rest', none, _⟩ :=
        ih run' rfl left distinct now' first.follows first.bound (first.now ▸ le)
      rw [← steps_succ] at second
      exact ⟨n + 1, m', _, first.trans second, rest', none, .inr (Nat.succ_pos n)⟩
    · have passed : m.proceed = { m with stage := .expiring xs } := by
        simp only [Moment.proceed, stage, Moment.expire, if_neg present]
      have run' : ({ m with stage := .expiring xs } : Moment).Reachable :=
        passed ▸ run.tail .proceed
      have among : m.world.loop.expired.Sublist xs := by
        rcases List.sublist_cons_iff.mp live with among | ⟨rest, expired, _⟩
        · exact among
        · have member : x ∈ m.world.loop.expired := expired ▸ List.mem_cons_self
          exact absurd (List.mem_filter.mp member).1 present
      obtain ⟨n, m', events, onward, rest⟩ :=
        ih run' rfl among distinct (fun y member => now y (List.mem_cons_of_mem x member)) follows
          bound le
      exact ⟨n, m', events, { onward with proceeds := .head passed.symm onward.proceeds }, rest⟩

end Follows

end Simulator

end VirtualClock
