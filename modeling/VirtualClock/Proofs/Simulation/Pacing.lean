import Mathlib.Algebra.Order.BigOperators.Group.Finset
import VirtualClock.Proofs.Simulation.Refinement
import VirtualClock.Proofs.Simulation.Retargeting

/-!
How often timers fire on the way to a target. As long as callbacks only move and remove timers, a
timer that fires again was armed anew since its last firing, at least a millisecond ahead. So each
timer fires at most once for every millisecond that is left, and the simulator comes to its target
after that many firings of each.
-/

namespace VirtualClock

/-- Moving or removing a timer. -/
inductive Op.Adjusts : Op → Prop where
  | update (c : Nat) (timer : String) (delay : Int32) : Adjusts (.update c timer delay)
  | remove (c : Nat) (timer : String) : Adjusts (.remove c timer)

theorem Op.Adjusts.steady {op : Op} (adjusts : op.Adjusts) : op.Steady := by
  cases adjusts <;> exact .mk nofun nofun nofun

/-- The timers of clock `c` that fired on fake time, the latest first. -/
def firings (c : Nat) (history : List Event) : List TimerHandle :=
  history.filterMap (Event.fires? c)

theorem length_le_of_count_le {l known : List TimerHandle} {most : Nat} (among : l ⊆ known)
    (few : ∀ h ∈ l, l.count h ≤ most) : l.length ≤ known.length * most := by
  have among' : l.toFinset ⊆ known.toFinset := fun h member =>
    List.mem_toFinset.mpr (among (List.mem_toFinset.mp member))
  calc l.length = ∑ h ∈ l.toFinset, l.count h := (List.sum_toFinset_count_eq_length l).symm
    _ ≤ l.toFinset.card * most :=
      Finset.sum_le_card_nsmul _ _ _ fun h member => few h (List.mem_toFinset.mp member)
    _ ≤ known.length * most :=
      Nat.mul_le_mul_right _ ((Finset.card_le_card among').trans known.toFinset_card_le)

namespace Simulator

variable {s : Simulator} {op : Op} {start finish : Duration} {known : List TimerHandle}

/-- The timers that have fired. -/
def fired (s : Simulator) : List TimerHandle := firings s.clock s.events

@[simp] theorem events_exec (s : Simulator) (op : Op) : (s.exec op).2.events = s.events := by
  cases op <;> simp only [exec, update, remove] <;> repeat' split
  all_goals rfl

theorem filterMap_events_execAll {α : Type} {f : Event → Option α}
    (quiet : ∀ op handle now answer, f (.call op handle now answer) = none) (s : Simulator)
    (ops : List Op) : (s.execAll ops).events.filterMap f = s.events.filterMap f := by
  induction ops generalizing s with
  | nil => rfl
  | cons op ops ih =>
    refine (ih (s.execLogged op)).trans ?_
    rw [execLogged, List.filterMap_cons_none (quiet ..)]

theorem fired_execAll (s : Simulator) (ops : List Op) : (s.execAll ops).fired = s.fired := by
  rw [fired, clock_execAll]
  exact filterMap_events_execAll (fun _ _ _ _ => rfl) s ops

theorem fired_fire (s : Simulator) (h : TimerHandle) (now : Duration) :
    (s.fire h now).fired = h :: s.fired := by
  have fires : (Event.fire s.clock h (some now)).fires? s.clock = some h := if_pos rfl
  exact List.filterMap_cons_some fires

/-- The simulator is on its way from `start` to `finish`, which no callback changes. For every
firing of a timer so far a millisecond has passed, the last one still running, and none of it is
left when the timer fires again. -/
structure Paced (start finish : Duration) (known : List TimerHandle) (s : Simulator) : Prop where
  target : s.target = some finish
  adjusts : s.registry.Runs Op.Adjusts
  start_le_now : start ≤ s.now
  now_le_finish : s.now ≤ finish
  registered : s.registry.handles ⊆ known
  fired : s.fired ⊆ known
  now_le_trigger : ∀ h ∈ s.registry.handles, ∀ a, s.arming h = some a → s.now ≤ a.trigger
  spaced : ∀ h ∈ s.fired,
    start.nanos + s.fired.count h * nanosPerMilli ≤ s.now.nanos + nanosPerMilli
  spaced_trigger : ∀ h ∈ s.registry.handles, ∀ a, s.arming h = some a →
    start.nanos + s.fired.count h * nanosPerMilli ≤ a.trigger.nanos

namespace Paced

theorem bound (paced : s.Paced start finish known) : s.Bound finish :=
  ⟨paced.target, fun e member ops script op mine =>
    (paced.adjusts e member ops script op mine).steady⟩

/-- At most one firing for every millisecond, and one at the start. -/
theorem length_fired_le (paced : s.Paced start finish known) :
    s.fired.length ≤
      known.length * ((finish.nanos - start.nanos) / nanosPerMilli + 1) := by
  refine length_le_of_count_le paced.fired fun h member => ?_
  have spaced := paced.spaced h member
  have now_le := Duration.le_def.mp paced.now_le_finish
  rw [← Nat.add_div_right _ (by decide), Nat.le_div_iff_mul_le (by decide)]
  have start_le := Duration.le_def.mp paced.start_le_now
  omega

theorem rearm (paced : s.Paced start finish known) {h : TimerHandle} {trigger : Option Duration}
    (ahead : ∀ d, trigger = some d → s.now.nanos + nanosPerMilli ≤ d.nanos) :
    (s.rearm h trigger).Paced start finish known := by
  refine ⟨paced.target, paced.adjusts, paced.start_le_now, paced.now_le_finish, paced.registered,
    paced.fired, ?_, paced.spaced, ?_⟩
  · intro g member a live
    simp only [Simulator.rearm, VirtualClock.rearm] at live
    split at live
    · obtain ⟨d, asked, rfl⟩ := Option.map_eq_some_iff.mp live
      exact Nat.le_trans (Nat.le_add_right _ _) (ahead d asked)
    · exact paced.now_le_trigger g member a live
  · intro g member a live
    simp only [Simulator.rearm, VirtualClock.rearm] at live
    split at live
    · next same =>
      obtain ⟨d, asked, rfl⟩ := Option.map_eq_some_iff.mp live
      change start.nanos + s.fired.count g * nanosPerMilli ≤ d.nanos
      refine Nat.le_trans ?_ (ahead d asked)
      by_cases first : g ∈ s.fired
      · exact paced.spaced g first
      · rw [List.count_eq_zero_of_not_mem first, Nat.zero_mul]
        exact Nat.le_trans paced.start_le_now (Nat.le_add_right _ _)
    · exact paced.spaced_trigger g member a live

theorem update (paced : s.Paced start finish known) (h : TimerHandle) (delay : Int32) :
    (s.update h delay).2.Paced start finish known := by
  by_cases overflow : 0 < delay.toInt ∧ s.now.after? delay = none
  · rw [s.update_of_overflow overflow]
    exact paced
  · by_cases member : h ∈ s.registry.handles
    · have moved : (s.rearm h (s.now.after? delay)).Paced start finish known := by
        refine paced.rearm fun d asked => ?_
        obtain ⟨positive, sum⟩ := Duration.after?_eq_some_iff.mp asked
        have := Nat.le_mul_of_pos_left nanosPerMilli (n := delay.toInt.toNat) (by omega)
        omega
      rw [s.update_of_mem overflow member]
      exact moved.bound.await_eq.symm ▸ moved
    · rw [s.update_of_not_mem overflow member]
      exact paced

theorem remove (paced : s.Paced start finish known) (h : TimerHandle) :
    (s.remove h).2.Paced start finish known := by
  by_cases member : h ∈ s.registry.handles
  · have disarmed : (s.rearm h none).Paced start finish known := paced.rearm nofun
    have fewer : (s.registry.erase h).handles ⊆ s.registry.handles := by
      rw [Registry.handles_erase]
      exact List.erase_subset
    rw [s.remove_of_mem member]
    exact ⟨disarmed.target, disarmed.adjusts.erase h, disarmed.start_le_now,
      disarmed.now_le_finish, List.Subset.trans fewer disarmed.registered, disarmed.fired,
      fun g left => disarmed.now_le_trigger g (fewer left), disarmed.spaced,
      fun g left => disarmed.spaced_trigger g (fewer left)⟩
  · rw [s.remove_of_not_mem member]
    exact paced

theorem exec (paced : s.Paced start finish known) (adjusts : op.Adjusts) :
    (s.exec op).2.Paced start finish known := by
  cases adjusts with
  | update c timer delay =>
    simp only [Simulator.exec]
    cases s.names.lookup timer with
    | none => exact paced
    | some h => exact paced.update h delay
  | remove c timer =>
    simp only [Simulator.exec]
    cases s.names.lookup timer with
    | none => exact paced
    | some h => exact paced.remove h

theorem execLogged (paced : s.Paced start finish known) (adjusts : op.Adjusts) :
    (s.execLogged op).Paced start finish known := by
  have after := paced.exec adjusts
  have same : (s.execLogged op).fired = (s.exec op).2.fired := by
    refine (s.fired_execAll [op]).trans ?_
    rw [Simulator.fired, Simulator.fired, events_exec, clock_exec]
  exact ⟨after.target, after.adjusts, after.start_le_now, after.now_le_finish, after.registered,
    same ▸ after.fired, after.now_le_trigger, same ▸ after.spaced, same ▸ after.spaced_trigger⟩

theorem execAll (paced : s.Paced start finish known) {ops : List Op}
    (adjusts : ∀ op ∈ ops, op.Adjusts) : (s.execAll ops).Paced start finish known := by
  induction ops generalizing s with
  | nil => exact paced
  | cons op ops ih =>
    exact ih (paced.execLogged (adjusts op List.mem_cons_self)) fun op' member =>
      adjusts op' (List.mem_cons_of_mem op member)

/-- The timer that fires was spaced from its last firing, and the others from theirs. -/
theorem fire (paced : s.Paced start finish known) {e : Registration} {a : Arming}
    (next : s.next? finish = some (e, a)) :
    (s.fire e.handle a.trigger).Paced start finish known := by
  obtain ⟨x, _, chosen⟩ := List.exists_of_findSome?_eq_some next
  obtain ⟨rfl, live, due, others⟩ := candidate?_eq_some_iff.mp chosen
  have member : x.handle ∈ s.registry.handles := List.mem_map_of_mem (mem_of_next? next)
  have onward : s.now ≤ a.trigger := paced.now_le_trigger _ member a live
  have spaced := paced.spaced_trigger _ member a live
  have handles : (s.fire x.handle a.trigger).registry.handles = s.registry.handles :=
    s.registry.handles_markFired x.handle
  have armed {g : TimerHandle} {b : Arming}
      (live' : (s.fire x.handle a.trigger).arming g = some b) :
      g ≠ x.handle ∧ s.arming g = some b := by
    simp only [Simulator.fire, Simulator.rearm, VirtualClock.rearm] at live'
    split at live'
    · cases live'
    · next other => exact ⟨other, live'⟩
  refine ⟨paced.target, paced.adjusts.markFired _, Nat.le_trans paced.start_le_now onward, due,
    handles ▸ paced.registered, ?_, ?_, ?_, ?_⟩
  · rw [fired_fire]
    exact List.cons_subset.mpr ⟨paced.registered member, paced.fired⟩
  · intro g registered b live'
    rw [handles] at registered
    obtain ⟨other, live'⟩ := armed live'
    exact (others g registered other b live').trigger_le
  · intro g member'
    rw [fired_fire] at member' ⊢
    change _ ≤ a.trigger.nanos + nanosPerMilli
    by_cases same : g = x.handle
    · rw [same, List.count_cons_self, Nat.succ_mul, ← Nat.add_assoc]
      exact Nat.add_le_add_right spaced _
    · have earlier : g ∈ s.fired := List.mem_of_ne_of_mem same member'
      rw [List.count_cons_of_ne (Ne.symm same)]
      exact Nat.le_trans (paced.spaced g earlier) (Nat.add_le_add_right onward _)
  · intro g registered b live'
    rw [handles] at registered
    obtain ⟨other, live'⟩ := armed live'
    rw [fired_fire, List.count_cons_of_ne (Ne.symm other)]
    exact paced.spaced_trigger g registered b live'

theorem step (paced : s.Paced start finish known) {e : Registration} {a : Arming}
    (next : s.next? finish = some (e, a)) :
    s.step.Paced start finish known ∧ s.step.fired = e.handle :: s.fired := by
  have adjusts : ∀ op ∈ e.callback.ops, op.Adjusts := by
    intro op member
    obtain ⟨ops, script, member⟩ := Callback.exists_of_mem_ops member
    exact paced.adjusts e (mem_of_next? next) ops script op member
  have after := (paced.fire next).execAll adjusts
  have stepped := (paced.bound.step_eq next).1
  rw [stepped]
  exact ⟨after, (fired_execAll ..).trans (s.fired_fire ..)⟩

theorem exists_settled {s : Simulator} (paced : s.Paced start finish known) :
    ∃ n, s.fired.length + n ≤
        known.length * ((finish.nanos - start.nanos) / nanosPerMilli + 1) ∧
      (∀ j ≤ n, (s.steps j).target = some finish) ∧ (s.steps (n + 1)).target = none ∧
      (s.steps (n + 1)).fired.length = s.fired.length + n := by
  cases next : s.next? finish with
  | none =>
    have stepped : s.steps 1 = { s with now := finish, target := none } :=
      paced.bound.step_of_none next
    refine ⟨0, paced.length_fired_le, ?_, by rw [stepped], by rw [stepped]; rfl⟩
    intro j le
    cases Nat.le_zero.mp le
    exact paced.target
  | some p =>
    obtain ⟨after, fired⟩ := paced.step next
    have one_more : s.step.fired.length = s.fired.length + 1 := by rw [fired, List.length_cons]
    have few := after.length_fired_le
    obtain ⟨n, most, pending, settled, count⟩ := after.exists_settled
    refine ⟨n + 1, by omega, ?_, s.steps_succ _ ▸ settled, ?_⟩
    · intro j le
      cases j with
      | zero => exact paced.target
      | succ j =>
        rw [steps_succ]
        exact pending j (Nat.le_of_succ_le_succ le)
    · rw [steps_succ, count, one_more]
      omega
termination_by
  known.length * ((finish.nanos - start.nanos) / nanosPerMilli + 1) - s.fired.length
decreasing_by omega

end Paced
end Simulator
end VirtualClock
