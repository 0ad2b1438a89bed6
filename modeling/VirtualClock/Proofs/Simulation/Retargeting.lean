import VirtualClock.Proofs.Simulation.Confinement
import VirtualClock.Proofs.Simulation.Firings

/-!
One target in place of another. As long as no callback advances or destroys the clock, the
simulator does the same on its way to a nearer target as on its way to a farther one; so it comes
to the farther one the same way, whether it stops in between or not.
-/

namespace VirtualClock

/-- Neither an advance of a clock nor the end of one, and so for the callbacks that are added. -/
inductive Op.Steady : Op → Prop where
  | mk {op : Op} :
    (∀ c delta, op ≠ .advance c delta) → (∀ c, op ≠ .destroy c) →
    (∀ ops ∈ op.scripts, ∀ op' ∈ ops, op'.Steady) → Steady op

theorem Op.Steady.scripts {op : Op} (steady : op.Steady) :
    ∀ ops ∈ op.scripts, ∀ op' ∈ ops, op'.Steady := by
  cases steady
  assumption

namespace Simulator

variable {s : Simulator} {op : Op} {near far : Duration}

section steps

theorem steps_add (s : Simulator) (m n : Nat) : s.steps (m + n) = (s.steps m).steps n := by
  induction n with
  | zero => rfl
  | succ n ih => exact congrArg step ih

theorem steps_succ (s : Simulator) (n : Nat) : s.steps (n + 1) = s.step.steps n := by
  rw [Nat.add_comm, steps_add]
  rfl

theorem steps_of_settled (settled : s.target = none) (n : Nat) : s.steps n = s := by
  induction n with
  | zero => rfl
  | succ n ih =>
    change (s.steps n).step = s
    rw [ih]
    simp only [step, settled]

theorem steps_eq_of_settled {m n : Nat} (settled : (s.steps m).target = none)
    (settled' : (s.steps n).target = none) : s.steps m = s.steps n := by
  rcases Nat.le_total m n with le | le
  · obtain ⟨k, rfl⟩ := Nat.exists_eq_add_of_le le
    rw [steps_add, steps_of_settled settled]
  · obtain ⟨k, rfl⟩ := Nat.exists_eq_add_of_le le
    rw [steps_add, steps_of_settled settled']

end steps

section calls

variable {h : TimerHandle} {delay : Int32}

theorem update_of_overflow (overflow : 0 < delay.toInt ∧ s.now.after? delay = none) :
    s.update h delay = (.failed (.refused .timeOverflow), s) :=
  if_pos overflow

theorem update_of_mem (fits : ¬(0 < delay.toInt ∧ s.now.after? delay = none))
    (known : h ∈ s.registry.handles) :
    s.update h delay = (.done, (s.rearm h (s.now.after? delay)).await) :=
  (if_neg fits).trans (if_pos known)

theorem update_of_not_mem (fits : ¬(0 < delay.toInt ∧ s.now.after? delay = none))
    (unknown : h ∉ s.registry.handles) :
    s.update h delay = (.failed (.breach (.unknownToClock h)), s) :=
  (if_neg fits).trans (if_neg unknown)

theorem remove_of_mem (known : h ∈ s.registry.handles) :
    s.remove h = (.done, { s.rearm h none with registry := s.registry.erase h }) :=
  if_pos known

theorem remove_of_not_mem (unknown : h ∉ s.registry.handles) :
    s.remove h = (.failed (.breach (.unknownToLoop h)), s) :=
  if_neg unknown

end calls

section onto

/-- The simulator with more events before its own. -/
def onto (s : Simulator) (past : List Event) : Simulator := { s with events := s.events ++ past }

theorem update_onto (s : Simulator) (past : List Event) (h : TimerHandle) (delay : Int32) :
    (s.onto past).update h delay = ((s.update h delay).1, (s.update h delay).2.onto past) := by
  by_cases overflow : 0 < delay.toInt ∧ s.now.after? delay = none
  · rw [s.update_of_overflow overflow, (s.onto past).update_of_overflow overflow]
  · by_cases known : h ∈ s.registry.handles
    · rw [s.update_of_mem overflow known, (s.onto past).update_of_mem overflow known]
      rfl
    · rw [s.update_of_not_mem overflow known, (s.onto past).update_of_not_mem overflow known]

theorem remove_onto (s : Simulator) (past : List Event) (h : TimerHandle) :
    (s.onto past).remove h = ((s.remove h).1, (s.remove h).2.onto past) := by
  by_cases known : h ∈ s.registry.handles
  · rw [s.remove_of_mem known, (s.onto past).remove_of_mem known]
    rfl
  · rw [s.remove_of_not_mem known, (s.onto past).remove_of_not_mem known]

theorem exec_onto (s : Simulator) (past : List Event) (op : Op) :
    (s.onto past).exec op = ((s.exec op).1, (s.exec op).2.onto past) := by
  have names : (s.onto past).names = s.names := rfl
  have now : (s.onto past).now = s.now := rfl
  have registry : (s.onto past).registry = s.registry := rfl
  cases op with
  | update c timer delay =>
    simp only [exec, names]
    cases s.names.lookup timer with
    | none => rfl
    | some h => exact s.update_onto past h delay
  | remove c timer =>
    simp only [exec, names]
    cases s.names.lookup timer with
    | none => rfl
    | some h => exact s.remove_onto past h
  | advance c delta =>
    simp only [exec, now]
    cases s.now.add? delta <;> rfl
  | gettime c id =>
    by_cases emulated : id.isEmulated = true
    · simp only [exec, if_pos emulated, now]
    · simp only [exec, if_neg emulated]
  | destroy c =>
    by_cases timers : 0 < s.registry.size
    · simp only [exec, registry, if_pos timers]
    · simp only [exec, registry, if_neg timers]
      rfl
  | _ => rfl

theorem execLogged_onto (s : Simulator) (past : List Event) (op : Op) :
    (s.onto past).execLogged op = (s.execLogged op).onto past := by
  unfold execLogged
  rw [exec_onto]
  rfl

theorem execAll_onto (s : Simulator) (past : List Event) (ops : List Op) :
    (s.onto past).execAll ops = (s.execAll ops).onto past := by
  induction ops generalizing s with
  | nil => rfl
  | cons op ops ih =>
    change ((s.onto past).execLogged op).execAll ops = _
    rw [execLogged_onto]
    exact ih (s.execLogged op)

theorem step_onto (s : Simulator) (past : List Event) : (s.onto past).step = s.step.onto past := by
  have target : (s.onto past).target = s.target := rfl
  have next (t : Duration) : (s.onto past).next? t = s.next? t := rfl
  cases pending : s.target with
  | none => simp only [step, target, pending]
  | some t =>
    cases chosen : s.next? t with
    | none =>
      simp only [step, target, pending, next, chosen]
      rfl
    | some p =>
      simp only [step, target, pending, next, chosen]
      change (((s.fire p.1.handle p.2.trigger).onto past).execAll p.1.callback.ops).await = _
      rw [execAll_onto]
      rfl

theorem steps_onto (s : Simulator) (past : List Event) (n : Nat) :
    (s.onto past).steps n = (s.steps n).onto past := by
  induction n with
  | zero => rfl
  | succ n ih =>
    change ((s.onto past).steps n).step = _
    rw [ih, step_onto]
    rfl

theorem target_steps_onto (s : Simulator) (past : List Event) (n : Nat) :
    ((s.onto past).steps n).target = (s.steps n).target := by
  rw [steps_onto]
  rfl

end onto

/-- The simulator on its way to another target. -/
def toward (s : Simulator) (target : Duration) : Simulator := { s with target := some target }

/-- The simulator is on its way to a target that no callback will change. -/
structure Bound (s : Simulator) (target : Duration) : Prop where
  target : s.target = some target
  steady : s.registry.Runs Op.Steady

namespace Bound

theorem toward (bound : s.Bound near) (far : Duration) : (s.toward far).Bound far :=
  ⟨rfl, bound.steady⟩

theorem await_eq (bound : s.Bound near) : s.await = s := by
  unfold await
  rw [bound.target, Option.getD_some, ← bound.target]

theorem update (bound : s.Bound near) (far : Duration) (h : TimerHandle) (delay : Int32) :
    (s.update h delay).2.Bound near ∧
      (s.toward far).update h delay = ((s.update h delay).1, (s.update h delay).2.toward far) := by
  by_cases overflow : 0 < delay.toInt ∧ s.now.after? delay = none
  · rw [s.update_of_overflow overflow, (s.toward far).update_of_overflow overflow]
    exact ⟨bound, rfl⟩
  · by_cases known : h ∈ s.registry.handles
    · have moved : (s.rearm h (s.now.after? delay)).Bound near := ⟨bound.target, bound.steady⟩
      rw [s.update_of_mem overflow known, (s.toward far).update_of_mem overflow known]
      exact ⟨moved.await_eq.symm ▸ moved, rfl⟩
    · rw [s.update_of_not_mem overflow known, (s.toward far).update_of_not_mem overflow known]
      exact ⟨bound, rfl⟩

theorem remove (bound : s.Bound near) (far : Duration) (h : TimerHandle) :
    (s.remove h).2.Bound near ∧
      (s.toward far).remove h = ((s.remove h).1, (s.remove h).2.toward far) := by
  by_cases known : h ∈ s.registry.handles
  · rw [s.remove_of_mem known, (s.toward far).remove_of_mem known]
    exact ⟨⟨bound.target, bound.steady.erase h⟩, rfl⟩
  · rw [s.remove_of_not_mem known, (s.toward far).remove_of_not_mem known]
    exact ⟨bound, rfl⟩

theorem exec (bound : s.Bound near) (far : Duration) (steady : op.Steady) :
    (s.exec op).2.Bound near ∧
      (s.toward far).exec op = ((s.exec op).1, (s.exec op).2.toward far) := by
  have names : (s.toward far).names = s.names := rfl
  have now : (s.toward far).now = s.now := rfl
  cases op with
  | add c timer fires repeats =>
    exact ⟨⟨bound.target, bound.steady.add steady.scripts⟩, rfl⟩
  | update c timer delay =>
    simp only [Simulator.exec, names]
    cases s.names.lookup timer with
    | none => exact ⟨bound, rfl⟩
    | some h => exact bound.update far h delay
  | remove c timer =>
    simp only [Simulator.exec, names]
    cases s.names.lookup timer with
    | none => exact ⟨bound, rfl⟩
    | some h => exact bound.remove far h
  | gettime c id =>
    by_cases emulated : id.isEmulated = true
    · simp only [Simulator.exec, if_pos emulated, now]
      exact ⟨bound, trivial⟩
    · simp only [Simulator.exec, if_neg emulated]
      exact ⟨bound, trivial⟩
  | advance c delta =>
    cases steady with
    | mk advances => exact absurd rfl (advances c delta)
  | destroy c =>
    cases steady with
    | mk _ destroys => exact absurd rfl (destroys c)
  | _ => exact ⟨bound, rfl⟩

theorem execLogged (bound : s.Bound near) (far : Duration) (steady : op.Steady) :
    (s.execLogged op).Bound near ∧
      (s.toward far).execLogged op = (s.execLogged op).toward far := by
  obtain ⟨after, same⟩ := bound.exec far steady
  refine ⟨⟨after.target, after.steady⟩, ?_⟩
  unfold Simulator.execLogged
  rw [same]
  rfl

theorem execAll (bound : s.Bound near) (far : Duration) {ops : List Op}
    (steady : ∀ op ∈ ops, op.Steady) :
    (s.execAll ops).Bound near ∧ (s.toward far).execAll ops = (s.execAll ops).toward far := by
  induction ops generalizing s with
  | nil => exact ⟨bound, rfl⟩
  | cons op ops ih =>
    obtain ⟨after, same⟩ := bound.execLogged far (steady op List.mem_cons_self)
    change (((s.execLogged op).execAll ops).Bound near) ∧
      ((s.toward far).execLogged op).execAll ops = _
    rw [same]
    exact ih after fun op' member => steady op' (List.mem_cons_of_mem op member)

end Bound

theorem next?_of_le (le : near ≤ far) {e : Registration} {a : Arming}
    (next : s.next? near = some (e, a)) : s.next? far = some (e, a) := by
  obtain ⟨front, e', back, split, chosen, none⟩ := List.findSome?_eq_some_iff.mp next
  obtain ⟨rfl, live, due, others⟩ := candidate?_eq_some_iff.mp chosen
  have known : e' ∈ s.registry.entries := split ▸ List.mem_append_right _ List.mem_cons_self
  refine List.findSome?_eq_some_iff.mpr ⟨front, e', back, split, ?_, ?_⟩
  · exact candidate?_eq_some_iff.mpr ⟨rfl, live, Nat.le_trans due le, others⟩
  · intro x inFront
    cases late : s.candidate? far x with
    | none => rfl
    | some p =>
      obtain ⟨same, live', _, others'⟩ := candidate?_eq_some_iff.mp late
      by_cases handle : x.handle = e'.handle
      · -- the same arming, so it is due by the nearer target as well
        rw [handle] at live' others'
        cases live.symm.trans live'
        have picked : s.candidate? near x = some p :=
          candidate?_eq_some_iff.mpr ⟨same, handle ▸ live, due, handle ▸ others'⟩
        cases (none x inFront).symm.trans picked
      · have known' : x ∈ s.registry.entries := split ▸ List.mem_append_left _ inFront
        have before := others x.handle (List.mem_map_of_mem known') handle _ live'
        have after := others' e'.handle (List.mem_map_of_mem known) (Ne.symm handle) _ live
        exact absurd after before.asymm

theorem mem_of_next? {e : Registration} {a : Arming} {target : Duration}
    (next : s.next? target = some (e, a)) : e ∈ s.registry.entries := by
  obtain ⟨x, member, chosen⟩ := List.exists_of_findSome?_eq_some next
  obtain ⟨rfl, _⟩ := candidate?_eq_some_iff.mp chosen
  exact member

/-- The time does not matter to a step: it goes on to the trigger that is next, or the target. -/
theorem step_at (s : Simulator) (now target : Duration) :
    ({ s with now, target := some target } : Simulator).step = (s.toward target).step := by
  have next : ({ s with now, target := some target } : Simulator).next? target =
      (s.toward target).next? target := rfl
  simp only [step, next, toward]
  rfl

namespace Bound

theorem step_of_none (bound : s.Bound near) (settles : s.next? near = none) :
    s.step = { s with now := near, target := none } := by
  simp only [step, bound.target, settles]

theorem scripts (bound : s.Bound near) {e : Registration} {a : Arming} {target : Duration}
    (next : s.next? target = some (e, a)) : ∀ op ∈ e.callback.ops, op.Steady := by
  intro op member
  obtain ⟨ops, script, member⟩ := Callback.exists_of_mem_ops member
  exact bound.steady e (mem_of_next? next) ops script op member

theorem step_eq (bound : s.Bound near) {e : Registration} {a : Arming}
    (next : s.next? near = some (e, a)) :
    s.step = (s.fire e.handle a.trigger).execAll e.callback.ops ∧ s.step.Bound near := by
  have fired : (s.fire e.handle a.trigger).Bound near :=
    ⟨bound.target, bound.steady.markFired e.handle⟩
  obtain ⟨after, _⟩ := fired.execAll near (bound.scripts next)
  have stepped : s.step = (s.fire e.handle a.trigger).execAll e.callback.ops := by
    simp only [step, bound.target, next]
    exact after.await_eq
  exact ⟨stepped, stepped ▸ after⟩

theorem step_of_some (bound : s.Bound near) (le : near ≤ far) {e : Registration} {a : Arming}
    (next : s.next? near = some (e, a)) :
    s.step.Bound near ∧ (s.toward far).step = s.step.toward far := by
  obtain ⟨stepped, after⟩ := bound.step_eq next
  obtain ⟨stepped', _⟩ := (bound.toward far).step_eq (next?_of_le le next : s.next? far = _)
  have fired : (s.fire e.handle a.trigger).Bound near :=
    ⟨bound.target, bound.steady.markFired e.handle⟩
  refine ⟨after, stepped'.trans ?_⟩
  rw [stepped]
  exact (fired.execAll far (bound.scripts next)).2

/-- Once the nearer target is reached, the farther one still lies ahead, with nothing different
but the time. -/
theorem steps_toward (bound : s.Bound near) (le : near ≤ far) {n : Nat}
    (settled : (s.steps n).target = none) :
    (s.steps n).now = near ∧
      ∃ k now, (s.toward far).steps k = { s.steps n with now, target := some far } := by
  induction n generalizing s with
  | zero => cases bound.target.symm.trans settled
  | succ n ih =>
    rw [steps_succ] at settled ⊢
    cases next : s.next? near with
    | none =>
      rw [bound.step_of_none next, steps_of_settled rfl]
      exact ⟨rfl, 0, s.now, rfl⟩
    | some p =>
      obtain ⟨after, same⟩ := bound.step_of_some le next
      obtain ⟨now, k, time, stands⟩ := ih after settled
      refine ⟨now, k + 1, time, ?_⟩
      rw [steps_succ, same, stands]

theorem exists_settled (bound : s.Bound near) (le : near ≤ far) {n : Nat}
    (settled : ((s.toward far).steps n).target = none) : ∃ k, (s.steps k).target = none := by
  induction n generalizing s with
  | zero => cases settled
  | succ n ih =>
    cases next : s.next? near with
    | none =>
      refine ⟨1, ?_⟩
      change s.step.target = none
      rw [bound.step_of_none next]
    | some p =>
      obtain ⟨after, same⟩ := bound.step_of_some le next
      rw [steps_succ, same] at settled
      obtain ⟨k, reached⟩ := ih after settled
      exact ⟨k + 1, by rw [steps_succ, reached]⟩

theorem steps_toward_add (bound : s.Bound near) (le : near ≤ far) {n : Nat}
    (settled : (s.steps n).target = none) :
    ∃ k, ((s.toward far).steps k).target = some far ∧
      ∀ j, (s.toward far).steps (k + (j + 1)) = ((s.steps n).toward far).steps (j + 1) := by
  obtain ⟨_, k, time, stands⟩ := bound.steps_toward le settled
  refine ⟨k, by rw [stands], ?_⟩
  intro j
  rw [steps_add, stands, steps_succ, step_at, ← steps_succ]

/-- The farther target is reached at once just if it is reached by way of the nearer one. -/
theorem exists_settled_iff (bound : s.Bound near) (le : near ≤ far) :
    (∃ m n, (s.steps m).target = none ∧ (((s.steps m).toward far).steps n).target = none) ↔
      ∃ n, ((s.toward far).steps n).target = none := by
  constructor
  · rintro ⟨m, n, settled, reached⟩
    obtain ⟨k, _, onward⟩ := bound.steps_toward_add le settled
    cases n with
    | zero => cases reached
    | succ j => exact ⟨k + (j + 1), by rw [onward, reached]⟩
  · rintro ⟨n, reached⟩
    obtain ⟨m, settled⟩ := bound.exists_settled le reached
    obtain ⟨k, waits, onward⟩ := bound.steps_toward_add le settled
    have ahead : k < n := by
      by_contra behind
      obtain ⟨j, rfl⟩ := Nat.exists_eq_add_of_le (Nat.not_lt.mp behind)
      rw [steps_add, steps_of_settled reached, reached] at waits
      cases waits
    obtain ⟨j, rfl⟩ := Nat.exists_eq_add_of_lt ahead
    exact ⟨m, j + 1, settled, by rw [← onward, ← reached]; rfl⟩

theorem steps_eq (bound : s.Bound near) (le : near ≤ far) {m n k : Nat}
    (settled : (s.steps m).target = none)
    (reached : (((s.steps m).toward far).steps n).target = none)
    (reached' : ((s.toward far).steps k).target = none) :
    (s.toward far).steps k = ((s.steps m).toward far).steps n := by
  obtain ⟨i, _, onward⟩ := bound.steps_toward_add le settled
  cases n with
  | zero => cases reached
  | succ j =>
    rw [← onward] at reached ⊢
    exact steps_eq_of_settled reached' reached

end Bound

end Simulator

end VirtualClock
