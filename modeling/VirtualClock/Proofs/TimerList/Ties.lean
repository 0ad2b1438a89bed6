import Mathlib.Logic.Equiv.Basic
import VirtualClock.Proofs.TimerList.Armed

/-!
Timers with equal triggers. An order of firing is told by the timers that are due at each time, in
their order: two orders with the same ties are one. Moving a timer takes it out of the tie that it
is in and puts it at the end of the one that it comes to, so of two moves of one timer the last one
counts, and moves of two timers change places unless both timers come to the same tie.
-/

namespace VirtualClock

/-- The timers with trigger `d`, in firing order. -/
def dueAt (armed : List (TimerHandle × Duration)) (d : Duration) : List TimerHandle :=
  (armed.filter (·.2 = d)).map (·.1)

section dueAt

variable {armed armed' : List (TimerHandle × Duration)}

theorem dueAt_append (front back : List (TimerHandle × Duration)) (d : Duration) :
    dueAt (front ++ back) d = dueAt front d ++ dueAt back d := by
  rw [dueAt, List.filter_append, List.map_append, dueAt, dueAt]

theorem dueAt_filter (armed : List (TimerHandle × Duration)) (keep : Duration → Prop)
    [DecidablePred keep] (d : Duration) :
    dueAt (armed.filter fun a => keep a.2) d = if keep d then dueAt armed d else [] := by
  rw [dueAt, List.filter_filter]
  split
  · next kept =>
    rw [dueAt]
    congr 1
    apply List.filter_congr
    intro a _
    by_cases here : a.2 = d <;> simp [here, kept]
  · next dropped =>
    rw [List.map_eq_nil_iff, List.filter_eq_nil_iff]
    rintro a _ both
    rw [Bool.and_eq_true, decide_eq_true_eq, decide_eq_true_eq] at both
    exact dropped (both.1 ▸ both.2)

theorem dueAt_singleton (h : TimerHandle) (e d : Duration) :
    dueAt [(h, e)] d = if e = d then [h] else [] := by
  by_cases here : e = d <;> simp [dueAt, here]

theorem dueAt_others (armed : List (TimerHandle × Duration)) (h : TimerHandle) (d : Duration) :
    dueAt (armed.filter (·.1 != h)) d = (dueAt armed d).filter (· != h) := by
  rw [dueAt, dueAt, List.filter_map, List.filter_filter, List.filter_filter]
  congr 1
  apply List.filter_congr
  intro a _
  exact Bool.and_comm ..

theorem dueAt_map (σ : TimerHandle → TimerHandle) (armed : List (TimerHandle × Duration))
    (d : Duration) : dueAt (armed.map (Prod.map σ id)) d = (dueAt armed d).map σ := by
  rw [dueAt, List.filter_map, List.map_map, dueAt, List.map_map]
  rfl

theorem filter_eq_map_dueAt (armed : List (TimerHandle × Duration)) (d : Duration) :
    armed.filter (·.2 = d) = (dueAt armed d).map (·, d) := by
  rw [dueAt, List.map_map]
  refine (List.map_id _).symm.trans (List.map_congr_left fun a member => ?_)
  have here : a.2 = d := by simpa using (List.mem_filter.mp member).2
  exact Prod.ext rfl here

/-- Two orders of firing with the same ties are one. -/
theorem eq_of_dueAt (sorted : armed.Pairwise fun a b => a.2 ≤ b.2)
    (sorted' : armed'.Pairwise fun a b => a.2 ≤ b.2) (same : ∀ d, dueAt armed d = dueAt armed' d) :
    armed = armed' := by
  refine Keyed.eq_of_filter_eq (fun a b le ge => ?_) sorted sorted' fun d => ?_
  · exact Duration.ext (Nat.le_antisymm le ge)
  · rw [filter_eq_map_dueAt, filter_eq_map_dueAt, same]

end dueAt

namespace TimerList

variable {ts : TimerList} {h g : TimerHandle} {trigger trigger' : Option Duration} {d : Duration}

theorem Sorted.armed (sorted : ts.Sorted) : ts.armed.Pairwise fun a b => a.2 ≤ b.2 := by
  rw [sorted_iff_alarms] at sorted
  refine List.pairwise_filterMap.mpr (sorted.imp fun {a b} le x first y second => ?_)
  obtain ⟨d, trigger, rfl⟩ := Option.map_eq_some_iff.mp first
  obtain ⟨e, trigger', rfl⟩ := Option.map_eq_some_iff.mp second
  rw [trigger, trigger'] at le
  exact Nat.le_of_succ_le_succ le

theorem alarms_setTrigger_perm (sorted : ts.Sorted) (distinct : ts.handles.Nodup)
    (member : h ∈ ts.handles) (trigger : Option Duration) :
    (ts.setTrigger h trigger).alarms.Perm ((h, trigger) :: ts.alarms.filter (·.1 != h)) := by
  rw [alarms_setTrigger sorted distinct member]
  refine List.perm_middle.trans (List.Perm.cons _ ?_)
  have later : (fun a : TimerHandle × Option Duration =>
      decide (triggerRank trigger < triggerRank a.2)) =
      fun a => !decide (triggerRank a.2 ≤ triggerRank trigger) := by
    funext a
    rw [Bool.eq_iff_iff, Bool.not_eq_true', decide_eq_true_eq, decide_eq_false_iff_not, Nat.not_le]
  rw [later]
  exact List.filter_append_perm ..

/-- A timer that moves leaves its tie, and goes to the end of the one that it comes to. -/
theorem dueAt_setTrigger (sorted : ts.Sorted) (distinct : ts.handles.Nodup)
    (member : h ∈ ts.handles) (trigger : Option Duration) (d : Duration) :
    dueAt (ts.setTrigger h trigger).armed d =
      (dueAt ts.armed d).filter (· != h) ++ if trigger = some d then [h] else [] := by
  cases trigger with
  | none =>
    rw [armed_disarm sorted distinct member, dueAt_others, if_neg (by simp), List.append_nil]
  | some e =>
    rw [armed_arm sorted distinct member, ← List.singleton_append, dueAt_append, dueAt_append,
      dueAt_filter _ (· ≤ e), dueAt_filter _ (e < ·), dueAt_singleton, dueAt_others]
    simp only [Option.some.injEq, Duration.le_def, Duration.lt_def]
    rcases Nat.lt_trichotomy e.nanos d.nanos with before | same | after
    · have other : e ≠ d := fun same => Nat.ne_of_lt before (congrArg Duration.nanos same)
      rw [if_neg (Nat.not_le_of_lt before), if_pos before, if_neg other]
      simp
    · obtain rfl := Duration.ext same
      simp
    · have other : e ≠ d := fun same => Nat.ne_of_gt after (congrArg Duration.nanos same)
      rw [if_pos (Nat.le_of_lt after), if_neg (Nat.lt_asymm after), if_neg other]
      simp

section twice

variable (sorted : ts.Sorted) (distinct : ts.handles.Nodup) (member : h ∈ ts.handles)

theorem filter_ite_self (trigger : Option Duration) (d : Duration) (h : TimerHandle) :
    (if trigger = some d then [h] else []).filter (· != h) = [] := by
  split <;> simp

theorem filter_ite_other (trigger : Option Duration) (d : Duration) (apart : h ≠ g) :
    (if trigger = some d then [h] else []).filter (· != g) =
      if trigger = some d then [h] else [] := by
  split <;> simp [apart]

include sorted distinct member in
theorem alarms_setTrigger_again_perm (trigger trigger' : Option Duration) :
    ((ts.setTrigger h trigger).setTrigger h trigger').alarms.Perm
      (ts.setTrigger h trigger').alarms := by
  have once (trigger) := alarms_setTrigger_perm sorted distinct member trigger
  have twice := alarms_setTrigger_perm (sorted_setTrigger sorted h trigger)
    ((handles_setTrigger_perm ..).nodup_iff.mpr distinct)
    ((handles_setTrigger_perm ..).mem_iff.mpr member) trigger'
  refine twice.trans (.trans (.cons _ ?_) (once trigger').symm)
  refine ((once trigger).filter _).trans (.of_eq ?_)
  rw [List.filter_cons_of_neg (by simp), List.filter_filter]
  simp

include sorted distinct member in
theorem armed_setTrigger_again (trigger trigger' : Option Duration) :
    ((ts.setTrigger h trigger).setTrigger h trigger').armed =
      (ts.setTrigger h trigger').armed := by
  have sorted₁ := sorted_setTrigger sorted h trigger
  refine eq_of_dueAt (sorted_setTrigger sorted₁ h trigger').armed
    (sorted_setTrigger sorted h trigger').armed fun d => ?_
  rw [dueAt_setTrigger sorted₁ ((handles_setTrigger_perm ..).nodup_iff.mpr distinct)
      ((handles_setTrigger_perm ..).mem_iff.mpr member),
    dueAt_setTrigger sorted distinct member, dueAt_setTrigger sorted distinct member,
    List.filter_append, filter_ite_self, List.append_nil, List.filter_filter]
  simp

variable (member' : g ∈ ts.handles) (apart : h ≠ g)

include sorted distinct member member' apart in
theorem alarms_setTrigger_twice_perm (trigger trigger' : Option Duration) :
    ((ts.setTrigger h trigger).setTrigger g trigger').alarms.Perm
      ((g, trigger') :: (h, trigger) ::
        (ts.alarms.filter (·.1 != h)).filter (·.1 != g)) := by
  have twice := alarms_setTrigger_perm (sorted_setTrigger sorted h trigger)
    ((handles_setTrigger_perm ..).nodup_iff.mpr distinct)
    ((handles_setTrigger_perm ..).mem_iff.mpr member') trigger'
  refine twice.trans (.cons _ ?_)
  refine ((alarms_setTrigger_perm sorted distinct member trigger).filter _).trans (.of_eq ?_)
  exact List.filter_cons_of_pos (by simpa using apart)

include sorted distinct member member' apart in
theorem dueAt_setTrigger_twice (trigger trigger' : Option Duration) (d : Duration) :
    dueAt ((ts.setTrigger h trigger).setTrigger g trigger').armed d =
      ((dueAt ts.armed d).filter (· != h)).filter (· != g) ++
        ((if trigger = some d then [h] else []) ++ if trigger' = some d then [g] else []) := by
  rw [dueAt_setTrigger (sorted_setTrigger sorted h trigger)
      ((handles_setTrigger_perm ..).nodup_iff.mpr distinct)
      ((handles_setTrigger_perm ..).mem_iff.mpr member'),
    dueAt_setTrigger sorted distinct member, List.filter_append, filter_ite_other _ _ apart,
    List.append_assoc]

include sorted distinct member member' apart in
theorem alarms_setTrigger_swap_perm (trigger trigger' : Option Duration) :
    ((ts.setTrigger g trigger').setTrigger h trigger).alarms.Perm
      ((ts.setTrigger h trigger).setTrigger g trigger').alarms := by
  have hg := alarms_setTrigger_twice_perm sorted distinct member member' apart trigger trigger'
  have gh := alarms_setTrigger_twice_perm sorted distinct member' member apart.symm trigger' trigger
  refine gh.trans (.trans (.trans (.swap ..) (.of_eq ?_)) hg.symm)
  rw [List.filter_comm]

include sorted distinct member member' apart in
theorem armed_setTrigger_swap (trigger trigger' : Option Duration)
    (untied : ∀ d, trigger = some d → trigger' ≠ some d) :
    ((ts.setTrigger g trigger').setTrigger h trigger).armed =
      ((ts.setTrigger h trigger).setTrigger g trigger').armed := by
  refine eq_of_dueAt (sorted_setTrigger (sorted_setTrigger sorted ..) ..).armed
    (sorted_setTrigger (sorted_setTrigger sorted ..) ..).armed fun d => ?_
  rw [dueAt_setTrigger_twice sorted distinct member' member apart.symm,
    dueAt_setTrigger_twice sorted distinct member member' apart, List.filter_comm]
  congr 1
  by_cases here : trigger = some d
  · rw [if_neg (untied d here), List.nil_append, List.append_nil]
  · rw [if_neg here, List.nil_append, List.append_nil]

include sorted distinct member member' apart in
theorem exists_dueAt_tied (d : Duration) :
    ∃ others,
      dueAt ((ts.setTrigger h (some d)).setTrigger g (some d)).armed d = others ++ [h, g] ∧
      dueAt ((ts.setTrigger g (some d)).setTrigger h (some d)).armed d = others ++ [g, h] := by
  refine ⟨((dueAt ts.armed d).filter (· != h)).filter (· != g), ?_, ?_⟩
  · rw [dueAt_setTrigger_twice sorted distinct member member' apart, if_pos rfl, if_pos rfl]
    rfl
  · rw [dueAt_setTrigger_twice sorted distinct member' member apart.symm, if_pos rfl, if_pos rfl,
      List.filter_comm]
    rfl

include sorted distinct member member' apart in
theorem armed_setTrigger_tied (d : Duration) :
    ((ts.setTrigger g (some d)).setTrigger h (some d)).armed =
      ((ts.setTrigger h (some d)).setTrigger g (some d)).armed.map
        (Prod.map (Equiv.swap h g) id) := by
  refine eq_of_dueAt (sorted_setTrigger (sorted_setTrigger sorted ..) ..).armed
    (List.pairwise_map.mpr (sorted_setTrigger (sorted_setTrigger sorted ..) ..).armed) fun e => ?_
  rw [dueAt_setTrigger_twice sorted distinct member' member apart.symm, dueAt_map,
    dueAt_setTrigger_twice sorted distinct member member' apart, List.map_append, List.filter_comm]
  congr 1
  · refine (List.map_id _).symm.trans (List.map_congr_left fun k other => ?_)
    have notG := List.of_mem_filter other
    have notH := List.of_mem_filter (List.mem_of_mem_filter other)
    simp only [bne_iff_ne] at notG notH
    exact (Equiv.swap_apply_of_ne_of_ne notH notG).symm
  · by_cases here : d = e <;> simp [here]

end twice

end TimerList

end VirtualClock
