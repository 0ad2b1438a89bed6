import VirtualClock.Proofs.TimerList.Order

/-!
The armed timers of a list, in firing order. Arming puts a timer behind those due no later,
disarming takes it out, and disarmed timers that come and go make no difference.
-/

namespace VirtualClock

/-- Handles with their triggers, without those that have none. -/
def armedOf (alarms : List (TimerHandle × Option Duration)) : List (TimerHandle × Duration) :=
  alarms.filterMap fun a => a.2.map (a.1, ·)

section armedOf

variable {alarms : List (TimerHandle × Option Duration)} {h : TimerHandle} {d : Duration}

theorem mem_armedOf : (h, d) ∈ armedOf alarms ↔ (h, some d) ∈ alarms := by
  simp only [armedOf, List.mem_filterMap, Option.map_eq_some_iff, Prod.mk.injEq]
  constructor
  · rintro ⟨⟨g, trigger⟩, member, e, rfl, rfl, rfl⟩
    exact member
  · exact fun member => ⟨(h, some d), member, d, rfl, rfl, rfl⟩

theorem armedOf_filter {keep : TimerHandle × Option Duration → Bool}
    (keep' : TimerHandle × Duration → Bool) (same : ∀ h d, keep (h, some d) = keep' (h, d)) :
    armedOf (alarms.filter keep) = (armedOf alarms).filter keep' := by
  rw [armedOf, armedOf, List.filterMap_filter, List.filter_filterMap]
  apply List.filterMap_congr
  intro a _
  obtain ⟨g, trigger⟩ := a
  cases trigger with
  | none => simp
  | some e => simp [same, Option.filter]

@[simp] theorem armedOf_cons_none : armedOf ((h, none) :: alarms) = armedOf alarms := rfl

@[simp] theorem armedOf_cons_some :
    armedOf ((h, some d) :: alarms) = (h, d) :: armedOf alarms := rfl

theorem armedOf_append (front back : List (TimerHandle × Option Duration)) :
    armedOf (front ++ back) = armedOf front ++ armedOf back :=
  List.filterMap_append

theorem armedOf_of_disarmed (disarmed : ∀ a ∈ alarms, a.2 = none) : armedOf alarms = [] := by
  refine List.filterMap_eq_nil_iff.mpr fun a member => ?_
  rw [disarmed a member]
  rfl

theorem armedOf_early :
    armedOf (alarms.filter fun a => triggerRank a.2 ≤ triggerRank none) = [] := by
  refine armedOf_of_disarmed fun a member => ?_
  have rank := (List.mem_filter.mp member).2
  cases trigger : a.2 with
  | none => rfl
  | some d => simp [trigger] at rank

theorem armedOf_late :
    armedOf (alarms.filter fun a => triggerRank none < triggerRank a.2) = armedOf alarms := by
  rw [armedOf_filter (fun _ => true) fun _ _ => by simp, List.filter_true]

theorem armedOf_upTo (d : Duration) :
    armedOf (alarms.filter fun a => triggerRank a.2 ≤ triggerRank (some d)) =
      (armedOf alarms).filter (·.2 ≤ d) :=
  armedOf_filter _ fun _ _ => by simp [Duration.le_def]

theorem armedOf_past (d : Duration) :
    armedOf (alarms.filter fun a => triggerRank (some d) < triggerRank a.2) =
      (armedOf alarms).filter (d < ·.2) :=
  armedOf_filter _ fun _ _ => by simp [Duration.lt_def]

end armedOf

namespace TimerList

variable {ts : TimerList} {h : TimerHandle} {d : Duration}

def armed (ts : TimerList) : List (TimerHandle × Duration) := armedOf ts.alarms

theorem mem_armed : (h, d) ∈ ts.armed ↔ (h, some d) ∈ ts.alarms := mem_armedOf

theorem armed_insert (sorted : ts.Sorted) (h : TimerHandle) :
    (ts.insert { handle := h }).armed = ts.armed := by
  rw [armed, alarms_insert sorted, armedOf_append, armedOf_early]
  exact armedOf_late

theorem armed_disarm (sorted : ts.Sorted) (distinct : ts.handles.Nodup) (member : h ∈ ts.handles) :
    (ts.setTrigger h none).armed = ts.armed.filter (·.1 != h) := by
  rw [armed, alarms_setTrigger sorted distinct member, armedOf_append, armedOf_early,
    armedOf_cons_none, armedOf_late]
  exact armedOf_filter _ fun _ _ => rfl

/-- A timer that is armed goes behind those due no later. -/
theorem armed_arm (sorted : ts.Sorted) (distinct : ts.handles.Nodup) (member : h ∈ ts.handles)
    (d : Duration) :
    (ts.setTrigger h (some d)).armed =
      (ts.armed.filter (·.1 != h)).filter (·.2 ≤ d) ++
        (h, d) :: (ts.armed.filter (·.1 != h)).filter (d < ·.2) := by
  have others : armedOf (ts.alarms.filter (·.1 != h)) = ts.armed.filter (·.1 != h) :=
    armedOf_filter _ fun _ _ => rfl
  rw [armed, alarms_setTrigger sorted distinct member, armedOf_append, armedOf_cons_some,
    armedOf_upTo, armedOf_past, others]

theorem First.armed_eq (first : ts.First h d) (sorted : ts.Sorted) (distinct : ts.handles.Nodup) :
    ts.armed = (h, d) :: (ts.setTrigger h none).armed := by
  rw [handles_eq_map_alarms] at distinct
  have member : h ∈ ts.handles := by
    rw [handles_eq_map_alarms]
    exact List.mem_map_of_mem first.mem
  rw [armed_disarm sorted (ts.handles_eq_map_alarms ▸ distinct) member]
  obtain ⟨front, back, split, disarmed⟩ := first
  have armed : ts.armed = (h, d) :: armedOf back := by
    rw [TimerList.armed, split, armedOf_append, armedOf_of_disarmed disarmed, armedOf_cons_some]
    rfl
  have others : ∀ a ∈ armedOf back, (a.1 != h) = true := by
    intro a behind
    rw [split, List.map_append, List.map_cons] at distinct
    have fresh := (List.nodup_cons.mp (List.nodup_append.mp distinct).2.1).1
    have inBack : a.1 ∈ back.map (·.1) := List.mem_map_of_mem (mem_armedOf.mp behind)
    simpa using fun same : a.1 = h => fresh (same ▸ inBack)
  rw [armed, List.filter_cons_of_neg (by simp), List.filter_eq_self.mpr others]

end TimerList

end VirtualClock
