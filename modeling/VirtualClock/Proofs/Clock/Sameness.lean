import VirtualClock.Proofs.Isolation.Likeness
import VirtualClock.Proofs.RealTime.Sources
import VirtualClock.Proofs.TimerList.Ties

/-!
States of a clock that are the same for all that they lead to. Two of them have the same time, the
same triggers, the same dispatches queued and the same target, and on the loop the same work in the
same order. The order of disarmed timers does not matter, nor do the tickets of the clock's own
work. Some timers may have changed places: what is seen of them then goes by other names.
-/

namespace VirtualClock

/-- The task, with its timer under another name. -/
def Task.rename (σ : TimerHandle → TimerHandle) : Task → Task
  | timer c h => timer c (σ h)
  | finalTime c => finalTime c
  | idle name ops => idle name ops

/-- What is seen of a piece of work: of clock `c`'s own the task, with its timer under another name,
and of all other work the task and the ticket. -/
def Idle.seen (c : Nat) (σ : TimerHandle → TimerHandle) (i : Idle) : Option Ticket × Task :=
  if i.isOf c then (none, i.task.rename σ) else (some i.ticket, i.task)

/-- Two loops with the same work in the same order, and with the same sources. -/
structure EventLoop.SameUpTo (c : Nat) (σ : TimerHandle → TimerHandle) (l l' : EventLoop) :
    Prop where
  batch : l'.batch.map (·.seen c id) = l.batch.map (·.seen c σ)
  queue : l'.queue.map (·.seen c id) = l.queue.map (·.seen c σ)
  sources : l.SameSources l'

/-- Whether a timer has a dispatch queued. -/
def TimerList.IsQueued (ts : TimerList) (h : TimerHandle) : Prop :=
  ∃ t ∈ ts.toList, t.handle = h ∧ t.pending.isSome = true

/-- The same time and target, the same triggers, the same dispatches queued, and the armed timers in
the same order. -/
structure FakeTime.SameUpTo (σ : TimerHandle → TimerHandle) (f f' : FakeTime) : Prop where
  now : f'.now = f.now
  target : f'.final.map (·.target) = f.final.map (·.target)
  triggers : f'.timers.alarms.Perm f.timers.alarms
  queued : ∀ h, f'.timers.IsQueued h ↔ f.timers.IsQueued h
  armed : f'.timers.armed = f.timers.armed.map (Prod.map σ id)

/-- Two calls of clock `c` that come to the same, but for names that `σ` gives to its timers. -/
structure Reply.SameUpTo (c : Nat) (σ : TimerHandle → TimerHandle) (reply reply' : Reply Unit) :
    Prop where
  result : reply'.result = reply.result
  clock : ∃ r f f', reply.clock = ⟨some r, .fake f⟩ ∧ reply'.clock = ⟨some r, .fake f'⟩ ∧
    f.SameUpTo σ f'
  loop : reply.loop.SameUpTo c σ reply'.loop

/-- The dispatches of the timers due by a target, then the final task. -/
def tasksUpTo (c : Nat) (target : Duration) (armed : List (TimerHandle × Duration)) : List Task :=
  (armed.filter (·.2 ≤ target)).map (fun a => .timer c a.1) ++ [.finalTime c]

section tasks

variable {c : Nat} {target : Duration} {σ : TimerHandle → TimerHandle}
  {armed : List (TimerHandle × Duration)}

theorem owner_of_mem_tasksUpTo {t : Task} (member : t ∈ tasksUpTo c target armed) :
    t.owner? = some c := by
  rcases List.mem_append.mp member with timer | final
  · obtain ⟨a, _, rfl⟩ := List.mem_map.mp timer
    rfl
  · rw [List.mem_singleton.mp final]
    rfl

theorem tasksUpTo_map (c : Nat) (target : Duration) (σ : TimerHandle → TimerHandle)
    (armed : List (TimerHandle × Duration)) :
    tasksUpTo c target (armed.map (Prod.map σ id)) =
      (tasksUpTo c target armed).map (Task.rename σ) := by
  rw [tasksUpTo, tasksUpTo, List.map_append, List.filter_map, List.map_map, List.map_map]
  rfl

theorem FakeTime.dueTasks_eq_tasksUpTo {f : FakeTime} (sorted : f.timers.Sorted) (c : Nat)
    (target : Duration) : f.dueTasks c target = tasksUpTo c target f.timers.armed := by
  have upTo : armedOf (f.timers.alarms.filter fun a => a.2.any (· ≤ target)) =
      f.timers.armed.filter (·.2 ≤ target) := armedOf_filter _ fun h d => by simp
  have due : (f.timers.alarms.filter fun a => a.2.any (· ≤ target)).map
      (fun a => Task.timer c a.1) =
        (f.timers.armed.filter (·.2 ≤ target)).map (fun a => .timer c a.1) := by
    rw [← upTo, armedOf, List.map_filterMap, ← List.filterMap_eq_map]
    refine List.filterMap_congr fun a member => ?_
    obtain ⟨d, armed⟩ := Option.isSome_iff_exists.mp
      (Option.isSome_of_any (List.mem_filter.mp member).2)
    simp [armed]
  rw [FakeTime.dueTasks_eq sorted, due, tasksUpTo]

theorem Idle.seen_of_other {i : Idle} (other : i.isOf c = false) (σ : TimerHandle → TimerHandle) :
    i.seen c σ = (some i.ticket, i.task) := by
  rw [seen, if_neg (by simp [other])]

theorem map_seen_others (idles : List Idle) (c : Nat) (σ : TimerHandle → TimerHandle) :
    (idles.filter (!·.isOf c)).map (·.seen c σ) =
      (idles.filter (!·.isOf c)).map (·.seen c id) :=
  List.map_congr_left fun i member => by
    have other : i.isOf c = false := by simpa using (List.mem_filter.mp member).2
    rw [Idle.seen_of_other other, Idle.seen_of_other other]

theorem map_seen_idlesFrom {tasks : List Task} (own : ∀ t ∈ tasks, t.owner? = some c)
    (first : Ticket) (σ : TimerHandle → TimerHandle) :
    (idlesFrom tasks first).map (·.seen c σ) = tasks.map fun t => (none, t.rename σ) := by
  rw [← map_task_idlesFrom tasks first, List.map_map, map_task_idlesFrom]
  refine List.map_congr_left fun i member => ?_
  rw [Idle.seen, if_pos (Idle.isOf_iff.mpr (own _ (task_mem_of_mem_idlesFrom _ _ member).1))]
  rfl

end tasks

namespace FakeTime.Coherent

variable {f f' : FakeTime} {h : TimerHandle}

theorem isQueued_iff (coherent : f.Coherent) :
    f.timers.IsQueued h ↔
      ∃ x, f.final = some x ∧ ∃ d, (h, some d) ∈ f.timers.alarms ∧ d ≤ x.target := by
  constructor
  · rintro ⟨t, member, rfl, queued⟩
    obtain ⟨x, final, due⟩ := (coherent.pending_iff t member).mp queued
    obtain ⟨d, armed, le⟩ := TimerRecord.isDueBy_iff.mp due
    exact ⟨x, final, d, TimerList.mem_alarms_iff.mpr ⟨t, member, rfl, armed⟩, le⟩
  · rintro ⟨x, final, d, armed, le⟩
    obtain ⟨t, member, handle, trigger⟩ := TimerList.mem_alarms_iff.mp armed
    refine ⟨t, member, handle, (coherent.pending_iff t member).mpr ⟨x, final, ?_⟩⟩
    exact TimerRecord.isDueBy_iff.mpr ⟨d, trigger, le⟩

theorem isQueued_congr (coherent : f.Coherent) (coherent' : f'.Coherent)
    (target : f'.final.map (·.target) = f.final.map (·.target))
    (triggers : f'.timers.alarms.Perm f.timers.alarms) (h : TimerHandle) :
    f'.timers.IsQueued h ↔ f.timers.IsQueued h := by
  have told {f : FakeTime} (coherent : f.Coherent) : f.timers.IsQueued h ↔
      ∃ x, f.final.map (·.target) = some x ∧ ∃ d, (h, some d) ∈ f.timers.alarms ∧ d ≤ x := by
    rw [coherent.isQueued_iff]
    simp
  rw [told coherent', told coherent, target]
  simp only [triggers.mem_iff]

end FakeTime.Coherent

end VirtualClock
