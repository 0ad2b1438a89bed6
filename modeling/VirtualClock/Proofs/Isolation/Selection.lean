import VirtualClock.Proofs.FakeTime.Calls
import VirtualClock.Proofs.World.Coherence

/-!
Loops that hold some of the tasks of another loop, in the same order but under tickets of their own.
What a clock does to a loop is told without tickets by the tasks that go and those that are queued;
done to both loops, it leaves the one with the same tasks of the other, and so does what concerns
none of these tasks.
-/

namespace VirtualClock

theorem map_task_idlesFrom (tasks : List Task) (first : Ticket) :
    (idlesFrom tasks first).map (·.task) = tasks := by
  rw [idlesFrom, List.map_map]
  exact List.zipIdx_map_fst ..

namespace EventLoop

/-- The tasks for which `keep` holds stay where they are, the others go, and `new` ones are
queued. -/
structure Edits (keep : Task → Bool) (new : List Task) (l l' : EventLoop) : Prop where
  batch : l'.batch.map (·.task) = (l.batch.map (·.task)).filter keep
  queue : l'.queue.map (·.task) = (l.queue.map (·.task)).filter keep ++ new

/-- Loop `l'` has just the tasks of `l` for which `p` holds. -/
structure Selects (p : Task → Bool) (l l' : EventLoop) : Prop where
  batch : l'.batch.map (·.task) = (l.batch.map (·.task)).filter p
  queue : l'.queue.map (·.task) = (l.queue.map (·.task)).filter p

section Edits

variable {l l' : EventLoop} {c : Nat}

theorem edits_same (batch : l'.batch = l.batch) (queue : l'.queue = l.queue) :
    Edits (fun _ => true) [] l l' := by
  constructor
  · rw [batch, List.filter_eq_self.mpr fun _ _ => rfl]
  · rw [queue, List.filter_eq_self.mpr fun _ _ => rfl, List.append_nil]

theorem edits_enqueueAll (l : EventLoop) (tasks : List Task) :
    Edits (fun _ => true) tasks l (l.enqueueAll tasks) := by
  constructor
  · rw [batch_enqueueAll, List.filter_eq_self.mpr fun _ _ => rfl]
  · rw [queue_enqueueAll, List.map_append, map_task_idlesFrom,
      List.filter_eq_self.mpr fun _ _ => rfl]

theorem Edits.of_eq {l₁ : EventLoop} {keep : Task → Bool} {new : List Task}
    (edits : Edits keep new l₁ l') (batch : l₁.batch = l.batch) (queue : l₁.queue = l.queue) :
    Edits keep new l l' :=
  ⟨batch ▸ edits.batch, queue ▸ edits.queue⟩

theorem map_task_others (idles : List Idle) (c : Nat) :
    (idles.filter (!·.isOf c)).map (·.task) =
      (idles.map (·.task)).filter (·.owner? != some c) := by
  rw [List.filter_map]
  rfl

theorem edits_without (l : EventLoop) (c : Nat) :
    Edits (·.owner? != some c) [] l (l.without c) :=
  ⟨map_task_others l.batch c, (map_task_others l.queue c).trans (List.append_nil _).symm⟩

theorem SameBut.edits (same : SameBut c l l') (tasks : List Task) :
    Edits (·.owner? != some c) tasks l ((l'.without c).enqueueAll tasks) := by
  constructor
  · rw [← map_task_others, ← same.batch]
    rfl
  · rw [← map_task_others, ← same.queue, queue_enqueueAll, List.map_append, map_task_idlesFrom]
    rfl

end Edits

namespace Selects

variable {p keep : Task → Bool} {new : List Task} {l l₁ v v₁ : EventLoop} {i : Idle}
  {rest : List Idle} {d : Nat}

theorem removeSource (selects : Selects p l v) (id : Nat) : Selects p (l.removeSource id) v :=
  ⟨selects.batch, selects.queue⟩

theorem edits (selects : Selects p l v) (edits : Edits keep new l l₁) (edits' : Edits keep new v v₁)
    (own : ∀ t ∈ new, p t = true) : Selects p l₁ v₁ := by
  constructor
  · rw [edits.batch, edits'.batch, selects.batch]
    exact List.filter_comm ..
  · rw [edits.queue, edits'.queue, selects.queue, List.filter_append, List.filter_eq_self.mpr own]
    exact congrArg (· ++ new) (List.filter_comm ..)

theorem enqueueAll_of_not (selects : Selects p l v) (other : ∀ t ∈ new, p t = false) :
    Selects p (l.enqueueAll new) v := by
  have none : new.filter p = [] := List.filter_eq_nil_iff.mpr fun t member => by
    simp [other t member]
  refine ⟨selects.batch, ?_⟩
  rw [queue_enqueueAll, List.map_append, map_task_idlesFrom, List.filter_append, none,
    List.append_nil]
  exact selects.queue

theorem sameBut (selects : Selects p l v) (same : SameBut d l l₁)
    (other : ∀ t, p t = true → t.owner? ≠ some d) : Selects p l₁ v := by
  have through (idles : List Idle) : (idles.map (·.task)).filter p =
      ((idles.filter (!·.isOf d)).map (·.task)).filter p := by
    rw [List.filter_map, List.filter_map, List.filter_filter]
    congr 1
    apply List.filter_congr
    intro i _
    cases chosen : p i.task with
    | false => simp [chosen]
    | true => simp [chosen, Idle.isOf, other _ chosen]
  constructor
  · rw [through, same.batch, ← through]
    exact selects.batch
  · rw [through, same.queue, ← through]
    exact selects.queue

theorem takeQueue (selects : Selects p l v) : Selects p l.takeQueue v.takeQueue := by
  refine ⟨?_, rfl⟩
  change (v.batch ++ v.queue).map _ = ((l.batch ++ l.queue).map _).filter p
  rw [List.map_append, List.map_append, List.filter_append, selects.batch, selects.queue]

/-- The next task is one of these, and so the next on both loops. -/
theorem exists_next (selects : Selects p l v) (batch : l.batch = i :: rest)
    (chosen : p i.task = true) :
    ∃ ticket rest', v.batch = ⟨ticket, i.task⟩ :: rest' ∧
      Selects p (l.withBatch rest) (v.withBatch rest') := by
  have whole := selects.batch
  rw [batch, List.map_cons, List.filter_cons_of_pos chosen] at whole
  obtain ⟨j, rest', batch', task, tasks⟩ := List.map_eq_cons_iff.mp whole
  refine ⟨j.ticket, rest', ?_, tasks, selects.queue⟩
  rw [batch', ← task]

theorem withBatch (selects : Selects p l v) (batch : l.batch = i :: rest)
    (foreign : p i.task = false) : Selects p (l.withBatch rest) v := by
  refine ⟨?_, selects.queue⟩
  rw [selects.batch, batch, List.map_cons, List.filter_cons_of_neg (by simp [foreign])]
  rfl

theorem batch_eq_nil (selects : Selects p l v) (drained : l.batch = []) : v.batch = [] := by
  apply List.map_eq_nil_iff.mp
  rw [selects.batch, drained]
  rfl

end Selects

end EventLoop

namespace FakeTime

variable {f : FakeTime} {c : Nat} {target : Duration} {l l' : EventLoop} {g : TimerHandle}
  {t : TimerRecord}

theorem Ready.edits (ready : Ready c l f target l') :
    EventLoop.Edits (·.owner? != some c) (f.dueTasks c target) l (f.schedule c target l').2 := by
  rw [loop_schedule ready.ticketed ready.linked ready.sorted ready.covered]
  exact ready.sameBut.edits _

/-- Of the live work of a clock the dispatch of a timer is what has the timer's ticket. -/
theorem ticket_mem_pending_iff (ticketed : l.Ticketed) (linked : l.idlesOf c = f.idles c)
    (coherent : f.Coherent) (found : f.timers.find? g = some t) {i : Idle} (own : i ∈ f.idles c) :
    i.ticket ∈ t.pending.toList ↔ i.task = .timer c g := by
  obtain ⟨member, rfl⟩ := (TimerList.find?_eq_some_iff coherent.distinct).mp found
  constructor
  · intro held
    have dispatch : (⟨i.ticket, .timer c t.handle⟩ : Idle) ∈ f.idles c :=
      List.mem_append_left _ (TimerList.mem_idles_iff.mpr
        ⟨t, member, Option.mem_toList.mp held, rfl⟩)
    exact congrArg Idle.task (Keyed.eq_of_mem (tickets_nodup linked ticketed) own dispatch rfl)
  · intro task
    rcases List.mem_append.mp own with timer | final
    · obtain ⟨u, hu, pending, task'⟩ := TimerList.mem_idles_iff.mp timer
      have same : u.handle = t.handle := by simpa [task] using task'.symm
      cases Keyed.eq_of_mem coherent.distinct hu member same
      exact Option.mem_toList.mpr pending
    · obtain ⟨x, _, rfl⟩ := Option.map_eq_some_iff.mp (Option.mem_toList.mp final)
      cases task

theorem edits_cancel (ticketed : l.Ticketed) (linked : l.idlesOf c = f.idles c)
    (coherent : f.Coherent) (found : f.timers.find? g = some t) :
    EventLoop.Edits (fun task => task.owner? != some c || task.handle? != some g) [] l
      (l.cancelAll t.pending.toList) := by
  obtain ⟨member, _⟩ := (TimerList.find?_eq_some_iff coherent.distinct).mp found
  have kept (i : Idle) (live : i ∈ l.live) : decide (i.ticket ∉ t.pending.toList) =
      (i.task.owner? != some c || i.task.handle? != some g) := by
    cases own : i.isOf c with
    | true =>
      have mine : i ∈ f.idles c := linked ▸ List.mem_filter.mpr ⟨live, own⟩
      rw [Idle.isOf_iff] at own
      have dispatch : i.ticket ∈ t.pending.toList ↔ i.task.handle? = some g := by
        rw [ticket_mem_pending_iff ticketed linked coherent found mine]
        cases task : i.task <;> simp_all [Task.owner?, Task.handle?]
      by_cases queued : i.task.handle? = some g <;> simp [own, dispatch, queued]
    | false =>
      have others : i.ticket ∉ t.pending.toList := by
        intro held
        obtain ⟨j, mine, same⟩ := List.mem_map.mp (ticket_mem_idlesOf linked member held)
        obtain ⟨live', ofClock⟩ := List.mem_filter.mp mine
        rw [Keyed.eq_of_mem ticketed.distinct live' live same, own] at ofClock
        cases ofClock
      have foreign : i.task.owner? ≠ some c := by simpa [Idle.isOf] using own
      simp [others, foreign]
  have through (idles : List Idle) (live : ∀ i ∈ idles, i ∈ l.live) :
      (idles.filter (·.ticket ∉ t.pending.toList)).map (·.task) =
        (idles.map (·.task)).filter
          (fun task => task.owner? != some c || task.handle? != some g) := by
    rw [List.filter_map]
    exact congrArg _ (List.filter_congr fun i member => kept i (live i member))
  rw [EventLoop.cancelAll_eq ticketed]
  constructor
  · exact through _ fun _ => List.mem_append_left _
  · rw [List.append_nil]
    exact through _ fun _ => List.mem_append_right _

end FakeTime

end VirtualClock
