import VirtualClock.FakeTime
import VirtualClock.Proofs.TimerList.Due

/-!
The scheduling of fake time. In a coherent fake time the timers with a queued dispatch are those
due by the pending target, time is behind no armed timer and behind no target, and the work that
it knows of is the clock's work on the loop. Scheduling takes all of that work off the loop and
puts the dispatches of the due timers, then the final task, at the end of the queue; a dispatch
or the final task that is next on the loop finds what it was queued for.
-/

namespace VirtualClock.FakeTime

variable {f : FakeTime} {c : Nat} {target : Duration} {l : EventLoop}

/-- The queued work of clock `c`: dispatches in the order of the timers, then the final task. -/
def idles (f : FakeTime) (c : Nat) : List Idle :=
  f.timers.idles c ++ (f.final.map fun x => ⟨x.ticket, .finalTime c⟩).toList

structure Coherent (f : FakeTime) : Prop where
  sorted : f.timers.Sorted
  distinct : f.timers.handles.Nodup
  /-- A timer has a dispatch queued just if it is due by the pending target. -/
  pending_iff : ∀ t ∈ f.timers.toList,
    t.pending.isSome = true ↔ ∃ x, f.final = some x ∧ t.isDueBy x.target = true
  now_le_trigger : ∀ h d, (h, some d) ∈ f.timers.alarms → f.now ≤ d
  now_le_target : ∀ x, f.final = some x → f.now ≤ x.target
  now_lt_trigger : f.final = none → ∀ h d, (h, some d) ∈ f.timers.alarms → f.now < d

theorem Coherent.hasPending_iff (h : f.Coherent) : f.hasPending = true ↔ f.final.isSome = true := by
  rw [hasPending, Bool.or_eq_true]
  refine ⟨fun pending => pending.elim id ?_, .inl⟩
  intro timers
  obtain ⟨t, member, queued⟩ := List.any_eq_true.mp timers
  obtain ⟨x, final, _⟩ := (h.pending_iff t member).mp queued
  simp [final]

theorem Coherent.settled_iff (h : f.Coherent) : f.hasPending = false ↔ f.final = none := by
  rw [← Bool.not_eq_true, h.hasPending_iff, Option.not_isSome_iff_eq_none]

theorem Coherent.idles_eq_nil (h : f.Coherent) (settled : f.final = none) : f.idles c = [] := by
  have none : f.timers.idles c = [] :=
    List.filterMap_eq_nil_iff.mpr fun t member => by
      have : ¬t.pending.isSome = true := by simp [h.pending_iff t member, settled]
      simp_all [TimerRecord.idle?]
  simp [idles, none, settled]

theorem final_of_idles_eq_nil (idle : f.idles c = []) : f.final = none := by
  rw [idles, List.append_eq_nil_iff] at idle
  simpa using idle.2

theorem Coherent.covered (h : f.Coherent) : f.timers.Covered f.target := by
  intro t member queued
  obtain ⟨x, final, due⟩ := (h.pending_iff t member).mp queued
  simpa [target, final] using due

theorem Coherent.now_le_target_of (h : f.Coherent) : f.now ≤ f.target := by
  unfold target
  cases final : f.final with
  | none => exact Nat.le_refl _
  | some x => exact h.now_le_target x final

section schedule

@[simp] theorem alarms_schedule (f : FakeTime) (c : Nat) (target : Duration) (l : EventLoop) :
    (f.schedule c target l).1.timers.alarms = f.timers.alarms :=
  TimerList.alarms_markDue ..

/-- What scheduling queues. -/
def dueTasks (f : FakeTime) (c : Nat) (target : Duration) : List Task :=
  (f.timers.due target).map (fun t => .timer c t.handle) ++ [.finalTime c]

theorem owner_of_mem_dueTasks {t : Task} (h : t ∈ f.dueTasks c target) : t.owner? = some c := by
  rcases List.mem_append.mp h with timer | final
  · obtain ⟨t, _, rfl⟩ := List.mem_map.mp timer
    rfl
  · rw [List.mem_singleton.mp final]
    rfl

private theorem tickets_due (sorted : f.timers.Sorted) (covered : f.timers.Covered target) :
    (f.timers.due target).filterMap (·.pending) = (f.timers.idles c).map (·.ticket) := by
  rw [TimerList.due_eq_filter sorted, TimerList.idles, List.map_filterMap, List.filterMap_filter]
  apply List.filterMap_congr
  intro t member
  cases pending : t.pending with
  | none => simp [TimerRecord.idle?, pending]
  | some ticket => simp [TimerRecord.idle?, pending, covered t member (by simp [pending])]

/-- Scheduling takes all work of the clock off the loop and queues what is due anew. -/
theorem loop_schedule (ticketed : l.Ticketed) (linked : l.idlesOf c = f.idles c)
    (sorted : f.timers.Sorted) (covered : f.timers.Covered target) :
    (f.schedule c target l).2 = (l.without c).enqueueAll (f.dueTasks c target) := by
  have tickets : (f.timers.due target).filterMap (·.pending) ++
      (f.final.map (·.ticket)).toList = (l.idlesOf c).map (·.ticket) := by
    rw [tickets_due (c := c) sorted covered, linked, idles, List.map_append]
    cases f.final <;> rfl
  have old : ∀ ticket ∈ (f.final.map (·.ticket)).toList,
      ticket < (l.cancelAll ((f.timers.due target).filterMap (·.pending))).nextTicket := by
    intro ticket held
    have : ticket ∈ (l.idlesOf c).map (·.ticket) := tickets ▸ List.mem_append_right _ held
    obtain ⟨i, member, rfl⟩ := List.mem_map.mp this
    rw [EventLoop.cancelAll_eq ticketed]
    exact ticketed.lt_next i (List.mem_filter.mp member).1
  have ticketed' : (l.cancelAll ((f.timers.due target).filterMap (·.pending))).Ticketed :=
    (EventLoop.sameBut_cancelAll_of_subset (c := c) ticketed fun ticket held =>
      tickets ▸ List.mem_append_left _ held).ticketed ticketed
  change (((l.cancelAll _).enqueueAll _).cancelAll _).enqueueAll _ = _
  rw [EventLoop.cancelAll_enqueueAll ticketed' _ old, EventLoop.cancelAll_cancelAll, tickets,
    EventLoop.cancelAll_own ticketed, EventLoop.enqueueAll_enqueueAll, dueTasks]

theorem sameBut_schedule (ticketed : l.Ticketed) (linked : l.idlesOf c = f.idles c)
    (sorted : f.timers.Sorted) (covered : f.timers.Covered target) :
    EventLoop.SameBut c l (f.schedule c target l).2 := by
  rw [loop_schedule ticketed linked sorted covered]
  exact (EventLoop.sameBut_without l c).trans
    (EventLoop.sameBut_enqueueAll _ fun _ => owner_of_mem_dueTasks)

theorem idles_schedule (ticketed : l.Ticketed) (linked : l.idlesOf c = f.idles c)
    (sorted : f.timers.Sorted) (covered : f.timers.Covered target) :
    (f.schedule c target l).2.idlesOf c = (f.schedule c target l).1.idles c := by
  rw [loop_schedule ticketed linked sorted covered,
    EventLoop.idlesOf_without_enqueueAll _ fun _ => owner_of_mem_dueTasks, dueTasks,
    idlesFrom_append, List.length_map]
  have nextTicket :
      (l.cancelAll ((f.timers.due target).filterMap (·.pending))).nextTicket = l.nextTicket := by
    rw [EventLoop.cancelAll_eq ticketed]
  change _ = (f.timers.markDue target l.nextTicket).idles c ++
    [⟨(l.cancelAll ((f.timers.due target).filterMap (·.pending))).nextTicket +
      ((f.timers.due target).map _).length, .finalTime c⟩]
  rw [TimerList.idles_markDue sorted covered, nextTicket, List.length_map]
  rfl

theorem coherent_schedule (sorted : f.timers.Sorted) (distinct : f.timers.handles.Nodup)
    (covered : f.timers.Covered target)
    (now_le_trigger : ∀ h d, (h, some d) ∈ f.timers.alarms → f.now ≤ d)
    (now_le_target : f.now ≤ target) : (f.schedule c target l).1.Coherent where
  sorted := (TimerList.sorted_congr (f.alarms_schedule c target l)).mpr sorted
  distinct := by
    rw [TimerList.handles_congr (f.alarms_schedule c target l)]
    exact distinct
  pending_iff t member := by
    rw [TimerList.pending_markDue sorted covered member]
    exact ⟨fun due => ⟨_, rfl, due⟩, fun ⟨x, final, due⟩ => by cases final; exact due⟩
  now_le_trigger h d member := now_le_trigger h d (alarms_schedule f c target l ▸ member)
  now_le_target x final := by
    cases final
    exact now_le_target
  now_lt_trigger none := nomatch none

end schedule

section fire

theorem idles_timers_of_idles {ticket : Ticket} {g : TimerHandle} {rest : List Idle}
    (next : f.idles c = ⟨ticket, .timer c g⟩ :: rest) :
    ∃ more, f.timers.idles c = ⟨ticket, .timer c g⟩ :: more ∧
      more ++ (f.final.map fun x => (⟨x.ticket, .finalTime c⟩ : Idle)).toList = rest := by
  rw [idles] at next
  cases queued : f.timers.idles c with
  | nil => cases final : f.final <;> simp [queued, final] at next
  | cons i more =>
    rw [queued, List.cons_append, List.cons.injEq] at next
    exact ⟨more, by rw [next.1], next.2⟩

theorem Coherent.first_of_idles (coherent : f.Coherent) {ticket : Ticket} {g : TimerHandle}
    {more : List Idle} (dispatches : f.timers.idles c = ⟨ticket, .timer c g⟩ :: more) :
    ∃ t d x, f.timers.find? g = some t ∧ t.pending = some ticket ∧ t.trigger = some d ∧
      f.final = some x ∧ d ≤ x.target ∧ f.timers.First g d := by
  obtain ⟨front, t, back, split, quiet, own, _⟩ := List.filterMap_eq_cons_iff.mp dispatches
  obtain ⟨pending, task⟩ := TimerRecord.idle?_eq_some_iff.mp own
  obtain rfl : g = t.handle := by simpa using task
  have member : t ∈ f.timers.toList := split ▸ List.mem_append_right _ List.mem_cons_self
  obtain ⟨x, final, due⟩ := (coherent.pending_iff t member).mp (by simp [pending])
  obtain ⟨d, trigger, d_le⟩ := TimerRecord.isDueBy_iff.mp due
  refine ⟨t, d, x, (TimerList.find?_eq_some_iff coherent.distinct).mpr ⟨member, rfl⟩, pending,
    trigger, final, d_le, front.map (·.alarm), back.map (·.alarm), ?_, fun a inFront => ?_⟩
  · simp [TimerList.alarms, split, TimerRecord.alarm, trigger]
  -- whatever stands in front would be due as well, had it a trigger
  · obtain ⟨u, hu, rfl⟩ := List.mem_map.mp inFront
    have order := coherent.sorted
    rw [TimerList.Sorted, split, List.pairwise_append] at order
    have before := order.2.2 u hu t List.mem_cons_self
    rw [TimerRecord.notAfter_iff, trigger] at before
    cases armed : u.trigger with
    | none => exact armed
    | some e =>
      have dueToo : u.isDueBy x.target = true := by
        refine TimerRecord.isDueBy_iff.mpr ⟨e, armed, ?_⟩
        rw [armed] at before
        exact Nat.le_trans (Nat.le_of_succ_le_succ before) d_le
      have queued := (coherent.pending_iff u (split ▸ List.mem_append_left _ hu)).mpr
        ⟨x, final, dueToo⟩
      have unqueued := quiet u hu
      simp_all [TimerRecord.idle?]

/-- The dispatch that is next on the loop is that of the first armed timer, which is due. Firing
it moves time to its trigger and leaves the rest of the work to do. -/
theorem fire_of_idles (coherent : f.Coherent) {ticket : Ticket} {g : TimerHandle}
    {rest : List Idle} (tickets : ((f.idles c).map (·.ticket)).Nodup)
    (next : f.idles c = ⟨ticket, .timer c g⟩ :: rest) :
    ∃ d x, f.final = some x ∧ d ≤ x.target ∧ f.timers.First g d ∧
      f.fire g = ({ f with now := d, timers := f.timers.setTrigger g none }, true) ∧
      ({ f with now := d, timers := f.timers.setTrigger g none } : FakeTime).Coherent ∧
      ({ f with now := d, timers := f.timers.setTrigger g none } : FakeTime).idles c = rest := by
  obtain ⟨more, dispatches, rfl⟩ := idles_timers_of_idles next
  obtain ⟨t, d, x, found, pending, trigger, final, d_le, first⟩ :=
    coherent.first_of_idles dispatches
  have distinct : ((f.timers.idles c).map (·.ticket)).Nodup :=
    tickets.sublist ((List.sublist_append_left ..).map _)
  refine ⟨d, x, final, d_le, first, ?_, ⟨?_, ?_, ?_, ?_, ?_, ?_⟩, ?_⟩
  · simp [fire, found, trigger]
  · exact TimerList.sorted_setTrigger coherent.sorted _ _
  · exact (TimerList.handles_setTrigger_perm ..).nodup_iff.mpr coherent.distinct
  · intro u hu
    rcases (TimerList.mem_setTrigger coherent.distinct found).mp hu with rfl | ⟨hu, _⟩
    · simp [TimerRecord.isDueBy]
    · exact coherent.pending_iff u hu
  · intro h e armed
    obtain ⟨u, hu, handle, armedAt⟩ := TimerList.mem_alarms_iff.mp armed
    rcases (TimerList.mem_setTrigger coherent.distinct found).mp hu with rfl | ⟨hu, _⟩
    · simp at armedAt
    · exact first.le coherent.sorted (TimerList.mem_alarms_iff.mpr ⟨u, hu, handle, armedAt⟩)
  · intro y final'
    rw [final] at final'
    cases final'
    exact d_le
  · intro none
    simp [final] at none
  · rw [idles, TimerList.idles_setTrigger found distinct, dispatches, pending]
    rw [dispatches, List.map_cons, List.nodup_cons] at distinct
    have keep : more.filter (·.ticket ∉ (some ticket).toList) = more :=
      List.filter_eq_self.mpr fun i hi => by
        have : i.ticket ≠ ticket := fun same =>
          distinct.1 (List.mem_map.mpr ⟨i, hi, same⟩)
        simpa using this
    rw [List.filter_cons_of_neg (by simp), keep]

theorem scheduleDue_of_later (sorted : f.timers.Sorted)
    (later : ∀ h d, (h, some d) ∈ f.timers.alarms → target < d) :
    f.scheduleDue c target l = (f, l) := by
  have none : f.timers.due target = [] := by
    rw [TimerList.due_eq_filter sorted, List.filter_eq_nil_iff]
    intro t member due
    obtain ⟨d, trigger, le⟩ := TimerRecord.isDueBy_iff.mp due
    exact Nat.not_lt_of_le le (later t.handle d (TimerList.mem_alarms_iff.mpr
      ⟨t, member, rfl, trigger⟩))
  have marked : f.timers.markDue target l.nextTicket = f.timers := by
    unfold TimerList.due at none
    have whole := List.takeWhile_append_dropWhile (p := (·.isDueBy target))
      (l := f.timers.toList.dropWhile (·.trigger.isNone))
    rw [none, List.nil_append] at whole
    simp only [TimerList.markDue, none, whole, List.zipIdx_nil, List.map_nil, List.append_nil,
      List.takeWhile_append_dropWhile]
  simp [scheduleDue, none, marked, EventLoop.cancelAll, EventLoop.enqueueAll]

/-- The final task comes last: when it is next nothing else is left to do, and it makes the
target the current time without queueing anything. -/
theorem applyFinal_of_idles (coherent : f.Coherent) {ticket : Ticket} {rest : List Idle}
    (next : f.idles c = ⟨ticket, .finalTime c⟩ :: rest) (l : EventLoop) :
    rest = [] ∧ ∃ x, f.final = some x ∧
      (∀ h d, (h, some d) ∈ f.timers.alarms → x.target < d) ∧
      f.applyFinal c l = ({ f with now := x.target, final := none }, l) ∧
      ({ f with now := x.target, final := none } : FakeTime).Coherent ∧
      ({ f with now := x.target, final := none } : FakeTime).idles c = [] := by
  have quiet : f.timers.idles c = [] := by
    rw [idles] at next
    cases queued : f.timers.idles c with
    | nil => rfl
    | cons i more =>
      rw [queued, List.cons_append, List.cons.injEq] at next
      have member : i ∈ f.timers.idles c := by simp [queued]
      obtain ⟨t, _, _, task⟩ := TimerList.mem_idles_iff.mp member
      simp [next.1] at task
  obtain ⟨x, final, rfl⟩ : ∃ x, f.final = some x ∧ rest = [] := by
    rw [idles, quiet, List.nil_append] at next
    cases final : f.final with
    | none => simp [final] at next
    | some x =>
      rw [final] at next
      exact ⟨x, rfl, (List.cons.inj next).2.symm⟩
  have unqueued : ∀ t ∈ f.timers.toList, t.pending = none := by
    intro t member
    have := List.filterMap_eq_nil_iff.mp quiet t member
    simpa [TimerRecord.idle?] using this
  have notDue : ∀ t ∈ f.timers.toList, ¬t.isDueBy x.target = true := by
    intro t member due
    have := (coherent.pending_iff t member).mpr ⟨x, final, due⟩
    simp [unqueued t member] at this
  have later : ∀ h d, (h, some d) ∈ f.timers.alarms → x.target < d := by
    intro h d armed
    obtain ⟨t, member, _, trigger⟩ := TimerList.mem_alarms_iff.mp armed
    have := notDue t member
    rw [TimerRecord.isDueBy_iff] at this
    rw [Duration.lt_def]
    exact Nat.lt_of_not_le fun le => this ⟨d, trigger, le⟩
  have scanned : ({ f with now := x.target, final := none } : FakeTime).scheduleDue c x.target l =
      ({ f with now := x.target, final := none }, l) := scheduleDue_of_later coherent.sorted later
  have idle : f.timers.hasPending = false := by
    simp only [TimerList.hasPending, List.any_eq_false]
    intro t member
    simp [unqueued t member]
  refine ⟨rfl, x, final, later, ?_, ⟨coherent.sorted, coherent.distinct, ?_, ?_, ?_, ?_⟩, ?_⟩
  · simp [applyFinal, final, scanned, idle]
  · intro t member
    simp [unqueued t member]
  · exact fun h d armed => Nat.le_of_lt (later h d armed)
  · intro y none
    simp at none
  · exact fun _ => later
  · simp [idles, quiet]

end fire

end VirtualClock.FakeTime
