import VirtualClock.Proofs.FakeTime.Schedule

/-!
Changes to a coherent fake time whose work is on the loop: arming and disarming a timer, taking
one away, advancing, giving up an advance. After each of them fake time is coherent again, its
work is on the loop, and nobody else's work has moved.
-/

namespace VirtualClock.FakeTime

variable {f : FakeTime} {c : Nat} {l : EventLoop} {g : TimerHandle} {t : TimerRecord}

/-- What a change by clock `c` leaves of loop `l`, with the fake time that goes with it. -/
structure Outcome (c : Nat) (l : EventLoop) (f' : FakeTime) (l' : EventLoop) : Prop where
  coherent : f'.Coherent
  linked : l'.idlesOf c = f'.idles c
  sameBut : EventLoop.SameBut c l l'

/-- Fake time that may queue anew what is due by `target`: of what is on loop `l'` it has queued
nothing later, and nobody else's work has moved since loop `l`. -/
structure Ready (c : Nat) (l : EventLoop) (f : FakeTime) (target : Duration) (l' : EventLoop) :
    Prop where
  sorted : f.timers.Sorted
  distinct : f.timers.handles.Nodup
  covered : f.timers.Covered target
  now_le_trigger : ∀ h d, (h, some d) ∈ f.timers.alarms → f.now ≤ d
  ticketed : l'.Ticketed
  linked : l'.idlesOf c = f.idles c
  sameBut : EventLoop.SameBut c l l'

theorem Ready.outcome {target : Duration} {l' : EventLoop} (ready : Ready c l f target l')
    (ahead : f.now ≤ target) :
    Outcome c l (f.schedule c target l').1 (f.schedule c target l').2 where
  coherent :=
    coherent_schedule ready.sorted ready.distinct ready.covered ready.now_le_trigger ahead
  linked := idles_schedule ready.ticketed ready.linked ready.sorted ready.covered
  sameBut := ready.sameBut.trans
    (sameBut_schedule ready.ticketed ready.linked ready.sorted ready.covered)

theorem Coherent.ready (coherent : f.Coherent) (ticketed : l.Ticketed)
    (linked : l.idlesOf c = f.idles c) : Ready c l f f.target l :=
  ⟨coherent.sorted, coherent.distinct, coherent.covered, coherent.now_le_trigger, ticketed, linked,
    .refl c l⟩

theorem ticket_mem_idlesOf (linked : l.idlesOf c = f.idles c) (member : t ∈ f.timers.toList)
    {ticket : Ticket} (held : ticket ∈ t.pending.toList) :
    ticket ∈ (l.idlesOf c).map (·.ticket) := by
  have own : (⟨ticket, .timer c t.handle⟩ : Idle) ∈ f.timers.idles c :=
    TimerList.mem_idles_iff.mpr ⟨t, member, Option.mem_toList.mp held, rfl⟩
  rw [linked]
  exact List.mem_map.mpr ⟨_, List.mem_append_left _ own, rfl⟩

theorem idles_of_timers {ts : TimerList} {tickets : List Ticket}
    (distinct : ((f.idles c).map (·.ticket)).Nodup)
    (held : ∀ ticket ∈ tickets, ticket ∈ (f.timers.idles c).map (·.ticket))
    (left : ts.idles c = (f.timers.idles c).filter (·.ticket ∉ tickets)) :
    ({ f with timers := ts } : FakeTime).idles c = (f.idles c).filter (·.ticket ∉ tickets) := by
  have final : ((f.final.map fun x => (⟨x.ticket, .finalTime c⟩ : Idle)).toList).filter
      (·.ticket ∉ tickets) = (f.final.map fun x => ⟨x.ticket, .finalTime c⟩).toList :=
    List.filter_eq_self.mpr fun i member => by
      rw [idles, List.map_append] at distinct
      have apart := (List.nodup_append.mp distinct).2.2
      simpa using fun gone =>
        apart _ (held _ gone) _ (List.mem_map.mpr ⟨i, member, rfl⟩) rfl
  simp only [idles]
  rw [List.filter_append, final, left]

section dispatch

variable (ticketed : l.Ticketed) (linked : l.idlesOf c = f.idles c) (coherent : f.Coherent)
  (found : f.timers.find? g = some t)

include linked in
theorem tickets_nodup (ticketed : l.Ticketed) : ((f.idles c).map (·.ticket)).Nodup := by
  rw [← linked]
  exact ticketed.distinct.sublist (List.filter_sublist.map _)

include linked in
theorem dispatches_nodup (ticketed : l.Ticketed) :
    ((f.timers.idles c).map (·.ticket)).Nodup :=
  (tickets_nodup linked ticketed).sublist ((List.sublist_append_left ..).map _)

include coherent found in
theorem ticket_mem_idles {ticket : Ticket} (held : ticket ∈ t.pending.toList) :
    ticket ∈ (f.timers.idles c).map (·.ticket) := by
  have member := ((TimerList.find?_eq_some_iff coherent.distinct).mp found).1
  exact List.mem_map.mpr ⟨⟨ticket, .timer c t.handle⟩,
    TimerList.mem_idles_iff.mpr ⟨t, member, Option.mem_toList.mp held, rfl⟩, rfl⟩

include ticketed linked coherent found in
theorem sameBut_cancel : EventLoop.SameBut c l (l.cancelAll t.pending.toList) := by
  have member := ((TimerList.find?_eq_some_iff coherent.distinct).mp found).1
  exact EventLoop.sameBut_cancelAll_of_subset ticketed fun ticket held =>
    ticket_mem_idlesOf linked member held

include ticketed linked coherent found in
theorem outcome_erase :
    Outcome c l { f with timers := f.timers.erase g } (l.cancelAll t.pending.toList) where
  coherent := by
    have sub := TimerList.sublist_erase f.timers g
    have armed {h : TimerHandle} {d : Duration} (member : (h, some d) ∈ (f.timers.erase g).alarms) :
        (h, some d) ∈ f.timers.alarms := (sub.map _).subset member
    exact ⟨TimerList.sorted_erase coherent.sorted g,
      TimerList.handles_erase_nodup coherent.distinct g,
      fun u member => coherent.pending_iff u (sub.subset member),
      fun h d member => coherent.now_le_trigger h d (armed member), coherent.now_le_target,
      fun none h d member => coherent.now_lt_trigger none h d (armed member)⟩
  linked := by
    rw [EventLoop.idlesOf_cancelAll ticketed, linked]
    exact (idles_of_timers (tickets_nodup linked ticketed)
      (fun _ => ticket_mem_idles coherent found)
      (TimerList.idles_erase found (dispatches_nodup linked ticketed))).symm
  sameBut := sameBut_cancel ticketed linked coherent found

include ticketed linked coherent found in
theorem ready_rearm {trigger : Option Duration} (later : ∀ d, trigger = some d → f.now ≤ d) :
    Ready c l { f with timers := f.timers.setTrigger g trigger } f.target
      (l.cancelAll t.pending.toList) where
  sorted := TimerList.sorted_setTrigger coherent.sorted g trigger
  distinct := (TimerList.handles_setTrigger_perm ..).nodup_iff.mpr coherent.distinct
  covered := by
    intro u hu queued
    rcases (TimerList.mem_setTrigger coherent.distinct found).mp hu with rfl | ⟨hu, _⟩
    · simp at queued
    · exact coherent.covered u hu queued
  now_le_trigger := by
    intro h d armed
    obtain ⟨u, hu, handle, armedAt⟩ := TimerList.mem_alarms_iff.mp armed
    rcases (TimerList.mem_setTrigger coherent.distinct found).mp hu with rfl | ⟨hu, _⟩
    · exact later d armedAt
    · exact coherent.now_le_trigger h d (TimerList.mem_alarms_iff.mpr ⟨u, hu, handle, armedAt⟩)
  ticketed := (sameBut_cancel ticketed linked coherent found).ticketed ticketed
  linked := by
    rw [EventLoop.idlesOf_cancelAll ticketed, linked]
    exact (idles_of_timers (tickets_nodup linked ticketed)
      (fun _ => ticket_mem_idles coherent found)
      (TimerList.idles_setTrigger found (dispatches_nodup linked ticketed) trigger)).symm
  sameBut := sameBut_cancel ticketed linked coherent found

include ticketed linked coherent found in
/-- Giving a timer a new trigger, none to disarm it, and queueing anew what is due. -/
theorem outcome_rearm {trigger : Option Duration} (later : ∀ d, trigger = some d → f.now ≤ d) :
    let moved : FakeTime := { f with timers := f.timers.setTrigger g trigger }
    let after := moved.reschedule c (l.cancelAll t.pending.toList)
    Outcome c l after.1 after.2 :=
  (ready_rearm ticketed linked coherent found later).outcome coherent.now_le_target_of

end dispatch

theorem outcome_reschedule (ticketed : l.Ticketed) (linked : l.idlesOf c = f.idles c)
    (coherent : f.Coherent) : Outcome c l (f.reschedule c l).1 (f.reschedule c l).2 :=
  (coherent.ready ticketed linked).outcome coherent.now_le_target_of

/-- Dispatches that a new target does not reach are dropped first. -/
theorem ready_advance (ticketed : l.Ticketed) (linked : l.idlesOf c = f.idles c)
    (coherent : f.Coherent) (target : Duration) :
    Ready c l { f with timers := f.timers.cancelAfter target } target
      (l.cancelAll (f.timers.ticketsAfter target)) := by
  have held : ∀ ticket ∈ f.timers.ticketsAfter target,
      ticket ∈ (f.timers.idles c).map (·.ticket) := by
    intro ticket member
    simp only [TimerList.ticketsAfter, List.mem_filterMap, List.mem_filter] at member
    obtain ⟨t, ⟨member, _⟩, pending⟩ := member
    exact List.mem_map.mpr ⟨⟨ticket, .timer c t.handle⟩,
      TimerList.mem_idles_iff.mpr ⟨t, member, pending, rfl⟩, rfl⟩
  have cancelled : EventLoop.SameBut c l (l.cancelAll (f.timers.ticketsAfter target)) :=
    EventLoop.sameBut_cancelAll_of_subset ticketed fun ticket member => by
      rw [linked, idles, List.map_append]
      exact List.mem_append_left _ (held ticket member)
  refine ⟨?_, ?_, ?_, ?_, cancelled.ticketed ticketed, ?_, cancelled⟩
  · exact (TimerList.sorted_congr (f.timers.alarms_cancelAfter target)).mpr coherent.sorted
  · rw [TimerList.handles_congr (f.timers.alarms_cancelAfter target)]
    exact coherent.distinct
  · intro t member queued
    obtain ⟨u, hu, _, trigger, left⟩ := TimerList.mem_cancelAfter member
    obtain ⟨pending, notLater⟩ := left queued
    obtain ⟨x, _, due⟩ := (coherent.pending_iff u hu).mp pending
    obtain ⟨d, armed, _⟩ := TimerRecord.isDueBy_iff.mp due
    rw [← Bool.not_eq_true, TimerRecord.isLaterThan_iff_rank, armed] at notLater
    refine TimerRecord.isDueBy_iff.mpr ⟨d, trigger ▸ armed, ?_⟩
    rw [Duration.le_def]
    simp only [triggerRank_some] at notLater
    omega
  · intro h d armed
    exact coherent.now_le_trigger h d (TimerList.alarms_cancelAfter f.timers target ▸ armed)
  · rw [EventLoop.idlesOf_cancelAll ticketed, linked]
    exact (idles_of_timers (tickets_nodup linked ticketed) held
      (TimerList.idles_cancelAfter coherent.distinct (dispatches_nodup linked ticketed)
        target)).symm

theorem outcome_advanceTo (ticketed : l.Ticketed) (linked : l.idlesOf c = f.idles c)
    (coherent : f.Coherent) {target : Duration} (ahead : f.now ≤ target) :
    Outcome c l (f.advanceTo true c target l).1 (f.advanceTo true c target l).2 :=
  (ready_advance ticketed linked coherent target).outcome ahead

/-- With no timers left, giving up the pending advance takes all work of the clock off the loop. -/
theorem cancelAll_final (ticketed : l.Ticketed) (linked : l.idlesOf c = f.idles c)
    (empty : f.timers.toList = []) :
    l.cancelAll (f.final.map (·.ticket)).toList = l.without c := by
  have all : (f.final.map (·.ticket)).toList = (l.idlesOf c).map (·.ticket) := by
    rw [linked, idles, TimerList.idles, empty]
    cases f.final <;> rfl
  rw [all, EventLoop.cancelAll_own ticketed]

theorem outcome_giveUp (ticketed : l.Ticketed) (linked : l.idlesOf c = f.idles c)
    (coherent : f.Coherent) (empty : f.timers.toList = []) :
    Outcome c l { f with final := none } (l.cancelAll (f.final.map (·.ticket)).toList) := by
  have noAlarms : f.timers.alarms = [] := by simp [TimerList.alarms, empty]
  rw [cancelAll_final ticketed linked empty]
  refine ⟨⟨coherent.sorted, coherent.distinct, ?_, ?_, ?_, ?_⟩, ?_, EventLoop.sameBut_without l c⟩
  · simp [empty]
  · simp [noAlarms]
  · simp
  · simp [noAlarms]
  · simp [EventLoop.idlesOf_eq, EventLoop.without, idles, TimerList.idles, empty]

theorem outcome_insert (linked : l.idlesOf c = f.idles c) (coherent : f.Coherent)
    (fresh : g ∉ f.timers.handles) :
    Outcome c l { f with timers := f.timers.insert { handle := g } } l where
  coherent := by
    have armed {h : TimerHandle} {d : Duration}
        (member : (h, some d) ∈ (f.timers.insert { handle := g }).alarms) :
        (h, some d) ∈ f.timers.alarms := by
      obtain ⟨u, hu, handle, trigger⟩ := TimerList.mem_alarms_iff.mp member
      rcases TimerList.mem_insert.mp hu with rfl | hu
      · simp at trigger
      · exact TimerList.mem_alarms_iff.mpr ⟨u, hu, handle, trigger⟩
    refine ⟨TimerList.sorted_insert coherent.sorted _, ?_, ?_, ?_, coherent.now_le_target, ?_⟩
    · exact (TimerList.handles_insert_perm ..).nodup_iff.mpr
        (List.nodup_cons.mpr ⟨fresh, coherent.distinct⟩)
    · intro u hu
      rcases TimerList.mem_insert.mp hu with rfl | hu
      · simp [TimerRecord.isDueBy]
      · exact coherent.pending_iff u hu
    · exact fun h d member => coherent.now_le_trigger h d (armed member)
    · exact fun none h d member => coherent.now_lt_trigger none h d (armed member)
  linked := by rw [linked, idles, idles, TimerList.idles_insert rfl]
  sameBut := .refl c l

end VirtualClock.FakeTime
