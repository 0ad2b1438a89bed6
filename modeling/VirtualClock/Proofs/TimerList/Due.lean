import VirtualClock.Proofs.EventLoop.Tickets
import VirtualClock.Proofs.TimerList.Order

/-!
Due timers and the dispatches that timers have queued. Marking the due timers gives each of them
one dispatch, in firing order, and changes no alarm. Taking a timer away, or cancelling what a
target does not reach, takes exactly the dispatches of the timers concerned.
-/

namespace VirtualClock

/-- The queued dispatch of a timer of clock `c`. -/
def TimerRecord.idle? (t : TimerRecord) (c : Nat) : Option Idle :=
  t.pending.map (⟨·, .timer c t.handle⟩)

theorem TimerRecord.idle?_eq_some_iff {t : TimerRecord} {c : Nat} {i : Idle} :
    t.idle? c = some i ↔ t.pending = some i.ticket ∧ i.task = .timer c t.handle := by
  constructor
  · intro h
    obtain ⟨ticket, pending, rfl⟩ := Option.map_eq_some_iff.mp h
    exact ⟨pending, rfl⟩
  · rintro ⟨pending, task⟩
    cases i
    simp only at pending task
    simp [idle?, pending, task]

namespace TimerList

variable {ts : TimerList} {target : Duration} {c : Nat}

/-- The queued dispatches of timers of clock `c`, in the order of the timers. -/
def idles (ts : TimerList) (c : Nat) : List Idle := ts.toList.filterMap (·.idle? c)

/-- Only timers due by `target` have a dispatch queued. -/
def Covered (ts : TimerList) (target : Duration) : Prop :=
  ∀ t ∈ ts.toList, t.pending.isSome → t.isDueBy target = true

theorem mem_idles_iff {i : Idle} :
    i ∈ ts.idles c ↔
      ∃ t ∈ ts.toList, t.pending = some i.ticket ∧ i.task = .timer c t.handle := by
  simp only [idles, List.mem_filterMap, TimerRecord.idle?_eq_some_iff]

section due

private theorem isNone_first (sorted : ts.Sorted) :
    ts.toList.Pairwise fun a b => b.trigger.isNone = true → a.trigger.isNone = true := by
  refine sorted.imp fun {a b} h none => ?_
  rw [TimerRecord.notAfter_iff] at h
  rw [Option.isNone_iff_eq_none] at *
  rw [none, triggerRank_none, Nat.le_zero_eq] at h
  cases trigger : a.trigger with
  | none => rfl
  | some d => simp [trigger] at h

private theorem isDueBy_first (armed : List TimerRecord)
    (sorted : armed.Pairwise fun a b => a.notAfter b.trigger = true)
    (some : ∀ t ∈ armed, t.trigger.isNone = false) :
    armed.Pairwise fun a b => b.isDueBy target = true → a.isDueBy target = true := by
  refine List.Pairwise.imp_of_mem (fun {a b} ha _ h due => ?_) sorted
  rw [TimerRecord.notAfter_iff] at h
  rw [TimerRecord.isDueBy_iff_rank] at *
  refine ⟨?_, by omega⟩
  have := some a ha
  cases trigger : a.trigger with
  | none => simp [trigger] at this
  | some d => simp

private theorem toList_eq (ts : TimerList) (target : Duration) :
    ts.toList =
      ts.toList.takeWhile (·.trigger.isNone) ++ ts.due target ++
        (ts.toList.dropWhile (·.trigger.isNone)).dropWhile (·.isDueBy target) := by
  rw [due, List.append_assoc, List.takeWhile_append_dropWhile, List.takeWhile_append_dropWhile]

theorem due_eq_filter (sorted : ts.Sorted) (target : Duration) :
    ts.due target = ts.toList.filter (·.isDueBy target) := by
  have armed := Keyed.dropWhile_eq_filter (isNone_first sorted)
  have some : ∀ t ∈ ts.toList.filter (!·.trigger.isNone), t.trigger.isNone = false :=
    fun t ht => by simpa using (List.mem_filter.mp ht).2
  rw [due, armed, Keyed.takeWhile_eq_filter
    (isDueBy_first _ (List.Pairwise.filter _ sorted) some), List.filter_filter]
  apply List.filter_congr
  intro t _
  cases trigger : t.trigger <;> simp [TimerRecord.isDueBy, trigger]

theorem mem_due (sorted : ts.Sorted) {t : TimerRecord} :
    t ∈ ts.due target ↔ t ∈ ts.toList ∧ t.isDueBy target = true := by
  rw [due_eq_filter sorted, List.mem_filter]

private theorem not_due_of_mem_disarmed {t : TimerRecord}
    (h : t ∈ ts.toList.takeWhile (·.trigger.isNone)) : t.isDueBy target = false := by
  have disarmed := List.all_eq_true.mp (List.all_takeWhile (p := (·.trigger.isNone))) t h
  have : t.trigger = none := by simpa using disarmed
  simp [TimerRecord.isDueBy, this]

private theorem not_due_of_mem_later (sorted : ts.Sorted) {t : TimerRecord}
    (h : t ∈ (ts.toList.dropWhile (·.trigger.isNone)).dropWhile (·.isDueBy target)) :
    t.isDueBy target = false := by
  have some : ∀ t ∈ ts.toList.filter (!·.trigger.isNone), t.trigger.isNone = false :=
    fun t ht => by simpa using (List.mem_filter.mp ht).2
  rw [Keyed.dropWhile_eq_filter (isNone_first sorted), Keyed.dropWhile_eq_filter
    (isDueBy_first _ (List.Pairwise.filter _ sorted) some)] at h
  simpa using (List.mem_filter.mp h).2

end due

section markDue

/-- Records with the tickets `first`, `first + 1`, … -/
private def marked (due : List TimerRecord) (first : Ticket) : List TimerRecord :=
  (due.zipIdx first).map fun (t, ticket) => { t with pending := some ticket }

private theorem alarms_marked (due : List TimerRecord) (first : Ticket) :
    (marked due first).map (·.alarm) = due.map (·.alarm) := by
  induction due generalizing first with
  | nil => rfl
  | cons t due ih => exact congrArg (t.alarm :: ·) (ih (first + 1))

private theorem idles_marked (due : List TimerRecord) (first : Ticket) :
    (marked due first).filterMap (·.idle? c) =
      idlesFrom (due.map fun t => .timer c t.handle) first := by
  induction due generalizing first with
  | nil => rfl
  | cons t due ih => exact congrArg (⟨first, .timer c t.handle⟩ :: ·) (ih (first + 1))

private theorem mem_marked {due : List TimerRecord} {first : Ticket} {t : TimerRecord}
    (h : t ∈ marked due first) :
    t.pending.isSome ∧ ∃ u ∈ due, u.handle = t.handle ∧ u.trigger = t.trigger := by
  obtain ⟨⟨u, ticket⟩, member, rfl⟩ := List.mem_map.mp h
  obtain ⟨_, _, found⟩ := List.mem_zipIdx member
  exact ⟨rfl, u, found ▸ List.getElem_mem _, rfl, rfl⟩

private theorem toList_markDue (ts : TimerList) (target : Duration) (first : Ticket) :
    (ts.markDue target first).toList =
      ts.toList.takeWhile (·.trigger.isNone) ++ marked (ts.due target) first ++
        (ts.toList.dropWhile (·.trigger.isNone)).dropWhile (·.isDueBy target) := rfl

@[simp] theorem alarms_markDue (ts : TimerList) (target : Duration) (first : Ticket) :
    (ts.markDue target first).alarms = ts.alarms := by
  rw [alarms, toList_markDue, List.map_append, List.map_append, alarms_marked, ← List.map_append,
    ← List.map_append, ← toList_eq, alarms]

theorem idles_markDue (sorted : ts.Sorted) (covered : ts.Covered target) (first : Ticket) :
    (ts.markDue target first).idles c =
      idlesFrom ((ts.due target).map fun t => .timer c t.handle) first := by
  have quiet (records : List TimerRecord) (sub : ∀ t ∈ records, t ∈ ts.toList)
      (notDue : ∀ t ∈ records, t.isDueBy target = false) :
      records.filterMap (·.idle? c) = [] := by
    apply List.filterMap_eq_nil_iff.mpr
    intro t ht
    cases pending : t.pending with
    | none => simp [TimerRecord.idle?, pending]
    | some ticket =>
      have due := covered t (sub t ht) (by simp [pending])
      simp [notDue t ht] at due
  rw [idles, toList_markDue, List.filterMap_append, List.filterMap_append, idles_marked,
    quiet _ (fun t ht => (List.takeWhile_sublist _).subset ht) fun t ht =>
      not_due_of_mem_disarmed ht,
    quiet _ (fun t ht => (List.dropWhile_sublist _).subset ((List.dropWhile_sublist _).subset ht))
      fun t ht => not_due_of_mem_later sorted ht]
  simp

theorem pending_markDue (sorted : ts.Sorted) (covered : ts.Covered target) {first : Ticket}
    {t : TimerRecord} (member : t ∈ (ts.markDue target first).toList) :
    t.pending.isSome = true ↔ t.isDueBy target = true := by
  rw [toList_markDue, List.mem_append, List.mem_append] at member
  rcases member with (disarmed | due) | later
  · have notDue : t.isDueBy target = false := not_due_of_mem_disarmed disarmed
    have := covered t ((List.takeWhile_sublist _).subset disarmed)
    simp_all
  · obtain ⟨pending, u, hu, _, trigger⟩ := mem_marked due
    have : u.isDueBy target = true := ((mem_due sorted).mp hu).2
    rw [TimerRecord.isDueBy_iff, trigger, ← TimerRecord.isDueBy_iff] at this
    simp [pending, this]
  · have notDue := not_due_of_mem_later sorted later
    have := covered t ((List.dropWhile_sublist _).subset ((List.dropWhile_sublist _).subset later))
    simp_all

end markDue

section changes

private theorem filterMap_idle?_cons (t : TimerRecord) (rest : List TimerRecord) (c : Nat) :
    (t :: rest).filterMap (·.idle? c) = (t.idle? c).toList ++ rest.filterMap (·.idle? c) := by
  cases own : t.idle? c <;> simp [own]

theorem idles_insert {t : TimerRecord} (unqueued : t.pending = none) :
    (ts.insert t).idles c = ts.idles c := by
  have none : t.idle? c = none := by simp [TimerRecord.idle?, unqueued]
  rw [idles, insert, List.filterMap_append, filterMap_idle?_cons, none, Option.toList_none,
    List.nil_append, ← List.filterMap_append, List.takeWhile_append_dropWhile, idles]

theorem idles_erase {h : TimerHandle} {t : TimerRecord} (found : ts.find? h = some t)
    (distinct : ((ts.idles c).map (·.ticket)).Nodup) :
    (ts.erase h).idles c = (ts.idles c).filter (·.ticket ∉ t.pending.toList) := by
  obtain ⟨front, back, split, -, -, erased⟩ := exists_toList_erase found
  have whole : ts.idles c =
      front.filterMap (·.idle? c) ++ ((t.idle? c).toList ++ back.filterMap (·.idle? c)) := by
    rw [idles, split, List.filterMap_append, filterMap_idle?_cons]
  rw [whole] at distinct ⊢
  rw [idles, erased, List.filterMap_append]
  cases pending : t.pending with
  | none => simp [TimerRecord.idle?, pending]
  | some ticket =>
    have own : t.idle? c = some ⟨ticket, .timer c t.handle⟩ := by
      simp [TimerRecord.idle?, pending]
    rw [own] at distinct ⊢
    change (List.map _ (_ ++ _ :: _)).Nodup at distinct
    change _ = List.filter _ (_ ++ _ :: _)
    rw [List.map_append, List.map_cons, List.nodup_middle, List.nodup_cons, List.mem_append,
      not_or] at distinct
    have keep (is : List Idle) (absent : ticket ∉ is.map (·.ticket)) :
        is.filter (·.ticket ∉ (some ticket).toList) = is :=
      List.filter_eq_self.mpr fun i hi => by
        have : i.ticket ≠ ticket := fun same => absent (same ▸ List.mem_map_of_mem hi)
        simpa using this
    rw [List.filter_append, List.filter_cons_of_neg (by simp), keep _ distinct.1.1,
      keep _ distinct.1.2]
    rfl

theorem idles_setTrigger {h : TimerHandle} {t : TimerRecord} (found : ts.find? h = some t)
    (distinct : ((ts.idles c).map (·.ticket)).Nodup) (trigger : Option Duration) :
    (ts.setTrigger h trigger).idles c = (ts.idles c).filter (·.ticket ∉ t.pending.toList) := by
  rw [setTrigger_of_find? found, idles_insert rfl, idles_erase found distinct]

@[simp] theorem alarms_cancelAfter (ts : TimerList) (target : Duration) :
    (ts.cancelAfter target).alarms = ts.alarms := by
  rw [alarms, cancelAfter, List.map_map, alarms]
  apply List.map_congr_left
  intro t _
  simp only [Function.comp_apply]
  split <;> rfl

theorem idles_cancelAfter (handles : ts.handles.Nodup)
    (distinct : ((ts.idles c).map (·.ticket)).Nodup) (target : Duration) :
    (ts.cancelAfter target).idles c =
      (ts.idles c).filter (·.ticket ∉ ts.ticketsAfter target) := by
  have held {t : TimerRecord} {ticket : Ticket} (member : t ∈ ts.toList)
      (pending : t.pending = some ticket) :
      ticket ∈ ts.ticketsAfter target ↔ t.isLaterThan target = true := by
    simp only [ticketsAfter, List.mem_filterMap, List.mem_filter]
    constructor
    · rintro ⟨u, ⟨hu, later⟩, pending'⟩
      have ofTimer : (⟨ticket, .timer c t.handle⟩ : Idle) ∈ ts.idles c :=
        mem_idles_iff.mpr ⟨t, member, pending, rfl⟩
      have ofOther : (⟨ticket, .timer c u.handle⟩ : Idle) ∈ ts.idles c :=
        mem_idles_iff.mpr ⟨u, hu, pending', rfl⟩
      have equal := Keyed.eq_of_mem distinct ofTimer ofOther rfl
      have same : t.handle = u.handle := by simpa using equal
      rwa [Keyed.eq_of_mem handles member hu same]
    · exact fun later => ⟨t, ⟨member, later⟩, pending⟩
  rw [idles, cancelAfter, List.filterMap_map, idles, List.filter_filterMap]
  apply List.filterMap_congr
  intro t member
  simp only [Function.comp_apply]
  cases pending : t.pending with
  | none => split <;> simp [TimerRecord.idle?, pending]
  | some ticket =>
    have := held member pending
    split <;> rename_i later <;> simp [TimerRecord.idle?, pending, this, later, Option.filter]

theorem mem_cancelAfter {t : TimerRecord} (h : t ∈ (ts.cancelAfter target).toList) :
    ∃ u ∈ ts.toList, u.handle = t.handle ∧ u.trigger = t.trigger ∧
      (t.pending.isSome → u.pending.isSome ∧ u.isLaterThan target = false) := by
  obtain ⟨u, member, rfl⟩ := List.mem_map.mp h
  refine ⟨u, member, ?_⟩
  split
  · simp
  · next later => exact ⟨rfl, rfl, fun pending => ⟨pending, by simpa using later⟩⟩

end changes

end TimerList

end VirtualClock
