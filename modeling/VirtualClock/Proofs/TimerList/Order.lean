import Mathlib.Data.List.Nodup
import Mathlib.Tactic.Common
import VirtualClock.Proofs.Keyed
import VirtualClock.TimerList

/-!
The order of timers on fake time. In a sorted list inserting, looking for due timers and marking
them are filters; what a list says about handles and triggers, its alarms, is all that matters to
the order, and tickets come and go without touching it.
-/

namespace VirtualClock

/-- Where a trigger stands in firing order: disarmed timers first, then by time. -/
def triggerRank : Option Duration → Nat
  | none => 0
  | some d => d.nanos + 1

@[simp] theorem triggerRank_none : triggerRank none = 0 := rfl

@[simp] theorem triggerRank_some (d : Duration) : triggerRank (some d) = d.nanos + 1 := rfl

namespace TimerRecord

/-- A timer's handle with its trigger. -/
def alarm (t : TimerRecord) : TimerHandle × Option Duration := (t.handle, t.trigger)

theorem notAfter_iff {t : TimerRecord} {trigger : Option Duration} :
    t.notAfter trigger = true ↔ triggerRank t.trigger ≤ triggerRank trigger := by
  unfold notAfter
  cases t.trigger with
  | none => simp
  | some a =>
    cases trigger with
    | none => simp
    | some b => simp [Duration.le_def]

theorem notAfter_eq_false_iff {t : TimerRecord} {trigger : Option Duration} :
    t.notAfter trigger = false ↔ triggerRank trigger < triggerRank t.trigger := by
  rw [← Bool.not_eq_true, notAfter_iff, Nat.not_le]

theorem isDueBy_iff {t : TimerRecord} {target : Duration} :
    t.isDueBy target = true ↔ ∃ d, t.trigger = some d ∧ d ≤ target := by
  unfold isDueBy
  cases t.trigger <;> simp

theorem isDueBy_iff_rank {t : TimerRecord} {target : Duration} :
    t.isDueBy target = true ↔
      0 < triggerRank t.trigger ∧ triggerRank t.trigger ≤ target.nanos + 1 := by
  unfold isDueBy
  cases t.trigger <;> simp [Duration.le_def]

theorem isLaterThan_iff {t : TimerRecord} {target : Duration} :
    t.isLaterThan target = true ↔ ∃ d, t.trigger = some d ∧ target < d := by
  unfold isLaterThan
  cases t.trigger <;> simp

theorem isLaterThan_iff_rank {t : TimerRecord} {target : Duration} :
    t.isLaterThan target = true ↔ target.nanos + 1 < triggerRank t.trigger := by
  unfold isLaterThan
  cases t.trigger <;> simp [Duration.lt_def]

end TimerRecord

namespace TimerList

variable {ts : TimerList}

/-- Firing order: no timer stands before one that belongs in front of it. -/
def Sorted (ts : TimerList) : Prop := ts.toList.Pairwise fun a b => a.notAfter b.trigger = true

/-- The handles with their triggers, in order. -/
def alarms (ts : TimerList) : List (TimerHandle × Option Duration) :=
  ts.toList.map (·.alarm)

theorem handles_eq_map_alarms (ts : TimerList) : ts.handles = ts.alarms.map (·.1) := by
  simp [handles, alarms, TimerRecord.alarm]

theorem handles_congr {ts' : TimerList} (alarms : ts'.alarms = ts.alarms) :
    ts'.handles = ts.handles := by
  rw [handles_eq_map_alarms, alarms, ← handles_eq_map_alarms]

theorem sorted_iff_alarms :
    ts.Sorted ↔ ts.alarms.Pairwise fun a b => triggerRank a.2 ≤ triggerRank b.2 := by
  simp only [Sorted, alarms, List.pairwise_map, TimerRecord.alarm, TimerRecord.notAfter_iff]

theorem sorted_congr {ts' : TimerList} (alarms : ts'.alarms = ts.alarms) :
    ts'.Sorted ↔ ts.Sorted := by
  rw [sorted_iff_alarms, alarms, ← sorted_iff_alarms]

theorem mem_alarms_iff {h : TimerHandle} {trigger : Option Duration} :
    (h, trigger) ∈ ts.alarms ↔ ∃ t ∈ ts.toList, t.handle = h ∧ t.trigger = trigger := by
  simp [alarms, TimerRecord.alarm]

/-- The trigger of a timer: none while it is disarmed, or when there is no such timer. -/
def trigger? (ts : TimerList) (h : TimerHandle) : Option Duration :=
  (ts.find? h).bind (·.trigger)

theorem find?_eq_some_iff (distinct : ts.handles.Nodup) {h : TimerHandle} {t : TimerRecord} :
    ts.find? h = some t ↔ t ∈ ts.toList ∧ t.handle = h :=
  Keyed.find?_eq_some_iff distinct

theorem trigger?_of_mem (distinct : ts.handles.Nodup) {t : TimerRecord} (member : t ∈ ts.toList) :
    ts.trigger? t.handle = t.trigger := by
  rw [trigger?, (find?_eq_some_iff distinct).mpr ⟨member, rfl⟩]
  rfl

theorem trigger?_eq_some_iff (distinct : ts.handles.Nodup) {h : TimerHandle} {d : Duration} :
    ts.trigger? h = some d ↔ (h, some d) ∈ ts.alarms := by
  rw [mem_alarms_iff]
  constructor
  · intro found
    obtain ⟨t, ht, trigger⟩ := Option.bind_eq_some_iff.mp found
    obtain ⟨member, rfl⟩ := (find?_eq_some_iff distinct).mp ht
    exact ⟨t, member, rfl, trigger⟩
  · rintro ⟨t, member, rfl, trigger⟩
    rw [trigger?_of_mem distinct member, trigger]

/-- Timer `h` is the first armed one, with trigger `d`. -/
def First (ts : TimerList) (h : TimerHandle) (d : Duration) : Prop :=
  ∃ front back, ts.alarms = front ++ (h, some d) :: back ∧ ∀ a ∈ front, a.2 = none

theorem First.mem {h : TimerHandle} {d : Duration} (first : ts.First h d) :
    (h, some d) ∈ ts.alarms := by
  obtain ⟨front, back, split, _⟩ := first
  simp [split]

theorem First.le {h g : TimerHandle} {d e : Duration} (first : ts.First h d) (sorted : ts.Sorted)
    (armed : (g, some e) ∈ ts.alarms) : d ≤ e := by
  obtain ⟨front, back, split, disarmed⟩ := first
  rw [sorted_iff_alarms, split, List.pairwise_append, List.pairwise_cons] at sorted
  rw [split, List.mem_append, List.mem_cons] at armed
  rcases armed with inFront | same | behind
  · cases disarmed _ inFront
  · cases same
    exact Nat.le_refl _
  · exact Nat.le_of_succ_le_succ (sorted.2.1.1 _ behind)

section insert

theorem Sorted.notAfter_first (sorted : ts.Sorted) (trigger : Option Duration) :
    ts.toList.Pairwise fun a b => b.notAfter trigger = true → a.notAfter trigger = true := by
  refine sorted.imp fun {a b} h hb => ?_
  rw [TimerRecord.notAfter_iff] at *
  omega

theorem toList_insert (sorted : ts.Sorted) (t : TimerRecord) :
    (ts.insert t).toList =
      ts.toList.filter (·.notAfter t.trigger) ++
        t :: ts.toList.filter (!·.notAfter t.trigger) := by
  have first := sorted.notAfter_first t.trigger
  simp only [insert, Keyed.takeWhile_eq_filter first, Keyed.dropWhile_eq_filter first]

/-- Inserting puts a timer behind all that are due no later, and before all others. -/
theorem alarms_insert (sorted : ts.Sorted) (t : TimerRecord) :
    (ts.insert t).alarms =
      ts.alarms.filter (fun a => triggerRank a.2 ≤ triggerRank t.trigger) ++
        (t.handle, t.trigger) ::
          ts.alarms.filter (fun a => triggerRank t.trigger < triggerRank a.2) := by
  have front : (fun a : TimerHandle × Option Duration =>
      decide (triggerRank a.2 ≤ triggerRank t.trigger)) ∘ TimerRecord.alarm =
        (·.notAfter t.trigger) := by
    funext r
    rw [Bool.eq_iff_iff, TimerRecord.notAfter_iff]
    exact decide_eq_true_iff
  have back : (fun a : TimerHandle × Option Duration =>
      decide (triggerRank t.trigger < triggerRank a.2)) ∘ TimerRecord.alarm =
        (!·.notAfter t.trigger) := by
    funext r
    rw [Bool.eq_iff_iff, Bool.not_eq_true', TimerRecord.notAfter_eq_false_iff]
    exact decide_eq_true_iff
  rw [alarms, toList_insert sorted, List.map_append, List.map_cons, alarms, List.filter_map,
    List.filter_map, front, back]
  rfl

theorem sorted_insert (sorted : ts.Sorted) (t : TimerRecord) : (ts.insert t).Sorted := by
  rw [Sorted, toList_insert sorted, List.pairwise_append, List.pairwise_cons]
  refine ⟨List.Pairwise.filter _ sorted, ⟨?_, List.Pairwise.filter _ sorted⟩, ?_⟩
  · intro b hb
    have later := (List.mem_filter.mp hb).2
    rw [Bool.not_eq_true', TimerRecord.notAfter_eq_false_iff] at later
    rw [TimerRecord.notAfter_iff]
    omega
  · intro a ha b hb
    have earlier := (List.mem_filter.mp ha).2
    rcases List.mem_cons.mp hb with rfl | hb
    · exact earlier
    · have later := (List.mem_filter.mp hb).2
      rw [Bool.not_eq_true', TimerRecord.notAfter_eq_false_iff] at later
      rw [TimerRecord.notAfter_iff] at *
      omega

theorem perm_insert (ts : TimerList) (t : TimerRecord) :
    (ts.insert t).toList.Perm (t :: ts.toList) := by
  simp only [insert]
  refine List.perm_middle.trans (List.Perm.cons t ?_)
  rw [List.takeWhile_append_dropWhile]

theorem mem_insert {t u : TimerRecord} : u ∈ (ts.insert t).toList ↔ u = t ∨ u ∈ ts.toList := by
  rw [(perm_insert ts t).mem_iff, List.mem_cons]

theorem handles_insert_perm (ts : TimerList) (t : TimerRecord) :
    (ts.insert t).handles.Perm (t.handle :: ts.handles) :=
  (perm_insert ts t).map _

end insert

section erase

theorem toList_erase (distinct : ts.handles.Nodup) (h : TimerHandle) :
    (ts.erase h).toList = ts.toList.filter (·.handle != h) :=
  Keyed.eraseP_eq_filter distinct h

theorem exists_toList_erase {h : TimerHandle} {t : TimerRecord} (found : ts.find? h = some t) :
    ∃ front back, ts.toList = front ++ t :: back ∧ t.handle = h ∧ (∀ u ∈ front, u.handle ≠ h) ∧
      (ts.erase h).toList = front ++ back := by
  obtain ⟨holds, front, back, split, absent⟩ := List.find?_eq_some_iff_append.mp found
  have tail : (t :: back).eraseP (·.handle == h) = back := List.eraseP_cons_of_pos holds
  refine ⟨front, back, split, handle_of_find? found, fun u member => ?_, ?_⟩
  · simpa using absent u member
  · simp only [erase, split]
    rw [List.eraseP_append_right _ (by simpa using absent), tail]

theorem erase_of_not_mem {h : TimerHandle} (absent : h ∉ ts.handles) : ts.erase h = ts := by
  have others := handle_ne_of_not_mem absent
  rw [erase, List.eraseP_of_forall_not (by simpa using others)]

theorem alarms_erase (distinct : ts.handles.Nodup) (h : TimerHandle) :
    (ts.erase h).alarms = ts.alarms.filter (·.1 != h) := by
  simp only [alarms, toList_erase distinct, List.filter_map]
  rfl

theorem sublist_erase (ts : TimerList) (h : TimerHandle) :
    (ts.erase h).toList.Sublist ts.toList :=
  List.eraseP_sublist

theorem sorted_erase (sorted : ts.Sorted) (h : TimerHandle) : (ts.erase h).Sorted :=
  sorted.sublist (sublist_erase ts h)

theorem handles_erase_nodup (distinct : ts.handles.Nodup) (h : TimerHandle) :
    (ts.erase h).handles.Nodup :=
  Keyed.nodup_eraseP distinct h

end erase

section setTrigger

variable {h : TimerHandle} {t : TimerRecord}

theorem sorted_setTrigger (sorted : ts.Sorted) (h : TimerHandle) (trigger : Option Duration) :
    (ts.setTrigger h trigger).Sorted := by
  unfold setTrigger
  split
  · exact sorted
  · exact sorted_insert (sorted_erase sorted h) _

theorem handles_setTrigger_perm (ts : TimerList) (h : TimerHandle) (trigger : Option Duration) :
    (ts.setTrigger h trigger).handles.Perm ts.handles := by
  unfold setTrigger
  split
  · rfl
  · next t found =>
    have same := handle_of_find? found
    have member : h ∈ ts.handles := find?_isSome_iff.mp (by simp [found])
    apply (handles_insert_perm _ _).trans
    rw [handles_erase, same]
    exact (List.perm_cons_erase member).symm

/-- Moving a timer takes it out and puts it behind all that are due no later. -/
theorem alarms_setTrigger (sorted : ts.Sorted) (distinct : ts.handles.Nodup)
    (member : h ∈ ts.handles) (trigger : Option Duration) :
    (ts.setTrigger h trigger).alarms =
      (ts.alarms.filter (·.1 != h)).filter (fun a => triggerRank a.2 ≤ triggerRank trigger) ++
        (h, trigger) ::
          (ts.alarms.filter (·.1 != h)).filter
            (fun a => triggerRank trigger < triggerRank a.2) := by
  obtain ⟨t, found⟩ := Option.isSome_iff_exists.mp (find?_isSome_iff.mpr member)
  have same := handle_of_find? found
  rw [setTrigger_of_find? found, alarms_insert (sorted_erase sorted h), alarms_erase distinct]
  simp only [same]

theorem alarms_setTrigger_congr {ts' : TimerList} (alarms : ts'.alarms = ts.alarms)
    (sorted : ts.Sorted) (distinct : ts.handles.Nodup) (member : h ∈ ts.handles)
    (trigger : Option Duration) :
    (ts'.setTrigger h trigger).alarms = (ts.setTrigger h trigger).alarms := by
  have handles : ts'.handles = ts.handles := handles_congr alarms
  rw [alarms_setTrigger sorted distinct member, alarms_setTrigger
    ((sorted_congr alarms).mpr sorted) (handles ▸ distinct) (handles ▸ member), alarms]

theorem mem_setTrigger (distinct : ts.handles.Nodup) (found : ts.find? h = some t)
    {trigger : Option Duration} {u : TimerRecord} :
    u ∈ (ts.setTrigger h trigger).toList ↔
      u = { t with trigger, pending := none } ∨ u ∈ ts.toList ∧ u.handle ≠ h := by
  rw [setTrigger_of_find? found, mem_insert, toList_erase distinct, List.mem_filter]
  simp

end setTrigger

end TimerList

end VirtualClock
