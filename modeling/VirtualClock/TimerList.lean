import VirtualClock.Duration
import VirtualClock.EventLoop

/-!
Timers on fake time, kept in firing order: disarmed ones first, armed ones by ascending
trigger, and those with equal triggers in the order in which they got them. The due timers
for a target are therefore one run in the middle of the list.
-/

namespace VirtualClock

structure TimerRecord where
  handle : TimerHandle
  /-- The fake time at which the timer is due, while it is armed. -/
  trigger : Option Duration := none
  /-- Ticket of the timer's queued dispatch. -/
  pending : Option Ticket := none
  deriving DecidableEq

namespace TimerRecord

/-- Whether the record belongs no later than one with the given trigger. -/
def notAfter (t : TimerRecord) (trigger : Option Duration) : Bool :=
  match t.trigger, trigger with
  | none, _ => true
  | some _, none => false
  | some a, some b => a ≤ b

def isDueBy (t : TimerRecord) (target : Duration) : Bool :=
  match t.trigger with
  | none => false
  | some trigger => trigger ≤ target

def isLaterThan (t : TimerRecord) (target : Duration) : Bool :=
  match t.trigger with
  | none => false
  | some trigger => target < trigger

end TimerRecord

structure TimerList where
  toList : List TimerRecord := []

namespace TimerList

def size (ts : TimerList) : Nat := ts.toList.length

def handles (ts : TimerList) : List TimerHandle := ts.toList.map (·.handle)

/-- Behind every record with an equal or smaller key. -/
def insert (ts : TimerList) (t : TimerRecord) : TimerList :=
  ⟨ts.toList.takeWhile (·.notAfter t.trigger) ++ t :: ts.toList.dropWhile (·.notAfter t.trigger)⟩

def find? (ts : TimerList) (h : TimerHandle) : Option TimerRecord :=
  ts.toList.find? (·.handle == h)

def erase (ts : TimerList) (h : TimerHandle) : TimerList :=
  ⟨ts.toList.eraseP (·.handle == h)⟩

/-- Move a timer to a new trigger, together with a dispatch that it has queued. An unknown handle
changes nothing. -/
def move (ts : TimerList) (h : TimerHandle) (trigger : Option Duration) : TimerList :=
  match ts.find? h with
  | none => ts
  | some t => (ts.erase h).insert { t with trigger }

/-- Move a timer to a new trigger, with no dispatch queued: a timer that fires has forgotten its
dispatch before it is moved, and one that is updated forgets it afterwards. An unknown handle
changes nothing. -/
def setTrigger (ts : TimerList) (h : TimerHandle) (trigger : Option Duration) : TimerList :=
  match ts.find? h with
  | none => ts
  | some t => (ts.erase h).insert { t with trigger, pending := none }

/-- Forget the ticket of a timer. -/
def forget (ts : TimerList) (h : TimerHandle) : TimerList :=
  ⟨ts.toList.map fun t => if t.handle == h then { t with pending := none } else t⟩

/-- Armed timers with a trigger up to `target`, in firing order. -/
def due (ts : TimerList) (target : Duration) : List TimerRecord :=
  (ts.toList.dropWhile (·.trigger.isNone)).takeWhile (·.isDueBy target)

/-- Give the due timers the tickets `first`, `first + 1`, … in firing order. -/
def markDue (ts : TimerList) (target : Duration) (first : Ticket) : TimerList :=
  let armed := ts.toList.dropWhile (·.trigger.isNone)
  let due := armed.takeWhile (·.isDueBy target)
  ⟨ts.toList.takeWhile (·.trigger.isNone)
    ++ (due.zipIdx first).map (fun (t, ticket) => { t with pending := some ticket })
    ++ armed.dropWhile (·.isDueBy target)⟩

/-- Tickets of the timers that are later than `target`. -/
def ticketsAfter (ts : TimerList) (target : Duration) : List Ticket :=
  (ts.toList.filter (·.isLaterThan target)).filterMap (·.pending)

/-- Forget the tickets of the timers that are later than `target`. -/
def cancelAfter (ts : TimerList) (target : Duration) : TimerList :=
  ⟨ts.toList.map fun t => if t.isLaterThan target then { t with pending := none } else t⟩

def hasPending (ts : TimerList) : Bool := ts.toList.any (·.pending.isSome)

variable {ts : TimerList} {t : TimerRecord} {h : TimerHandle}

theorem find?_isSome_iff : (ts.find? h).isSome ↔ h ∈ ts.handles := by
  simp [find?, handles]

theorem find?_eq_none_iff : ts.find? h = none ↔ h ∉ ts.handles := by
  rw [← find?_isSome_iff]
  cases ts.find? h <;> simp

theorem handle_of_find? (found : ts.find? h = some t) : t.handle = h := by
  simpa using List.find?_some found

theorem handle_ne_of_not_mem (absent : h ∉ ts.handles) : ∀ t ∈ ts.toList, t.handle ≠ h :=
  fun _ member same => absent (same ▸ List.mem_map_of_mem member)

theorem handles_erase (ts : TimerList) (h : TimerHandle) :
    (ts.erase h).handles = ts.handles.erase h := by
  rw [handles, handles, List.erase_eq_eraseP', List.eraseP_map]
  rfl

theorem not_mem_handles_erase (distinct : ts.handles.Nodup) (h : TimerHandle) :
    h ∉ (ts.erase h).handles := by
  rw [handles_erase]
  exact fun member => ((List.Nodup.mem_erase_iff distinct).mp member).1 rfl

section forget

private theorem map_forget {l : List TimerRecord} (others : ∀ u ∈ l, u.handle ≠ h) :
    l.map (fun u => if u.handle == h then { u with pending := none } else u) = l := by
  refine (List.map_congr_left fun u member => ?_).trans (List.map_id _)
  exact if_neg fun same => others u member (beq_iff_eq.mp same)

private theorem handle_forget (h : TimerHandle) :
    ((·.handle == h) ∘ fun u : TimerRecord =>
      if u.handle == h then { u with pending := none } else u) = (·.handle == h) := by
  funext u
  simp only [Function.comp_apply]
  split <;> rfl

theorem forget_of_not_mem (absent : h ∉ ts.handles) : ts.forget h = ts := by
  rw [forget, map_forget (handle_ne_of_not_mem absent)]

theorem find?_forget (ts : TimerList) (h : TimerHandle) :
    (ts.forget h).find? h = (ts.find? h).map ({ · with pending := none }) := by
  rw [find?, forget, List.find?_map, handle_forget, ← find?]
  cases found : ts.find? h with
  | none => rfl
  | some t => exact congrArg some (if_pos (List.find?_some found))

theorem erase_forget (ts : TimerList) (h : TimerHandle) :
    (ts.forget h).erase h = (ts.erase h).forget h := by
  rw [erase, forget, List.eraseP_map, handle_forget]
  rfl

theorem forget_insert (absent : h ∉ ts.handles) (own : t.handle = h) :
    (ts.insert t).forget h = ts.insert { t with pending := none } := by
  have others := handle_ne_of_not_mem absent
  rw [forget, insert, List.map_append, List.map_cons, insert,
    map_forget fun u member => others u ((List.takeWhile_sublist _).subset member),
    map_forget fun u member => others u ((List.dropWhile_sublist _).subset member),
    if_pos (beq_iff_eq.mpr own)]

end forget

theorem move_of_find? (found : ts.find? h = some t) (trigger : Option Duration) :
    ts.move h trigger = (ts.erase h).insert { t with trigger } := by
  simp [move, found]

theorem move_of_not_mem (absent : h ∉ ts.handles) (trigger : Option Duration) :
    ts.move h trigger = ts := by
  rw [move, find?_eq_none_iff.mpr absent]

theorem setTrigger_of_find? (found : ts.find? h = some t) (trigger : Option Duration) :
    ts.setTrigger h trigger = (ts.erase h).insert { t with trigger, pending := none } := by
  simp [setTrigger, found]

theorem setTrigger_of_not_mem (absent : h ∉ ts.handles) (trigger : Option Duration) :
    ts.setTrigger h trigger = ts := by
  rw [setTrigger, find?_eq_none_iff.mpr absent]

theorem setTrigger_eq_move_forget (distinct : ts.handles.Nodup) (h : TimerHandle)
    (trigger : Option Duration) : ts.setTrigger h trigger = (ts.forget h).move h trigger := by
  rw [setTrigger, move, find?_forget, erase_forget,
    forget_of_not_mem (not_mem_handles_erase distinct h)]
  cases found : ts.find? h with
  | none => exact (forget_of_not_mem (find?_eq_none_iff.mp found)).symm
  | some t => rfl

theorem setTrigger_eq_forget_move (distinct : ts.handles.Nodup) (h : TimerHandle)
    (trigger : Option Duration) : ts.setTrigger h trigger = (ts.move h trigger).forget h := by
  cases found : ts.find? h with
  | none =>
    have absent := find?_eq_none_iff.mp found
    rw [setTrigger_of_not_mem absent, move_of_not_mem absent, forget_of_not_mem absent]
  | some t =>
    have own := handle_of_find? found
    rw [setTrigger_of_find? found, move_of_find? found,
      forget_insert (t := { t with trigger }) (not_mem_handles_erase distinct h) own]

end TimerList

end VirtualClock
