import Mathlib.Data.List.Forall2
import Mathlib.Data.List.Sort
import Mathlib.Data.List.TakeWhile
import Mathlib.Data.Prod.Lex
import VirtualClock.Proofs.TimerList.Due

/-!
The list of timers as a stable list by priority. What insertions, erasures and moves have made of
the empty list is told by a log, which holds each record with the number of the change that put it
in its place: the list is the log in the order of triggers and, where these are equal, of numbers.
Each change leaves all records but one as they are, in their order.
-/

namespace VirtualClock

/-- A record and the number of the change that put it in its place. -/
structure Placement where
  number : Nat
  record : TimerRecord
  deriving DecidableEq

namespace Placement

/-- By trigger, and by the change that gave it where the triggers are equal. -/
def key (p : Placement) : Nat ×ₗ Nat := toLex (triggerRank p.record.trigger, p.number)

def NoLater (p q : Placement) : Prop := p.key ≤ q.key

instance : DecidableRel NoLater := fun p q => inferInstanceAs (Decidable (p.key ≤ q.key))

instance : Std.Total NoLater := ⟨fun p q => le_total p.key q.key⟩

instance : IsTrans Placement NoLater := ⟨fun _ _ _ => le_trans⟩

theorem noLater_iff {p q : Placement} :
    p.NoLater q ↔ triggerRank p.record.trigger < triggerRank q.record.trigger ∨
      triggerRank p.record.trigger = triggerRank q.record.trigger ∧ p.number ≤ q.number :=
  Prod.Lex.toLex_le_toLex

theorem number_eq_of_noLater {p q : Placement} (le : p.NoLater q) (ge : q.NoLater p) :
    p.number = q.number :=
  congrArg (fun key => (ofLex key).2) (le_antisymm le ge)

end Placement

namespace TimerList

/-- A log in firing order. -/
def inOrder (log : List Placement) : List Placement := log.insertionSort Placement.NoLater

/-- The first placement of timer `h`, in firing order. -/
def first? (log : List Placement) (h : TimerHandle) : Option Placement :=
  (inOrder log).find? (·.record.handle == h)

section inOrder

variable {log log' l : List Placement} {n : Nat}

theorem inOrder_perm (log : List Placement) : (inOrder log).Perm log :=
  List.perm_insertionSort ..

theorem pairwise_inOrder (log : List Placement) : (inOrder log).Pairwise Placement.NoLater :=
  List.pairwise_insertionSort ..

/-- Numbers that differ leave one order only. -/
theorem inOrder_eq (distinct : (log.map (·.number)).Nodup) (sub : l.Sublist (inOrder log))
    (perm : log'.Perm l) : inOrder log' = l := by
  have whole : (inOrder log').Perm l := (inOrder_perm log').trans perm
  have known {p : Placement} (member : p ∈ l) : p ∈ log :=
    (inOrder_perm log).subset (sub.subset member)
  refine whole.eq_of_pairwise (fun p q hp hq le ge => ?_) (pairwise_inOrder log')
    ((pairwise_inOrder log).sublist sub)
  have same := Placement.number_eq_of_noLater le ge
  exact Keyed.eq_of_mem distinct (known (whole.subset hp)) (known hq) same

theorem inOrder_erase (distinct : (log.map (·.number)).Nodup) (p : Placement) :
    inOrder (log.erase p) = (inOrder log).erase p :=
  inOrder_eq distinct List.erase_sublist ((inOrder_perm log).symm.erase p)

theorem inOrder_filter (distinct : (log.map (·.number)).Nodup) (keep : Placement → Bool) :
    inOrder (log.filter keep) = (inOrder log).filter keep :=
  inOrder_eq distinct List.filter_sublist ((inOrder_perm log).symm.filter keep)

theorem inOrder_cons (earlier : ∀ p ∈ log, p.number < n) (t : TimerRecord) :
    inOrder (⟨n, t⟩ :: log) =
      (inOrder log).takeWhile (·.record.notAfter t.trigger) ++
        ⟨n, t⟩ :: (inOrder log).dropWhile (·.record.notAfter t.trigger) := by
  have earlier' : ∀ p ∈ inOrder log, p.number < n := fun p member =>
    earlier p ((inOrder_perm log).subset member)
  rw [inOrder, List.insertionSort_cons, ← inOrder]
  generalize inOrder log = ordered at earlier'
  induction ordered with
  | nil => rfl
  | cons p rest ih =>
    obtain ⟨before, before'⟩ := List.forall_mem_cons.mp earlier'
    -- no number in the log reaches `n`, so a tie is lost and only the triggers count
    have behind : Placement.NoLater ⟨n, t⟩ p ↔ ¬p.record.notAfter t.trigger = true := by
      rw [Placement.noLater_iff, TimerRecord.notAfter_iff]
      simp only
      omega
    by_cases front : p.record.notAfter t.trigger = true
    · rw [List.orderedInsert_of_not_le _ _ fun le => behind.mp le front, ih before']
      simp [front]
    · rw [List.orderedInsert_cons_of_le _ _ (behind.mpr front)]
      simp [front]

end inOrder

/-- One step of making a list. A timer that gets a new trigger keeps its queued dispatch when it is
moved, and loses it when the trigger is set. -/
inductive Change where
  | insert (t : TimerRecord)
  | erase (h : TimerHandle)
  | move (h : TimerHandle) (trigger : Option Duration)
  | setTrigger (h : TimerHandle) (trigger : Option Duration)

namespace Change

def apply : Change → TimerList → TimerList
  | insert t, ts => ts.insert t
  | erase h, ts => ts.erase h
  | move h trigger, ts => ts.move h trigger
  | setTrigger h trigger, ts => ts.setTrigger h trigger

/-- What change number `n` makes of a log. -/
def record (n : Nat) : Change → List Placement → List Placement
  | insert t, log => ⟨n, t⟩ :: log
  | erase h, log =>
    match first? log h with
    | none => log
    | some p => log.erase p
  | move h trigger, log =>
    match first? log h with
    | none => log
    | some p => ⟨n, { p.record with trigger }⟩ :: log.erase p
  | setTrigger h trigger, log =>
    match first? log h with
    | none => log
    | some p => ⟨n, { p.record with trigger, pending := none }⟩ :: log.erase p

end Change

/-- The list that changes, the latest first, have made of the empty one. -/
def built (changes : List Change) : TimerList := changes.foldr Change.apply {}

/-- The log of changes, the latest first. -/
def logged : List Change → List Placement
  | [] => []
  | change :: past => change.record past.length (logged past)

/-- A log of changes with numbers below `n` tells the records of a list and their order. -/
structure LoggedBy (ts : TimerList) (n : Nat) (log : List Placement) : Prop where
  toList_eq : ts.toList = (inOrder log).map (·.record)
  distinct : (log.map (·.number)).Nodup
  earlier : ∀ p ∈ log, p.number < n

namespace LoggedBy

variable {ts : TimerList} {n : Nat} {log : List Placement} {h : TimerHandle} {p : Placement}

theorem empty : LoggedBy {} 0 [] where
  toList_eq := rfl
  distinct := List.nodup_nil
  earlier := List.forall_mem_nil _

theorem succ (told : ts.LoggedBy n log) : ts.LoggedBy (n + 1) log where
  toList_eq := told.toList_eq
  distinct := told.distinct
  earlier p member := Nat.lt_succ_of_lt (told.earlier p member)

theorem sorted (told : ts.LoggedBy n log) : ts.Sorted := by
  rw [Sorted, told.toList_eq, List.pairwise_map]
  refine (pairwise_inOrder log).imp fun {p q} le => ?_
  rw [Placement.noLater_iff] at le
  rw [TimerRecord.notAfter_iff]
  omega

theorem find?_eq (told : ts.LoggedBy n log) (h : TimerHandle) :
    ts.find? h = (first? log h).map (·.record) := by
  rw [find?, told.toList_eq, List.find?_map]
  rfl

theorem insert (told : ts.LoggedBy n log) (t : TimerRecord) :
    (ts.insert t).LoggedBy (n + 1) (⟨n, t⟩ :: log) where
  toList_eq := by
    rw [inOrder_cons told.earlier, TimerList.insert, told.toList_eq, List.takeWhile_map,
      List.dropWhile_map, List.map_append, List.map_cons]
    rfl
  distinct := by
    refine List.nodup_cons.mpr ⟨fun used => ?_, told.distinct⟩
    obtain ⟨p, member, same⟩ := List.mem_map.mp used
    exact absurd (told.earlier p member) (by simp [same])
  earlier := List.forall_mem_cons.mpr ⟨Nat.lt_succ_self n, told.succ.earlier⟩

theorem erase (told : ts.LoggedBy n log) (found : first? log h = some p) :
    (ts.erase h).LoggedBy n (log.erase p) where
  toList_eq := by
    have first : (inOrder log).eraseP (·.record.handle == h) = (inOrder log).erase p :=
      Keyed.eraseP_eq_erase found
    rw [inOrder_erase told.distinct, ← first, TimerList.erase, told.toList_eq, List.eraseP_map]
    rfl
  distinct := told.distinct.sublist (List.erase_sublist.map _)
  earlier q member := told.earlier q (List.mem_of_mem_erase member)

theorem replace (told : ts.LoggedBy n log) (h : TimerHandle) (moved : TimerRecord → TimerRecord) :
    (match ts.find? h with
      | none => ts
      | some t => (ts.erase h).insert (moved t)).LoggedBy (n + 1)
        (match first? log h with
          | none => log
          | some p => ⟨n, moved p.record⟩ :: log.erase p) := by
  rw [told.find?_eq]
  cases found : first? log h with
  | none => exact told.succ
  | some p => exact (told.erase found).insert (moved p.record)

theorem change (told : ts.LoggedBy n log) (change : Change) :
    (change.apply ts).LoggedBy (n + 1) (change.record n log) := by
  cases change with
  | insert t => exact told.insert t
  | erase h =>
    cases found : first? log h with
    | none =>
      have absent : h ∉ ts.handles := find?_eq_none_iff.mp (by rw [told.find?_eq, found]; rfl)
      simp only [Change.apply, Change.record, found, erase_of_not_mem absent]
      exact told.succ
    | some p =>
      simp only [Change.apply, Change.record, found]
      exact (told.erase found).succ
  | move h trigger => exact told.replace h ({ · with trigger })
  | setTrigger h trigger => exact told.replace h ({ · with trigger, pending := none })

end LoggedBy

theorem LoggedBy.due_eq {ts : TimerList} {n : Nat} {log : List Placement}
    (told : ts.LoggedBy n log) (target : Duration) :
    ts.due target = (inOrder (log.filter (·.record.isDueBy target))).map (·.record) := by
  rw [due_eq_filter told.sorted, told.toList_eq, List.filter_map, inOrder_filter told.distinct]
  rfl

theorem loggedBy_built (changes : List Change) :
    (built changes).LoggedBy changes.length (logged changes) := by
  induction changes with
  | nil => exact .empty
  | cons change past ih => exact ih.change change

/-- A record enters a list: behind all that are due no later, and before all that are later. -/
inductive Enters (t : TimerRecord) : List TimerRecord → List TimerRecord → Prop where
  | between {front back} :
      (∀ u ∈ front, triggerRank u.trigger ≤ triggerRank t.trigger) →
      (∀ u ∈ back, triggerRank t.trigger < triggerRank u.trigger) →
      Enters t (front ++ back) (front ++ t :: back)

section changes

variable {ts : TimerList} {t : TimerRecord} {h : TimerHandle}

theorem enters_insert (sorted : ts.Sorted) (t : TimerRecord) :
    Enters t ts.toList (ts.insert t).toList := by
  have front : ∀ u ∈ ts.toList.takeWhile (·.notAfter t.trigger),
      triggerRank u.trigger ≤ triggerRank t.trigger := by
    intro u member
    have earlier := List.mem_takeWhile_imp member
    exact TimerRecord.notAfter_iff.mp earlier
  have back : ∀ u ∈ ts.toList.dropWhile (·.notAfter t.trigger),
      triggerRank t.trigger < triggerRank u.trigger := by
    intro u member
    rw [Keyed.dropWhile_eq_filter (sorted.notAfter_first t.trigger)] at member
    have later := List.of_mem_filter member
    rwa [Bool.not_eq_true', TimerRecord.notAfter_eq_false_iff] at later
  have enters := Enters.between front back
  rwa [List.takeWhile_append_dropWhile] at enters

theorem Enters.eq_insertIdx {l l' : List TimerRecord} (enters : Enters t l l') :
    l' = l.insertIdx (Keyed.bisect (·.notAfter t.trigger) l 0 l.length) t := by
  cases enters with
  | between front back =>
    refine (Keyed.insertIdx_bisect (fun u member => ?_) (fun u member => ?_) t).symm
    · exact TimerRecord.notAfter_iff.mpr (front u member)
    · exact TimerRecord.notAfter_eq_false_iff.mpr (back u member)

/-- Erasing and moving concern one record; the others stay as they are, in their order. -/
theorem exists_others (sorted : ts.Sorted) (member : h ∈ ts.handles) :
    ∃ front t back, ts.toList = front ++ t :: back ∧ t.handle = h ∧ (∀ u ∈ front, u.handle ≠ h) ∧
      (ts.erase h).toList = front ++ back ∧
      ∀ trigger, Enters { t with trigger } (front ++ back) (ts.move h trigger).toList ∧
        Enters { t with trigger, pending := none } (front ++ back)
          (ts.setTrigger h trigger).toList := by
  obtain ⟨t, found⟩ := Option.isSome_iff_exists.mp (find?_isSome_iff.mpr member)
  obtain ⟨front, back, split, own, first, erased⟩ := exists_toList_erase found
  refine ⟨front, t, back, split, own, first, erased, fun trigger => ?_⟩
  rw [← erased, move_of_find? found, setTrigger_of_find? found]
  exact ⟨enters_insert (sorted_erase sorted h) _, enters_insert (sorted_erase sorted h) _⟩

theorem sorted_iff_armed :
    ts.Sorted ↔ ts.toList.Pairwise fun a b =>
      ∀ d, a.trigger = some d → ∃ e, b.trigger = some e ∧ d ≤ e := by
  have ranks (a b : TimerRecord) : a.notAfter b.trigger = true ↔
      ∀ d, a.trigger = some d → ∃ e, b.trigger = some e ∧ d ≤ e := by
    unfold TimerRecord.notAfter
    cases a.trigger <;> cases b.trigger <;> simp
  simp only [Sorted, ranks]

theorem forall₂_cancelAfter (ts : TimerList) (target : Duration) :
    List.Forall₂
      (fun t t' =>
        ((∃ d, t.trigger = some d ∧ target < d) → t' = { t with pending := none }) ∧
          (¬(∃ d, t.trigger = some d ∧ target < d) → t' = t))
      ts.toList (ts.cancelAfter target).toList := by
  rw [cancelAfter, List.forall₂_map_right_iff, List.forall₂_same]
  intro t _
  rw [← TimerRecord.isLaterThan_iff]
  exact ⟨fun later => if_pos later, fun kept => if_neg kept⟩

theorem mem_ticketsAfter {target : Duration} {ticket : Ticket} :
    ticket ∈ ts.ticketsAfter target ↔
      ∃ t ∈ ts.toList, (∃ d, t.trigger = some d ∧ target < d) ∧ t.pending = some ticket := by
  simp only [ticketsAfter, List.mem_filterMap, List.mem_filter, TimerRecord.isLaterThan_iff,
    and_assoc]

end changes

/-- What insertions, erasures and moves have made of the empty list is sorted, and it is their log
in the order of triggers and of the changes that gave them. The place of a record that comes in is
the one that halving finds, between the records due no later and those that are later. Erasing and
moving take out the first record with the handle and keep all others, and without such a record
they change nothing; where handles differ, the two ways to move a timer are one but for its queued
dispatch. The due timers are those of the whole list, and cancelling takes the tickets of the
later records, and only these. -/
theorem stable_priority_list {ts : TimerList} {changes : List Change} (made : built changes = ts) :
    (ts.toList.Pairwise fun a b => ∀ d, a.trigger = some d → ∃ e, b.trigger = some e ∧ d ≤ e) ∧
    ts.toList = (inOrder (logged changes)).map (·.record) ∧
    (∀ t, Enters t ts.toList (ts.insert t).toList ∧
      (ts.insert t).toList =
        ts.toList.insertIdx (Keyed.bisect (·.notAfter t.trigger) ts.toList 0 ts.size) t) ∧
    (∀ h, h ∉ ts.handles →
      ts.erase h = ts ∧ ∀ trigger, ts.move h trigger = ts ∧ ts.setTrigger h trigger = ts) ∧
    (∀ h ∈ ts.handles, ∃ front t back,
      ts.toList = front ++ t :: back ∧ t.handle = h ∧ (∀ u ∈ front, u.handle ≠ h) ∧
        (ts.erase h).toList = front ++ back ∧
        ∀ trigger, Enters { t with trigger } (front ++ back) (ts.move h trigger).toList ∧
          Enters { t with trigger, pending := none } (front ++ back)
            (ts.setTrigger h trigger).toList) ∧
    (ts.handles.Nodup → ∀ h trigger,
      ts.setTrigger h trigger = (ts.forget h).move h trigger ∧
        ts.setTrigger h trigger = (ts.move h trigger).forget h) ∧
    (∀ target,
      ts.due target = ts.toList.filter (·.isDueBy target) ∧
        ts.due target =
          (inOrder ((logged changes).filter (·.record.isDueBy target))).map (·.record) ∧
        ∀ t, t ∈ ts.due target ↔ t ∈ ts.toList ∧ ∃ d, t.trigger = some d ∧ d ≤ target) ∧
    ∀ target,
      List.Forall₂
        (fun t t' =>
          ((∃ d, t.trigger = some d ∧ target < d) → t' = { t with pending := none }) ∧
            (¬(∃ d, t.trigger = some d ∧ target < d) → t' = t))
        ts.toList (ts.cancelAfter target).toList ∧
      ∀ ticket, ticket ∈ ts.ticketsAfter target ↔
        ∃ t ∈ ts.toList, (∃ d, t.trigger = some d ∧ target < d) ∧ t.pending = some ticket := by
  have told : ts.LoggedBy changes.length (logged changes) := made ▸ loggedBy_built changes
  have sorted := told.sorted
  refine ⟨sorted_iff_armed.mp sorted, told.toList_eq, ?_, ?_, ?_, ?_, ?_, ?_⟩
  · intro t
    have enters := enters_insert sorted t
    exact ⟨enters, enters.eq_insertIdx⟩
  · intro h absent
    exact ⟨erase_of_not_mem absent, fun trigger =>
      ⟨move_of_not_mem absent trigger, setTrigger_of_not_mem absent trigger⟩⟩
  · exact fun h member => exists_others sorted member
  · intro distinct h trigger
    exact ⟨setTrigger_eq_move_forget distinct h trigger,
      setTrigger_eq_forget_move distinct h trigger⟩
  · intro target
    refine ⟨due_eq_filter sorted target, told.due_eq target, fun t => ?_⟩
    rw [mem_due sorted, TimerRecord.isDueBy_iff]
  · exact fun target => ⟨forall₂_cancelAfter ts target, fun ticket => mem_ticketsAfter⟩

/-- Timers 2, 0 and 1 are armed for one time, in this order; the first of them has a dispatch
queued, which goes with it. -/
def threeTied : List Change :=
  [.setTrigger ⟨1⟩ (some (.ofMillis 5)), .move ⟨0⟩ (some (.ofMillis 5)),
    .setTrigger ⟨2⟩ (some (.ofMillis 5)), .insert { handle := ⟨2⟩ }, .insert { handle := ⟨1⟩ },
    .insert { handle := ⟨0⟩, pending := some 9 }]

/-- Equal triggers leave the order of arming, and a timer that is unknown changes nothing. -/
theorem stable_priority_list_tied :
    ((built threeTied).due (.ofMillis 5)).map (·.handle) = [⟨2⟩, ⟨0⟩, ⟨1⟩] ∧
      (built threeTied).handles.Nodup ∧ ⟨7⟩ ∉ (built threeTied).handles ∧
      (built threeTied).setTrigger ⟨7⟩ none = built threeTied ∧
      9 ∈ (built threeTied).ticketsAfter (.ofMillis 4) := by
  have made : built threeTied = built threeTied := rfl
  obtain ⟨_, _, _, unknown, _, _, due, cancelled⟩ := stable_priority_list made
  have absent : ⟨7⟩ ∉ (built threeTied).handles := by decide
  refine ⟨?_, by decide, absent, ((unknown _ absent).2 none).2, ?_⟩
  · rw [(due _).2.1]
    decide
  · exact ((cancelled _).2 9).mpr (by decide)

end TimerList

end VirtualClock
