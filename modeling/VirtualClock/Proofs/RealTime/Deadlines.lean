import VirtualClock.Proofs.RealTime.Wiring
import VirtualClock.Proofs.Simulation.Firings

/-!
Deadlines as triggers. Seen from a host time taken as zero, the sources of a clock on real time are
a list of armed timers with their triggers. Inserting and removing sources are what arming and
disarming timers is to such a list, so the sources stay in firing order.
-/

namespace VirtualClock

namespace TimerList.Ranked

variable {alarms alarms' : List (TimerHandle × Option Duration)}
  {arming : TimerHandle → Option Arming}

theorem exists_arming (ranked : Ranked alarms arming) (armed : ∀ p ∈ alarms, p.2.isSome = true)
    {p : TimerHandle × Option Duration} (member : p ∈ alarms) :
    ∃ a, arming p.1 = some a ∧ p.2 = some a.trigger := by
  obtain ⟨d, trigger⟩ := Option.isSome_iff_exists.mp (armed p member)
  have member' : (p.1, some d) ∈ alarms := trigger ▸ member
  obtain ⟨a, live, rfl⟩ := (ranked.armed_iff p.1 d).mp member'
  exact ⟨a, live, trigger⟩

/-- No timer comes twice, since no arming comes before itself. -/
theorem distinct (ranked : Ranked alarms arming) (armed : ∀ p ∈ alarms, p.2.isSome = true) :
    (alarms.map (·.1)).Nodup := by
  rw [List.Nodup, List.pairwise_map]
  refine List.Pairwise.imp_of_mem (fun {p q} inFront behind order same => ?_) ranked.order
  obtain ⟨a, live, _⟩ := ranked.exists_arming armed inFront
  have before := order a a live (same ▸ live)
  exact before.asymm before

theorem filter_isSome (ranked : Ranked alarms arming) :
    Ranked (alarms.filter (·.2.isSome)) arming where
  armed_iff h d := by
    rw [List.mem_filter, ← ranked.armed_iff h d]
    exact and_iff_left rfl
  order := List.Pairwise.filter _ ranked.order

/-- The armings determine the armed timers and their order. -/
theorem eq_of_armed (ranked : Ranked alarms arming) (ranked' : Ranked alarms' arming)
    (armed : ∀ p ∈ alarms, p.2.isSome = true) (armed' : ∀ p ∈ alarms', p.2.isSome = true) :
    alarms = alarms' := by
  have mem_iff (p : TimerHandle × Option Duration) : p ∈ alarms ↔ p ∈ alarms' := by
    obtain ⟨h, trigger⟩ := p
    cases trigger with
    | none =>
      exact iff_of_false (fun member => by cases armed _ member)
        fun member => by cases armed' _ member
    | some d => rw [ranked.armed_iff, ranked'.armed_iff]
  have perm : alarms.Perm alarms' :=
    (List.perm_ext_iff_of_nodup (.of_map _ (ranked.distinct armed))
      (.of_map _ (ranked'.distinct armed'))).mpr mem_iff
  refine perm.eq_of_pairwise (fun p q member member' before after => ?_) ranked.order ranked'.order
  obtain ⟨a, live, _⟩ := ranked.exists_arming armed member
  obtain ⟨b, live', _⟩ := ranked'.exists_arming armed' member'
  exact absurd (after b a live' live) (before a b live live').asymm

end TimerList.Ranked

namespace Registry

variable {r : Registry} {h : TimerHandle}

/-- The registered timers without their sources. -/
def unsourced (r : Registry) : Registry :=
  { r with entries := r.entries.map ({ · with source := none }) }

@[simp] theorem next_unsourced (r : Registry) : r.unsourced.next = r.next := rfl

@[simp] theorem handles_unsourced (r : Registry) : r.unsourced.handles = r.handles := by
  simp [handles, unsourced]

theorem unsourced_add (r : Registry) (callback : Callback) :
    (r.add callback).unsourced = r.unsourced.add callback := by
  simp [unsourced, add]

theorem unsourced_erase (r : Registry) (h : TimerHandle) :
    (r.erase h).unsourced = r.unsourced.erase h := by
  simp only [unsourced, erase, List.eraseP_map]
  rfl

theorem unsourced_setSource (r : Registry) (h : TimerHandle) (source : Option Nat) :
    (r.setSource h source).unsourced = r.unsourced := by
  simp only [unsourced, setSource, modify, List.map_map]
  congr 1
  refine List.map_congr_left fun e _ => ?_
  simp only [Function.comp_apply]
  split <;> rfl

theorem unsourced_markFired (r : Registry) (h : TimerHandle) :
    (r.markFired h).unsourced = r.unsourced.markFired h := by
  simp only [unsourced, markFired, modify, List.map_map]
  congr 1
  refine List.map_congr_left fun e _ => ?_
  simp only [Function.comp_apply]
  split <;> rfl

end Registry

/-- A source as an armed timer, with its deadline counted from `epoch`. -/
def Source.alarm (epoch : Nat) (s : Source) : TimerHandle × Option Duration :=
  (s.handle, Duration.ofNanos? (s.deadline - epoch))

theorem Source.alarm_eq {epoch : Nat} {s : Source} {d : Duration}
    (deadline : s.deadline = epoch + d.nanos) : s.alarm epoch = (s.handle, some d) := by
  rw [alarm, deadline, Nat.add_sub_cancel_left, Duration.ofNanos?_nanos]

namespace EventLoop

/-- The sources on the loop are those of clock `c`, one for each of its armings, in firing order;
deadlines are counted from `epoch`. There is no other work. -/
structure Timed (epoch c : Nat) (arming : TimerHandle → Option Arming) (l : EventLoop) :
    Prop where
  batch : l.batch = []
  queue : l.queue = []
  own : ∀ s ∈ l.sources, s.clock = c
  inReach : ∀ s ∈ l.sources, ∃ d : Duration, s.deadline = epoch + d.nanos
  ranked : TimerList.Ranked (l.sources.map (·.alarm epoch)) arming

theorem Wired.sources_removeSource? {alive : Nat → Prop} {held : Nat → TimerHandle → Option Nat}
    {c : Nat} {l : EventLoop} (wired : l.Wired alive held) (live : alive c)
    (own : ∀ s ∈ l.sources, s.clock = c) (h : TimerHandle) :
    (l.removeSource? (held c h)).sources = l.sources.filter (·.handle != h) := by
  cases holds : held c h with
  | none =>
    refine (List.filter_eq_self.mpr fun s member => ?_).symm
    rw [bne_iff_ne]
    intro same
    have known := (wired.held_iff c live h s.id).mpr ⟨s, member, own s member, same, rfl⟩
    cases holds.symm.trans known
  | some n =>
    obtain ⟨t, member', own', rfl, rfl⟩ := (wired.held_iff c live h n).mp holds
    refine List.filter_congr fun s member => ?_
    rw [Bool.eq_iff_iff, bne_iff_ne, bne_iff_ne, not_iff_not]
    constructor
    · intro same
      rw [Keyed.eq_of_mem wired.distinct member member' same]
    · intro same
      rw [wired.eq_of_handle live member member' (own s member) own' same]

namespace Timed

variable {epoch c n delay : Nat} {h : TimerHandle} {arming : TimerHandle → Option Arming}
  {l : EventLoop} {s : Source}

theorem armed (timed : l.Timed epoch c arming) (member : s ∈ l.sources) :
    ∃ a, arming s.handle = some a ∧ s.deadline = epoch + a.trigger.nanos := by
  obtain ⟨d, deadline⟩ := timed.inReach s member
  have alarm := List.mem_map_of_mem (f := Source.alarm epoch) member
  rw [Source.alarm_eq deadline, timed.ranked.armed_iff] at alarm
  obtain ⟨a, live, rfl⟩ := alarm
  exact ⟨a, live, deadline⟩

theorem exists_source (timed : l.Timed epoch c arming) {a : Arming} (live : arming h = some a) :
    ∃ s ∈ l.sources, s.handle = h ∧ s.deadline = epoch + a.trigger.nanos := by
  obtain ⟨s, member, alarm⟩ := List.mem_map.mp (timed.ranked.armed live)
  obtain ⟨d, deadline⟩ := timed.inReach s member
  rw [Source.alarm_eq deadline, Prod.mk.injEq, Option.some.injEq] at alarm
  obtain ⟨rfl, rfl⟩ := alarm
  exact ⟨s, member, rfl, deadline⟩

theorem isSome_alarm (timed : l.Timed epoch c arming) :
    ∀ p ∈ l.sources.map (·.alarm epoch), p.2.isSome = true := by
  intro p listed
  obtain ⟨s, member, rfl⟩ := List.mem_map.mp listed
  obtain ⟨d, deadline⟩ := timed.inReach s member
  rw [Source.alarm_eq deadline]
  rfl

theorem distinct (timed : l.Timed epoch c arming) :
    ((l.sources.map (·.alarm epoch)).map (·.1)).Nodup :=
  timed.ranked.distinct timed.isSome_alarm

theorem order (timed : l.Timed epoch c arming) :
    l.sources.Pairwise fun s t => ∀ a b, arming s.handle = some a → arming t.handle = some b →
      a.Before b :=
  List.pairwise_map.mp timed.ranked.order

theorem sorted (timed : l.Timed epoch c arming) :
    l.sources.Pairwise fun s t => s.deadline ≤ t.deadline := by
  refine List.Pairwise.imp_of_mem (fun {s t} inFront behind before => ?_) timed.order
  obtain ⟨a, live, deadline⟩ := timed.armed inFront
  obtain ⟨b, live', deadline'⟩ := timed.armed behind
  rw [deadline, deadline']
  exact Nat.add_le_add_left (before a b live live').trigger_le epoch

theorem disarm (timed : l.Timed epoch c arming) {alive : Nat → Prop}
    {held : Nat → TimerHandle → Option Nat} (wired : l.Wired alive held) (live : alive c)
    (h : TimerHandle) (n : Nat) :
    (l.removeSource? (held c h)).Timed epoch c (rearm arming n (some (h, none))) := by
  have sources := wired.sources_removeSource? live timed.own h
  refine ⟨?_, ?_, ?_, ?_, ?_⟩
  · rw [← timed.batch]
    cases held c h <;> rfl
  · rw [← timed.queue]
    cases held c h <;> rfl
  · intro s left
    rw [sources] at left
    exact timed.own s (List.mem_filter.mp left).1
  · intro s left
    rw [sources] at left
    exact timed.inReach s (List.mem_filter.mp left).1
  · have erased := timed.ranked.erase h
    rw [List.filter_map] at erased
    rw [sources]
    exact erased

theorem alarms_insertSource (timed : l.Timed epoch c arming) (h : TimerHandle) {d : Duration}
    (deadline : l.now + delay = epoch + d.nanos) :
    (l.insertSource delay c h).sources.map (·.alarm epoch) =
      (l.sources.map (·.alarm epoch)).filter (fun p => triggerRank p.2 ≤ triggerRank (some d)) ++
        (h, some d) ::
          (l.sources.map (·.alarm epoch)).filter
            (fun p => triggerRank (some d) < triggerRank p.2) := by
  let early (s : Source) : Bool := s.deadline ≤ l.now + delay
  have sorted : l.sources.Pairwise fun s t => early t = true → early s = true :=
    timed.sorted.imp fun le inFront => decide_eq_true (Nat.le_trans le (of_decide_eq_true inFront))
  have rank {s : Source} (member : s ∈ l.sources) :
      triggerRank (s.alarm epoch).2 ≤ triggerRank (some d) ↔ s.deadline ≤ l.now + delay := by
    obtain ⟨e, due⟩ := timed.inReach s member
    rw [Source.alarm_eq due, due, deadline, triggerRank_some, triggerRank_some]
    omega
  have front : (l.sources.map (·.alarm epoch)).filter
        (fun p => decide (triggerRank p.2 ≤ triggerRank (some d))) =
      (l.sources.takeWhile early).map (·.alarm epoch) := by
    rw [Keyed.takeWhile_eq_filter sorted, List.filter_map]
    exact congrArg _ (List.filter_congr fun s member => decide_eq_decide.mpr (rank member))
  have back : (l.sources.map (·.alarm epoch)).filter
        (fun p => decide (triggerRank (some d) < triggerRank p.2)) =
      (l.sources.dropWhile early).map (·.alarm epoch) := by
    rw [Keyed.dropWhile_eq_filter sorted, List.filter_map]
    refine congrArg _ (List.filter_congr fun s member => ?_)
    rw [← decide_not, Function.comp_apply, decide_eq_decide, ← rank member, Nat.not_le]
  rw [front, back, ← Source.alarm_eq (s := ⟨l.nextSource, l.now + delay, c, h⟩) deadline,
    insertSource, List.map_append, List.map_cons]

theorem arm (timed : l.Timed epoch c arming) (idle : arming h = none)
    (latest : ∀ g a, arming g = some a → a.index < n) {d : Duration}
    (deadline : l.now + delay = epoch + d.nanos) :
    (l.insertSource delay c h).Timed epoch c (rearm arming n (some (h, some d))) := by
  have absent : h ∉ (l.sources.map (·.alarm epoch)).map (·.1) := by
    intro listed
    rw [List.map_map] at listed
    obtain ⟨s, member, rfl⟩ := List.mem_map.mp listed
    obtain ⟨a, live, _⟩ := timed.armed member
    cases idle.symm.trans live
  refine ⟨timed.batch, timed.queue, ?_, ?_, ?_⟩
  · intro s member
    rcases mem_insertSource.mp member with rfl | old
    · rfl
    · exact timed.own s old
  · intro s member
    rcases mem_insertSource.mp member with rfl | old
    · exact ⟨d, deadline⟩
    · exact timed.inReach s old
  · rw [timed.alarms_insertSource h deadline]
    exact timed.ranked.place timed.distinct absent latest (some d)

end Timed

end EventLoop

end VirtualClock
