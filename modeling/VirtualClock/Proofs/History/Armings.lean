import VirtualClock.Proofs.TimerList.Order
import VirtualClock.Proofs.World.Moment

/-!
Armings: what history says about the timers of a clock on fake time. A successful update with a
positive delay arms its timer, and the arming lasts until the timer fires, is updated again or is
removed. Armings come before each other by trigger, and by their place in history when the triggers
are equal.
-/

namespace VirtualClock

/-- The trigger that a delay in milliseconds comes to: none for a delay that is not positive. -/
def Duration.after? (now : Duration) (delay : Int32) : Option Duration :=
  if 0 < delay.toInt then now.add? (.ofMillis (.ofNat delay.toInt.toNat)) else none

theorem Duration.after?_eq_some_iff {now d : Duration} {delay : Int32} :
    now.after? delay = some d ↔
      0 < delay.toInt ∧ d.nanos = now.nanos + delay.toInt.toNat * nanosPerMilli := by
  have bound : delay.toInt.toNat < UInt64.size := by
    have := delay.toInt_lt
    simp only [UInt64.size]
    omega
  unfold after?
  split
  · next positive =>
    rw [add?_eq_some_iff, nanos_ofMillis, UInt64.toNat_ofNat_of_lt' bound]
    exact (and_iff_right positive).symm
  · next negative => simp [negative]

theorem Duration.lt_of_after? {now d : Duration} {delay : Int32}
    (asked : now.after? delay = some d) : now < d := by
  obtain ⟨positive, sum⟩ := after?_eq_some_iff.mp asked
  unfold nanosPerMilli at sum
  rw [lt_def]
  omega

/-- An update that armed a timer. -/
structure Arming where
  trigger : Duration
  /-- Number of events before the update. -/
  index : Nat
  deriving DecidableEq

/-- Firing order. -/
def Arming.Before (a b : Arming) : Prop :=
  a.trigger < b.trigger ∨ a.trigger = b.trigger ∧ a.index < b.index

theorem Arming.Before.trigger_le {a b : Arming} (before : a.Before b) : a.trigger ≤ b.trigger := by
  rcases before with less | ⟨equal, _⟩
  · exact Nat.le_of_lt less
  · exact Nat.le_of_eq (congrArg Duration.nanos equal)

/-- The timer of clock `c` that an event changes, with the trigger it leaves it with. Only events
of a clock on fake time carry its time. -/
def Event.change? (c : Nat) : Event → Option (TimerHandle × Option Duration)
  | .call (.update d _ delay) (some h) (some now) .done =>
    if d = c then some (h, now.after? delay) else none
  | .call (.remove d _) (some h) (some _) .done => if d = c then some (h, none) else none
  | .fire d h (some _) => if d = c then some (h, none) else none
  | _ => none

theorem Event.change?_of_ne_done {c : Nat} {op : Op} {handle : Option TimerHandle}
    {now : Option Duration} {answer : Answer} (failed : answer ≠ .done) :
    Event.change? c (.call op handle now answer) = none := by
  unfold change?
  split
  · next same => cases same; exact absurd rfl failed
  · next same => cases same; exact absurd rfl failed
  · next same => cases same
  · rfl

/-- The arming of timer `h` of clock `c` that history has not ended yet. -/
def armingOf (c : Nat) (h : TimerHandle) : List Event → Option Arming
  | [] => none
  | e :: past =>
    match e.change? c with
    | some (g, trigger) => if g = h then trigger.map (⟨·, past.length⟩) else armingOf c h past
    | none => armingOf c h past

/-- The armings after a change, if it is the `n`-th. -/
def rearm (arming : TimerHandle → Option Arming) (n : Nat) :
    Option (TimerHandle × Option Duration) → TimerHandle → Option Arming
  | none => arming
  | some (h, trigger) => fun g => if g = h then trigger.map (⟨·, n⟩) else arming g

section armingOf

variable {c : Nat} {g h : TimerHandle} {e : Event} {past : List Event} {a : Arming}

theorem armingOf_cons_of_none (quiet : e.change? c = none) :
    armingOf c h (e :: past) = armingOf c h past := by
  simp only [armingOf, quiet]

theorem armingOf_cons_of_some {trigger : Option Duration}
    (change : e.change? c = some (g, trigger)) :
    armingOf c h (e :: past) =
      if h = g then trigger.map (⟨·, past.length⟩) else armingOf c h past := by
  simp only [armingOf, change, eq_comm]

theorem armingOf_cons (c : Nat) (e : Event) (past : List Event) :
    (armingOf c · (e :: past)) = rearm (armingOf c · past) past.length (e.change? c) := by
  funext h
  cases change : e.change? c with
  | none => exact armingOf_cons_of_none change
  | some _ => exact armingOf_cons_of_some change

theorem armingOf_eq_some_iff :
    armingOf c h past = some a ↔
      ∃ later e earlier, past = later ++ e :: earlier ∧
        e.change? c = some (h, some a.trigger) ∧ earlier.length = a.index ∧
        ∀ x ∈ later, ∀ trigger, x.change? c ≠ some (h, trigger) := by
  induction past with
  | nil => simp [armingOf]
  | cons x past ih =>
    constructor
    · intro live
      cases change : x.change? c with
      | none =>
        rw [armingOf_cons_of_none change] at live
        obtain ⟨later, e, earlier, rfl, arms, index, quiet⟩ := ih.mp live
        refine ⟨x :: later, e, earlier, rfl, arms, index, ?_⟩
        intro y member trigger
        rcases List.mem_cons.mp member with rfl | member
        · simp [change]
        · exact quiet y member trigger
      | some changed =>
        obtain ⟨g, trigger⟩ := changed
        rw [armingOf_cons_of_some change] at live
        split at live
        · next same =>
          subst same
          obtain ⟨d, rfl, rfl⟩ := Option.map_eq_some_iff.mp live
          exact ⟨[], x, past, rfl, change, rfl, nofun⟩
        · next other =>
          obtain ⟨later, e, earlier, rfl, arms, index, quiet⟩ := ih.mp live
          refine ⟨x :: later, e, earlier, rfl, arms, index, ?_⟩
          intro y member trigger'
          rcases List.mem_cons.mp member with rfl | member
          · rw [change]
            exact fun same => other (by cases same; rfl)
          · exact quiet y member trigger'
    · rintro ⟨later, e, earlier, split, arms, index, quiet⟩
      cases later with
      | nil =>
        obtain ⟨rfl, rfl⟩ := List.cons.inj split
        rw [armingOf_cons_of_some arms, if_pos rfl, Option.map_some, index]
      | cons y later =>
        obtain ⟨rfl, rfl⟩ := List.cons.inj split
        have before : armingOf c h (later ++ e :: earlier) = some a :=
          ih.mpr ⟨later, e, earlier, rfl, arms, index, fun z member =>
            quiet z (List.mem_cons_of_mem _ member)⟩
        cases change : x.change? c with
        | none => exact (armingOf_cons_of_none change).trans before
        | some changed =>
          obtain ⟨g, trigger⟩ := changed
          have other : h ≠ g := by
            rintro rfl
            exact quiet x List.mem_cons_self trigger change
          exact (armingOf_cons_of_some change).trans ((if_neg other).trans before)

theorem index_lt_of_armingOf (live : armingOf c h past = some a) : a.index < past.length := by
  obtain ⟨later, e, earlier, rfl, _, index, _⟩ := armingOf_eq_some_iff.mp live
  simp only [List.length_append, List.length_cons]
  omega

/-- An arming lasts until an event changes the timer. -/
theorem armingOf_append_or (live : armingOf c h past = some a) (later : List Event) :
    armingOf c h (later ++ past) = some a ∨
      ∃ after e before trigger, later = after ++ e :: before ∧
        armingOf c h (before ++ past) = some a ∧ e.change? c = some (h, trigger) := by
  induction later with
  | nil => exact .inl live
  | cons x later ih =>
    rcases ih with still | ⟨after, e, before, trigger, rfl, still, change⟩
    · cases change : x.change? c with
      | none => exact .inl ((armingOf_cons_of_none change).trans still)
      | some changed =>
        obtain ⟨g, trigger⟩ := changed
        by_cases same : h = g
        · subst same
          exact .inr ⟨[], x, later, trigger, rfl, still, change⟩
        · exact .inl ((armingOf_cons_of_some change).trans ((if_neg same).trans still))
    · exact .inr ⟨x :: after, e, before, trigger, rfl, still, change⟩

theorem le_index_of_armingOf {trigger : Option Duration} (change : e.change? c = some (h, trigger))
    {later : List Event} (live : armingOf c h (later ++ e :: past) = some a) :
    past.length ≤ a.index := by
  induction later with
  | nil =>
    rw [List.nil_append, armingOf_cons_of_some change, if_pos rfl] at live
    obtain ⟨d, _, rfl⟩ := Option.map_eq_some_iff.mp live
    exact Nat.le_refl _
  | cons x later ih =>
    cases change' : x.change? c with
    | none => exact ih ((armingOf_cons_of_none change').symm.trans live)
    | some changed =>
      rw [List.cons_append, armingOf_cons_of_some change'] at live
      split at live
      · obtain ⟨d, _, rfl⟩ := Option.map_eq_some_iff.mp live
        simp only [List.length_append, List.length_cons]
        omega
      · exact ih live

theorem armingOf_eq_none (quiet : ∀ e ∈ past, e.change? c = none) (h : TimerHandle) :
    armingOf c h past = none := by
  induction past with
  | nil => rfl
  | cons e past ih =>
    rw [armingOf_cons_of_none (quiet e List.mem_cons_self)]
    exact ih fun x member => quiet x (List.mem_cons_of_mem e member)

end armingOf

/-- The timer of clock `c` that fires, on fake time. -/
def Event.fires? (c : Nat) : Event → Option TimerHandle
  | .fire d h (some _) => if d = c then some h else none
  | _ => none

theorem Event.fires?_eq_some_iff {c : Nat} {h : TimerHandle} {e : Event} :
    e.fires? c = some h ↔ ∃ now, e = .fire c h (some now) := by
  unfold fires?
  split <;> simp_all

theorem Event.fires?_of_change? {c : Nat} {e : Event} (quiet : e.change? c = none) :
    e.fires? c = none := by
  cases fires : e.fires? c with
  | none => rfl
  | some h =>
    obtain ⟨now, rfl⟩ := fires?_eq_some_iff.mp fires
    simp [change?] at quiet

/-- The armings of timers of clock `c` that came to fire, the latest first. -/
def fired (c : Nat) : List Event → List Arming
  | [] => []
  | e :: past => ((e.fires? c).bind fun h => armingOf c h past).toList ++ fired c past

theorem fired_cons_of_none {c : Nat} {e : Event} {past : List Event} (quiet : e.fires? c = none) :
    fired c (e :: past) = fired c past := by
  simp [fired, quiet]

theorem fired_cons_of_some {c : Nat} {h : TimerHandle} {e : Event} {past : List Event} {a : Arming}
    (fires : e.fires? c = some h) (live : armingOf c h past = some a) :
    fired c (e :: past) = a :: fired c past := by
  simp [fired, fires, live]

theorem fired_eq_nil {c : Nat} {past : List Event} (quiet : ∀ e ∈ past, e.change? c = none) :
    fired c past = [] := by
  induction past with
  | nil => rfl
  | cons e past ih =>
    rw [fired_cons_of_none (Event.fires?_of_change? (quiet e List.mem_cons_self))]
    exact ih fun x member => quiet x (List.mem_cons_of_mem e member)

namespace TimerList

/-- The armed timers are those with a live arming, and they stand in firing order. -/
structure Ranked (alarms : List (TimerHandle × Option Duration))
    (arming : TimerHandle → Option Arming) : Prop where
  armed_iff : ∀ h d, (h, some d) ∈ alarms ↔ ∃ a, arming h = some a ∧ a.trigger = d
  order : alarms.Pairwise fun p q =>
    ∀ a b, arming p.1 = some a → arming q.1 = some b → a.Before b

namespace Ranked

variable {alarms : List (TimerHandle × Option Duration)} {arming : TimerHandle → Option Arming}
  {h : TimerHandle}

theorem armed (ranked : Ranked alarms arming) {a : Arming} (live : arming h = some a) :
    (h, some a.trigger) ∈ alarms :=
  (ranked.armed_iff h a.trigger).mpr ⟨a, live, rfl⟩

theorem trigger_eq (ranked : Ranked alarms arming) (distinct : (alarms.map (·.1)).Nodup)
    {p : TimerHandle × Option Duration} (member : p ∈ alarms) {a : Arming}
    (live : arming p.1 = some a) : p.2 = some a.trigger :=
  congrArg Prod.snd (Keyed.eq_of_mem distinct member (ranked.armed live) rfl)

theorem disarmed (ranked : Ranked alarms arming) (absent : h ∉ alarms.map (·.1)) :
    arming h = none := by
  cases live : arming h with
  | none => rfl
  | some a => exact absurd (List.mem_map.mpr ⟨_, ranked.armed live, rfl⟩) absent

theorem erase (ranked : Ranked alarms arming) (h : TimerHandle) :
    Ranked (alarms.filter (·.1 != h)) fun g => if g = h then none else arming g where
  armed_iff g d := by
    rw [List.mem_filter, ranked.armed_iff]
    by_cases same : g = h <;> simp [same]
  order := by
    refine List.Pairwise.imp (fun {p q} before a b first second => ?_)
      (List.Pairwise.filter _ ranked.order)
    split at first
    · cases first
    · split at second
      · cases second
      · exact before a b first second

theorem place (ranked : Ranked alarms arming) (distinct : (alarms.map (·.1)).Nodup)
    (absent : h ∉ alarms.map (·.1)) {n : Nat} (latest : ∀ g a, arming g = some a → a.index < n)
    (trigger : Option Duration) :
    Ranked
      (alarms.filter (fun p => triggerRank p.2 ≤ triggerRank trigger) ++
        (h, trigger) :: alarms.filter (fun p => triggerRank trigger < triggerRank p.2))
      fun g => if g = h then trigger.map (⟨·, n⟩) else arming g where
  armed_iff g d := by
    simp only [List.mem_append, List.mem_cons, List.mem_filter, Prod.mk.injEq, decide_eq_true_eq]
    by_cases same : g = h
    · subst same
      have gone : (g, some d) ∉ alarms := fun member => absent (List.mem_map.mpr ⟨_, member, rfl⟩)
      cases trigger <;> simp [gone, eq_comm]
    · rw [if_neg same, ← ranked.armed_iff g d]
      constructor
      · rintro (⟨member, _⟩ | ⟨rfl, _⟩ | ⟨member, _⟩)
        · exact member
        · exact absurd rfl same
        · exact member
      · intro member
        rcases Nat.lt_or_ge (triggerRank trigger) (triggerRank (some d)) with later | earlier
        · exact .inr (.inr ⟨member, later⟩)
        · exact .inl ⟨member, earlier⟩
  order := by
    have other {p : TimerHandle × Option Duration} (member : p ∈ alarms) : p.1 ≠ h := by
      rintro rfl
      exact absent (List.mem_map_of_mem member)
    have among (keep : TimerHandle × Option Duration → Bool) :
        (alarms.filter keep).Pairwise fun p q => ∀ a b,
          (if p.1 = h then trigger.map (⟨·, n⟩) else arming p.1) = some a →
          (if q.1 = h then trigger.map (⟨·, n⟩) else arming q.1) = some b → a.Before b := by
      refine List.Pairwise.imp_of_mem (fun {p q} hp hq before a b => ?_)
        (List.Pairwise.filter keep ranked.order)
      rw [if_neg (other (List.mem_filter.mp hp).1), if_neg (other (List.mem_filter.mp hq).1)]
      exact before a b
    have rank {p : TimerHandle × Option Duration} (member : p ∈ alarms) {a : Arming}
        (live : (if p.1 = h then trigger.map (⟨·, n⟩) else arming p.1) = some a) :
        arming p.1 = some a ∧ triggerRank p.2 = a.trigger.nanos + 1 := by
      rw [if_neg (other member)] at live
      exact ⟨live, by rw [ranked.trigger_eq distinct member live, triggerRank_some]⟩
    rw [List.pairwise_append, List.pairwise_cons]
    refine ⟨among _, ⟨?_, among _⟩, ?_⟩
    · intro q hq a b first second
      obtain ⟨member, later⟩ := List.mem_filter.mp hq
      rw [if_pos rfl] at first
      obtain ⟨d, rfl, rfl⟩ := Option.map_eq_some_iff.mp first
      have behind := (rank member second).2
      rw [decide_eq_true_eq, behind, triggerRank_some] at later
      exact .inl (Nat.lt_of_succ_lt_succ later)
    · intro p hp q hq a b first second
      obtain ⟨member, earlier⟩ := List.mem_filter.mp hp
      obtain ⟨live, inFront⟩ := rank member first
      rw [decide_eq_true_eq, inFront] at earlier
      rcases List.mem_cons.mp hq with rfl | hq
      · rw [if_pos rfl] at second
        obtain ⟨d, rfl, rfl⟩ := Option.map_eq_some_iff.mp second
        rcases Nat.lt_or_eq_of_le (Nat.le_of_succ_le_succ earlier) with less | equal
        · exact .inl less
        · exact .inr ⟨Duration.ext equal, latest _ a live⟩
      · obtain ⟨member', later⟩ := List.mem_filter.mp hq
        have behind := (rank member' second).2
        rw [decide_eq_true_eq, behind] at later
        exact .inl (Nat.lt_of_succ_lt_succ (Nat.lt_of_le_of_lt earlier later))

/-- The first armed timer comes before all others. -/
theorem before_of_first {ts : TimerList} (ranked : Ranked ts.alarms arming) {d : Duration}
    (first : ts.First h d) {a b : Arming} {g : TimerHandle} (live : arming h = some a)
    (live' : arming g = some b) (other : g ≠ h) : a.Before b := by
  obtain ⟨front, back, split, disarmed⟩ := first
  have member := ranked.armed live'
  have order := ranked.order
  rw [split, List.mem_append, List.mem_cons] at member
  rw [split, List.pairwise_append, List.pairwise_cons] at order
  rcases member with inFront | same | behind
  · cases disarmed _ inFront
  · exact absurd (congrArg Prod.fst same) other
  · exact order.2.1.1 _ behind a b live live'

end Ranked

end TimerList

end VirtualClock
