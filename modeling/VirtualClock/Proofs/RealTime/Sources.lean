import VirtualClock.Proofs.Registry.Handles
import VirtualClock.Proofs.World.Calls

/-!
The sources on the loop and the numbers by which timers hold them. A call leaves the sources alone,
or takes away the one that a timer holds, or does that and inserts another one, which the timer then
holds. Only updates and removals do so, and only those that succeed.
-/

namespace VirtualClock

namespace EventLoop

/-- Two loops with the same sources. -/
structure SameSources (l l' : EventLoop) : Prop where
  now : l'.now = l.now
  sources : l'.sources = l.sources
  nextSource : l'.nextSource = l.nextSource

variable {l l' l'' : EventLoop}

theorem SameSources.refl (l : EventLoop) : SameSources l l := ⟨rfl, rfl, rfl⟩

theorem SameSources.trans (h : SameSources l l') (h' : SameSources l' l'') : SameSources l l'' :=
  ⟨h'.now.trans h.now, h'.sources.trans h.sources, h'.nextSource.trans h.nextSource⟩

theorem sameSources_cancelAll (l : EventLoop) (tickets : List Ticket) :
    SameSources l (l.cancelAll tickets) := by
  induction tickets generalizing l with
  | nil => exact .refl l
  | cons ticket tickets ih =>
    have first : SameSources l (l.cancel ticket) := ⟨rfl, rfl, rfl⟩
    exact first.trans (ih (l.cancel ticket))

theorem sameSources_enqueueAll (l : EventLoop) (tasks : List Task) :
    SameSources l (l.enqueueAll tasks) :=
  ⟨rfl, rfl, rfl⟩

theorem perm_insertSource (l : EventLoop) (delay c : Nat) (h : TimerHandle) :
    (l.insertSource delay c h).sources.Perm (⟨l.nextSource, l.now + delay, c, h⟩ :: l.sources) := by
  refine List.perm_middle.trans (List.Perm.cons _ ?_)
  rw [List.takeWhile_append_dropWhile]

theorem mem_insertSource {delay c : Nat} {h : TimerHandle} {s : Source} :
    s ∈ (l.insertSource delay c h).sources ↔
      s = ⟨l.nextSource, l.now + delay, c, h⟩ ∨ s ∈ l.sources := by
  rw [(perm_insertSource l delay c h).mem_iff, List.mem_cons]

theorem nextSource_removeSource? (l : EventLoop) (id : Option Nat) :
    (l.removeSource? id).nextSource = l.nextSource := by
  cases id <;> rfl

theorem mem_removeSource {id : Nat} {s : Source} :
    s ∈ (l.removeSource id).sources ↔ s ∈ l.sources ∧ s.id ≠ id := by
  simp [removeSource]

end EventLoop

namespace FakeTime

variable (f : FakeTime) (c : Nat) (target : Duration) (l : EventLoop)

theorem sameSources_scheduleDue : EventLoop.SameSources l (f.scheduleDue c target l).2 :=
  (EventLoop.sameSources_cancelAll ..).trans (EventLoop.sameSources_enqueueAll ..)

theorem sameSources_scheduleFinal : EventLoop.SameSources l (f.scheduleFinal c target l).2 :=
  (EventLoop.sameSources_cancelAll ..).trans (EventLoop.sameSources_enqueueAll ..)

theorem sameSources_schedule : EventLoop.SameSources l (f.schedule c target l).2 :=
  (f.sameSources_scheduleDue c target l).trans (sameSources_scheduleFinal ..)

theorem sameSources_advanceTo (hasLoop : Bool) :
    EventLoop.SameSources l (f.advanceTo hasLoop c target l).2 := by
  unfold advanceTo
  simp only
  split
  · exact (EventLoop.sameSources_cancelAll ..).trans (sameSources_schedule ..)
  · exact EventLoop.sameSources_cancelAll ..

end FakeTime

namespace Registry

variable {r : Registry} {g h : TimerHandle}

/-- The number of the source that a timer holds. -/
def source? (r : Registry) (h : TimerHandle) : Option Nat := (r.find? h).bind (·.source)

theorem find?_modify (r : Registry) (h : TimerHandle) (f : Registration → Registration)
    (same : ∀ e, (f e).handle = e.handle) (g : TimerHandle) :
    (r.modify h f).find? g = (r.find? g).map fun e => if e.handle == h then f e else e := by
  rw [find?, modify, List.find?_map, find?]
  congr 1
  apply congrArg (List.find? · r.entries)
  funext e
  simp only [Function.comp_apply]
  split
  · rw [same]
  · rfl

theorem find?_setSource (r : Registry) (h : TimerHandle) (source : Option Nat)
    (g : TimerHandle) :
    (r.setSource h source).find? g =
      (r.find? g).map fun e => if e.handle == h then { e with source } else e :=
  find?_modify r h ({ · with source }) (fun _ => rfl) g

theorem find?_markFired (r : Registry) (h g : TimerHandle) :
    (r.markFired h).find? g =
      (r.find? g).map fun e =>
        if e.handle == h then { e with callback := e.callback.fired } else e :=
  find?_modify r h (fun e => { e with callback := e.callback.fired }) (fun _ => rfl) g

theorem handle_of_find? {e : Registration} (found : r.find? g = some e) : e.handle = g := by
  simpa using List.find?_some found

theorem source?_add (r : Registry) (callback : Callback) (g : TimerHandle) :
    (r.add callback).source? g = r.source? g := by
  rw [source?, find?, add, List.find?_append, source?, find?]
  cases List.find? (·.handle == g) r.entries with
  | some e => rfl
  | none =>
    rw [Option.none_or, Option.bind_none]
    cases found : List.find? (·.handle == g) [(⟨⟨r.next⟩, callback, none⟩ : Registration)] with
    | none => rfl
    | some e =>
      rw [List.mem_singleton.mp (List.mem_of_find?_eq_some found)]
      rfl

theorem source?_setSource (r : Registry) (h : TimerHandle) (source : Option Nat)
    (g : TimerHandle) :
    (r.setSource h source).source? g =
      if g = h then (r.find? h).bind fun _ => source else r.source? g := by
  rw [source?, find?_setSource]
  by_cases same : g = h
  · subst same
    cases found : r.find? g with
    | none => simp
    | some e => simp [handle_of_find? found]
  · cases found : r.find? g with
    | none => simp [source?, found, same]
    | some e => simp [source?, found, handle_of_find? found, same]

theorem source?_markFired (r : Registry) (h g : TimerHandle) :
    (r.markFired h).source? g = r.source? g := by
  rw [source?, find?_markFired, source?]
  cases r.find? g with
  | none => rfl
  | some e =>
    simp only [Option.map_some, Option.bind_some]
    split <;> rfl

theorem source?_erase (numbered : r.Numbered) (h g : TimerHandle) :
    (r.erase h).source? g = if g = h then none else r.source? g := by
  have entries : (r.erase h).entries = r.entries.filter (·.handle != h) :=
    Keyed.eraseP_eq_filter numbered.distinct h
  rw [source?, find?, entries, List.find?_filter]
  split
  · next same =>
    rw [List.find?_eq_none.mpr]
    · rfl
    · intro e _
      simp [same]
  · next other =>
    rw [source?, find?]
    congr 1
    apply congrArg (List.find? · r.entries)
    funext e
    by_cases found : e.handle = g <;> simp [found, other]

end Registry

/-- How far ahead, in nanoseconds, an update asks a source to be: none for a delay that is not
positive. -/
def hostDelay? (delay : Int32) : Option Nat :=
  if 0 < delay.toInt then some (delay.toInt.toNat * nanosPerMilli) else none

/-- The timer of clock `c` on real time whose source an event takes away, with the delay of the
source that it inserts. Only events of a clock on fake time carry its time. -/
def Event.rewires? (c : Nat) : Event → Option (TimerHandle × Option Nat)
  | .call (.update d _ delay) (some h) none .done =>
    if d = c then some (h, hostDelay? delay) else none
  | .call (.remove d _) (some h) none .done => if d = c then some (h, none) else none
  | .fire d h none => if d = c then some (h, none) else none
  | _ => none

namespace Event

variable {c : Nat} {op : Op} {handle : Option TimerHandle} {now : Option Duration}
  {answer : Answer}

theorem rewires?_of_ne_done (failed : answer ≠ .done) :
    Event.rewires? c (.call op handle now answer) = none := by
  unfold rewires?
  split
  · next same => cases same; exact absurd rfl failed
  · next same => cases same; exact absurd rfl failed
  · next same => cases same
  · rfl

theorem rewires?_of_unnamed (unnamed : op.timer? = none) :
    Event.rewires? c (.call op handle now answer) = none := by
  unfold rewires?
  split
  · next same => cases same; cases unnamed
  · next same => cases same; cases unnamed
  · next same => cases same
  · rfl

theorem rewires?_of_foreign {e : Event} (foreign : e.clock? ≠ some c) : e.rewires? c = none := by
  unfold rewires?
  split
  · exact if_neg fun same => foreign (congrArg some same)
  · exact if_neg fun same => foreign (congrArg some same)
  · exact if_neg fun same => foreign (congrArg some same)
  · rfl

end Event

/-- The change that a call on a clock on real time makes, if it succeeds. -/
def Reply.change? {α : Type} (reply : Reply α) (change : TimerHandle × Option Nat) :
    Option (TimerHandle × Option Nat) :=
  reply.result.toOption.map fun _ => change

namespace Clock

/-- The number of the source that a timer of the clock holds. -/
def source? (k : Clock) (h : TimerHandle) : Option Nat := k.registry.bind (·.source? h)

/-- What a change to clock `c` makes of the sources: it leaves them alone, or takes away that of the
given timer, or does so and inserts one that is the given delay ahead. -/
inductive Rewired (c : Nat) (k : Clock) (l : EventLoop) (k' : Clock) (l' : EventLoop) :
    Option (TimerHandle × Option Nat) → Prop where
  | kept : (∀ g, k'.source? g = k.source? g) → l.SameSources l' → Rewired c k l k' l' none
  | disarmed {h : TimerHandle} :
    (∀ g, k'.source? g = if g = h then none else k.source? g) →
    (l.removeSource? (k.source? h)).SameSources l' → Rewired c k l k' l' (some (h, none))
  | armed {h : TimerHandle} {delay : Nat} :
    (∀ g, k'.source? g = if g = h then some l.nextSource else k.source? g) →
    ((l.removeSource? (k.source? h)).insertSource delay c h).SameSources l' →
    Rewired c k l k' l' (some (h, some delay))

variable {k : Clock} {c : Nat} {l : EventLoop}

theorem rewired_refl (c : Nat) (k : Clock) (l : EventLoop) : Rewired c k l k l none :=
  .kept (fun _ => rfl) (.refl l)

theorem rewired_fake {f : FakeTime} {l' : EventLoop} (same : l.SameSources l') :
    Rewired c k l { k with source := .fake f } l' none :=
  .kept (fun _ => rfl) same

theorem rewired_advance (delta : Duration) :
    Rewired c k l (k.advance c delta l).clock (k.advance c delta l).loop none := by
  unfold advance
  split
  · exact rewired_refl c k l
  · split
    · exact rewired_refl c k l
    · exact rewired_fake (FakeTime.sameSources_advanceTo ..)

theorem rewired_handleRequest (r : AdvanceRequest) :
    Rewired c k l (k.handleRequest c r l).clock (k.handleRequest c r l).loop none := by
  unfold handleRequest
  split
  · exact rewired_refl c k l
  · exact rewired_advance _

theorem rewired_addTimer (callback : Callback) :
    Rewired c k l (k.addTimer callback l).clock (k.addTimer callback l).loop none := by
  unfold addTimer
  split
  · exact rewired_refl c k l
  · next r registered =>
    refine .kept (fun g => ?_) (.refl l)
    simp only [source?, registered, Option.bind_some, Registry.source?_add]

theorem rewired_destroy : Rewired c k l (k.destroy l).clock (k.destroy l).loop none := by
  unfold destroy
  simp only
  split
  · exact rewired_refl c k l
  · split
    · exact rewired_refl c k l
    · split
      · exact rewired_refl c k l
      · exact rewired_fake (EventLoop.sameSources_cancelAll ..)

theorem source?_of_registry {r : Registry} (registered : k.registry = some r) (g : TimerHandle) :
    k.source? g = r.source? g := by
  rw [source?, registered, Option.bind_some]

theorem source?_of_find? {r : Registry} {h : TimerHandle} {e : Registration}
    (registered : k.registry = some r) (entry : r.find? h = some e) : k.source? h = e.source := by
  rw [source?_of_registry registered, Registry.source?, entry, Option.bind_some]

/-- Updating a timer on real time takes its old source away, and inserts a new one for a positive
delay; if the update fails nothing changes. -/
theorem rewired_updateReal (h : TimerHandle) (delay : Int32) :
    Rewired c k l (k.updateReal c h delay l).clock (k.updateReal c h delay l).loop
      ((k.updateReal c h delay l).change? (h, hostDelay? delay)) := by
  unfold updateReal
  split
  · exact rewired_refl c k l
  · next r registered =>
    split
    · exact rewired_refl c k l
    · next e entry =>
      have held := source?_of_find? registered entry
      have table (source : Option Nat) (g : TimerHandle) :
          ({ k with registry := some (r.setSource h source) } : Clock).source? g =
            if g = h then source else k.source? g := by
        rw [source?_of_registry rfl, Registry.source?_setSource, entry, Option.bind_some,
          source?_of_registry registered]
      simp only [Reply.change?, hostDelay?]
      split
      · refine .armed (fun g => ?_) ?_
        · rw [table, EventLoop.nextSource_removeSource?]
        · rw [held]
          exact .refl _
      · refine .disarmed (table none) ?_
        rw [held]
        exact .refl _

theorem rewired_updateFake (f : FakeTime) (h : TimerHandle) (delay : Int32) :
    Rewired c k l (k.updateFake f c h delay l).clock (k.updateFake f c h delay l).loop none := by
  unfold updateFake
  split
  · exact rewired_refl c k l
  · split
    · exact rewired_refl c k l
    · exact rewired_fake
        ((EventLoop.sameSources_cancelAll ..).trans (FakeTime.sameSources_schedule ..))

theorem rewired_updateTimer (h : TimerHandle) (delay : Int32) :
    ∃ change,
      Rewired c k l (k.updateTimer c h delay l).clock (k.updateTimer c h delay l).loop change ∧
        (k.mode = .real → change = (k.updateTimer c h delay l).change? (h, hostDelay? delay)) := by
  unfold updateTimer
  split
  · exact ⟨_, rewired_updateReal h delay, fun _ => rfl⟩
  · next f fake => exact ⟨_, rewired_updateFake f h delay, fun real => by simp [mode, fake] at real⟩

theorem rewired_removeTimer (numbered : ∀ r, k.registry = some r → r.Numbered) (h : TimerHandle) :
    ∃ change, Rewired c k l (k.removeTimer h l).clock (k.removeTimer h l).loop change ∧
      (k.mode = .real → change = (k.removeTimer h l).change? (h, none)) := by
  unfold removeTimer
  split
  · exact ⟨none, rewired_refl c k l, fun _ => rfl⟩
  · next r registered =>
    split
    · exact ⟨none, rewired_refl c k l, fun _ => rfl⟩
    · next e entry =>
      have held := source?_of_find? registered entry
      have erased {source : TimeSource} {l' : EventLoop}
          (same : (l.removeSource? e.source).SameSources l') :
          Rewired c k l ⟨some (r.erase h), source⟩ l' (some (h, none)) := by
        refine .disarmed (fun g => ?_) (held ▸ same)
        rw [source?_of_registry rfl, Registry.source?_erase (numbered r registered),
          source?_of_registry registered]
      cases source : k.source with
      | real => exact ⟨_, erased (.refl _), fun _ => rfl⟩
      | fake f =>
        have real (P : Prop) (real : k.mode = .real) : P := by simp [mode, source] at real
        simp only
        split
        · exact ⟨_, erased (.refl _), real _⟩
        · exact ⟨_, erased (EventLoop.sameSources_cancelAll ..), real _⟩

end Clock

end VirtualClock
