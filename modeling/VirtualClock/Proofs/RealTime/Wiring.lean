import VirtualClock.Proofs.RealTime.Sources
import VirtualClock.Proofs.World.Reachable

/-!
Table and loop in step. Every source of a live clock is the one that its timer holds, and every
number that a timer holds is that of a source on the loop. The host may take up sources in any order
and let time pass at any moment; whatever it does, every step keeps the sources wired.
-/

namespace VirtualClock

namespace EventLoop

/-- What the timers of live clocks hold are just the sources on the loop that are theirs, and no two
sources share a number. -/
structure Wired (l : EventLoop) (alive : Nat → Prop) (held : Nat → TimerHandle → Option Nat) :
    Prop where
  distinct : (l.sources.map (·.id)).Nodup
  lt_next : ∀ s ∈ l.sources, s.id < l.nextSource
  held_iff : ∀ c, alive c → ∀ h n,
    held c h = some n ↔ ∃ s ∈ l.sources, s.clock = c ∧ s.handle = h ∧ s.id = n

namespace Wired

variable {l l' : EventLoop} {alive alive' : Nat → Prop}
  {held held' : Nat → TimerHandle → Option Nat} {c : Nat} {h : TimerHandle}

theorem of_eq (wired : l.Wired alive held) (sources : l'.sources = l.sources)
    (next : l'.nextSource = l.nextSource)
    (fewer : ∀ c, alive' c → alive c ∧ ∀ h, held' c h = held c h) : l'.Wired alive' held' := by
  refine ⟨sources ▸ wired.distinct, ?_, ?_⟩
  · rw [sources, next]
    exact wired.lt_next
  · intro c live h n
    obtain ⟨live, table⟩ := fewer c live
    rw [table, sources]
    exact wired.held_iff c live h n

/-- A timer holds at most one source, and a source is held by at most one timer. -/
theorem eq_of_handle (wired : l.Wired alive held) (live : alive c) {s s' : Source}
    (member : s ∈ l.sources) (member' : s' ∈ l.sources) (own : s.clock = c) (own' : s'.clock = c)
    (same : s.handle = s'.handle) : s = s' := by
  have first := (wired.held_iff c live s.handle s.id).mpr ⟨s, member, own, rfl, rfl⟩
  have second := (wired.held_iff c live s.handle s'.id).mpr ⟨s', member', own', same.symm, rfl⟩
  exact Keyed.eq_of_mem wired.distinct member member' (Option.some.inj (first.symm.trans second))

theorem remove (wired : l.Wired alive held) {s : Source} (member : s ∈ l.sources) :
    (l.removeSource s.id).Wired alive fun c h =>
      if c = s.clock ∧ h = s.handle then none else held c h := by
  refine ⟨wired.distinct.sublist (List.filter_sublist.map _), ?_, ?_⟩
  · exact fun t left => wired.lt_next t (mem_removeSource.mp left).1
  · intro c live h n
    simp only [mem_removeSource]
    split
    · next own =>
      obtain ⟨rfl, rfl⟩ := own
      refine iff_of_false (by simp) ?_
      rintro ⟨t, ⟨left, other⟩, clock, handle, rfl⟩
      exact other (congrArg Source.id (wired.eq_of_handle live left member clock rfl handle))
    · next other =>
      rw [wired.held_iff c live h n]
      constructor
      · rintro ⟨t, known, rfl, rfl, rfl⟩
        refine ⟨t, ⟨known, fun same => other ?_⟩, rfl, rfl, rfl⟩
        cases Keyed.eq_of_mem wired.distinct known member same
        exact ⟨rfl, rfl⟩
      · rintro ⟨t, ⟨known, _⟩, clock, handle, number⟩
        exact ⟨t, known, clock, handle, number⟩

theorem disarm (wired : l.Wired alive held) (live : alive c) (h : TimerHandle) :
    (l.removeSource? (held c h)).Wired alive fun d g =>
      if d = c ∧ g = h then none else held d g := by
  cases holds : held c h with
  | none =>
    refine wired.of_eq rfl rfl fun d live => ⟨live, fun g => ?_⟩
    split
    · next same => rw [same.1, same.2, holds]
    · rfl
  | some n =>
    obtain ⟨s, member, rfl, rfl, rfl⟩ := (wired.held_iff c live h n).mp holds
    exact wired.remove member

theorem insert (wired : l.Wired alive held) (free : held c h = none) (delay : Nat) :
    (l.insertSource delay c h).Wired alive fun d g =>
      if d = c ∧ g = h then some l.nextSource else held d g := by
  refine ⟨?_, ?_, ?_⟩
  · rw [((perm_insertSource l delay c h).map (·.id)).nodup_iff, List.map_cons, List.nodup_cons]
    refine ⟨fun member => ?_, wired.distinct⟩
    obtain ⟨s, old, same⟩ := List.mem_map.mp member
    exact Nat.lt_irrefl _ (same ▸ wired.lt_next s old)
  · intro s member
    rcases mem_insertSource.mp member with rfl | old
    · exact Nat.lt_succ_self _
    · exact Nat.lt_succ_of_lt (wired.lt_next s old)
  · intro d live g n
    simp only [mem_insertSource]
    split
    · next own =>
      obtain ⟨rfl, rfl⟩ := own
      constructor
      · rintro ⟨⟩
        exact ⟨_, .inl rfl, rfl, rfl, rfl⟩
      · rintro ⟨s, rfl | old, clock, handle, rfl⟩
        · rfl
        · have := (wired.held_iff d live g s.id).mpr ⟨s, old, clock, handle, rfl⟩
          rw [free] at this
          cases this
    · next other =>
      rw [wired.held_iff d live g n]
      constructor
      · rintro ⟨s, old, clock, handle, number⟩
        exact ⟨s, .inr old, clock, handle, number⟩
      · rintro ⟨s, rfl | old, clock, handle, number⟩
        · exact absurd ⟨clock.symm, handle.symm⟩ other
        · exact ⟨s, old, clock, handle, number⟩

end Wired

end EventLoop

namespace World

/-- The number of the source that timer `h` of clock `c` holds. -/
def source? (w : World) (c : Nat) (h : TimerHandle) : Option Nat :=
  (w.clock? c).bind (·.source? h)

/-- Every live clock's timers hold just its sources on the loop. -/
def Wired (w : World) : Prop := w.loop.Wired (fun c => (w.clock? c).isSome = true) w.source?

theorem source?_of_clock? {w : World} {c : Nat} {k : Clock} (found : w.clock? c = some k)
    (h : TimerHandle) : w.source? c h = k.source? h := by
  rw [source?, found, Option.bind_some]

/-- What an operation makes of the clocks and the sources, and what its event tells of it. -/
inductive Rewired (w : World) (op : Op) (w' : World) : Prop where
  | still : w'.clocks = w.clocks → w.loop.SameSources w'.loop →
    (∀ c, (w.called op).rewires? c = none) → Rewired w op w'
  | created (mode : Mode) (hasLoop : Bool) :
    op = .new mode hasLoop → w' = w.newClock mode hasLoop → Rewired w op w'
  | dropped (c : Nat) : op = .drop c → w' = w.dropClock c → Rewired w op w'
  | called {c : Nat} {k k' : Clock} {change : Option (TimerHandle × Option Nat)} :
    op.clock? = some c → w.clock? c = some k → w'.clocks = (w.setClock c k').clocks →
    k'.mode = k.mode → Clock.Rewired c k w.loop k' w'.loop change →
    (k.mode = .real → (w.called op).rewires? c = change) → Rewired w op w'

section exec

variable {w : World} {op : Op} {c : Nat}

theorem rewires?_ofUnit (c : Nat) (timer : String) (delay : Int32) (h : TimerHandle)
    (reply : Reply Unit) :
    Event.rewires? c (.call (.update c timer delay) (some h) none (.ofUnit reply.result)) =
        reply.change? (h, hostDelay? delay) ∧
      Event.rewires? c (.call (.remove c timer) (some h) none (.ofUnit reply.result)) =
        reply.change? (h, none) := by
  unfold Reply.change?
  cases reply.result with
  | ok => exact ⟨if_pos rfl, if_pos rfl⟩
  | error why => exact ⟨rfl, rfl⟩

theorem fakeNow?_of_real {k : Clock} (found : w.clock? c = some k) (real : k.mode = .real) :
    w.fakeNow? c = none := by
  cases source : k.source with
  | real => simp [fakeNow?, fakeTime?, found, Clock.fakeTime?, source]
  | fake f => simp [Clock.mode, source] at real

theorem rewired_onTimer {timer : String} {call : Clock → TimerHandle → Reply Unit}
    {change : TimerHandle → TimerHandle × Option Nat}
    (exec : w.exec op = w.onTimer c timer call) (named : op.timer? = some timer)
    (about : op.clock? = some c)
    (mode : ∀ k h, (call k h).clock.mode = k.mode)
    (rewired : ∀ k h, w.clock? c = some k →
      ∃ x, Clock.Rewired c k w.loop (call k h).clock (call k h).loop x ∧
        (k.mode = .real → x = (call k h).change? (change h)))
    (event : ∀ h (reply : Reply Unit),
      Event.rewires? c (.call op (some h) none (.ofUnit reply.result)) = reply.change? (change h)) :
    Rewired w op (w.exec op).2 := by
  have called : w.called op =
      .call op (w.lookup timer) (w.fakeNow? c) (w.onTimer c timer call).1 := by
    simp [World.called, named, about, exec]
  have silent (failed : (w.onTimer c timer call).1 ≠ .done) (d : Nat) :
      (w.called op).rewires? d = none := by
    rw [called]
    exact Event.rewires?_of_ne_done failed
  rw [exec]
  cases found : w.clock? c with
  | none =>
    have gone : w.onTimer c timer call = (.noClock, w) := by simp [onTimer, found]
    rw [gone] at silent ⊢
    exact .still rfl (.refl _) (silent (by rintro ⟨⟩))
  | some k =>
    cases looked : w.lookup timer with
    | none =>
      have unknown : w.onTimer c timer call = (.noTimer, w) := by simp [onTimer, found, looked]
      rw [unknown] at silent ⊢
      exact .still rfl (.refl _) (silent (by rintro ⟨⟩))
    | some h =>
      obtain ⟨x, rewired, real⟩ := rewired k h found
      have answered : w.onTimer c timer call =
          (.ofUnit (call k h).result, w.accept c (call k h)) := by
        simp [onTimer, found, looked]
      rw [answered]
      refine .called about found rfl (mode k h) rewired fun isReal => ?_
      rw [called, looked, answered, fakeNow?_of_real found isReal, event, real isReal]

theorem rewired_onClock {call : Clock → Reply Unit} (exec : w.exec op = w.onClock c call)
    (unnamed : op.timer? = none) (about : op.clock? = some c)
    (mode : ∀ k, (call k).clock.mode = k.mode)
    (rewired : ∀ k, Clock.Rewired c k w.loop (call k).clock (call k).loop none) :
    Rewired w op (w.exec op).2 := by
  have silent (d : Nat) : (w.called op).rewires? d = none := Event.rewires?_of_unnamed unnamed
  rw [exec, onClock]
  split
  · exact .still rfl (.refl _) silent
  · next k found => exact .called about found rfl (mode k) (rewired k) fun _ => silent c

theorem rewired_exec (coherent : w.Coherent) (op : Op) : Rewired w op (w.exec op).2 := by
  cases op with
  | new mode hasLoop => exact .created mode hasLoop rfl rfl
  | add c timer fires repeats =>
    have silent (d : Nat) : (w.called (.add c timer fires repeats)).rewires? d = none :=
      Event.rewires?_of_unnamed rfl
    simp only [exec, addTimer]
    split
    · exact .still rfl (.refl _) silent
    · next k found =>
      have mode := (k.frames_addTimer c w.loop { name := timer, fires, repeats }).mode
      split <;>
        exact .called rfl found rfl mode (Clock.rewired_addTimer _) fun _ => silent c
  | update c timer delay =>
    exact rewired_onTimer rfl rfl rfl (fun k h => (k.frames_updateTimer c w.loop h delay).mode)
      (fun k h _ => Clock.rewired_updateTimer h delay)
      fun h reply => (rewires?_ofUnit c timer delay h reply).1
  | remove c timer =>
    refine rewired_onTimer rfl rfl rfl (fun k h => (k.frames_removeTimer c w.loop h).mode) ?_
      fun h reply => (rewires?_ofUnit c timer 0 h reply).2
    intro k h found
    refine Clock.rewired_removeTimer (fun r registered => ?_) h
    exact (coherent.clocks c k found).numbered registered
  | advance c delta =>
    exact rewired_onClock rfl rfl rfl (fun k => (k.frames_advance c w.loop delta).mode)
      fun k => Clock.rewired_advance delta
  | request c r =>
    exact rewired_onClock rfl rfl rfl (fun k => (k.frames_handleRequest c w.loop r).mode)
      fun k => Clock.rewired_handleRequest r
  | destroy c =>
    exact rewired_onClock rfl rfl rfl (fun k => (k.frames_destroy c w.loop).mode)
      fun k => Clock.rewired_destroy
  | drop c =>
    cases found : w.clock? c with
    | none =>
      simp only [exec, found]
      exact .still rfl (.refl _) fun d => Event.rewires?_of_unnamed rfl
    | some k =>
      simp only [exec, found]
      exact .dropped c rfl rfl
  | idle name ops =>
    exact .still rfl (EventLoop.sameSources_enqueueAll ..) fun d => Event.rewires?_of_unnamed rfl
  | gettime | mode | pending | describe =>
    exact .still rfl (.refl _) fun d => Event.rewires?_of_unnamed rfl

end exec

namespace Wired

variable {w w' : World} {op : Op} {c : Nat} {k k' : Clock}

theorem empty : ({} : World).Wired := by
  refine ⟨List.nodup_nil, by simp, fun c live => ?_⟩
  simp [clock?] at live

/-- A change to one clock that agrees with what becomes of its sources. -/
theorem of_rewired (wired : w.Wired) (found : w.clock? c = some k)
    (clocks : w'.clocks = (w.setClock c k').clocks) {change : Option (TimerHandle × Option Nat)}
    (rewired : Clock.Rewired c k w.loop k' w'.loop change) : w'.Wired := by
  have alive {d : Nat} (live : (w'.clock? d).isSome = true) :
      (w.clock? d).isSome = true ∧ ∀ g, w'.source? d g =
        if d = c then k'.source? g else w.source? d g := by
    have same : w'.clock? d = (w.setClock c k').clock? d := by rw [clock?, clock?, clocks]
    rw [same, clock?_setClock (lt_length_of_clock? found)] at live
    simp only [source?, same, clock?_setClock (lt_length_of_clock? found)]
    split at live
    · next own => exact ⟨by simp [own, found], fun g => by simp [own]⟩
    · next other => exact ⟨live, fun g => by simp [other]⟩
  have live : (w.clock? c).isSome = true := by simp [found]
  have table (g : TimerHandle) : w.source? c g = k.source? g := source?_of_clock? found g
  cases rewired with
  | kept source same =>
    refine EventLoop.Wired.of_eq wired same.sources same.nextSource fun d live => ?_
    obtain ⟨live, held⟩ := alive live
    refine ⟨live, fun g => ?_⟩
    rw [held]
    split
    · next own => rw [source, own, table]
    · rfl
  | @disarmed h source same =>
    have step := wired.disarm live h
    rw [table] at step
    refine EventLoop.Wired.of_eq step same.sources same.nextSource fun d live => ?_
    obtain ⟨live, held⟩ := alive live
    refine ⟨live, fun g => ?_⟩
    rw [held]
    split
    · next own => simp only [source, own, table, true_and]
    · next other => simp only [other, false_and, if_false]
  | @armed h delay source same =>
    have step := (wired.disarm live h).insert (c := c) (h := h) (if_pos ⟨rfl, rfl⟩) delay
    rw [table, EventLoop.nextSource_removeSource?] at step
    refine EventLoop.Wired.of_eq step same.sources same.nextSource fun d live => ?_
    obtain ⟨live, held⟩ := alive live
    refine ⟨live, fun g => ?_⟩
    rw [held]
    split
    · next own =>
      simp only [source, own, table, true_and]
      split <;> rfl
    · next other => simp only [other, false_and, if_false]

theorem executed (wired : w.Wired) (coherent : w.Coherent) (executed : Rewired w op w') :
    w'.Wired := by
  cases executed with
  | still clocks same _ =>
    refine EventLoop.Wired.of_eq wired same.sources same.nextSource fun c live => ?_
    have clock : w'.clock? c = w.clock? c := by rw [clock?, clock?, clocks]
    exact ⟨clock ▸ live, fun h => by rw [source?, source?, clock]⟩
  | created mode hasLoop _ new =>
    subst new
    refine ⟨wired.distinct, wired.lt_next, fun c live h n => ?_⟩
    simp only [source?, clock?_newClock] at live ⊢
    split
    · next fresh =>
      subst fresh
      refine iff_of_false ?_ ?_
      · cases hasLoop <;> simp [Clock.source?, Clock.new, Registry.source?, Registry.find?]
      · rintro ⟨s, member, own, _⟩
        exact Nat.lt_irrefl _ (own ▸ (coherent.sources s member).1)
    · next old =>
      rw [if_neg old] at live
      exact wired.held_iff c live h n
  | dropped d _ gone =>
    subst gone
    refine EventLoop.Wired.of_eq wired rfl rfl fun c live => ?_
    rw [clock?_dropClock] at live
    split at live
    · cases live
    · next other =>
      refine ⟨live, fun h => ?_⟩
      rw [source?, clock?_dropClock, if_neg other]
      rfl
  | called _ found clocks _ rewired _ => exact wired.of_rewired found clocks rewired

end Wired

end World

end VirtualClock
