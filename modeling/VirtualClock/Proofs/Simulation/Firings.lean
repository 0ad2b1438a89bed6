import VirtualClock.Proofs.Simulation.Operations
import VirtualClock.Proofs.World.Progress

/-!
Firings of a clock and of its simulator. The first armed timer of the clock is the one that the
simulator picks, since the timers stand in firing order, and when the clock comes to its final task
the simulator has none to pick.
-/

namespace VirtualClock

theorem Arming.Before.asymm {a b : Arming} (before : a.Before b) : ¬b.Before a := by
  rcases before with less | ⟨equal, less⟩
  · rintro (less' | ⟨equal', _⟩)
    · exact Nat.lt_asymm less less'
    · exact Nat.ne_of_lt less (congrArg Duration.nanos equal'.symm)
  · rintro (less' | ⟨_, less'⟩)
    · exact Nat.ne_of_lt less' (congrArg Duration.nanos equal.symm)
    · exact Nat.lt_asymm less less'

namespace Simulator

variable {s : Simulator} {f : FakeTime} {w : World} {own : String → Prop} {g : TimerHandle}
  {d target : Duration}

theorem candidate?_eq_some_iff {e : Registration} {p : Registration × Arming} :
    s.candidate? target e = some p ↔
      e = p.1 ∧ s.arming e.handle = some p.2 ∧ p.2.trigger ≤ target ∧
        ∀ h ∈ s.registry.handles, h ≠ e.handle → ∀ b, s.arming h = some b → p.2.Before b := by
  obtain ⟨e', a⟩ := p
  have all (o : Option Arming) : (o.all fun b => a.Before b) = true ↔
      ∀ b, o = some b → a.Before b := by
    cases o <;> simp
  simp only [candidate?, Option.map_eq_some_iff, Option.filter_eq_some_iff, Bool.and_eq_true,
    decide_eq_true_eq, List.all_eq_true, Bool.or_eq_true, Prod.mk.injEq]
  constructor
  · rintro ⟨_, ⟨live, due, others⟩, rfl, rfl⟩
    exact ⟨rfl, live, due, fun h member other => (all _).mp ((others h member).resolve_left other)⟩
  · rintro ⟨rfl, live, due, others⟩
    refine ⟨a, ⟨live, due, ?_⟩, rfl, rfl⟩
    intro h member
    exact or_iff_not_imp_left.mpr fun other => (all _).mpr (others h member other)

theorem next?_eq_some_of_leads (distinct : s.registry.handles.Nodup) {e : Registration}
    (member : e ∈ s.registry.entries) {a : Arming} (live : s.arming e.handle = some a)
    (due : a.trigger ≤ target)
    (leads : ∀ h b, s.arming h = some b → h ≠ e.handle → a.Before b) :
    s.next? target = some (e, a) := by
  have chosen : s.candidate? target e = some (e, a) :=
    candidate?_eq_some_iff.mpr ⟨rfl, live, due, fun h _ other b live' => leads h b live' other⟩
  cases next : s.next? target with
  | none => cases chosen.symm.trans (List.findSome?_eq_none_iff.mp next e member)
  | some p =>
    obtain ⟨e', member', chosen'⟩ := List.exists_of_findSome?_eq_some next
    obtain ⟨rfl, live', _, others⟩ := candidate?_eq_some_iff.mp chosen'
    by_cases same : p.1.handle = e.handle
    · cases Keyed.eq_of_mem distinct member' member same
      exact chosen'.symm.trans chosen
    · have before := others e.handle (List.mem_map_of_mem member) (Ne.symm same) a live
      exact absurd (leads _ _ live' same) before.asymm

theorem next?_eq_none_of_later (later : ∀ h a, s.arming h = some a → target < a.trigger) :
    s.next? target = none := by
  refine List.findSome?_eq_none_iff.mpr fun e _ => ?_
  cases chosen : s.candidate? target e with
  | none => rfl
  | some p =>
    obtain ⟨_, live, due, _⟩ := candidate?_eq_some_iff.mp chosen
    exact absurd due (Nat.not_le_of_lt (later _ _ live))

namespace Agrees

theorem next?_eq_some (agrees : s.Agrees f) (distinct : s.registry.handles.Nodup)
    (first : f.timers.First g d) (due : d ≤ target) {e : Registration}
    (entry : s.registry.find? g = some e) :
    ∃ a, a.trigger = d ∧ s.next? target = some (e, a) := by
  obtain ⟨member, rfl⟩ := (Keyed.find?_eq_some_iff distinct).mp entry
  obtain ⟨a, live, rfl⟩ := (agrees.ranked.armed_iff e.handle d).mp first.mem
  exact ⟨a, rfl, next?_eq_some_of_leads distinct member live due fun h b live' other =>
    agrees.ranked.before_of_first first live live' other⟩

theorem next?_eq_none (agrees : s.Agrees f)
    (later : ∀ h d, (h, some d) ∈ f.timers.alarms → target < d) : s.next? target = none :=
  next?_eq_none_of_later fun h a live => later h a.trigger (agrees.ranked.armed live)

theorem fire (agrees : s.Agrees f) (coherent : f.Coherent) (first : f.timers.First g d) :
    (s.fire g d).Agrees (f.fired g d) := by
  have member : g ∈ f.timers.handles := by
    rw [TimerList.handles_eq_map_alarms]
    exact List.mem_map_of_mem first.mem
  have retimed : f.Retimed { f with timers := f.timers.setTrigger g none } (some (g, none)) :=
    .set member nofun rfl
  have disarmed := agrees.rearm coherent retimed rfl rfl
  exact ⟨rfl, agrees.target, disarmed.ranked, disarmed.latest⟩

end Agrees

end Simulator

end VirtualClock
