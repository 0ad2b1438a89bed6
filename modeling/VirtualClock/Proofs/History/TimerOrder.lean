import VirtualClock.Proofs.History.Lifetime

/-!
The order of timers as history tells it. Each event of a clock takes a timer out of the order or
puts one in, behind those due no later; so two runs of a clock with the same events leave its
timers in the same order, the disarmed ones included.
-/

namespace VirtualClock

/-- Handles and triggers with one more, behind those due no later. -/
def placeAlarm (alarms : List (TimerHandle × Option Duration)) (h : TimerHandle)
    (trigger : Option Duration) : List (TimerHandle × Option Duration) :=
  alarms.filter (fun a => triggerRank a.2 ≤ triggerRank trigger) ++
    (h, trigger) :: alarms.filter (fun a => triggerRank trigger < triggerRank a.2)

/-- What an event makes of the timers of clock `c`, in their order. -/
def Event.relist (c : Nat) (e : Event) (alarms : List (TimerHandle × Option Duration)) :
    List (TimerHandle × Option Duration) :=
  match e with
  | .call (.add d _ _ _) _ _ (.handle h) => if d = c then placeAlarm alarms h none else alarms
  | .call (.update d _ delay) (some h) (some now) .done =>
    if d = c then placeAlarm (alarms.filter (·.1 != h)) h (now.after? delay) else alarms
  | .call (.remove d _) (some h) _ .done => if d = c then alarms.filter (·.1 != h) else alarms
  | .fire d h _ => if d = c then placeAlarm (alarms.filter (·.1 != h)) h none else alarms
  | _ => alarms

section relist

variable {c : Nat} {e : Event} {alarms : List (TimerHandle × Option Duration)}

theorem Event.relist_of_foreign (foreign : e.clock? ≠ some c) : e.relist c alarms = alarms := by
  unfold relist
  split
  · exact if_neg fun same => foreign (congrArg some same)
  · exact if_neg fun same => foreign (congrArg some same)
  · exact if_neg fun same => foreign (congrArg some same)
  · exact if_neg fun same => foreign (congrArg some same)
  · rfl

/-- Only a clock's own events matter to its timers. -/
theorem foldr_relist_filter (c : Nat) (events : List Event)
    (alarms : List (TimerHandle × Option Duration)) :
    (events.filter (·.clock? = some c)).foldr (Event.relist c) alarms =
      events.foldr (Event.relist c) alarms := by
  rw [List.foldr_filter]
  congr 1
  funext e alarms
  split
  · rfl
  · next foreign => exact (Event.relist_of_foreign (by simpa using foreign)).symm

theorem Event.relist_of_delta? {op : Op} {delta : Duration} (asked : op.delta? c = some delta)
    (handle : Option TimerHandle) (now : Option Duration) (answer : Answer) :
    (Event.call op handle now answer).relist c alarms = alarms := by
  cases op with
  | advance | request => rfl
  | _ => cases asked

theorem Event.relist_of_kept {op : Op} {handle : Option TimerHandle} {now : Option Duration}
    {answer : Answer} (failed : answer ≠ .done) (noHandle : ∀ h, answer ≠ .handle h) :
    (Event.call op handle now answer).relist c alarms = alarms := by
  unfold relist
  split
  · next same =>
    cases same
    exact absurd rfl (noHandle _)
  · next same =>
    cases same
    exact absurd rfl failed
  · next same =>
    cases same
    exact absurd rfl failed
  · next same => cases same
  · rfl

end relist

theorem FakeTime.Handled.alarms_eq {c : Nat} {f f' : FakeTime} {e : Event}
    (handled : f.Handled c e f') (h : f.Coherent) :
    f'.timers.alarms = e.relist c f.timers.alarms := by
  cases handled with
  | kept failed noHandle => exact (Event.relist_of_kept failed noHandle).symm
  | added timer fires repeats =>
    exact (TimerList.alarms_insert h.sorted _).trans (if_pos rfl).symm
  | updated timer delay l member =>
    rw [FakeTime.reschedule, FakeTime.alarms_schedule]
    exact (TimerList.alarms_setTrigger h.sorted h.distinct member _).trans (if_pos rfl).symm
  | removed => exact (TimerList.alarms_erase h.distinct _).trans (if_pos rfl).symm
  | advanced op l asked =>
    rw [Event.relist_of_delta? asked]
    exact (FakeTime.alarms_schedule ..).trans (TimerList.alarms_cancelAfter ..)
  | destroyed => rfl

namespace Moment

variable {m m' : Moment} {c : Nat} {f f' : FakeTime}

theorem Move.alarms_eq (move : Move c m m' f f') (h : f.Coherent) :
    ∃ events, m'.history = events ++ m.history ∧
      f'.timers.alarms = events.foldr (Event.relist c) f.timers.alarms := by
  cases move with
  | elsewhere events same history foreign =>
    refine ⟨events, history, ?_⟩
    have none : events.filter (·.clock? = some c) = [] :=
      List.filter_eq_nil_iff.mpr fun e member => by simpa using foreign e member
    rw [same, ← foldr_relist_filter, none]
    rfl
  | @handled e handled history => exact ⟨[e], history, handled.alarms_eq h⟩
  | @fired g d x _ _ first fired history =>
    refine ⟨[_], history, ?_⟩
    have member : g ∈ f.timers.handles := by
      rw [TimerList.handles_eq_map_alarms]
      exact List.mem_map_of_mem first.mem
    rw [fired]
    exact (TimerList.alarms_setTrigger h.sorted h.distinct member none).trans (if_pos rfl).symm
  | applied _ _ applied history => exact ⟨[], history, by rw [applied]; rfl⟩
  | rescheduled l rescheduled history =>
    exact ⟨[], history, by rw [rescheduled]; exact FakeTime.alarms_schedule ..⟩

theorem alarms_of_lives {R : Moment → Moment → Prop} {a b : Moment × FakeTime}
    (run : Relation.ReflTransGen (Lives R c) a b) :
    ∃ events, b.1.history = events ++ a.1.history ∧
      b.2.timers.alarms = events.foldr (Event.relist c) a.2.timers.alarms := by
  induction run with
  | refl => exact ⟨[], rfl, rfl⟩
  | @tail b d _ last ih =>
    obtain ⟨events, history, alarms⟩ := ih
    obtain ⟨r, alive⟩ := last.before
    have coherent := last.coherent.fakeTime (World.fakeTime?_of_clock? alive rfl)
    obtain ⟨more, history', alarms'⟩ := last.move.alarms_eq coherent
    refine ⟨more ++ events, ?_, ?_⟩
    · rw [history', history, List.append_assoc]
    · rw [alarms', alarms, List.foldr_append]

theorem alarms_eq_foldr {r r' : Registry} (h : m.Coherent)
    (found : m.world.clock? c = some ⟨some r, .fake f⟩) (run : Relation.ReflTransGen Step m m')
    (found' : m'.world.clock? c = some ⟨some r', .fake f'⟩) {events : List Event}
    (history : m'.history.filter (·.clock? = some c) =
      events ++ m.history.filter (·.clock? = some c)) :
    f'.timers.alarms = events.foldr (Event.relist c) f.timers.alarms := by
  obtain ⟨_, _, same, path⟩ := lives (fun _ _ => id) h found run found'
  cases same
  obtain ⟨all, split, alarms⟩ := alarms_of_lives path
  have own : all.filter (·.clock? = some c) = events := by
    rw [split, List.filter_append] at history
    exact List.append_cancel_right history
  rw [alarms, ← foldr_relist_filter, own]

end Moment

end VirtualClock
