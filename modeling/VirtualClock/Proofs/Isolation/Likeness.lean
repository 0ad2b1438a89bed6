import VirtualClock.Proofs.History.Evolution
import VirtualClock.Proofs.Isolation.Selection

/-!
Clocks that look alike: they have the same registered timers, and their fake times show the same
time, timers and target, under whatever tickets their work is queued. Tickets are never looked at:
a call on two such clocks gives the same result, leaves them alike, and does the same to the tasks
on the two loops.
-/

namespace VirtualClock

/-- What fake time shows of itself. -/
structure FakeTime.Look where
  now : Duration
  /-- The timers with their triggers, in firing order. -/
  alarms : List (TimerHandle × Option Duration)
  /-- Target of the pending advance. -/
  target : Option Duration

def FakeTime.look (f : FakeTime) : Look := ⟨f.now, f.timers.alarms, f.final.map (·.target)⟩

/-- What a clock shows of itself: its registered timers and its fake time. -/
def Clock.look (k : Clock) : Option Registry × Option FakeTime.Look :=
  (k.registry, k.fakeTime?.map (·.look))

namespace FakeTime

variable {f f' : FakeTime} {c : Nat} {l l' : EventLoop} {h : TimerHandle} {target : Duration}

theorem target_of_look (same : f'.look = f.look) : f'.target = f.target := by
  have now : f'.now = f.now := congrArg Look.now same
  have final : f'.final.map (·.target) = f.final.map (·.target) := congrArg Look.target same
  have target_eq (f : FakeTime) : f.target = (f.final.map (·.target)).getD f.now := by
    unfold target
    cases f.final <;> rfl
  rw [target_eq, target_eq, now, final]

theorem size_of_look (same : f'.look = f.look) : f'.timers.size = f.timers.size := by
  have alarms : f'.timers.alarms = f.timers.alarms := congrArg Look.alarms same
  simpa [TimerList.alarms, TimerList.size] using congrArg List.length alarms

theorem hasPending_of_look (coherent : f.Coherent) (coherent' : f'.Coherent)
    (same : f'.look = f.look) : f'.hasPending = f.hasPending := by
  have final : f'.final.map (·.target) = f.final.map (·.target) := congrArg Look.target same
  have pending : f'.final.isSome = f.final.isSome := by
    simpa using congrArg Option.isSome final
  rw [Bool.eq_iff_iff, coherent.hasPending_iff, coherent'.hasPending_iff, pending]

theorem find?_isSome_of_alarms (alarms : f'.timers.alarms = f.timers.alarms) :
    (f'.timers.find? h).isSome = (f.timers.find? h).isSome := by
  rw [Bool.eq_iff_iff, TimerList.find?_isSome_iff, TimerList.find?_isSome_iff,
    TimerList.handles_eq_map_alarms, TimerList.handles_eq_map_alarms, alarms]

theorem first_eq_of_look {d d' : Duration} (first : f.timers.First h d) (coherent : f.Coherent)
    (first' : f'.timers.First h d') (same : f'.look = f.look) : d' = d := by
  have alarms : f'.timers.alarms = f.timers.alarms := congrArg Look.alarms same
  have armed := (TimerList.trigger?_eq_some_iff coherent.distinct).mpr first.mem
  have armed' := (TimerList.trigger?_eq_some_iff coherent.distinct).mpr (alarms ▸ first'.mem)
  exact Option.some.inj (armed'.symm.trans armed)

theorem look_fired (coherent : f.Coherent) (same : f'.look = f.look)
    {d : Duration} (first : f.timers.First h d) : (f'.fired h d).look = (f.fired h d).look := by
  have alarms : f'.timers.alarms = f.timers.alarms := congrArg Look.alarms same
  have final : f'.final.map (·.target) = f.final.map (·.target) := congrArg Look.target same
  have known : h ∈ f.timers.handles := by
    rw [TimerList.handles_eq_map_alarms]
    exact List.mem_map_of_mem first.mem
  have moved : (f'.timers.setTrigger h none).alarms = (f.timers.setTrigger h none).alarms :=
    TimerList.alarms_setTrigger_congr alarms coherent.sorted coherent.distinct known none
  simp only [look, fired, moved, final]

theorem dueTasks_eq (sorted : f.timers.Sorted) (c : Nat) (target : Duration) :
    f.dueTasks c target =
      (f.timers.alarms.filter fun a => a.2.any (· ≤ target)).map (fun a => .timer c a.1) ++
        [.finalTime c] := by
  have due : (f.timers.alarms.filter fun a => a.2.any (· ≤ target)) =
      (f.timers.due target).map (·.alarm) := by
    rw [TimerList.due_eq_filter sorted, TimerList.alarms, List.filter_map]
    congr 1
    apply List.filter_congr
    intro t _
    cases trigger : t.trigger <;> simp [TimerRecord.isDueBy, TimerRecord.alarm, trigger]
  rw [due, List.map_map, dueTasks]
  rfl

end FakeTime

/-- Two replies that nobody can tell apart without looking at tickets. -/
structure Reply.Alike {α : Type} (c : Nat) (l l' : EventLoop) (reply reply' : Reply α) :
    Prop where
  result : reply'.result = reply.result
  look : reply'.clock.look = reply.clock.look
  edits : ∃ keep new, l.Edits keep new reply.loop ∧ l'.Edits keep new reply'.loop ∧
    ∀ t ∈ new, t.owner? = some c

section Alike

variable {α : Type} {c : Nat} {l l' : EventLoop} {k k' : Clock} {r : Registry} {f f' : FakeTime}

theorem Reply.alike_same (look : k'.look = k.look) (result : Except Failure α) :
    Reply.Alike c l l' ⟨result, k, l⟩ ⟨result, k', l'⟩ :=
  ⟨rfl, look, _, [], EventLoop.edits_same rfl rfl, EventLoop.edits_same rfl rfl, nofun⟩

theorem Clock.look_eq (now : f'.now = f.now) (alarms : f'.timers.alarms = f.timers.alarms)
    (final : f'.final.map (·.target) = f.final.map (·.target)) :
    (⟨some r, .fake f'⟩ : Clock).look = (⟨some r, .fake f⟩ : Clock).look := by
  simp [look, fakeTime?, FakeTime.look, now, alarms, final]

/-- Putting all work anew, on both loops. -/
theorem FakeTime.Ready.alike {target : Duration} {l₁ l₁' : EventLoop}
    (ready : FakeTime.Ready c l f target l₁) (ready' : FakeTime.Ready c l' f' target l₁')
    (now : f'.now = f.now) (alarms : f'.timers.alarms = f.timers.alarms) :
    Reply.Alike c l l' ⟨.ok (), ⟨some r, .fake (f.schedule c target l₁).1⟩,
        (f.schedule c target l₁).2⟩
      ⟨.ok (), ⟨some r, .fake (f'.schedule c target l₁').1⟩, (f'.schedule c target l₁').2⟩ where
  result := rfl
  look := by
    apply Clock.look_eq
    · exact now
    · rw [FakeTime.alarms_schedule, FakeTime.alarms_schedule, alarms]
    · rfl
  edits := by
    have tasks : f'.dueTasks c target = f.dueTasks c target := by
      rw [FakeTime.dueTasks_eq ready.sorted, FakeTime.dueTasks_eq ready'.sorted, alarms]
    exact ⟨_, _, ready.edits, tasks ▸ ready'.edits, fun _ => FakeTime.owner_of_mem_dueTasks⟩

theorem FakeTime.alike_reschedule (ticketed : l.Ticketed) (ticketed' : l'.Ticketed)
    (coherent : f.Coherent) (coherent' : f'.Coherent) (linked : l.idlesOf c = f.idles c)
    (linked' : l'.idlesOf c = f'.idles c) (same : f'.look = f.look) :
    Reply.Alike c l l' ⟨.ok (), ⟨some r, .fake (f.reschedule c l).1⟩, (f.reschedule c l).2⟩
      ⟨.ok (), ⟨some r, .fake (f'.reschedule c l').1⟩, (f'.reschedule c l').2⟩ := by
  have ready := coherent.ready ticketed linked
  have ready' := coherent'.ready ticketed' linked'
  unfold reschedule
  rw [target_of_look same] at ready' ⊢
  exact ready.alike ready' (congrArg Look.now same) (congrArg Look.alarms same)

/-- Two clocks on fake time that look alike, each in agreement with its loop. Without a loop of
its own a clock has nothing queued, so they are one. -/
inductive Clock.Twins (c : Nat) (l l' : EventLoop) : Clock → Clock → Prop where
  | unlooped {f : FakeTime} :
    f.timers.toList = [] → f.final = none → Twins c l l' ⟨none, .fake f⟩ ⟨none, .fake f⟩
  | looped {r : Registry} {f f' : FakeTime} :
    f.timers.handles.Perm r.handles → f.Coherent → f'.Coherent → l.idlesOf c = f.idles c →
    l'.idlesOf c = f'.idles c → f'.look = f.look →
    Twins c l l' ⟨some r, .fake f⟩ ⟨some r, .fake f'⟩

namespace Clock

theorem twins (coherent : k.CoherentIn c l) (coherent' : k'.CoherentIn c l') (fake : k.mode = .fake)
    (same : k'.look = k.look) : Twins c l l' k k' := by
  cases coherent with
  | real => cases fake
  | @unlooped f empty settled =>
    cases coherent' with
    | real => cases same
    | looped => cases same
    | @unlooped f' empty' settled' =>
      have now : f'.now = f.now := by
        simpa [look, fakeTime?, FakeTime.look] using congrArg (·.2.map (·.now)) same
      obtain ⟨_, ⟨_⟩, _⟩ := f
      obtain ⟨_, ⟨_⟩, _⟩ := f'
      cases now
      cases empty
      cases empty'
      cases settled
      cases settled'
      exact .unlooped rfl rfl
  | @looped r f numbered perm coherent linked =>
    cases coherent' with
    | real => cases same
    | unlooped => cases same
    | @looped r' f' _ _ coherent' linked' =>
      obtain rfl : r' = r := by simpa [look] using congrArg Prod.fst same
      refine .looped perm coherent coherent' linked linked' ?_
      simpa [look, fakeTime?] using congrArg Prod.snd same

namespace Twins

theorem look (twins : Twins c l l' k k') : k'.look = k.look := by
  cases twins with
  | unlooped => rfl
  | looped _ _ _ _ _ same => simp [Clock.look, fakeTime?, same]

variable (ticketed : l.Ticketed) (ticketed' : l'.Ticketed)

include ticketed ticketed' in
theorem alike_advance (twins : Twins c l l' k k') (delta : Duration) :
    Reply.Alike c l l' (k.advance c delta l) (k'.advance c delta l') := by
  have look := twins.look
  cases twins with
  | @unlooped f empty settled =>
    simp only [advance]
    split
    · exact Reply.alike_same rfl _
    · next target _ =>
      have noTickets : f.timers.ticketsAfter target = [] := by
        simp [TimerList.ticketsAfter, empty]
      simp only [FakeTime.advanceTo, Option.isSome_none, Bool.false_eq_true, if_false, noTickets,
        EventLoop.cancelAll, List.foldl_nil]
      exact Reply.alike_same rfl _
  | @looped r f f' _ coherent coherent' linked linked' same =>
    have now : f'.now = f.now := congrArg FakeTime.Look.now same
    simp only [advance, now]
    split
    · exact Reply.alike_same look _
    · next target _ =>
      have ready := FakeTime.ready_advance ticketed linked coherent target
      have ready' := FakeTime.ready_advance ticketed' linked' coherent' target
      have alarms : (f'.timers.cancelAfter target).alarms =
          (f.timers.cancelAfter target).alarms := by
        rw [TimerList.alarms_cancelAfter, TimerList.alarms_cancelAfter]
        exact congrArg FakeTime.Look.alarms same
      exact ready.alike ready' now alarms

include ticketed ticketed' in
theorem alike_handleRequest (twins : Twins c l l' k k') (r : AdvanceRequest) :
    Reply.Alike c l l' (k.handleRequest c r l) (k'.handleRequest c r l') := by
  unfold handleRequest
  cases r.toDuration with
  | error why => exact Reply.alike_same twins.look _
  | ok delta => exact twins.alike_advance ticketed ticketed' delta

theorem alike_addTimer (twins : Twins c l l' k k') (callback : Callback) :
    Reply.Alike c l l' (k.addTimer callback l) (k'.addTimer callback l') := by
  cases twins with
  | unlooped => exact Reply.alike_same rfl _
  | @looped r f f' _ coherent coherent' _ _ same =>
    have alarms : f'.timers.alarms = f.timers.alarms := congrArg FakeTime.Look.alarms same
    refine Reply.alike_same (look_eq ?_ ?_ ?_) _
    · exact congrArg FakeTime.Look.now same
    · rw [TimerList.alarms_insert coherent.sorted, TimerList.alarms_insert coherent'.sorted, alarms]
    · exact congrArg FakeTime.Look.target same

include ticketed ticketed' in
theorem alike_updateTimer (twins : Twins c l l' k k') (h : TimerHandle) (delay : Int32) :
    Reply.Alike c l l' (k.updateTimer c h delay l) (k'.updateTimer c h delay l') := by
  have look := twins.look
  cases twins with
  | @unlooped f empty settled =>
    have unknown : f.timers.find? h = none := by simp [TimerList.find?, empty]
    simp only [updateTimer, updateFake, unknown]
    split <;> exact Reply.alike_same rfl _
  | @looped r f f' perm coherent coherent' linked linked' same =>
    have now : f'.now = f.now := congrArg FakeTime.Look.now same
    have alarms : f'.timers.alarms = f.timers.alarms := congrArg FakeTime.Look.alarms same
    have asked : f'.trigger? delay = f.trigger? delay := by
      unfold FakeTime.trigger?
      rw [now]
    simp only [updateTimer, updateFake, asked]
    cases trigger : f.trigger? delay with
    | error why => exact Reply.alike_same look _
    | ok trigger' =>
      have later (d : Duration) (armed : trigger' = some d) : f.now ≤ d := by
        have after := FakeTime.after?_of_trigger? trigger
        exact Nat.le_of_lt (Duration.lt_of_after? (after.trans armed))
      cases found : f.timers.find? h with
      | none =>
        have found' : f'.timers.find? h = none := by
          simpa [found] using FakeTime.find?_isSome_of_alarms (h := h) alarms
        simp only [found']
        exact Reply.alike_same look _
      | some t =>
        have known : h ∈ f.timers.handles := TimerList.find?_isSome_iff.mp (by simp [found])
        have known' : h ∈ f'.timers.handles := (TimerList.handles_congr alarms).symm ▸ known
        obtain ⟨t', found'⟩ := Option.isSome_iff_exists.mp (TimerList.find?_isSome_iff.mpr known')
        have ready := FakeTime.ready_rearm ticketed linked coherent found later
        have ready' := FakeTime.ready_rearm ticketed' linked' coherent' found' (now ▸ later)
        rw [FakeTime.target_of_look same] at ready'
        have moved : (f'.timers.setTrigger h trigger').alarms =
            (f.timers.setTrigger h trigger').alarms :=
          TimerList.alarms_setTrigger_congr alarms coherent.sorted coherent.distinct known trigger'
        have target : ({ f' with timers := f'.timers.setTrigger h trigger' } : FakeTime).target =
            f.target := (rfl : _ = f'.target).trans (FakeTime.target_of_look same)
        simp only [found', FakeTime.reschedule]
        rw [target]
        exact ready.alike ready' now moved

include ticketed ticketed' in
theorem alike_removeTimer (twins : Twins c l l' k k') (h : TimerHandle) :
    Reply.Alike c l l' (k.removeTimer h l) (k'.removeTimer h l') := by
  have look := twins.look
  cases twins with
  | unlooped => exact Reply.alike_same rfl _
  | @looped r f f' perm coherent coherent' linked linked' same =>
    have alarms : f'.timers.alarms = f.timers.alarms := congrArg FakeTime.Look.alarms same
    simp only [removeTimer]
    cases entry : r.find? h with
    | none => exact Reply.alike_same look _
    | some e =>
      have known : h ∈ f.timers.handles :=
        perm.mem_iff.mpr (Registry.find?_isSome_iff.mp (by simp [entry]))
      have known' : h ∈ f'.timers.handles :=
        (TimerList.handles_congr alarms).symm ▸ known
      obtain ⟨t, found⟩ := Option.isSome_iff_exists.mp (TimerList.find?_isSome_iff.mpr known)
      obtain ⟨t', found'⟩ := Option.isSome_iff_exists.mp (TimerList.find?_isSome_iff.mpr known')
      have edits {l : EventLoop} {f : FakeTime} {t : TimerRecord} (ticketed : l.Ticketed)
          (linked : l.idlesOf c = f.idles c) (coherent : f.Coherent)
          (found : f.timers.find? h = some t) :
          l.Edits (fun task => task.owner? != some c || task.handle? != some h) []
            ((l.removeSource? e.source).cancelAll t.pending.toList) := by
        have quiet := sameBut_removeSource? l c e.source
        have idles := idlesOf_removeSource? l c e.source
        refine (FakeTime.edits_cancel (quiet.ticketed ticketed) (idles.trans linked) coherent
          found).of_eq ?_ ?_ <;> cases e.source <;> rfl
      simp only [found, found']
      refine ⟨rfl, ?_, _, [], edits ticketed linked coherent found,
        edits ticketed' linked' coherent' found', nofun⟩
      apply look_eq
      · exact congrArg FakeTime.Look.now same
      · rw [TimerList.alarms_erase coherent.distinct, TimerList.alarms_erase coherent'.distinct,
          alarms]
      · exact congrArg FakeTime.Look.target same

include ticketed ticketed' in
theorem alike_destroy (twins : Twins c l l' k k') :
    Reply.Alike c l l' (k.destroy l) (k'.destroy l') := by
  have look := twins.look
  cases twins with
  | @unlooped f empty settled =>
    have size : f.timers.size = 0 := by simp [TimerList.size, empty]
    simp only [destroy, Option.elim_none, Nat.lt_irrefl, if_false, size, settled, Option.map_none,
      Option.toList_none, EventLoop.cancelAll, List.foldl_nil]
    exact Reply.alike_same rfl _
  | @looped r f f' perm coherent coherent' linked linked' same =>
    have size := FakeTime.size_of_look same
    simp only [destroy, size]
    split
    · exact Reply.alike_same look _
    · split
      · exact Reply.alike_same look _
      · next settled =>
        have empty : f.timers.toList = [] :=
          List.eq_nil_of_length_eq_zero (Nat.eq_zero_of_not_pos settled)
        have empty' : f'.timers.toList = [] :=
          List.eq_nil_of_length_eq_zero (size.trans (Nat.eq_zero_of_not_pos settled))
        rw [FakeTime.cancelAll_final ticketed linked empty,
          FakeTime.cancelAll_final ticketed' linked' empty']
        refine ⟨rfl, ?_, _, [], EventLoop.edits_without l c, EventLoop.edits_without l' c,
          by simp⟩
        exact look_eq (congrArg FakeTime.Look.now same) (congrArg FakeTime.Look.alarms same) rfl

theorem hasPendingDispatch_eq (twins : Twins c l l' k k') :
    k'.hasPendingDispatch = k.hasPendingDispatch := by
  cases twins with
  | unlooped => rfl
  | looped _ coherent coherent' _ _ same =>
    exact FakeTime.hasPending_of_look coherent coherent' same

theorem description_eq (twins : Twins c l l' k k') : k'.description = k.description := by
  cases twins with
  | unlooped => rfl
  | @looped r f f' _ _ _ _ _ same =>
    have now : f'.now = f.now := congrArg FakeTime.Look.now same
    have final : f'.final.map (·.target) = f.final.map (·.target) :=
      congrArg FakeTime.Look.target same
    simp only [description, now, FakeTime.size_of_look same]
    cases target : f.final <;> cases target' : f'.final <;> simp_all

theorem mode_eq (twins : Twins c l l' k k') : k'.mode = k.mode := by
  cases twins <;> rfl

theorem gettime_eq (twins : Twins c l l' k k') (id : ClockId) :
    k'.gettime id l' = k.gettime id l := by
  cases twins with
  | unlooped => rfl
  | @looped r f f' _ _ _ _ _ same =>
    have now : f'.now = f.now := congrArg FakeTime.Look.now same
    simp only [gettime, now]

end Twins

end Clock

end Alike

end VirtualClock
