import VirtualClock.Clock
import VirtualClock.Proofs.FakeTime.Calls
import VirtualClock.Proofs.Registry.Handles

/-!
Coherent clocks and the calls on them. A clock on real time has no work in the queues of the loop;
one on fake time has exactly the work its fake time knows of, and its timers are those registered
with the loop. Every call leaves the clock coherent and the work of other clocks where it was.
-/

namespace VirtualClock

/-- What a clock and the loop agree on, by kind of clock. -/
inductive Clock.CoherentIn (c : Nat) (l : EventLoop) : Clock → Prop where
  | real {registry : Option Registry} :
      (∀ r, registry = some r → r.Numbered) → l.idlesOf c = [] →
      CoherentIn c l ⟨registry, .real⟩
  | unlooped {f : FakeTime} :
      f.timers.toList = [] → f.final = none → l.idlesOf c = [] →
      CoherentIn c l ⟨none, .fake f⟩
  | looped {r : Registry} {f : FakeTime} :
      r.Numbered → f.timers.handles.Perm r.handles → f.Coherent → l.idlesOf c = f.idles c →
      CoherentIn c l ⟨some r, .fake f⟩

/-- The clock that a call leaves is coherent, and the work of others has not moved. -/
structure Reply.Kept {α : Type} (reply : Reply α) (c : Nat) (l : EventLoop) : Prop where
  clock : reply.clock.CoherentIn c reply.loop
  loop : EventLoop.SameBut c l reply.loop

namespace Clock

variable {k : Clock} {c : Nat} {l l' : EventLoop}

theorem CoherentIn.of_idlesOf (h : k.CoherentIn c l) (same : l'.idlesOf c = l.idlesOf c) :
    k.CoherentIn c l' := by
  cases h with
  | real numbered idle => exact .real numbered (same.trans idle)
  | unlooped empty settled idle => exact .unlooped empty settled (same.trans idle)
  | looped numbered handles coherent linked =>
    exact .looped numbered handles coherent (same.trans linked)

theorem CoherentIn.fake (h : k.CoherentIn c l) {f : FakeTime} (fake : k.source = .fake f) :
    f.Coherent ∧ l.idlesOf c = f.idles c := by
  cases h with
  | real => cases fake
  | @unlooped f empty settled idle =>
    cases fake
    have noAlarms : f.timers.alarms = [] := by simp [TimerList.alarms, empty]
    refine ⟨⟨?_, ?_, ?_, ?_, ?_, ?_⟩, ?_⟩
    · simp [TimerList.Sorted, empty]
    · simp [TimerList.handles, empty]
    · simp [empty]
    · simp [noAlarms]
    · simp [settled]
    · simp [noAlarms]
    · simp [idle, FakeTime.idles, TimerList.idles, empty, settled]
  | looped _ _ coherent linked =>
    cases fake
    exact ⟨coherent, linked⟩

theorem CoherentIn.registered {r : Registry} {f : FakeTime}
    (h : (⟨some r, .fake f⟩ : Clock).CoherentIn c l) :
    r.Numbered ∧ f.timers.handles.Perm r.handles := by
  cases h with
  | looped numbered handles _ _ => exact ⟨numbered, handles⟩

theorem CoherentIn.numbered {r : Registry} (h : k.CoherentIn c l)
    (registered : k.registry = some r) : r.Numbered := by
  cases h with
  | real numbered _ => exact numbered r registered
  | unlooped => cases registered
  | looped numbered =>
    cases registered
    exact numbered

theorem CoherentIn.kept {α : Type} (h : k.CoherentIn c l) (result : Except Failure α) :
    Reply.Kept ⟨result, k, l⟩ c l :=
  ⟨h, .refl c l⟩

theorem CoherentIn.new (idle : l.idlesOf c = []) (mode : Mode) (hasLoop : Bool) :
    (Clock.new mode hasLoop).CoherentIn c l := by
  have numbered : ({} : Registry).Numbered := ⟨List.nodup_nil, by simp [Registry.handles]⟩
  have coherent : ({} : FakeTime).Coherent :=
    ⟨List.Pairwise.nil, List.nodup_nil, by simp, by simp [TimerList.alarms], by simp,
      by simp [TimerList.alarms]⟩
  cases mode with
  | real =>
    refine .real ?_ idle
    intro r some
    cases hasLoop with
    | false => cases some
    | true => cases some; exact numbered
  | fake =>
    cases hasLoop with
    | false => exact .unlooped rfl rfl idle
    | true => exact .looped numbered (List.Perm.refl _) coherent idle

theorem kept_advance (ticketed : l.Ticketed) (h : k.CoherentIn c l) (delta : Duration) :
    (k.advance c delta l).Kept c l := by
  cases h with
  | real numbered idle => exact (CoherentIn.real numbered idle).kept _
  | @unlooped f empty settled idle =>
    simp only [advance]
    split
    · exact (CoherentIn.unlooped empty settled idle).kept _
    · next target _ =>
      have noTickets : f.timers.ticketsAfter target = [] := by
        simp [TimerList.ticketsAfter, empty]
      simp only [FakeTime.advanceTo, Option.isSome_none, Bool.false_eq_true, if_false, noTickets,
        EventLoop.cancelAll, List.foldl_nil]
      exact ⟨.unlooped (by simp [TimerList.cancelAfter, empty]) rfl idle, .refl c l⟩
  | @looped r f numbered handles coherent linked =>
    simp only [advance]
    split
    · exact (CoherentIn.looped numbered handles coherent linked).kept _
    · next target sum =>
      have ahead : f.now ≤ target := Duration.le_of_add? sum
      obtain ⟨coherent', linked', sameBut⟩ :=
        FakeTime.outcome_advanceTo ticketed linked coherent ahead
      refine ⟨.looped numbered ?_ coherent' linked', sameBut⟩
      simpa [TimerList.handles_eq_map_alarms, FakeTime.advanceTo] using handles

theorem kept_handleRequest (ticketed : l.Ticketed) (h : k.CoherentIn c l) (r : AdvanceRequest) :
    (k.handleRequest c r l).Kept c l := by
  unfold handleRequest
  split
  · exact h.kept _
  · exact kept_advance ticketed h _

theorem kept_addTimer (h : k.CoherentIn c l) (callback : Callback) :
    (k.addTimer callback l).Kept c l := by
  cases h with
  | @real registry numbered idle =>
    cases registry with
    | none => exact (CoherentIn.real numbered idle).kept _
    | some r =>
      refine ⟨.real ?_ idle, .refl c l⟩
      intro r' some
      cases some
      exact (numbered r rfl).add callback
  | unlooped empty settled idle => exact (CoherentIn.unlooped empty settled idle).kept _
  | @looped r f numbered handles coherent linked =>
    have fresh : (⟨r.next⟩ : TimerHandle) ∉ f.timers.handles := fun member =>
      Registry.next_not_mem_handles numbered (handles.mem_iff.mp member)
    obtain ⟨coherent', linked', sameBut⟩ := FakeTime.outcome_insert linked coherent fresh
    refine ⟨.looped (numbered.add callback) ?_ coherent' linked', sameBut⟩
    rw [Registry.handles_add]
    exact ((TimerList.handles_insert_perm ..).trans (handles.cons _)).trans
      (List.perm_append_singleton ..).symm

theorem sameBut_removeSource? (l : EventLoop) (c : Nat) (id : Option Nat) :
    EventLoop.SameBut c l (l.removeSource? id) := by
  cases id <;> exact .of_eq rfl rfl rfl

theorem idlesOf_removeSource? (l : EventLoop) (c : Nat) (id : Option Nat) :
    (l.removeSource? id).idlesOf c = l.idlesOf c := by
  cases id <;> rfl

theorem kept_updateReal {registry : Option Registry}
    (numbered : ∀ r, registry = some r → r.Numbered) (idle : l.idlesOf c = []) (h : TimerHandle)
    (delay : Int32) : ((⟨registry, .real⟩ : Clock).updateReal c h delay l).Kept c l := by
  unfold updateReal
  split
  · exact (CoherentIn.real numbered idle).kept _
  · next r some =>
    have numbered' := numbered r some
    split
    · exact (CoherentIn.real numbered idle).kept _
    · next e _ =>
      have idle' : (l.removeSource? e.source).idlesOf c = [] :=
        (idlesOf_removeSource? l c e.source).trans idle
      simp only
      split
      · refine ⟨.real ?_ idle', (sameBut_removeSource? l c e.source).trans
          (.of_eq rfl rfl rfl)⟩
        intro r' some'
        cases some'
        exact numbered'.setSource h _
      · refine ⟨.real ?_ idle', sameBut_removeSource? l c e.source⟩
        intro r' some'
        cases some'
        exact numbered'.setSource h none

theorem kept_updateFake {f : FakeTime} (ticketed : l.Ticketed) (fake : k.source = .fake f)
    (coherentIn : k.CoherentIn c l) (h : TimerHandle) (delay : Int32) :
    (k.updateFake f c h delay l).Kept c l := by
  unfold updateFake
  split
  · exact coherentIn.kept _
  · next trigger asked =>
    split
    · exact coherentIn.kept _
    · next t found =>
      have later : ∀ d, trigger = some d → f.now ≤ d := by
        rintro d rfl
        unfold FakeTime.trigger? at asked
        split at asked
        · split at asked
          · next sum =>
            cases asked
            rw [Duration.le_def, Duration.add?_eq_some_iff.mp sum]
            omega
          · cases asked
        · cases asked
      cases coherentIn with
      | real => cases fake
      | unlooped empty =>
        cases fake
        simp [TimerList.find?, empty] at found
      | looped numbered handles coherent linked =>
        cases fake
        obtain ⟨coherent', linked', sameBut⟩ :=
          FakeTime.outcome_rearm ticketed linked coherent found later
        refine ⟨.looped numbered ?_ coherent' linked', sameBut⟩
        rw [FakeTime.reschedule, TimerList.handles_congr (FakeTime.alarms_schedule ..)]
        exact (TimerList.handles_setTrigger_perm ..).trans handles

theorem kept_updateTimer (ticketed : l.Ticketed) (coherentIn : k.CoherentIn c l) (h : TimerHandle)
    (delay : Int32) : (k.updateTimer c h delay l).Kept c l := by
  cases coherentIn with
  | real numbered idle => exact kept_updateReal numbered idle h delay
  | unlooped empty settled idle =>
    exact kept_updateFake ticketed rfl (.unlooped empty settled idle) h delay
  | looped numbered handles coherent linked =>
    exact kept_updateFake ticketed rfl (.looped numbered handles coherent linked) h delay

theorem kept_removeTimer (ticketed : l.Ticketed) (coherentIn : k.CoherentIn c l)
    (h : TimerHandle) : (k.removeTimer h l).Kept c l := by
  unfold removeTimer
  split
  · exact coherentIn.kept _
  · next r registered =>
    split
    · exact coherentIn.kept _
    · next e entry =>
      have quiet := sameBut_removeSource? l c e.source
      have idles := idlesOf_removeSource? l c e.source
      cases coherentIn with
      | real numbered idle =>
        refine ⟨.real ?_ (idles.trans idle), quiet⟩
        intro r' some
        cases some
        exact (numbered r registered).erase h
      | unlooped => cases registered
      | @looped r f numbered handles coherent linked =>
        cases registered
        have member : h ∈ f.timers.handles :=
          handles.mem_iff.mpr (Registry.find?_isSome_iff.mp (by simp [entry]))
        obtain ⟨t, found⟩ := Option.isSome_iff_exists.mp (TimerList.find?_isSome_iff.mpr member)
        obtain ⟨coherent', linked', sameBut⟩ :=
          FakeTime.outcome_erase (quiet.ticketed ticketed) (idles.trans linked) coherent found
        simp only [found]
        refine ⟨.looped (numbered.erase h) ?_ coherent' linked', quiet.trans sameBut⟩
        rw [TimerList.handles_erase, Registry.handles_erase]
        exact handles.erase h

theorem kept_destroy (ticketed : l.Ticketed) (coherentIn : k.CoherentIn c l) :
    (k.destroy l).Kept c l := by
  unfold destroy
  simp only
  split
  · exact coherentIn.kept _
  · cases coherentIn with
    | real numbered idle => exact (CoherentIn.real numbered idle).kept _
    | @unlooped f empty settled idle =>
      have size : f.timers.size = 0 := by simp [TimerList.size, empty]
      simp only [size, Nat.lt_irrefl, if_false, settled, Option.map_none, Option.toList_none,
        EventLoop.cancelAll, List.foldl_nil]
      exact ⟨.unlooped empty rfl idle, .refl c l⟩
    | @looped r f numbered handles coherent linked =>
      simp only
      split
      · exact (CoherentIn.looped numbered handles coherent linked).kept _
      · next empty =>
        have empty : f.timers.toList = [] :=
          List.eq_nil_of_length_eq_zero (Nat.eq_zero_of_not_pos empty)
        obtain ⟨coherent', linked', sameBut⟩ :=
          FakeTime.outcome_giveUp ticketed linked coherent empty
        exact ⟨.looped numbered handles coherent' linked', sameBut⟩

end Clock

end VirtualClock
