import VirtualClock.Proofs.Replay.Playing

/-!
The start and the end of a replay on fake time. At the start each timer is added under the handle
of its position and armed at time zero, which comes to the agenda; at the end every timer that was
added is still there to be removed, and a clock without timers is there to be destroyed.
-/

namespace VirtualClock

namespace Replay

variable {timers : List TimerSetting} {past coming : List (TimerSetting × Nat)} {t : TimerSetting}
  {r : Registry} {f : FakeTime} {w : World}

theorem map_label_concat (timers : List TimerSetting) (t : TimerSetting) :
    (timers ++ [t]).zipIdx.map label =
      timers.zipIdx.map label ++ [(t.name, ⟨timers.length⟩)] := by
  simp [List.zipIdx_append, label]

theorem trigger?_zero (start : f.now = .zero) (t : TimerSetting) :
    f.trigger? t.delay = .ok (if 0 < t.millis then some t.due else none) := by
  have sum : f.now.add? t.due = some t.due := by
    rw [start, Duration.add?_eq_some_iff, Duration.nanos_zero, Nat.zero_add]
  rw [TimerSetting.due, TimerSetting.millis] at sum
  unfold FakeTime.trigger?
  simp only [TimerSetting.millis_pos_iff, sum]
  split <;> rfl

theorem armed_setTrigger {ts : TimerList} {h : TimerHandle} (sorted : ts.Sorted)
    (distinct : ts.handles.Nodup) (member : h ∈ ts.handles) (latest : h = ⟨timers.length⟩)
    (armed : ts.armed = (agenda timers).map alarm) (t : TimerSetting) :
    (ts.setTrigger h (if 0 < t.millis then some t.due else none)).armed =
      (agenda (timers ++ [t])).map alarm := by
  subst latest
  have others : ts.armed.filter (·.1 != ⟨timers.length⟩) = (agenda timers).map alarm := by
    rw [armed]
    refine List.filter_eq_self.mpr fun b earlier => ?_
    obtain ⟨a, given, rfl⟩ := List.mem_map.mp earlier
    have before := lt_length_of_mem_agenda given
    simpa [alarm] using Nat.ne_of_lt before
  split
  · next pos =>
    rw [TimerList.armed_arm sorted distinct member, others, agenda_concat_of_pos pos,
      List.map_append, List.map_cons, List.filter_map, List.filter_map]
    have early : (fun b : TimerHandle × Duration => decide (b.2 ≤ t.due)) ∘ alarm =
        fun a => decide (a.1.millis ≤ t.millis) := by
      funext a
      rw [Function.comp_apply, Bool.eq_iff_iff, decide_eq_true_iff, decide_eq_true_iff]
      exact TimerSetting.due_le_due_iff
    have late : (fun b : TimerHandle × Duration => decide (t.due < b.2)) ∘ alarm =
        fun a => decide (t.millis < a.1.millis) := by
      funext a
      rw [Function.comp_apply, Bool.eq_iff_iff, decide_eq_true_iff, decide_eq_true_iff]
      exact TimerSetting.due_lt_due_iff
    rw [early, late]
    rfl
  · next zero =>
    rw [TimerList.armed_disarm sorted distinct member, others,
      agenda_concat_of_zero (Nat.eq_zero_of_not_pos zero)]

/-- The timers so far are armed at time zero, and the next one gets the handle of its position. -/
structure Arms (timers : List TimerSetting) (r : Registry) (f : FakeTime) (w : World) : Prop where
  plays : Plays timers [] (agenda timers) r f w
  start : f.now = .zero
  next : r.next = timers.length

theorem Arms.arm (arms : Arms timers r f w) (t : TimerSetting) :
    ∃ w' r' f', Replay.arm w t = .ok w' ∧ Arms (timers ++ [t]) r' f' w' := by
  obtain ⟨plays, start, next⟩ := arms
  obtain ⟨w₁, f₁, added, lone₁, now₁, timers₁, names₁, log₁⟩ := plays.lone.add t.name
  have known : w₁.lookup t.name = some ⟨r.next⟩ := by
    rw [World.lookup, names₁, List.lookup_cons_self]
  have member : (⟨r.next⟩ : TimerHandle) ∈
      (r.add { name := t.name, fires := [], repeats := false }).handles := by simp
  obtain ⟨w', f', updated, lone, now, alarms, names, log⟩ :=
    lone₁.update known member (trigger?_zero (now₁.trans start) t)
  obtain ⟨coherent, _⟩ := lone₁.fake
  have member' := (lone₁.coherent.clocks _ _ lone₁.found).registered.2.mem_iff.mpr member
  have armed₁ : f₁.timers.armed = (agenda timers).map alarm := by
    rw [timers₁, TimerList.armed_insert plays.lone.fake.1.sorted, plays.armed]
  have labels := map_label_concat timers t
  have latest : (⟨r.next⟩ : TimerHandle) = ⟨timers.length⟩ := congrArg _ next
  refine ⟨w', _, f', ?_, ⟨lone, ?_, ?_, ?_, ?_, ?_⟩, (now.trans now₁).trans start, ?_⟩
  · rw [Replay.arm, added]
    change demand (w₁.exec _) = _
    rw [updated]
    rfl
  · rw [labels, ← plays.registered, ← next]
    simp [Registry.add]
  · rw [labels, ← plays.names, ← next, names, names₁, List.reverse_cons]
  · exact fun a member => (mem_agenda.mp member).1
  · rw [TimerList.armed, alarms, ← TimerList.armed]
    exact armed_setTrigger coherent.sorted coherent.distinct member' latest armed₁ t
  · rw [Replay.firings, log, log₁]
    exact plays.firings
  · rw [List.length_append, ← next]
    rfl

theorem arms_nil : Arms [] {} {} (World.newClock {} .fake true) where
  plays :=
    { lone :=
        { coherent := World.Coherent.empty.newClock .fake true
          clocks := rfl
          batch := rfl
          own := nofun
          sources := rfl
          inert := nofun }
      registered := rfl
      names := rfl
      placed := by simp
      armed := by simp [TimerList.armed, TimerList.alarms, armedOf]
      firings := rfl }
  start := rfl
  next := rfl

theorem start_eq_ok (r : Replay) (fake : r.mode = .fake) :
    ∃ w registry f, r.start 0 = .ok w ∧ Arms r.timers registry f w := by
  have run (timers : List TimerSetting) :
      ∃ w registry f, timers.foldlM Replay.arm (World.newClock {} .fake true) = .ok w ∧
        Arms timers registry f w := by
    induction timers using List.reverseRecOn with
    | nil => exact ⟨_, _, _, rfl, arms_nil⟩
    | append_singleton timers t ih =>
      obtain ⟨w, registry, f, ran, arms⟩ := ih
      obtain ⟨w', registry', f', armed, arms'⟩ := arms.arm t
      refine ⟨w', registry', f', ?_, arms'⟩
      rw [List.foldlM_append, ran]
      exact (bind_pure _).trans armed
  rw [start, fake]
  exact run r.timers

section close

theorem removes {handles : List TimerHandle} (lone : w.Lone r f) (all : r.handles = handles) :
    ∃ w' r' f',
      handles.foldlM (fun w h => demand (w.onClock 0 fun k => k.removeTimer h w.loop)) w = .ok w' ∧
        w'.Lone r' f' ∧ r'.entries = [] := by
  induction handles generalizing w r f with
  | nil => exact ⟨w, r, f, rfl, lone, List.map_eq_nil_iff.mp all⟩
  | cons h handles ih =>
    obtain ⟨w₁, f₁, removed, lone₁⟩ := lone.removeTimer (g := h) (all ▸ List.mem_cons_self)
    have rest : (r.erase h).handles = handles := by
      rw [Registry.handles_erase, all, List.erase_cons_head]
    obtain ⟨w', r', f', others, lone', empty⟩ := ih lone₁ rest
    refine ⟨w', r', f', ?_, lone', empty⟩
    rw [List.foldlM_cons, removed]
    exact others

theorem Plays.close (plays : Plays timers past coming r f w) :
    ∃ w', Replay.close w = .ok w' := by
  have handles : r.handles = w.names.reverse.map (·.2) := by
    rw [plays.names, ← plays.registered, List.map_map]
    rfl
  obtain ⟨w₁, r₁, f₁, removed, lone, empty⟩ := removes plays.lone rfl
  have destroyed := lone.destroy empty
  cases called : w₁.exec (.destroy 0) with
  | mk answer w' =>
    rw [called] at destroyed
    cases destroyed
    refine ⟨w', ?_⟩
    rw [Replay.close, ← handles, removed]
    change demand (w₁.exec (.destroy 0)) = _
    rw [called]
    rfl

end close

end Replay

end VirtualClock
