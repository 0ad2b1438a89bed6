import VirtualClock.Proofs.History.Evolution
import VirtualClock.Proofs.Simulation.Simulator

/-!
Operations on a clock and on its simulator. As long as the two agree on time, target, registered
timers and firing order, an operation gives the same answer on both, and they agree after it.
-/

namespace VirtualClock

/-- Operations of the kinds a simulator knows, all on clock `c`, for timers with a name of its
own, and so the callbacks of the timers that they add. -/
inductive Op.Within (c : Nat) (own : String → Prop) : Op → Prop where
  | add {timer : String} {fires : List (List Op)} (repeats : Bool) :
    own timer → (∀ ops ∈ fires, ∀ op ∈ ops, op.Within c own) →
    Within c own (.add c timer fires repeats)
  | update {timer : String} (delay : Int32) : own timer → Within c own (.update c timer delay)
  | remove {timer : String} : own timer → Within c own (.remove c timer)
  | advance (delta : Duration) : Within c own (.advance c delta)
  | gettime (id : ClockId) : Within c own (.gettime c id)
  | destroy : Within c own (.destroy c)

namespace Simulator

variable {s : Simulator} {f f' : FakeTime} {w : World} {own : String → Prop} {op : Op}

/-- The simulator has the time, the target and the firing order of fake time `f`. -/
structure Agrees (s : Simulator) (f : FakeTime) : Prop where
  now : s.now = f.now
  target : s.target = f.final.map (·.target)
  ranked : TimerList.Ranked f.timers.alarms s.arming
  latest : ∀ h a, s.arming h = some a → a.index < s.changes

/-- The simulator is in step with its clock in world `w`. -/
structure Reflects (own : String → Prop) (s : Simulator) (w : World) : Prop where
  clock : ∃ f, w.clock? s.clock = some ⟨some s.registry, .fake f⟩ ∧ s.Agrees f
  names : ∀ timer, own timer → w.lookup timer = s.names.lookup timer

@[simp] theorem clock_exec (s : Simulator) (op : Op) : (s.exec op).2.clock = s.clock := by
  cases op <;> simp only [exec, update, remove] <;> repeat' split
  all_goals rfl

theorem index_lt_of_rearm (latest : ∀ h a, s.arming h = some a → a.index < s.changes)
    {h : TimerHandle} {trigger : Option Duration} (g : TimerHandle) (a : Arming)
    (live : (s.rearm h trigger).arming g = some a) : a.index < (s.rearm h trigger).changes := by
  simp only [Simulator.rearm, VirtualClock.rearm] at live
  split at live
  · obtain ⟨d, _, rfl⟩ := Option.map_eq_some_iff.mp live
    exact Nat.lt_succ_self s.changes
  · exact Nat.lt_succ_of_lt (latest g a live)

namespace Agrees

theorem target_eq (agrees : s.Agrees f) : f.target = s.target.getD s.now := by
  rw [agrees.target, agrees.now, FakeTime.target]
  cases f.final <;> rfl

theorem rearm (agrees : s.Agrees f) (coherent : f.Coherent) {h : TimerHandle}
    {trigger : Option Duration} (retimed : f.Retimed f' (some (h, trigger)))
    (now : f'.now = f.now) (target : f'.final.map (·.target) = f.final.map (·.target)) :
    (s.rearm h trigger).Agrees f' where
  now := agrees.now.trans now.symm
  target := agrees.target.trans target.symm
  ranked := retimed.ranked coherent.sorted coherent.distinct agrees.latest agrees.ranked
  latest := index_lt_of_rearm agrees.latest

theorem await (agrees : s.Agrees f) (c : Nat) (l : EventLoop) :
    s.await.Agrees (f.reschedule c l).1 where
  now := agrees.now
  target := congrArg some agrees.target_eq.symm
  ranked := by
    rw [FakeTime.reschedule, FakeTime.alarms_schedule]
    exact agrees.ranked
  latest := agrees.latest

theorem retarget (agrees : s.Agrees f) (f' : FakeTime) {target : Option Duration}
    (now : f'.now = f.now)
    (alarms : f'.timers.alarms = f.timers.alarms) (final : f'.final.map (·.target) = target) :
    ({ s with target } : Simulator).Agrees f' where
  now := agrees.now.trans now.symm
  target := final.symm
  ranked := by
    rw [alarms]
    exact agrees.ranked
  latest := agrees.latest

end Agrees

namespace Reflects

theorem accept {s' : Simulator} {k : Clock} {reply : Reply Unit} (reflects : s.Reflects own w)
    (found : w.clock? s.clock = some k) (same : s'.clock = s.clock) (names : s'.names = s.names)
    (clock : reply.clock = ⟨some s'.registry, .fake f'⟩) (agrees : s'.Agrees f') :
    s'.Reflects own (w.accept s.clock reply) where
  clock := ⟨f', by rw [same, World.clock?_accept found reply, clock], agrees⟩
  names timer mine := by
    rw [names]
    exact reflects.names timer mine

theorem update (reflects : s.Reflects own w) (h : w.Coherent) {timer : String} (mine : own timer)
    (delay : Int32) :
    (w.exec (.update s.clock timer delay)).1 = (s.exec (.update s.clock timer delay)).1 ∧
      (s.exec (.update s.clock timer delay)).2.Reflects own
        (w.exec (.update s.clock timer delay)).2 := by
  obtain ⟨f, found, agrees⟩ := reflects.clock
  obtain ⟨_, perm⟩ := (h.clocks _ _ found).registered
  obtain ⟨coherent, _⟩ := (h.clocks _ _ found).fake rfl
  simp only [World.exec, World.onTimer, found, exec, reflects.names timer mine]
  cases s.names.lookup timer with
  | none => exact ⟨rfl, reflects⟩
  | some g =>
    simp only [Clock.updateTimer, Clock.updateFake, FakeTime.trigger?_eq, agrees.now,
      Simulator.update]
    by_cases overflow : 0 < delay.toInt ∧ f.now.after? delay = none
    · simp only [if_pos overflow]
      exact ⟨rfl, reflects.accept found rfl rfl rfl agrees⟩
    · simp only [if_neg overflow]
      cases known : f.timers.find? g with
      | none =>
        have unknown : g ∉ s.registry.handles :=
          perm.mem_iff.not.mp (TimerList.find?_eq_none_iff.mp known)
        simp only [if_neg unknown]
        exact ⟨rfl, reflects.accept found rfl rfl rfl agrees⟩
      | some t =>
        have member : g ∈ f.timers.handles := TimerList.find?_isSome_iff.mp (by simp [known])
        simp only [if_pos (perm.mem_iff.mp member)]
        refine ⟨rfl, reflects.accept found rfl rfl rfl (.await ?_ _ _)⟩
        exact agrees.rearm coherent (.set member (fun _ => Duration.lt_of_after?) rfl) rfl rfl

theorem remove (reflects : s.Reflects own w) (h : w.Coherent) {timer : String} (mine : own timer) :
    (w.exec (.remove s.clock timer)).1 = (s.exec (.remove s.clock timer)).1 ∧
      (s.exec (.remove s.clock timer)).2.Reflects own (w.exec (.remove s.clock timer)).2 := by
  obtain ⟨f, found, agrees⟩ := reflects.clock
  obtain ⟨_, perm⟩ := (h.clocks _ _ found).registered
  obtain ⟨coherent, _⟩ := (h.clocks _ _ found).fake rfl
  simp only [World.exec, World.onTimer, found, exec, reflects.names timer mine]
  cases s.names.lookup timer with
  | none => exact ⟨rfl, reflects⟩
  | some g =>
    simp only [Clock.removeTimer, Simulator.remove]
    cases entry : s.registry.find? g with
    | none =>
      simp only [if_neg (Registry.find?_eq_none_iff.mp entry)]
      exact ⟨rfl, reflects.accept found rfl rfl rfl agrees⟩
    | some e =>
      have member : g ∈ s.registry.handles := Registry.find?_isSome_iff.mp (by simp [entry])
      obtain ⟨t, known⟩ := Option.isSome_iff_exists.mp
        (TimerList.find?_isSome_iff.mpr (perm.mem_iff.mpr member))
      simp only [known, if_pos member]
      refine ⟨rfl, reflects.accept found rfl rfl rfl ?_⟩
      have retimed : f.Retimed { f with timers := f.timers.erase g } (some (g, none)) :=
        .erased rfl
      have erased := agrees.rearm coherent retimed rfl rfl
      exact ⟨erased.now, erased.target, erased.ranked, erased.latest⟩

theorem add (reflects : s.Reflects own w) (h : w.Coherent) (timer : String)
    (fires : List (List Op)) (repeats : Bool) :
    (w.exec (.add s.clock timer fires repeats)).1 =
        (s.exec (.add s.clock timer fires repeats)).1 ∧
      (s.exec (.add s.clock timer fires repeats)).2.Reflects own
        (w.exec (.add s.clock timer fires repeats)).2 := by
  obtain ⟨f, found, agrees⟩ := reflects.clock
  obtain ⟨numbered, perm⟩ := (h.clocks _ _ found).registered
  obtain ⟨coherent, _⟩ := (h.clocks _ _ found).fake rfl
  have fresh : (⟨s.registry.next⟩ : TimerHandle) ∉ f.timers.handles := fun member =>
    Registry.next_not_mem_handles numbered (perm.mem_iff.mp member)
  simp only [World.exec, World.addTimer, found, exec, Clock.addTimer]
  refine ⟨trivial, ⟨_, World.clock?_accept found _, ?_⟩, fun name mine => ?_⟩
  · exact ⟨agrees.now, agrees.target,
      FakeTime.Retimed.ranked (.added fresh rfl) coherent.sorted coherent.distinct agrees.latest
        agrees.ranked, agrees.latest⟩
  · change List.lookup name ((timer, _) :: w.names) = List.lookup name ((timer, _) :: s.names)
    have rest : List.lookup name w.names = List.lookup name s.names := reflects.names name mine
    rw [List.lookup_cons, List.lookup_cons, rest]

theorem advance (reflects : s.Reflects own w) (delta : Duration) :
    (w.exec (.advance s.clock delta)).1 = (s.exec (.advance s.clock delta)).1 ∧
      (s.exec (.advance s.clock delta)).2.Reflects own (w.exec (.advance s.clock delta)).2 := by
  obtain ⟨f, found, agrees⟩ := reflects.clock
  simp only [World.exec, World.onClock, found, exec, Clock.advance, ← agrees.now]
  cases sum : s.now.add? delta with
  | none => exact ⟨rfl, reflects.accept found rfl rfl rfl agrees⟩
  | some target =>
    have alarms : (f.advanceTo true s.clock target w.loop).1.timers.alarms = f.timers.alarms :=
      (FakeTime.alarms_schedule ..).trans (TimerList.alarms_cancelAfter f.timers target)
    refine ⟨rfl, reflects.accept found rfl rfl rfl
      (agrees.retarget (f.advanceTo true s.clock target w.loop).1 rfl alarms rfl)⟩

theorem gettime (reflects : s.Reflects own w) (id : ClockId) :
    (w.exec (.gettime s.clock id)).1 = (s.exec (.gettime s.clock id)).1 ∧
      (s.exec (.gettime s.clock id)).2.Reflects own (w.exec (.gettime s.clock id)).2 := by
  obtain ⟨f, found, agrees⟩ := reflects.clock
  simp only [World.exec, World.ask, found, exec, Option.map_some, Option.getD_some,
    World.answerTime, Clock.gettime, agrees.now]
  by_cases emulated : id.isEmulated = true
  · simp only [if_pos emulated]
    exact ⟨rfl, reflects⟩
  · simp only [if_neg emulated]
    exact ⟨trivial, reflects⟩

theorem destroy (reflects : s.Reflects own w) (h : w.Coherent) :
    (w.exec (.destroy s.clock)).1 = (s.exec (.destroy s.clock)).1 ∧
      (s.exec (.destroy s.clock)).2.Reflects own (w.exec (.destroy s.clock)).2 := by
  obtain ⟨f, found, agrees⟩ := reflects.clock
  obtain ⟨_, perm⟩ := (h.clocks _ _ found).registered
  have size : f.timers.size = s.registry.size := by
    rw [Registry.size_eq_length_handles, ← perm.length_eq]
    simp [TimerList.size, TimerList.handles]
  simp only [World.exec, World.onClock, found, exec, Clock.destroy, Option.elim, size]
  split
  · exact ⟨rfl, reflects.accept found rfl rfl rfl agrees⟩
  · exact ⟨rfl, reflects.accept found rfl rfl rfl (agrees.retarget _ rfl rfl rfl)⟩

/-- Operations of the clock's own callbacks. -/
theorem exec (reflects : s.Reflects own w) (h : w.Coherent) (within : op.Within s.clock own) :
    (w.exec op).1 = (s.exec op).1 ∧ (s.exec op).2.Reflects own (w.exec op).2 := by
  cases within with
  | add repeats => exact reflects.add h _ _ repeats
  | update delay mine => exact reflects.update h mine delay
  | remove mine => exact reflects.remove h mine
  | advance delta => exact reflects.advance delta
  | gettime id => exact reflects.gettime id
  | destroy => exact reflects.destroy h

end Reflects

end Simulator

end VirtualClock
