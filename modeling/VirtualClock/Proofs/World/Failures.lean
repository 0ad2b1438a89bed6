import VirtualClock.Proofs.History.Evolution

/-!
The calls that fail. Which calls on a clock fail, and for what reason, is told by the clock's
source of time and its registered timers; in a coherent world the clock and the loop never
disagree on which timers there are, so no other failure comes up halfway through a call. A call
that fails leaves the world as it found it.
-/

namespace VirtualClock

/-- Whether a timer armed with that delay would be due past the last time there is. -/
def FakeTime.Overflows (f : FakeTime) (delay : Int32) : Prop :=
  0 < delay.toInt ∧ Duration.limit ≤ f.now.nanos + delay.toInt.toNat * nanosPerMilli

def Clock.Registers (k : Clock) (h : TimerHandle) : Prop :=
  ∃ r, k.registry = some r ∧ h ∈ r.handles

/-- The calls on a clock that fail, with the timer that they are for, and why they do. -/
inductive Clock.Fails (k : Clock) : Op → Option TimerHandle → Failure → Prop where
  | advanceReal {c : Nat} {delta : Duration} : k.source = .real →
    Fails k (.advance c delta) none (.refused .realTimeAdvance)
  | advanceOverflows {c : Nat} {delta : Duration} {f : FakeTime} : k.source = .fake f →
    Duration.limit ≤ f.now.nanos + delta.nanos →
    Fails k (.advance c delta) none (.refused .timeOverflow)
  | requestUnreadable {c : Nat} {r : AdvanceRequest} : nanosPerSecond ≤ r.nanos.toNat →
    Fails k (.request c r) none (.refused (.invalidNanoseconds r.nanos))
  | requestAdvance {c : Nat} {r : AdvanceRequest} {delta : Duration} {why : Failure} :
    r.toDuration = .ok delta → Fails k (.advance c delta) none why →
    Fails k (.request c r) none why
  | addUnlooped {c : Nat} {timer : String} {fires : List (List Op)} {repeats : Bool} :
    k.registry = none → Fails k (.add c timer fires repeats) none (.refused .noEventLoop)
  | gettimeNotEmulated {c : Nat} {id : ClockId} {f : FakeTime} : k.source = .fake f →
    id.isEmulated = false → Fails k (.gettime c id) none (.refused (.unsupportedClockId id))
  | updateOverflows {c : Nat} {timer : String} {delay : Int32} {h : TimerHandle} {f : FakeTime} :
    k.source = .fake f → f.Overflows delay →
    Fails k (.update c timer delay) (some h) (.refused .timeOverflow)
  | updateUnknown {c : Nat} {timer : String} {delay : Int32} {h : TimerHandle} {f : FakeTime} :
    k.source = .fake f → ¬f.Overflows delay → ¬k.Registers h →
    Fails k (.update c timer delay) (some h) (.breach (.unknownToClock h))
  | updateUnlooped {c : Nat} {timer : String} {delay : Int32} {h : TimerHandle} :
    k.source = .real → k.registry = none →
    Fails k (.update c timer delay) (some h) (.breach (.updatedWithoutLoop h))
  | updateUnregistered {c : Nat} {timer : String} {delay : Int32} {h : TimerHandle}
    {r : Registry} :
    k.source = .real → k.registry = some r → h ∉ r.handles →
    Fails k (.update c timer delay) (some h) (.breach (.unknownToLoop h))
  | removeUnlooped {c : Nat} {timer : String} {h : TimerHandle} : k.registry = none →
    Fails k (.remove c timer) (some h) (.breach (.removedWithoutLoop h))
  | removeUnregistered {c : Nat} {timer : String} {h : TimerHandle} {r : Registry} :
    k.registry = some r → h ∉ r.handles →
    Fails k (.remove c timer) (some h) (.breach (.unknownToLoop h))
  | destroyInUse {c : Nat} {r : Registry} : k.registry = some r → 0 < r.size →
    Fails k (.destroy c) none (.breach (.destroyedWithTimers r.size))

/-- The reply is a failure just for the given reasons, and then clock and loop are as they were. -/
structure Reply.FailsAtomically {α : Type} (reply : Reply α) (k : Clock) (l : EventLoop)
    (fails : Failure → Prop) : Prop where
  error_iff : ∀ why, reply.result = .error why ↔ fails why
  clock : ∀ why, reply.result = .error why → reply.clock = k
  loop : ∀ why, reply.result = .error why → reply.loop = l

namespace Reply.FailsAtomically

variable {α : Type} {k k' : Clock} {l l' : EventLoop} {fails : Failure → Prop}

theorem ok {a : α} (never : ∀ why, ¬fails why) :
    FailsAtomically ⟨.ok a, k', l'⟩ k l fails where
  error_iff why := ⟨nofun, fun failed => absurd failed (never why)⟩
  clock := nofun
  loop := nofun

theorem error {why : Failure} (fails_why : fails why) (only : ∀ why', fails why' → why' = why) :
    FailsAtomically (⟨.error why, k, l⟩ : Reply α) k l fails where
  error_iff why' :=
    ⟨fun same => Except.error.inj same ▸ fails_why, fun failed => only why' failed ▸ rfl⟩
  clock _ _ := rfl
  loop _ _ := rfl

end Reply.FailsAtomically

theorem FakeTime.overflows_iff {f : FakeTime} {delay : Int32} :
    f.Overflows delay ↔ 0 < delay.toInt ∧ f.now.after? delay = none := by
  have bound : delay.toInt.toNat < UInt64.size := by
    have := delay.toInt_lt
    simp only [UInt64.size]
    omega
  refine and_congr_right fun positive => ?_
  rw [Duration.after?, if_pos positive, Duration.add?_eq_none_iff, Duration.nanos_ofMillis,
    UInt64.toNat_ofNat_of_lt' bound]

namespace Clock

variable {k : Clock} {c : Nat} {l : EventLoop} {f : FakeTime}

theorem CoherentIn.registers_iff (coherent : k.CoherentIn c l) (fake : k.source = .fake f)
    {h : TimerHandle} : k.Registers h ↔ h ∈ f.timers.handles := by
  cases coherent with
  | real => cases fake
  | unlooped empty =>
    cases fake
    simp [Registers, TimerList.handles, empty]
  | looped _ perm =>
    cases fake
    simp [Registers, perm.mem_iff]

theorem failsAtomically_advance (k : Clock) (c : Nat) (l : EventLoop) (delta : Duration) :
    (k.advance c delta l).FailsAtomically k l (k.Fails (.advance c delta) none) := by
  cases source : k.source with
  | real =>
    simp only [advance, source]
    refine .error (.advanceReal source) fun why fails => ?_
    cases fails with
    | advanceReal => rfl
    | advanceOverflows fake => cases source.symm.trans fake
  | fake f =>
    cases sum : f.now.add? delta with
    | none =>
      simp only [advance, source, sum]
      have far := Duration.add?_eq_none_iff.mp sum
      refine .error (.advanceOverflows source far) fun why fails => ?_
      cases fails with
      | advanceReal real => cases source.symm.trans real
      | advanceOverflows => rfl
    | some target =>
      simp only [advance, source, sum]
      refine .ok fun why fails => ?_
      cases fails with
      | advanceReal real => cases source.symm.trans real
      | advanceOverflows fake far =>
        cases source.symm.trans fake
        cases sum.symm.trans (Duration.add?_eq_none_iff.mpr far)

theorem failsAtomically_handleRequest (k : Clock) (c : Nat) (l : EventLoop) (r : AdvanceRequest) :
    (k.handleRequest c r l).FailsAtomically k l (k.Fails (.request c r) none) := by
  by_cases readable : r.nanos.toNat < nanosPerSecond
  · have asked : r.toDuration = .ok (.ofParts r.seconds ⟨r.nanos.toNat, readable⟩) := by
      simp [AdvanceRequest.toDuration, readable]
    have advance := k.failsAtomically_advance c l (.ofParts r.seconds ⟨r.nanos.toNat, readable⟩)
    simp only [handleRequest, asked]
    refine ⟨fun why => ⟨fun failed => ?_, fun fails => ?_⟩, advance.clock, advance.loop⟩
    · exact .requestAdvance asked ((advance.error_iff why).mp failed)
    · cases fails with
      | requestUnreadable unreadable => exact absurd readable (Nat.not_lt_of_le unreadable)
      | requestAdvance asked' fails =>
        cases asked.symm.trans asked'
        exact (advance.error_iff why).mpr fails
  · have refused : r.toDuration = .error (.invalidNanoseconds r.nanos) := by
      simp [AdvanceRequest.toDuration, readable]
    simp only [handleRequest, refused]
    refine .error (.requestUnreadable (Nat.le_of_not_lt readable)) fun why fails => ?_
    cases fails with
    | requestUnreadable => rfl
    | requestAdvance asked => cases refused.symm.trans asked

theorem failsAtomically_addTimer (k : Clock) (c : Nat) (l : EventLoop) (timer : String)
    (fires : List (List Op)) (repeats : Bool) :
    (k.addTimer { name := timer, fires, repeats } l).FailsAtomically k l
      (k.Fails (.add c timer fires repeats) none) := by
  cases registry : k.registry with
  | none =>
    simp only [addTimer, registry]
    refine .error (.addUnlooped registry) fun why fails => ?_
    cases fails with
    | addUnlooped => rfl
  | some r =>
    simp only [addTimer, registry]
    refine .ok fun why fails => ?_
    cases fails with
    | addUnlooped unlooped => cases registry.symm.trans unlooped

theorem fails_gettime_iff {id : ClockId} {why : Failure} (l : EventLoop) :
    k.Fails (.gettime c id) none why ↔
      ∃ refusal, k.gettime id l = .error refusal ∧ why = .refused refusal := by
  constructor
  · intro fails
    cases fails with
    | gettimeNotEmulated fake foreign => exact ⟨_, by simp [gettime, fake, foreign], rfl⟩
  · rintro ⟨refusal, failed, rfl⟩
    unfold gettime at failed
    cases source : k.source with
    | real => simp [source] at failed
    | fake f =>
      cases emulated : id.isEmulated with
      | true => simp [source, emulated] at failed
      | false =>
        simp only [source, emulated] at failed
        cases failed
        exact .gettimeNotEmulated source emulated

theorem failsAtomically_updateReal (real : k.source = .real) (c : Nat) (l : EventLoop)
    (timer : String) (h : TimerHandle) (delay : Int32) :
    (k.updateReal c h delay l).FailsAtomically k l (k.Fails (.update c timer delay) (some h)) := by
  cases registry : k.registry with
  | none =>
    simp only [updateReal, registry]
    refine .error (.updateUnlooped real registry) fun why fails => ?_
    cases fails with
    | updateOverflows fake | updateUnknown fake => cases real.symm.trans fake
    | updateUnlooped => rfl
    | updateUnregistered _ looped => cases registry.symm.trans looped
  | some r =>
    cases entry : r.find? h with
    | none =>
      have unregistered := Registry.find?_eq_none_iff.mp entry
      simp only [updateReal, registry, entry]
      refine .error (.updateUnregistered real registry unregistered) fun why fails => ?_
      cases fails with
      | updateOverflows fake | updateUnknown fake => cases real.symm.trans fake
      | updateUnlooped _ unlooped => cases registry.symm.trans unlooped
      | updateUnregistered => rfl
    | some e =>
      have never (why : Failure) : ¬k.Fails (.update c timer delay) (some h) why := by
        intro fails
        cases fails with
        | updateOverflows fake | updateUnknown fake => cases real.symm.trans fake
        | updateUnlooped _ unlooped => cases registry.symm.trans unlooped
        | updateUnregistered _ looped unregistered =>
          cases registry.symm.trans looped
          cases entry.symm.trans (Registry.find?_eq_none_iff.mpr unregistered)
      simp only [updateReal, registry, entry]
      split <;> exact .ok never

theorem failsAtomically_updateFake (coherent : k.CoherentIn c l) (fake : k.source = .fake f)
    (timer : String) (h : TimerHandle) (delay : Int32) :
    (k.updateFake f c h delay l).FailsAtomically k l
      (k.Fails (.update c timer delay) (some h)) := by
  by_cases overflows : f.Overflows delay
  · have refused : f.trigger? delay = .error .timeOverflow := by
      rw [FakeTime.trigger?_eq, if_pos (FakeTime.overflows_iff.mp overflows)]
    simp only [updateFake, refused]
    refine .error (.updateOverflows fake overflows) fun why fails => ?_
    cases fails with
    | updateOverflows => rfl
    | updateUnknown fake' inTime =>
      cases fake.symm.trans fake'
      exact absurd overflows inTime
    | updateUnlooped real | updateUnregistered real => cases fake.symm.trans real
  · have asked : f.trigger? delay = .ok (f.now.after? delay) := by
      rw [FakeTime.trigger?_eq, if_neg (mt FakeTime.overflows_iff.mpr overflows)]
    have never_late {f' : FakeTime} (fake' : k.source = .fake f') : ¬f'.Overflows delay := by
      cases fake.symm.trans fake'
      exact overflows
    have registers := coherent.registers_iff fake (h := h)
    cases found : f.timers.find? h with
    | none =>
      have unknown : ¬k.Registers h := by
        rw [registers, ← TimerList.find?_isSome_iff, found]
        exact Bool.false_ne_true
      simp only [updateFake, asked, found]
      refine .error (.updateUnknown fake overflows unknown) fun why fails => ?_
      cases fails with
      | updateOverflows fake' late => exact absurd late (never_late fake')
      | updateUnknown => rfl
      | updateUnlooped real | updateUnregistered real => cases fake.symm.trans real
    | some t =>
      have known : k.Registers h := by
        rw [registers, ← TimerList.find?_isSome_iff, found]
        rfl
      simp only [updateFake, asked, found]
      refine .ok fun why fails => ?_
      cases fails with
      | updateOverflows fake' late => exact never_late fake' late
      | updateUnknown _ _ unknown => exact unknown known
      | updateUnlooped real | updateUnregistered real => cases fake.symm.trans real

theorem failsAtomically_updateTimer (coherent : k.CoherentIn c l) (timer : String)
    (h : TimerHandle) (delay : Int32) :
    (k.updateTimer c h delay l).FailsAtomically k l
      (k.Fails (.update c timer delay) (some h)) := by
  cases source : k.source with
  | real =>
    simp only [updateTimer, source]
    exact failsAtomically_updateReal source c l timer h delay
  | fake f =>
    simp only [updateTimer, source]
    exact failsAtomically_updateFake coherent source timer h delay

/-- A timer that the loop has is one that fake time knows, so nothing fails once the loop has let
go of it. -/
theorem failsAtomically_removeTimer (coherent : k.CoherentIn c l) (timer : String)
    (h : TimerHandle) :
    (k.removeTimer h l).FailsAtomically k l (k.Fails (.remove c timer) (some h)) := by
  cases registry : k.registry with
  | none =>
    simp only [removeTimer, registry]
    refine .error (.removeUnlooped registry) fun why fails => ?_
    cases fails with
    | removeUnlooped => rfl
    | removeUnregistered looped => cases registry.symm.trans looped
  | some r =>
    cases entry : r.find? h with
    | none =>
      simp only [removeTimer, registry, entry]
      refine .error (.removeUnregistered registry (Registry.find?_eq_none_iff.mp entry))
        fun why fails => ?_
      cases fails with
      | removeUnlooped unlooped => cases registry.symm.trans unlooped
      | removeUnregistered => rfl
    | some e =>
      have registered : h ∈ r.handles := Registry.find?_isSome_iff.mp (by simp [entry])
      have never (why : Failure) : ¬k.Fails (.remove c timer) (some h) why := by
        intro fails
        cases fails with
        | removeUnlooped unlooped => cases registry.symm.trans unlooped
        | removeUnregistered looped unregistered =>
          cases registry.symm.trans looped
          exact unregistered registered
      simp only [removeTimer, registry, entry]
      cases source : k.source with
      | real => exact .ok never
      | fake f =>
        have known : h ∈ f.timers.handles :=
          (coherent.registers_iff source).mp ⟨r, registry, registered⟩
        obtain ⟨t, found⟩ := Option.isSome_iff_exists.mp (TimerList.find?_isSome_iff.mpr known)
        simp only [found]
        exact .ok never

theorem failsAtomically_destroy (coherent : k.CoherentIn c l) :
    (k.destroy l).FailsAtomically k l (k.Fails (.destroy c) none) := by
  by_cases inUse : 0 < k.registry.elim 0 Registry.size
  · cases registry : k.registry with
    | none => simp [registry] at inUse
    | some r =>
      rw [registry] at inUse
      simp only [destroy, registry, Option.elim_some] at inUse ⊢
      rw [if_pos inUse]
      refine .error (.destroyInUse registry inUse) fun why fails => ?_
      cases fails with
      | destroyInUse looped =>
        cases registry.symm.trans looped
        rfl
  · have never (why : Failure) : ¬k.Fails (.destroy c) none why := by
      intro fails
      cases fails with
      | destroyInUse registry registered => exact inUse (by simpa [registry] using registered)
    simp only [destroy, if_neg inUse]
    cases source : k.source with
    | real => exact .ok never
    | fake f =>
      have empty : f.timers.handles = [] := by
        refine List.eq_nil_iff_forall_not_mem.mpr fun h known => ?_
        obtain ⟨r, registry, registered⟩ := (coherent.registers_iff source).mpr known
        rw [registry, Option.elim_some, Registry.size_eq_length_handles] at inUse
        exact inUse (List.length_pos_of_mem registered)
      have empty : f.timers.size = 0 := by simpa [TimerList.size, TimerList.handles] using empty
      simp only [empty, Nat.lt_irrefl, if_false]
      exact .ok never

end Clock

namespace World

variable {w : World} {c : Nat} {k : Clock} {why : Failure} {fails : Failure → Prop}

/-- The operation fails just for the given reasons, and then the world is as it was. -/
structure FailsAtomically (w : World) (op : Op) (fails : Failure → Prop) : Prop where
  failed_iff : ∀ why, (w.exec op).1 = .failed why ↔ fails why
  unchanged : ∀ why, (w.exec op).1 = .failed why → (w.exec op).2 = w

theorem failsAtomically_never {op : Op} (answers : ∀ why, (w.exec op).1 ≠ .failed why)
    (never : ∀ why, ¬fails why) : w.FailsAtomically op fails :=
  ⟨fun why => iff_of_false (answers why) (never why),
    fun why failed => absurd failed (answers why)⟩

theorem failsAtomically_call {op : Op} {reply : Reply Unit} (found : w.clock? c = some k)
    (exec : w.exec op = (.ofUnit reply.result, w.accept c reply))
    (atomic : reply.FailsAtomically k w.loop fails) : w.FailsAtomically op fails where
  failed_iff why := by rw [exec, ofUnit_eq_failed_iff, atomic.error_iff]
  unchanged why failed := by
    rw [exec, ofUnit_eq_failed_iff] at failed
    rw [exec, accept_of_same found (atomic.clock why failed) (atomic.loop why failed)]

theorem failsAtomically_onClock {op : Op} {call : Clock → Reply Unit}
    (found : w.clock? c = some k) (exec : w.exec op = w.onClock c call)
    (atomic : (call k).FailsAtomically k w.loop fails) : w.FailsAtomically op fails :=
  failsAtomically_call found (by simp only [exec, onClock, found]) atomic

/-- A name that no timer was added under is no failure of the clock. -/
theorem failsAtomically_onTimer {op : Op} {timer : String}
    {call : Clock → TimerHandle → Reply Unit} (found : w.clock? c = some k)
    (exec : w.exec op = w.onTimer c timer call) (never : ∀ why, ¬k.Fails op none why)
    (atomic : ∀ h, (call k h).FailsAtomically k w.loop (k.Fails op (some h))) :
    w.FailsAtomically op (k.Fails op (w.lookup timer)) := by
  cases named : w.lookup timer with
  | none => exact failsAtomically_never (by simp [exec, onTimer, found, named]) never
  | some h =>
    exact failsAtomically_call found (by simp only [exec, onTimer, found, named]) (atomic h)

theorem failsAtomically_add (found : w.clock? c = some k) (timer : String)
    (fires : List (List Op)) (repeats : Bool) :
    w.FailsAtomically (.add c timer fires repeats) (k.Fails (.add c timer fires repeats) none) := by
  have atomic := k.failsAtomically_addTimer c w.loop timer fires repeats
  cases result : (k.addTimer { name := timer, fires, repeats } w.loop).result with
  | ok h =>
    refine failsAtomically_never (by simp [exec, addTimer, found, result]) fun why fails => ?_
    cases result.symm.trans ((atomic.error_iff why).mpr fails)
  | error why =>
    have same := accept_of_same found (atomic.clock why result) (atomic.loop why result)
    refine ⟨fun why' => ?_, fun _ _ => ?_⟩
    · rw [← atomic.error_iff why', result]
      simp [exec, addTimer, found, result]
    · simp only [exec, addTimer, found, result, same]

theorem failsAtomically_gettime (found : w.clock? c = some k) (id : ClockId) :
    w.FailsAtomically (.gettime c id) (k.Fails (.gettime c id) none) := by
  have answer : (w.exec (.gettime c id)).1 = answerTime w.loop id k := by simp [exec, ask, found]
  refine ⟨fun why => ?_, fun _ _ => rfl⟩
  rw [answer, answerTime, Clock.fails_gettime_iff w.loop]
  cases k.gettime id w.loop with
  | error refusal => simp [eq_comm]
  | ok t =>
    simp only [reduceCtorEq, false_and, exists_false, iff_false]
    split <;> simp

theorem failsAtomically_exec (h : w.Coherent) (found : w.clock? c = some k) {op : Op}
    (on : op.clock? = some c) :
    w.FailsAtomically op (k.Fails op (op.timer?.bind w.lookup)) := by
  have coherent := h.clocks c k found
  cases op <;> cases on
  case add timer fires repeats => exact failsAtomically_add found timer fires repeats
  case update timer delay =>
    exact failsAtomically_onTimer found rfl (by rintro _ ⟨⟩) fun g =>
      Clock.failsAtomically_updateTimer coherent timer g delay
  case remove timer =>
    exact failsAtomically_onTimer found rfl (by rintro _ ⟨⟩) fun g =>
      Clock.failsAtomically_removeTimer coherent timer g
  case advance delta =>
    exact failsAtomically_onClock found rfl (k.failsAtomically_advance c w.loop delta)
  case request r =>
    exact failsAtomically_onClock found rfl (k.failsAtomically_handleRequest c w.loop r)
  case gettime id => exact failsAtomically_gettime found id
  case destroy => exact failsAtomically_onClock found rfl (Clock.failsAtomically_destroy coherent)
  case drop => exact failsAtomically_never (by simp [exec, found]) (by rintro _ ⟨⟩)
  case mode | pending | describe =>
    exact failsAtomically_never (by simp [exec, ask, found]) (by rintro _ ⟨⟩)

end World

namespace Moment

variable {m : Moment} {c : Nat} {k : Clock}

/-- Wherever a run has come to, between two dispatches or in the middle of a callback, the calls
on a clock that fail are those of `Clock.Fails`, each for the reason given there, and a call that
fails leaves the world as it was. The names can stand for any timers at all: for those of other
clocks, for those that are gone, or for none that ever was. -/
theorem failures_exact_and_atomic (run : Reachable m) (found : m.world.clock? c = some k)
    (names : List (String × TimerHandle)) (op : Op) (on : op.clock? = some c) (why : Failure) :
    ((({ m.world with names } : World).exec op).1 = .failed why ↔
      k.Fails op (op.timer?.bind ({ m.world with names } : World).lookup) why) ∧
    ((({ m.world with names } : World).exec op).1 = .failed why →
      (({ m.world with names } : World).exec op).2 = { m.world with names }) := by
  have coherent : ({ m.world with names } : World).Coherent := run.coherent.world.of_eq rfl rfl
  have atomic := World.failsAtomically_exec coherent found on
  exact ⟨atomic.failed_iff why, atomic.unchanged why⟩

/-- A clock that its own timer's callback destroys. -/
theorem failures_exact_and_atomic_destroyed :
    ∃ m k, Reachable m ∧ m.stage = .running (.timer 0 ⟨0⟩ (.ofMillis 1)) [.destroy 0] ∧
      m.world.clock? 0 = some k ∧
      (m.world.exec (.destroy 0)).1 = .failed (.breach (.destroyedWithTimers 1)) ∧
      (m.world.exec (.destroy 0)).2 = m.world := by
  have fired := (reachable_ofCalls [.new .fake true, .add 0 "tick" [[.destroy 0]] false,
    .update 0 "tick" 1, .advance 0 (.ofMillis 5)]).turn rfl 2
  obtain ⟨m, k, r, run, stage, found, registry, size⟩ :
      ∃ m k r, Reachable m ∧ m.stage = .running (.timer 0 ⟨0⟩ (.ofMillis 1)) [.destroy 0] ∧
        m.world.clock? 0 = some k ∧ k.registry = some r ∧ r.size = 1 :=
    ⟨_, _, _, fired, rfl, rfl, rfl, rfl⟩
  obtain ⟨fails_iff, unchanged⟩ := failures_exact_and_atomic run found m.world.names
    (.destroy 0) rfl (.breach (.destroyedWithTimers 1))
  have failed := fails_iff.mpr (size ▸ .destroyInUse registry (by omega))
  exact ⟨m, k, run, stage, found, failed, unchanged failed⟩

end Moment

end VirtualClock
