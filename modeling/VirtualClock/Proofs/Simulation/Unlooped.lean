import VirtualClock.Proofs.Simulation.Landing

/-!
Advances with and without a loop. Without one, fake time moves at once; with one, the final task
moves it in a dispatch later on. Over any list of durations both give the same answers and the same
times: the exact sums of what was accepted, a duration being refused just when the sum would not be
one.
-/

namespace VirtualClock

namespace Duration

/-- What an advance by `delta` is answered at time `now`, and the time that it leads to. -/
def stride (now delta : Duration) : Answer × Duration :=
  match now.add? delta with
  | some sum => (.done, sum)
  | none => (.failed (.refused .timeOverflow), now)

/-- Advances by each of `deltas` in turn: the answer to each, and the time after it. -/
def strides (now : Duration) : List Duration → List (Answer × Option Duration)
  | [] => []
  | delta :: deltas =>
    ((now.stride delta).1, some (now.stride delta).2) :: (now.stride delta).2.strides deltas

/-- Those of `deltas` that are accepted in turn from `start` nanoseconds on: the ones with which the
sum of what was accepted still is a duration. -/
def accepted (start : Nat) : List Duration → List Duration
  | [] => []
  | delta :: deltas =>
    if start + delta.nanos < limit then delta :: accepted (start + delta.nanos) deltas
    else accepted start deltas

/-- The nanoseconds of some durations, exactly. -/
def total (deltas : List Duration) : Nat :=
  deltas.foldr (fun delta nanos => delta.nanos + nanos) 0

variable {now delta : Duration} {deltas : List Duration}

@[simp] theorem total_cons (delta : Duration) (deltas : List Duration) :
    total (delta :: deltas) = delta.nanos + total deltas :=
  rfl

theorem stride_of_lt (sum : now.nanos + delta.nanos < limit) :
    now.stride delta = (.done, ⟨now.nanos + delta.nanos, sum⟩) := by
  have added : now.add? delta = some ⟨now.nanos + delta.nanos, sum⟩ := add?_eq_some_iff.mpr rfl
  rw [stride, added]

theorem stride_of_le (overflow : limit ≤ now.nanos + delta.nanos) :
    now.stride delta = (.failed (.refused .timeOverflow), now) := by
  rw [stride, add?_eq_none_iff.mpr overflow]

theorem fst_stride (now delta : Duration) :
    (now.stride delta).1 =
      if now.nanos + delta.nanos < limit then .done else .failed (.refused .timeOverflow) := by
  split
  · next sum => rw [stride_of_lt sum]
  · next overflow => rw [stride_of_le (Nat.le_of_not_lt overflow)]

theorem nanos_stride (now delta : Duration) :
    (now.stride delta).2.nanos =
      if now.nanos + delta.nanos < limit then now.nanos + delta.nanos else now.nanos := by
  split
  · next sum => rw [stride_of_lt sum]
  · next overflow => rw [stride_of_le (Nat.le_of_not_lt overflow)]

/-- The answer to each of a list of advances, and the time after it, in closed form. -/
theorem getElem?_strides (now : Duration) (before : List Duration) (delta : Duration)
    (after : List Duration) :
    ∃ t : Duration,
      t.nanos = now.nanos + total (accepted now.nanos (before ++ [delta])) ∧
      (now.strides (before ++ delta :: after))[before.length]? =
        some (if now.nanos + total (accepted now.nanos before) + delta.nanos < limit then .done
          else .failed (.refused .timeOverflow), some t) := by
  induction before generalizing now with
  | nil =>
    refine ⟨(now.stride delta).2, ?_, ?_⟩
    · rw [nanos_stride, List.nil_append, accepted]
      split <;> rfl
    · exact congrArg (fun answer => some (answer, some (now.stride delta).2)) (now.fst_stride delta)
  | cons first before ih =>
    obtain ⟨t, sum, there⟩ := ih (now.stride first).2
    refine ⟨t, ?_, there.trans ?_⟩
    · rw [sum, nanos_stride, List.cons_append, accepted]
      split
      · rw [total_cons, Nat.add_assoc]
      · rfl
    · rw [nanos_stride, accepted]
      split
      · rw [total_cons, Nat.add_assoc now.nanos]
      · rfl

end Duration

namespace World

variable {w : World} {c : Nat} {f : FakeTime}

/-- Advances of clock `c` by each of `deltas` in turn, with nothing in between: the answer to each,
and the fake time after it. -/
def advances (w : World) (c : Nat) : List Duration → List (Answer × Option Duration)
  | [] => []
  | delta :: deltas =>
    ((w.exec (.advance c delta)).1, (w.exec (.advance c delta)).2.fakeNow? c) ::
      (w.exec (.advance c delta)).2.advances c deltas

theorem advances_eq (found : w.clock? c = some ⟨none, .fake f⟩) (deltas : List Duration) :
    w.advances c deltas = f.now.strides deltas := by
  induction deltas generalizing w f with
  | nil => rfl
  | cons delta deltas ih =>
    rw [advances, Duration.strides, Duration.stride]
    cases sum : f.now.add? delta with
    | none =>
      rw [exec_advance_of_le found (Duration.add?_eq_none_iff.mp sum), ih found,
        fakeNow?_eq found rfl]
    | some target =>
      rw [exec_advance_of_add? found sum, ih (clock?_accept found _),
        fakeNow?_eq (clock?_accept found _) rfl]
      rfl

theorem Shuns.exec_advance (shuns : w.Shuns c) (h : w.Coherent) (delta : Duration) :
    (w.exec (.advance c delta)).2.Shuns c := by
  refine Scripted.executed shuns h (executed_exec w _) ⟨?_, ?_⟩
  · intro d _ ops script
    cases script
  · intro name ops same
    cases same

end World

theorem Clock.CoherentIn.hasPending_eq_false {c : Nat} {l : EventLoop} {f : FakeTime}
    (h : (⟨none, .fake f⟩ : Clock).CoherentIn c l) : f.hasPending = false := by
  cases h with
  | unlooped empty settled _ => simp [FakeTime.hasPending, TimerList.hasPending, empty, settled]

namespace Moment

variable {m m' m₁ : Moment} {c d : Nat} {r : Registry} {f f' : FakeTime} {k : Clock}
  {delta : Duration}

/-- Clock `c` is advanced by each of `deltas` in turn. Each time a run of kind `leg` goes on from
there to where, between two dispatches, nothing is pending on the clock; `outcomes` has the answers,
each with the fake time then. -/
inductive Driven (leg : Moment → Moment → Prop) (c : Nat) :
    Moment → List Duration → List (Answer × Option Duration) → Moment → Prop where
  | nil (m : Moment) : Driven leg c m [] [] m
  | cons {m m₁ m₂ : Moment} {delta : Duration} {deltas : List Duration}
    {outcomes : List (Answer × Option Duration)} {k : Clock} :
    m.stage = .rest → leg (m.call (.advance c delta)) m₁ → m₁.stage = .rest →
    m₁.world.clock? c = some k → k.hasPendingDispatch = false →
    Driven leg c m₁ deltas outcomes m₂ →
    Driven leg c m (delta :: deltas)
      (((m.world.exec (.advance c delta)).1, m₁.world.fakeNow? c) :: outcomes) m₂

/-- Between two dispatches nothing is pending on clock `c`, which has a loop. -/
structure Stands (c : Nat) (r : Registry) (f : FakeTime) (m : Moment) : Prop where
  coherent : m.Coherent
  rest : m.stage = .rest
  found : m.world.clock? c = some ⟨some r, .fake f⟩
  settled : f.hasPending = false

namespace Stands

theorem final (stands : m.Stands c r f) : f.final = none :=
  ((stands.coherent.world.clocks c _ stands.found).fake rfl).1.settled_iff.mp stands.settled

theorem call (stands : m.Stands c r f) (delta : Duration) :
    (m.world.exec (.advance c delta)).1 = (f.now.stride delta).1 ∧
      ∃ f₁, (m.call (.advance c delta)).world.clock? c = some ⟨some r, .fake f₁⟩ ∧
        f₁.target = (f.now.stride delta).2 ∧ f₁.timers.alarms = f.timers.alarms := by
  change _ ∧ ∃ f₁, (m.world.exec (.advance c delta)).2.clock? c = _ ∧ _
  rw [Duration.stride]
  cases sum : f.now.add? delta with
  | none =>
    rw [World.exec_advance_of_le stands.found (Duration.add?_eq_none_iff.mp sum)]
    exact ⟨rfl, f, stands.found, by rw [FakeTime.target, stands.final], rfl⟩
  | some target =>
    rw [World.exec_advance_of_add? stands.found sum]
    exact ⟨rfl, _, World.clock?_accept stands.found _, rfl,
      (FakeTime.alarms_schedule ..).trans (TimerList.alarms_cancelAfter ..)⟩

theorem of_keeps (stands : m.Stands c r f)
    (leg : Relation.ReflTransGen (Keeps c) (m.call (.advance c delta)) m₁)
    (rest : m₁.stage = .rest) (found : m₁.world.clock? c = some k)
    (settled : k.hasPendingDispatch = false) :
    ∃ r₁ f₁, m₁.Stands c r₁ f₁ ∧ f₁.now = (f.now.stride delta).2 := by
  obtain ⟨_, f₀, found₀, target₀, _⟩ := stands.call delta
  have coherent₀ := stands.coherent.step (.call (.advance c delta) stands.rest)
  obtain ⟨r₁, f₁, rfl, path⟩ := lives (fun _ _ keeps => keeps.step) coherent₀ found₀ leg found
  have steps : Relation.ReflTransGen Step (m.call (.advance c delta)) m₁ :=
    Relation.ReflTransGen.mono (fun _ _ keeps => Keeps.step keeps) _ _ leg
  have target : f₁.target = f₀.target := target_eq_of_lives (fun _ _ => id) path
  have stands₁ : m₁.Stands c r₁ f₁ := ⟨coherent₀.steps steps, rest, found, settled⟩
  refine ⟨r₁, f₁, stands₁, ?_⟩
  rw [← target₀, ← target, FakeTime.target, stands₁.final]

/-- With no timer armed, and nobody else to call the clock, a dispatch is all that it takes. -/
theorem exists_leg (stands : m.Stands c r f) (unarmed : f.timers.armed = [])
    (shuns : m.world.Shuns c) (delta : Duration) :
    ∃ m₁ f₁, (m.call (.advance c delta)).Turns 1 m₁ ∧
      Relation.ReflTransGen (Keeps c) (m.call (.advance c delta)) m₁ ∧ m₁.Stands c r f₁ ∧
      f₁.timers.armed = [] ∧ m₁.world.Shuns c ∧ f₁.now = (f.now.stride delta).2 := by
  obtain ⟨_, f₀, found₀, target₀, alarms₀⟩ := stands.call delta
  have coherent₀ := stands.coherent.step (.call (.advance c delta) stands.rest)
  have unarmed₀ : f₀.timers.armed = [] := by rwa [TimerList.armed, alarms₀]
  have shuns₀ := shuns.exec_advance stands.coherent.world delta
  obtain ⟨m₁, turns, _⟩ := exists_turns (m := m.call (.advance c delta)) stands.rest 1
  have steps := turns.steps
  cases turns with
  | succ start dispatch rest =>
    cases start with
    | zero =>
      obtain ⟨found, shuns₁, keeps⟩ :=
        landed_of_turn coherent₀ stands.rest found₀ unarmed₀ shuns₀ dispatch rest
      have coherent₁ := coherent₀.steps steps
      have settled := ((coherent₁.world.clocks c _ found).fake rfl).1.settled_iff.mpr rfl
      exact ⟨m₁, _, .succ (.zero stands.rest) dispatch rest, keeps,
        ⟨coherent₁, rest, found, settled⟩, unarmed₀, shuns₁, target₀⟩

end Stands

theorem Stands.outcomes_eq {deltas : List Duration} {outcomes : List (Answer × Option Duration)}
    (driven : Driven (Relation.ReflTransGen (Keeps c)) c m deltas outcomes m')
    (stands : m.Stands c r f) : outcomes = f.now.strides deltas := by
  induction driven generalizing r f with
  | nil => rfl
  | cons _ leg rest found settled _ ih =>
    obtain ⟨r₁, f₁, stands₁, now⟩ := stands.of_keeps leg rest found settled
    rw [ih stands₁, (stands.call _).1, World.fakeNow?_eq stands₁.found rfl, now]
    rfl

theorem Stands.exists_driven (stands : m.Stands c r f) (unarmed : f.timers.armed = [])
    (shuns : m.world.Shuns c) (deltas : List Duration) :
    ∃ m', Driven (fun a b => a.Turns 1 b ∧ Relation.ReflTransGen (Keeps c) a b) c m deltas
      (f.now.strides deltas) m' := by
  induction deltas generalizing m f with
  | nil => exact ⟨m, .nil m⟩
  | cons delta deltas ih =>
    obtain ⟨m₁, f₁, turns, keeps, stands₁, unarmed₁, shuns₁, now⟩ :=
      stands.exists_leg unarmed shuns delta
    obtain ⟨m', driven⟩ := ih stands₁ unarmed₁ shuns₁
    refine ⟨m', ?_⟩
    rw [Duration.strides, ← (stands.call delta).1, ← now, ← World.fakeNow?_eq stands₁.found rfl]
    exact .cons stands.rest ⟨turns, keeps⟩ stands₁.rest stands₁.found stands₁.settled driven

/-- Take a clock on fake time without a loop in a reachable moment, and any list of durations. The
clock is not pending, and it takes advances by each of them at once. Any clock with a loop at the
same time, advanced by each of them in turn while nothing is pending on it, gives the same answers
and, once it is settled, has the same time after each, whatever else happens, if only it is not
retargeted otherwise; and when none of its timers is armed and nothing else on the loop calls it,
one dispatch after each advance settles it. The times are the exact sums of the durations accepted
so far. A duration is refused just when the sum would not be below 2^64 seconds; that changes
nothing, on any clock. -/
theorem advances_same_without_loop (run : Reachable m)
    (found : m.world.clock? c = some ⟨none, .fake f⟩) (deltas : List Duration) :
    f.hasPending = false ∧
      (∀ m' d r f', Reachable m' → m'.stage = .rest →
        m'.world.clock? d = some ⟨some r, .fake f'⟩ → f'.hasPending = false → f'.now = f.now →
        (∀ outcomes m'', Driven (Relation.ReflTransGen (Keeps d)) d m' deltas outcomes m'' →
          outcomes = m.world.advances c deltas) ∧
        (f'.timers.armed = [] → m'.world.Shuns d → ∃ m'',
          Driven (fun a b => a.Turns 1 b ∧ Relation.ReflTransGen (Keeps d) a b) d m' deltas
            (m.world.advances c deltas) m'')) ∧
      (∀ before delta after, deltas = before ++ delta :: after → ∃ t : Duration,
        t.nanos = f.now.nanos + Duration.total (Duration.accepted f.now.nanos (before ++ [delta])) ∧
        (m.world.advances c deltas)[before.length]? =
          some (if f.now.nanos + Duration.total (Duration.accepted f.now.nanos before) +
            delta.nanos < Duration.limit then .done else .failed (.refused .timeOverflow), some t)) ∧
      (∀ w d registry g delta, World.clock? w d = some ⟨registry, .fake g⟩ →
        Duration.limit ≤ g.now.nanos + delta.nanos →
        w.exec (.advance d delta) = (.failed (.refused .timeOverflow), w)) := by
  have unlooped := World.advances_eq found deltas
  refine ⟨(run.coherent.world.clocks c _ found).hasPending_eq_false, ?_, ?_,
    fun w d registry g delta => World.exec_advance_of_le⟩
  · intro m' d r f' run' rest found' settled same
    have stands : m'.Stands d r f' := ⟨run'.coherent, rest, found', settled⟩
    rw [unlooped, ← same]
    exact ⟨fun outcomes m'' driven => stands.outcomes_eq driven,
      fun unarmed shuns => stands.exists_driven unarmed shuns deltas⟩
  · rintro before delta after rfl
    rw [unlooped]
    exact f.now.getElem?_strides before delta after

/-- Nanoseconds that carry, and two durations that are refused: one that leads past the end of time,
and one that leads right up to it. -/
theorem advances_same_without_loop_at_end :
    ∃ m m' deltas, Reachable m ∧ m.world.advances 0 deltas =
        [(.done, some (.ofParts 18446744073709551614 600000000)),
          (.done, some (.ofParts 18446744073709551615 100000000)),
          (.failed (.refused .timeOverflow), some (.ofParts 18446744073709551615 100000000)),
          (.done, some (.ofParts 18446744073709551615 999999999)),
          (.failed (.refused .timeOverflow), some (.ofParts 18446744073709551615 999999999))] ∧
      Driven (fun a b => a.Turns 1 b ∧ Relation.ReflTransGen (Keeps 1) a b) 1 m deltas
        (m.world.advances 0 deltas) m' := by
  let deltas : List Duration := [.ofParts 18446744073709551614 600000000, .ofParts 0 500000000,
    .ofParts 1 0, .ofParts 0 899999999, .ofParts 0 1]
  let m := ofCalls [.new .fake false, .new .fake true,
    .add 1 "tick" [[.advance 1 (.ofMillis 5)]] true, .idle "note" [.pending 0]]
  have run : Reachable m := reachable_ofCalls _
  have found : m.world.clock? 0 = some ⟨none, .fake _⟩ := rfl
  have found' : m.world.clock? 1 = some ⟨some _, .fake _⟩ := rfl
  have shuns : m.world.Shuns 1 := by
    refine ⟨?_, ?_⟩
    · intro d k found r registered
      match d with
      | 0 =>
        cases found
        cases registered
      | 1 => exact fun _ _ _ _ _ _ other => absurd rfl other
      | d + 2 => cases found
    · intro i member name ops task
      cases List.mem_singleton.mp member
      cases task
      intro op member
      cases List.mem_singleton.mp member
      exact .mk nofun nofun nofun
  obtain ⟨_, looped, _⟩ := advances_same_without_loop run found deltas
  obtain ⟨m', driven⟩ := (looped m 1 _ _ run rfl found' rfl rfl).2 rfl shuns
  exact ⟨m, m', deltas, run, World.advances_eq found deltas, driven⟩

end Moment

end VirtualClock
