import VirtualClock.Proofs.History.Moves

/-!
The life of a clock. Clocks are made and go, and none that is gone comes back; so a clock with a
loop that is there at the end of a run has been there all along, and its fake time has come step by
step to where it is.
-/

namespace VirtualClock

/-- World `w'` has the clocks of `w` but for some that are gone, and maybe new ones. -/
structure World.Descends (w w' : World) : Prop where
  length_le : w.clocks.length ≤ w'.clocks.length
  alive : ∀ c k', c < w.clocks.length → w'.clock? c = some k' → ∃ k, w.clock? c = some k

namespace World

variable {w w' : World}

theorem Descends.of_clocks (same : w'.clocks = w.clocks) : w.Descends w' where
  length_le := Nat.le_of_eq (congrArg _ same.symm)
  alive c k' _ found := ⟨k', by rwa [clock?, same] at found⟩

theorem Descends.trans {w'' : World} (h : w.Descends w') (h' : w'.Descends w'') :
    w.Descends w'' where
  length_le := Nat.le_trans h.length_le h'.length_le
  alive c k made found := by
    obtain ⟨k', found'⟩ := h'.alive c k (Nat.lt_of_lt_of_le made h.length_le) found
    exact h.alive c k' made found'

theorem Descends.setClock {d : Nat} {k : Clock} (found : w.clock? d = some k) {k₁ : Clock}
    (clocks : w'.clocks = (w.setClock d k₁).clocks) : w.Descends w' where
  length_le := by
    rw [clocks]
    exact Nat.le_of_eq (List.length_set ..).symm
  alive c k' _ found' := by
    have found' : (w.setClock d k₁).clock? c = some k' := by rwa [clock?, clocks] at found'
    rw [clock?_setClock (lt_length_of_clock? found)] at found'
    split at found'
    · next same => exact ⟨k, same ▸ found⟩
    · exact ⟨k', found'⟩

theorem Executed.descends {op : Op} {w₁ : World} (executed : Executed w op w₁)
    (clocks : w'.clocks = w₁.clocks) : w.Descends w' where
  length_le := clocks ▸ executed.length_le
  alive c k' made found := by
    have found : w₁.clock? c = some k' := by rwa [clock?, clocks] at found
    obtain ⟨k, found, _⟩ := executed.kind made found
    exact ⟨k, found⟩

end World

namespace Moment

variable {m m' : Moment} {c : Nat} {r : Registry} {f : FakeTime} {k' : Clock}

theorem Coherent.fakeTime (h : m.Coherent) (found : m.world.fakeTime? c = some f) :
    f.Coherent := by
  obtain ⟨k, alive, fake⟩ := World.fakeTime?_eq_some_iff.mp found
  exact ((h.world.clocks c k alive).fake fake).1

theorem Progress.descends (next : m.Progress m') : m.world.Descends m'.world := by
  cases next with
  | misses _ found | expires _ _ found | fires _ _ _ found | applies _ _ found
  | reschedules _ found => exact .setClock found rfl
  | executes => exact (World.executed_exec ..).descends rfl
  | _ => exact .of_clocks rfl

theorem Step.descends (h : m.Coherent) (step : Step m m') : m.world.Descends m'.world := by
  cases step with
  | call op => exact (World.executed_exec ..).descends rfl
  | proceed => exact (progress_proceed h).descends
  | _ => exact .of_clocks rfl

theorem descends_of_steps (h : m.Coherent) (run : Relation.ReflTransGen Step m m') :
    m.world.Descends m'.world := by
  induction run with
  | refl => exact .of_clocks rfl
  | tail before step ih => exact ih.trans (step.descends (h.steps before))

theorem Progress.dropped {k : Clock} (next : m.Progress m') (found : m.world.clock? c = some k)
    (gone : m'.world.clock? c = none) : m'.history = m.world.called (.drop c) :: m.history := by
  have kept {d : Nat} {k₁ : Clock} (other : m.world.clock? d = some k₁) (k₂ : Clock) :
      (m.world.setClock d k₂).clock? c ≠ none := by
    rw [World.clock?_setClock (World.lt_length_of_clock? other)]
    split <;> simp [found]
  cases next with
  | misses _ other | expires _ _ other | fires _ _ _ other | applies _ _ other
  | reschedules _ other => exact absurd gone (kept other _)
  | executes log stage => rw [(World.executed_exec ..).eq_drop found gone]
  | _ => cases found.symm.trans gone

theorem Step.dropped {k : Clock} (h : m.Coherent) (step : Step m m')
    (found : m.world.clock? c = some k) (gone : m'.world.clock? c = none) :
    m'.history = m.world.called (.drop c) :: m.history := by
  cases step with
  | call op => rw [(World.executed_exec ..).eq_drop found gone]
  | proceed => exact (progress_proceed h).dropped found gone
  | _ => cases found.symm.trans gone

/-- A step `R` of a run, with the fake time of clock `c` before and after it. -/
structure Lives (R : Moment → Moment → Prop) (c : Nat) (a b : Moment × FakeTime) : Prop where
  step : R a.1 b.1
  coherent : a.1.Coherent
  before : ∃ r, a.1.world.clock? c = some ⟨some r, .fake a.2⟩
  after : ∃ r, b.1.world.clock? c = some ⟨some r, .fake b.2⟩
  move : Move c a.1 b.1 a.2 b.2

/-- A clock with a loop that a run leaves there has lived through each of its steps. -/
theorem lives {R : Moment → Moment → Prop} (steps : ∀ a b, R a b → Step a b) (h : m.Coherent)
    (found : m.world.clock? c = some ⟨some r, .fake f⟩) (run : Relation.ReflTransGen R m m')
    (found' : m'.world.clock? c = some k') :
    ∃ r' f', k' = ⟨some r', .fake f'⟩ ∧ Relation.ReflTransGen (Lives R c) (m, f) (m', f') := by
  have path : m'.Coherent ∧ c < m'.world.clocks.length ∧
      ∀ k', m'.world.clock? c = some k' → ∃ r' f', k' = ⟨some r', .fake f'⟩ ∧
        Relation.ReflTransGen (Lives R c) (m, f) (m', f') := by
    clear found'
    induction run with
    | refl =>
      refine ⟨h, World.lt_length_of_clock? found, ?_⟩
      intro k' same
      cases found.symm.trans same
      exact ⟨r, f, rfl, .refl⟩
    | @tail a b _ last ih =>
      obtain ⟨coherent, made, before⟩ := ih
      have step := steps a b last
      have descends := step.descends coherent
      refine ⟨coherent.step step, Nat.lt_of_lt_of_le made descends.length_le, ?_⟩
      intro k₂ after
      obtain ⟨k₁, alive⟩ := descends.alive c k₂ made after
      obtain ⟨r₁, f₁, rfl, path⟩ := before k₁ alive
      obtain ⟨r₂, f₂, rfl, move⟩ := step.move coherent alive after
      exact ⟨r₂, f₂, rfl, path.tail ⟨last, coherent, ⟨r₁, alive⟩, ⟨r₂, after⟩, move⟩⟩
  exact path.2.2 k' found'

end Moment

end VirtualClock
