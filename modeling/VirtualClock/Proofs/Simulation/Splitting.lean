import VirtualClock.Proofs.History.TimerOrder
import VirtualClock.Proofs.Simulation.Refinement
import VirtualClock.Proofs.Simulation.Retargeting

/-!
Split advances. For a confined clock whose callbacks leave its target alone it does not matter
whether it is advanced in two steps, each dispatched until nothing is pending, or in one: what
fires, when, what its callbacks get for an answer and what is left of the clock are the same.
-/

namespace VirtualClock

theorem FakeTime.Coherent.timers_eq {f f' : FakeTime} (h : f.Coherent) (h' : f'.Coherent)
    (settled : f.final = none) (settled' : f'.final = none)
    (alarms : f.timers.alarms = f'.timers.alarms) : f.timers = f'.timers := by
  have toList {g : FakeTime} (coherent : g.Coherent) (idle : g.final = none) :
      g.timers.toList = g.timers.alarms.map fun a => { handle := a.1, trigger := a.2 } := by
    rw [TimerList.alarms, List.map_map]
    refine (List.map_id _).symm.trans (List.map_congr_left fun t member => ?_)
    have pending : t.pending = none := by
      have queued := coherent.pending_iff t member
      rw [idle] at queued
      simpa using queued
    obtain ⟨handle, trigger, _⟩ := t
    cases pending
    rfl
  have same := toList h settled
  rw [alarms, ← toList h' settled'] at same
  exact congrArg TimerList.mk same

namespace Moment

variable {m m' : Moment} {c : Nat} {own : String → Prop}

/-- Some dispatches later nothing is pending on clock `c`. -/
def Settles (c : Nat) (m m' : Moment) : Prop :=
  ∃ n, m.Turns n m' ∧ ∃ k, m'.world.clock? c = some k ∧ k.hasPendingDispatch = false

theorem Settles.steps (settles : Settles c m m') : Relation.ReflTransGen Step m m' := by
  obtain ⟨n, turns, _⟩ := settles
  exact turns.steps

theorem Settles.rest (settles : Settles c m m') : m'.stage = .rest := by
  obtain ⟨n, turns, _⟩ := settles
  exact turns.rest

theorem confined_ofCalls {ops : List Op}
    (fine : ∀ op ∈ ops, op.Within c own ∨ op.Avoids c own) :
    (ofCalls ops).world.Confined c own := by
  induction ops using List.reverseRecOn with
  | nil =>
    refine ⟨?_, nofun⟩
    intro d k found
    cases found
  | append_singleton ops op ih =>
    rw [ofCalls_concat]
    exact (ih fun x member => fine x (List.mem_append_left _ member)).executed
      (reachable_ofCalls ops).coherent.world (World.executed_exec _ op)
      (fine op (List.mem_append_right _ (List.mem_singleton_self op)))

end Moment

namespace Simulator

variable {s : Simulator} {m m' : Moment} {own : String → Prop} {base : List Event}

/-- The simulator with no events of its own yet. -/
def fresh (s : Simulator) : Simulator := { s with events := [] }

theorem execLogged_advance {c : Nat} {delta target : Duration}
    (sum : s.now.add? delta = some target) :
    s.execLogged (.advance c delta) = (s.fresh.toward target).onto
      (.call (.advance c delta) none (some s.now) .done :: s.events) := by
  simp only [execLogged, exec, sum]
  rfl

theorem steps_execLogged_advance (s : Simulator) {c : Nat} {delta target : Duration}
    (sum : s.now.add? delta = some target) (n : Nat) :
    (s.execLogged (.advance c delta)).steps n = ((s.fresh.toward target).steps n).onto
      (.call (.advance c delta) none (some s.now) .done :: s.events) := by
  rw [execLogged_advance sum, steps_onto]

theorem steps_toward_eq_onto (s : Simulator) (target : Duration) (n : Nat) :
    (s.toward target).steps n = ((s.fresh.toward target).steps n).onto s.events :=
  steps_onto (s.fresh.toward target) s.events n

section split

variable {c : Nat} {a b ab near far : Duration} {i j k : Nat}

theorem steps_second (steady : s.registry.Runs Op.Steady) (first : s.now.add? a = some near)
    (second : near.add? b = some far)
    (settled : ((s.execLogged (.advance c a)).steps i).target = none) (j : Nat) :
    let t := (s.fresh.toward near).steps i
    t.target = none ∧
      (((s.execLogged (.advance c a)).steps i).execLogged (.advance c b)).steps j =
        ((t.fresh.toward far).steps j).onto (.call (.advance c b) none (some near) .done ::
          (t.events ++ .call (.advance c a) none (some s.now) .done :: s.events)) := by
  intro t
  have le : near ≤ far := Duration.le_of_add? second
  have bound : (s.fresh.toward near).Bound near := ⟨rfl, steady⟩
  rw [s.steps_execLogged_advance first] at settled ⊢
  have settled' : t.target = none := settled
  have now : t.now = near := (bound.steps_toward le settled').1
  let past : List Event := .call (.advance c a) none (some s.now) .done :: s.events
  have onward := (t.onto past).steps_execLogged_advance (c := c) (now.symm ▸ second) j
  refine ⟨settled', onward.trans ?_⟩
  rw [← now]
  rfl

/-- Two advances settle one after the other just if both at once do. -/
theorem split_settles_iff (steady : s.registry.Runs Op.Steady) (first : s.now.add? a = some near)
    (second : near.add? b = some far) (both : s.now.add? ab = some far) :
    (∃ i j, ((s.execLogged (.advance c a)).steps i).target = none ∧
        ((((s.execLogged (.advance c a)).steps i).execLogged (.advance c b)).steps j).target =
          none) ↔
      ∃ k, ((s.execLogged (.advance c ab)).steps k).target = none := by
  have le : near ≤ far := Duration.le_of_add? second
  have bound : (s.fresh.toward near).Bound near := ⟨rfl, steady⟩
  have single (k : Nat) : ((s.execLogged (.advance c ab)).steps k).target =
      (((s.fresh.toward near).toward far).steps k).target := by
    rw [s.steps_execLogged_advance both]
    rfl
  have leg (i j : Nat) : ((((s.fresh.toward near).steps i).fresh.toward far).steps j).target =
      ((((s.fresh.toward near).steps i).toward far).steps j).target := by
    rw [steps_toward_eq_onto ((s.fresh.toward near).steps i)]
    rfl
  simp only [single, ← bound.exists_settled_iff le]
  constructor
  · rintro ⟨i, j, settled, reached⟩
    obtain ⟨settled', split⟩ := steps_second steady first second settled j
    rw [split] at reached
    exact ⟨i, j, settled', (leg i j).symm.trans reached⟩
  · rintro ⟨i, j, settled, reached⟩
    have settled' : ((s.execLogged (.advance c a)).steps i).target = none := by
      rw [s.steps_execLogged_advance first]
      exact settled
    obtain ⟨_, split⟩ := steps_second steady first second settled' j
    exact ⟨i, j, settled', by rw [split]; exact (leg i j).trans reached⟩

theorem split_eq (steady : s.registry.Runs Op.Steady) (first : s.now.add? a = some near)
    (second : near.add? b = some far) (both : s.now.add? ab = some far)
    (settled : ((s.execLogged (.advance c a)).steps i).target = none)
    (reached :
      ((((s.execLogged (.advance c a)).steps i).execLogged (.advance c b)).steps j).target = none)
    (reached' : ((s.execLogged (.advance c ab)).steps k).target = none) :
    ∃ (u : Simulator) (events : List Event), u.now = far ∧
      (((s.execLogged (.advance c a)).steps i).execLogged (.advance c b)).steps j =
        u.onto (.call (.advance c b) none (some near) .done ::
          (events ++ .call (.advance c a) none (some s.now) .done :: s.events)) ∧
      (s.execLogged (.advance c ab)).steps k =
        u.onto (events ++ .call (.advance c ab) none (some s.now) .done :: s.events) := by
  have le : near ≤ far := Duration.le_of_add? second
  have bound : (s.fresh.toward near).Bound near := ⟨rfl, steady⟩
  obtain ⟨settled', split⟩ := steps_second steady first second settled j
  let t := (s.fresh.toward near).steps i
  let u := (t.fresh.toward far).steps j
  have leg : (t.toward far).steps j = u.onto t.events := t.steps_toward_eq_onto far j
  rw [split] at reached
  rw [s.steps_execLogged_advance both] at reached' ⊢
  have same : (s.fresh.toward far).steps k = (t.toward far).steps j :=
    bound.steps_eq le settled' (leg ▸ reached) reached'
  have arrived : u.now = far := by
    have ahead : (s.fresh.toward far).Bound far := ⟨rfl, steady⟩
    have now := (ahead.steps_toward (Nat.le_refl _) reached').1
    rw [same, leg] at now
    exact now
  refine ⟨u, t.events, arrived, split, ?_⟩
  rw [same, leg, onto, onto, onto, List.append_assoc]

end split

namespace Mirrors

theorem call (mirrors : s.Mirrors own base m) (h : m.Coherent) (rest : m.stage = .rest) {op : Op}
    (within : op.Within s.clock own) : (s.execLogged op).Mirrors own base (m.call op) := by
  have world := mirrors.confined.world.executed h.world (World.executed_exec m.world op)
    (.inl within)
  have confined : (m.call op).Confined s.clock own := ⟨world, fun _ _ => rest ▸ nofun⟩
  exact mirrors.executes h within confined ⟨_, rfl⟩ rfl

end Mirrors

/-- The simulator mirrors clock `c` at rest. -/
structure Tracks (c : Nat) (own : String → Prop) (base : List Event) (s : Simulator) (m : Moment) :
    Prop where
  mirrors : s.Mirrors own base m
  clock : s.clock = c
  coherent : m.Coherent
  rest : m.stage = .rest

namespace Tracks

variable {c : Nat}

theorem call (tracks : s.Tracks c own base m) {op : Op} (within : op.Within c own) :
    (s.execLogged op).Tracks c own base (m.call op) := by
  obtain ⟨mirrors, rfl, h, rest⟩ := tracks
  exact ⟨mirrors.call h rest within, s.clock_execLogged _, h.step (.call _ rest), rest⟩

theorem calls (tracks : s.Tracks c own base m) {ops : List Op}
    (within : ∀ op ∈ ops, op.Within c own) :
    (s.execAll ops).Tracks c own base (ops.foldl Moment.call m) := by
  induction ops generalizing s m with
  | nil => exact tracks
  | cons op ops ih =>
    exact ih (tracks.call (within op List.mem_cons_self)) fun op' member =>
      within op' (List.mem_cons_of_mem op member)

theorem advance (tracks : s.Tracks c own base m) (delta : Duration) :
    (s.execLogged (.advance c delta)).Tracks c own base (m.call (.advance c delta)) :=
  tracks.call (.advance delta)

theorem turns (tracks : s.Tracks c own base m) {n : Nat} (turns : m.Turns n m') :
    (s.steps n).Tracks c own base m' := by
  obtain ⟨mirrors, coherent⟩ := tracks.mirrors.turns tracks.coherent turns
  exact ⟨mirrors, (s.clock_steps n).trans tracks.clock, coherent, turns.rest⟩

theorem settled_iff (tracks : s.Tracks c own base m) :
    (∃ k, m.world.clock? c = some k ∧ k.hasPendingDispatch = false) ↔ s.target = none := by
  obtain ⟨mirrors, rfl, h, _⟩ := tracks
  obtain ⟨f, found, agrees⟩ := mirrors.reflects.clock
  have target : s.target = none ↔ f.hasPending = false := by
    rw [agrees.target, Option.map_eq_none_iff, ((h.world.clocks _ _ found).fake rfl).1.settled_iff]
  rw [target]
  constructor
  · rintro ⟨k, found', settled⟩
    cases found.symm.trans found'
    exact settled
  · exact fun settled => ⟨_, found, settled⟩

theorem history (tracks : s.Tracks c own base m) :
    m.history.filter (·.clock? = some c) = s.events ++ base := by
  obtain ⟨mirrors, rfl, _, _⟩ := tracks
  exact mirrors.history

theorem fakeNow?_eq (tracks : s.Tracks c own base m) : m.world.fakeNow? c = some s.now := by
  obtain ⟨mirrors, rfl, _, _⟩ := tracks
  obtain ⟨f, found, agrees⟩ := mirrors.reflects.clock
  rw [World.fakeNow?_eq found rfl, agrees.now]

theorem of_settles (tracks : s.Tracks c own base m) (settles : m.Settles c m') :
    ∃ n, (s.steps n).target = none ∧ (s.steps n).Tracks c own base m' := by
  obtain ⟨n, turns, settled⟩ := settles
  have tracks' := tracks.turns turns
  exact ⟨n, tracks'.settled_iff.mp settled, tracks'⟩

theorem exists_settles (tracks : s.Tracks c own base m) {n : Nat}
    (settled : (s.steps n).target = none) :
    ∃ m', m.Settles c m' ∧ (s.steps n).Tracks c own base m' := by
  obtain ⟨m', turns, _⟩ := Moment.exists_turns tracks.rest n
  have tracks' := tracks.turns turns
  exact ⟨m', ⟨n, turns, tracks'.settled_iff.mpr settled⟩, tracks'⟩

/-- Two settled moments of one clock, with one simulator but for their events, and timers in one
order, have the same clock. -/
theorem clock?_eq {past past' : List Event} {f₀ : FakeTime} {r₀ : Registry} {m₀ : Moment}
    (tracks : (s.onto past).Tracks c own base m) (tracks' : (s.onto past').Tracks c own base m')
    (settled : s.target = none) (h₀ : m₀.Coherent)
    (found₀ : m₀.world.clock? c = some ⟨some r₀, .fake f₀⟩)
    (base_eq : base = m₀.history.filter (·.clock? = some c))
    (run : Relation.ReflTransGen Moment.Step m₀ m) (run' : Relation.ReflTransGen Moment.Step m₀ m')
    (order : ∀ alarms, (s.events ++ past).foldr (Event.relist c) alarms =
      (s.events ++ past').foldr (Event.relist c) alarms) :
    m.world.clock? c = m'.world.clock? c := by
  subst base_eq
  obtain ⟨mirrors, rfl, h, _⟩ := tracks
  obtain ⟨mirrors', _, h', _⟩ := tracks'
  obtain ⟨f, found, agrees⟩ := mirrors.reflects.clock
  obtain ⟨f', found', agrees'⟩ := mirrors'.reflects.clock
  obtain ⟨coherent, _⟩ := (h.world.clocks _ _ found).fake rfl
  obtain ⟨coherent', _⟩ := (h'.world.clocks _ _ found').fake rfl
  have final : f.final = none := Option.map_eq_none_iff.mp (agrees.target.symm.trans settled)
  have final' : f'.final = none := Option.map_eq_none_iff.mp (agrees'.target.symm.trans settled)
  have alarms := Moment.alarms_eq_foldr h₀ found₀ run found mirrors.history
  have alarms' := Moment.alarms_eq_foldr h₀ found₀ run' found' mirrors'.history
  have timers : f.timers = f'.timers :=
    coherent.timers_eq coherent' final final' (alarms.trans ((order _).trans alarms'.symm))
  have now : f.now = f'.now := agrees.now.symm.trans agrees'.now
  obtain ⟨_, _, _⟩ := f
  obtain ⟨_, _, _⟩ := f'
  cases timers
  cases now
  cases final
  cases final'
  exact found.trans found'.symm

end Tracks

end Simulator

namespace Moment

variable {m : Moment} {c : Nat} {own : String → Prop} {r : Registry} {f : FakeTime}

theorem Reachable.tracks (run : Reachable m) (rest : m.stage = .rest)
    (found : m.world.clock? c = some ⟨some r, .fake f⟩) (confined : m.world.Confined c own) :
    (Simulator.ofClock c r f m.world.names m.history).Tracks c own
      (m.history.filter (·.clock? = some c)) m :=
  ⟨run.mirrors rest found confined, rfl, run.coherent, rest⟩

/-- Between two dispatches of a reachable moment take a clock on fake time with a loop, whose
callbacks stay with it and neither advance nor destroy it, while everything else on the loop stays
away from it. Advanced by `a`, dispatched until nothing is pending, advanced by `b` and dispatched
so again, it settles just if it does when it is advanced by both at once; and then what happens on
the clock meanwhile, firings and calls with their times and answers, is the same but for the
advances, and the clock ends up the same: its time, its registered timers, their triggers and
their order. -/
theorem split_advance (run : Reachable m) (rest : m.stage = .rest)
    (found : m.world.clock? c = some ⟨some r, .fake f⟩) (confined : m.world.Confined c own)
    (steady : r.Runs Op.Steady) {a b ab far : Duration} (sum : a.add? b = some ab)
    (ahead : f.now.add? ab = some far) :
    ((∃ m₁ m₂, (m.call (.advance c a)).Settles c m₁ ∧ (m₁.call (.advance c b)).Settles c m₂) ↔
      ∃ m₃, (m.call (.advance c ab)).Settles c m₃) ∧
    ∀ m₁ m₂ m₃, (m.call (.advance c a)).Settles c m₁ →
      (m₁.call (.advance c b)).Settles c m₂ → (m.call (.advance c ab)).Settles c m₃ →
      ∃ near first second, f.now.add? a = some near ∧
        m₂.history.filter (·.clock? = some c) =
          second ++ .call (.advance c b) none (some near) .done ::
            (first ++ .call (.advance c a) none (some f.now) .done ::
              m.history.filter (·.clock? = some c)) ∧
        m₃.history.filter (·.clock? = some c) =
          second ++ (first ++ .call (.advance c ab) none (some f.now) .done ::
            m.history.filter (·.clock? = some c)) ∧
        m₂.world.clock? c = m₃.world.clock? c ∧ m₂.world.fakeNow? c = some far := by
  have tracks := run.tracks rest found confined
  obtain ⟨near, first, second⟩ := Duration.exists_add?_of_add? sum ahead
  constructor
  · constructor
    · rintro ⟨m₁, m₂, settles₁, settles₂⟩
      obtain ⟨i, settled, tracks₁⟩ := (tracks.advance a).of_settles settles₁
      obtain ⟨j, reached, _⟩ := (tracks₁.advance b).of_settles settles₂
      obtain ⟨k, reached'⟩ :=
        (Simulator.split_settles_iff steady first second ahead).mp ⟨i, j, settled, reached⟩
      obtain ⟨m₃, settles₃, _⟩ := (tracks.advance ab).exists_settles reached'
      exact ⟨m₃, settles₃⟩
    · rintro ⟨m₃, settles₃⟩
      obtain ⟨k, reached', _⟩ := (tracks.advance ab).of_settles settles₃
      obtain ⟨i, j, settled, reached⟩ :=
        (Simulator.split_settles_iff steady first second ahead).mpr ⟨k, reached'⟩
      obtain ⟨m₁, settles₁, tracks₁⟩ := (tracks.advance a).exists_settles settled
      obtain ⟨m₂, settles₂, _⟩ := (tracks₁.advance b).exists_settles reached
      exact ⟨m₁, m₂, settles₁, settles₂⟩
  · intro m₁ m₂ m₃ settles₁ settles₂ settles₃
    obtain ⟨i, settled, tracks₁⟩ := (tracks.advance a).of_settles settles₁
    obtain ⟨j, reached, tracks₂⟩ := (tracks₁.advance b).of_settles settles₂
    obtain ⟨k, reached', tracks₃⟩ := (tracks.advance ab).of_settles settles₃
    obtain ⟨u, events, now, split, whole⟩ :=
      Simulator.split_eq steady first second ahead settled reached reached'
    rw [split] at tracks₂ reached
    rw [whole] at tracks₃
    have run₂ : Relation.ReflTransGen Step m m₂ := .trans
      (.head (.call _ rest) settles₁.steps) (.head (.call _ settles₁.rest) settles₂.steps)
    have run₃ : Relation.ReflTransGen Step m m₃ := .head (.call _ rest) settles₃.steps
    refine ⟨near, events, u.events, first, ?_, ?_, ?_, ?_⟩
    · rw [tracks₂.history, Simulator.onto]
      simp [Simulator.ofClock]
    · rw [tracks₃.history, Simulator.onto]
      simp [Simulator.ofClock]
    · refine tracks₂.clock?_eq tracks₃ reached run.coherent found rfl run₂ run₃ ?_
      intro alarms
      simp only [List.foldr_append, List.foldr_cons]
      rfl
    · exact tracks₂.fakeNow?_eq.trans (congrArg some now)

/-- A timer that arms itself anew every 2 ms, with 5 ms cut after 3. -/
theorem split_advance_rearming :
    ∃ m m₁ m₂ m₃, Reachable m ∧ (m.call (.advance 0 (.ofMillis 3))).Settles 0 m₁ ∧
      (m₁.call (.advance 0 (.ofMillis 2))).Settles 0 m₂ ∧
      (m.call (.advance 0 (.ofMillis 5))).Settles 0 m₃ ∧
      m₂.world.clock? 0 = m₃.world.clock? 0 ∧ m₂.world.fakeNow? 0 = some (.ofMillis 5) := by
  let m := ofCalls [.new .fake true, .add 0 "tick" [[.update 0 "tick" 2]] true, .update 0 "tick" 2]
  have run : Reachable m := reachable_ofCalls _
  have confined : m.world.Confined 0 fun _ => True := by
    refine confined_ofCalls ?_
    intro op member
    simp only [List.mem_cons, List.not_mem_nil, or_false] at member
    rcases member with rfl | rfl | rfl
    · exact .inr (.mk nofun nofun nofun)
    · refine .inl (.add true trivial ?_)
      intro ops script op member
      cases List.mem_singleton.mp script
      cases List.mem_singleton.mp member
      exact .update 2 trivial
    · exact .inl (.update 2 trivial)
  have found : m.world.clock? 0 = some ⟨some _, .fake _⟩ := rfl
  have tracks := (run.tracks rfl found confined).advance (.ofMillis 5)
  obtain ⟨m₃, settles₃, _⟩ := tracks.exists_settles (n := 3) (by decide)
  have sum : (Duration.ofMillis 3).add? (.ofMillis 2) = some (.ofMillis 5) :=
    Duration.add?_eq_some_iff.mpr rfl
  have ahead : Duration.zero.add? (.ofMillis 5) = some (.ofMillis 5) :=
    Duration.add?_eq_some_iff.mpr rfl
  have split := split_advance run rfl found confined ?_ sum ahead
  · obtain ⟨m₁, m₂, settles₁, settles₂⟩ := split.1.mpr ⟨m₃, settles₃⟩
    obtain ⟨_, _, _, _, _, _, same, now⟩ := split.2 m₁ m₂ m₃ settles₁ settles₂ settles₃
    exact ⟨m, m₁, m₂, m₃, run, settles₁, settles₂, settles₃, same, now⟩
  · intro e member ops fires op script
    cases List.mem_singleton.mp member
    cases List.mem_singleton.mp fires
    cases List.mem_singleton.mp script
    exact .mk nofun nofun nofun

end Moment

end VirtualClock
