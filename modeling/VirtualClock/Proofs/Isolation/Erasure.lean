import VirtualClock.Proofs.Isolation.Shadow
import VirtualClock.Proofs.World.Turns

/-!
Runs with the other clocks taken out. On a loop that clocks share, a run in which everything acts on
one clock only is, for the chosen clock, the run that is left when all calls of the other side are
taken out of it, and with them the clocks, callbacks and idles of the other side.
-/

namespace VirtualClock

/-- What is done to clocks and loop from outside; of a call it is told on which side it is. -/
inductive Action where
  | call (mine : Bool) (op : Op)
  | pass (t : Nat)
  | dispatch

/-- Whether an action is left once the calls of the other side are taken out. -/
def Action.stays : Action → Bool
  | call mine _ => mine
  | _ => true

namespace Moment

variable {c : Nat} {own : Ownership} {m m' m'' n n' : Moment} {actions earlier : List Action}

/-- What actions come to, the latest action first. -/
inductive Plays (m : Moment) : List Action → Moment → Prop where
  | start : m.stage = .rest → Plays m [] m
  | call {actions : List Action} {m' : Moment} (mine : Bool) (op : Op) :
    Plays m actions m' → Plays m (.call mine op :: actions) (m'.call op)
  | pass {actions : List Action} {m' : Moment} (t : Nat) :
    Plays m actions m' → Plays m (.pass t :: actions) (m'.pass t)
  | dispatch {actions : List Action} {m' m'' : Moment} :
    Plays m actions m' → m'.Turns 1 m'' → Plays m (.dispatch :: actions) m''

/-- A run from nothing in which every call is on one side, and so is every callback and every idle
that is run. -/
inductive Parted (c : Nat) (own : Ownership) : List Action → Moment → Prop where
  | start : Parted c own [] {}
  | call {actions : List Action} {m : Moment} (mine : Bool) (op : Op) :
    Parted c own actions m → m.world.Fits c own mine [op] →
    Parted c own (.call mine op :: actions) (m.call op)
  | pass {actions : List Action} {m : Moment} (t : Nat) :
    Parted c own actions m → Parted c own (.pass t :: actions) (m.pass t)
  | dispatch {actions : List Action} {m m' : Moment} :
    Parted c own actions m → m.Turns 1 m' →
    (∀ m'', m.turn.Proceeds m'' → m''.Disciplined c own) →
    Parted c own (.dispatch :: actions) m'

/-- Nothing has happened yet, and the next clock will have the given number. -/
def numberedFrom (c : Nat) : Moment := { world := { clocks := List.replicate c none } }

/-- Clocks are dropped as soon as they are created. -/
theorem exists_reachable_numberedFrom (c : Nat) :
    ∃ m, Reachable m ∧ m.stage = .rest ∧ m.world = (numberedFrom c).world := by
  induction c with
  | zero => exact ⟨{}, .refl, rfl, rfl⟩
  | succ c ih =>
    obtain ⟨m, run, rest, world⟩ := ih
    refine ⟨(m.call (.new .fake true)).call (.drop c), ?_, rest, ?_⟩
    · exact (run.tail (.call (.new .fake true) rest)).tail (.call (.drop c) rest)
    · simp [Moment.call, world, numberedFrom, World.exec, World.newClock, World.dropClock,
        World.clock?, List.replicate_succ']

theorem coherent_numberedFrom (c : Nat) : (numberedFrom c).Coherent := by
  refine .of_rest ⟨⟨List.nodup_nil, by simp [EventLoop.live]⟩, by simp [EventLoop.live], ?_,
    by simp⟩ rfl
  intro d k found
  rw [World.clock?_eq_some_iff] at found
  cases List.eq_of_mem_replicate (List.mem_of_getElem? found)

namespace Plays

theorem rest (plays : m.Plays actions m') : m'.stage = .rest := by
  induction plays with
  | start rest => exact rest
  | call _ _ _ ih => exact ih
  | pass _ _ ih => exact ih
  | dispatch _ turns => exact turns.rest

theorem steps (plays : m.Plays actions m') : Relation.ReflTransGen Step m m' := by
  induction plays with
  | start => exact .refl
  | call _ op plays ih => exact ih.tail (.call op plays.rest)
  | pass t plays ih => exact ih.tail (.pass t plays.rest)
  | dispatch _ turns ih => exact ih.trans turns.steps

theorem unique (plays : m.Plays actions m') (plays' : m.Plays actions m'') : m'' = m' := by
  induction plays generalizing m'' with
  | start =>
    cases plays'
    rfl
  | call _ _ _ ih =>
    cases plays' with
    | call _ _ plays' => rw [ih plays']
  | pass _ _ ih =>
    cases plays' with
    | pass _ plays' => rw [ih plays']
  | dispatch plays turns ih =>
    cases plays' with
    | dispatch plays' turns' =>
      rw [ih plays'] at turns'
      obtain ⟨_, _, _, unique⟩ := exists_turns plays.rest 1
      rw [unique _ turns, unique _ turns']

end Plays

namespace Shadows

theorem start (c : Nat) (own : Ownership) : Shadows c own {} (numberedFrom c) where
  world := by
    have none : (numberedFrom c).world.clock? c = none := by
      simp [World.clock?, numberedFrom]
    refine ⟨by rw [none]; rfl, by simp [World.clock?], ?_, ?_, fun _ _ => rfl, ⟨rfl, rfl⟩, rfl⟩
    · simp [numberedFrom]
    · simp [numberedFrom]
  scripted := ⟨by simp [World.clock?], by simp [EventLoop.live]⟩
  stage := .of_idle (by rintro _ _ ⟨⟩) rfl
  history := rfl

theorem turn (shadows : Shadows c own m n) : Shadows c own m.turn n.turn := by
  refine ⟨shadows.world, shadows.scripted, .of_idle (by rintro _ _ ⟨⟩) ?_, shadows.history⟩
  have none : n.world.loop.expired = [] := by
    simp [EventLoop.expired, shadows.world.sources]
  rw [Moment.turn, none]
  rfl

theorem proceeds (shadows : Shadows c own m n) (h : m.Coherent) (h' : n.Coherent)
    (run : m.Proceeds m') (disciplined : ∀ m'', m.Proceeds m'' → m''.Disciplined c own) :
    ∃ n', n.Proceeds n' ∧ Shadows c own m' n' := by
  induction run with
  | refl => exact ⟨n, .refl, shadows⟩
  | @tail m₁ m' before last ih =>
    subst last
    obtain ⟨n₁, run', shadows₁⟩ := ih
    rcases shadows₁.proceed (h.steps (Proceeds.steps before)) (h'.steps run'.steps)
      (disciplined m₁ before) with stays | goes
    · exact ⟨n₁, run', stays⟩
    · exact ⟨n₁.proceed, run'.tail rfl, goes⟩

theorem exists_turns (shadows : Shadows c own m n) (h : m.Coherent) (h' : n.Coherent)
    (rest : m.stage = .rest) (rest' : n.stage = .rest) (turns : m.Turns 1 m')
    (disciplined : ∀ m'', m.turn.Proceeds m'' → m''.Disciplined c own) :
    ∃ n', n.Turns 1 n' ∧ Shadows c own m' n' := by
  cases turns with
  | succ before run ended =>
    cases before
    obtain ⟨n', run', shadows'⟩ := shadows.turn.proceeds (h.step (.turn rest))
      (h'.step (.turn rest')) run disciplined
    refine ⟨n', .succ (.zero rest') run' ?_, shadows'⟩
    rw [shadows'.stage_eq (by simp [ended]), ended]
    rfl

theorem pass (shadows : Shadows c own m n) (rest : m.stage = .rest) (t : Nat) :
    Shadows c own (m.pass t) (n.pass t) := by
  have idle : ∀ origin ops, m.stage ≠ .running origin ops := by simp [rest]
  have loop := shadows.world.loop
  exact ⟨shadows.world.withLoop ⟨loop.batch, loop.queue⟩ shadows.world.sources,
    shadows.scripted.of_live rfl fun _ => .inl, .of_idle idle (shadows.stage_eq idle),
    shadows.history⟩

theorem call (shadows : Shadows c own m n) (h : m.Coherent) (h' : n.Coherent)
    (rest : m.stage = .rest) {op : Op} (fits : m.world.Fits c own true [op]) :
    Shadows c own (m.call op) (n.call op) := by
  have created (new : op.isNew = true) : m.world.clocks.length = c := (fits.created new).mpr rfl
  have called := shadows.world.called_eq h.world h'.world fits.head created
  refine ⟨(shadows.world.exec h.world h'.world fits.head created).2, ?_, ?_, ?_⟩
  · exact shadows.scripted.executed h.world (World.executed_exec m.world op) fits.head.leaves
  · have idle : ∀ origin ops, m.stage ≠ .running origin ops := by simp [rest]
    exact .of_idle idle (shadows.stage_eq idle)
  · rw [Moment.call, Moment.call, called, List.filter_cons_of_pos fits.belongs_called,
      shadows.history]

theorem call_other (shadows : Shadows c own m n) (h : m.Coherent) (rest : m.stage = .rest)
    {op : Op} (fits : m.world.Fits c own false [op]) : Shadows c own (m.call op) n := by
  have created (new : op.isNew = true) (same : m.world.clocks.length = c) : False :=
    nomatch (fits.created new).mp same
  have executed := World.executed_exec m.world op
  refine ⟨shadows.world.executed_other h.world executed fits.head created, ?_, ?_, ?_⟩
  · exact shadows.scripted.executed h.world executed fits.head.leaves
  · have idle : ∀ origin ops, m.stage ≠ .running origin ops := by simp [rest]
    exact .of_idle idle (shadows.stage_eq idle)
  · rw [Moment.call, List.filter_cons_of_neg (by simp [fits.belongs_called])]
    exact shadows.history

end Shadows

namespace Parted

theorem plays (parted : Parted c own actions m) : Plays {} actions m := by
  induction parted with
  | start => exact .start rfl
  | call mine op _ _ ih => exact .call mine op ih
  | pass t _ ih => exact .pass t ih
  | dispatch _ turns _ ih => exact .dispatch ih turns

theorem of_suffix (parted : Parted c own actions m) (early : earlier <:+ actions) :
    ∃ m', Parted c own earlier m' := by
  induction parted with
  | start =>
    rw [List.suffix_nil.mp early]
    exact ⟨_, .start⟩
  | call mine op parted fits ih =>
    rcases List.suffix_cons_iff.mp early with rfl | early
    · exact ⟨_, .call mine op parted fits⟩
    · exact ih early
  | pass t parted ih =>
    rcases List.suffix_cons_iff.mp early with rfl | early
    · exact ⟨_, .pass t parted⟩
    · exact ih early
  | dispatch parted turns disciplined ih =>
    rcases List.suffix_cons_iff.mp early with rfl | early
    · exact ⟨_, .dispatch parted turns disciplined⟩
    · exact ih early

/-- The actions that stay come to a shadow of the whole run. -/
theorem exists_shadow (parted : Parted c own actions m) :
    ∃ n, Plays (numberedFrom c) (actions.filter (·.stays)) n ∧ Shadows c own m n := by
  have start : ({} : Moment).Coherent := .empty
  induction parted with
  | start => exact ⟨_, .start rfl, .start c own⟩
  | @call actions m mine op parted fits ih =>
    obtain ⟨n, plays, shadows⟩ := ih
    have h := start.steps parted.plays.steps
    cases mine with
    | true =>
      have h' := (coherent_numberedFrom c).steps plays.steps
      exact ⟨_, .call true op plays, shadows.call h h' parted.plays.rest fits⟩
    | false => exact ⟨n, plays, shadows.call_other h parted.plays.rest fits⟩
  | pass t parted ih =>
    obtain ⟨n, plays, shadows⟩ := ih
    exact ⟨_, .pass t plays, shadows.pass parted.plays.rest t⟩
  | dispatch parted turns disciplined ih =>
    obtain ⟨n, plays, shadows⟩ := ih
    have h := start.steps parted.plays.steps
    have h' := (coherent_numberedFrom c).steps plays.steps
    obtain ⟨n', turns', shadows'⟩ := shadows.exists_turns h h' parted.plays.rest plays.rest turns
      disciplined
    exact ⟨n', .dispatch plays turns', shadows'⟩

end Parted

/-- Clocks on one loop do not influence each other. Take any run from nothing in which every call,
every callback and every idle acts on one clock only, with names of its own, and any clock on fake
time. Up to any earlier action, and so after each dispatch, what is left of the run without the
calls of the other side, and so without the other clocks, their callbacks and idles, shows the same
of the clock: its history, with what fired, at which times, and every answer, its registered timers,
time, alarms and target, and whether it is pending. What is left starts where the next clock has the
same number, and a run from nothing gets there. -/
theorem isolated_from_others (parted : Parted c own actions m) (early : earlier <:+ actions) :
    ∃ m' n, (∀ m'', Plays {} earlier m'' ↔ m'' = m') ∧
      (∀ n', Plays (numberedFrom c) (earlier.filter (·.stays)) n' ↔ n' = n) ∧
      n.history = m'.history.filter (·.belongs c own) ∧
      (n.world.clock? c).map (·.look) = (m'.world.clock? c).map (·.look) ∧
      (n.world.clock? c).map (·.hasPendingDispatch) =
        (m'.world.clock? c).map (·.hasPendingDispatch) ∧
      ∃ start, Reachable start ∧ start.stage = .rest ∧ start.world = (numberedFrom c).world := by
  obtain ⟨m', parted'⟩ := parted.of_suffix early
  obtain ⟨n, plays, shadows⟩ := parted'.exists_shadow
  have h : m'.Coherent := Coherent.empty.steps parted'.plays.steps
  have h' : n.Coherent := (coherent_numberedFrom c).steps plays.steps
  refine ⟨m', n, fun m'' => ⟨parted'.plays.unique, ?_⟩, fun n' => ⟨plays.unique, ?_⟩,
    shadows.history, shadows.world.look, ?_, exists_reachable_numberedFrom c⟩
  · rintro rfl
    exact parted'.plays
  · rintro rfl
    exact plays
  · rcases shadows.world.clock?_cases h.world h'.world with
      ⟨gone, gone'⟩ | ⟨k, k', found, found', twins⟩
    · rw [gone, gone']
    · rw [found, found']
      exact congrArg some twins.hasPendingDispatch_eq

section steps

theorem turns_one {k : Nat} (rest : m.stage = .rest)
    (ended : (Nat.repeat proceed k m.turn).stage = .rest) :
    m.Turns 1 (Nat.repeat proceed k m.turn) := by
  have run (j : Nat) : m.turn.Proceeds (Nat.repeat proceed j m.turn) := by
    induction j with
    | zero => exact .refl
    | succ j ih => exact ih.tail rfl
  exact .succ (.zero rest) (run k) ended

theorem Proceeds.exists_repeat (run : m.Proceeds m') {k : Nat}
    (ended : (Nat.repeat proceed k m).stage = .rest) :
    ∃ j ≤ k, m' = Nat.repeat proceed j m := by
  induction run with
  | refl => exact ⟨0, Nat.zero_le k, rfl⟩
  | tail _ last ih =>
    subst last
    obtain ⟨j, le, rfl⟩ := ih
    rcases Nat.lt_or_eq_of_le le with lt | rfl
    · exact ⟨j + 1, lt, rfl⟩
    · refine ⟨j, Nat.le_refl j, ?_⟩
      rw [Moment.proceed, ended]

theorem Parted.dispatch_of_owned (parted : Parted c own actions m) (k : Nat)
    (ended : (Nat.repeat proceed k m.turn).stage = .rest)
    (owned : ∀ j ≤ k, (Nat.repeat proceed j m.turn).task?.all (·.owner?.isSome) = true) :
    Parted c own (.dispatch :: actions) (Nat.repeat proceed k m.turn) := by
  refine .dispatch parted (turns_one parted.plays.rest ended) fun m' run => ?_
  obtain ⟨j, le, rfl⟩ := run.exists_repeat ended
  intro name ops next
  have task := owned j le
  rw [next] at task
  cases task

end steps

/-- Two clocks take turns on the loop: the pending advance of the first comes before the dispatch of
the other's timer, which asks for the time. -/
theorem isolated_from_others_interleaved :
    ∃ m n, Parted 1 ⟨(· == "tock"), fun _ _ => false⟩
        [.dispatch, .call true (.advance 1 (.ofMillis 5)), .call false (.advance 0 (.ofMillis 5)),
          .call true (.update 1 "tock" 3),
          .call true (.add 1 "tock" [[.gettime 1 .monotonic]] false),
          .call true (.new .fake true), .call false (.new .fake true)] m ∧
      Plays (numberedFrom 1)
        [.dispatch, .call true (.advance 1 (.ofMillis 5)), .call true (.update 1 "tock" 3),
          .call true (.add 1 "tock" [[.gettime 1 .monotonic]] false),
          .call true (.new .fake true)] n ∧
      .fire 1 ⟨0⟩ (some (.ofMillis 3)) ∈ n.history := by
  have fits {mine : Bool} {op : Op} {w : World}
      (belongs : op.Belongs 1 ⟨(· == "tock"), fun _ _ => false⟩ mine)
      (made : ∀ number ∈ w.made [op], (number = 1 ↔ mine = true)) :
      w.Fits 1 ⟨(· == "tock"), fun _ _ => false⟩ mine [op] :=
    ⟨fun _ member => List.mem_singleton.mp member ▸ belongs, made⟩
  have timer {op : Op} (named : op.timerName? = some "tock") :
      ∀ timer, op.timerName? = some timer → (timer == "tock") = true := by
    intro timer named'
    cases named.symm.trans named'
    decide
  have created := (Parted.start.call false (.new .fake true) (fits (.of_new true) (by decide))).call
    true (.new .fake true) (fits (.of_new true) (by decide))
  have asks : ∀ ops ∈ [[Op.gettime 1 .monotonic]], ∀ op ∈ ops,
      op.Belongs 1 ⟨(· == "tock"), fun _ _ => false⟩ true ∧ op.isNew = false := by
    intro ops script op member
    cases List.mem_singleton.mp script
    cases List.mem_singleton.mp member
    exact ⟨.of_call rfl (by decide) nofun nofun, rfl⟩
  have armed := (created.call true (.add 1 "tock" [[.gettime 1 .monotonic]] false)
    (fits (.of_call rfl (by decide) (timer rfl) asks) (by decide))).call true (.update 1 "tock" 3)
      (fits (.of_call rfl (by decide) (timer rfl) nofun) (by decide))
  have advanced := (armed.call false (.advance 0 (.ofMillis 5))
    (fits (.of_call rfl (by decide) nofun nofun) (by decide))).call true (.advance 1 (.ofMillis 5))
      (fits (.of_call rfl (by decide) nofun nofun) (by decide))
  have dispatched := advanced.dispatch_of_owned 6 rfl (by decide)
  obtain ⟨m', n, played, kept, history, _⟩ :=
    isolated_from_others dispatched (List.suffix_refl _)
  refine ⟨_, n, dispatched, (kept n).mpr rfl, ?_⟩
  rw [history, ← (played _).mp dispatched.plays]
  exact List.mem_filter.mpr ⟨List.mem_of_getElem? (i := 1) rfl, rfl⟩

end Moment

end VirtualClock
