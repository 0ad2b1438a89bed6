import VirtualClock.Proofs.History.Moves
import VirtualClock.Proofs.Simulation.Pacing
import VirtualClock.Proofs.Simulation.Splitting

/-!
How long it takes to settle. A dispatch takes up one task of a clock with a pending advance: the
callback queues everything else anew, so it waits for the next dispatch. With callbacks that only
move and remove timers, a millisecond between any two firings of a timer then bounds the dispatches
until nothing of the clock is pending.
-/

namespace VirtualClock

section firings

variable {c : Nat}

theorem Event.clock?_of_fires? {e : Event} {h : TimerHandle} (fires : e.fires? c = some h) :
    e.clock? = some c := by
  obtain ⟨now, rfl⟩ := fires?_eq_some_iff.mp fires
  rfl

theorem firings_append (events past : List Event) :
    firings c (events ++ past) = firings c events ++ firings c past :=
  List.filterMap_append

theorem firings_eq_nil {events : List Event} (foreign : ∀ e ∈ events, e.clock? ≠ some c) :
    firings c events = [] := by
  refine List.filterMap_eq_nil_iff.mpr fun e member => ?_
  cases fires : e.fires? c with
  | none => rfl
  | some h => exact absurd (Event.clock?_of_fires? fires) (foreign e member)

theorem filterMap_filter_clock? {α : Type} {f : Event → Option α}
    (about : ∀ e a, f e = some a → e.clock? = some c) (history : List Event) :
    (history.filter (·.clock? = some c)).filterMap f = history.filterMap f := by
  rw [List.filterMap_filter]
  refine List.filterMap_congr fun e _ => ?_
  split
  · rfl
  · next other =>
    cases tells : f e with
    | none => rfl
    | some a => exact absurd (about e a tells) (by simpa using other)

theorem firings_filter (history : List Event) :
    firings c (history.filter (·.clock? = some c)) = firings c history :=
  filterMap_filter_clock? (fun _ _ fires => Event.clock?_of_fires? fires) history

end firings

namespace Moment

variable {m m' : Moment} {c : Nat} {own : String → Prop} {before : List TimerHandle}
  {tasks : List Task}

/-- The loop still has work of clock `c` to do. -/
def Pending (c : Nat) (m : Moment) : Prop :=
  ∃ k, m.world.clock? c = some k ∧ k.hasPendingDispatch = true

/-- The task of clock `c` that is taken up next, if one is. -/
def ownTask? (m : Moment) (c : Nat) : Option Task := m.task?.filter (·.owner? = some c)

/-- The tasks of clock `c` that are taken up on the way from one moment of a dispatch to a later
one. -/
inductive Takes (c : Nat) (m : Moment) : List Task → Moment → Prop where
  | refl : Takes c m [] m
  | tail {tasks : List Task} {m' : Moment} : Takes c m tasks m' →
    Takes c m (tasks ++ (m'.ownTask? c).toList) m'.proceed

theorem Proceeds.exists_takes (onward : m.Proceeds m') (c : Nat) :
    ∃ tasks, m.Takes c tasks m' := by
  induction onward with
  | refl => exact ⟨[], .refl⟩
  | tail _ last ih =>
    subst last
    obtain ⟨tasks, takes⟩ := ih
    exact ⟨_, takes.tail⟩

theorem ownTask?_of_batch {i : Idle} {rest : List Idle} (stage : m.stage = .draining)
    (batch : m.world.loop.batch = i :: rest) (mine : i.isOf c = true) :
    m.ownTask? c = some i.task := by
  simp [ownTask?, task?_of_batch stage batch, Idle.isOf_iff.mp mine]

theorem ownTask?_eq_none (foreign : m.stage = .draining → ∀ i rest,
    m.world.loop.batch = i :: rest → i.isOf c = false) : m.ownTask? c = none := by
  cases next : m.task? with
  | none => simp [ownTask?, next]
  | some task =>
    obtain ⟨stage, ticket, rest, batch⟩ := batch_of_task? next
    have other := foreign stage _ _ batch
    simpa [ownTask?, next, Idle.isOf] using other

theorem Untouched.firings (untouched : Untouched c m m') :
    firings c m'.history = firings c m.history := by
  obtain ⟨events, split, foreign⟩ := untouched.history
  rw [split, firings_append, firings_eq_nil foreign, List.nil_append]

/-- How far a dispatch has come with the work of clock `c`, and which tasks it has taken up of it;
`before` are the firings before the dispatch. -/
inductive Stint (c : Nat) (before : List TimerHandle) (m : Moment) : List Task → Prop where
  | waiting :
    m.stage ≠ .rest → m.Outside c →
    (m.stage.hasBatch = true → m.world.loop.queue.filter (·.isOf c) = []) →
    m.world.loop.idlesOf c ≠ [] → firings c m.history = before → Stint c before m []
  | calling {g : TimerHandle} {now : Duration} {ops : List Op} :
    m.stage = .running (.timer c g now) ops → firings c m.history = g :: before →
    Stint c before m [.timer c g]
  | through {task : Task} :
    task.owner? = some c → m.stage.hasBatch = true ∨ m.stage = .rest → m.Outside c →
    m.world.loop.batch.filter (·.isOf c) = [] →
    firings c m.history = task.handle?.toList ++ before → Stint c before m [task]

namespace Stint

variable {r : Registry} {f : FakeTime}

theorem of_task (found : m.world.clock? c = some ⟨some r, .fake f⟩)
    (outside : m.Outside c) (same : firings c m.history = before) (stage : m.stage = .draining)
    {i : Idle} {rest : List Idle} (batch : m.world.loop.batch = i :: rest)
    (mine : i.isOf c = true) (next : m.Progress m') : Stint c before m' [i.task] := by
  cases next with
  | resting stage' | takes stage' | skips _ stage' | misses stage' | expires _ stage'
  | returns stage' | reschedules stage' | executes _ stage' => cases stage.symm.trans stage'
  | drained _ batch' => cases batch.symm.trans batch'
  | user _ _ batch' =>
    cases batch.symm.trans batch'
    cases mine
  | orphan _ batch' mine' gone =>
    cases batch.symm.trans batch'
    rw [Idle.isOf_iff] at mine mine'
    cases mine.symm.trans mine'
    cases found.symm.trans gone
  | @fires ticket d g _ _ _ now _ _ _ _ batch' =>
    cases batch.symm.trans batch'
    cases Idle.isOf_iff.mp mine
    have fires : (Event.fire c g (some now)).fires? c = some g := if_pos rfl
    exact .calling rfl ((List.filterMap_cons_some fires).trans (congrArg _ same))
  | applies _ batch' _ _ _ _ nothing =>
    cases batch.symm.trans batch'
    cases Idle.isOf_iff.mp mine
    rw [EventLoop.idlesOf_eq, List.append_eq_nil_iff] at nothing
    exact .through rfl (.inl (stage ▸ rfl)) outside nothing.1 same

/-- Up to its first task the clock stays pending, so that task comes before the dispatch is over. -/
theorem of_waiting (h : m.Coherent) (h' : m'.Coherent) (confined : m.Confined c own)
    (found : m.world.clock? c = some ⟨some r, .fake f⟩) (awake : m.stage ≠ .rest)
    (outside : m.Outside c)
    (queue : m.stage.hasBatch = true → m.world.loop.queue.filter (·.isOf c) = [])
    (busy : m.world.loop.idlesOf c ≠ []) (same : firings c m.history = before)
    (next : m.Progress m') : Stint c before m' (m.ownTask? c).toList := by
  by_cases task : m.stage = .draining → ∀ i rest, m.world.loop.batch = i :: rest →
      i.isOf c = false
  · have untouched := next.untouched h found rfl (confined.elsewhere outside task)
    have found' := untouched.clock.trans found
    have idles : m'.world.loop.idlesOf c = m.world.loop.idlesOf c := by
      obtain ⟨_, linked⟩ := (h.world.clocks c _ found).fake rfl
      obtain ⟨_, linked'⟩ := (h'.world.clocks c _ found').fake rfl
      rw [linked, linked']
    rw [ownTask?_eq_none task]
    apply Stint.waiting
    · intro ended
      rcases next.drained_of_rest ended with rest | ⟨stage, drained⟩
      · exact awake rest
      · apply busy
        rw [EventLoop.idlesOf_eq, drained, queue (stage ▸ rfl)]
        rfl
    · exact untouched.outside outside
    · intro batch
      rcases next.hasBatch batch with taken | batch
      · rw [next.queue_eq_nil taken]
        rfl
      · have early : m.stage ≠ .expiring [] := by
          intro at_
          rw [at_] at batch
          cases batch
        exact (untouched.loop early).queue.trans (queue batch)
    · exact idles ▸ busy
    · exact untouched.firings.trans same
  · simp only [not_forall, Bool.not_eq_false] at task
    obtain ⟨stage, i, rest, batch, mine⟩ := task
    rw [ownTask?_of_batch stage batch mine]
    exact of_task found outside same stage batch mine next

/-- The callback, and what the clock queues after it. -/
theorem of_calling (h : m.Coherent) (found : m.world.clock? c = some ⟨some r, .fake f⟩)
    {g : TimerHandle} {now : Duration} {ops : List Op}
    (stage : m.stage = .running (.timer c g now) ops) (same : firings c m.history = g :: before)
    (next : m.Progress m') : Stint c before m' [.timer c g] := by
  cases next with
  | resting stage' | takes stage' | skips _ stage' | misses stage' | expires _ stage'
  | drained stage' | orphan stage' | user _ stage' | fires _ stage' | applies stage' =>
    cases stage.symm.trans stage'
  | returns stage' gone =>
    cases stage.symm.trans stage'
    cases found.symm.trans (gone _ _ _ rfl)
  | executes _ stage' =>
    cases stage.symm.trans stage'
    exact .calling rfl same
  | reschedules stage' found' =>
    cases stage.symm.trans stage'
    cases found.symm.trans found'
    obtain ⟨coherent, linked⟩ := (h.world.clocks c _ found).fake rfl
    refine .through rfl (.inl rfl) (fun _ _ _ => nofun) ?_ same
    change (f.schedule c f.target m.world.loop).2.batch.filter _ = []
    rw [FakeTime.loop_schedule h.world.ticketed linked coherent.sorted coherent.covered]
    exact EventLoop.batch_without_isOf ..

theorem of_through (h : m.Coherent) (confined : m.Confined c own)
    (found : m.world.clock? c = some ⟨some r, .fake f⟩) {task : Task}
    (mine : task.owner? = some c) (late : m.stage.hasBatch = true ∨ m.stage = .rest)
    (outside : m.Outside c) (quiet : m.world.loop.batch.filter (·.isOf c) = [])
    (same : firings c m.history = task.handle?.toList ++ before) (next : m.Progress m') :
    Stint c before m' ([task] ++ (m.ownTask? c).toList) := by
  have foreign : m.stage = .draining → ∀ i rest, m.world.loop.batch = i :: rest →
      i.isOf c = false := by
    intro _ i rest batch
    rw [batch] at quiet
    simpa using List.filter_eq_nil_iff.mp quiet i List.mem_cons_self
  have untouched := next.untouched h found rfl (confined.elsewhere outside foreign)
  have early : m.stage ≠ .expiring [] := by
    intro at_
    rw [at_] at late
    rcases late with batch | rest
    · cases batch
    · cases rest
  have late' : m'.stage.hasBatch = true ∨ m'.stage = .rest := by
    rcases late with batch | rest
    · exact next.hasBatch_or_rest batch
    · exact .inr (next.eq_of_rest rest ▸ rest)
  rw [ownTask?_eq_none foreign]
  exact .through mine late' (untouched.outside outside) ((untouched.loop early).batch.trans quiet)
    (untouched.firings.trans same)

theorem progress (stint : Stint c before m tasks) (h : m.Coherent) (confined : m.Confined c own)
    (found : m.world.clock? c = some ⟨some r, .fake f⟩) (next : m.Progress m') :
    Stint c before m' (tasks ++ (m.ownTask? c).toList) := by
  cases stint with
  | waiting awake outside queue busy same =>
    exact of_waiting h (h.progress next) confined found awake outside queue busy same next
  | calling stage same =>
    have foreign : m.ownTask? c = none := ownTask?_eq_none fun at_ => by cases stage.symm.trans at_
    rw [foreign]
    exact of_calling h found stage same next
  | through mine late outside quiet same =>
    exact of_through h confined found mine late outside quiet same next

end Stint

end Moment

namespace Simulator

variable {s : Simulator} {m m' : Moment} {own : String → Prop} {base : List Event}

theorem Phase.exists_mirrors (phase : Phase own base s m) :
    ∃ s' : Simulator, s'.clock = s.clock ∧ s'.Mirrors own base m := by
  cases phase with
  | before mirrors => exact ⟨s, rfl, mirrors⟩
  | during mirrors same => exact ⟨_, same, mirrors⟩
  | after mirrors | done mirrors => exact ⟨s.step, s.clock_step, mirrors⟩

/-- A dispatch that starts while the clock is pending, step by step. -/
theorem Mirrors.stint (mirrors : s.Mirrors own base m) (h : m.Coherent) (rest : m.stage = .rest)
    (pending : s.target ≠ none) {tasks : List Task} (takes : m.turn.Takes s.clock tasks m') :
    Phase own base s m' ∧ m'.Coherent ∧
      Moment.Stint s.clock (firings s.clock m.history) m' tasks := by
  induction takes with
  | refl =>
    obtain ⟨f, found, agrees⟩ := mirrors.reflects.clock
    obtain ⟨_, linked⟩ := (h.world.clocks _ _ found).fake rfl
    have mirrors' : s.Mirrors own base m.turn :=
      ⟨mirrors.reflects, mirrors.history, mirrors.confined.world, nofun⟩
    refine ⟨.before mirrors' nofun (fun _ _ _ => nofun) nofun, h.step (.turn rest),
      .waiting nofun (fun _ _ _ => nofun) nofun ?_ rfl⟩
    intro idle
    apply pending
    change m.world.loop.idlesOf s.clock = [] at idle
    rw [agrees.target, FakeTime.final_of_idles_eq_nil (linked.symm.trans idle)]
    rfl
  | tail _ ih =>
    obtain ⟨phase, coherent, stint⟩ := ih
    obtain ⟨s', same, mirrors'⟩ := phase.exists_mirrors
    obtain ⟨f', found', _⟩ := mirrors'.reflects.clock
    have next := Moment.progress_proceed coherent
    exact ⟨phase.progress coherent next, coherent.progress next,
      stint.progress coherent (same ▸ mirrors'.confined) (same ▸ found') next⟩

theorem Mirrors.takes (mirrors : s.Mirrors own base m) (h : m.Coherent) (rest : m.stage = .rest)
    (pending : s.target ≠ none) {tasks : List Task} (takes : m.turn.Takes s.clock tasks m')
    (rest' : m'.stage = .rest) :
    ∃ task, tasks = [task] ∧ task.owner? = some s.clock ∧
      firings s.clock m'.history = task.handle?.toList ++ firings s.clock m.history := by
  obtain ⟨_, _, stint⟩ := mirrors.stint h rest pending takes
  cases stint with
  | waiting awake => exact absurd rest' awake
  | calling stage => cases rest'.symm.trans stage
  | through mine _ _ _ same => exact ⟨_, rfl, mine, same⟩

variable {c : Nat}

theorem Tracks.pending_of_target (tracks : s.Tracks c own base m) (target : s.target ≠ none) :
    m.Pending c := by
  have unsettled := mt tracks.settled_iff.mp target
  obtain ⟨mirrors, rfl, _, _⟩ := tracks
  obtain ⟨f, found, _⟩ := mirrors.reflects.clock
  refine ⟨_, found, ?_⟩
  apply Bool.eq_true_of_not_eq_false
  intro settled
  exact unsettled ⟨_, found, settled⟩

theorem Tracks.exists_takes (tracks : s.Tracks c own base m) (target : s.target ≠ none)
    {m₂ : Moment} (dispatch : m.turn.Proceeds m₂) (rest : m₂.stage = .rest) :
    ∃ task, m.turn.Takes c [task] m₂ ∧ task.owner? = some c ∧
      firings c m₂.history = task.handle?.toList ++ firings c m.history := by
  obtain ⟨mirrors, rfl, h, rest₁⟩ := tracks
  obtain ⟨tasks, takes⟩ := dispatch.exists_takes s.clock
  obtain ⟨task, rfl, mine, fires⟩ := mirrors.takes h rest₁ target takes rest
  exact ⟨task, takes, mine, fires⟩

theorem Tracks.filterMap_history (tracks : s.Tracks c own base m) {α : Type} {f : Event → Option α}
    (about : ∀ e a, f e = some a → e.clock? = some c) :
    m.history.filterMap f = s.events.filterMap f ++ base.filterMap f := by
  rw [← filterMap_filter_clock? about, tracks.history, List.filterMap_append]

theorem Tracks.firings_eq (tracks : s.Tracks c own base m) :
    firings c m.history = s.fired ++ firings c base := by
  obtain ⟨mirrors, rfl, h, rest⟩ := tracks
  exact Tracks.filterMap_history ⟨mirrors, rfl, h, rest⟩ fun _ _ fires =>
    Event.clock?_of_fires? fires

theorem Tracks.paced {r : Registry} {f : FakeTime} {names : List (String × TimerHandle)}
    {history : List Event} (tracks : (ofClock c r f names history).Tracks c own base m)
    (found : m.world.clock? c = some ⟨some r, .fake f⟩) {x : FinalTime}
    (pending : f.final = some x) (adjusts : r.Runs Op.Adjusts) :
    (ofClock c r f names history).Paced f.now x.target r.handles := by
  obtain ⟨f', found', agrees⟩ := tracks.mirrors.reflects.clock
  cases found.symm.trans found'
  obtain ⟨coherent, _⟩ := (tracks.coherent.world.clocks c _ found).fake rfl
  have onward : ∀ h a, (ofClock c r f names history).arming h = some a → f.now ≤ a.trigger :=
    fun h a live => coherent.now_le_trigger h a.trigger (agrees.ranked.armed live)
  refine ⟨congrArg (Option.map _) pending, adjusts, Nat.le_refl _,
    coherent.now_le_target x pending, fun _ => id, nofun, fun h _ => onward h, nofun, ?_⟩
  intro h _ a live
  change f.now.nanos + 0 * nanosPerMilli ≤ a.trigger.nanos
  rw [Nat.zero_mul]
  exact onward h a live

end Simulator

namespace Moment

variable {m : Moment} {c : Nat} {own : String → Prop} {r : Registry} {f : FakeTime} {x : FinalTime}

/-- Between two dispatches of a reachable moment take a clock on fake time with a loop and a
pending advance, whose callbacks only move and remove its own timers, while everything else on the
loop stays away from it. There is a number of firings, at most one for each of its timers and each
millisecond up to the target and one more for each timer, such that the clock is settled after one
dispatch more; up to there it is pending, and each dispatch takes up one task of the clock, a
timer's, which then fires, or the final one. -/
theorem settles_within (run : Reachable m) (rest : m.stage = .rest)
    (found : m.world.clock? c = some ⟨some r, .fake f⟩) (pending : f.final = some x)
    (confined : m.world.Confined c own) (adjusts : r.Runs Op.Adjusts) :
    ∃ n, n ≤ r.size * ((x.target.nanos - f.now.nanos) / nanosPerMilli + 1) ∧
      (∃ m' k, m.Turns (n + 1) m' ∧ m'.world.clock? c = some k ∧ k.hasPendingDispatch = false ∧
        (firings c m'.history).length = (firings c m.history).length + n) ∧
      ∀ j ≤ n, ∃ m₁ m₂ task, m.Turns j m₁ ∧ Pending c m₁ ∧ m.Turns (j + 1) m₂ ∧
        m₁.turn.Takes c [task] m₂ ∧ task.owner? = some c ∧
        firings c m₂.history = task.handle?.toList ++ firings c m₁.history := by
  let s := Simulator.ofClock c r f m.world.names m.history
  have tracks : s.Tracks c own _ m := run.tracks rest found confined
  obtain ⟨n, most, awake, settled, count⟩ := (tracks.paced found pending adjusts).exists_settled
  rw [← Registry.size_eq_length_handles] at most
  have count : (s.steps (n + 1)).fired.length = n := count.trans (Nat.zero_add n)
  refine ⟨n, Nat.le_trans (Nat.le_add_left ..) most, ?_, ?_⟩
  · obtain ⟨m', turns, _⟩ := exists_turns rest (n + 1)
    have tracks' := tracks.turns turns
    obtain ⟨k, found', ended⟩ := tracks'.settled_iff.mpr settled
    refine ⟨m', k, turns, found', ended, ?_⟩
    rw [tracks'.firings_eq, List.length_append, count, firings_filter, Nat.add_comm]
  · intro j le
    obtain ⟨m₂, turns, _⟩ := exists_turns rest (j + 1)
    cases turns with
    | @succ _ m₁ _ turns dispatch rest₂ =>
      have tracks₁ := tracks.turns turns
      have target : (s.steps j).target ≠ none := by
        rw [awake j le]
        exact Option.some_ne_none _
      obtain ⟨task, takes, mine, fires⟩ := tracks₁.exists_takes target dispatch rest₂
      exact ⟨m₁, m₂, task, turns, tracks₁.pending_of_target target, turns.succ dispatch rest₂,
        takes, mine, fires⟩

/-- A timer that arms itself anew every 2 ms, with 5 ms to go. -/
theorem settles_within_rearming :
    ∃ m n m' k, Reachable m ∧ m.Pending 0 ∧ n ≤ 6 ∧ m.Turns (n + 1) m' ∧
      m'.world.clock? 0 = some k ∧ k.hasPendingDispatch = false ∧
      (firings 0 m'.history).length = n := by
  have confined : (ofCalls [.new .fake true, .add 0 "tick" [[.update 0 "tick" 2]] true,
      .update 0 "tick" 2, .advance 0 (.ofMillis 5)]).world.Confined 0 fun _ => True := by
    apply confined_ofCalls
    intro op member
    simp only [List.mem_cons, List.not_mem_nil, or_false] at member
    rcases member with rfl | rfl | rfl | rfl
    · exact .inr (.mk nofun nofun nofun)
    · refine .inl (.add true trivial fun ops script op member => ?_)
      cases List.mem_singleton.mp script
      cases List.mem_singleton.mp member
      exact .update 2 trivial
    · exact .inl (.update 2 trivial)
    · exact .inl (.advance _)
  have settles := settles_within (c := 0) (reachable_ofCalls _) rfl rfl rfl confined ?_
  · obtain ⟨n, most, ⟨m', k, turns, found, settled, count⟩, dispatches⟩ := settles
    obtain ⟨m₁, _, _, start, pending, _⟩ := dispatches 0 (Nat.zero_le n)
    cases start
    exact ⟨_, n, m', k, reachable_ofCalls _, pending, most, turns, found, settled,
      count.trans (Nat.zero_add n)⟩
  · intro e member ops fires op script
    cases List.mem_singleton.mp member
    cases List.mem_singleton.mp fires
    cases List.mem_singleton.mp script
    exact .update 0 "tick" 2

end Moment

end VirtualClock
