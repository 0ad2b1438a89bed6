import VirtualClock.Proofs.Isolation.Belonging
import VirtualClock.Proofs.Isolation.Likeness

/-!
A world and its counterpart, in which there is only one of its clocks. The clock looks alike in
both, its names mean the same, and the loop of the counterpart has just the tasks of the clock and
of the idles that act for it. An operation of the clock's side gives the same answer in both worlds
and leaves counterparts; an operation of the other side leaves the counterpart as it is.
-/

namespace VirtualClock

/-- Whether a task is one of clock `c`, or an idle that acts for it. -/
def Task.belongs (c : Nat) (own : Ownership) : Task → Bool
  | timer d _ => d == c
  | finalTime d => d == c
  | idle name ops => own.idle name ops

section Task

variable {c d : Nat} {own : Ownership} {task : Task}

theorem Task.belongs_of_owner? (owner : task.owner? = some d) :
    task.belongs c own = true ↔ d = c := by
  cases task with
  | timer | finalTime =>
    cases owner
    simp [belongs]
  | idle => cases owner

theorem Task.owner?_ne (belongs : task.belongs c own = true) (other : d ≠ c) :
    task.owner? ≠ some d :=
  fun owner => other ((Task.belongs_of_owner? owner).mp belongs)

end Task

namespace World

variable {w w' v : World} {c d : Nat} {own : Ownership} {op : Op} {k k' : Clock}

/-- World `v` has clock `c` of world `w`, the work of its side, and no other work. -/
structure Counterpart (c : Nat) (own : Ownership) (w v : World) : Prop where
  look : (v.clock? c).map (·.look) = (w.clock? c).map (·.look)
  fake : ∀ k, w.clock? c = some k → k.mode = .fake
  created : c < v.clocks.length ↔ c < w.clocks.length
  reserved : c ≤ v.clocks.length
  names : ∀ timer, own.timer timer = true → v.lookup timer = w.lookup timer
  loop : w.loop.Selects (Task.belongs c own) v.loop
  sources : v.loop.sources = []

namespace Counterpart

theorem exists_twin (counterpart : Counterpart c own w v) (h : w.Coherent) (h' : v.Coherent)
    (found : w.clock? c = some k) :
    ∃ k', v.clock? c = some k' ∧ Clock.Twins c w.loop v.loop k k' := by
  have look := counterpart.look
  rw [found] at look
  obtain ⟨k', found', same⟩ := Option.map_eq_some_iff.mp look
  exact ⟨k', found', Clock.twins (h.clocks c k found) (h'.clocks c k' found')
    (counterpart.fake k found) same⟩

theorem gone_iff (counterpart : Counterpart c own w v) : v.clock? c = none ↔ w.clock? c = none := by
  rw [← Option.map_eq_none_iff, counterpart.look, Option.map_eq_none_iff]

theorem clock?_cases (counterpart : Counterpart c own w v) (h : w.Coherent) (h' : v.Coherent) :
    w.clock? c = none ∧ v.clock? c = none ∨ ∃ k k', w.clock? c = some k ∧
      v.clock? c = some k' ∧ Clock.Twins c w.loop v.loop k k' := by
  cases found : w.clock? c with
  | none => exact .inl ⟨rfl, counterpart.gone_iff.mpr found⟩
  | some k =>
    obtain ⟨k', found', twins⟩ := counterpart.exists_twin h h' found
    exact .inr ⟨k, k', rfl, found', twins⟩

theorem of_log (counterpart : Counterpart c own w v) (log log' : List LogEntry) :
    Counterpart c own { w with log } { v with log := log' } :=
  ⟨counterpart.look, counterpart.fake, counterpart.created, counterpart.reserved,
    counterpart.names, counterpart.loop, counterpart.sources⟩

theorem withLoop {l l' : EventLoop} (counterpart : Counterpart c own w v)
    (loop : l.Selects (Task.belongs c own) l') (sources : l'.sources = []) :
    Counterpart c own { w with loop := l } { v with loop := l' } :=
  ⟨counterpart.look, counterpart.fake, counterpart.created, counterpart.reserved,
    counterpart.names, loop, sources⟩

theorem setClock {k₁ k₁' : Clock} {l l' : EventLoop} (counterpart : Counterpart c own w v)
    (found : w.clock? c = some k) (found' : v.clock? c = some k') (look : k₁'.look = k₁.look)
    (fake : k₁.mode = .fake) (loop : l.Selects (Task.belongs c own) l') (sources : l'.sources = [])
    (log log' : List LogEntry) :
    Counterpart c own { w.setClock c k₁ with loop := l, log }
      { v.setClock c k₁' with loop := l', log := log' } where
  look := by
    change ((v.setClock c k₁').clock? c).map _ = ((w.setClock c k₁).clock? c).map _
    rw [clock?_setClock (lt_length_of_clock? found'), clock?_setClock (lt_length_of_clock? found),
      if_pos rfl, if_pos rfl]
    exact congrArg some look
  fake k found'' := by
    change (w.setClock c k₁).clock? c = some k at found''
    rw [clock?_setClock (lt_length_of_clock? found), if_pos rfl] at found''
    exact Option.some.inj found'' ▸ fake
  created := by simpa [World.setClock] using counterpart.created
  reserved := by simpa [World.setClock] using counterpart.reserved
  names := counterpart.names
  loop := loop
  sources := sources

theorem edits {α : Type} {reply reply' : Reply α} (counterpart : Counterpart c own w v)
    (alike : reply.Alike c w.loop v.loop reply') :
    reply.loop.Selects (Task.belongs c own) reply'.loop := by
  obtain ⟨keep, new, edits, edits', mine⟩ := alike.edits
  exact counterpart.loop.edits edits edits' fun t member =>
    (Task.belongs_of_owner? (mine t member)).mpr rfl

theorem accept {α : Type} {reply reply' : Reply α} (counterpart : Counterpart c own w v)
    (found : w.clock? c = some k) (found' : v.clock? c = some k')
    (alike : reply.Alike c w.loop v.loop reply') (frames : reply.Frames k c w.loop)
    (frames' : reply'.Frames k' c v.loop) (same : k'.mode = k.mode)
    (added : List (String × TimerHandle)) :
    Counterpart c own { w.accept c reply with names := added ++ w.names }
      { v.accept c reply' with names := added ++ v.names } := by
  have fake := counterpart.fake k found
  have sources : reply'.loop.sources = [] := by
    refine List.eq_nil_iff_forall_not_mem.mpr fun s member => ?_
    rcases frames'.sources s member with old | ⟨_, real⟩
    · rw [counterpart.sources] at old
      cases old
    · cases fake.symm.trans (same.symm.trans real)
  have after := counterpart.setClock found found' alike.look (frames.mode.trans fake)
    (counterpart.edits alike) sources w.log v.log
  refine ⟨after.look, after.fake, after.created, after.reserved, ?_, after.loop, sources⟩
  intro timer mine
  change (added ++ v.names).lookup timer = (added ++ w.names).lookup timer
  rw [List.lookup_append, List.lookup_append]
  exact congrArg _ (counterpart.names timer mine)

section own

variable (counterpart : Counterpart c own w v) (h : w.Coherent) (h' : v.Coherent)

include counterpart h h' in
theorem ask {question question' : Clock → Answer}
    (same : ∀ k k', Clock.Twins c w.loop v.loop k k' → question' k' = question k) :
    (v.ask c question').1 = (w.ask c question).1 ∧
      Counterpart c own (w.ask c question).2 (v.ask c question').2 := by
  refine ⟨?_, counterpart⟩
  rcases counterpart.clock?_cases h h' with ⟨gone, gone'⟩ | ⟨k, k', found, found', twins⟩
  · simp only [World.ask, gone, gone']
    rfl
  · simp only [World.ask, found, found']
    exact same k k' twins

include counterpart h h' in
theorem onClock {call call' : Clock → Reply Unit}
    (alike : ∀ k k', Clock.Twins c w.loop v.loop k k' →
      (call k).Alike c w.loop v.loop (call' k'))
    (frames : ∀ k, (call k).Frames k c w.loop) (frames' : ∀ k, (call' k).Frames k c v.loop) :
    (v.onClock c call').1 = (w.onClock c call).1 ∧
      Counterpart c own (w.onClock c call).2 (v.onClock c call').2 := by
  rcases counterpart.clock?_cases h h' with ⟨gone, gone'⟩ | ⟨k, k', found, found', twins⟩
  · simp only [World.onClock, gone, gone']
    exact ⟨trivial, counterpart⟩
  · simp only [World.onClock, found, found']
    have replies := alike k k' twins
    exact ⟨congrArg _ replies.result,
      counterpart.accept found found' replies (frames k) (frames' k') twins.mode_eq []⟩

include counterpart h h' in
theorem onTimer {timer : String} (mine : own.timer timer = true)
    {call call' : Clock → TimerHandle → Reply Unit}
    (alike : ∀ g k k', Clock.Twins c w.loop v.loop k k' →
      (call k g).Alike c w.loop v.loop (call' k' g))
    (frames : ∀ k g, (call k g).Frames k c w.loop)
    (frames' : ∀ k g, (call' k g).Frames k c v.loop) :
    (v.onTimer c timer call').1 = (w.onTimer c timer call).1 ∧
      Counterpart c own (w.onTimer c timer call).2 (v.onTimer c timer call').2 := by
  cases known : w.lookup timer with
  | none =>
    have known' := (counterpart.names timer mine).trans known
    rcases counterpart.clock?_cases h h' with ⟨gone, gone'⟩ | ⟨k, k', found, found', twins⟩
    · simp only [World.onTimer, gone, gone']
      exact ⟨trivial, counterpart⟩
    · simp only [World.onTimer, found, found', known, known']
      exact ⟨trivial, counterpart⟩
  | some g =>
    have known' := (counterpart.names timer mine).trans known
    have called := counterpart.onClock h h' (alike g) (fun k => frames k g) (fun k => frames' k g)
    simpa only [World.onTimer, World.onClock, known, known'] using called

include counterpart h h' in
theorem addTimer (callback : Callback) :
    (v.addTimer c callback).1 = (w.addTimer c callback).1 ∧
      Counterpart c own (w.addTimer c callback).2 (v.addTimer c callback).2 := by
  rcases counterpart.clock?_cases h h' with ⟨gone, gone'⟩ | ⟨k, k', found, found', twins⟩
  · simp only [World.addTimer, gone, gone']
    exact ⟨trivial, counterpart⟩
  · have alike := twins.alike_addTimer callback
    have accepted (added : List (String × TimerHandle)) :=
      counterpart.accept found found' alike (k.frames_addTimer c w.loop callback)
        (k'.frames_addTimer c v.loop callback) twins.mode_eq added
    simp only [World.addTimer, found, found', alike.result]
    cases (k.addTimer callback w.loop).result with
    | error why => exact ⟨rfl, accepted []⟩
    | ok g => exact ⟨rfl, accepted [(callback.name, g)]⟩

include counterpart in
theorem newClock (next : w.clocks.length = c) (hasLoop : Bool) :
    v.clocks.length = c ∧
      Counterpart c own (w.newClock .fake hasLoop) (v.newClock .fake hasLoop) := by
  have next' : v.clocks.length = c := by
    have created := counterpart.created
    have reserved := counterpart.reserved
    omega
  refine ⟨next', ?_, ?_, ?_, ?_, counterpart.names, counterpart.loop, counterpart.sources⟩
  · rw [clock?_newClock, clock?_newClock, if_pos next.symm, if_pos next'.symm]
  · intro k found
    rw [clock?_newClock, if_pos next.symm] at found
    cases found
    rfl
  · simp [World.newClock, next, next']
  · simp [World.newClock, next']

include counterpart in
theorem dropClock : Counterpart c own (w.dropClock c) (v.dropClock c) := by
  refine ⟨?_, ?_, ?_, ?_, counterpart.names, counterpart.loop, counterpart.sources⟩
  · rw [clock?_dropClock, clock?_dropClock, if_pos rfl, if_pos rfl]
  · intro k found
    rw [clock?_dropClock, if_pos rfl] at found
    cases found
  · simpa [World.dropClock] using counterpart.created
  · simpa [World.dropClock] using counterpart.reserved

include counterpart h h' in
/-- An operation of the clock's side does the same in both worlds. -/
theorem exec (belongs : op.Belongs c own true)
    (created : op.isNew = true → w.clocks.length = c) :
    (v.exec op).1 = (w.exec op).1 ∧ Counterpart c own (w.exec op).2 (v.exec op).2 := by
  have ticketed := h.ticketed
  have ticketed' := h'.ticketed
  cases op with
  | new mode hasLoop =>
    cases mode with
    | real => exact absurd rfl belongs.ne_real
    | fake =>
      obtain ⟨next', counterpart'⟩ := counterpart.newClock (created rfl) hasLoop
      exact ⟨congrArg Answer.clockNumber (next'.trans (created rfl).symm), counterpart'⟩
  | add d timer fires repeats =>
    obtain rfl := (belongs.clock_iff rfl).mpr rfl
    exact counterpart.addTimer h h' _
  | update d timer delay =>
    obtain rfl := (belongs.clock_iff rfl).mpr rfl
    exact counterpart.onTimer h h' (belongs.timer_eq rfl)
      (fun g k k' twins => twins.alike_updateTimer ticketed ticketed' g delay)
      (fun k g => k.frames_updateTimer d w.loop g delay)
      (fun k g => k.frames_updateTimer d v.loop g delay)
  | remove d timer =>
    obtain rfl := (belongs.clock_iff rfl).mpr rfl
    exact counterpart.onTimer h h' (belongs.timer_eq rfl)
      (fun g k k' twins => twins.alike_removeTimer ticketed ticketed' g)
      (fun k g => k.frames_removeTimer d w.loop g) (fun k g => k.frames_removeTimer d v.loop g)
  | advance d delta =>
    obtain rfl := (belongs.clock_iff rfl).mpr rfl
    exact counterpart.onClock h h'
      (fun k k' twins => twins.alike_advance ticketed ticketed' delta)
      (fun k => k.frames_advance d w.loop delta) (fun k => k.frames_advance d v.loop delta)
  | request d r =>
    obtain rfl := (belongs.clock_iff rfl).mpr rfl
    exact counterpart.onClock h h'
      (fun k k' twins => twins.alike_handleRequest ticketed ticketed' r)
      (fun k => k.frames_handleRequest d w.loop r) (fun k => k.frames_handleRequest d v.loop r)
  | gettime d id =>
    obtain rfl := (belongs.clock_iff rfl).mpr rfl
    refine counterpart.ask h h' fun k k' twins => ?_
    simp only [answerTime, twins.gettime_eq id, twins.mode_eq]
  | mode d =>
    obtain rfl := (belongs.clock_iff rfl).mpr rfl
    exact counterpart.ask h h' fun k k' twins => congrArg _ twins.mode_eq
  | pending d =>
    obtain rfl := (belongs.clock_iff rfl).mpr rfl
    exact counterpart.ask h h' fun k k' twins => congrArg _ twins.hasPendingDispatch_eq
  | describe d =>
    obtain rfl := (belongs.clock_iff rfl).mpr rfl
    exact counterpart.ask h h' fun k k' twins => congrArg _ twins.description_eq
  | destroy d =>
    obtain rfl := (belongs.clock_iff rfl).mpr rfl
    exact counterpart.onClock h h' (fun k k' twins => twins.alike_destroy ticketed ticketed')
      (fun k => k.frames_destroy d w.loop) (fun k => k.frames_destroy d v.loop)
  | drop d =>
    obtain rfl := (belongs.clock_iff rfl).mpr rfl
    rcases counterpart.clock?_cases h h' with ⟨gone, gone'⟩ | ⟨k, k', found, found', twins⟩
    · simp only [World.exec, gone, gone']
      exact ⟨trivial, counterpart⟩
    · simp only [World.exec, found, found']
      exact ⟨trivial, counterpart.dropClock⟩
  | idle name ops =>
    have mine : own.idle name ops = true := belongs.idle_eq
    refine ⟨rfl, counterpart.look, counterpart.fake, counterpart.created, counterpart.reserved,
      counterpart.names, ?_, counterpart.sources⟩
    refine counterpart.loop.edits (EventLoop.edits_enqueueAll w.loop [.idle name ops])
      (EventLoop.edits_enqueueAll v.loop [.idle name ops]) fun t member => ?_
    rw [List.mem_singleton.mp member]
    exact mine

include counterpart h h' in
theorem fakeNow?_eq : v.fakeNow? c = w.fakeNow? c := by
  rcases counterpart.clock?_cases h h' with ⟨gone, gone'⟩ | ⟨k, k', found, found', twins⟩
  · simp only [fakeNow?, fakeTime?, gone, gone']
  · have now (k : Clock) : k.fakeTime?.map (·.now) = k.look.2.map (·.now) := by
      simp [Clock.look, Function.comp_def, FakeTime.look]
    simp only [fakeNow?, fakeTime?, found, found', Option.bind_some, now, twins.look]

include counterpart h h' in
theorem called_eq (belongs : op.Belongs c own true)
    (created : op.isNew = true → w.clocks.length = c) : v.called op = w.called op := by
  have answer := (counterpart.exec h h' belongs created).1
  have now : op.clock?.bind v.fakeNow? = op.clock?.bind w.fakeNow? := by
    cases about : op.clock? with
    | none => rfl
    | some d =>
      obtain rfl := (belongs.clock_iff about).mpr rfl
      exact counterpart.fakeNow?_eq h h'
  have handle : op.timer?.bind v.lookup = op.timer?.bind w.lookup := by
    cases named : op.timer? with
    | none => rfl
    | some timer =>
      apply counterpart.names
      exact belongs.timer_eq (Op.timerName?_of_timer? named)
  simp only [called, answer, now, handle]

end own

section other

theorem of_other (counterpart : Counterpart c own w v) (clock : w'.clock? c = w.clock? c)
    (created : c < w'.clocks.length ↔ c < w.clocks.length)
    (names : ∀ timer, own.timer timer = true → w'.lookup timer = w.lookup timer)
    (loop : w'.loop.Selects (Task.belongs c own) v.loop) : Counterpart c own w' v where
  look := clock ▸ counterpart.look
  fake k found := counterpart.fake k (clock ▸ found)
  created := counterpart.created.trans created.symm
  reserved := counterpart.reserved
  names timer mine := (counterpart.names timer mine).trans (names timer mine).symm
  loop := loop
  sources := counterpart.sources

theorem setClock_other {l' : EventLoop} (counterpart : Counterpart c own w v) (other : d ≠ c)
    (found : w.clock? d = some k) (k' : Clock) (log : List LogEntry)
    (loop : l'.Selects (Task.belongs c own) v.loop) :
    Counterpart c own { w.setClock d k' with loop := l', log } v := by
  refine counterpart.of_other ?_ ?_ (fun _ _ => rfl) loop
  · change (w.setClock d k').clock? c = w.clock? c
    rw [clock?_setClock (lt_length_of_clock? found), if_neg other.symm]
  · simp [World.setClock]

/-- An operation of the other side. -/
theorem executed_other (counterpart : Counterpart c own w v) (h : w.Coherent)
    (executed : Executed w op w') (belongs : op.Belongs c own false)
    (created : op.isNew = true → w.clocks.length ≠ c) : Counterpart c own w' v := by
  have names (timer : String) (mine : own.timer timer = true) :
      w'.lookup timer = w.lookup timer := by
    apply executed.lookup_eq
    intro adds
    have other := belongs.timer_eq (Op.timerName?_of_adds? adds)
    cases mine.symm.trans other
  have foreign {d : Nat} (about : op.clock? = some d) : d ≠ c := fun same =>
    nomatch (belongs.clock_iff about).mp same
  cases executed with
  | still => exact counterpart
  | created mode hasLoop =>
    have next := created rfl
    refine counterpart.of_other ?_ ?_ names counterpart.loop
    · rw [clock?_newClock, if_neg next.symm]
    · simp only [World.newClock, List.length_append, List.length_singleton]
      omega
  | @dropped d =>
    refine counterpart.of_other ?_ ?_ names counterpart.loop
    · rw [clock?_dropClock, if_neg (foreign rfl).symm]
    · simp [World.dropClock]
  | queued name ops =>
    have other : own.idle name ops = false := belongs.idle_eq
    refine counterpart.of_other rfl Iff.rfl names (counterpart.loop.enqueueAll_of_not ?_)
    intro t member
    rw [List.mem_singleton.mp member]
    exact other
  | @called _ d k _ reply added found replies =>
    have other : d ≠ c := foreign replies.clock?
    have kept := replies.kept h.ticketed (h.clocks d k found)
    have loop := counterpart.loop.sameBut kept.loop fun t mine => Task.owner?_ne mine other
    have after := counterpart.setClock_other other found reply.clock w.log loop
    exact ⟨after.look, after.fake, after.created, after.reserved,
      fun timer mine => (counterpart.names timer mine).trans (names timer mine).symm, after.loop,
      after.sources⟩

end other

end Counterpart

end World

end VirtualClock
