import VirtualClock.Proofs.History.Moves
import VirtualClock.Proofs.Isolation.Counterpart

/-!
A dispatch and its shadow. Beside a moment of a run stands one of a run that has only the chosen
clock: its world is the counterpart, and it stands where the other does, except that it leaves out
the callbacks and idles of the other side. Whatever the dispatch does next, its shadow either does
the same or stays as it is.
-/

namespace VirtualClock

/-- Where a dispatch stands once what it is running, and expired sources, are left out. -/
def Stage.bare : Stage → Stage
  | rest => rest
  | expiring _ => expiring []
  | draining => draining
  | running (.source _) _ => expiring []
  | running _ _ => draining

namespace Moment

variable {c : Nat} {own : Ownership} {m m' n n' : Moment}

/-- Where the shadow of a dispatch stands: callbacks and idles of the other side are left out, and
those of the clock's side are run. -/
inductive Alongside (c : Nat) (own : Ownership) (m : Moment) : Stage → Prop where
  | apart :
    (∀ origin ops, m.stage = .running origin ops →
      m.world.Fits c own false ops ∧ ∀ h now, origin ≠ .timer c h now) →
    Alongside c own m m.stage.bare
  | together {origin : Origin} {ops : List Op} :
    m.stage = .running origin ops → origin = .idle ∨ (∃ h now, origin = .timer c h now) →
    m.world.Fits c own true ops → Alongside c own m (.running origin ops)

/-- Moment `n` is the shadow of moment `m`. -/
structure Shadows (c : Nat) (own : Ownership) (m n : Moment) : Prop where
  world : World.Counterpart c own m.world n.world
  scripted : m.world.Scripted (Op.Calls c own) (Op.Serves c own)
  stage : Alongside c own m n.stage
  history : n.history = m.history.filter (·.belongs c own)

/-- An idle that is taken up next creates clock `c` only if it acts for it. -/
def Disciplined (c : Nat) (own : Ownership) (m : Moment) : Prop :=
  ∀ name ops, m.task? = some (.idle name ops) →
    ∀ number ∈ m.world.made ops, (number = c ↔ own.idle name ops = true)

section next

variable {ticket : Ticket} {rest : List Idle} {k : Clock}

theorem Progress.exists_fires (next : n.Progress n') (stage : n.stage = .draining)
    {g : TimerHandle} (batch : n.world.loop.batch = ⟨ticket, .timer c g⟩ :: rest)
    (found : n.world.clock? c = some k) :
    ∃ r f d e log, k = ⟨some r, .fake f⟩ ∧ f.timers.First g d ∧ r.find? g = some e ∧
      n' =
        { world :=
            { n.world.setClock c ⟨some (r.markFired g), .fake (f.fired g d)⟩ with
              loop := n.world.loop.withBatch rest
              log }
          stage := .running (.timer c g d) e.callback.ops
          history := .fire c g (some d) :: n.history } := by
  cases next with
  | resting stage' | takes stage' | skips _ stage' | misses stage' | expires _ stage'
  | returns stage' | reschedules stage' | executes _ stage' => cases stage.symm.trans stage'
  | drained _ batch' | user _ _ batch' | applies _ batch' => cases batch.symm.trans batch'
  | orphan _ batch' mine gone =>
    cases batch.symm.trans batch'
    cases Idle.isOf_iff.mp mine
    cases found.symm.trans gone
  | fires log _ batch' found' _ _ first entry =>
    cases batch.symm.trans batch'
    cases found.symm.trans found'
    exact ⟨_, _, _, _, log, rfl, first, entry, rfl⟩

theorem Progress.exists_applies (next : n.Progress n') (stage : n.stage = .draining)
    (batch : n.world.loop.batch = ⟨ticket, .finalTime c⟩ :: rest)
    (found : n.world.clock? c = some k) :
    ∃ r f x, k = ⟨some r, .fake f⟩ ∧ f.final = some x ∧
      n' =
        { n with
          world :=
            { n.world.setClock c ⟨some r, .fake (f.arrived x.target)⟩ with
              loop := n.world.loop.withBatch rest } } := by
  cases next with
  | resting stage' | takes stage' | skips _ stage' | misses stage' | expires _ stage'
  | returns stage' | reschedules stage' | executes _ stage' => cases stage.symm.trans stage'
  | drained _ batch' | user _ _ batch' | fires _ _ batch' => cases batch.symm.trans batch'
  | orphan _ batch' mine gone =>
    cases batch.symm.trans batch'
    cases Idle.isOf_iff.mp mine
    cases found.symm.trans gone
  | applies _ batch' found' final =>
    cases batch.symm.trans batch'
    cases found.symm.trans found'
    exact ⟨_, _, _, rfl, final, rfl⟩

theorem Progress.exists_user (next : n.Progress n') (stage : n.stage = .draining) {name : String}
    {ops : List Op} (batch : n.world.loop.batch = ⟨ticket, .idle name ops⟩ :: rest) :
    ∃ log, n' =
      { n with
        world := { n.world with loop := n.world.loop.withBatch rest, log }
        stage := .running .idle ops } := by
  cases next with
  | resting stage' | takes stage' | skips _ stage' | misses stage' | expires _ stage'
  | returns stage' | reschedules stage' | executes _ stage' => cases stage.symm.trans stage'
  | drained _ batch' | fires _ _ batch' | applies _ batch' => cases batch.symm.trans batch'
  | orphan _ batch' mine =>
    cases batch.symm.trans batch'
    cases mine
  | user log _ batch' =>
    cases batch.symm.trans batch'
    exact ⟨log, rfl⟩

end next

namespace Alongside

variable {stage : Stage}

theorem eq_bare (alongside : Alongside c own m stage)
    (idle : ∀ origin ops, m.stage ≠ .running origin ops) : stage = m.stage.bare := by
  cases alongside with
  | apart => rfl
  | together at_ => exact absurd at_ (idle _ _)

/-- In a callback or an idle the shadow is either out of it, or in it as well. -/
theorem of_running (alongside : Alongside c own m stage) {origin : Origin} {ops : List Op}
    (running : m.stage = .running origin ops) :
    stage = m.stage.bare ∧ m.world.Fits c own false ops ∧ (∀ h now, origin ≠ .timer c h now) ∨
      stage = m.stage ∧ m.world.Fits c own true ops ∧
        (origin = .idle ∨ ∃ h now, origin = .timer c h now) := by
  cases alongside with
  | apart other => exact .inl ⟨rfl, other origin ops running⟩
  | together at_ which fits =>
    cases running.symm.trans at_
    exact .inr ⟨running.symm, fits, which⟩

theorem of_other {origin : Origin} {ops : List Op} (running : m.stage = .running origin ops)
    (bare : stage = m.stage.bare) (fits : m.world.Fits c own false ops)
    (outside : ∀ h now, origin ≠ .timer c h now) : Alongside c own m stage := by
  rw [bare]
  refine .apart fun origin ops at_ => ?_
  cases running.symm.trans at_
  exact ⟨fits, outside⟩

theorem of_idle (idle : ∀ origin ops, m.stage ≠ .running origin ops) (bare : stage = m.stage.bare) :
    Alongside c own m stage :=
  bare ▸ .apart fun origin ops at_ => absurd at_ (idle origin ops)

end Alongside

namespace Shadows

variable {ticket : Ticket} {rest : List Idle} {origin : Origin}

theorem stage_eq (shadows : Shadows c own m n)
    (idle : ∀ origin ops, m.stage ≠ .running origin ops) : n.stage = m.stage.bare :=
  shadows.stage.eq_bare idle

theorem draining (shadows : Shadows c own m n) (stage : m.stage = .draining) :
    n.stage = .draining := by
  rw [shadows.stage_eq (by rw [stage]; rintro _ _ ⟨⟩), stage]
  rfl

theorem fits_of_batch (shadows : Shadows c own m n) (disciplined : m.Disciplined c own)
    (stage : m.stage = .draining) {name : String} {ops : List Op}
    (batch : m.world.loop.batch = ⟨ticket, .idle name ops⟩ :: rest) :
    m.world.Fits c own (own.idle name ops) ops := by
  have queued : (⟨ticket, .idle name ops⟩ : Idle) ∈ m.world.loop.live := by
    simp [EventLoop.live, batch]
  exact ⟨shadows.scripted.idles _ queued name ops rfl,
    disciplined name ops (task?_of_batch stage batch)⟩

section own

variable (shadows : Shadows c own m n) (h : m.Coherent) (h' : n.Coherent)
  (scripted : m.proceed.world.Scripted (Op.Calls c own) (Op.Serves c own))

include shadows h h' scripted

theorem fires (stage : m.stage = .draining) {g : TimerHandle}
    (batch : m.world.loop.batch = ⟨ticket, .timer c g⟩ :: rest) {k : Clock}
    (found : m.world.clock? c = some k) :
    Shadows c own m.proceed n.proceed := by
  have stage' := shadows.draining stage
  obtain ⟨ticket', rest', batch', loop⟩ := shadows.world.loop.exists_next batch
    ((Task.belongs_of_owner? rfl).mpr rfl)
  obtain ⟨k', found', twins⟩ := shadows.world.exists_twin h.world h'.world found
  obtain ⟨r, f, d, e, log, rfl, first, entry, next⟩ :=
    (progress_proceed h).exists_fires stage batch found
  obtain ⟨r', f', d', e', log', rfl, first', entry', next'⟩ :=
    (progress_proceed h').exists_fires stage' batch' found'
  cases twins with
  | looped _ coherent _ _ _ same =>
    cases FakeTime.first_eq_of_look first coherent first' same
    cases entry.symm.trans entry'
    have runs := (shadows.scripted.clocks c _ found r rfl).ops entry
    have look : (⟨some (r.markFired g), .fake (f'.fired g d)⟩ : Clock).look =
        (⟨some (r.markFired g), .fake (f.fired g d)⟩ : Clock).look := by
      simp [Clock.look, Clock.fakeTime?, FakeTime.look_fired coherent same first]
    have world := shadows.world.setClock found found' look rfl loop shadows.world.sources log log'
    rw [next] at scripted ⊢
    rw [next']
    refine ⟨world, scripted, ?_, ?_⟩
    · have fits := World.Fits.of_calls (w := m.world) runs
      rw [beq_self_eq_true] at fits
      exact .together rfl (.inr ⟨g, d, rfl⟩) (fits.of_length (by simp [World.setClock]))
    · rw [List.filter_cons_of_pos (by simp [Event.belongs]), shadows.history]

theorem applies (stage : m.stage = .draining)
    (batch : m.world.loop.batch = ⟨ticket, .finalTime c⟩ :: rest) {k : Clock}
    (found : m.world.clock? c = some k) :
    Shadows c own m.proceed n.proceed := by
  have stage' := shadows.draining stage
  obtain ⟨ticket', rest', batch', loop⟩ := shadows.world.loop.exists_next batch
    ((Task.belongs_of_owner? rfl).mpr rfl)
  obtain ⟨k', found', twins⟩ := shadows.world.exists_twin h.world h'.world found
  obtain ⟨r, f, x, rfl, final, next⟩ := (progress_proceed h).exists_applies stage batch found
  obtain ⟨r', f', x', rfl, final', next'⟩ :=
    (progress_proceed h').exists_applies stage' batch' found'
  cases twins with
  | looped _ _ _ _ _ same =>
    have target : x'.target = x.target := by
      simpa [FakeTime.look, final, final'] using congrArg FakeTime.Look.target same
    have alarms : f'.timers.alarms = f.timers.alarms := congrArg FakeTime.Look.alarms same
    have look : (⟨some r, .fake (f'.arrived x'.target)⟩ : Clock).look =
        (⟨some r, .fake (f.arrived x.target)⟩ : Clock).look := by
      simp [Clock.look, Clock.fakeTime?, FakeTime.look, FakeTime.arrived, target, alarms]
    have world := shadows.world.setClock found found' look rfl loop shadows.world.sources
      m.world.log n.world.log
    rw [next] at scripted ⊢
    rw [next']
    exact ⟨world, scripted, .of_idle (by simp [stage]) (by simp [stage, stage', Stage.bare]),
      shadows.history⟩

theorem reschedules {g : TimerHandle} {now : Duration}
    (stage : m.stage = .running (.timer c g now) [])
    (stage' : n.stage = .running (.timer c g now) []) {k : Clock}
    (found : m.world.clock? c = some k) :
    Shadows c own m.proceed n.proceed := by
  obtain ⟨k', found', twins⟩ := shadows.world.exists_twin h.world h'.world found
  have looped := (h.looped c g now [] stage).2 k found
  have ends {m : Moment} (stage : m.stage = .running (.timer c g now) []) :
      m.proceed = { m with world := m.world.reschedule c, stage := .draining } := by
    simp only [proceed, stage]
    rfl
  rw [ends stage] at scripted ⊢
  rw [ends stage']
  refine ⟨?_, scripted, .of_idle (by rintro _ _ ⟨⟩) rfl, shadows.history⟩
  cases twins with
  | unlooped => cases looped.2
  | @looped r f f' _ coherent coherent' linked linked' same =>
    have alike := FakeTime.alike_reschedule (r := r) h.world.ticketed h'.world.ticketed coherent
      coherent' linked linked' same
    have sources : (f'.reschedule c n.world.loop).2.sources = [] :=
      (f'.rearranged_schedule c f'.target n.world.loop).sources.trans shadows.world.sources
    have world := shadows.world.setClock found found' alike.look rfl (shadows.world.edits alike)
      sources m.world.log n.world.log
    simp only [World.reschedule, found, found']
    exact world

theorem executes {op : Op} {ops : List Op}
    (stage : m.stage = .running origin (op :: ops)) (stage' : n.stage = m.stage)
    (fits : m.world.Fits c own true (op :: ops))
    (which : origin = .idle ∨ ∃ h now, origin = .timer c h now) :
    Shadows c own m.proceed n.proceed := by
  have created (new : op.isNew = true) : m.world.clocks.length = c :=
    (fits.created new).mpr rfl
  have world := (shadows.world.exec h.world h'.world fits.head created).2
  have called := shadows.world.called_eq h.world h'.world fits.head created
  have runs {m : Moment} (stage : m.stage = .running origin (op :: ops)) : m.proceed =
      ⟨m.world.execLogged op, .running origin ops, m.world.called op :: m.history⟩ := by
    simp only [proceed, stage]
  rw [runs stage] at scripted ⊢
  rw [runs (stage'.trans stage), called]
  refine ⟨world.of_log _ _, scripted, .together rfl which (fits.tail.of_length rfl), ?_⟩
  rw [List.filter_cons_of_pos fits.belongs_called, shadows.history]

/-- A task of the clock that is gone is taken up, in both runs. -/
theorem orphan (stage : m.stage = .draining) {i : Idle} (batch : m.world.loop.batch = i :: rest)
    (mine : i.task.owner? = some c) (gone : m.world.clock? c = none) :
    Shadows c own m.proceed n.proceed := by
  have stage' := shadows.draining stage
  obtain ⟨ticket', rest', batch', loop⟩ := shadows.world.loop.exists_next batch
    ((Task.belongs_of_owner? mine).mpr rfl)
  have next := (progress_proceed h).eq_of_gone stage batch mine gone
  have gone' := shadows.world.gone_iff.mpr gone
  have next' := (progress_proceed h').eq_of_gone stage' batch' mine gone'
  rw [next] at scripted ⊢
  rw [next']
  exact ⟨shadows.world.withLoop loop shadows.world.sources, scripted,
    .of_idle (by simp [stage]) (by simp [stage, stage', Stage.bare]), shadows.history⟩

/-- An idle that acts for the clock is taken up, in both runs. -/
theorem user (disciplined : m.Disciplined c own) (stage : m.stage = .draining) {name : String}
    {ops : List Op} (batch : m.world.loop.batch = ⟨ticket, .idle name ops⟩ :: rest)
    (mine : own.idle name ops = true) :
    Shadows c own m.proceed n.proceed := by
  obtain ⟨ticket', rest', batch', loop⟩ := shadows.world.loop.exists_next batch mine
  obtain ⟨log, next⟩ := (progress_proceed h).exists_user stage batch
  obtain ⟨log', next'⟩ := (progress_proceed h').exists_user (shadows.draining stage) batch'
  have fits := shadows.fits_of_batch disciplined stage batch
  rw [mine] at fits
  have world := (shadows.world.withLoop loop shadows.world.sources).of_log log log'
  rw [next] at scripted ⊢
  rw [next']
  exact ⟨world, scripted, .together rfl (.inl rfl) (fits.of_length rfl), shadows.history⟩

omit h h' in
theorem takes (stage : m.stage = .expiring []) : Shadows c own m.proceed n.proceed := by
  have taken {m : Moment} (stage : m.stage = .expiring []) : m.proceed =
      { m with world := { m.world with loop := m.world.loop.takeQueue }, stage := .draining } := by
    simp only [proceed, stage]
  have stage' : n.stage = .expiring [] := by
    rw [shadows.stage_eq (by simp [stage]), stage]
    rfl
  rw [taken stage] at scripted ⊢
  rw [taken stage']
  exact ⟨shadows.world.withLoop shadows.world.loop.takeQueue shadows.world.sources, scripted,
    .of_idle (by rintro _ _ ⟨⟩) rfl, shadows.history⟩

omit h h' in
theorem drains (stage : m.stage = .draining) (batch : m.world.loop.batch = []) :
    Shadows c own m.proceed n.proceed := by
  have drained {m : Moment} (stage : m.stage = .draining) (batch : m.world.loop.batch = []) :
      m.proceed = { m with stage := .rest } := by
    simp only [proceed, stage, EventLoop.next?, batch]
  rw [drained stage batch] at scripted ⊢
  rw [drained (shadows.draining stage) (shadows.world.loop.batch_eq_nil batch)]
  exact ⟨shadows.world, scripted, .of_idle (by rintro _ _ ⟨⟩) rfl, shadows.history⟩

/-- A task of the clock's side is taken up, in both runs. -/
theorem task (disciplined : m.Disciplined c own) (stage : m.stage = .draining) {i : Idle}
    (batch : m.world.loop.batch = i :: rest) (mine : i.task.belongs c own = true) :
    Shadows c own m.proceed n.proceed := by
  obtain ⟨ticket, task⟩ := i
  cases task with
  | timer d g =>
    obtain rfl : d = c := by simpa [Task.belongs] using mine
    cases found : m.world.clock? d with
    | none => exact shadows.orphan h h' scripted stage batch rfl found
    | some k => exact shadows.fires h h' scripted stage batch found
  | finalTime d =>
    obtain rfl : d = c := by simpa [Task.belongs] using mine
    cases found : m.world.clock? d with
    | none => exact shadows.orphan h h' scripted stage batch rfl found
    | some k => exact shadows.applies h h' scripted stage batch found
  | idle name ops => exact shadows.user h h' scripted disciplined stage batch mine

theorem returns (stage : m.stage = .running origin []) (stage' : n.stage = m.stage)
    (which : origin = .idle ∨ ∃ h now, origin = .timer c h now) :
    Shadows c own m.proceed n.proceed := by
  have stage' := stage'.trans stage
  have ends {m : Moment} (stage : m.stage = .running origin []) : m.proceed = m.finish origin := by
    simp only [proceed, stage]
  rcases which with rfl | ⟨g, now, rfl⟩
  · rw [ends stage] at scripted ⊢
    rw [ends stage']
    exact ⟨shadows.world, scripted, .of_idle (by rintro _ _ ⟨⟩) rfl, shadows.history⟩
  · cases found : m.world.clock? c with
    | some k => exact shadows.reschedules h h' scripted stage stage' found
    | none =>
      rw [ends stage] at scripted ⊢
      rw [ends stage']
      simp only [finish, World.reschedule, found, shadows.world.gone_iff.mpr found] at scripted ⊢
      exact ⟨shadows.world, scripted, .of_idle (by rintro _ _ ⟨⟩) rfl, shadows.history⟩

end own

theorem enters_other (shadows : Shadows c own m n) {d : Nat} (other : d ≠ c) {k : Clock}
    (found : m.world.clock? d = some k) (k' : Clock) {l' : EventLoop} (log : List LogEntry)
    (g : TimerHandle) (now : Option Duration) {ops : List Op}
    (loop : l'.Selects (Task.belongs c own) n.world.loop) (calls : ∀ op ∈ ops, op.Calls c own d)
    (outside : ∀ h now, origin ≠ .timer c h now)
    (bare : n.stage = (Stage.running origin ops).bare)
    (scripted : ({ m.world.setClock d k' with loop := l', log } : World).Scripted
      (Op.Calls c own) (Op.Serves c own)) :
    Shadows c own
      ⟨{ m.world.setClock d k' with loop := l', log }, .running origin ops,
        .fire d g now :: m.history⟩ n := by
  have fits : m.world.Fits c own false ops := by
    rw [← beq_false_of_ne other]
    exact .of_calls calls
  refine ⟨shadows.world.setClock_other other found _ _ loop, scripted, ?_, ?_⟩
  · exact .of_other rfl bare (fits.of_length (by simp [World.setClock])) outside
  · rw [List.filter_cons_of_neg (by simpa [Event.belongs] using other)]
    exact shadows.history

/-- Nothing of the clock's side comes next: the shadow stays as it is. -/
theorem other (shadows : Shadows c own m n) (h : m.Coherent) (next : m.Progress m')
    (scripted : m'.world.Scripted (Op.Calls c own) (Op.Serves c own))
    (awake : m.stage ≠ .expiring []) (busy : m.stage = .draining → m.world.loop.batch ≠ [])
    (task : ∀ task, m.task? = some task → task.belongs c own = false)
    (disciplined : m.Disciplined c own) (bare : n.stage = m.stage.bare)
    (apart : ∀ origin ops, m.stage = .running origin ops →
      m.world.Fits c own false ops ∧ ∀ h now, origin ≠ .timer c h now) :
    Shadows c own m' n := by
  have real {d : Nat} {k : Clock} (found : m.world.clock? d = some k) (real : k.mode = .real) :
      d ≠ c := by
    rintro rfl
    cases (shadows.world.fake k found).symm.trans real
  have popped {i : Idle} {rest : List Idle} (stage : m.stage = .draining)
      (batch : m.world.loop.batch = i :: rest) :=
    shadows.world.loop.withBatch batch (task _ (task?_of_batch stage batch))
  cases next with
  | resting => exact shadows
  | takes stage => exact absurd stage awake
  | skips loop stage which =>
    have same : loop.Selects (Task.belongs c own) n.world.loop := by
      rcases which with rfl | rfl
      · exact shadows.world.loop
      · exact shadows.world.loop.removeSource _
    exact ⟨shadows.world.of_other rfl Iff.rfl (fun _ _ => rfl) same, scripted,
      .of_idle (by rintro _ _ ⟨⟩) (bare.trans (stage ▸ rfl)), shadows.history⟩
  | @misses s sources k stage found mode =>
    have loop := shadows.world.loop.removeSource s.id
    exact ⟨shadows.world.setClock_other (real found mode) found _ _ loop, scripted,
      .of_other rfl (bare.trans (stage ▸ rfl)) (.nil _)
        (by rintro _ _ ⟨⟩), shadows.history⟩
  | @expires s sources k r e log stage found mode registered entry =>
    have loop := shadows.world.loop.removeSource s.id
    have runs := (shadows.scripted.clocks s.clock k found r registered).setSource s.handle none
    exact shadows.enters_other (real found mode) found _ log s.handle none loop (runs.ops entry)
      (by rintro _ _ ⟨⟩) (bare.trans (stage ▸ rfl)) scripted
  | drained stage batch => exact absurd batch (busy stage)
  | orphan stage batch mine gone =>
    exact ⟨shadows.world.of_other rfl Iff.rfl (fun _ _ => rfl) (popped stage batch), scripted,
      .of_idle (by simp [stage]) bare, shadows.history⟩
  | @user ticket name ops rest log stage batch =>
    have fits := shadows.fits_of_batch disciplined stage batch
    have other : own.idle name ops = false := task _ (task?_of_batch stage batch)
    rw [other] at fits
    exact ⟨shadows.world.of_other rfl Iff.rfl (fun _ _ => rfl) (popped stage batch), scripted,
      .of_other rfl (bare.trans (stage ▸ rfl)) (fits.of_length rfl) (by rintro _ _ ⟨⟩),
      shadows.history⟩
  | @fires ticket d g rest r f now _ e log stage batch found _ _ _ entry =>
    have other : d ≠ c := by
      rintro rfl
      simpa [Task.belongs] using task _ (task?_of_batch stage batch)
    have calls := (shadows.scripted.clocks d _ found r rfl).ops entry
    refine shadows.enters_other other found _ log g (some now) (popped stage batch) calls ?_
      (bare.trans (stage ▸ rfl)) scripted
    rintro _ _ ⟨⟩
    exact other rfl
  | @applies ticket d rest r f x stage batch found =>
    have other : d ≠ c := by
      rintro rfl
      simpa [Task.belongs] using task _ (task?_of_batch stage batch)
    exact ⟨shadows.world.setClock_other other found _ _ (popped stage batch), scripted,
      .of_idle (by simp [stage]) bare, shadows.history⟩
  | @returns origin stage gone =>
    refine ⟨shadows.world, scripted, ?_, shadows.history⟩
    rw [bare, stage]
    cases origin <;> exact .of_idle (by rintro _ _ ⟨⟩) rfl
  | @reschedules d g now r f stage found outcome =>
    have other : d ≠ c := by
      rintro rfl
      exact (apart _ _ stage).2 g now rfl
    have loop := shadows.world.loop.sameBut outcome.sameBut fun t mine => Task.owner?_ne mine other
    exact ⟨shadows.world.setClock_other other found _ _ loop, scripted,
      .of_idle (by rintro _ _ ⟨⟩) (bare.trans (stage ▸ rfl)), shadows.history⟩
  | @executes origin op ops log stage =>
    obtain ⟨fits, outside⟩ := apart _ _ stage
    have created (new : op.isNew = true) (same : m.world.clocks.length = c) : False :=
      Bool.false_ne_true ((fits.created new).mp same)
    have world := shadows.world.executed_other h.world (World.executed_exec m.world op) fits.head
      created
    refine ⟨world.of_log _ _, scripted,
      .of_other rfl (bare.trans ?_) (fits.tail.of_length rfl) outside, ?_⟩
    · rw [stage]
      cases origin <;> rfl
    · rw [List.filter_cons_of_neg (by simp [fits.belongs_called])]
      exact shadows.history

/-- Whatever a dispatch does next, its shadow does the same or stays as it is. -/
theorem proceed (shadows : Shadows c own m n) (h : m.Coherent) (h' : n.Coherent)
    (disciplined : m.Disciplined c own) :
    Shadows c own m.proceed n ∨ Shadows c own m.proceed n.proceed := by
  have next := progress_proceed h
  have scripted := next.scripted h shadows.scripted fun origin op ops stage => by
    rcases shadows.stage.of_running stage with ⟨_, fits, _⟩ | ⟨_, fits, _⟩
    · exact fits.head.leaves
    · exact fits.head.leaves
  have outside (idle : ∀ origin ops, m.stage ≠ .running origin ops) (origin : Origin)
      (ops : List Op) (at_ : m.stage = .running origin ops) :
      m.world.Fits c own false ops ∧ ∀ h now, origin ≠ .timer c h now :=
    absurd at_ (idle origin ops)
  have quiet (early : m.stage ≠ .draining) (task : Task) (taken : m.task? = some task) :
      task.belongs c own = false :=
    absurd (batch_of_task? taken).1 early
  cases stage : m.stage with
  | rest =>
    have idle : ∀ origin ops, m.stage ≠ .running origin ops := by simp [stage]
    exact .inl (shadows.other h next scripted (by simp [stage]) (by simp [stage])
      (quiet (by simp [stage])) disciplined (shadows.stage_eq idle) (outside idle))
  | expiring sources =>
    have idle : ∀ origin ops, m.stage ≠ .running origin ops := by simp [stage]
    cases sources with
    | cons s sources =>
      exact .inl (shadows.other h next scripted (by simp [stage]) (by simp [stage])
        (quiet (by simp [stage])) disciplined (shadows.stage_eq idle) (outside idle))
    | nil => exact .inr (shadows.takes scripted stage)
  | draining =>
    have idle : ∀ origin ops, m.stage ≠ .running origin ops := by simp [stage]
    cases batch : m.world.loop.batch with
    | nil => exact .inr (shadows.drains scripted stage batch)
    | cons i rest =>
      by_cases mine : i.task.belongs c own = true
      · exact .inr (shadows.task h h' scripted disciplined stage batch mine)
      · refine .inl (shadows.other h next scripted (by simp [stage]) (by simp [batch]) ?_
          disciplined (shadows.stage_eq idle) (outside idle))
        intro task next
        cases (task?_of_batch stage batch).symm.trans next
        simpa using mine
  | running origin ops =>
    rcases shadows.stage.of_running stage with ⟨bare, apart⟩ | ⟨together, fits, which⟩
    · refine .inl (shadows.other h next scripted (by simp [stage]) (by simp [stage])
        (quiet (by simp [stage])) disciplined bare ?_)
      intro origin' ops' at_
      cases stage.symm.trans at_
      exact apart
    · cases ops with
      | nil => exact .inr (shadows.returns h h' scripted stage together which)
      | cons op ops => exact .inr (shadows.executes h h' scripted stage together fits which)

end Shadows

end Moment

end VirtualClock
