import VirtualClock.Proofs.World.Coherence

/-!
What a dispatch does next, case by case. In a coherent world a source that is taken up belongs to a
clock on real time, a timer's dispatch finds its timer armed, first in order and registered, and
the final task finds no timer due; tasks of clocks that are gone do nothing.
-/

namespace VirtualClock

/-- Fake time once timer `g` fires, at `d`. -/
def FakeTime.fired (f : FakeTime) (g : TimerHandle) (d : Duration) : FakeTime :=
  { f with now := d, timers := f.timers.setTrigger g none }

/-- Fake time once an advance to `target` is through. -/
def FakeTime.arrived (f : FakeTime) (target : Duration) : FakeTime :=
  { f with now := target, final := none }

/-- Whether the batch has been taken from the queue. -/
def Stage.hasBatch : Stage → Bool
  | draining => true
  | running (.timer ..) _ => true
  | running .idle _ => true
  | _ => false

namespace Moment

/-- The world is coherent, a callback of a timer on fake time runs for a clock that may queue
work, and outside the batch no task waits in it. -/
structure Coherent (m : Moment) : Prop where
  world : m.world.Coherent
  looped : ∀ c h now ops, m.stage = .running (.timer c h now) ops →
    c < m.world.clocks.length ∧
      ∀ k, m.world.clock? c = some k → k.mode = .fake ∧ k.registry.isSome = true
  batch : m.stage.hasBatch = false → m.world.loop.batch = []

variable {m : Moment} {c : Nat} {g : TimerHandle} {r : Registry} {f : FakeTime} {rest : List Idle}

/-- The moments that come next. -/
inductive Progress (m : Moment) : Moment → Prop where
  | resting : m.stage = .rest → Progress m m
  | takes : m.stage = .expiring [] →
    Progress m
      { m with world := { m.world with loop := m.world.loop.takeQueue }, stage := .draining }
  | skips {s : Source} {sources : List Source} (loop : EventLoop) :
    m.stage = .expiring (s :: sources) →
    loop = m.world.loop ∨ loop = m.world.loop.removeSource s.id →
    Progress m { m with world := { m.world with loop }, stage := .expiring sources }
  /-- A source whose timer is not registered. -/
  | misses {s : Source} {sources : List Source} {k : Clock} :
    m.stage = .expiring (s :: sources) →
    m.world.clock? s.clock = some k → k.mode = .real →
    Progress m
      { m with
        world :=
          { m.world.setClock s.clock
              { k with registry := k.registry.map (·.setSource s.handle none) } with
            loop := m.world.loop.removeSource s.id }
        stage := .running (.source sources) [] }
  | expires {s : Source} {sources : List Source} {k : Clock} {r : Registry} {e : Registration}
    (log : List LogEntry) :
    m.stage = .expiring (s :: sources) →
    m.world.clock? s.clock = some k → k.mode = .real → k.registry = some r →
    (r.setSource s.handle none).find? s.handle = some e →
    Progress m
      { world :=
          { m.world.setClock s.clock
              { k with registry := some ((r.setSource s.handle none).markFired s.handle) } with
            loop := m.world.loop.removeSource s.id
            log }
        stage := .running (.source sources) e.callback.ops
        history := .fire s.clock s.handle none :: m.history }
  | drained : m.stage = .draining → m.world.loop.batch = [] → Progress m { m with stage := .rest }
  /-- A task of a clock that is gone. -/
  | orphan {c : Nat} {i : Idle} {rest : List Idle} :
    m.stage = .draining → m.world.loop.batch = i :: rest → i.isOf c = true →
    m.world.clock? c = none →
    Progress m { m with world := { m.world with loop := m.world.loop.withBatch rest } }
  | user {ticket : Ticket} {name : String} {ops : List Op} {rest : List Idle}
    (log : List LogEntry) :
    m.stage = .draining → m.world.loop.batch = ⟨ticket, .idle name ops⟩ :: rest →
    Progress m
      { m with
        world := { m.world with loop := m.world.loop.withBatch rest, log }
        stage := .running .idle ops }
  | fires {ticket : Ticket} {c : Nat} {g : TimerHandle} {rest : List Idle} {r : Registry}
    {f : FakeTime} {d : Duration} {x : FinalTime} {e : Registration} (log : List LogEntry) :
    m.stage = .draining → m.world.loop.batch = ⟨ticket, .timer c g⟩ :: rest →
    m.world.clock? c = some ⟨some r, .fake f⟩ →
    f.final = some x → d ≤ x.target → f.timers.First g d → r.find? g = some e →
    (f.fired g d).Coherent → (m.world.loop.withBatch rest).idlesOf c = (f.fired g d).idles c →
    Progress m
      { world :=
          { m.world.setClock c ⟨some (r.markFired g), .fake (f.fired g d)⟩ with
            loop := m.world.loop.withBatch rest
            log }
        stage := .running (.timer c g d) e.callback.ops
        history := .fire c g (some d) :: m.history }
  | applies {ticket : Ticket} {c : Nat} {rest : List Idle} {r : Registry} {f : FakeTime}
    {x : FinalTime} :
    m.stage = .draining → m.world.loop.batch = ⟨ticket, .finalTime c⟩ :: rest →
    m.world.clock? c = some ⟨some r, .fake f⟩ →
    f.final = some x → (∀ h d, (h, some d) ∈ f.timers.alarms → x.target < d) →
    (f.arrived x.target).Coherent → (m.world.loop.withBatch rest).idlesOf c = [] →
    (f.arrived x.target).idles c = [] →
    Progress m
      { m with
        world :=
          { m.world.setClock c ⟨some r, .fake (f.arrived x.target)⟩ with
            loop := m.world.loop.withBatch rest } }
  | returns {origin : Origin} :
    m.stage = .running origin [] →
    (∀ c g now, origin = .timer c g now → m.world.clock? c = none) →
    Progress m { m with stage := origin.after }
  | reschedules {c : Nat} {g : TimerHandle} {now : Duration} {r : Registry} {f : FakeTime} :
    m.stage = .running (.timer c g now) [] →
    m.world.clock? c = some ⟨some r, .fake f⟩ →
    FakeTime.Outcome c m.world.loop (f.reschedule c m.world.loop).1
      (f.reschedule c m.world.loop).2 →
    Progress m
      { m with
        world :=
          { m.world.setClock c ⟨some r, .fake (f.reschedule c m.world.loop).1⟩ with
            loop := (f.reschedule c m.world.loop).2 }
        stage := .draining }
  | executes {origin : Origin} {op : Op} {ops : List Op} (log : List LogEntry) :
    m.stage = .running origin (op :: ops) →
    Progress m
      { world := { (m.world.exec op).2 with log }
        stage := .running origin ops
        history := m.world.called op :: m.history }

theorem enter_of_find? {k : Clock} {e : Registration} (origin : Origin)
    (found : m.world.clock? c = some k) (registered : k.registry = some r)
    (entry : r.find? g = some e) :
    ∃ log, m.enter c g origin =
      ⟨{ m.world.setClock c { k with registry := some (r.markFired g) } with log },
        .running origin e.callback.ops, .fire c g (k.fakeTime?.map (·.now)) :: m.history⟩ := by
  have fakeNow : m.world.fakeNow? c = k.fakeTime?.map (·.now) := by
    simp [World.fakeNow?, World.fakeTime?, found]
  simp only [enter, World.enter?, found, registered, Option.bind_some, entry, fakeNow,
    Option.map_some]
  exact ⟨_, rfl⟩

theorem enter_of_find?_eq_none {k : Clock} {origin : Origin} (found : m.world.clock? c = some k)
    (unregistered : k.registry.bind (·.find? g) = none) :
    m.enter c g origin = { m with stage := .running origin [] } := by
  simp only [enter, World.enter?, found, unregistered]

theorem progress_fire (h : m.world.Coherent) (draining : m.stage = .draining) {ticket : Ticket}
    (batch : m.world.loop.batch = ⟨ticket, .timer c g⟩ :: rest) : m.Progress m.proceed := by
  have own := Idle.isOf_timer ticket c g
  let popped : World := { m.world with loop := m.world.loop.withBatch rest }
  have next : m.proceed = ({ m with world := popped } : Moment).fire c g := by
    simp only [proceed, draining, EventLoop.next?_eq batch, start]
    rfl
  rcases h.of_next batch own with gone | ⟨r, f, found, numbered, perm, coherent, tickets, idles⟩
  · have absent : popped.clock? c = none := gone
    have orphan : m.proceed = { m with world := popped } := by
      simp only [next, fire, absent, draining]
    exact orphan ▸ .orphan draining batch own gone
  · obtain ⟨d, x, final, d_le, first, fired, coherent', idles'⟩ :=
      FakeTime.fire_of_idles coherent tickets idles
    have registered : g ∈ r.handles := by
      apply perm.mem_iff.mp
      rw [TimerList.handles_eq_map_alarms]
      exact List.mem_map.mpr ⟨_, first.mem, rfl⟩
    obtain ⟨e, entry⟩ := Option.isSome_iff_exists.mp (Registry.find?_isSome_iff.mpr registered)
    let k : Clock := ⟨some r, .fake (f.fired g d)⟩
    have found' : popped.clock? c = some ⟨some r, .fake f⟩ := found
    have moved : (popped.setClock c k).clock? c = some k := by
      rw [World.clock?_setClock (World.lt_length_of_clock? found'), if_pos rfl]
    have enters : m.proceed = ({ m with world := popped.setClock c k } : Moment).enter c g
        (.timer c g d) := by
      simp only [next, fire, found', fired, if_true]
      rfl
    obtain ⟨log, entered⟩ := enter_of_find? (m := { m with world := popped.setClock c k })
      (.timer c g d) moved rfl entry
    have twice : (popped.setClock c k).setClock c ⟨some (r.markFired g), .fake (f.fired g d)⟩ =
        popped.setClock c ⟨some (r.markFired g), .fake (f.fired g d)⟩ := by
      simp [World.setClock, List.set_set]
    rw [enters, entered]
    change Progress m ⟨{ (popped.setClock c k).setClock c _ with log }, _, _⟩
    rw [twice]
    exact .fires log draining batch found final d_le first entry coherent' idles'.symm

theorem progress_finalTime (h : m.world.Coherent) (draining : m.stage = .draining)
    {ticket : Ticket} (batch : m.world.loop.batch = ⟨ticket, .finalTime c⟩ :: rest) :
    m.Progress m.proceed := by
  have own := Idle.isOf_finalTime ticket c
  let popped : World := { m.world with loop := m.world.loop.withBatch rest }
  have next : m.proceed = { m with world := popped.applyFinal c, stage := .draining } := by
    simp only [proceed, draining, EventLoop.next?_eq batch, start]
    rfl
  rcases h.of_next batch own with gone | ⟨r, f, found, numbered, perm, coherent, tickets, idles⟩
  · have absent : popped.clock? c = none := gone
    have orphan : m.proceed = { m with world := popped } := by
      simp only [next, World.applyFinal, absent, draining]
    exact orphan ▸ .orphan draining batch own gone
  · obtain ⟨nothing, x, final, later, applied, coherent', idle⟩ :=
      FakeTime.applyFinal_of_idles coherent idles (m.world.loop.withBatch rest)
    have found' : popped.clock? c = some ⟨some r, .fake f⟩ := found
    have world : popped.applyFinal c = { m.world.setClock c
        ⟨some r, .fake (f.arrived x.target)⟩ with loop := m.world.loop.withBatch rest } := by
      simp only [World.applyFinal, found']
      change World.accept popped c ⟨_, _, (f.applyFinal c (m.world.loop.withBatch rest)).2⟩ = _
      rw [applied]
      rfl
    rw [next, world, ← draining]
    exact .applies draining batch found final later coherent' nothing idle

theorem progress_expire (h : m.world.Coherent) {s : Source} {sources : List Source}
    (expiring : m.stage = .expiring (s :: sources)) : m.Progress m.proceed := by
  have next : m.proceed = m.expire s sources := by simp only [proceed, expiring]
  rw [next, expire]
  split
  · next live =>
    let removed : World := { m.world with loop := m.world.loop.removeSource s.id }
    cases found : m.world.clock? s.clock with
    | none =>
      have found' : removed.clock? s.clock = none := found
      simp only [removed] at found'
      simp only [found']
      exact .skips _ expiring (.inr rfl)
    | some k =>
      have found' : removed.clock? s.clock = some k := found
      have known := World.lt_length_of_clock? found'
      have real := (h.sources s live).2 k found
      let k' : Clock := { k with registry := k.registry.map (·.setSource s.handle none) }
      have moved : (removed.setClock s.clock k').clock? s.clock = some k' := by
        rw [World.clock?_setClock known, if_pos rfl]
      simp only [removed] at found'
      simp only [found']
      change m.Progress (({ m with world := removed.setClock s.clock k' } : Moment).enter
        s.clock s.handle (.source sources))
      cases entry : k'.registry.bind (·.find? s.handle) with
      | none =>
        rw [enter_of_find?_eq_none (m := { m with world := removed.setClock s.clock k' }) moved
          entry]
        exact .misses expiring found real
      | some e =>
        obtain ⟨r', registered', entry⟩ := Option.bind_eq_some_iff.mp entry
        obtain ⟨r, registered, rfl⟩ := Option.map_eq_some_iff.mp registered'
        obtain ⟨log, entered⟩ := enter_of_find?
          (m := { m with world := removed.setClock s.clock k' }) (.source sources) moved
          registered' entry
        have twice (k'' : Clock) : (removed.setClock s.clock k').setClock s.clock k'' =
            removed.setClock s.clock k'' := by
          simp [World.setClock, List.set_set]
        have noTime : k'.fakeTime? = none := by
          cases source : k.source with
          | real => simp [Clock.fakeTime?, k', source]
          | fake f => simp [Clock.mode, source] at real
        rw [entered, noTime]
        change Progress m ⟨{ (removed.setClock s.clock k').setClock s.clock _ with log }, _, _⟩
        rw [twice]
        exact .expires (k := k) log expiring found real registered entry
  · exact .skips m.world.loop expiring (.inl rfl)

theorem progress_finish (h : m.Coherent) {origin : Origin}
    (stage : m.stage = .running origin []) : m.Progress (m.finish origin) := by
  cases origin with
  | source sources => exact .returns stage nofun
  | idle => exact .returns stage nofun
  | timer c g now =>
    cases found : m.world.clock? c with
    | none =>
      have same : m.world.reschedule c = m.world := by simp only [World.reschedule, found]
      simp only [finish, same]
      exact .returns stage fun _ _ _ same => by cases same; exact found
    | some k =>
      obtain ⟨fake, registered⟩ := (h.looped c g now [] stage).2 k found
      cases h.world.clocks c k found with
      | real => cases fake
      | unlooped => cases registered
      | looped numbered perm coherent linked =>
        simp only [finish, World.reschedule, found]
        exact .reschedules stage found
          (FakeTime.outcome_reschedule h.world.ticketed linked coherent)

theorem progress_proceed (h : m.Coherent) : m.Progress m.proceed := by
  cases stage : m.stage with
  | rest =>
    have same : m.proceed = m := by simp only [proceed, stage]
    rw [same]
    exact .resting stage
  | expiring sources =>
    cases sources with
    | nil =>
      simp only [proceed, stage]
      exact .takes stage
    | cons s sources => exact progress_expire h.world stage
  | draining =>
    cases batch : m.world.loop.batch with
    | nil =>
      have drained : m.world.loop.next? = none := by simp [EventLoop.next?, batch]
      simp only [proceed, stage, drained]
      exact .drained stage batch
    | cons i rest =>
      obtain ⟨ticket, task⟩ := i
      cases task with
      | timer c g => exact progress_fire h.world stage batch
      | finalTime c => exact progress_finalTime h.world stage batch
      | idle name ops =>
        simp only [proceed, stage, EventLoop.next?_eq batch]
        exact .user _ stage batch
  | running origin ops =>
    cases ops with
    | nil =>
      simp only [proceed, stage]
      exact progress_finish h stage
    | cons op ops =>
      simp only [proceed, stage]
      exact .executes _ stage

theorem Progress.eq_of_gone {m' : Moment} (next : m.Progress m') (stage : m.stage = .draining)
    {i : Idle} (batch : m.world.loop.batch = i :: rest) (mine : i.task.owner? = some c)
    (gone : m.world.clock? c = none) :
    m' = { m with world := { m.world with loop := m.world.loop.withBatch rest } } := by
  cases next with
  | resting stage' | takes stage' | skips _ stage' | misses stage' | expires _ stage'
  | returns stage' | reschedules stage' | executes _ stage' => cases stage.symm.trans stage'
  | drained _ batch' => cases batch.symm.trans batch'
  | user _ _ batch' =>
    cases batch.symm.trans batch'
    cases mine
  | fires _ _ batch' found | applies _ batch' found =>
    cases batch.symm.trans batch'
    cases mine
    cases gone.symm.trans found
  | orphan _ batch' =>
    cases batch.symm.trans batch'
    rfl

end Moment

end VirtualClock
