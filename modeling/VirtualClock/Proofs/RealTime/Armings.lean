import VirtualClock.Proofs.RealTime.Wiring
import VirtualClock.Proofs.World.Overlay

/-!
Armings on real time. An update that succeeds with a positive delay arms its timer until the timer
fires, is updated again or is removed; as long as it is armed a source of it is on the loop, one
and no more. A source that has fired or was taken away is out of everyone's hands: no timer holds
its number, and no operation asks the loop to remove it again.
-/

namespace VirtualClock

/-- Timer `h` of clock `c` on real time stands as the update left it that has `n` events before
it. -/
inductive ArmedBy (c : Nat) (h : TimerHandle) : Nat → List Event → Prop where
  | update {e : Event} {past : List Event} {delay : Nat} :
    e.rewires? c = some (h, some delay) → ArmedBy c h past.length (e :: past)
  | later {n : Nat} {e : Event} {past : List Event} :
    ArmedBy c h n past → (∀ change, e.rewires? c ≠ some (h, change)) → ArmedBy c h n (e :: past)

namespace ArmedBy

variable {c n : Nat} {g h : TimerHandle} {e : Event} {past : List Event}

theorem cons_iff_of_none (quiet : e.rewires? c = none) :
    ArmedBy c h n (e :: past) ↔ ArmedBy c h n past := by
  constructor
  · intro armed
    cases armed with
    | update arms => cases quiet.symm.trans arms
    | later armed _ => exact armed
  · exact fun armed => .later armed (by simp [quiet])

theorem cons_iff_of_some {delay : Option Nat} (change : e.rewires? c = some (g, delay)) :
    ArmedBy c h n (e :: past) ↔
      if h = g then delay.isSome = true ∧ n = past.length else ArmedBy c h n past := by
  constructor
  · intro armed
    cases armed with
    | update arms =>
      cases change.symm.trans arms
      rw [if_pos rfl]
      exact ⟨rfl, rfl⟩
    | later armed quiet =>
      rw [if_neg]
      · exact armed
      · rintro rfl
        exact quiet delay change
  · split
    · next same =>
      subst same
      rintro ⟨some, rfl⟩
      obtain ⟨x, rfl⟩ := Option.isSome_iff_exists.mp some
      exact .update change
    · next other =>
      refine fun armed => .later armed fun x same => other ?_
      cases change.symm.trans same
      rfl

theorem lt_length (armed : ArmedBy c h n past) : n < past.length := by
  induction armed with
  | update => exact Nat.lt_succ_self _
  | later _ _ ih => exact Nat.lt_succ_of_lt ih

/-- Once an event has taken the timer's source away, only a later update arms it. -/
theorem length_lt_of_append (ends : e.rewires? c = some (h, none)) {later : List Event}
    (armed : ArmedBy c h n (later ++ e :: past)) : past.length < n := by
  induction later with
  | nil => simp [cons_iff_of_some ends] at armed
  | cons x later ih =>
    cases armed with
    | update =>
      change past.length < (later ++ e :: past).length
      simp only [List.length_append, List.length_cons]
      omega
    | later armed _ => exact ih armed

end ArmedBy

namespace World

/-- Two worlds whose clocks are of the same kind and hold the same sources. -/
structure SameWiring (w w' : World) : Prop where
  length : w'.clocks.length = w.clocks.length
  clocks : ∀ c k', w'.clock? c = some k' →
    ∃ k, w.clock? c = some k ∧ k'.mode = k.mode ∧ ∀ h, k'.source? h = k.source? h
  sources : w'.loop.sources = w.loop.sources
  nextSource : w'.loop.nextSource = w.loop.nextSource

variable {w w' : World} {c : Nat} {k : Clock}

theorem SameWiring.of_clocks (clocks : w'.clocks = w.clocks)
    (sources : w'.loop.sources = w.loop.sources)
    (next : w'.loop.nextSource = w.loop.nextSource) : SameWiring w w' :=
  ⟨congrArg List.length clocks, fun c k' found => ⟨k', by rw [clock?, ← clocks]; exact found, rfl,
    fun _ => rfl⟩, sources, next⟩

theorem SameWiring.setClock (found : w.clock? c = some k) {k' : Clock} (mode : k'.mode = k.mode)
    (held : ∀ h, k'.source? h = k.source? h) {l : EventLoop} {log : List LogEntry}
    (sources : l.sources = w.loop.sources) (next : l.nextSource = w.loop.nextSource) :
    SameWiring w { w.setClock c k' with loop := l, log } := by
  refine ⟨List.length_set .., fun d kd found' => ?_, sources, next⟩
  change (w.setClock c k').clock? d = some kd at found'
  rw [clock?_setClock (lt_length_of_clock? found)] at found'
  split at found'
  · next same =>
    cases found'
    exact ⟨k, same ▸ found, mode, held⟩
  · exact ⟨kd, found', rfl, fun _ => rfl⟩

theorem Wired.of_same (wired : w.Wired) (same : SameWiring w w') : w'.Wired := by
  refine EventLoop.Wired.of_eq wired same.sources same.nextSource fun c live => ?_
  obtain ⟨k', found'⟩ := Option.isSome_iff_exists.mp live
  obtain ⟨k, found, _, held⟩ := same.clocks c k' found'
  refine ⟨by simp [found], fun h => ?_⟩
  rw [source?_of_clock? found', source?_of_clock? found, held]

end World

namespace Moment

variable {m m' : Moment}

/-- Steps in which the host takes up sources in any order, and time passes at any moment. -/
inductive HostStep (m : Moment) : Moment → Prop where
  | step {m' : Moment} : Step m m' → HostStep m m'
  | pass (t : Nat) : HostStep m { m with world := m.world.passTo t }
  | expire (sources : List Source) : m.stage = .rest →
    HostStep m { m with stage := .expiring sources }

/-- What a run from nothing comes to, whatever the host does. -/
def HostReachable (m : Moment) : Prop := Relation.ReflTransGen HostStep {} m

theorem Coherent.hostStep (h : m.Coherent) (step : m.HostStep m') : m'.Coherent := by
  cases step with
  | step step => exact h.step step
  | pass t => exact ⟨h.world.of_loop rfl rfl fun _ => id, h.looped, h.batch⟩
  | expire sources rest => exact of_expiring h.world (h.batch (by rw [rest]; rfl))

theorem HostReachable.coherent (run : m.HostReachable) : m.Coherent := by
  induction run with
  | refl => exact .empty
  | tail _ step ih => exact ih.hostStep step

/-- What a step has to do with sources. -/
inductive SourceStep (m m' : Moment) : Prop where
  | still : m.world.SameWiring m'.world → m'.history = m.history → SourceStep m m'
  | fakeFired {c : Nat} {h : TimerHandle} {now : Duration} :
    m.world.SameWiring m'.world → m'.history = .fire c h (some now) :: m.history → SourceStep m m'
  | called {w : World} {op : Op} :
    m.world.Rewired op w → w.SameWiring m'.world → m'.history = m.world.called op :: m.history →
    SourceStep m m'
  /-- The source of a clock that is gone. -/
  | lost {s : Source} :
    s ∈ m.world.loop.sources → m.world.clock? s.clock = none →
    m'.world.clocks = m.world.clocks → m'.world.loop = m.world.loop.removeSource s.id →
    m'.history = m.history → SourceStep m m'
  | fired {s : Source} {k : Clock} (k' : Clock) :
    m.world.clock? s.clock = some k → k.mode = .real → k.source? s.handle = some s.id →
    Clock.Rewired s.clock k m.world.loop k' m'.world.loop (some (s.handle, none)) →
    m'.world.clocks = (m.world.setClock s.clock k').clocks →
    m'.history = .fire s.clock s.handle none :: m.history → SourceStep m m'

theorem exists_proceed_expire {s : Source} {sources : List Source} {r : Registry}
    {e : Registration} (stage : m.stage = .expiring (s :: sources))
    (live : s ∈ m.world.loop.sources) (found : m.world.clock? s.clock = some ⟨some r, .real⟩)
    (entry : r.find? s.handle = some e) :
    ∃ log, m.proceed =
      { world :=
          { m.world.setClock s.clock
              ⟨some ((r.setSource s.handle none).markFired s.handle), .real⟩ with
            loop := m.world.loop.removeSource s.id
            log }
        stage := .running (.source sources) e.callback.ops
        history := .fire s.clock s.handle none :: m.history } := by
  let removed : World := { m.world with loop := m.world.loop.removeSource s.id }
  let k : Clock := ⟨some (r.setSource s.handle none), .real⟩
  have found' : removed.clock? s.clock = some ⟨some r, .real⟩ := found
  have moved : (removed.setClock s.clock k).clock? s.clock = some k := by
    rw [World.clock?_setClock (World.lt_length_of_clock? found'), if_pos rfl]
  have entry' : (r.setSource s.handle none).find? s.handle = some { e with source := none } := by
    rw [Registry.find?_setSource, entry, Option.map_some, if_pos]
    simp [Registry.handle_of_find? entry]
  obtain ⟨log, entered⟩ := enter_of_find? (m := { m with world := removed.setClock s.clock k })
    (.source sources) moved rfl entry'
  have next : m.proceed =
      ({ m with world := removed.setClock s.clock k } : Moment).enter s.clock s.handle
        (.source sources) := by
    have expires : m.proceed = m.expire s sources := by simp only [proceed, stage]
    simp only [removed] at found'
    rw [expires, expire, if_pos live]
    simp only [found']
    rfl
  refine ⟨log, next.trans (entered.trans ?_)⟩
  simp only [World.setClock, removed, k, List.set_set]
  rfl

/-- Taking up a source that is not on the loop any more does nothing; one that is on the loop is
taken off, and fires the timer that holds it. -/
theorem sourceStep_expire (h : m.Coherent) (wired : m.world.Wired) {s : Source}
    {sources : List Source} (stage : m.stage = .expiring (s :: sources)) :
    m.SourceStep m.proceed := by
  have next : m.proceed = m.expire s sources := by simp only [proceed, stage]
  by_cases live : s ∈ m.world.loop.sources
  · cases found : m.world.clock? s.clock with
    | none =>
      have gone : World.clock? { m.world with loop := m.world.loop.removeSource s.id } s.clock =
          none := found
      rw [next, expire, if_pos live]
      simp only [gone]
      exact .lost live found rfl rfl rfl
    | some k =>
      have real := (h.world.sources s live).2 k found
      have holds : k.source? s.handle = some s.id := by
        rw [← World.source?_of_clock? found]
        exact (wired.held_iff s.clock (by simp [found]) s.handle s.id).mpr ⟨s, live, rfl, rfl, rfl⟩
      obtain ⟨registry, source⟩ := k
      cases source with
      | fake f => cases real
      | real =>
        obtain ⟨r, registered, holds'⟩ := Option.bind_eq_some_iff.mp holds
        obtain ⟨e, entry, _⟩ := Option.bind_eq_some_iff.mp holds'
        cases registered
        obtain ⟨log, expires⟩ := exists_proceed_expire stage live found entry
        rw [expires]
        refine .fired _ found rfl holds (.disarmed (fun g => ?_) (holds ▸ .refl _)) rfl rfl
        rw [Clock.source?, Option.bind_some, Registry.source?_markFired,
          Registry.source?_setSource, Clock.source?_of_registry rfl]
        cases r.find? s.handle <;> rfl
  · rw [next, expire, if_neg live]
    exact .still (.of_clocks rfl rfl rfl) rfl

/-- The rest of a dispatch leaves the sources alone, but for operations in callbacks and idles. -/
theorem Progress.sourceStep (h : m.Coherent) (wired : m.world.Wired)
    (next : m.Progress m.proceed) : m.SourceStep m.proceed := by
  generalize same : m.proceed = m' at next
  cases next with
  | resting | takes | drained | orphan | user => exact .still (.of_clocks rfl rfl rfl) rfl
  | skips _ stage => exact same ▸ sourceStep_expire h wired stage
  | misses stage => exact same ▸ sourceStep_expire h wired stage
  | expires _ stage => exact same ▸ sourceStep_expire h wired stage
  | @fires _ c g _ r _ _ _ _ log _ _ found =>
    refine .fakeFired (.setClock found ?_ (fun x => ?_) ?_ ?_) rfl
    · rfl
    · rw [Clock.source?, Option.bind_some, Registry.source?_markFired]
      rfl
    · rfl
    · rfl
  | applies _ _ found =>
    refine .still (.setClock found ?_ (fun _ => ?_) ?_ ?_) ?_ <;> rfl
  | returns => exact .still (.of_clocks rfl rfl rfl) rfl
  | @reschedules c _ _ r f _ found =>
    have loop := f.sameSources_schedule c f.target m.world.loop
    refine .still (.setClock found ?_ (fun _ => ?_) loop.sources loop.nextSource) ?_ <;> rfl
  | @executes _ op =>
    exact .called (World.rewired_exec h.world op) (.of_clocks rfl rfl rfl) rfl

theorem HostStep.sourceStep (h : m.Coherent) (wired : m.world.Wired) (step : m.HostStep m') :
    m.SourceStep m' := by
  cases step with
  | step step =>
    cases step with
    | call op => exact .called (World.rewired_exec h.world op) (.of_clocks rfl rfl rfl) rfl
    | pass | clear | turn => exact .still (.of_clocks rfl rfl rfl) rfl
    | proceed => exact (progress_proceed h).sourceStep h wired
  | pass | expire => exact .still (.of_clocks rfl rfl rfl) rfl

/-- Sources, tables and history agree: a timer of a live clock on real time holds a source just if
an update armed it, and every firing on real time was for an arming. -/
structure Accounted (m : Moment) : Prop where
  wired : m.world.Wired
  armed_iff : ∀ c k, m.world.clock? c = some k → k.mode = .real →
    ∀ h, (k.source? h).isSome = true ↔ ∃ n, ArmedBy c h n m.history
  known : ∀ c h n, ArmedBy c h n m.history → c < m.world.clocks.length
  fires : ∀ later c h past, m.history = later ++ .fire c h none :: past → ∃ n, ArmedBy c h n past

namespace Accounted

variable {w : World} {e : Event}

theorem empty : ({} : Moment).Accounted where
  wired := .empty
  armed_iff c k found := by simp [World.clock?] at found
  known c h n armed := by cases armed
  fires later c h past split := by simp at split

theorem fires_cons (accounted : m.Accounted)
    (new : ∀ c h, e = .fire c h none → ∃ n, ArmedBy c h n m.history) (later : List Event) (c : Nat)
    (h : TimerHandle) (past : List Event)
    (split : e :: m.history = later ++ .fire c h none :: past) : ∃ n, ArmedBy c h n past := by
  cases later with
  | nil =>
    obtain ⟨rfl, rfl⟩ := List.cons.inj split
    exact new c h rfl
  | cons x later =>
    obtain ⟨_, split⟩ := List.cons.inj split
    exact accounted.fires later c h past split

theorem armed_iff_of_rewired (accounted : m.Accounted) {c : Nat} {k k' : Clock} {l' : EventLoop}
    (found : m.world.clock? c = some k) (real : k.mode = .real)
    {change : Option (TimerHandle × Option Nat)}
    (rewired : Clock.Rewired c k m.world.loop k' l' change) (event : e.rewires? c = change)
    (h : TimerHandle) : (k'.source? h).isSome = true ↔ ∃ n, ArmedBy c h n (e :: m.history) := by
  have before := accounted.armed_iff c k found real h
  cases rewired with
  | kept source _ =>
    rw [source, before]
    exact exists_congr fun n => (ArmedBy.cons_iff_of_none event).symm
  | @disarmed g source _ =>
    simp only [source, ArmedBy.cons_iff_of_some event]
    split
    · simp
    · exact before
  | @armed g delay source _ =>
    simp only [source, ArmedBy.cons_iff_of_some event]
    split
    · simp
    · exact before

theorem armed_iff_of_foreign (accounted : m.Accounted) {c : Nat} {k : Clock}
    (found : m.world.clock? c = some k) (real : k.mode = .real) (foreign : e.rewires? c = none)
    (h : TimerHandle) : (k.source? h).isSome = true ↔ ∃ n, ArmedBy c h n (e :: m.history) :=
  accounted.armed_iff_of_rewired found real (Clock.rewired_refl c k m.world.loop) foreign h

theorem known_cons (accounted : m.Accounted) {length : Nat}
    (more : m.world.clocks.length ≤ length)
    (new : ∀ c, e.rewires? c ≠ none → c < m.world.clocks.length) (c : Nat) (h : TimerHandle)
    (n : Nat) (armed : ArmedBy c h n (e :: m.history)) : c < length := by
  refine Nat.lt_of_lt_of_le ?_ more
  cases armed with
  | update arms => exact new c (by simp [arms])
  | later armed _ => exact accounted.known c h n armed

theorem lt_of_rewired {op : Op} (rewired : m.world.Rewired op w) {c : Nat}
    (tells : (m.world.called op).rewires? c ≠ none) : c < m.world.clocks.length := by
  cases rewired with
  | still _ _ silent => exact absurd (silent c) tells
  | created mode hasLoop new =>
    exact absurd (Event.rewires?_of_unnamed (new ▸ rfl)) tells
  | dropped d gone => exact absurd (Event.rewires?_of_unnamed (gone ▸ rfl)) tells
  | @called d k k' change about found =>
    by_cases same : c = d
    · exact same ▸ World.lt_length_of_clock? found
    · refine absurd (Event.rewires?_of_foreign fun own => same ?_) tells
      exact Option.some.inj (own.symm.trans about)

theorem length_le_of_rewired {op : Op} (rewired : m.world.Rewired op w) :
    m.world.clocks.length ≤ w.clocks.length := by
  cases rewired with
  | still clocks => exact Nat.le_of_eq (congrArg List.length clocks.symm)
  | created mode hasLoop _ new => simp [new, World.newClock]
  | dropped d _ gone => simp [gone, World.dropClock]
  | called _ _ clocks => simp [clocks, World.setClock]

theorem armed_iff_of_called (accounted : m.Accounted) {op : Op} (rewired : m.world.Rewired op w)
    {c : Nat} {k' : Clock} (found' : w.clock? c = some k') (real : k'.mode = .real)
    (h : TimerHandle) :
    (k'.source? h).isSome = true ↔ ∃ n, ArmedBy c h n (m.world.called op :: m.history) := by
  cases rewired with
  | still clocks _ silent =>
    have same : m.world.clock? c = some k' := by
      rw [← found', World.clock?, World.clock?, clocks]
    exact accounted.armed_iff_of_foreign same real (silent c) h
  | created mode hasLoop new newWorld =>
    have silent : (m.world.called op).rewires? c = none :=
      Event.rewires?_of_unnamed (new ▸ rfl)
    rw [newWorld, World.clock?_newClock] at found'
    split at found'
    · next fresh =>
      cases found'
      refine iff_of_false ?_ ?_
      · cases hasLoop <;> simp [Clock.source?, Clock.new, Registry.source?, Registry.find?]
      · rintro ⟨n, armed⟩
        rw [ArmedBy.cons_iff_of_none silent] at armed
        exact Nat.lt_irrefl _ (fresh ▸ accounted.known c h n armed)
    · exact accounted.armed_iff_of_foreign found' real silent h
  | dropped d gone goneWorld =>
    rw [goneWorld, World.clock?_dropClock] at found'
    split at found'
    · cases found'
    · exact accounted.armed_iff_of_foreign found' real
        (Event.rewires?_of_unnamed (gone ▸ rfl)) h
  | @called d k k'' change about found clocks mode rewired event =>
    have same : w.clock? c = (m.world.setClock d k'').clock? c := by
      rw [World.clock?, World.clock?, clocks]
    rw [same, World.clock?_setClock (World.lt_length_of_clock? found)] at found'
    split at found'
    · next own =>
      subst own
      cases found'
      have real' := mode.symm.trans real
      exact accounted.armed_iff_of_rewired found real' rewired (event real') h
    · next other =>
      refine accounted.armed_iff_of_foreign found' real (Event.rewires?_of_foreign fun own => ?_) h
      exact other (Option.some.inj (own.symm.trans about))

theorem of_same (accounted : m.Accounted) (same : m.world.SameWiring m'.world)
    (history : m'.history = m.history) : m'.Accounted where
  wired := accounted.wired.of_same same
  armed_iff c k' found' real h := by
    obtain ⟨k, found, mode, held⟩ := same.clocks c k' found'
    rw [held, history]
    exact accounted.armed_iff c k found (mode.symm.trans real) h
  known c h n armed := by
    rw [same.length]
    exact accounted.known c h n (history ▸ armed)
  fires later c h past split := accounted.fires later c h past (history ▸ split)

theorem fakeFired (accounted : m.Accounted) (c : Nat) (h : TimerHandle) (now : Duration) :
    ({ m with history := .fire c h (some now) :: m.history } : Moment).Accounted where
  wired := accounted.wired
  armed_iff d k found real := accounted.armed_iff_of_foreign found real rfl
  known := accounted.known_cons (Nat.le_refl _) (by simp [Event.rewires?])
  fires := accounted.fires_cons (by rintro _ _ ⟨⟩)

theorem called (accounted : m.Accounted) (coherent : m.Coherent) {op : Op}
    (rewired : m.world.Rewired op w) (stage : Stage) :
    (⟨w, stage, m.world.called op :: m.history⟩ : Moment).Accounted where
  wired := accounted.wired.executed coherent.world rewired
  armed_iff _ _ found real := accounted.armed_iff_of_called rewired found real
  known := accounted.known_cons (length_le_of_rewired rewired) fun _ => lt_of_rewired rewired
  fires := accounted.fires_cons (by rintro _ _ ⟨⟩)

theorem lost (accounted : m.Accounted) {s : Source} (live : s ∈ m.world.loop.sources)
    (gone : m.world.clock? s.clock = none) :
    ({ m with world := { m.world with loop := m.world.loop.removeSource s.id } } :
      Moment).Accounted where
  wired := by
    refine EventLoop.Wired.of_eq (accounted.wired.remove live) rfl rfl fun c alive => ?_
    have alive : (m.world.clock? c).isSome = true := alive
    refine ⟨alive, fun h => (if_neg ?_).symm⟩
    rintro ⟨rfl, _⟩
    simp [gone] at alive
  armed_iff := accounted.armed_iff
  known := accounted.known
  fires := accounted.fires

theorem fired (accounted : m.Accounted) {s : Source} {k k' : Clock} (stage : Stage)
    (found : m.world.clock? s.clock = some k) (real : k.mode = .real)
    (holds : k.source? s.handle = some s.id)
    (rewired : Clock.Rewired s.clock k m.world.loop k' w.loop (some (s.handle, none)))
    (clocks : w.clocks = (m.world.setClock s.clock k').clocks) :
    (⟨w, stage, .fire s.clock s.handle none :: m.history⟩ : Moment).Accounted where
  wired := accounted.wired.of_rewired found clocks rewired
  armed_iff c kc found' real' := by
    have same : w.clock? c = (m.world.setClock s.clock k').clock? c := by
      rw [World.clock?, World.clock?, clocks]
    have alive : w.clock? c = some kc := found'
    rw [same, World.clock?_setClock (World.lt_length_of_clock? found)] at alive
    split at alive
    · next own =>
      subst own
      cases alive
      exact accounted.armed_iff_of_rewired found real rewired (if_pos rfl)
    · next other =>
      exact accounted.armed_iff_of_foreign alive real' (if_neg (Ne.symm other))
  known := by
    refine accounted.known_cons (by simp [clocks, World.setClock]) fun c tells => ?_
    by_cases own : s.clock = c
    · exact own ▸ World.lt_length_of_clock? found
    · exact absurd (if_neg own) tells
  fires := by
    refine accounted.fires_cons ?_
    rintro _ _ ⟨⟩
    exact (accounted.armed_iff _ k found real _).mp (by simp [holds])

theorem step (accounted : m.Accounted) (coherent : m.Coherent) (step : m.SourceStep m') :
    m'.Accounted := by
  cases step with
  | still same history => exact accounted.of_same same history
  | @fakeFired c h now same history => exact (accounted.fakeFired c h now).of_same same history
  | called rewired same history =>
    exact (accounted.called coherent rewired m.stage).of_same same history
  | lost live gone clocks loop history =>
    refine (accounted.lost live gone).of_same (.of_clocks clocks ?_ ?_) history <;> rw [loop]
  | fired k' found real holds rewired clocks history =>
    exact (accounted.fired m.stage found real holds rewired clocks).of_same
      (.of_clocks rfl rfl rfl) history

end Accounted

end Moment

end VirtualClock
