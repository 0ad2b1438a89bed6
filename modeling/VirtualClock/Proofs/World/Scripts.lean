import VirtualClock.Proofs.World.Reachable

/-!
Scripts: the operations that callbacks and idles have yet to run. An operation leaves scripts with
the clock it is called on or with the idle it queues, and a dispatch only takes scripts up; so a
property that every operation gives to the scripts it leaves is one of all scripts.
-/

namespace VirtualClock

/-- The operations that an operation leaves for later. -/
def Op.scripts : Op → List (List Op)
  | add _ _ fires _ => fires
  | idle _ ops => [ops]
  | _ => []

/-- What an operation leaves for callbacks of clock `d` has property `P d`, and an idle that it
queues is one of those that `Q` tells. -/
structure Op.Leaves (P : Nat → Op → Prop) (Q : String → List Op → Prop) (op : Op) : Prop where
  callbacks : ∀ d, op.clock? = some d → ∀ ops ∈ op.scripts, ∀ op' ∈ ops, P d op'
  idles : ∀ name ops, op = .idle name ops → Q name ops

theorem Callback.exists_of_mem_ops {callback : Callback} {op : Op} (member : op ∈ callback.ops) :
    ∃ ops ∈ callback.fires, op ∈ ops := by
  unfold ops at member
  split at member
  · next ops found => exact ⟨ops, List.mem_of_getElem? found, member⟩
  · split at member
    · cases last : callback.fires.getLast? with
      | none => simp [last] at member
      | some ops =>
        rw [last] at member
        exact ⟨ops, List.mem_of_getLast? last, member⟩
    · cases member

/-- All that the callbacks of a registry may ever run has property `P`. -/
def Registry.Runs (r : Registry) (P : Op → Prop) : Prop :=
  ∀ e ∈ r.entries, ∀ ops ∈ e.callback.fires, ∀ op ∈ ops, P op

namespace Registry

variable {r : Registry} {P : Op → Prop}

theorem Runs.add (runs : r.Runs P) {callback : Callback}
    (fires : ∀ ops ∈ callback.fires, ∀ op ∈ ops, P op) : (r.add callback).Runs P := by
  intro e member
  rcases List.mem_append.mp member with old | new
  · exact runs e old
  · rw [List.mem_singleton.mp new]
    exact fires

theorem Runs.erase (runs : r.Runs P) (h : TimerHandle) : (r.erase h).Runs P :=
  fun e member => runs e (List.mem_of_mem_eraseP member)

theorem Runs.modify (runs : r.Runs P) (h : TimerHandle) {f : Registration → Registration}
    (same : ∀ e, (f e).callback.fires = e.callback.fires) : (r.modify h f).Runs P := by
  intro e member
  obtain ⟨e', old, rfl⟩ := List.mem_map.mp member
  split
  · rw [same]
    exact runs e' old
  · exact runs e' old

theorem Runs.setSource (runs : r.Runs P) (h : TimerHandle) (source : Option Nat) :
    (r.setSource h source).Runs P :=
  runs.modify h fun _ => rfl

theorem Runs.markFired (runs : r.Runs P) (h : TimerHandle) : (r.markFired h).Runs P :=
  runs.modify h fun _ => rfl

theorem Runs.ops (runs : r.Runs P) {h : TimerHandle} {e : Registration}
    (entry : r.find? h = some e) : ∀ op ∈ e.callback.ops, P op := by
  intro op member
  obtain ⟨ops, script, member⟩ := Callback.exists_of_mem_ops member
  exact runs e (List.mem_of_find?_eq_some entry) ops script op member

end Registry

def Clock.Runs (k : Clock) (P : Op → Prop) : Prop := ∀ r, k.registry = some r → r.Runs P

namespace Clock

variable {k : Clock} {P : Op → Prop}

theorem Runs.map (runs : k.Runs P) {r r' : Registry} {source : TimeSource}
    (registered : k.registry = some r) (kept : r.Runs P → r'.Runs P) :
    (⟨some r', source⟩ : Clock).Runs P := by
  intro r'' same
  cases same
  exact kept (runs r registered)

variable {c : Nat} {l : EventLoop}

theorem Runs.mapRegistry (runs : k.Runs P) {change : Registry → Registry}
    (kept : ∀ r : Registry, r.Runs P → (change r).Runs P) :
    ({ k with registry := k.registry.map change } : Clock).Runs P := by
  intro r same
  obtain ⟨r, registered, rfl⟩ := Option.map_eq_some_iff.mp same
  exact kept r (runs r registered)

theorem runs_advance (runs : k.Runs P) (delta : Duration) : (k.advance c delta l).clock.Runs P := by
  unfold Clock.advance
  split
  · exact runs
  · split <;> exact runs

theorem runs_updateTimer (runs : k.Runs P) (h : TimerHandle) (delay : Int32) :
    (k.updateTimer c h delay l).clock.Runs P := by
  unfold updateTimer
  split
  · unfold updateReal
    split
    · exact runs
    · next r registered =>
      split
      · exact runs
      · simp only
        split <;> exact runs.map registered fun kept => kept.setSource h _
  · unfold updateFake
    split
    · exact runs
    · split <;> exact runs

theorem runs_removeTimer (runs : k.Runs P) (h : TimerHandle) :
    (k.removeTimer h l).clock.Runs P := by
  unfold removeTimer
  split
  · exact runs
  · next r registered =>
    have erased {source : TimeSource} : (⟨some (r.erase h), source⟩ : Clock).Runs P :=
      runs.map registered fun kept => kept.erase h
    split
    · exact runs
    · simp only
      split
      · exact erased
      · split <;> exact erased

theorem runs_destroy (runs : k.Runs P) : (k.destroy l).clock.Runs P := by
  unfold Clock.destroy
  simp only
  split
  · exact runs
  · split
    · exact runs
    · split <;> exact runs

theorem Replies.runs {α : Type} {op : Op} {reply : Reply α} (replies : k.Replies c l op reply)
    (runs : k.Runs P) (scripts : ∀ ops ∈ op.scripts, ∀ op' ∈ ops, P op') : reply.clock.Runs P := by
  cases replies with
  | advance delta => exact runs_advance runs delta
  | request r =>
    unfold handleRequest
    split
    · exact runs
    · exact runs_advance runs _
  | add timer fires repeats =>
    unfold addTimer
    split
    · exact runs
    · next r registered => exact runs.map registered fun kept => kept.add scripts
  | update timer h delay => exact runs_updateTimer runs h delay
  | remove timer h => exact runs_removeTimer runs h
  | destroy => exact runs_destroy runs

end Clock

namespace World

variable {w w' : World} {d : Nat} {k k' : Clock} {l' : EventLoop} {op : Op}
  {P : Nat → Op → Prop} {Q : String → List Op → Prop}

/-- Callbacks of clock `d` only run what has property `P d`, and the idles on the loop are among
those that `Q` tells. -/
structure Scripted (P : Nat → Op → Prop) (Q : String → List Op → Prop) (w : World) : Prop where
  clocks : ∀ d k, w.clock? d = some k → k.Runs (P d)
  idles : ∀ i ∈ w.loop.live, ∀ name ops, i.task = .idle name ops → Q name ops

namespace Scripted

theorem of_live (scripted : w.Scripted P Q) (clocks : w'.clocks = w.clocks)
    (live : ∀ i ∈ w'.loop.live, i ∈ w.loop.live ∨ i.task.owner?.isSome = true) :
    w'.Scripted P Q where
  clocks d k found := scripted.clocks d k (by rwa [clock?, clocks] at found)
  idles i member name ops task := by
    rcases live i member with old | owned
    · exact scripted.idles i old name ops task
    · simp [task, Task.owner?] at owned

theorem setClock (scripted : w.Scripted P Q) (log : List LogEntry) (found : w.clock? d = some k)
    (runs : k'.Runs (P d))
    (live : ∀ i ∈ l'.live, i ∈ w.loop.live ∨ i.task.owner?.isSome = true) :
    ({ w.setClock d k' with loop := l', log } : World).Scripted P Q := by
  have idle : ({ w with loop := l' } : World).Scripted P Q := scripted.of_live rfl live
  refine ⟨?_, idle.idles⟩
  intro e k'' found'
  change (w.setClock d k').clock? e = some k'' at found'
  rw [clock?_setClock (lt_length_of_clock? found)] at found'
  split at found'
  · next same =>
    cases found'
    exact same ▸ runs
  · exact scripted.clocks e k'' found'

theorem live_of_sameBut (same : EventLoop.SameBut d w.loop l') :
    ∀ i ∈ l'.live, i ∈ w.loop.live ∨ i.task.owner?.isSome = true := by
  intro i member
  rcases same.mem_live member with ofClock | old
  · rw [Idle.isOf_iff.mp ofClock]
    exact .inr rfl
  · exact .inl old

theorem executed (scripted : w.Scripted P Q) (h : w.Coherent) (executed : Executed w op w')
    (leaves : op.Leaves P Q) : w'.Scripted P Q := by
  cases executed with
  | still => exact scripted
  | created mode hasLoop =>
    refine ⟨?_, scripted.idles⟩
    intro d k found
    rw [clock?_newClock] at found
    split at found
    · cases found
      intro r registered
      cases hasLoop <;> cases registered
      nofun
    · exact scripted.clocks d k found
  | @dropped e =>
    refine ⟨?_, scripted.idles⟩
    intro d k found
    rw [clock?_dropClock] at found
    split at found
    · cases found
    · exact scripted.clocks d k found
  | queued name ops =>
    refine ⟨scripted.clocks, ?_⟩
    intro i member name' ops' task
    change i ∈ (w.loop.enqueueAll [.idle name ops]).live at member
    rw [EventLoop.live_enqueueAll] at member
    rcases List.mem_append.mp member with old | new
    · exact scripted.idles i old name' ops' task
    · rw [List.mem_singleton.mp new] at task
      cases task
      exact leaves.idles name ops rfl
  | @called _ d k _ reply added found replies =>
    have kept := replies.kept h.ticketed (h.clocks d k found)
    have runs := replies.runs (scripted.clocks d k found) (leaves.callbacks d replies.clock?)
    have after := scripted.setClock w.log found runs (live_of_sameBut kept.loop)
    exact ⟨after.clocks, after.idles⟩

end Scripted

end World

namespace Moment

variable {m m' : Moment} {P : Nat → Op → Prop} {Q : String → List Op → Prop}

/-- What runs after a step was running before it, or is a script that the step takes up: that of an
idle, or of a callback of some clock. -/
theorem Progress.running {R : Op → Prop} (next : m.Progress m')
    (scripted : m.world.Scripted P fun _ ops => ∀ op ∈ ops, R op) {origin : Origin} {ops : List Op}
    (stage : m'.stage = .running origin ops) :
    (∃ op, m.stage = .running origin (op :: ops)) ∨ (origin = .idle ∧ ∀ op ∈ ops, R op) ∨
      ∃ d k, m.world.clock? d = some k ∧ (∀ op ∈ ops, P d op) ∧
        ((∃ sources, origin = .source sources ∧ k.mode = .real) ∨
          ∃ g now, origin = .timer d g now) := by
  cases next with
  | resting stage' | orphan stage' | applies stage' => cases stage'.symm.trans stage
  | takes | skips | drained | reschedules => cases stage
  | @returns origin' => cases origin' <;> cases stage
  | @misses s sources k _ found real =>
    cases stage
    exact .inr (.inr ⟨s.clock, k, found, by simp, .inl ⟨_, rfl, real⟩⟩)
  | @expires s sources k r e log _ found real registered entry =>
    cases stage
    have runs := (scripted.clocks s.clock k found r registered).setSource s.handle none
    exact .inr (.inr ⟨s.clock, k, found, runs.ops entry, .inl ⟨_, rfl, real⟩⟩)
  | @user ticket name _ rest log _ batch =>
    cases stage
    have queued : (⟨ticket, .idle name ops⟩ : Idle) ∈ m.world.loop.live := by
      simp [EventLoop.live, batch]
    exact .inr (.inl ⟨rfl, scripted.idles _ queued name ops rfl⟩)
  | @fires ticket d g rest r f t x e log _ batch found _ _ _ entry =>
    cases stage
    have runs := scripted.clocks d _ found r rfl
    exact .inr (.inr ⟨d, _, found, runs.ops entry, .inr ⟨g, t, rfl⟩⟩)
  | executes log stage' =>
    cases stage
    exact .inl ⟨_, stage'⟩

theorem Progress.scripted (next : m.Progress m') (h : m.Coherent)
    (scripted : m.world.Scripted P Q)
    (leaves : ∀ origin op ops, m.stage = .running origin (op :: ops) → op.Leaves P Q) :
    m'.world.Scripted P Q := by
  have popped {i : Idle} {rest : List Idle} (batch : m.world.loop.batch = i :: rest) :
      ∀ j ∈ (m.world.loop.withBatch rest).live,
        j ∈ m.world.loop.live ∨ j.task.owner?.isSome = true :=
    fun _ member => .inl (EventLoop.mem_live_of_withBatch batch member)
  cases next with
  | resting | drained | returns => exact scripted
  | takes stage =>
    refine scripted.of_live rfl fun i member => .inl ?_
    simpa [EventLoop.live, EventLoop.takeQueue] using member
  | skips loop stage which =>
    refine scripted.of_live rfl fun i member => .inl ?_
    rcases which with rfl | rfl <;> exact member
  | @misses s sources k' stage found' real =>
    have runs := scripted.clocks s.clock k' found'
    exact scripted.setClock _ found' (runs.mapRegistry fun r kept => kept.setSource s.handle none)
      fun _ => .inl
  | @expires s sources k' r e log stage found' real registered entry =>
    have runs := (scripted.clocks s.clock k' found' r registered).setSource s.handle none
    refine scripted.setClock _ found' ?_ fun _ => .inl
    intro r' same
    cases same
    exact runs.markFired s.handle
  | orphan stage batch own gone => exact scripted.of_live rfl (popped batch)
  | user log stage batch => exact scripted.of_live rfl (popped batch)
  | @fires ticket d g rest r f _ _ e log stage batch found' =>
    have runs := scripted.clocks d _ found'
    exact scripted.setClock _ found' (runs.map rfl fun kept => kept.markFired g) (popped batch)
  | @applies ticket d rest r f x stage batch found' =>
    have runs := scripted.clocks d _ found'
    exact scripted.setClock _ found' runs (popped batch)
  | @reschedules d g now r f stage found' outcome =>
    have runs := scripted.clocks d _ found'
    exact scripted.setClock _ found' runs (World.Scripted.live_of_sameBut outcome.sameBut)
  | @executes origin op ops log stage =>
    have after := scripted.executed h.world (World.executed_exec m.world op)
      (leaves origin op ops stage)
    exact after.of_live rfl fun _ => .inl

end Moment

end VirtualClock
