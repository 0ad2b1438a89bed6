import Mathlib.Data.List.Induction
import VirtualClock.Proofs.World.Progress

/-!
Every reachable moment is coherent: its world is, a callback of a timer on fake time runs for a
clock that may queue work, and outside the batch no task waits in it.
-/

namespace VirtualClock

namespace World

variable {w : World} {c : Nat} {k : Clock} {r : Registry}

theorem Coherent.withRegistry {l' : EventLoop} {registry : Option Registry} (h : w.Coherent)
    (found : w.clock? c = some k)
    (coherent : ({ k with registry } : Clock).CoherentIn c w.loop)
    (batch : l'.batch = w.loop.batch) (queue : l'.queue = w.loop.queue)
    (next : l'.nextTicket = w.loop.nextTicket) (sources : ∀ s ∈ l'.sources, s ∈ w.loop.sources) :
    ({ w.setClock c { k with registry } with loop := l' } : World).Coherent :=
  h.setClock found (coherent.of_idlesOf (by simp only [EventLoop.idlesOf_eq, batch, queue]))
    (.of_eq batch queue next) rfl fun s member => .inl (sources s member)

end World

namespace Moment

variable {m m' : Moment}

namespace Coherent

theorem empty : ({} : Moment).Coherent where
  world := .empty
  looped _ _ _ _ stage := by cases stage
  batch _ := rfl

theorem of_world {w : World} {stage : Stage} {history : List Event} (h : w.Coherent)
    (elsewhere : ∀ c h now ops, stage ≠ .running (.timer c h now) ops)
    (batch : stage.hasBatch = false → w.loop.batch = []) :
    (⟨w, stage, history⟩ : Moment).Coherent :=
  ⟨h, fun c h now ops at_ => absurd at_ (elsewhere c h now ops), batch⟩

section stages

variable {w : World} {sources : List Source} {ops : List Op} {history : List Event}

theorem of_rest (h : w.Coherent) (batch : w.loop.batch = []) :
    (⟨w, .rest, history⟩ : Moment).Coherent :=
  of_world h (by rintro _ _ _ _ ⟨⟩) fun _ => batch

theorem of_expiring (h : w.Coherent) (batch : w.loop.batch = []) :
    (⟨w, .expiring sources, history⟩ : Moment).Coherent :=
  of_world h (by rintro _ _ _ _ ⟨⟩) fun _ => batch

theorem of_draining (h : w.Coherent) : (⟨w, .draining, history⟩ : Moment).Coherent :=
  of_world h (by rintro _ _ _ _ ⟨⟩) (by rintro ⟨⟩)

theorem of_source (h : w.Coherent) (batch : w.loop.batch = []) :
    (⟨w, .running (.source sources) ops, history⟩ : Moment).Coherent :=
  of_world h (by rintro _ _ _ _ ⟨⟩) fun _ => batch

theorem of_idle (h : w.Coherent) : (⟨w, .running .idle ops, history⟩ : Moment).Coherent :=
  of_world h (by rintro _ _ _ _ ⟨⟩) (by rintro ⟨⟩)

end stages

theorem executes (h : m.Coherent) {origin : Origin} {op : Op} {ops : List Op}
    (stage : m.stage = .running origin (op :: ops)) (log : List LogEntry) (history : List Event) :
    (⟨{ (m.world.exec op).2 with log }, .running origin ops, history⟩ : Moment).Coherent := by
  have executed := World.executed_exec m.world op
  refine ⟨(h.world.exec op).of_eq rfl rfl, ?_, ?_⟩
  · intro c g now ops' stage'
    cases stage'
    obtain ⟨known, looped⟩ := h.looped c g now _ stage
    refine ⟨Nat.lt_of_lt_of_le known executed.length_le, ?_⟩
    intro k' found
    obtain ⟨k, found', mode, registry⟩ := executed.kind known found
    exact ⟨mode.trans (looped k found').1, registry.trans (looped k found').2⟩
  · intro early
    have early' : m.stage.hasBatch = false := by
      rw [stage]
      cases origin <;> exact early
    exact List.sublist_nil.mp (h.batch early' ▸ executed.batch_sublist)

theorem progress (h : m.Coherent) (next : m.Progress m') : m'.Coherent := by
  cases next with
  | resting => exact h
  | takes stage =>
    refine of_draining (h.world.of_loop ?_ rfl fun _ => id)
    simp [EventLoop.live, EventLoop.takeQueue]
  | skips loop stage which =>
    have early := h.batch (by rw [stage]; rfl)
    rcases which with rfl | rfl
    · exact of_expiring h.world early
    · exact of_expiring (h.world.of_loop rfl rfl fun _ member => (List.mem_filter.mp member).1)
        early
  | @misses s _ k stage found real =>
    refine of_source (h.world.withRegistry found ?_ rfl rfl rfl
      fun _ member => (List.mem_filter.mp member).1) (h.batch (by rw [stage]; rfl))
    exact (h.world.clocks s.clock k found).mapRegistry (·.setSource s.handle none)
      (fun _ known => known.setSource _ _) fun r => r.handles_setSource _ _
  | @expires s _ k r e log stage found real registered entry =>
    have coherent := (h.world.clocks s.clock k found).mapRegistry
      (fun r => (r.setSource s.handle none).markFired s.handle)
      (fun _ known => (known.setSource _ _).markFired _)
      fun r => ((r.setSource _ _).handles_markFired _).trans (r.handles_setSource _ _)
    rw [registered] at coherent
    have world : ({ m.world.setClock s.clock
        { k with registry := some ((r.setSource s.handle none).markFired s.handle) } with
          loop := m.world.loop.removeSource s.id } : World).Coherent :=
      h.world.withRegistry found coherent rfl rfl rfl fun _ member => (List.mem_filter.mp member).1
    exact of_source (world.of_eq rfl rfl) (h.batch (by rw [stage]; rfl))
  | drained stage batch => exact of_rest h.world batch
  | @orphan c i rest stage batch own gone =>
    rw [stage]
    refine of_draining (h.world.withBatch batch ?_)
    intro d own'
    rw [Idle.isOf_iff] at own own'
    rw [own] at own'
    cases own'
    exact gone
  | user log stage batch =>
    exact of_idle ((h.world.withBatch batch (by rintro _ ⟨⟩)).of_eq rfl rfl)
  | @fires ticket c g rest r f d x e log stage batch found final le first entry coherent idles =>
    have own := Idle.isOf_timer ticket c g
    obtain ⟨numbered, perm⟩ := (h.world.clocks c _ found).registered
    have after : (⟨some (r.markFired g), .fake (f.fired g d)⟩ : Clock).CoherentIn c
        (m.world.loop.withBatch rest) := by
      refine .looped (numbered.markFired g) ?_ coherent idles
      rw [Registry.handles_markFired]
      exact (TimerList.handles_setTrigger_perm ..).trans perm
    have world := h.world.setClock found after (EventLoop.sameBut_withBatch batch own) rfl
      fun _ => .inl
    refine ⟨world.of_eq rfl rfl, ?_, by rintro ⟨⟩⟩
    intro c' g' now ops' at_
    cases at_
    have known := World.lt_length_of_clock? found
    refine ⟨Nat.lt_of_lt_of_eq known (List.length_set ..).symm, ?_⟩
    intro k found'
    change (World.setClock ..).clock? c = _ at found'
    rw [World.clock?_setClock known, if_pos rfl] at found'
    cases found'
    exact ⟨rfl, rfl⟩
  | @applies ticket c rest r f x stage batch found final later coherent nothing idle =>
    have own := Idle.isOf_finalTime ticket c
    obtain ⟨numbered, perm⟩ := (h.world.clocks c _ found).registered
    have after : (⟨some r, .fake (f.arrived x.target)⟩ : Clock).CoherentIn c
        (m.world.loop.withBatch rest) :=
      .looped numbered perm coherent (nothing.trans idle.symm)
    have world := h.world.setClock found after (EventLoop.sameBut_withBatch batch own) rfl
      fun _ => .inl
    rw [stage]
    exact of_draining world
  | @returns origin stage gone =>
    cases origin with
    | source sources => exact of_expiring h.world (h.batch (by rw [stage]; rfl))
    | timer | idle => exact of_draining h.world
  | @reschedules c g now r f stage found outcome =>
    obtain ⟨numbered, perm⟩ := (h.world.clocks c _ found).registered
    have alarms := f.alarms_schedule c f.target m.world.loop
    have after : (⟨some r, .fake (f.reschedule c m.world.loop).1⟩ : Clock).CoherentIn c
        (f.reschedule c m.world.loop).2 := by
      refine .looped numbered ?_ outcome.coherent outcome.linked
      rw [TimerList.handles_eq_map_alarms] at perm ⊢
      exact alarms ▸ perm
    have sources := (f.rearranged_schedule c f.target m.world.loop).sources
    exact of_draining (h.world.setClock found after outcome.sameBut rfl fun s member =>
      .inl (sources ▸ member))
  | executes log stage => exact h.executes stage log _

theorem step (h : m.Coherent) (step : Step m m') : m'.Coherent := by
  cases step with
  | call op stage =>
    have executed := World.executed_exec m.world op
    refine ⟨h.world.exec op, ?_, ?_⟩
    · intro c g now ops stage'
      rw [stage] at stage'
      cases stage'
    · intro early
      exact List.sublist_nil.mp (h.batch (by rw [stage]; rfl) ▸ executed.batch_sublist)
  | pass t stage =>
    exact ⟨h.world.of_loop rfl rfl fun _ => id, h.looped, h.batch⟩
  | clear stage => exact ⟨h.world.of_eq rfl rfl, h.looped, h.batch⟩
  | turn stage =>
    exact of_expiring h.world (h.batch (by rw [stage]; rfl))
  | proceed => exact h.progress (progress_proceed h)

theorem steps (h : m.Coherent) (run : Relation.ReflTransGen Step m m') : m'.Coherent := by
  induction run with
  | refl => exact h
  | tail _ step ih => exact ih.step step

end Coherent

theorem Reachable.coherent (run : Reachable m) : m.Coherent := Coherent.empty.steps run

theorem Progress.history (next : m.Progress m') :
    m'.history = m.history ∨ (∃ op, m'.history = m.world.called op :: m.history) ∨
      ∃ c h now, m'.history = .fire c h now :: m.history := by
  cases next
  case expires | fires => exact .inr (.inr ⟨_, _, _, rfl⟩)
  case executes => exact .inr (.inl ⟨_, rfl⟩)
  all_goals exact .inl rfl

/-- A step leaves at most one event behind. -/
theorem Step.history (h : m.Coherent) (step : Step m m') :
    m'.history = m.history ∨ (∃ op, m'.history = m.world.called op :: m.history) ∨
      ∃ c h now, m'.history = .fire c h now :: m.history := by
  cases step with
  | call op => exact .inr (.inl ⟨op, rfl⟩)
  | proceed => exact (progress_proceed h).history
  | _ => exact .inl rfl

theorem Step.mem_history (h : m.Coherent) (step : Step m m') {e : Event}
    (member : e ∈ m'.history) : e ∈ m.history ∨ m'.history = e :: m.history := by
  rcases step.history h with same | ⟨_, new⟩ | ⟨_, _, _, new⟩
  · exact .inl (same ▸ member)
  all_goals
    rw [new] at member
    rcases List.mem_cons.mp member with rfl | member
    · exact .inr new
    · exact .inl member

theorem Progress.of_called (next : m.Progress m') {op : Op} {handle : Option TimerHandle}
    {now : Option Duration} {answer : Answer}
    (history : m'.history = .call op handle now answer :: m.history) :
    m.world.called op = .call op handle now answer ∧
      m'.world.clocks = (m.world.exec op).2.clocks ∧
      m'.world.loop = (m.world.exec op).2.loop := by
  cases next with
  | expires | fires => cases history
  | executes =>
    have event := (List.cons.inj history).1
    obtain ⟨rfl, _⟩ := Event.call.inj event
    exact ⟨event, rfl, rfl⟩
  | _ => exact absurd history List.ne_cons_self

theorem Step.of_called (h : m.Coherent) (step : Step m m') {op : Op}
    {handle : Option TimerHandle} {now : Option Duration} {answer : Answer}
    (history : m'.history = .call op handle now answer :: m.history) :
    m.world.called op = .call op handle now answer ∧
      m'.world.clocks = (m.world.exec op).2.clocks ∧
      m'.world.loop = (m.world.exec op).2.loop := by
  cases step with
  | call op' =>
    have event := (List.cons.inj history).1
    obtain ⟨rfl, _⟩ := Event.call.inj event
    exact ⟨event, rfl, rfl⟩
  | proceed => exact (progress_proceed h).of_called history
  | _ => exact absurd history List.ne_cons_self

theorem Reachable.exists_step (run : Reachable m) {later past : List Event} {e : Event}
    (split : m.history = later ++ e :: past) :
    ∃ a b, Reachable a ∧ Step a b ∧ a.history = past ∧ b.history = e :: past ∧
      Relation.ReflTransGen Step b m := by
  induction run generalizing later with
  | refl => simp at split
  | @tail a b before step ih =>
    have on {later : List Event} (split : a.history = later ++ e :: past) :
        ∃ a' b', Reachable a' ∧ Step a' b' ∧ a'.history = past ∧ b'.history = e :: past ∧
          Relation.ReflTransGen Step b' b := by
      obtain ⟨a', b', run, first, old, new, rest⟩ := ih split
      exact ⟨a', b', run, first, old, new, rest.tail step⟩
    have mem := step.history (Reachable.coherent before)
    cases later with
    | nil =>
      rcases mem with same | ⟨_, new⟩ | ⟨_, _, _, new⟩
      · exact on (same.symm.trans split)
      all_goals
        obtain ⟨same, old⟩ := List.cons.inj (new.symm.trans split)
        exact ⟨a, b, before, step, old, split, .refl⟩
    | cons x later =>
      rcases mem with same | ⟨_, new⟩ | ⟨_, _, _, new⟩
      · exact on (same.symm.trans split)
      all_goals exact on (List.cons.inj (new.symm.trans split)).2

/-- Calls from nothing, with no dispatch between them. -/
def ofCalls (ops : List Op) : Moment :=
  ops.foldl (fun m op =>
    { m with world := (m.world.exec op).2, history := m.world.called op :: m.history }) {}

theorem ofCalls_concat (ops : List Op) (op : Op) :
    ofCalls (ops ++ [op]) =
      { ofCalls ops with
        world := ((ofCalls ops).world.exec op).2
        history := (ofCalls ops).world.called op :: (ofCalls ops).history } := by
  simp [ofCalls]

theorem stage_ofCalls (ops : List Op) : (ofCalls ops).stage = .rest := by
  induction ops using List.reverseRecOn with
  | nil => rfl
  | append_singleton ops op ih => rw [ofCalls_concat, ih]

theorem step_ofCalls (ops : List Op) (op : Op) : Step (ofCalls ops) (ofCalls (ops ++ [op])) := by
  rw [ofCalls_concat]
  exact .call op (stage_ofCalls ops)

theorem reachable_ofCalls (ops : List Op) : Reachable (ofCalls ops) := by
  induction ops using List.reverseRecOn with
  | nil => exact .refl
  | append_singleton ops op ih => exact ih.tail (step_ofCalls ops op)

theorem steps_turn (rest : m.stage = .rest) (n : Nat) :
    Relation.ReflTransGen Step m (Nat.repeat proceed n m.turn) := by
  induction n with
  | zero => exact .single (.turn rest)
  | succ n ih => exact ih.tail .proceed

theorem steps_call_turn (rest : m.stage = .rest) (op : Op) (n : Nat) :
    Relation.ReflTransGen Step m (Nat.repeat proceed n (turn
      { m with world := (m.world.exec op).2, history := m.world.called op :: m.history })) := by
  refine .head (.call op rest) ?_
  exact steps_turn (m := ⟨(m.world.exec op).2, m.stage, _ :: m.history⟩) rest n

theorem Reachable.turn (run : Reachable m) (rest : m.stage = .rest) (n : Nat) :
    Reachable (Nat.repeat proceed n m.turn) :=
  Relation.ReflTransGen.trans run (steps_turn rest n)

end Moment

end VirtualClock
