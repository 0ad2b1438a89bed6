import VirtualClock.Proofs.World.Overlay
import VirtualClock.Proofs.World.Reachable

/-!
The task being run. The loop holds the task that it runs, so cancelling that very task from inside
its body would be an error. No body does: when the dispatch of a timer starts, the timer holds the
task's ticket and gives it up before anything else happens, and the final task is forgotten before
it queues anything; from then on no clock holds the ticket, and all of the body would do just the
same, and leave the task alone, if it still stood on the loop.
-/

namespace VirtualClock

namespace EventLoop

/-- The loop with task `i` still on it, before all others. -/
def holding (i : Idle) (l : EventLoop) : EventLoop := { l with batch := i :: l.batch }

theorem overlay_holding (i : Idle) : Overlay (holding i) (· ≠ i.ticket) fun _ => True where
  now _ := rfl
  nextTicket _ := rfl
  nextSource _ := rfl
  enqueueAll _ _ := rfl
  cancel l ticket other := by
    have kept : (i.ticket == ticket) = false := beq_false_of_ne (Ne.symm other)
    simp [EventLoop.cancel, holding, kept]
  insertSource _ _ _ _ := rfl
  removeSource _ _ _ := rfl

theorem idlesOf_holding {i : Idle} {c : Nat} (other : i.isOf c = false) (l : EventLoop) :
    (l.holding i).idlesOf c = l.idlesOf c := by
  simp [idlesOf, live, holding, other]

end EventLoop

namespace World

/-- No clock holds the ticket, neither for a timer's dispatch nor for its final task. -/
def Forgets (w : World) (ticket : Ticket) : Prop :=
  ∀ c f, w.fakeTime? c = some f → ticket ∉ f.tickets

variable {w : World} {ticket : Ticket}

theorem Forgets.spares (forgets : w.Forgets ticket) : w.Spares (· ≠ ticket) fun _ => True := by
  intro c k found
  refine ⟨?_, fun _ _ _ _ _ _ => trivial⟩
  rintro f fake _ held rfl
  exact forgets c f (fakeTime?_of_clock? found fake) held

theorem Coherent.mem_idlesOf {c : Nat} {f : FakeTime} (h : w.Coherent)
    (found : w.fakeTime? c = some f) (held : ticket ∈ f.tickets) :
    ∃ i ∈ w.loop.idlesOf c, i.ticket = ticket := by
  obtain ⟨k, clock, fake⟩ := fakeTime?_eq_some_iff.mp found
  rw [((h.clocks c k clock).fake fake).2]
  rcases List.mem_append.mp held with timer | final
  · obtain ⟨t, member, pending⟩ := List.mem_filterMap.mp timer
    exact ⟨⟨ticket, .timer c t.handle⟩, List.mem_append_left _
      (TimerList.mem_idles_iff.mpr ⟨t, member, pending, rfl⟩), rfl⟩
  · obtain ⟨x, final, rfl⟩ := Option.map_eq_some_iff.mp (Option.mem_toList.mp final)
    have some : f.final = some x := by assumption
    exact ⟨⟨x.ticket, .finalTime c⟩, List.mem_append_right _ (by simp [some]), rfl⟩

theorem Coherent.holding (h : w.Coherent) {i : Idle} (unowned : i.task.owner? = none)
    (spent : i.ticket < w.loop.nextTicket) (gone : ∀ j ∈ w.loop.live, j.ticket ≠ i.ticket) :
    (w.overlaid (EventLoop.holding i)).Coherent := by
  have live : (w.loop.holding i).live = i :: w.loop.live := rfl
  refine h.of_live ⟨?_, ?_⟩ ?_ ?_ fun _ => id
  · rw [live, List.map_cons]
    refine List.nodup_cons.mpr ⟨?_, h.ticketed.distinct⟩
    intro member
    obtain ⟨j, old, same⟩ := List.mem_map.mp member
    exact gone j old same
  · intro j member
    rcases List.mem_cons.mp (live ▸ member) with rfl | old
    · exact spent
    · exact h.ticketed.lt_next j old
  · intro j member
    rcases List.mem_cons.mp (live ▸ member) with rfl | old
    · exact .inr unowned
    · exact .inl old
  · intro c _ _
    exact EventLoop.idlesOf_holding (by simp [Idle.isOf, unowned]) w.loop

/-- While a task of no clock stands on the loop, no clock holds its ticket. -/
theorem Coherent.forgets {i : Idle} (h : (w.overlaid (EventLoop.holding i)).Coherent)
    (unowned : i.task.owner? = none) : w.Forgets i.ticket := by
  intro c f found held
  obtain ⟨j, own, same⟩ := h.mem_idlesOf (c := c) found held
  obtain ⟨live, ofClock⟩ := List.mem_filter.mp own
  have standing : i ∈ (w.overlaid (EventLoop.holding i)).loop.live := List.mem_cons_self
  rw [Keyed.eq_of_mem h.ticketed.distinct live standing same, Idle.isOf_iff, unowned] at ofClock
  cases ofClock

end World

namespace Moment

variable {m m' : Moment} {c : Nat} {i : Idle} {rest : List Idle}

/-- The moment with task `i` still on the loop. -/
abbrev holding (m : Moment) (i : Idle) : Moment := m.overlaid (EventLoop.holding i)

/-- The moments from the first call out of a task's body to the end of the body; the task starts
in moment `m`. -/
inductive Body (m : Moment) : Moment → Prop where
  | starts : Body m m.proceed
  | goesOn {m' : Moment} {origin : Origin} {ops : List Op} :
    Body m m' → m'.stage = .running origin ops → Body m m'.proceed

section body

variable (h : m.Coherent) (draining : m.stage = .draining)
  (batch : m.world.loop.batch = i :: rest) (own : i.isOf c = true)

include draining batch own in
theorem Progress.loop_eq (next : m.Progress m') :
    m'.world.loop = m.world.loop.withBatch rest ∧ m'.stage.hasBatch = true := by
  have same {j : Idle} {rest' : List Idle} (batch' : m.world.loop.batch = j :: rest') :
      i = j ∧ rest = rest' :=
    List.cons.inj (batch.symm.trans batch')
  cases next with
  | orphan _ batch' => exact ⟨by rw [(same batch').2], by rw [draining]; rfl⟩
  | user log _ batch' =>
    rw [(same batch').1, Idle.isOf_iff] at own
    cases own
  | fires log _ batch' => exact ⟨by rw [(same batch').2], rfl⟩
  | applies _ batch' => exact ⟨by rw [(same batch').2], by rw [draining]; rfl⟩
  | drained _ batch' => simp [batch] at batch'
  | resting at_ => simp [draining] at at_
  | takes at_ => simp [draining] at at_
  | skips _ at_ => simp [draining] at at_
  | misses at_ => simp [draining] at at_
  | expires _ at_ => simp [draining] at at_
  | returns at_ => simp [draining] at at_
  | reschedules at_ => simp [draining] at at_
  | executes _ at_ => simp [draining] at at_

/-- A task of no clock under the ticket of task `i`. -/
def twin (i : Idle) : Idle := ⟨i.ticket, .idle "" []⟩

include h draining batch own

/-- Throughout the body of a clock's own task, the moment would be coherent with a task of no clock
under the same ticket on the loop. -/
theorem Body.coherent (body : m.Body m') : (m'.holding (twin i)).Coherent := by
  induction body with
  | starts =>
    obtain ⟨loop, hasBatch⟩ := (progress_proceed h).loop_eq draining batch own
    have coherent := h.progress (progress_proceed h)
    have live := EventLoop.live_eq batch
    have distinct := h.world.ticketed.distinct
    rw [live, List.map_cons, List.nodup_cons] at distinct
    refine ⟨coherent.world.holding rfl ?_ ?_, coherent.looped, ?_⟩
    · rw [loop]
      exact h.world.ticketed.lt_next i (live ▸ List.mem_cons_self)
    · intro j member same
      rw [loop] at member
      exact distinct.1 (List.mem_map.mpr ⟨j, member, same⟩)
    · intro early
      exact absurd (early.symm.trans hasBatch) (by simp)
  | @goesOn m' origin ops _ running ih =>
    have forgets : m'.world.Forgets i.ticket := ih.world.forgets rfl
    have commutes := proceed_overlaid (EventLoop.overlay_holding (twin i)) forgets.spares running
    rw [holding, ← commutes]
    exact ih.progress (progress_proceed ih)

theorem Body.forgets (body : m.Body m') : m'.world.Forgets i.ticket :=
  (body.coherent h draining batch own).world.forgets rfl

end body

theorem pending_of_next (h : m.Coherent) {ticket : Ticket} {g : TimerHandle}
    (batch : m.world.loop.batch = ⟨ticket, .timer c g⟩ :: rest) {f : FakeTime}
    (found : m.world.fakeTime? c = some f) {t : TimerRecord} (timer : f.timers.find? g = some t) :
    t.pending = some ticket := by
  have own := Idle.isOf_timer ticket c g
  obtain ⟨k, clock, fake⟩ := World.fakeTime?_eq_some_iff.mp found
  rcases h.world.of_next batch own with gone | ⟨r, f', clock', _, _, coherent, _, idles⟩
  · simp [gone] at clock
  · rw [clock] at clock'
    cases clock'
    cases fake
    obtain ⟨more, dispatches, _⟩ := FakeTime.idles_timers_of_idles idles
    obtain ⟨u, _, _, timer', pending, _⟩ := coherent.first_of_idles dispatches
    rw [timer] at timer'
    cases timer'
    exact pending

theorem idles_of_next_finalTime (h : m.Coherent) {ticket : Ticket}
    (batch : m.world.loop.batch = ⟨ticket, .finalTime c⟩ :: rest) {f : FakeTime}
    (found : m.world.fakeTime? c = some f) : f.idles c = [⟨ticket, .finalTime c⟩] := by
  have own := Idle.isOf_finalTime ticket c
  obtain ⟨k, clock, fake⟩ := World.fakeTime?_eq_some_iff.mp found
  rcases h.world.of_next batch own with gone | ⟨r, f', clock', _, _, coherent, _, idles⟩
  · simp [gone] at clock
  · rw [clock] at clock'
    cases clock'
    cases fake
    obtain ⟨nothing, _⟩ := FakeTime.applyFinal_of_idles coherent idles m.world.loop
    rw [idles, nothing]

theorem pending_eq_none_of_finalTime {f : FakeTime} {ticket : Ticket}
    (idles : f.idles c = [⟨ticket, .finalTime c⟩]) {t : TimerRecord}
    (member : t ∈ f.timers.toList) : t.pending = none := by
  cases pending : t.pending with
  | none => rfl
  | some n =>
    have queued : (⟨n, .timer c t.handle⟩ : Idle) ∈ f.idles c :=
      List.mem_append_left _ (TimerList.mem_idles_iff.mpr ⟨t, member, pending, rfl⟩)
    rw [idles] at queued
    cases List.mem_singleton.mp queued

theorem forgets_arrived (h : m.Coherent) {ticket : Ticket}
    (batch : m.world.loop.batch = ⟨ticket, .finalTime c⟩ :: rest) {k : Clock} {f : FakeTime}
    (found : m.world.clock? c = some k) (fake : k.source = .fake f) (target : Duration) :
    (m.world.setClock c { k with source := .fake (f.arrived target) }).Forgets ticket := by
  have own := Idle.isOf_finalTime ticket c
  have live : (⟨ticket, .finalTime c⟩ : Idle) ∈ m.world.loop.live := by
    simp [EventLoop.live, batch]
  have idles := idles_of_next_finalTime h batch
    (World.fakeTime?_of_clock? found fake)
  intro d f' found' held
  obtain ⟨k', clock', fake'⟩ := World.fakeTime?_eq_some_iff.mp found'
  rw [World.clock?_setClock (World.lt_length_of_clock? found)] at clock'
  split at clock'
  · cases clock'
    cases fake'
    obtain ⟨t, member, pending⟩ : ∃ t ∈ f.timers.toList, t.pending = some ticket := by
      simpa [FakeTime.tickets, FakeTime.arrived] using held
    simp [pending_eq_none_of_finalTime idles member] at pending
  · next other =>
    obtain ⟨j, queued, same⟩ := h.world.mem_idlesOf
      (World.fakeTime?_of_clock? clock' fake') held
    obtain ⟨live', ofOther⟩ := List.mem_filter.mp queued
    rw [Keyed.eq_of_mem h.world.ticketed.distinct live' live same, Idle.isOf_iff] at ofOther
    cases ofOther
    exact other rfl

/-- Up to its first call out, a body leaves its own task alone. -/
theorem start_eq (h : m.Coherent) (draining : m.stage = .draining)
    (batch : m.world.loop.batch = i :: rest) (own : i.isOf c = true) :
    m.start i.task = m.proceed.holding i := by
  let taken : Moment := { m with world := { m.world with loop := m.world.loop.withBatch rest } }
  have whole : taken.holding i = m := by
    obtain ⟨⟨_, loop, _, _⟩, _, _⟩ := m
    obtain ⟨_, _, _, _, _, _⟩ := loop
    cases batch
    rfl
  have next : m.proceed = taken.start i.task := by
    simp only [proceed, draining, EventLoop.next?_eq batch]
    rfl
  rw [next]
  nth_rewrite 1 [← whole]
  obtain ⟨ticket, task⟩ := i
  cases task with
  | idle name ops => cases Idle.isOf_iff.mp own
  | timer d g => exact fire_overlaid (EventLoop.overlay_holding _) taken d g
  | finalTime d =>
    have commutes := World.applyFinal_overlaid (w := taken.world)
      (EventLoop.overlay_holding ⟨ticket, .finalTime d⟩) (c := d) ?_
    · simp only [start]
      rw [show (taken.holding ⟨ticket, .finalTime d⟩).world = taken.world.overlaid _ from rfl,
        commutes]
      rfl
    · intro k f found fake t member n pending
      have idles := idles_of_next_finalTime h batch
        (World.fakeTime?_of_clock? found fake)
      simp [pending_eq_none_of_finalTime idles member] at pending

/-- No body of a clock's own task cancels the task being run. In every reachable moment, the
dispatch of a timer that is taken up is the one that the timer holds, if there still is such a
timer, and the final task is the one that the clock holds. Once it is given up, which is before the
body calls anything else, no clock holds its ticket, to the end of the body and whatever a callback
does; and every part of the body does the same, and leaves the task where it is, if the task still
stood on the loop. -/
theorem running_task_never_cancelled (run : m.Reachable) (draining : m.stage = .draining)
    (batch : m.world.loop.batch = i :: rest) (own : i.isOf c = true) :
    (∀ k f, m.world.clock? c = some k → k.source = .fake f →
      (∀ g t, i.task = .timer c g → f.timers.find? g = some t → t.pending = some i.ticket) ∧
      (∀ x, i.task = .finalTime c → f.final = some x → x.ticket = i.ticket ∧
        (m.world.setClock c { k with source := .fake (f.arrived x.target) }).Forgets i.ticket)) ∧
    m.start i.task = m.proceed.holding i ∧
    ∀ m', m.Body m' → m'.world.Forgets i.ticket ∧
      ∀ origin ops, m'.stage = .running origin ops →
        (m'.holding i).proceed = m'.proceed.holding i := by
  have h := run.coherent
  refine ⟨?_, start_eq h draining batch own, ?_⟩
  · intro k f found fake
    have time : m.world.fakeTime? c = some f := World.fakeTime?_of_clock? found fake
    obtain ⟨ticket, task⟩ := i
    refine ⟨?_, ?_⟩
    · rintro g t rfl timer
      exact pending_of_next h batch time timer
    · rintro x rfl final
      refine ⟨?_, forgets_arrived h batch found fake x.target⟩
      have queued : (⟨x.ticket, .finalTime c⟩ : Idle) ∈ f.idles c :=
        List.mem_append_right _ (by simp [final])
      rw [idles_of_next_finalTime h batch time] at queued
      cases List.mem_singleton.mp queued
      rfl
  · intro m' body
    have forgets := body.forgets h draining batch own
    exact ⟨forgets, fun origin ops running =>
      proceed_overlaid (EventLoop.overlay_holding i) forgets.spares running⟩

/-- A timer that arms itself again, to be due by the pending advance: its dispatch had ticket 1,
and the one that it holds after the body was queued anew. -/
theorem running_task_never_cancelled_rearming :
    ∃ m m' f, Reachable m ∧ m.Body m' ∧ m.world.loop.batch.map (·.ticket) = [1, 2] ∧
      m'.world.fakeTime? 0 = some f ∧ m'.world.Forgets 1 ∧ f.tickets = [5, 6] := by
  obtain ⟨m, at_⟩ : ∃ m, m = Nat.repeat proceed 1 (turn (ofCalls [.new .fake true,
      .add 0 "tick" [[.update 0 "tick" 2]] true, .update 0 "tick" 2,
      .advance 0 (.ofMillis 5)])) := ⟨_, rfl⟩
  have run : Reachable m := at_ ▸ (reachable_ofCalls _).turn rfl 1
  have batch : m.world.loop.batch = [⟨1, .timer 0 ⟨0⟩⟩, ⟨2, .finalTime 0⟩] := by
    rw [at_]
    rfl
  have calling : m.proceed.stage = .running (.timer 0 ⟨0⟩ (.ofMillis 2)) [.update 0 "tick" 2] := by
    rw [at_]
    rfl
  have returning : m.proceed.proceed.stage = .running (.timer 0 ⟨0⟩ (.ofMillis 2)) [] := by
    rw [at_]
    rfl
  have ended : m.Body m.proceed.proceed.proceed := .goesOn (.goesOn .starts calling) returning
  obtain ⟨f, time, tickets⟩ :
      ∃ f, m.proceed.proceed.proceed.world.fakeTime? 0 = some f ∧ f.tickets = [5, 6] := by
    rw [at_]
    exact ⟨_, rfl, rfl⟩
  obtain ⟨_, _, never⟩ :=
    running_task_never_cancelled (c := 0) run (by rw [at_]; rfl) batch (Idle.isOf_timer ..)
  exact ⟨m, _, f, run, ended, by rw [batch]; rfl, time, (never _ ended).1, tickets⟩

end Moment

end VirtualClock
