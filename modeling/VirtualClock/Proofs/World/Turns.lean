import VirtualClock.Proofs.World.Calls
import VirtualClock.Scenario

/-!
Small steps come to what whole dispatches come to. From the start of a dispatch its moments lead
to rest in the world that `World.dispatch` computes, and to no other; so every world that a
scenario goes through is that of a reachable moment at rest.
-/

namespace VirtualClock

namespace World

variable (w : World)

theorem batch_execAll_sublist (ops : List Op) :
    (w.execAll ops).loop.batch.Sublist w.loop.batch := by
  induction ops generalizing w with
  | nil => exact List.Sublist.refl _
  | cons op ops ih => exact (ih (w.execLogged op)).trans (executed_exec w op).batch_sublist

theorem batch_runCallback_sublist (c : Nat) (h : TimerHandle) :
    (w.runCallback c h).loop.batch.Sublist w.loop.batch := by
  unfold runCallback
  repeat' split
  · exact List.Sublist.refl _
  · exact List.Sublist.refl _
  · exact batch_execAll_sublist _ _

theorem batch_reschedule_sublist (c : Nat) :
    (w.reschedule c).loop.batch.Sublist w.loop.batch := by
  unfold reschedule
  split
  · exact List.Sublist.refl _
  · split
    · exact List.Sublist.refl _
    · exact (FakeTime.rearranged_schedule ..).batch

theorem batch_runTask_sublist (task : Task) :
    (w.runTask task).loop.batch.Sublist w.loop.batch := by
  cases task with
  | timer c h =>
    simp only [runTask, runTimer]
    repeat' split
    · exact List.Sublist.refl _
    · exact List.Sublist.refl _
    · exact (batch_reschedule_sublist _ c).trans (batch_runCallback_sublist _ c h)
    · exact List.Sublist.refl _
  | finalTime c =>
    simp only [runTask, applyFinal]
    repeat' split
    · exact List.Sublist.refl _
    · exact List.Sublist.refl _
    · exact (FakeTime.rearranged_applyFinal ..).batch
  | idle name ops => exact batch_execAll_sublist _ ops

theorem step_of_nil (drained : w.loop.batch = []) : w.step = w := by
  unfold step EventLoop.next?
  rw [drained]

theorem step_of_cons {idle : Idle} {rest : List Idle} (batch : w.loop.batch = idle :: rest) :
    w.step = { w with loop := { w.loop with batch := rest } }.runTask idle.task := by
  unfold step EventLoop.next?
  rw [batch]

/-- With each task that is run the batch gets shorter. -/
theorem length_batch_repeat_step (n : Nat) :
    (Nat.repeat step n w).loop.batch.length ≤ w.loop.batch.length - n := by
  induction n with
  | zero => exact Nat.le_refl _
  | succ n ih =>
    change (step (Nat.repeat step n w)).loop.batch.length ≤ _
    generalize Nat.repeat step n w = w' at ih
    cases batch : w'.loop.batch with
    | nil =>
      rw [step_of_nil w' batch, batch]
      exact Nat.zero_le _
    | cons idle rest =>
      have shorter : (w'.step).loop.batch.length ≤ rest.length := by
        rw [step_of_cons w' batch]
        exact (batch_runTask_sublist { w' with loop := { w'.loop with batch := rest } } _).length_le
      rw [batch, List.length_cons] at ih
      omega

end World

namespace Moment

variable {m m' m'' : Moment}

theorem proceeds_running (w : World) (origin : Origin) (ops : List Op) (history : List Event) :
    ∃ events, (⟨w, .running origin ops, history⟩ : Moment).Proceeds
      ⟨w.execAll ops, .running origin [], events ++ history⟩ := by
  induction ops generalizing w history with
  | nil => exact ⟨[], .refl⟩
  | cons op ops ih =>
    obtain ⟨events, rest⟩ := ih (w.execLogged op) (w.called op :: history)
    refine ⟨events ++ [w.called op], .head rfl ?_⟩
    rw [List.append_assoc]
    exact rest

theorem proceeds_enter (w : World) (c : Nat) (h : TimerHandle) (origin : Origin) (stage : Stage)
    (history : List Event) :
    ∃ events, ((⟨w, stage, history⟩ : Moment).enter c h origin).Proceeds
      ⟨w.runCallback c h, .running origin [], events ++ history⟩ := by
  rw [World.runCallback_eq]
  unfold enter
  cases w.enter? c h with
  | none => exact ⟨[], .refl⟩
  | some entered =>
    obtain ⟨ops, entered⟩ := entered
    obtain ⟨events, rest⟩ :=
      proceeds_running entered origin ops (.fire c h (w.fakeNow? c) :: history)
    exact ⟨events ++ [.fire c h (w.fakeNow? c)], by rw [List.append_assoc]; exact rest⟩

theorem proceeds_expire (w : World) (stage : Stage) (s : Source) (rest : List Source)
    (history : List Event) :
    ∃ events, ((⟨w, stage, history⟩ : Moment).expire s rest).Proceeds
      ⟨w.expire s, .expiring rest, events ++ history⟩ := by
  unfold expire World.expire
  split
  · cases found : World.clock? { w with loop := w.loop.removeSource s.id } s.clock with
    | none =>
      simp only [found]
      exact ⟨[], .refl⟩
    | some k =>
      simp only [found]
      obtain ⟨events, called⟩ := proceeds_enter _ s.clock s.handle (.source rest) stage history
      exact ⟨events, called.tail rfl⟩
  · exact ⟨[], .refl⟩

theorem proceeds_expiring (w : World) (sources : List Source) (history : List Event) :
    ∃ events, (⟨w, .expiring sources, history⟩ : Moment).Proceeds
      ⟨sources.foldl World.expire w, .expiring [], events ++ history⟩ := by
  induction sources generalizing w history with
  | nil => exact ⟨[], .refl⟩
  | cons s sources ih =>
    obtain ⟨before, first⟩ := proceeds_expire w (.expiring (s :: sources)) s sources history
    obtain ⟨after, others⟩ := ih (w.expire s) (before ++ history)
    refine ⟨after ++ before, .head rfl ?_⟩
    rw [List.append_assoc]
    exact first.trans others

theorem proceeds_start (w : World) (task : Task) (history : List Event) :
    ∃ events, ((⟨w, .draining, history⟩ : Moment).start task).Proceeds
      ⟨w.runTask task, .draining, events ++ history⟩ := by
  cases task with
  | timer c h =>
    simp only [start, fire, World.runTask, World.runTimer]
    cases w.clock? c with
    | none => exact ⟨[], .refl⟩
    | some k =>
      obtain ⟨registry, source⟩ := k
      cases source with
      | real => exact ⟨[], .refl⟩
      | fake f =>
        simp only
        cases (f.fire h).2 with
        | false => exact ⟨[], .refl⟩
        | true =>
          obtain ⟨events, called⟩ :=
            proceeds_enter _ c h (.timer c h (f.fire h).1.now) .draining history
          exact ⟨events, called.tail rfl⟩
  | finalTime c => exact ⟨[], .refl⟩
  | idle name ops =>
    obtain ⟨events, run⟩ := proceeds_running (w.record (.idle name w.readings)) .idle ops history
    exact ⟨events, run.tail rfl⟩

theorem proceeds_step (w : World) (history : List Event) :
    ∃ events, (⟨w, .draining, history⟩ : Moment).Proceeds
      ⟨w.step, .draining, events ++ history⟩ := by
  cases batch : w.loop.batch with
  | nil => exact ⟨[], by rw [w.step_of_nil batch]; exact .refl⟩
  | cons idle rest =>
    rw [w.step_of_cons batch]
    obtain ⟨events, run⟩ :=
      proceeds_start { w with loop := { w.loop with batch := rest } } idle.task history
    refine ⟨events, .head ?_ run⟩
    simp [proceed, EventLoop.next?, batch]

theorem proceeds_repeat_step (w : World) (n : Nat) (history : List Event) :
    ∃ events, (⟨w, .draining, history⟩ : Moment).Proceeds
      ⟨Nat.repeat World.step n w, .draining, events ++ history⟩ := by
  induction n with
  | zero => exact ⟨[], .refl⟩
  | succ n ih =>
    obtain ⟨before, others⟩ := ih
    obtain ⟨after, last⟩ := proceeds_step (Nat.repeat World.step n w) (before ++ history)
    refine ⟨after ++ before, others.trans ?_⟩
    rw [List.append_assoc]
    exact last

/-- A dispatch leads to rest in the world that it computes. -/
theorem proceeds_turn (w : World) (history : List Event) :
    ∃ events, (⟨w, .rest, history⟩ : Moment).turn.Proceeds
      ⟨w.dispatch, .rest, events ++ history⟩ := by
  let started : World := { w.expireAll with loop := w.expireAll.loop.takeQueue }
  obtain ⟨before, expired⟩ := proceeds_expiring w w.loop.expired history
  obtain ⟨after, run⟩ :=
    proceeds_repeat_step started started.loop.batch.length (before ++ history)
  have drained : w.dispatch.loop.batch = [] := by
    have short := started.length_batch_repeat_step started.loop.batch.length
    rw [Nat.sub_self] at short
    exact List.eq_nil_of_length_eq_zero (Nat.le_zero.mp short)
  refine ⟨after ++ before, expired.trans (.head rfl (run.tail ?_))⟩
  have last : (⟨w.dispatch, .draining, after ++ (before ++ history)⟩ : Moment).proceed =
      ⟨w.dispatch, .rest, after ++ (before ++ history)⟩ := by
    simp [proceed, EventLoop.next?, drained]
  rw [List.append_assoc]
  exact last.symm

theorem Proceeds.eq_of_rest (started : m.Proceeds m') (rest : m'.stage = .rest)
    (again : m.Proceeds m'') (rest' : m''.stage = .rest) : m' = m'' := by
  have stays {a b : Moment} (rest : a.stage = .rest) (more : a.Proceeds b) : b = a := by
    induction more with
    | refl => rfl
    | tail _ last ih =>
      subst ih
      rw [last, proceed, rest]
  have unique : Relator.RightUnique fun a b : Moment => b = a.proceed :=
    fun _ _ _ h h' => h.trans h'.symm
  rcases Relation.ReflTransGen.total_of_right_unique unique started again with more | more
  · exact (stays rest more).symm
  · exact stays rest' more

theorem Proceeds.steps (started : m.Proceeds m') : Relation.ReflTransGen Step m m' := by
  induction started with
  | refl => exact .refl
  | tail _ next ih =>
    subst next
    exact ih.tail .proceed

theorem Turns.rest {n : Nat} (turns : m.Turns n m') : m'.stage = .rest := by
  cases turns with
  | zero rest => exact rest
  | succ _ _ rest => exact rest

/-- Dispatches from rest come to one moment only, in the world that they compute. -/
theorem exists_turns (rest : m.stage = .rest) (n : Nat) :
    ∃ m', m.Turns n m' ∧ m'.world = m.world.dispatchTimes n ∧ ∀ m'', m.Turns n m'' → m'' = m' := by
  induction n with
  | zero =>
    refine ⟨m, .zero rest, rfl, ?_⟩
    intro m'' turns
    cases turns
    rfl
  | succ n ih =>
    obtain ⟨m', turns, world, unique⟩ := ih
    have rest' := turns.rest
    obtain ⟨w, stage, history⟩ := m'
    simp only at rest' world
    subst rest'
    obtain ⟨events, last⟩ := proceeds_turn w history
    refine ⟨_, .succ turns last rfl, by rw [world]; rfl, ?_⟩
    intro m'' turns'
    cases turns' with
    | succ before last' rest'' =>
      rw [unique _ before] at last'
      exact last'.eq_of_rest rest'' last rfl

theorem Turns.steps {n : Nat} (turns : m.Turns n m') : Relation.ReflTransGen Step m m' := by
  induction turns with
  | zero _ => exact .refl
  | succ before last _ ih => exact (ih.tail (.turn before.rest)).trans last.steps

section scenarios

/-- A world in which some run comes to rest. -/
def Rests (w : World) : Prop := ∃ history, Reachable ⟨w, .rest, history⟩

variable {w : World}

theorem Rests.exec (rests : Rests w) (op : Op) : Rests (w.exec op).2 := by
  obtain ⟨history, run⟩ := rests
  exact ⟨_, run.tail (.call op rfl)⟩

theorem Rests.passTo (rests : Rests w) (t : Nat) : Rests (w.passTo t) := by
  obtain ⟨history, run⟩ := rests
  exact ⟨history, run.tail (.pass t rfl)⟩

theorem Rests.dispatch (rests : Rests w) : Rests w.dispatch := by
  obtain ⟨history, run⟩ := rests
  obtain ⟨events, turn⟩ := proceeds_turn w history
  exact ⟨events ++ history, (run.tail (.turn rfl)).trans turn.steps⟩

theorem Rests.dispatchTimes (rests : Rests w) (n : Nat) : Rests (w.dispatchTimes n) := by
  induction n with
  | zero => exact rests
  | succ n ih => exact ih.dispatch

theorem Rests.settle (rests : Rests w) (n : Nat) : Rests (World.settle n w).2 := by
  induction n generalizing w with
  | zero => exact rests
  | succ n ih =>
    unfold World.settle
    split
    · exact ih rests.dispatch
    · exact rests

theorem Rests.waitRounds (rests : Rests w) (enough finish fuel : Nat) :
    Rests (World.waitRounds enough finish fuel w) := by
  induction fuel generalizing w with
  | zero => exact rests
  | succ fuel ih =>
    unfold World.waitRounds
    split
    · exact rests
    · split
      · split
        · split
          · exact ih (rests.passTo _).dispatch
          · exact rests.passTo _
        · exact rests.passTo _
      · exact ih rests.dispatch

theorem Rests.start (clocks : List (Mode × Bool)) : Rests (Scenario.start clocks) := by
  have run (w : World) (rests : Rests w) :
      Rests (clocks.foldl (fun w clock => w.newClock clock.1 clock.2) w) := by
    induction clocks generalizing w with
    | nil => exact rests
    | cons clock clocks ih => exact ih _ (rests.exec (.new clock.1 clock.2))
  exact run {} ⟨[], .refl⟩

/-- The steps of a scenario go from one reachable moment at rest to the next. -/
theorem Rests.report (rests : Rests w) (step : VirtualClock.Step) :
    Rests (Scenario.report w step).2 := by
  obtain ⟨history, run⟩ := rests
  have cleared : Rests { w with log := [] } := ⟨history, run.tail (.clear rfl)⟩
  cases step with
  | op op => exact cleared.exec op
  | dispatch n => exact cleared.dispatchTimes n
  | settle max => exact cleared.settle max
  | wait n cap => exact cleared.waitRounds ..

end scenarios

end Moment

end VirtualClock
