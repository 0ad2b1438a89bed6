import VirtualClock.Proofs.World.Reachable
import VirtualClock.Proofs.World.Turns

/-!
A clock on fake time that has the loop to itself, with timers that do nothing but fire. All work on
the loop is the clock's own, so a dispatch fires the first timer, if it is due by the pending
target, and with no timer due it makes the target the current time.
-/

namespace VirtualClock

theorem Callback.ops_eq_nil {callback : Callback} (inert : callback.fires = []) :
    callback.ops = [] := by
  simp [ops, inert]

theorem EventLoop.takeQueue_of_nil {l : EventLoop} (queue : l.queue = []) : l.takeQueue = l := by
  obtain ⟨_, _, _, _, _, _⟩ := l
  subst queue
  simp [takeQueue]

/-- On a loop that has work of one clock only, queueing that anew empties the batch. -/
theorem FakeTime.Coherent.reschedule_own {f : FakeTime} {c : Nat} {l : EventLoop}
    (coherent : f.Coherent) (ticketed : l.Ticketed) (linked : l.idlesOf c = f.idles c)
    (own : ∀ i ∈ l.live, i.isOf c = true) :
    (∀ i ∈ (f.reschedule c l).2.live, i.isOf c = true) ∧ (f.reschedule c l).2.batch = [] := by
  have outcome := FakeTime.outcome_reschedule ticketed linked coherent
  have own' : ∀ i ∈ (f.reschedule c l).2.live, i.isOf c = true := fun i member =>
    (outcome.sameBut.mem_live member).elim id (own i)
  refine ⟨own', List.eq_nil_iff_forall_not_mem.mpr fun i member => ?_⟩
  have mine := own' i (List.mem_append_left _ member)
  have loop : (f.reschedule c l).2 = (l.without c).enqueueAll _ :=
    FakeTime.loop_schedule ticketed linked coherent.sorted coherent.covered
  rw [loop] at member
  exact List.filter_eq_nil_iff.mp (EventLoop.batch_without_isOf l c) i member mine

namespace World

variable {w : World} {r r' : Registry} {f f' : FakeTime} {g : TimerHandle} {e : Registration}
  {d : Duration} {x : FinalTime} {i : Idle} {rest : List Idle}

theorem Coherent.dispatch (h : w.Coherent) (batch : w.loop.batch = []) : w.dispatch.Coherent := by
  have start : (⟨w, .rest, []⟩ : Moment).Coherent := .of_rest h batch
  obtain ⟨events, turn⟩ := Moment.proceeds_turn w []
  exact ((start.step (.turn rfl)).steps turn.steps).world

/-- The world in which the first task of a new batch is run. -/
def taken (w : World) (rest : List Idle) : World :=
  { w with loop := w.loop.takeQueue.withBatch rest }

theorem dispatch_eq_runTask (sources : w.loop.sources = []) (batch : w.loop.batch = [])
    (queue : w.loop.queue = i :: rest)
    (drained : ((w.taken rest).runTask i.task).loop.batch = []) :
    w.dispatch = (w.taken rest).runTask i.task := by
  have expired : w.expireAll = w := by simp [expireAll, EventLoop.expired, sources]
  have whole : w.loop.takeQueue.batch = i :: rest := by simp [EventLoop.takeQueue, batch, queue]
  have first : ({ w with loop := w.loop.takeQueue } : World).step =
      (w.taken rest).runTask i.task :=
    step_of_cons _ whole
  have others (n : Nat) : Nat.repeat step (n + 1) { w with loop := w.loop.takeQueue } =
      (w.taken rest).runTask i.task := by
    induction n with
    | zero => exact first
    | succ n ih => exact (congrArg step ih).trans (step_of_nil _ drained)
  rw [World.dispatch, expired, runBatch, whole]
  exact others rest.length

theorem runTimer_eq (clocks : w.clocks = [some ⟨some r, .fake f⟩])
    (fires : f.fire g = (f.fired g d, true)) (entry : r.find? g = some e)
    (inert : e.callback.ops = []) :
    w.runTimer 0 g =
      { w with
        clocks := [some ⟨some (r.markFired g), .fake ((f.fired g d).reschedule 0 w.loop).1⟩]
        loop := ((f.fired g d).reschedule 0 w.loop).2
        log := .fire e.callback.name (.fake d.toTimespec) :: w.log } := by
  obtain ⟨_, loop, names, log⟩ := w
  subst clocks
  simp [runTimer, clock?, fires, setClock, runCallback, entry, inert, execAll, record, reading,
    readingOf, reschedule, accept, FakeTime.fired]

theorem applyFinal_eq (clocks : w.clocks = [some ⟨some r, .fake f⟩])
    (applied : f.applyFinal 0 w.loop = (f', w.loop)) :
    w.applyFinal 0 = { w with clocks := [some ⟨some r, .fake f'⟩] } := by
  obtain ⟨_, loop, names, log⟩ := w
  subst clocks
  simp only at applied
  simp [applyFinal, clock?, applied, setClock, accept]

/-- The only clock runs on fake time, all work on the loop is its own, and the callbacks of its
timers are empty. -/
structure Lone (w : World) (r : Registry) (f : FakeTime) : Prop where
  coherent : w.Coherent
  clocks : w.clocks = [some ⟨some r, .fake f⟩]
  batch : w.loop.batch = []
  own : ∀ i ∈ w.loop.live, i.isOf 0 = true
  sources : w.loop.sources = []
  inert : ∀ e ∈ r.entries, e.callback.fires = []

namespace Lone

theorem found (lone : w.Lone r f) : w.clock? 0 = some ⟨some r, .fake f⟩ := by
  simp [clock?, lone.clocks]

theorem fake (lone : w.Lone r f) : f.Coherent ∧ w.loop.idlesOf 0 = f.idles 0 :=
  (lone.coherent.clocks _ _ lone.found).fake rfl

theorem anyPending (lone : w.Lone r f) : w.anyPending = f.final.isSome := by
  have pending := lone.fake.1.hasPending_iff
  rw [← Bool.eq_iff_iff] at pending
  simp [World.anyPending, pendings, lone.clocks, Clock.hasPendingDispatch, pending]

theorem accept {α : Type} {op : Op} {reply : Reply α} (lone : w.Lone r f)
    (replies : (⟨some r, .fake f⟩ : Clock).Replies 0 w.loop op reply)
    (clock : reply.clock = ⟨some r', .fake f'⟩)
    (inert : ∀ e ∈ r'.entries, e.callback.fires = []) : (w.accept 0 reply).Lone r' f' := by
  have sameBut := (replies.kept lone.coherent.ticketed (lone.coherent.clocks _ _ lone.found)).loop
  have frames := replies.frames
  have executed : Executed w op (w.accept 0 reply) := .called [] lone.found replies nofun
  refine ⟨lone.coherent.executed executed, ?_, ?_, ?_, ?_, inert⟩
  · simp [World.accept, setClock, lone.clocks, clock]
  · exact List.sublist_nil.mp (lone.batch ▸ frames.batch)
  · intro i member
    exact (sameBut.mem_live member).elim id (lone.own i)
  · refine List.eq_nil_iff_forall_not_mem.mpr fun s member => ?_
    rcases frames.sources s member with old | ⟨_, real⟩
    · rw [lone.sources] at old
      cases old
    · cases real

theorem next (lone : w.Lone r f) (pending : f.final.isSome = true) :
    ∃ i rest, w.loop.queue = i :: rest ∧ i.isOf 0 = true ∧ (w.taken rest).loop.Ticketed ∧
      ((f.idles 0).map (·.ticket)).Nodup ∧ f.idles 0 = i :: (w.taken rest).loop.idlesOf 0 ∧
      ∀ j ∈ (w.taken rest).loop.live, j.isOf 0 = true := by
  have live : w.loop.takeQueue.live = w.loop.live := by simp [EventLoop.live, EventLoop.takeQueue]
  have coherent : ({ w with loop := w.loop.takeQueue } : World).Coherent :=
    lone.coherent.of_loop live rfl fun _ => id
  obtain ⟨i, rest, queue⟩ : ∃ i rest, w.loop.queue = i :: rest := by
    refine List.exists_cons_of_ne_nil fun nothing => ?_
    have idle := lone.fake.2
    rw [EventLoop.idlesOf_eq, lone.batch, nothing, FakeTime.idles] at idle
    obtain ⟨x, final⟩ := Option.isSome_iff_exists.mp pending
    simp [final] at idle
  have batch : w.loop.takeQueue.batch = i :: rest := by
    simp [EventLoop.takeQueue, lone.batch, queue]
  have mine : i.isOf 0 = true := lone.own i (by simp [EventLoop.live, queue])
  have others : ∀ j ∈ (w.taken rest).loop.live, j.isOf 0 = true := fun j member =>
    lone.own j (live ▸ EventLoop.mem_live_of_withBatch batch member)
  have ticketed : (w.taken rest).loop.Ticketed := coherent.ticketed.withBatch batch
  rcases coherent.of_next batch mine with gone | ⟨r', f', found, _, _, _, tickets, idles⟩
  · cases lone.found.symm.trans gone
  · cases lone.found.symm.trans found
    exact ⟨i, rest, queue, mine, ticketed, tickets, idles, others⟩

theorem of_runTask (lone : w.Lone r f) {w' : World} (queue : w.loop.queue = i :: rest)
    (ran : (w.taken rest).runTask i.task = w') (clocks : w'.clocks = [some ⟨some r', .fake f'⟩])
    (batch : w'.loop.batch = []) (own : ∀ j ∈ w'.loop.live, j.isOf 0 = true)
    (sources : w'.loop.sources = []) (inert : ∀ e ∈ r'.entries, e.callback.fires = []) :
    w.dispatch = w' ∧ w'.Lone r' f' := by
  subst ran
  have dispatched := dispatch_eq_runTask lone.sources lone.batch queue batch
  exact ⟨dispatched, dispatched ▸ lone.coherent.dispatch lone.batch, clocks, batch, own, sources,
    inert⟩

theorem dispatch_of_settled (lone : w.Lone r f) (settled : f.final = none) : w.dispatch = w := by
  have idles : w.loop.idlesOf 0 = [] := lone.fake.2.trans (lone.fake.1.idles_eq_nil settled)
  have queue : w.loop.queue = [] := by
    refine List.eq_nil_iff_forall_not_mem.mpr fun i member => ?_
    have live : i ∈ w.loop.live := List.mem_append_right _ member
    exact List.filter_eq_nil_iff.mp idles i live (lone.own i live)
  have expired : w.expireAll = w := by simp [expireAll, EventLoop.expired, lone.sources]
  rw [World.dispatch, expired, runBatch, EventLoop.takeQueue_of_nil queue, lone.batch]
  rfl

end Lone

/-- What a dispatch makes of the clock while the advance `x` is pending. -/
inductive Dispatched (w : World) (r : Registry) (f : FakeTime) (x : FinalTime) (w' : World) :
    Prop where
  | fires {g : TimerHandle} {d : Duration} {e : Registration} {f' : FakeTime} :
    f.timers.First g d → d ≤ x.target → r.find? g = some e →
    w'.Lone (r.markFired g) f' → f'.now = d → f'.final.map (·.target) = some x.target →
    f'.timers.alarms = (f.timers.setTrigger g none).alarms → w'.names = w.names →
    w'.log = .fire e.callback.name (.fake d.toTimespec) :: w.log → Dispatched w r f x w'
  | arrives :
    (∀ h d, (h, some d) ∈ f.timers.alarms → x.target < d) →
    w'.Lone r (f.arrived x.target) → w'.names = w.names → w'.log = w.log → Dispatched w r f x w'

namespace Lone

theorem dispatch_fires (lone : w.Lone r f) (final : f.final = some x) {ticket : Ticket}
    (queue : w.loop.queue = ⟨ticket, .timer 0 g⟩ :: rest)
    (ticketed : (w.taken rest).loop.Ticketed) (tickets : ((f.idles 0).map (·.ticket)).Nodup)
    (idles : f.idles 0 = ⟨ticket, .timer 0 g⟩ :: (w.taken rest).loop.idlesOf 0)
    (own : ∀ j ∈ (w.taken rest).loop.live, j.isOf 0 = true) :
    w.Dispatched r f x w.dispatch := by
  obtain ⟨d, x', final', d_le, first, fires, coherent, idles'⟩ :=
    FakeTime.fire_of_idles lone.fake.1 tickets idles
  cases final.symm.trans final'
  have member : g ∈ r.handles := by
    refine (lone.coherent.clocks _ _ lone.found).registered.2.mem_iff.mp ?_
    rw [TimerList.handles_eq_map_alarms]
    exact List.mem_map_of_mem first.mem
  obtain ⟨e, entry⟩ := Option.isSome_iff_exists.mp (Registry.find?_isSome_iff.mpr member)
  have ops := Callback.ops_eq_nil (lone.inert e (List.mem_of_find?_eq_some entry))
  have ran := runTimer_eq (w := w.taken rest) lone.clocks fires entry ops
  obtain ⟨own', batch⟩ := coherent.reschedule_own ticketed idles'.symm own
  have inert : ∀ e ∈ (r.markFired g).entries, e.callback.fires = [] := by
    intro e' member
    obtain ⟨e'', old, rfl⟩ := List.mem_map.mp member
    split
    · exact lone.inert e'' old
    · exact lone.inert e'' old
  have sources : ((f.fired g d).reschedule 0 (w.taken rest).loop).2.sources = [] :=
    (FakeTime.rearranged_schedule ..).sources.trans lone.sources
  obtain ⟨dispatched, lone'⟩ := lone.of_runTask queue ran rfl batch own' sources inert
  rw [dispatched]
  refine .fires first d_le entry lone' rfl ?_ ((f.fired g d).alarms_schedule ..) rfl rfl
  simp [FakeTime.reschedule, FakeTime.schedule, FakeTime.scheduleFinal, FakeTime.target,
    FakeTime.fired, final]

theorem dispatch_arrives (lone : w.Lone r f) (final : f.final = some x) {ticket : Ticket}
    (queue : w.loop.queue = ⟨ticket, .finalTime 0⟩ :: rest)
    (idles : f.idles 0 = ⟨ticket, .finalTime 0⟩ :: (w.taken rest).loop.idlesOf 0)
    (own : ∀ j ∈ (w.taken rest).loop.live, j.isOf 0 = true) :
    w.Dispatched r f x w.dispatch := by
  obtain ⟨nothing, x', final', later, applied, _⟩ :=
    FakeTime.applyFinal_of_idles lone.fake.1 idles (w.taken rest).loop
  cases final.symm.trans final'
  have ran := applyFinal_eq (w := w.taken rest) lone.clocks applied
  have batch : (w.taken rest).loop.batch = [] := by
    refine List.eq_nil_iff_forall_not_mem.mpr fun j member => ?_
    have live := List.mem_append_left (w.taken rest).loop.queue member
    exact List.filter_eq_nil_iff.mp nothing j live (own j live)
  obtain ⟨dispatched, lone'⟩ := lone.of_runTask queue ran rfl batch own lone.sources lone.inert
  rw [dispatched]
  exact .arrives later lone' rfl rfl

/-- A dispatch fires the first timer due, or the advance is through. -/
theorem dispatch (lone : w.Lone r f) (final : f.final = some x) :
    w.Dispatched r f x w.dispatch := by
  obtain ⟨⟨ticket, task⟩, rest, queue, mine, ticketed, tickets, idles, own⟩ :=
    lone.next (final ▸ rfl)
  rw [Idle.isOf_iff] at mine
  cases task with
  | timer c g =>
    cases mine
    exact lone.dispatch_fires final queue ticketed tickets idles own
  | finalTime c =>
    cases mine
    exact lone.dispatch_arrives final queue idles own
  | idle name ops => cases mine

section calls

variable {timer : String} {delay : Int32} {trigger : Option Duration} {delta target : Duration}

theorem of_eq {w' : World} (lone : w.Lone r f) (clocks : w'.clocks = w.clocks)
    (loop : w'.loop = w.loop) : w'.Lone r f :=
  ⟨lone.coherent.of_eq clocks loop, clocks.trans lone.clocks, loop ▸ lone.batch, loop ▸ lone.own,
    loop ▸ lone.sources, lone.inert⟩

theorem add (lone : w.Lone r f) (timer : String) :
    ∃ w' f', w.exec (.add 0 timer [] false) = (.handle ⟨r.next⟩, w') ∧
      w'.Lone (r.add { name := timer, fires := [], repeats := false }) f' ∧ f'.now = f.now ∧
      f'.timers = f.timers.insert { handle := ⟨r.next⟩ } ∧
      w'.names = (timer, ⟨r.next⟩) :: w.names ∧ w'.log = w.log := by
  let reply := (⟨some r, .fake f⟩ : Clock).addTimer
    { name := timer, fires := [], repeats := false } w.loop
  have called : w.exec (.add 0 timer [] false) =
      (.handle ⟨r.next⟩, { w.accept 0 reply with names := (timer, ⟨r.next⟩) :: w.names }) := by
    simp only [exec, addTimer, lone.found]
    rfl
  have inert : ∀ e ∈ (r.add { name := timer, fires := [], repeats := false }).entries,
      e.callback.fires = [] := by
    intro e member
    rcases List.mem_append.mp member with old | new
    · exact lone.inert e old
    · rw [List.mem_singleton.mp new]
  have accepted : (w.accept 0 reply).Lone _ _ := lone.accept (.add timer [] false) rfl inert
  exact ⟨_, _, called, accepted.of_eq rfl rfl, rfl, rfl, rfl, rfl⟩

theorem update (lone : w.Lone r f) (known : w.lookup timer = some g) (member : g ∈ r.handles)
    (asked : f.trigger? delay = .ok trigger) :
    ∃ w' f', w.exec (.update 0 timer delay) = (.done, w') ∧ w'.Lone r f' ∧ f'.now = f.now ∧
      f'.timers.alarms = (f.timers.setTrigger g trigger).alarms ∧ w'.names = w.names ∧
      w'.log = w.log := by
  have registered := (lone.coherent.clocks _ _ lone.found).registered.2.mem_iff.mpr member
  obtain ⟨t, found⟩ := Option.isSome_iff_exists.mp (TimerList.find?_isSome_iff.mpr registered)
  let moved : FakeTime := { f with timers := f.timers.setTrigger g trigger }
  let after := moved.reschedule 0 (w.loop.cancelAll t.pending.toList)
  let reply := (⟨some r, .fake f⟩ : Clock).updateTimer 0 g delay w.loop
  have replied : reply = ⟨.ok (), ⟨some r, .fake after.1⟩, after.2⟩ := by
    simp only [reply, Clock.updateTimer, Clock.updateFake, asked, found]
    rfl
  have called : w.exec (.update 0 timer delay) = (.ofUnit reply.result, w.accept 0 reply) := by
    simp only [exec, onTimer, lone.found, known]
    rfl
  rw [replied] at called
  exact ⟨_, after.1, called,
    replied ▸ lone.accept (.update timer g delay) (congrArg Reply.clock replied) lone.inert, rfl,
    moved.alarms_schedule .., rfl, rfl⟩

theorem advance (lone : w.Lone r f) (sum : f.now.add? delta = some target) :
    ∃ w' f', w.exec (.advance 0 delta) = (.done, w') ∧ w'.Lone r f' ∧ f'.now = f.now ∧
      f'.final.map (·.target) = some target ∧ f'.timers.alarms = f.timers.alarms ∧
      w'.names = w.names ∧ w'.log = w.log := by
  let after := f.advanceTo true 0 target w.loop
  let reply := (⟨some r, .fake f⟩ : Clock).advance 0 delta w.loop
  have replied : reply = ⟨.ok (), ⟨some r, .fake after.1⟩, after.2⟩ := by
    simp only [reply, Clock.advance, sum]
    rfl
  have called : w.exec (.advance 0 delta) = (.ofUnit reply.result, w.accept 0 reply) := by
    simp only [exec, onClock, lone.found]
    rfl
  have alarms : after.1.timers.alarms = f.timers.alarms :=
    (FakeTime.alarms_schedule ..).trans (TimerList.alarms_cancelAfter ..)
  rw [replied] at called
  exact ⟨_, after.1, called,
    replied ▸ lone.accept (.advance delta) (congrArg Reply.clock replied) lone.inert, rfl, rfl,
    alarms, rfl, rfl⟩

theorem advance_overflow (lone : w.Lone r f) (overflow : f.now.add? delta = none) :
    (w.exec (.advance 0 delta)).1 = .failed (.refused .timeOverflow) := by
  rw [exec_advance_of_le lone.found (Duration.add?_eq_none_iff.mp overflow)]

theorem removeTimer (lone : w.Lone r f) (member : g ∈ r.handles) :
    ∃ w' f', (w.onClock 0 fun k => k.removeTimer g w.loop) = (.done, w') ∧
      w'.Lone (r.erase g) f' := by
  have registered := (lone.coherent.clocks _ _ lone.found).registered.2.mem_iff.mpr member
  obtain ⟨t, found⟩ := Option.isSome_iff_exists.mp (TimerList.find?_isSome_iff.mpr registered)
  obtain ⟨e, entry⟩ := Option.isSome_iff_exists.mp (Registry.find?_isSome_iff.mpr member)
  let f' : FakeTime := { f with timers := f.timers.erase g }
  let reply := (⟨some r, .fake f⟩ : Clock).removeTimer g w.loop
  have replied : reply = ⟨.ok (), ⟨some (r.erase g), .fake f'⟩,
      (w.loop.removeSource? e.source).cancelAll t.pending.toList⟩ := by
    simp only [reply, Clock.removeTimer, entry, found]
    rfl
  have called : (w.onClock 0 fun k => k.removeTimer g w.loop) =
      (.ofUnit reply.result, w.accept 0 reply) := by
    simp only [onClock, lone.found]
    rfl
  rw [replied] at called
  refine ⟨_, f', called, replied ▸ lone.accept (.remove "" g) (congrArg Reply.clock replied) ?_⟩
  exact fun e member => lone.inert e (List.mem_of_mem_eraseP member)

theorem destroy (lone : w.Lone r f) (empty : r.entries = []) :
    (w.exec (.destroy 0)).1 = .done := by
  have perm := (lone.coherent.clocks _ _ lone.found).registered.2
  rw [Registry.handles, empty, List.map_nil] at perm
  have none : f.timers.handles = [] := perm.eq_nil
  have size : f.timers.size = 0 := by
    rw [TimerList.size, ← List.length_map (f := (·.handle)), ← TimerList.handles, none]
    rfl
  simp only [exec, onClock, lone.found, Clock.destroy, Option.elim_some, Registry.size, empty,
    List.length_nil, Nat.lt_irrefl, if_false, size]
  rfl

end calls

end Lone

end World

end VirtualClock
