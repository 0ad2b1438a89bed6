import VirtualClock.Clock
import VirtualClock.Proofs.TimerList.Order

/-!
What a call leaves alone on the loop. An overlay adds something to a loop: work that was already
taken up, or a source that already fired. A call that cancels none of the tickets and removes none
of the sources of the addition does the same on both loops, and the addition is still there
afterwards. Which tickets a call may cancel and which sources it may remove is told by the clock
alone: those it holds when the call starts.
-/

namespace VirtualClock

/-- An addition to loops which stays whatever is queued, whatever source is inserted, whatever
ticket with `tickets` is cancelled, and whatever source with `numbers` is removed. -/
structure EventLoop.Overlay
    (lay : EventLoop → EventLoop)
    (tickets : Ticket → Prop)
    (numbers : Nat → Prop) : Prop where
  now : ∀ l, (lay l).now = l.now
  nextTicket : ∀ l, (lay l).nextTicket = l.nextTicket
  nextSource : ∀ l, (lay l).nextSource = l.nextSource
  enqueueAll : ∀ l tasks, (lay l).enqueueAll tasks = lay (l.enqueueAll tasks)
  cancel : ∀ l ticket, tickets ticket → (lay l).cancel ticket = lay (l.cancel ticket)
  insertSource : ∀ l delay c h, (lay l).insertSource delay c h = lay (l.insertSource delay c h)
  removeSource : ∀ l id, numbers id → (lay l).removeSource id = lay (l.removeSource id)

namespace EventLoop.Overlay

variable {lay : EventLoop → EventLoop} {tickets : Ticket → Prop} {numbers : Nat → Prop}
  (overlay : EventLoop.Overlay lay tickets numbers)

include overlay

theorem cancelAll (l : EventLoop) {cancelled : List Ticket} (spared : ∀ t ∈ cancelled, tickets t) :
    (lay l).cancelAll cancelled = lay (l.cancelAll cancelled) := by
  induction cancelled generalizing l with
  | nil => rfl
  | cons ticket cancelled ih =>
    change ((lay l).cancel ticket).cancelAll cancelled = _
    rw [overlay.cancel l ticket (spared ticket List.mem_cons_self),
      ih _ fun t member => spared t (List.mem_cons_of_mem ticket member)]
    rfl

theorem removeSource? (l : EventLoop) {id : Option Nat} (spared : ∀ n, id = some n → numbers n) :
    (lay l).removeSource? id = lay (l.removeSource? id) := by
  cases id with
  | none => rfl
  | some id => exact overlay.removeSource l id (spared id rfl)

end EventLoop.Overlay

namespace FakeTime

/-- The tickets that fake time holds: those of its timers' dispatches and of the final task. -/
def tickets (f : FakeTime) : List Ticket :=
  f.timers.toList.filterMap (·.pending) ++ (f.final.map (·.ticket)).toList

variable {f : FakeTime}

theorem mem_tickets_of_timer {t : TimerRecord} (member : t ∈ f.timers.toList) {ticket : Ticket}
    (pending : t.pending = some ticket) : ticket ∈ f.tickets :=
  List.mem_append_left _ (List.mem_filterMap.mpr ⟨t, member, pending⟩)

theorem mem_tickets_of_final {x : FinalTime} (final : f.final = some x) : x.ticket ∈ f.tickets :=
  List.mem_append_right _ (by simp [final])

theorem mem_tickets_of_cancelAfter {target : Duration} {ticket : Ticket}
    (held : ticket ∈ ({ f with timers := f.timers.cancelAfter target } : FakeTime).tickets) :
    ticket ∈ f.tickets := by
  rcases List.mem_append.mp held with timer | final
  · obtain ⟨t, changed, pending⟩ := List.mem_filterMap.mp timer
    obtain ⟨u, known, rfl⟩ := List.mem_map.mp changed
    split at pending
    · cases pending
    · exact mem_tickets_of_timer known pending
  · exact List.mem_append_right _ final

theorem mem_tickets_of_setTrigger {h : TimerHandle} {t : TimerRecord}
    (found : f.timers.find? h = some t) {trigger : Option Duration} {ticket : Ticket}
    (held : ticket ∈ ({ f with timers := f.timers.setTrigger h trigger } : FakeTime).tickets) :
    ticket ∈ f.tickets := by
  rcases List.mem_append.mp held with timer | final
  · obtain ⟨u, changed, pending⟩ := List.mem_filterMap.mp timer
    rw [TimerList.setTrigger_of_find? found, TimerList.mem_insert] at changed
    rcases changed with rfl | left
    · cases pending
    · exact mem_tickets_of_timer (List.mem_of_mem_eraseP left) pending
  · exact List.mem_append_right _ final

section overlay

variable {lay : EventLoop → EventLoop} {spared : Ticket → Prop} {numbers : Nat → Prop}
  (overlay : EventLoop.Overlay lay spared numbers) (c : Nat) (target : Duration) (l : EventLoop)

include overlay

theorem scheduleDue_overlaid (spares : ∀ t ∈ f.timers.toList, ∀ n, t.pending = some n → spared n) :
    f.scheduleDue c target (lay l) =
      ((f.scheduleDue c target l).1, lay (f.scheduleDue c target l).2) := by
  have due : ∀ t ∈ (f.timers.due target).filterMap (·.pending), spared t := by
    intro ticket member
    obtain ⟨t, isDue, pending⟩ := List.mem_filterMap.mp member
    refine spares t ?_ ticket pending
    exact (List.dropWhile_sublist _).subset ((List.takeWhile_sublist _).subset isDue)
  simp only [scheduleDue, overlay.nextTicket, overlay.cancelAll l due, overlay.enqueueAll]

theorem scheduleFinal_overlaid (spares : ∀ x, f.final = some x → spared x.ticket) :
    f.scheduleFinal c target (lay l) =
      ((f.scheduleFinal c target l).1, lay (f.scheduleFinal c target l).2) := by
  have final : ∀ t ∈ (f.final.map (·.ticket)).toList, spared t := by
    intro ticket member
    obtain ⟨x, final, rfl⟩ := Option.map_eq_some_iff.mp (Option.mem_toList.mp member)
    exact spares x final
  simp only [scheduleFinal, EventLoop.enqueue, overlay.nextTicket, overlay.cancelAll l final,
    overlay.enqueueAll]

/-- What applies an advance forgets the final task before it queues anything, so a ticket that
only the final task holds is not cancelled. -/
theorem applyFinal_overlaid (spares : ∀ t ∈ f.timers.toList, ∀ n, t.pending = some n → spared n) :
    f.applyFinal c (lay l) = ((f.applyFinal c l).1, lay (f.applyFinal c l).2) := by
  unfold applyFinal
  cases final : f.final with
  | none => rfl
  | some x =>
    simp only [scheduleDue_overlaid (f := { f with now := x.target, final := none }) overlay c
      x.target l spares]
    split
    · exact scheduleFinal_overlaid overlay c x.target _ fun y given => by cases given
    · rfl

variable (spares : ∀ t ∈ f.tickets, spared t)

include spares

theorem schedule_overlaid :
    f.schedule c target (lay l) =
      ((f.schedule c target l).1, lay (f.schedule c target l).2) := by
  have timers : ∀ t ∈ f.timers.toList, ∀ n, t.pending = some n → spared n :=
    fun t member n pending => spares n (mem_tickets_of_timer member pending)
  simp only [schedule, scheduleDue_overlaid overlay c target l timers]
  refine scheduleFinal_overlaid overlay c target _ ?_
  exact fun x final => spares x.ticket (mem_tickets_of_final final)

theorem reschedule_overlaid :
    f.reschedule c (lay l) = ((f.reschedule c l).1, lay (f.reschedule c l).2) :=
  schedule_overlaid overlay c f.target l spares

theorem advanceTo_overlaid (hasLoop : Bool) :
    f.advanceTo hasLoop c target (lay l) =
      ((f.advanceTo hasLoop c target l).1, lay (f.advanceTo hasLoop c target l).2) := by
  have later : ∀ t ∈ f.timers.ticketsAfter target, spared t := by
    intro ticket member
    obtain ⟨t, isLater, pending⟩ := List.mem_filterMap.mp member
    exact spares ticket (mem_tickets_of_timer (List.mem_filter.mp isLater).1 pending)
  unfold advanceTo
  simp only [overlay.cancelAll l later]
  split
  · exact schedule_overlaid overlay c target _ fun t held =>
      spares t (mem_tickets_of_cancelAfter held)
  · rfl

end overlay

end FakeTime

/-- The reply of the same call with an addition to the loop. -/
def Reply.overlaid {α : Type} (reply : Reply α) (lay : EventLoop → EventLoop) : Reply α :=
  { reply with loop := lay reply.loop }

namespace Clock

/-- The clock holds only tickets with `tickets` and only sources with `numbers`. -/
structure Spares (k : Clock) (tickets : Ticket → Prop) (numbers : Nat → Prop) : Prop where
  tickets : ∀ f, k.source = .fake f → ∀ t ∈ f.tickets, tickets t
  numbers : ∀ r, k.registry = some r → ∀ e ∈ r.entries, ∀ n, e.source = some n → numbers n

variable {k : Clock} {lay : EventLoop → EventLoop} {tickets : Ticket → Prop}
  {numbers : Nat → Prop} (overlay : EventLoop.Overlay lay tickets numbers)
  (spares : k.Spares tickets numbers) (c : Nat) (l : EventLoop)

include overlay in
theorem gettime_overlaid (id : ClockId) : k.gettime id (lay l) = k.gettime id l := by
  simp only [gettime, hostTime, overlay.now]

include overlay spares

theorem advance_overlaid (delta : Duration) :
    k.advance c delta (lay l) = (k.advance c delta l).overlaid lay := by
  unfold advance
  split
  · rfl
  · next f fake =>
    split
    · rfl
    · simp only [FakeTime.advanceTo_overlaid overlay c _ l (spares.tickets f fake), Reply.overlaid]

theorem handleRequest_overlaid (r : AdvanceRequest) :
    k.handleRequest c r (lay l) = (k.handleRequest c r l).overlaid lay := by
  unfold handleRequest
  split
  · rfl
  · exact advance_overlaid overlay spares c l _

omit overlay spares in
theorem addTimer_overlaid (lay : EventLoop → EventLoop) (l : EventLoop) (callback : Callback) :
    k.addTimer callback (lay l) = (k.addTimer callback l).overlaid lay := by
  unfold addTimer
  split <;> rfl

theorem updateReal_overlaid (h : TimerHandle) (delay : Int32) :
    k.updateReal c h delay (lay l) = (k.updateReal c h delay l).overlaid lay := by
  unfold updateReal
  split
  · rfl
  · next r registered =>
    split
    · rfl
    · next e entry =>
      have held := spares.numbers r registered e (List.mem_of_find?_eq_some entry)
      simp only [overlay.removeSource? l held, overlay.nextSource, overlay.insertSource]
      split <;> rfl

theorem updateFake_overlaid {f : FakeTime} (fake : k.source = .fake f) (h : TimerHandle)
    (delay : Int32) :
    k.updateFake f c h delay (lay l) = (k.updateFake f c h delay l).overlaid lay := by
  have held := spares.tickets f fake
  unfold updateFake
  split
  · rfl
  · next trigger _ =>
    split
    · rfl
    · next t found =>
      have known := List.mem_of_find?_eq_some found
      have own : ∀ n ∈ t.pending.toList, tickets n := fun n pending =>
        held n (FakeTime.mem_tickets_of_timer known (Option.mem_toList.mp pending))
      have moved : ∀ n ∈ ({ f with timers := f.timers.setTrigger h trigger } : FakeTime).tickets,
          tickets n :=
        fun n member => held n (FakeTime.mem_tickets_of_setTrigger found member)
      simp only [overlay.cancelAll l own, FakeTime.reschedule_overlaid overlay c _ moved,
        Reply.overlaid]

theorem updateTimer_overlaid (h : TimerHandle) (delay : Int32) :
    k.updateTimer c h delay (lay l) = (k.updateTimer c h delay l).overlaid lay := by
  unfold updateTimer
  split
  · exact updateReal_overlaid overlay spares c l h delay
  · next f fake => exact updateFake_overlaid overlay spares c l fake h delay

theorem removeTimer_overlaid (h : TimerHandle) :
    k.removeTimer h (lay l) = (k.removeTimer h l).overlaid lay := by
  unfold removeTimer
  split
  · rfl
  · next r registered =>
    split
    · rfl
    · next e entry =>
      have held := spares.numbers r registered e (List.mem_of_find?_eq_some entry)
      simp only [overlay.removeSource? l held]
      split
      · rfl
      · next f fake =>
        split
        · rfl
        · next t found =>
          have own : ∀ n ∈ t.pending.toList, tickets n := fun n pending =>
            spares.tickets f fake n (FakeTime.mem_tickets_of_timer
              (List.mem_of_find?_eq_some found) (Option.mem_toList.mp pending))
          simp only [overlay.cancelAll _ own, Reply.overlaid]

theorem destroy_overlaid : k.destroy (lay l) = (k.destroy l).overlaid lay := by
  unfold destroy
  simp only
  split
  · rfl
  · split
    · rfl
    · next f fake =>
      split
      · rfl
      · have final : ∀ t ∈ (f.final.map (·.ticket)).toList, tickets t := by
          intro ticket member
          exact spares.tickets f fake ticket (List.mem_append_right _ member)
        simp only [overlay.cancelAll l final, Reply.overlaid]

end Clock

end VirtualClock
