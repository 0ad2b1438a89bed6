import VirtualClock.Clock

/-!
What no call on a clock touches, whatever state the clock is in: the kind of the clock, and on the
loop the sources of other clocks. Work is never put into the batch being run.
-/

namespace VirtualClock

theorem EventLoop.batch_cancelAll_sublist (l : EventLoop) (tickets : List Ticket) :
    (l.cancelAll tickets).batch.Sublist l.batch := by
  induction tickets generalizing l with
  | nil => exact List.Sublist.refl _
  | cons ticket tickets ih => exact (ih (l.cancel ticket)).trans List.eraseP_sublist

theorem EventLoop.sources_cancelAll (l : EventLoop) (tickets : List Ticket) :
    (l.cancelAll tickets).sources = l.sources := by
  induction tickets generalizing l with
  | nil => rfl
  | cons ticket tickets ih => exact ih (l.cancel ticket)

/-- What a loop keeps while a clock puts work on it and takes work off it. -/
structure EventLoop.Rearranged (l l' : EventLoop) : Prop where
  batch : l'.batch.Sublist l.batch
  sources : l'.sources = l.sources

namespace EventLoop

variable {l l' l'' : EventLoop}

theorem Rearranged.refl (l : EventLoop) : Rearranged l l := ⟨List.Sublist.refl _, rfl⟩

theorem Rearranged.trans (h : Rearranged l l') (h' : Rearranged l' l'') : Rearranged l l'' :=
  ⟨h'.batch.trans h.batch, h'.sources.trans h.sources⟩

theorem rearranged_cancelAll (l : EventLoop) (tickets : List Ticket) :
    Rearranged l (l.cancelAll tickets) :=
  ⟨batch_cancelAll_sublist l tickets, sources_cancelAll l tickets⟩

theorem rearranged_enqueueAll (l : EventLoop) (tasks : List Task) :
    Rearranged l (l.enqueueAll tasks) :=
  ⟨List.Sublist.refl _, rfl⟩

end EventLoop

namespace FakeTime

variable (f : FakeTime) (c : Nat) (target : Duration) (l : EventLoop)

theorem rearranged_scheduleDue : EventLoop.Rearranged l (f.scheduleDue c target l).2 :=
  (EventLoop.rearranged_cancelAll ..).trans (EventLoop.rearranged_enqueueAll ..)

theorem rearranged_scheduleFinal : EventLoop.Rearranged l (f.scheduleFinal c target l).2 :=
  (EventLoop.rearranged_cancelAll ..).trans (EventLoop.rearranged_enqueueAll ..)

theorem rearranged_schedule : EventLoop.Rearranged l (f.schedule c target l).2 :=
  (f.rearranged_scheduleDue c target l).trans (rearranged_scheduleFinal ..)

theorem rearranged_advanceTo (hasLoop : Bool) :
    EventLoop.Rearranged l (f.advanceTo hasLoop c target l).2 := by
  unfold advanceTo
  simp only
  split
  · exact (EventLoop.rearranged_cancelAll ..).trans (rearranged_schedule ..)
  · exact EventLoop.rearranged_cancelAll ..

theorem rearranged_applyFinal : EventLoop.Rearranged l (f.applyFinal c l).2 := by
  unfold applyFinal
  cases f.final with
  | none => exact .refl l
  | some x =>
    simp only
    split
    · exact (rearranged_scheduleDue ..).trans (rearranged_scheduleFinal ..)
    · exact rearranged_scheduleDue ..

end FakeTime

/-- What a call on clock `c` leaves as it was. -/
structure Reply.Frames {α : Type} (reply : Reply α) (k : Clock) (c : Nat) (l : EventLoop) :
    Prop where
  mode : reply.clock.mode = k.mode
  looped : reply.clock.registry.isSome = k.registry.isSome
  batch : reply.loop.batch.Sublist l.batch
  /-- Sources that appear are those of the clock, which then runs on real time. -/
  sources : ∀ s ∈ reply.loop.sources, s ∈ l.sources ∨ s.clock = c ∧ k.mode = .real

namespace Clock

variable (k : Clock) (c : Nat) (l : EventLoop)

theorem frames_same {α : Type} (result : Except Failure α) :
    Reply.Frames ⟨result, k, l⟩ k c l :=
  ⟨rfl, rfl, List.Sublist.refl _, fun _ => .inl⟩

variable {k l}

theorem frames_fake {α : Type} {f f' : FakeTime} {l' : EventLoop} (result : Except Failure α)
    (fake : k.source = .fake f) (rearranged : EventLoop.Rearranged l l') :
    Reply.Frames ⟨result, { k with source := .fake f' }, l'⟩ k c l where
  mode := by simp [mode, fake]
  looped := rfl
  batch := rearranged.batch
  sources s member := .inl (rearranged.sources ▸ member)

variable (k l)

theorem frames_advance (delta : Duration) : (k.advance c delta l).Frames k c l := by
  unfold advance
  split
  · exact k.frames_same c l _
  · next f fake =>
    split
    · exact k.frames_same c l _
    · exact frames_fake c _ fake (FakeTime.rearranged_advanceTo ..)

theorem frames_handleRequest (r : AdvanceRequest) : (k.handleRequest c r l).Frames k c l := by
  unfold handleRequest
  split
  · exact k.frames_same c l _
  · exact k.frames_advance c l _

theorem frames_addTimer (callback : Callback) : (k.addTimer callback l).Frames k c l := by
  unfold addTimer
  split
  · exact k.frames_same c l _
  · next registered =>
    refine ⟨?_, by simp [registered], List.Sublist.refl _, fun _ => .inl⟩
    cases source : k.source <;> simp [mode, source]

theorem mem_of_mem_removeSource? {id : Option Nat} {s : Source}
    (member : s ∈ (l.removeSource? id).sources) : s ∈ l.sources := by
  cases id with
  | none => exact member
  | some id => exact (List.mem_filter.mp member).1

theorem batch_removeSource? (id : Option Nat) : (l.removeSource? id).batch = l.batch := by
  cases id <;> rfl

theorem frames_updateTimer (h : TimerHandle) (delay : Int32) :
    (k.updateTimer c h delay l).Frames k c l := by
  unfold updateTimer
  split
  · next real =>
    unfold updateReal
    split
    · exact k.frames_same c l _
    · next r registered =>
      split
      · exact k.frames_same c l _
      · next e _ =>
        have batch := batch_removeSource? l e.source
        simp only
        split
        · refine ⟨rfl, by simp [registered], batch ▸ List.Sublist.refl _, ?_⟩
          intro s member
          rcases List.mem_append.mp member with early | late
          · exact .inl (mem_of_mem_removeSource? l ((List.takeWhile_sublist _).subset early))
          · rcases List.mem_cons.mp late with rfl | late
            · exact .inr ⟨rfl, by simp [mode, real]⟩
            · exact .inl (mem_of_mem_removeSource? l ((List.dropWhile_sublist _).subset late))
        · exact ⟨rfl, by simp [registered], batch ▸ List.Sublist.refl _, fun s member =>
            .inl (mem_of_mem_removeSource? l member)⟩
  · next f fake =>
    unfold updateFake
    split
    · exact k.frames_same c l _
    · split
      · exact k.frames_same c l _
      · exact frames_fake c _ fake
          ((EventLoop.rearranged_cancelAll ..).trans (FakeTime.rearranged_schedule ..))

theorem frames_removeTimer (h : TimerHandle) : (k.removeTimer h l).Frames k c l := by
  unfold removeTimer
  split
  · exact k.frames_same c l _
  · next r registered =>
    split
    · exact k.frames_same c l _
    · next e _ =>
      have batch := batch_removeSource? l e.source
      have gone (source : TimeSource) (same : (⟨some (r.erase h), source⟩ : Clock).mode = k.mode)
          {l' : EventLoop} (rearranged : EventLoop.Rearranged (l.removeSource? e.source) l')
          (result : Except Failure Unit) :
          Reply.Frames ⟨result, ⟨some (r.erase h), source⟩, l'⟩ k c l :=
        ⟨same, by simp [registered], batch ▸ rearranged.batch, fun s member =>
          .inl (mem_of_mem_removeSource? l (rearranged.sources ▸ member))⟩
      cases fake : k.source with
      | real => exact gone _ (by simp [mode, fake]) (.refl _) _
      | fake f =>
        simp only
        split
        · exact gone _ (by simp [mode, fake]) (.refl _) _
        · exact gone _ (by simp [mode, fake]) (EventLoop.rearranged_cancelAll ..) _

theorem frames_destroy : (k.destroy l).Frames k c l := by
  unfold destroy
  simp only
  split
  · exact k.frames_same c l _
  · split
    · exact k.frames_same c l _
    · next f fake =>
      split
      · exact k.frames_same c l _
      · exact frames_fake c _ fake (EventLoop.rearranged_cancelAll ..)

end Clock

end VirtualClock
