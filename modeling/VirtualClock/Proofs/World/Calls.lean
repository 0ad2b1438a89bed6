import VirtualClock.Proofs.Clock.Frame
import VirtualClock.Proofs.World.Moment

/-!
What an operation does to a world: nothing, a clock more or less, an idle on the queue, or what
one call on one clock leaves behind.
-/

namespace VirtualClock

/-- The replies that operations on clock `c` get. -/
inductive Clock.Replies (k : Clock) (c : Nat) (l : EventLoop) :
    {α : Type} → Op → Reply α → Prop where
  | advance (delta : Duration) : Replies k c l (.advance c delta) (k.advance c delta l)
  | request (r : AdvanceRequest) : Replies k c l (.request c r) (k.handleRequest c r l)
  | add (timer : String) (fires : List (List Op)) (repeats : Bool) :
    Replies k c l (.add c timer fires repeats) (k.addTimer { name := timer, fires, repeats } l)
  | update (timer : String) (h : TimerHandle) (delay : Int32) :
    Replies k c l (.update c timer delay) (k.updateTimer c h delay l)
  | remove (timer : String) (h : TimerHandle) :
    Replies k c l (.remove c timer) (k.removeTimer h l)
  | destroy : Replies k c l (.destroy c) (k.destroy l)

section Replies

variable {k : Clock} {c : Nat} {l : EventLoop} {α : Type} {op : Op} {reply : Reply α}

theorem Clock.Replies.clock? (replies : k.Replies c l op reply) : op.clock? = some c := by
  cases replies <;> rfl

theorem Clock.Replies.frames (replies : k.Replies c l op reply) : reply.Frames k c l := by
  cases replies with
  | advance delta => exact k.frames_advance c l delta
  | request r => exact k.frames_handleRequest c l r
  | add timer fires repeats => exact k.frames_addTimer c l _
  | update timer h delay => exact k.frames_updateTimer c l h delay
  | remove timer h => exact k.frames_removeTimer c l h
  | destroy => exact k.frames_destroy c l

end Replies

namespace World

variable {w : World} {c d : Nat} {k : Clock}

theorem clock?_eq_some_iff : w.clock? c = some k ↔ w.clocks[c]? = some (some k) := by
  simp [clock?, Option.join_eq_some_iff]

theorem lt_length_of_clock? (found : w.clock? c = some k) : c < w.clocks.length :=
  (List.getElem?_eq_some_iff.mp (clock?_eq_some_iff.mp found)).1

theorem clock?_setClock (known : c < w.clocks.length) (k : Clock) (d : Nat) :
    (w.setClock c k).clock? d = if d = c then some k else w.clock? d := by
  simp only [clock?, setClock]
  split
  · next same => simp [same, List.getElem?_set_self known]
  · next other => rw [List.getElem?_set_ne (Ne.symm other)]

theorem fakeTime?_eq_some_iff {f : FakeTime} :
    w.fakeTime? c = some f ↔ ∃ k, w.clock? c = some k ∧ k.source = .fake f := by
  rw [fakeTime?, Option.bind_eq_some_iff]
  apply exists_congr
  intro k
  apply and_congr_right
  intro _
  cases source : k.source <;> simp [Clock.fakeTime?, source]

theorem fakeTime?_of_clock? {f : FakeTime} (found : w.clock? c = some k)
    (fake : k.source = .fake f) :
    w.fakeTime? c = some f :=
  fakeTime?_eq_some_iff.mpr ⟨k, found, fake⟩

theorem exists_fakeTime? (found : w.clock? c = some k) (fake : k.mode = .fake) :
    ∃ f, w.fakeTime? c = some f := by
  cases source : k.source with
  | real => simp [Clock.mode, source] at fake
  | fake f => exact ⟨f, fakeTime?_eq_some_iff.mpr ⟨k, found, source⟩⟩

theorem clock?_accept {α : Type} (found : w.clock? c = some k) (reply : Reply α) :
    (w.accept c reply).clock? c = some reply.clock := by
  change (World.setClock ..).clock? c = _
  rw [clock?_setClock (lt_length_of_clock? found), if_pos rfl]

theorem accept_of_same {α : Type} {reply : Reply α} (found : w.clock? c = some k)
    (clock : reply.clock = k) (loop : reply.loop = w.loop) : w.accept c reply = w := by
  obtain ⟨known, there⟩ := List.getElem?_eq_some_iff.mp (clock?_eq_some_iff.mp found)
  have same : w.clocks.set c (some k) = w.clocks := by rw [← there, List.set_getElem_self]
  rw [accept, clock, loop, setClock, same]

theorem clock?_dropClock (w : World) (c d : Nat) :
    (w.dropClock c).clock? d = if d = c then none else w.clock? d := by
  simp only [clock?, dropClock]
  split
  · next same =>
    subst same
    rcases Nat.lt_or_ge d w.clocks.length with known | unknown
    · simp [List.getElem?_set_self known]
    · rw [List.getElem?_eq_none (by simpa using unknown)]
      rfl
  · next other => rw [List.getElem?_set_ne (Ne.symm other)]

theorem clock?_newClock (w : World) (mode : Mode) (hasLoop : Bool) (d : Nat) :
    (w.newClock mode hasLoop).clock? d =
      if d = w.clocks.length then some (.new mode hasLoop) else w.clock? d := by
  simp only [clock?, newClock]
  split
  · next same => simp [same]
  · next other =>
    rcases Nat.lt_or_gt_of_ne other with known | unknown
    · rw [List.getElem?_append_left known]
    · rw [List.getElem?_eq_none (by simp; omega), List.getElem?_eq_none (by omega)]

/-- What operation `op` makes of a world. -/
inductive Executed (w : World) : Op → World → Prop where
  | still {op : Op} : Executed w op w
  | created (mode : Mode) (hasLoop : Bool) :
    Executed w (.new mode hasLoop) (w.newClock mode hasLoop)
  | dropped {c : Nat} : Executed w (.drop c) (w.dropClock c)
  | queued (name : String) (ops : List Op) :
    Executed w (.idle name ops) { w with loop := w.loop.enqueue (.idle name ops) }
  | called {op : Op} {c : Nat} {k : Clock} {α : Type} {reply : Reply α}
    (added : List (String × TimerHandle)) :
    w.clock? c = some k → k.Replies c w.loop op reply →
    (∀ entry ∈ added, op.adds? = some entry.1) →
    Executed w op { w.accept c reply with names := added ++ w.names }

theorem executed_onTimer {op : Op} {timer : String} {call : Clock → TimerHandle → Reply Unit}
    (replies : ∀ (k : Clock) h, k.Replies c w.loop op (call k h)) :
    Executed w op (w.onTimer c timer call).2 := by
  unfold onTimer
  split
  · exact .still
  · next k found =>
    split
    · exact .still
    · exact .called [] found (replies k _) nofun

theorem executed_onClock {op : Op} {call : Clock → Reply Unit}
    (replies : ∀ k : Clock, k.Replies c w.loop op (call k)) :
    Executed w op (w.onClock c call).2 := by
  unfold onClock
  split
  · exact .still
  · next k found => exact .called [] found (replies k) nofun

theorem executed_exec (w : World) (op : Op) : Executed w op (w.exec op).2 := by
  cases op with
  | new mode hasLoop => exact .created mode hasLoop
  | add c timer fires repeats =>
    simp only [exec, addTimer]
    split
    · exact .still
    · next k found =>
      split
      · next h _ => exact .called [(timer, h)] found (.add timer fires repeats) (by simp [Op.adds?])
      · exact .called [] found (.add timer fires repeats) nofun
  | update c timer delay => exact executed_onTimer fun _ _ => .update _ _ _
  | remove c timer => exact executed_onTimer fun _ _ => .remove _ _
  | advance c delta => exact executed_onClock fun _ => .advance delta
  | request c r => exact executed_onClock fun _ => .request r
  | destroy c => exact executed_onClock fun _ => .destroy
  | drop c =>
    simp only [exec]
    split
    · exact .still
    · exact .dropped
  | idle name ops => exact .queued name ops
  | gettime | mode | pending | describe => exact .still

theorem exec_of_gone {op : Op} (about : op.clock? = some c) (gone : w.clock? c = none) :
    w.exec op = (.noClock, w) := by
  cases op <;> cases about <;> simp [exec, addTimer, onTimer, onClock, ask, gone]

section advance

variable {registry : Option Registry} {f : FakeTime} {delta target : Duration}

theorem exec_advance_of_le (found : w.clock? c = some ⟨registry, .fake f⟩)
    (overflow : Duration.limit ≤ f.now.nanos + delta.nanos) :
    w.exec (.advance c delta) = (.failed (.refused .timeOverflow), w) := by
  have refused : (⟨registry, .fake f⟩ : Clock).advance c delta w.loop =
      Clock.refuse ⟨registry, .fake f⟩ w.loop .timeOverflow := by
    simp only [Clock.advance, Duration.add?_eq_none_iff.mpr overflow]
  simp only [exec, onClock, found, refused]
  exact congrArg (Prod.mk _) (accept_of_same found rfl rfl)

theorem exec_advance_of_add? (found : w.clock? c = some ⟨registry, .fake f⟩)
    (sum : f.now.add? delta = some target) :
    w.exec (.advance c delta) = (.done, w.accept c
      ⟨.ok (), ⟨registry, .fake (f.advanceTo registry.isSome c target w.loop).1⟩,
        (f.advanceTo registry.isSome c target w.loop).2⟩) := by
  simp only [exec, onClock, found, Clock.advance, sum]
  rfl

end advance

section ofUnit

variable {result : Except Failure Unit} {why : Failure}

theorem ofUnit_eq_done_iff : Answer.ofUnit result = .done ↔ result = .ok () := by
  cases result <;> simp [Answer.ofUnit]

theorem ofUnit_eq_failed_iff : Answer.ofUnit result = .failed why ↔ result = .error why := by
  cases result <;> simp [Answer.ofUnit]

theorem exists_failed_of_ofUnit (undone : Answer.ofUnit result ≠ .done) :
    ∃ why, Answer.ofUnit result = .failed why := by
  cases result with
  | ok => exact absurd rfl undone
  | error why => exact ⟨why, rfl⟩

end ofUnit

theorem exists_clock_of_done {op : Op} (about : op.clock? = some c)
    (done : (w.exec op).1 = .done) : ∃ k, w.clock? c = some k := by
  cases found : w.clock? c with
  | some k => exact ⟨k, rfl⟩
  | none =>
    rw [exec_of_gone about found] at done
    cases done

theorem Executed.batch_sublist {op : Op} {w' : World} (executed : Executed w op w') :
    w'.loop.batch.Sublist w.loop.batch := by
  cases executed with
  | called _ _ replies _ => exact replies.frames.batch
  | _ => exact List.Sublist.refl _

theorem Executed.clock?_eq {op : Op} {w' : World} (executed : Executed w op w')
    (known : c < w.clocks.length) (elsewhere : op.clock? ≠ some c) : w'.clock? c = w.clock? c := by
  cases executed with
  | still => rfl
  | created mode hasLoop => rw [clock?_newClock, if_neg (Nat.ne_of_lt known)]
  | dropped => rw [clock?_dropClock, if_neg fun same => elsewhere (congrArg some same.symm)]
  | queued name ops => rfl
  | called _ found replies _ =>
    change (World.setClock ..).clock? c = _
    rw [clock?_setClock (lt_length_of_clock? found),
      if_neg fun same => elsewhere (replies.clock?.trans (congrArg some same.symm))]

theorem Executed.kind {op : Op} {w' : World} {k' : Clock} (executed : Executed w op w')
    (known : c < w.clocks.length) (found : w'.clock? c = some k') :
    ∃ k, w.clock? c = some k ∧ k'.mode = k.mode ∧ k'.registry.isSome = k.registry.isSome := by
  cases executed with
  | still => exact ⟨k', found, rfl, rfl⟩
  | created mode hasLoop =>
    rw [clock?_newClock, if_neg (Nat.ne_of_lt known)] at found
    exact ⟨k', found, rfl, rfl⟩
  | dropped =>
    rw [clock?_dropClock] at found
    split at found
    · cases found
    · exact ⟨k', found, rfl, rfl⟩
  | queued name ops => exact ⟨k', found, rfl, rfl⟩
  | called _ found' replies _ =>
    change (World.setClock ..).clock? c = _ at found
    rw [clock?_setClock (lt_length_of_clock? found')] at found
    split at found
    · next same =>
      cases found
      exact ⟨_, same ▸ found', replies.frames.mode, replies.frames.looped⟩
    · exact ⟨k', found, rfl, rfl⟩

theorem Executed.lookup_eq {op : Op} {w' : World} (executed : Executed w op w') {timer : String}
    (other : op.adds? ≠ some timer) : w'.lookup timer = w.lookup timer := by
  cases executed with
  | called added found replies names =>
    change (added ++ w.names).lookup timer = w.names.lookup timer
    induction added with
    | nil => rfl
    | cons entry added ih =>
      have apart : timer ≠ entry.1 := by
        rintro rfl
        exact other (names entry List.mem_cons_self)
      rw [List.cons_append, List.lookup_cons, beq_false_of_ne apart]
      exact ih fun x member => names x (List.mem_cons_of_mem entry member)
  | _ => rfl

theorem Executed.length_le {op : Op} {w' : World} (executed : Executed w op w') :
    w.clocks.length ≤ w'.clocks.length := by
  cases executed with
  | still => exact Nat.le_refl _
  | created mode hasLoop => simp [newClock]
  | dropped => simp [dropClock]
  | queued name ops => exact Nat.le_refl _
  | called => simp [accept, setClock]

end World

end VirtualClock
