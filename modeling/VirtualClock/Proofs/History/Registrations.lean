import VirtualClock.Proofs.History.Lifetime
import VirtualClock.Proofs.World.Failures

/-!
Handles given away and taken back. An add that succeeds gives a handle away, a removal that
succeeds takes it back, and nothing else changes which timers a clock has registered. At every
moment of a run the timers of a clock are those whose handles were given away on that very clock
and not taken back since; no handle is given away twice on one clock.
-/

namespace VirtualClock

/-- The handle that an event gives away on clock `c`. -/
def Event.issues? (c : Nat) : Event → Option TimerHandle
  | .call (.add d ..) _ _ (.handle h) => if d = c then some h else none
  | _ => none

/-- The handle that an event takes back on clock `c`. -/
def Event.revokes? (c : Nat) : Event → Option TimerHandle
  | .call (.remove d _) (some h) _ .done => if d = c then some h else none
  | _ => none

/-- Handle `h` was given away on clock `c` and not taken back. -/
structure Held (c : Nat) (h : TimerHandle) (history : List Event) : Prop where
  issued : ∃ e ∈ history, e.issues? c = some h
  kept : ∀ e ∈ history, e.revokes? c ≠ some h

section Event

variable {c : Nat} {h : TimerHandle} {e : Event} {past : List Event}

theorem Event.issues?_of_foreign (foreign : e.clock? ≠ some c) : e.issues? c = none := by
  unfold issues?
  split
  · exact if_neg fun same => foreign (congrArg some same)
  · rfl

theorem Event.revokes?_of_foreign (foreign : e.clock? ≠ some c) : e.revokes? c = none := by
  unfold revokes?
  split
  · exact if_neg fun same => foreign (congrArg some same)
  · rfl

theorem held_cons_of_quiet (issues : e.issues? c = none) (revokes : e.revokes? c = none) :
    Held c h (e :: past) ↔ Held c h past := by
  constructor
  · rintro ⟨⟨x, member, issued⟩, kept⟩
    refine ⟨⟨x, ?_, issued⟩, fun y member => kept y (List.mem_cons_of_mem e member)⟩
    rcases List.mem_cons.mp member with rfl | member
    · cases issues.symm.trans issued
    · exact member
  · rintro ⟨⟨x, member, issued⟩, kept⟩
    refine ⟨⟨x, List.mem_cons_of_mem e member, issued⟩, fun y member => ?_⟩
    rcases List.mem_cons.mp member with rfl | member
    · simp [revokes]
    · exact kept y member

theorem held_cons (fresh : e.issues? c = some h → ∀ x ∈ past, x.revokes? c ≠ some h) :
    Held c h (e :: past) ↔ (Held c h past ∨ e.issues? c = some h) ∧ e.revokes? c ≠ some h := by
  constructor
  · rintro ⟨⟨x, member, issued⟩, kept⟩
    refine ⟨?_, kept e List.mem_cons_self⟩
    rcases List.mem_cons.mp member with rfl | member
    · exact .inr issued
    · exact .inl ⟨⟨x, member, issued⟩, fun y member => kept y (List.mem_cons_of_mem e member)⟩
  · rintro ⟨held | issues, kept⟩
    · obtain ⟨x, member, issued⟩ := held.issued
      refine ⟨⟨x, List.mem_cons_of_mem e member, issued⟩, fun y member => ?_⟩
      rcases List.mem_cons.mp member with rfl | member
      · exact kept
      · exact held.kept y member
    · refine ⟨⟨e, List.mem_cons_self, issues⟩, fun y member => ?_⟩
      rcases List.mem_cons.mp member with rfl | member
      · exact kept
      · exact fresh issues y member

end Event

namespace Clock

/-- Handles of the registered timers, with the index of the next one. -/
def roster (k : Clock) : Option (List TimerHandle × Nat) :=
  k.registry.map fun r => (r.handles, r.next)

/-- How many handles the clock has given away. -/
def issued (k : Clock) : Nat := k.registry.elim 0 (·.next)

/-- What an event makes of the timers registered with clock `c`. -/
structure Enlists (c : Nat) (k : Clock) (e : Event) (k' : Clock) : Prop where
  registers_iff : ∀ h,
    k'.Registers h ↔ (k.Registers h ∨ e.issues? c = some h) ∧ e.revokes? c ≠ some h
  issued_le : k.issued ≤ k'.issued
  issues : ∀ h, e.issues? c = some h → k.issued ≤ h.index ∧ h.index < k'.issued
  revokes : ∀ h, e.revokes? c = some h → k.Registers h

variable {k k' : Clock} {c : Nat} {l : EventLoop} {r : Registry} {e : Event}

theorem registers_iff_of_registry (registered : k.registry = some r) {h : TimerHandle} :
    k.Registers h ↔ h ∈ r.handles := by
  simp [Registers, registered]

theorem issued_of_registry (registered : k.registry = some r) : k.issued = r.next := by
  rw [issued, registered, Option.elim_some]

theorem registers_congr (same : k'.roster = k.roster) {h : TimerHandle} :
    k'.Registers h ↔ k.Registers h := by
  have told (k : Clock) : k.Registers h ↔ ∃ p, k.roster = some p ∧ h ∈ p.1 := by
    simp [Registers, roster]
  rw [told, told, same]

theorem issued_congr (same : k'.roster = k.roster) : k'.issued = k.issued := by
  have told (k : Clock) : k.issued = k.roster.elim 0 (·.2) := by
    cases registered : k.registry <;> simp [issued, roster, registered]
  rw [told, told, same]

theorem roster_mapRegistry (k : Clock) (change : Registry → Registry)
    (handles : ∀ r, (change r).handles = r.handles) (next : ∀ r, (change r).next = r.next) :
    ({ k with registry := k.registry.map change } : Clock).roster = k.roster := by
  cases registered : k.registry <;> simp [roster, registered, handles, next]

theorem roster_advance (k : Clock) (c : Nat) (delta : Duration) (l : EventLoop) :
    (k.advance c delta l).clock.roster = k.roster := by
  unfold advance
  split
  · rfl
  · split <;> rfl

theorem roster_handleRequest (k : Clock) (c : Nat) (r : AdvanceRequest) (l : EventLoop) :
    (k.handleRequest c r l).clock.roster = k.roster := by
  unfold handleRequest
  split
  · rfl
  · exact k.roster_advance c _ l

theorem roster_updateTimer (k : Clock) (c : Nat) (h : TimerHandle) (delay : Int32)
    (l : EventLoop) : (k.updateTimer c h delay l).clock.roster = k.roster := by
  unfold updateTimer
  split
  · unfold updateReal
    split
    · rfl
    · next r registered =>
      split
      · rfl
      · simp only
        split <;> simp [roster, registered, Registry.handles_setSource] <;> rfl
  · unfold updateFake
    split
    · rfl
    · split <;> rfl

theorem roster_destroy (k : Clock) (l : EventLoop) : (k.destroy l).clock.roster = k.roster := by
  unfold destroy
  simp only
  split
  · rfl
  · split
    · rfl
    · split <;> rfl

theorem registry_of_removeTimer {h : TimerHandle} (done : (k.removeTimer h l).result = .ok ()) :
    ∃ r, k.registry = some r ∧ h ∈ r.handles ∧
      (k.removeTimer h l).clock.registry = some (r.erase h) := by
  unfold removeTimer at done ⊢
  cases registered : k.registry with
  | none => simp [registered, breach] at done
  | some r =>
    simp only [registered] at done ⊢
    cases entry : r.find? h with
    | none => simp [entry, breach] at done
    | some e =>
      simp only [entry] at done ⊢
      refine ⟨r, rfl, Registry.find?_isSome_iff.mp (by simp [entry]), ?_⟩
      cases k.source with
      | real => rfl
      | fake f =>
        simp only
        split <;> rfl

theorem enlists_of_quiet (issues : e.issues? c = none) (revokes : e.revokes? c = none)
    (same : k'.roster = k.roster) : k.Enlists c e k' where
  registers_iff h := by simp [issues, revokes, registers_congr same]
  issued_le := Nat.le_of_eq (issued_congr same).symm
  issues h given := by cases issues.symm.trans given
  revokes h taken := by cases revokes.symm.trans taken

theorem enlists_add (registered : k.registry = some r) (callback : Callback)
    (registered' : k'.registry = some (r.add callback)) (issues : e.issues? c = some ⟨r.next⟩)
    (revokes : e.revokes? c = none) : k.Enlists c e k' where
  registers_iff h := by
    rw [registers_iff_of_registry registered', registers_iff_of_registry registered,
      Registry.handles_add, issues, revokes, List.mem_append, List.mem_singleton]
    simp [eq_comm]
  issued_le := by
    rw [issued_of_registry registered', issued_of_registry registered]
    exact Nat.le_succ _
  issues h given := by
    cases issues.symm.trans given
    rw [issued_of_registry registered', issued_of_registry registered]
    exact ⟨Nat.le_refl _, Nat.lt_succ_self _⟩
  revokes h taken := by cases revokes.symm.trans taken

theorem enlists_remove (registered : k.registry = some r) (numbered : r.Numbered)
    {h : TimerHandle} (member : h ∈ r.handles) (registered' : k'.registry = some (r.erase h))
    (issues : e.issues? c = none) (revokes : e.revokes? c = some h) : k.Enlists c e k' where
  registers_iff g := by
    rw [registers_iff_of_registry registered', registers_iff_of_registry registered,
      Registry.handles_erase, numbered.distinct.mem_erase_iff, issues, revokes]
    simp [and_comm, eq_comm]
  issued_le := by
    rw [issued_of_registry registered', issued_of_registry registered]
    exact Nat.le_refl _
  issues g given := by cases issues.symm.trans given
  revokes g taken := by
    cases revokes.symm.trans taken
    exact (registers_iff_of_registry registered).mpr member

end Clock

namespace World

variable {w w' : World} {c : Nat} {k k' : Clock} {op : Op}

theorem Executed.roster_eq (executed : Executed w op w') (found : w.clock? c = some k)
    (found' : w'.clock? c = some k') (add : op.adds? = none)
    (remove : ∀ d timer, op ≠ .remove d timer) : k'.roster = k.roster := by
  cases executed with
  | still | queued =>
    cases found.symm.trans found'
    rfl
  | created mode hasLoop =>
    rw [clock?_newClock, if_neg (Nat.ne_of_lt (lt_length_of_clock? found)), found] at found'
    cases found'
    rfl
  | dropped =>
    rw [clock?_dropClock] at found'
    split at found'
    · cases found'
    · cases found.symm.trans found'
      rfl
  | @called _ d kd _ reply _ alive replies =>
    change (w.setClock d reply.clock).clock? c = some k' at found'
    rw [clock?_setClock (lt_length_of_clock? alive)] at found'
    split at found'
    · next same =>
      subst same
      cases found'
      cases found.symm.trans alive
      cases replies with
      | advance delta => exact k.roster_advance c delta _
      | request r => exact k.roster_handleRequest c r _
      | add => cases add
      | update timer h delay => exact k.roster_updateTimer c h delay _
      | remove timer => exact absurd rfl (remove c timer)
      | destroy => exact k.roster_destroy _
    · cases found.symm.trans found'
      rfl

theorem enlists_exec_add {timer : String} {fires : List (List Op)} {repeats : Bool}
    (found : w.clock? c = some k)
    (found' : (w.exec (.add c timer fires repeats)).2.clock? c = some k') :
    k.Enlists c (w.called (.add c timer fires repeats)) k' := by
  have revokes : (w.called (.add c timer fires repeats)).revokes? c = none := rfl
  unfold called at revokes ⊢
  cases registered : k.registry with
  | none =>
    simp only [exec, addTimer, found, Clock.addTimer, registered, Clock.refuse] at found' revokes ⊢
    rw [clock?_accept found] at found'
    cases found'
    exact Clock.enlists_of_quiet rfl revokes rfl
  | some r =>
    simp only [exec, addTimer, found, Clock.addTimer, registered] at found' revokes ⊢
    change (w.accept c _).clock? c = some k' at found'
    rw [clock?_accept found] at found'
    cases found'
    exact Clock.enlists_add registered _ rfl (by simp [Event.issues?]) revokes

theorem enlists_exec_remove {timer : String} (coherent : k.CoherentIn c w.loop)
    (found : w.clock? c = some k)
    (found' : (w.exec (.remove c timer)).2.clock? c = some k') :
    k.Enlists c (w.called (.remove c timer)) k' := by
  have issues : (w.called (.remove c timer)).issues? c = none := rfl
  unfold called at issues ⊢
  simp only [exec, onTimer, found, Op.timer?, Option.bind_some] at found' issues ⊢
  cases named : w.lookup timer with
  | none =>
    simp only [named] at found' issues ⊢
    cases found.symm.trans found'
    exact Clock.enlists_of_quiet issues rfl rfl
  | some h =>
    simp only [named] at found' issues ⊢
    rw [clock?_accept found] at found'
    cases found'
    cases result : (k.removeTimer h w.loop).result with
    | error why =>
      have atomic := Clock.failsAtomically_removeTimer coherent timer h
      refine Clock.enlists_of_quiet issues rfl ?_
      rw [atomic.clock why result]
    | ok =>
      obtain ⟨r, registered, member, registered'⟩ := Clock.registry_of_removeTimer result
      rw [result] at issues
      refine Clock.enlists_remove registered (coherent.numbered registered) member registered'
        issues ?_
      simp [Event.revokes?, Answer.ofUnit]

theorem enlists_exec (h : w.Coherent) (op : Op) (found : w.clock? c = some k)
    (found' : (w.exec op).2.clock? c = some k') : k.Enlists c (w.called op) k' := by
  have executed := executed_exec w op
  by_cases about : op.clock? = some c
  · cases op
    case add d timer fires repeats =>
      cases about
      exact enlists_exec_add found found'
    case remove d timer =>
      cases about
      exact enlists_exec_remove (h.clocks c k found) found found'
    all_goals
      exact Clock.enlists_of_quiet rfl rfl
        (executed.roster_eq found found' rfl fun _ _ other => by cases other)
  · have same := executed.clock?_eq (lt_length_of_clock? found) about
    cases found.symm.trans (same.symm.trans found')
    exact Clock.enlists_of_quiet (Event.issues?_of_foreign about)
      (Event.revokes?_of_foreign about) rfl

theorem quiet_of_gone (op : Op) (gone : w.clock? c = none) :
    (w.called op).issues? c = none ∧ (w.called op).revokes? c = none := by
  by_cases about : op.clock? = some c
  · rw [called, exec_of_gone about gone]
    cases op <;> exact ⟨rfl, by simp [Event.revokes?]⟩
  · exact ⟨Event.issues?_of_foreign about, Event.revokes?_of_foreign about⟩

end World

namespace Moment

variable {m m' : Moment} {c : Nat} {k k' : Clock}

/-- What a step makes of the timers registered with clock `c`. -/
inductive Enlisting (c : Nat) (m m' : Moment) (k' : Clock) : Prop where
  | still {k : Clock} :
    m.world.clock? c = some k → k'.roster = k.roster → m'.history = m.history →
    Enlisting c m m' k'
  | happened {k : Clock} {e : Event} :
    m.world.clock? c = some k → k.Enlists c e k' → m'.history = e :: m.history →
    Enlisting c m m' k'
  | created {e : Event} :
    m.world.clocks.length ≤ c → (∀ h, ¬k'.Registers h) → e.issues? c = none →
    e.revokes? c = none → m'.history = e :: m.history → Enlisting c m m' k'

theorem enlisting_exec (h : m.world.Coherent) (op : Op)
    (found : (m.world.exec op).2.clock? c = some k')
    (history : m'.history = m.world.called op :: m.history) : Enlisting c m m' k' := by
  rcases Nat.lt_or_ge c m.world.clocks.length with known | fresh
  · obtain ⟨k, alive, _⟩ := (World.executed_exec ..).kind known found
    exact .happened alive (World.enlists_exec h op alive found) history
  · obtain ⟨rfl, mode, hasLoop, rfl, rfl⟩ := (World.executed_exec ..).eq_new fresh found
    refine .created (Nat.le_refl _) ?_ rfl rfl history
    rintro g ⟨r, registered, member⟩
    cases hasLoop <;> cases registered
    cases member

/-- A step of a dispatch executes an operation, or it leaves the registered timers of every clock
as they are, and what it adds to history is at most a firing. -/
theorem Progress.roster_eq (next : m.Progress m') (found : m'.world.clock? c = some k') :
    (∃ op, (m.world.exec op).2.clock? c = some k' ∧ m'.history = m.world.called op :: m.history) ∨
      ∃ k, m.world.clock? c = some k ∧ k'.roster = k.roster ∧
        (m'.history = m.history ∨ ∃ d g now, m'.history = .fire d g now :: m.history) := by
  have moved {d : Nat} {k k₁ : Clock} (alive : m.world.clock? d = some k)
      (same : k₁.roster = k.roster) (found : (m.world.setClock d k₁).clock? c = some k') :
      ∃ k, m.world.clock? c = some k ∧ k'.roster = k.roster := by
    rw [World.clock?_setClock (World.lt_length_of_clock? alive)] at found
    split at found
    · next equal =>
      cases found
      exact ⟨k, equal ▸ alive, same⟩
    · exact ⟨k', found, rfl⟩
  cases next with
  | resting | takes | skips | drained | orphan | user | returns =>
    exact .inr ⟨k', found, rfl, .inl rfl⟩
  | @misses s _ k _ alive =>
    obtain ⟨k₀, alive, same⟩ := moved alive (k.roster_mapRegistry (·.setSource s.handle none)
      (fun r => r.handles_setSource s.handle none) fun _ => rfl) found
    exact .inr ⟨k₀, alive, same, .inl rfl⟩
  | @expires s _ k r _ _ _ alive _ registered =>
    have same := k.roster_mapRegistry (fun r => (r.setSource s.handle none).markFired s.handle)
      (fun r => by simp) fun _ => rfl
    rw [registered] at same
    obtain ⟨k₀, alive, same⟩ := moved alive same found
    exact .inr ⟨k₀, alive, same, .inr ⟨_, _, _, rfl⟩⟩
  | @fires _ d g _ r f t _ _ log _ _ alive =>
    have same : (⟨some (r.markFired g), .fake (f.fired g t)⟩ : Clock).roster =
        (⟨some r, .fake f⟩ : Clock).roster := by
      simp only [Clock.roster, Option.map_some, Registry.handles_markFired]
      rfl
    obtain ⟨k₀, alive, same⟩ := moved alive same found
    exact .inr ⟨k₀, alive, same, .inr ⟨_, _, _, rfl⟩⟩
  | @applies _ d _ r f x _ _ alive =>
    have same : (⟨some r, .fake (f.arrived x.target)⟩ : Clock).roster =
        (⟨some r, .fake f⟩ : Clock).roster := rfl
    obtain ⟨k₀, alive, same⟩ := moved alive same found
    exact .inr ⟨k₀, alive, same, .inl rfl⟩
  | @reschedules d g _ r f _ alive =>
    have same : (⟨some r, .fake (f.reschedule d m.world.loop).1⟩ : Clock).roster =
        (⟨some r, .fake f⟩ : Clock).roster := rfl
    obtain ⟨k₀, alive, same⟩ := moved alive same found
    exact .inr ⟨k₀, alive, same, .inl rfl⟩
  | @executes _ op => exact .inl ⟨op, found, rfl⟩

theorem Progress.enlisting (h : m.Coherent) (next : m.Progress m')
    (found : m'.world.clock? c = some k') : Enlisting c m m' k' := by
  rcases next.roster_eq found with ⟨op, found, called⟩ | ⟨k, alive, same, quiet | ⟨_, _, _, fired⟩⟩
  · exact enlisting_exec h.world op found called
  · exact .still alive same quiet
  · exact .happened alive (Clock.enlists_of_quiet rfl rfl same) fired

theorem Step.enlisting (h : m.Coherent) (step : Step m m')
    (found : m'.world.clock? c = some k') : Enlisting c m m' k' := by
  cases step with
  | call op => exact enlisting_exec h.world op found rfl
  | pass | clear | turn => exact .still found rfl rfl
  | proceed => exact (progress_proceed h).enlisting h found

/-- Tables and history agree on which timers there are, and the handles in history are below the
next ones. -/
structure Enrolled (m : Moment) : Prop where
  registers_iff : ∀ c k, m.world.clock? c = some k → ∀ h, k.Registers h ↔ Held c h m.history
  lt_issued : ∀ c k, m.world.clock? c = some k → ∀ e ∈ m.history, ∀ h,
    e.issues? c = some h ∨ e.revokes? c = some h → h.index < k.issued
  known : ∀ c, m.world.clocks.length ≤ c → ∀ e ∈ m.history,
    e.issues? c = none ∧ e.revokes? c = none

theorem Enrolled.empty : ({} : Moment).Enrolled where
  registers_iff c k found := by simp [World.clock?] at found
  lt_issued c k found := by simp [World.clock?] at found
  known c _ e member := by cases member

theorem Step.quiet_of_fresh (h : m.Coherent) (step : Step m m') {e : Event}
    (history : m'.history = e :: m.history) (fresh : m.world.clocks.length ≤ c) :
    e.issues? c = none ∧ e.revokes? c = none := by
  have gone : m.world.clock? c = none := by
    rw [World.clock?, List.getElem?_eq_none fresh]
    rfl
  rcases step.history h with same | ⟨op, new⟩ | ⟨d, g, now, new⟩
  · exact absurd (same.symm.trans history) (List.ne_cons_self)
  · cases new.symm.trans history
    exact World.quiet_of_gone op gone
  · cases new.symm.trans history
    exact ⟨rfl, rfl⟩

theorem Enrolled.step (enrolled : m.Enrolled) (h : m.Coherent) (step : Step m m') :
    m'.Enrolled where
  registers_iff c k' found g := by
    cases step.enlisting h found with
    | still alive same history =>
      rw [history, Clock.registers_congr same, enrolled.registers_iff c _ alive]
    | @happened k e alive enlists history =>
      rw [history, enlists.registers_iff, enrolled.registers_iff c k alive, held_cons]
      intro issues x member revokes
      have old := enrolled.lt_issued c k alive x member g (.inr revokes)
      exact Nat.lt_irrefl _ (Nat.lt_of_lt_of_le old (enlists.issues g issues).1)
    | @created e fresh empty issues revokes history =>
      rw [history, held_cons_of_quiet issues revokes]
      refine iff_of_false (empty g) ?_
      rintro ⟨⟨x, member, issued⟩, _⟩
      cases (enrolled.known c fresh x member).1.symm.trans issued
  lt_issued c k' found x member g event := by
    cases step.enlisting h found with
    | still alive same history =>
      rw [Clock.issued_congr same]
      exact enrolled.lt_issued c _ alive x (history ▸ member) g event
    | @happened k e alive enlists history =>
      rw [history] at member
      rcases List.mem_cons.mp member with rfl | member
      · rcases event with issues | revokes
        · exact (enlists.issues g issues).2
        · obtain ⟨y, member, issues⟩ :=
            ((enrolled.registers_iff c k alive g).mp (enlists.revokes g revokes)).issued
          exact Nat.lt_of_lt_of_le (enrolled.lt_issued c k alive y member g (.inl issues))
            enlists.issued_le
      · exact Nat.lt_of_lt_of_le (enrolled.lt_issued c k alive x member g event)
          enlists.issued_le
    | @created e fresh empty issues revokes history =>
      rw [history] at member
      rcases List.mem_cons.mp member with rfl | member
      · simp [issues, revokes] at event
      · obtain ⟨issues, revokes⟩ := enrolled.known c fresh x member
        simp [issues, revokes] at event
  known c fresh x member := by
    have fresh := Nat.le_trans (step.descends h).length_le fresh
    rcases step.mem_history h member with old | new
    · exact enrolled.known c fresh x old
    · exact step.quiet_of_fresh h new fresh

theorem Reachable.enrolled (run : Reachable m) : m.Enrolled := by
  induction run with
  | refl => exact .empty
  | tail before step ih => exact ih.step (Reachable.coherent before) step

theorem Step.exists_clock_of_issues (h : m.Coherent) (step : Step m m') {e : Event}
    (history : m'.history = e :: m.history) {g : TimerHandle} (issues : e.issues? c = some g) :
    ∃ k', m'.world.clock? c = some k' := by
  cases found : m'.world.clock? c with
  | some k' => exact ⟨k', rfl⟩
  | none =>
    rcases step.history h with same | ⟨op, new⟩ | ⟨_, _, _, new⟩
    · exact absurd (same.symm.trans history) List.ne_cons_self
    · cases new.symm.trans history
      cases alive : m.world.clock? c with
      | none => cases (World.quiet_of_gone op alive).1.symm.trans issues
      | some k =>
        rw [(List.cons.inj (new.symm.trans (step.dropped h alive found))).1] at issues
        cases issues
    · cases new.symm.trans history
      cases issues

/-- A handle is given away once, and not taken back before that. -/
theorem Reachable.issued_once (run : Reachable m) {later past : List Event} {e : Event}
    (split : m.history = later ++ e :: past) {g : TimerHandle} (issues : e.issues? c = some g) :
    ∀ x ∈ past, x.issues? c ≠ some g ∧ x.revokes? c ≠ some g := by
  obtain ⟨a, b, run, step, old, new, _⟩ := run.exists_step split
  rw [← old] at new ⊢
  obtain ⟨k', found⟩ := step.exists_clock_of_issues run.coherent new issues
  cases step.enlisting run.coherent found with
  | still _ _ same => exact absurd (same.symm.trans new) List.ne_cons_self
  | @happened k _ alive enlists history =>
    cases history.symm.trans new
    have low : ∀ x ∈ a.history, ¬(x.issues? c = some g ∨ x.revokes? c = some g) := by
      intro x member event
      exact Nat.lt_irrefl _ (Nat.lt_of_lt_of_le
        (run.enrolled.lt_issued c k alive x member g event) (enlists.issues g issues).1)
    exact fun x member => not_or.mp (low x member)
  | created _ _ quiet _ history =>
    cases history.symm.trans new
    cases quiet.symm.trans issues

theorem Progress.of_fired (next : m.Progress m') {g : TimerHandle} {now : Option Duration}
    (history : m'.history = .fire c g now :: m.history) :
    ∃ k, m.world.clock? c = some k ∧ k.Registers g := by
  cases next with
  | @expires s _ k r _ _ _ alive _ registered entry =>
    cases history
    have member := Registry.find?_isSome_iff.mp (Option.isSome_of_eq_some entry)
    rw [Registry.handles_setSource] at member
    exact ⟨k, alive, r, registered, member⟩
  | fires _ _ _ alive _ _ _ entry =>
    cases history
    exact ⟨_, alive, _, rfl, Registry.find?_isSome_iff.mp (Option.isSome_of_eq_some entry)⟩
  | executes => cases (List.cons.inj history).1
  | _ => exact absurd history List.ne_cons_self

theorem Step.of_fired (h : m.Coherent) (step : Step m m') {g : TimerHandle}
    {now : Option Duration} (history : m'.history = .fire c g now :: m.history) :
    ∃ k, m.world.clock? c = some k ∧ k.Registers g := by
  cases step with
  | call => cases (List.cons.inj history).1
  | proceed => exact (progress_proceed h).of_fired history
  | _ => exact absurd history List.ne_cons_self

theorem Reachable.held_of_fired (run : Reachable m) {later past : List Event} {g : TimerHandle}
    {now : Option Duration} (split : m.history = later ++ .fire c g now :: past) :
    Held c g past := by
  obtain ⟨a, b, run, step, old, new, _⟩ := run.exists_step split
  rw [← old] at new ⊢
  obtain ⟨k, alive, registers⟩ := step.of_fired run.coherent new
  exact (run.enrolled.registers_iff c k alive g).mp registers

end Moment

end VirtualClock
