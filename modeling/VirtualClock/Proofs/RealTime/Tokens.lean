import VirtualClock.Proofs.RealTime.Armings

/-!
The numbers of sources as tokens that the timers of a clock hold. Table and loop match one to one
whatever the host does; a number that is not on the loop any more is spent, and nobody ever asks
the loop to remove it again, not even while the source that had it has yet to be dropped.
-/

namespace VirtualClock

namespace Registry

variable {r : Registry} {h : TimerHandle} {n : Nat}

/-- Timers that hold a source, with its number. -/
def tokens (r : Registry) : List (TimerHandle × Nat) :=
  r.entries.filterMap fun e => e.source.map (e.handle, ·)

theorem mem_tokens : (h, n) ∈ r.tokens ↔ ∃ e ∈ r.entries, e.handle = h ∧ e.source = some n := by
  simp only [tokens, List.mem_filterMap, Option.map_eq_some_iff, Prod.mk.injEq]
  refine exists_congr fun e => and_congr_right fun _ => ⟨?_, ?_⟩
  · rintro ⟨_, source, rfl, rfl⟩
    exact ⟨rfl, source⟩
  · rintro ⟨rfl, source⟩
    exact ⟨n, source, rfl, rfl⟩

theorem source?_eq_some_iff (numbered : r.Numbered) : r.source? h = some n ↔ (h, n) ∈ r.tokens := by
  rw [mem_tokens, source?, Option.bind_eq_some_iff]
  constructor
  · rintro ⟨e, entry, source⟩
    exact ⟨e, List.mem_of_find?_eq_some entry, handle_of_find? entry, source⟩
  · rintro ⟨e, member, rfl, source⟩
    exact ⟨e, (Keyed.find?_eq_some_iff numbered.distinct).mpr ⟨member, rfl⟩, source⟩

theorem handles_tokens_sublist (r : Registry) : (r.tokens.map (·.1)).Sublist r.handles := by
  unfold tokens handles
  induction r.entries with
  | nil => exact .slnil
  | cons e entries ih =>
    cases source : e.source with
    | none =>
      simp only [List.filterMap_cons, source, Option.map_none]
      exact ih.cons _
    | some n =>
      simp only [List.filterMap_cons, source, Option.map_some]
      exact ih.cons_cons _

end Registry

namespace EventLoop

/-- The number was given to a source that is not on the loop any more. -/
def Spent (l : EventLoop) (n : Nat) : Prop := n < l.nextSource ∧ ∀ s ∈ l.sources, s.id ≠ n

/-- The loop with one more source, in front of all others. -/
def haunted (n : Nat) (l : EventLoop) : EventLoop :=
  { l with sources := ⟨n, 0, 0, ⟨0⟩⟩ :: l.sources }

/-- Nothing but removing its own number takes a source off the loop. -/
theorem overlay_haunted (n : Nat) : Overlay (haunted n) (fun _ => True) (· ≠ n) where
  now _ := rfl
  nextTicket _ := rfl
  nextSource _ := rfl
  enqueueAll _ _ := rfl
  cancel _ _ _ := rfl
  insertSource _ _ _ _ := by
    simp only [EventLoop.insertSource, haunted, Nat.zero_le, decide_true,
      List.takeWhile_cons_of_pos, List.dropWhile_cons_of_pos]
    rfl
  removeSource l id other := by
    have kept : (n != id) = true := bne_iff_ne.mpr (Ne.symm other)
    simp [EventLoop.removeSource, haunted, kept]

/-- Dropping a source whose number is spent changes nothing else. -/
theorem removeSource_haunted {l : EventLoop} {n : Nat} (spent : l.Spent n) :
    (l.haunted n).removeSource n = l := by
  have others : l.sources.filter (·.id != n) = l.sources :=
    List.filter_eq_self.mpr fun s member => bne_iff_ne.mpr (spent.2 s member)
  simp [removeSource, haunted, others]

/-- What may become of sources: some go, and new ones get new numbers. -/
structure Renewed (l l' : EventLoop) : Prop where
  next_le : l.nextSource ≤ l'.nextSource
  mem : ∀ s ∈ l'.sources, s ∈ l.sources ∨ l.nextSource ≤ s.id

variable {l l' l'' : EventLoop}

theorem Renewed.of_eq (sources : l'.sources = l.sources) (next : l'.nextSource = l.nextSource) :
    Renewed l l' :=
  ⟨Nat.le_of_eq next.symm, fun _ member => .inl (sources ▸ member)⟩

theorem Renewed.trans (h : Renewed l l') (h' : Renewed l' l'') : Renewed l l'' := by
  refine ⟨Nat.le_trans h.next_le h'.next_le, fun s member => ?_⟩
  rcases h'.mem s member with old | new
  · exact h.mem s old
  · exact .inr (Nat.le_trans h.next_le new)

theorem SameSources.renewed (same : l.SameSources l') : Renewed l l' :=
  .of_eq same.sources same.nextSource

theorem renewed_removeSource? (l : EventLoop) (id : Option Nat) :
    Renewed l (l.removeSource? id) := by
  cases id with
  | none => exact .of_eq rfl rfl
  | some id => exact ⟨Nat.le_refl _, fun s member => .inl (List.mem_filter.mp member).1⟩

theorem renewed_insertSource (l : EventLoop) (delay c : Nat) (h : TimerHandle) :
    Renewed l (l.insertSource delay c h) := by
  refine ⟨Nat.le_succ _, fun s member => ?_⟩
  rcases mem_insertSource.mp member with rfl | old
  · exact .inr (Nat.le_refl _)
  · exact .inl old

theorem Spent.renewed {n : Nat} (spent : l.Spent n) (renewed : Renewed l l') : l'.Spent n := by
  refine ⟨Nat.lt_of_lt_of_le spent.1 renewed.next_le, fun s member => ?_⟩
  rcases renewed.mem s member with old | new
  · exact spent.2 s old
  · exact Nat.ne_of_gt (Nat.lt_of_lt_of_le spent.1 new)

end EventLoop

theorem Clock.Rewired.renewed {c : Nat} {k k' : Clock} {l l' : EventLoop}
    {change : Option (TimerHandle × Option Nat)} (rewired : Clock.Rewired c k l k' l' change) :
    EventLoop.Renewed l l' := by
  cases rewired with
  | kept _ same => exact same.renewed
  | disarmed _ same => exact (EventLoop.renewed_removeSource? ..).trans same.renewed
  | armed _ same =>
    exact ((EventLoop.renewed_removeSource? ..).trans (EventLoop.renewed_insertSource ..)).trans
      same.renewed

theorem World.Rewired.renewed {w w' : World} {op : Op} (rewired : w.Rewired op w') :
    EventLoop.Renewed w.loop w'.loop := by
  cases rewired with
  | still _ same => exact same.renewed
  | created mode hasLoop _ new => exact new ▸ .of_eq rfl rfl
  | dropped c _ gone => exact gone ▸ .of_eq rfl rfl
  | called _ _ _ _ rewired => exact rewired.renewed

namespace World

variable {w : World}

theorem Wired.spares (wired : w.Wired) (coherent : w.Coherent) {n : Nat}
    (spent : w.loop.Spent n) : w.Spares (fun _ => True) (· ≠ n) := by
  intro c k found
  refine ⟨fun _ _ _ _ => trivial, ?_⟩
  intro r registered e member n source same
  subst same
  have numbered := (coherent.clocks c k found).numbered registered
  have held : w.source? c e.handle = some n := by
    rw [source?_of_clock? found, Clock.source?_of_registry registered,
      Registry.source?_eq_some_iff numbered, Registry.mem_tokens]
    exact ⟨e, member, rfl, source⟩
  obtain ⟨s, live, _, _, number⟩ := (wired.held_iff c (by simp [found]) _ n).mp held
  exact spent.2 s live number

theorem Wired.perm_tokens (wired : w.Wired) (coherent : w.Coherent) {c : Nat} {r : Registry}
    {source : TimeSource} (found : w.clock? c = some ⟨some r, source⟩) :
    ((w.loop.sources.filter (·.clock = c)).map fun s => (s.handle, s.id)).Perm r.tokens := by
  have numbered := (coherent.clocks c _ found).numbered rfl
  have left : ((w.loop.sources.filter (·.clock = c)).map fun s => (s.handle, s.id)).Nodup := by
    refine List.Nodup.of_map Prod.snd ?_
    rw [List.map_map]
    exact wired.distinct.sublist (List.filter_sublist.map _)
  have right : r.tokens.Nodup :=
    .of_map _ (numbered.distinct.sublist (Registry.handles_tokens_sublist r))
  refine (List.perm_ext_iff_of_nodup left right).mpr ?_
  rintro ⟨h, n⟩
  rw [← Registry.source?_eq_some_iff numbered,
    ← Clock.source?_of_registry (k := ⟨some r, source⟩) rfl, ← source?_of_clock? found,
    wired.held_iff c (by simp [found])]
  simp only [List.mem_map, List.mem_filter, decide_eq_true_eq, Prod.mk.injEq]
  constructor
  · rintro ⟨s, ⟨live, own⟩, handle, number⟩
    exact ⟨s, live, own, handle, number⟩
  · rintro ⟨s, live, own, handle, number⟩
    exact ⟨s, ⟨live, own⟩, handle, number⟩

end World

namespace Moment

variable {m m' : Moment}

theorem HostReachable.accounted (run : m.HostReachable) : m.Accounted := by
  induction run with
  | refl => exact .empty
  | tail before step ih =>
    have coherent := HostReachable.coherent before
    exact ih.step coherent (step.sourceStep coherent ih.wired)

theorem SourceStep.renewed (step : m.SourceStep m') :
    EventLoop.Renewed m.world.loop m'.world.loop := by
  cases step with
  | still same => exact .of_eq same.sources same.nextSource
  | fakeFired same => exact .of_eq same.sources same.nextSource
  | called rewired same => exact rewired.renewed.trans (.of_eq same.sources same.nextSource)
  | @lost s _ _ _ loop => exact loop ▸ EventLoop.renewed_removeSource? _ (some s.id)
  | fired k' _ _ _ rewired => exact rewired.renewed

theorem spent_of_hostSteps (run : m.HostReachable) (later : Relation.ReflTransGen HostStep m m')
    {n : Nat} (spent : m.world.loop.Spent n) : m'.world.loop.Spent n := by
  induction later with
  | refl => exact spent
  | @tail a b before step ih =>
    have reached : a.HostReachable := Relation.ReflTransGen.trans run before
    exact ih.renewed (step.sourceStep reached.coherent reached.accounted.wired).renewed

theorem loop_expire {s : Source} {sources : List Source}
    (stage : m.stage = .expiring (s :: sources)) (live : s ∈ m.world.loop.sources) :
    m.proceed.world.loop = m.world.loop.removeSource s.id := by
  have enters (m : Moment) (c : Nat) (h : TimerHandle) (origin : Origin) :
      (m.enter c h origin).world.loop = m.world.loop := by
    unfold enter
    split
    · rfl
    · next entered =>
      unfold World.enter? at entered
      split at entered
      · cases entered
      · split at entered
        · cases entered
        · cases entered
          rfl
  simp only [proceed, stage, expire, live, if_true]
  split
  · rfl
  · rw [enters]
    rfl

theorem eq_of_armedBy {c n : Nat} {h : TimerHandle} {history past past' : List Event}
    (first : (.fire c h none :: past) <:+ history) (second : (.fire c h none :: past') <:+ history)
    (armed : ArmedBy c h n past) (armed' : ArmedBy c h n past') : past' = past := by
  have ends : (Event.fire c h none).rewires? c = some (h, none) := if_pos rfl
  -- the later of the two firings would be for a later update
  have apart {past past' : List Event} (armed : ArmedBy c h n past) (armed' : ArmedBy c h n past')
      (within : (.fire c h none :: past) <:+ (.fire c h none :: past')) : past' = past := by
    obtain ⟨between, split⟩ := within
    cases between with
    | nil => exact (List.cons.inj split).2.symm
    | cons e between =>
      obtain ⟨_, rfl⟩ := List.cons.inj split
      exact absurd armed.lt_length (Nat.lt_asymm (ArmedBy.length_lt_of_append ends armed'))
  rcases List.suffix_or_suffix_of_suffix first second with within | within
  · exact apart armed armed' within
  · exact (apart armed' armed within).symm

theorem Reachable.hostReachable (run : m.Reachable) : m.HostReachable :=
  Relation.ReflTransGen.mono (fun _ _ step => HostStep.step step) _ _ run

/-- One source per arming, whatever is called and in whatever order the host takes up sources. The
sources of a clock on real time and the tokens that its timers hold match one to one, at most one
for each timer, and a timer has one just if an update armed it and nothing has changed it since. A
number that was given away and is not on the loop, as that of a source that has been taken up, is
spent for good: were the source still there it could be dropped at any time without changing
anything else, and no operation, at top level or in a callback, would ask for its removal. Each
firing is for an update that armed the timer, and no two firings are for the same update. -/
theorem one_source_per_arming (run : m.HostReachable) :
    (∀ c r, m.world.clock? c = some ⟨some r, .real⟩ →
      ((m.world.loop.sources.filter (·.clock = c)).map fun s => (s.handle, s.id)).Perm r.tokens ∧
        (r.tokens.map (·.1)).Nodup ∧ (r.tokens.map (·.2)).Nodup ∧
        ∀ h, (∃ n, (h, n) ∈ r.tokens) ↔ ∃ n, ArmedBy c h n m.history) ∧
    (∀ s ∈ m.world.loop.sources, s.id < m.world.loop.nextSource) ∧
    (∀ s sources, m.stage = .expiring (s :: sources) → s ∈ m.world.loop.sources →
      m.proceed.world.loop.Spent s.id) ∧
    (∀ n, m.world.loop.Spent n →
      (∀ m', Relation.ReflTransGen HostStep m m' → m'.world.loop.Spent n) ∧
      (m.world.loop.haunted n).removeSource n = m.world.loop ∧
      (∀ op, (m.world.overlaid (EventLoop.haunted n)).exec op =
        ((m.world.exec op).1, (m.world.exec op).2.overlaid (EventLoop.haunted n))) ∧
      ∀ origin ops, m.stage = .running origin ops →
        (m.overlaid (EventLoop.haunted n)).proceed = m.proceed.overlaid (EventLoop.haunted n)) ∧
    ∀ later c h past, m.history = later ++ .fire c h none :: past →
      ∃ n, ArmedBy c h n past ∧ ∀ later' past', m.history = later' ++ .fire c h none :: past' →
        ArmedBy c h n past' → past' = past := by
  have coherent := run.coherent
  obtain ⟨wired, armed_iff, _, fires⟩ := run.accounted
  refine ⟨?_, wired.lt_next, ?_, ?_, ?_⟩
  · intro c r found
    have perm := wired.perm_tokens coherent.world found
    have numbered := (coherent.world.clocks c _ found).numbered rfl
    refine ⟨perm, numbered.distinct.sublist (Registry.handles_tokens_sublist r), ?_, fun h => ?_⟩
    · rw [← (perm.map (·.2)).nodup_iff, List.map_map]
      exact wired.distinct.sublist (List.filter_sublist.map _)
    · rw [← armed_iff c _ found rfl h, Clock.source?_of_registry rfl, Option.isSome_iff_exists]
      exact exists_congr fun n => (Registry.source?_eq_some_iff numbered).symm
  · intro s sources stage live
    rw [loop_expire stage live]
    exact ⟨wired.lt_next s live, fun t left => (EventLoop.mem_removeSource.mp left).2⟩
  · intro n spent
    have overlay := EventLoop.overlay_haunted n
    have spares := wired.spares coherent.world spent
    exact ⟨fun m' later => spent_of_hostSteps run later spent,
      EventLoop.removeSource_haunted spent, World.exec_overlaid overlay spares,
      fun origin ops running => proceed_overlaid overlay spares running⟩
  · intro later c h past split
    obtain ⟨n, armed⟩ := fires later c h past split
    refine ⟨n, armed, fun later' past' split' armed' => ?_⟩
    exact eq_of_armedBy ⟨later, split.symm⟩ ⟨later', split'.symm⟩ armed armed'

/-- A timer that arms itself again in its callback: the source that fired is spent, and the new one
would survive its being dropped. -/
theorem one_source_per_arming_rearming :
    ∃ m, HostReachable m ∧ m.stage = .running (.source []) [] ∧
      m.world.loop.sources.map (·.id) = [1] ∧
      (m.world.loop.haunted 0).removeSource 0 = m.world.loop := by
  obtain ⟨m, at_⟩ : ∃ m, m = ofCalls [.new .real true,
      .add 0 "tick" [[.update 0 "tick" 3]] true, .update 0 "tick" 2] := ⟨_, rfl⟩
  let waited : Moment := { m with world := m.world.passTo 2000000 }
  let expiring : Moment := { waited with stage := .expiring [⟨0, 2000000, 0, ⟨0⟩⟩] }
  have run : expiring.proceed.proceed.HostReachable := by
    have called : m.HostReachable := at_ ▸ (reachable_ofCalls _).hostReachable
    have rest : waited.stage = .rest := by
      simp only [waited, at_]
      rfl
    exact (((called.tail (.pass _)).tail (.expire _ rest)).tail (.step .proceed)).tail
      (.step .proceed)
  have sources : expiring.proceed.proceed.world.loop.sources = [⟨1, 5000000, 0, ⟨0⟩⟩] := by
    simp only [expiring, waited, at_]
    rfl
  have spent : expiring.proceed.proceed.world.loop.Spent 0 := by
    refine ⟨?_, by simp [sources]⟩
    simp only [expiring, waited, at_]
    decide
  refine ⟨_, run, ?_, by rw [sources]; rfl, ((one_source_per_arming run).2.2.2.1 0 spent).2.1⟩
  simp only [expiring, waited, at_]
  rfl

end Moment

end VirtualClock
