import VirtualClock.Proofs.Clock.Coherence
import VirtualClock.Proofs.World.Calls

/-!
Coherent worlds. Tickets on the loop are unique, work and sources belong to clocks that were
created, every clock agrees with the loop, and sources fire timers of clocks on real time only.
Every step of a run keeps a world coherent.
-/

namespace VirtualClock

namespace EventLoop

/-- The loop with what is left of the batch once its next task is taken up. -/
def withBatch (l : EventLoop) (batch : List Idle) : EventLoop := { l with batch }

variable {l : EventLoop} {c : Nat} {i : Idle} {rest : List Idle}

theorem next?_eq (batch : l.batch = i :: rest) : l.next? = some (i, l.withBatch rest) := by
  unfold next?
  rw [batch]
  rfl

theorem live_eq (batch : l.batch = i :: rest) : l.live = i :: (l.withBatch rest).live := by
  simp [live, batch, withBatch]

theorem mem_live_of_withBatch (batch : l.batch = i :: rest) {j : Idle}
    (member : j ∈ (l.withBatch rest).live) : j ∈ l.live := by
  rw [live_eq batch]
  exact List.mem_cons_of_mem i member

theorem idlesOf_eq_cons (batch : l.batch = i :: rest) (own : i.isOf c = true) :
    l.idlesOf c = i :: (l.withBatch rest).idlesOf c := by
  simp only [idlesOf, live_eq batch, List.filter_cons, own, if_true]

theorem isOf_eq_false_of_idle (idle : l.idlesOf c = []) (batch : l.batch = i :: rest) :
    i.isOf c = false := by
  cases own : i.isOf c with
  | false => rfl
  | true =>
    rw [idlesOf_eq_cons batch own] at idle
    cases idle

theorem idlesOf_eq_of_other (batch : l.batch = i :: rest) (other : i.isOf c = false) :
    l.idlesOf c = (l.withBatch rest).idlesOf c := by
  simp [idlesOf, live_eq batch, other]

theorem Ticketed.withBatch (ticketed : l.Ticketed) (batch : l.batch = i :: rest) :
    (l.withBatch rest).Ticketed := by
  have live := live_eq batch
  exact ⟨(List.nodup_cons.mp (live ▸ ticketed.distinct)).2,
    fun j member => ticketed.lt_next j (mem_live_of_withBatch batch member)⟩

theorem sameBut_withBatch (batch : l.batch = i :: rest) (own : i.isOf c = true) :
    SameBut c l (l.withBatch rest) where
  batch := by simp [batch, own, withBatch]
  queue := rfl
  sublist := batch ▸ List.sublist_cons_self i rest
  nextTicket_le := Nat.le_refl _
  ticketed h := h.withBatch batch

end EventLoop

namespace Clock

variable {k : Clock} {c : Nat} {l : EventLoop}

theorem Replies.kept {α : Type} {op : Op} {reply : Reply α} (replies : k.Replies c l op reply)
    (ticketed : l.Ticketed) (coherent : k.CoherentIn c l) : reply.Kept c l := by
  cases replies with
  | advance delta => exact kept_advance ticketed coherent delta
  | request r => exact kept_handleRequest ticketed coherent r
  | add => exact kept_addTimer coherent _
  | update timer h delay => exact kept_updateTimer ticketed coherent h delay
  | remove timer h => exact kept_removeTimer ticketed coherent h
  | destroy => exact kept_destroy ticketed coherent

theorem CoherentIn.mapRegistry (coherent : k.CoherentIn c l) (change : Registry → Registry)
    (numbered : ∀ r : Registry, r.Numbered → (change r).Numbered)
    (handles : ∀ r, (change r).handles = r.handles) :
    ({ k with registry := k.registry.map change } : Clock).CoherentIn c l := by
  cases coherent with
  | real known idle =>
    refine .real ?_ idle
    intro r some
    obtain ⟨r, registered, rfl⟩ := Option.map_eq_some_iff.mp some
    exact numbered r (known r registered)
  | unlooped empty settled idle => exact .unlooped empty settled idle
  | looped known perm coherent linked =>
    exact .looped (numbered _ known) ((handles _).symm ▸ perm) coherent linked

theorem CoherentIn.fake_of_mem (coherent : k.CoherentIn c l) {i : Idle} (live : i ∈ l.live)
    (own : i.isOf c = true) :
    ∃ r f, k = ⟨some r, .fake f⟩ ∧ r.Numbered ∧ f.timers.handles.Perm r.handles ∧ f.Coherent ∧
      l.idlesOf c = f.idles c := by
  have member : i ∈ l.idlesOf c := List.mem_filter.mpr ⟨live, own⟩
  cases coherent with
  | real _ idle => simp [idle] at member
  | unlooped _ _ idle => simp [idle] at member
  | looped numbered perm coherent linked => exact ⟨_, _, rfl, numbered, perm, coherent, linked⟩

end Clock

namespace World

structure Coherent (w : World) : Prop where
  ticketed : w.loop.Ticketed
  owners : ∀ i ∈ w.loop.live, ∀ c, i.isOf c = true → c < w.clocks.length
  clocks : ∀ c k, w.clock? c = some k → k.CoherentIn c w.loop
  sources : ∀ s ∈ w.loop.sources,
    s.clock < w.clocks.length ∧ ∀ k, w.clock? s.clock = some k → k.mode = .real

namespace Coherent

variable {w w' : World} {c : Nat} {k k' : Clock} {l' : EventLoop}

theorem empty : ({} : World).Coherent where
  ticketed := ⟨List.nodup_nil, by simp [EventLoop.live]⟩
  owners := by simp [EventLoop.live]
  clocks c k found := by simp [clock?] at found
  sources := by simp

theorem of_eq (h : w.Coherent) (clocks : w'.clocks = w.clocks) (loop : w'.loop = w.loop) :
    w'.Coherent := by
  obtain ⟨_, _, _, _⟩ := w
  obtain ⟨_, _, _, _⟩ := w'
  cases clocks
  cases loop
  exact ⟨h.ticketed, h.owners, h.clocks, h.sources⟩

/-- Work of a clock that is no longer there, or of none, comes off the loop. -/
theorem of_live (h : w.Coherent) (ticketed : l'.Ticketed)
    (live : ∀ i ∈ l'.live, i ∈ w.loop.live ∨ i.task.owner? = none)
    (idles : ∀ d k, w.clock? d = some k → l'.idlesOf d = w.loop.idlesOf d)
    (sources : ∀ s ∈ l'.sources, s ∈ w.loop.sources) :
    ({ w with loop := l' } : World).Coherent where
  ticketed := ticketed
  owners i member c own := by
    rcases live i member with old | unowned
    · exact h.owners i old c own
    · simp [Idle.isOf_iff, unowned] at own
  clocks d k found := (h.clocks d k found).of_idlesOf (idles d k found)
  sources s member := h.sources s (sources s member)

theorem of_loop (h : w.Coherent) (live : l'.live = w.loop.live)
    (next : l'.nextTicket = w.loop.nextTicket)
    (sources : ∀ s ∈ l'.sources, s ∈ w.loop.sources) :
    ({ w with loop := l' } : World).Coherent :=
  h.of_live ⟨live ▸ h.ticketed.distinct, live ▸ next ▸ h.ticketed.lt_next⟩
    (fun _ member => .inl (live ▸ member))
    (fun d _ _ => by rw [EventLoop.idlesOf, live, EventLoop.idlesOf]) sources

theorem setClock (h : w.Coherent) (found : w.clock? c = some k) (coherent : k'.CoherentIn c l')
    (sameBut : EventLoop.SameBut c w.loop l') (mode : k'.mode = k.mode)
    (sources : ∀ s ∈ l'.sources, s ∈ w.loop.sources ∨ s.clock = c ∧ k.mode = .real) :
    ({ w.setClock c k' with loop := l' } : World).Coherent := by
  have known := lt_length_of_clock? found
  have length : (w.setClock c k').clocks.length = w.clocks.length := List.length_set ..
  refine ⟨sameBut.ticketed h.ticketed, ?_, ?_, ?_⟩
  · intro i member d own
    change d < (w.setClock c k').clocks.length
    rw [length]
    rcases sameBut.mem_live member with ofClock | live
    · rw [Idle.isOf_iff] at own ofClock
      rw [ofClock] at own
      exact Option.some.inj own ▸ known
    · exact h.owners i live d own
  · intro d kd found'
    change (w.setClock c k').clock? d = some kd at found'
    rw [clock?_setClock known] at found'
    split at found'
    · next same =>
      cases found'
      exact same ▸ coherent
    · next other => exact (h.clocks d kd found').of_idlesOf (sameBut.idlesOf other)
  · intro s member
    change s.clock < (w.setClock c k').clocks.length ∧
      ∀ ks, (w.setClock c k').clock? s.clock = some ks → ks.mode = .real
    rw [length, clock?_setClock known]
    rcases sources s member with old | ⟨rfl, real⟩
    · obtain ⟨lt, realClock⟩ := h.sources s old
      refine ⟨lt, ?_⟩
      intro ks found'
      split at found'
      · next same =>
        cases found'
        exact mode.trans (realClock k (same ▸ found))
      · exact realClock ks found'
    · refine ⟨known, ?_⟩
      intro ks found'
      rw [if_pos rfl] at found'
      cases found'
      exact mode.trans real

theorem newClock (h : w.Coherent) (mode : Mode) (hasLoop : Bool) :
    (w.newClock mode hasLoop).Coherent := by
  have length : (w.newClock mode hasLoop).clocks.length = w.clocks.length + 1 := by
    simp [World.newClock]
  refine ⟨h.ticketed, ?_, ?_, ?_⟩
  · intro i member d own
    exact length ▸ Nat.lt_succ_of_lt (h.owners i member d own)
  · intro d k found
    rw [clock?_newClock] at found
    split at found
    · next same =>
      cases found
      refine .new (List.filter_eq_nil_iff.mpr ?_) mode hasLoop
      intro i member own
      exact Nat.lt_irrefl _ (same ▸ h.owners i member d own)
    · exact h.clocks d k found
  · intro s member
    obtain ⟨lt, real⟩ := h.sources s member
    refine ⟨length ▸ Nat.lt_succ_of_lt lt, ?_⟩
    intro k found
    rw [clock?_newClock, if_neg (Nat.ne_of_lt lt)] at found
    exact real k found

theorem dropClock (h : w.Coherent) (c : Nat) : (w.dropClock c).Coherent := by
  have length : (w.dropClock c).clocks.length = w.clocks.length := List.length_set ..
  have alive {d : Nat} {k : Clock} (found : (w.dropClock c).clock? d = some k) :
      w.clock? d = some k := by
    rw [clock?_dropClock] at found
    split at found
    · cases found
    · exact found
  exact ⟨h.ticketed, fun i member d own => length ▸ h.owners i member d own,
    fun d k found => h.clocks d k (alive found), fun s member =>
      ⟨length ▸ (h.sources s member).1, fun k found => (h.sources s member).2 k (alive found)⟩⟩

theorem executed {op : Op} (h : w.Coherent) (executed : Executed w op w') : w'.Coherent := by
  cases executed with
  | still => exact h
  | created mode hasLoop => exact h.newClock mode hasLoop
  | dropped => exact h.dropClock _
  | queued name ops =>
    have live := EventLoop.live_enqueueAll w.loop [.idle name ops]
    refine h.of_live (h.ticketed.enqueueAll _) ?_ ?_ fun _ => id
    · intro i member
      change i ∈ (w.loop.enqueueAll [.idle name ops]).live at member
      rw [live] at member
      rcases List.mem_append.mp member with old | new
      · exact .inl old
      · rw [List.mem_singleton.mp new]
        exact .inr rfl
    · intro d _ _
      change (w.loop.enqueueAll [.idle name ops]).live.filter _ = _
      rw [live, List.filter_append]
      exact List.append_nil _
  | @called _ c k _ reply added found replies =>
    have kept := replies.kept h.ticketed (h.clocks c k found)
    have frames := replies.frames
    exact (h.setClock found kept.clock kept.loop frames.mode frames.sources).of_eq rfl rfl

theorem exec (h : w.Coherent) (op : Op) : (w.exec op).2.Coherent :=
  h.executed (executed_exec w op)

/-- The clock whose task is next is gone, or it runs on fake time, and the task is the first of
the work that it knows of. -/
theorem of_next (h : w.Coherent) {i : Idle} {rest : List Idle} (batch : w.loop.batch = i :: rest)
    (own : i.isOf c = true) :
    w.clock? c = none ∨ ∃ r f, w.clock? c = some ⟨some r, .fake f⟩ ∧ r.Numbered ∧
      f.timers.handles.Perm r.handles ∧ f.Coherent ∧ ((f.idles c).map (·.ticket)).Nodup ∧
      f.idles c = i :: (w.loop.withBatch rest).idlesOf c := by
  cases found : w.clock? c with
  | none => exact .inl rfl
  | some k =>
    have live : i ∈ w.loop.live := by simp [EventLoop.live, batch]
    obtain ⟨r, f, rfl, numbered, perm, coherent, linked⟩ :=
      (h.clocks c k found).fake_of_mem live own
    refine .inr ⟨r, f, rfl, numbered, perm, coherent, ?_, ?_⟩
    · exact FakeTime.tickets_nodup linked h.ticketed
    · rw [← linked, EventLoop.idlesOf_eq_cons batch own]

theorem withBatch (h : w.Coherent) {i : Idle} {rest : List Idle} (batch : w.loop.batch = i :: rest)
    (gone : ∀ c, i.isOf c = true → w.clock? c = none) :
    ({ w with loop := w.loop.withBatch rest } : World).Coherent := by
  refine h.of_live (h.ticketed.withBatch batch) (fun j member => .inl ?_) ?_
    fun _ => id
  · exact EventLoop.mem_live_of_withBatch batch member
  · intro d k found
    refine (EventLoop.idlesOf_eq_of_other batch ?_).symm
    cases own : i.isOf d with
    | false => rfl
    | true => simp [gone d own] at found

end Coherent

end World

end VirtualClock
