import VirtualClock.EventLoop
import VirtualClock.Proofs.Keyed

/-!
Work on the loop goes by its ticket. As long as no two pieces of live work share one, cancelling
is a filter, and a clock that cancels all the tickets it holds leaves the work of everyone else
where it was. What one clock does to the loop is therefore told by two equations: the work of
others in the batch, and the work of others in the queue.
-/

namespace VirtualClock

/-- The timer whose callback a task runs. -/
def Task.handle? : Task → Option TimerHandle
  | timer _ h => some h
  | _ => none

/-- Whether this is the clock's own work. -/
def Idle.isOf (i : Idle) (c : Nat) : Bool := i.task.owner? == some c

theorem Idle.isOf_iff {i : Idle} {c : Nat} : i.isOf c = true ↔ i.task.owner? = some c := by
  simp [isOf]

theorem Idle.isOf_timer (ticket : Ticket) (c : Nat) (h : TimerHandle) :
    (⟨ticket, .timer c h⟩ : Idle).isOf c = true :=
  isOf_iff.mpr rfl

theorem Idle.isOf_finalTime (ticket : Ticket) (c : Nat) :
    (⟨ticket, .finalTime c⟩ : Idle).isOf c = true :=
  isOf_iff.mpr rfl

/-- Tasks with the tickets `first`, `first + 1`, … -/
def idlesFrom (tasks : List Task) (first : Ticket) : List Idle :=
  (tasks.zipIdx first).map fun (task, ticket) => ⟨ticket, task⟩

section idlesFrom

variable (tasks : List Task) (first : Ticket)

@[simp] theorem idlesFrom_nil : idlesFrom [] first = [] := rfl

@[simp] theorem idlesFrom_cons (task : Task) :
    idlesFrom (task :: tasks) first = ⟨first, task⟩ :: idlesFrom tasks (first + 1) := rfl

theorem idlesFrom_append (more : List Task) :
    idlesFrom (tasks ++ more) first =
      idlesFrom tasks first ++ idlesFrom more (first + tasks.length) := by
  simp [idlesFrom, List.zipIdx_append]

theorem map_ticket_idlesFrom :
    (idlesFrom tasks first).map (·.ticket) = List.range' first tasks.length := by
  rw [← List.zipIdx_map_snd, idlesFrom, List.map_map]
  rfl

theorem task_mem_of_mem_idlesFrom {i : Idle} (h : i ∈ idlesFrom tasks first) :
    i.task ∈ tasks ∧ first ≤ i.ticket ∧ i.ticket < first + tasks.length := by
  obtain ⟨⟨task, ticket⟩, member, rfl⟩ := List.mem_map.mp h
  obtain ⟨lower, upper, found⟩ := List.mem_zipIdx member
  exact ⟨found ▸ List.getElem_mem _, lower, upper⟩

theorem filter_isOf_idlesFrom {c : Nat} (own : ∀ t ∈ tasks, t.owner? = some c) :
    (idlesFrom tasks first).filter (·.isOf c) = idlesFrom tasks first :=
  List.filter_eq_self.mpr fun _ member =>
    Idle.isOf_iff.mpr (own _ (task_mem_of_mem_idlesFrom _ _ member).1)

theorem filter_not_isOf_idlesFrom {c : Nat} (own : ∀ t ∈ tasks, t.owner? = some c) :
    (idlesFrom tasks first).filter (!·.isOf c) = [] :=
  List.filter_eq_nil_iff.mpr fun _ member => by
    simp [Idle.isOf_iff.mpr (own _ (task_mem_of_mem_idlesFrom _ _ member).1)]

end idlesFrom

namespace EventLoop

/-- No two pieces of live work share a ticket, and new tickets are fresh. -/
structure Ticketed (l : EventLoop) : Prop where
  distinct : (l.live.map (·.ticket)).Nodup
  lt_next : ∀ i ∈ l.live, i.ticket < l.nextTicket

/-- The live work of a clock, in the order in which it will run. -/
def idlesOf (l : EventLoop) (c : Nat) : List Idle := l.live.filter (·.isOf c)

theorem idlesOf_eq (l : EventLoop) (c : Nat) :
    l.idlesOf c = l.batch.filter (·.isOf c) ++ l.queue.filter (·.isOf c) :=
  List.filter_append ..

/-- The loop without the work of a clock. -/
def without (l : EventLoop) (c : Nat) : EventLoop :=
  { l with batch := l.batch.filter (!·.isOf c), queue := l.queue.filter (!·.isOf c) }

theorem live_without (l : EventLoop) (c : Nat) :
    (l.without c).live = l.live.filter (!·.isOf c) :=
  (List.filter_append ..).symm

/-- What the work of one clock may change on the loop: only work of that clock comes and goes,
the batch only loses work, and tickets stay unique. -/
structure SameBut (c : Nat) (l l' : EventLoop) : Prop where
  batch : l'.batch.filter (!·.isOf c) = l.batch.filter (!·.isOf c)
  queue : l'.queue.filter (!·.isOf c) = l.queue.filter (!·.isOf c)
  sublist : l'.batch.Sublist l.batch
  nextTicket_le : l.nextTicket ≤ l'.nextTicket
  ticketed : l.Ticketed → l'.Ticketed

namespace SameBut

variable {c : Nat} {l l' l'' : EventLoop}

theorem refl (c : Nat) (l : EventLoop) : SameBut c l l :=
  ⟨rfl, rfl, List.Sublist.refl _, Nat.le_refl _, id⟩

theorem trans (h : SameBut c l l') (h' : SameBut c l' l'') : SameBut c l l'' where
  batch := h'.batch.trans h.batch
  queue := h'.queue.trans h.queue
  sublist := h'.sublist.trans h.sublist
  nextTicket_le := Nat.le_trans h.nextTicket_le h'.nextTicket_le
  ticketed := h'.ticketed ∘ h.ticketed

theorem of_eq (batch : l'.batch = l.batch) (queue : l'.queue = l.queue)
    (next : l'.nextTicket = l.nextTicket) : SameBut c l l' where
  batch := by rw [batch]
  queue := by rw [queue]
  sublist := by rw [batch]
  nextTicket_le := Nat.le_of_eq next.symm
  ticketed h := by
    have live : l'.live = l.live := by rw [EventLoop.live, EventLoop.live, batch, queue]
    exact ⟨live ▸ h.distinct, fun i hi => next ▸ h.lt_next i (live ▸ hi)⟩

private theorem filter_other {idles idles' : List Idle} {d : Nat} (other : d ≠ c)
    (h : idles'.filter (!·.isOf c) = idles.filter (!·.isOf c)) :
    idles'.filter (·.isOf d) = idles.filter (·.isOf d) := by
  have foreign (i : Idle) : i.isOf d = (!i.isOf c && i.isOf d) := by
    cases hd : i.isOf d with
    | false => simp
    | true =>
      have : i.isOf c = false := by
        rw [Idle.isOf_iff] at hd
        simp [Idle.isOf, hd, other]
      simp [this]
  have through (js : List Idle) :
      js.filter (·.isOf d) = (js.filter (!·.isOf c)).filter (·.isOf d) := by
    rw [List.filter_filter]
    exact List.filter_congr fun i _ => by rw [Bool.and_comm]; exact foreign i
  rw [through idles', through idles, h]

theorem batch_of (h : SameBut c l l') {d : Nat} (other : d ≠ c) :
    l'.batch.filter (·.isOf d) = l.batch.filter (·.isOf d) :=
  filter_other other h.batch

theorem queue_of (h : SameBut c l l') {d : Nat} (other : d ≠ c) :
    l'.queue.filter (·.isOf d) = l.queue.filter (·.isOf d) :=
  filter_other other h.queue

theorem idlesOf (h : SameBut c l l') {d : Nat} (other : d ≠ c) : l'.idlesOf d = l.idlesOf d := by
  rw [idlesOf_eq, idlesOf_eq, h.batch_of other, h.queue_of other]

theorem live (h : SameBut c l l') : l'.live.filter (!·.isOf c) = l.live.filter (!·.isOf c) := by
  rw [EventLoop.live, EventLoop.live, List.filter_append, List.filter_append, h.batch, h.queue]

theorem mem_live (h : SameBut c l l') {i : Idle} (member : i ∈ l'.live) :
    i.isOf c = true ∨ i ∈ l.live := by
  cases own : i.isOf c with
  | true => exact .inl rfl
  | false =>
    have : i ∈ l'.live.filter (!·.isOf c) := List.mem_filter.mpr ⟨member, by simp [own]⟩
    rw [h.live] at this
    exact .inr (List.mem_filter.mp this).1

end SameBut

theorem Ticketed.without {l : EventLoop} (h : l.Ticketed) (c : Nat) : (l.without c).Ticketed where
  distinct := by
    rw [live_without]
    exact h.distinct.sublist (List.filter_sublist.map _)
  lt_next i member := by
    rw [live_without] at member
    exact h.lt_next i (List.mem_filter.mp member).1

theorem sameBut_without (l : EventLoop) (c : Nat) : SameBut c l (l.without c) where
  batch := by simp [EventLoop.without]
  queue := by simp [EventLoop.without]
  sublist := List.filter_sublist
  nextTicket_le := Nat.le_refl _
  ticketed h := h.without c

@[simp] theorem queue_enqueueAll (l : EventLoop) (tasks : List Task) :
    (l.enqueueAll tasks).queue = l.queue ++ idlesFrom tasks l.nextTicket := rfl

@[simp] theorem batch_enqueueAll (l : EventLoop) (tasks : List Task) :
    (l.enqueueAll tasks).batch = l.batch := rfl

@[simp] theorem nextTicket_enqueueAll (l : EventLoop) (tasks : List Task) :
    (l.enqueueAll tasks).nextTicket = l.nextTicket + tasks.length := rfl

theorem live_enqueueAll (l : EventLoop) (tasks : List Task) :
    (l.enqueueAll tasks).live = l.live ++ idlesFrom tasks l.nextTicket := by
  simp [live]

theorem enqueueAll_enqueueAll (l : EventLoop) (tasks more : List Task) :
    (l.enqueueAll tasks).enqueueAll more = l.enqueueAll (tasks ++ more) := by
  have queue := idlesFrom_append tasks l.nextTicket more
  simp only [idlesFrom] at queue
  simp [enqueueAll, queue, Nat.add_assoc]

theorem Ticketed.enqueueAll {l : EventLoop} (h : l.Ticketed) (tasks : List Task) :
    (l.enqueueAll tasks).Ticketed where
  distinct := by
    rw [live_enqueueAll, List.map_append, map_ticket_idlesFrom]
    refine h.distinct.append (List.nodup_range') ?_
    intro ticket old new
    obtain ⟨i, member, rfl⟩ := List.mem_map.mp old
    exact Nat.not_le_of_lt (h.lt_next i member) (List.mem_range'_1.mp new).1
  lt_next i member := by
    rw [live_enqueueAll] at member
    rw [nextTicket_enqueueAll]
    rcases List.mem_append.mp member with old | new
    · exact Nat.lt_add_right _ (h.lt_next i old)
    · exact (task_mem_of_mem_idlesFrom _ _ new).2.2

theorem sameBut_enqueueAll (l : EventLoop) {tasks : List Task} {c : Nat}
    (own : ∀ t ∈ tasks, t.owner? = some c) : SameBut c l (l.enqueueAll tasks) where
  batch := rfl
  queue := by simp [filter_not_isOf_idlesFrom _ _ own]
  sublist := List.Sublist.refl _
  nextTicket_le := by simp
  ticketed h := h.enqueueAll tasks

/-- A clock whose work was all put anew has it at the end of the queue, and none in the batch. -/
theorem idlesOf_without_enqueueAll (l : EventLoop) {tasks : List Task} {c : Nat}
    (own : ∀ t ∈ tasks, t.owner? = some c) :
    ((l.without c).enqueueAll tasks).idlesOf c = idlesFrom tasks l.nextTicket := by
  simp [idlesOf_eq, EventLoop.without, filter_isOf_idlesFrom _ _ own]

theorem batch_without_isOf (l : EventLoop) (c : Nat) :
    (l.without c).batch.filter (·.isOf c) = [] := by
  simp [EventLoop.without]

theorem cancelAll_eq {l : EventLoop} (h : l.Ticketed) (tickets : List Ticket) :
    l.cancelAll tickets =
      { l with
        batch := l.batch.filter (·.ticket ∉ tickets)
        queue := l.queue.filter (·.ticket ∉ tickets) } := by
  have batch : (l.batch.map (·.ticket)).Nodup :=
    h.distinct.sublist ((List.sublist_append_left ..).map _)
  have queue : (l.queue.map (·.ticket)).Nodup :=
    h.distinct.sublist ((List.sublist_append_right ..).map _)
  clear h
  induction tickets generalizing l with
  | nil => simp [cancelAll]
  | cons ticket tickets ih =>
    have step : l.cancel ticket =
        { l with
          batch := l.batch.filter (·.ticket != ticket)
          queue := l.queue.filter (·.ticket != ticket) } := by
      simp [cancel, Keyed.eraseP_eq_filter batch, Keyed.eraseP_eq_filter queue]
    change (l.cancel ticket).cancelAll tickets = _
    rw [step, ih (batch.sublist (List.filter_sublist.map _))
      (queue.sublist (List.filter_sublist.map _))]
    simp only [List.filter_filter, List.mem_cons, not_or]
    congr 2 <;> funext i <;> rw [Bool.eq_iff_iff] <;> simp [and_comm]

theorem cancelAll_own {l : EventLoop} (h : l.Ticketed) (c : Nat) :
    l.cancelAll ((l.idlesOf c).map (·.ticket)) = l.without c := by
  have held : ∀ i ∈ l.live,
      (!i.isOf c) = decide (i.ticket ∉ (l.idlesOf c).map (·.ticket)) := by
    intro i member
    cases own : i.isOf c with
    | true =>
      have : i ∈ l.idlesOf c := List.mem_filter.mpr ⟨member, own⟩
      simpa using ⟨i, this, rfl⟩
    | false =>
      have : i.ticket ∉ (l.idlesOf c).map (·.ticket) := by
        intro found
        obtain ⟨j, hj, same⟩ := List.mem_map.mp found
        obtain ⟨live, ofClock⟩ := List.mem_filter.mp hj
        rw [Keyed.eq_of_mem h.distinct live member same] at ofClock
        simp [own] at ofClock
      simp [this]
  rw [cancelAll_eq h, EventLoop.without]
  congr 1
  · exact (List.filter_congr fun i hi => held i (List.mem_append_left _ hi)).symm
  · exact (List.filter_congr fun i hi => held i (List.mem_append_right _ hi)).symm

theorem sameBut_cancelAll {l : EventLoop} (h : l.Ticketed) {c : Nat} {tickets : List Ticket}
    (own : ∀ i ∈ l.live, i.ticket ∈ tickets → i.isOf c = true) :
    SameBut c l (l.cancelAll tickets) := by
  have kept (idles : List Idle) (live : ∀ i ∈ idles, i ∈ l.live) :
      (idles.filter (·.ticket ∉ tickets)).filter (!·.isOf c) = idles.filter (!·.isOf c) := by
    rw [List.filter_filter]
    apply List.filter_congr
    intro i member
    cases ofClock : i.isOf c with
    | true => simp
    | false =>
      have : i.ticket ∉ tickets := fun held => by
        simpa [ofClock] using own i (live i member) held
      simp [this]
  rw [cancelAll_eq h]
  refine ⟨kept _ fun i hi => List.mem_append_left _ hi,
    kept _ fun i hi => List.mem_append_right _ hi, List.filter_sublist, Nat.le_refl _, ?_⟩
  intro _
  have sublist : (l.batch.filter (·.ticket ∉ tickets) ++
      l.queue.filter (·.ticket ∉ tickets)).Sublist l.live :=
    List.filter_sublist.append List.filter_sublist
  exact ⟨h.distinct.sublist (sublist.map _), fun i member => h.lt_next i (sublist.subset member)⟩

theorem sameBut_cancelAll_of_subset {l : EventLoop} (h : l.Ticketed) {c : Nat}
    {tickets : List Ticket} (held : ∀ ticket ∈ tickets, ticket ∈ (l.idlesOf c).map (·.ticket)) :
    SameBut c l (l.cancelAll tickets) :=
  sameBut_cancelAll h fun i live member => by
    obtain ⟨j, own, same⟩ := List.mem_map.mp (held i.ticket member)
    obtain ⟨live', ofClock⟩ := List.mem_filter.mp own
    rwa [Keyed.eq_of_mem h.distinct live' live same] at ofClock

theorem idlesOf_cancelAll {l : EventLoop} (h : l.Ticketed) (tickets : List Ticket) (c : Nat) :
    (l.cancelAll tickets).idlesOf c = (l.idlesOf c).filter (·.ticket ∉ tickets) := by
  rw [cancelAll_eq h, idlesOf_eq, idlesOf_eq, List.filter_append]
  simp only [List.filter_filter, Bool.and_comm]

theorem cancelAll_enqueueAll {l : EventLoop} (h : l.Ticketed) (tasks : List Task)
    {tickets : List Ticket} (old : ∀ ticket ∈ tickets, ticket < l.nextTicket) :
    (l.enqueueAll tasks).cancelAll tickets = (l.cancelAll tickets).enqueueAll tasks := by
  have new : (idlesFrom tasks l.nextTicket).filter (·.ticket ∉ tickets) =
      idlesFrom tasks l.nextTicket :=
    List.filter_eq_self.mpr fun i member => by
      have fresh := (task_mem_of_mem_idlesFrom _ _ member).2.1
      simpa using fun held => Nat.not_le_of_lt (old _ held) fresh
  rw [cancelAll_eq (h.enqueueAll tasks), cancelAll_eq h, queue_enqueueAll, List.filter_append, new]
  rfl

theorem cancelAll_cancelAll (l : EventLoop) (tickets more : List Ticket) :
    (l.cancelAll tickets).cancelAll more = l.cancelAll (tickets ++ more) :=
  (List.foldl_append ..).symm

end EventLoop

end VirtualClock
