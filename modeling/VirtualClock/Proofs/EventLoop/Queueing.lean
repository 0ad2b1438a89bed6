import VirtualClock.Proofs.EventLoop.Tickets

/-!
Work on the loop waits in line. Whatever is queued goes behind all that is there, under a later
ticket, so live work stands in the order of its tickets; and a clock that puts its own work anew has
all of it at the end of the queue.
-/

namespace VirtualClock.EventLoop

/-- Live work stands in the order of its tickets. -/
def InLine (l : EventLoop) : Prop := l.live.Pairwise fun i j => i.ticket < j.ticket

/-- Of the work on loop `l` some may be gone, and all new work stands behind it. -/
structure Queues (l l' : EventLoop) : Prop where
  nextTicket_le : l.nextTicket ≤ l'.nextTicket
  live : ∃ old new, l'.live = old ++ new ∧ old.Sublist l.live ∧
    (new.Pairwise fun i j => i.ticket < j.ticket) ∧
    ∀ i ∈ new, l.nextTicket ≤ i.ticket ∧ i.ticket < l'.nextTicket

/-- Of the work on loop `l'` none of clock `c` is in the batch, and all of it stands at the end of
the queue, put there after loop `l`. -/
structure Requeued (c : Nat) (l l' : EventLoop) : Prop where
  batch : ∀ i ∈ l'.batch, i.isOf c = false
  queue : ∃ front, l'.queue = front ++ l'.idlesOf c ∧ ∀ i ∈ front, i.isOf c = false
  fresh : ∀ i ∈ l'.idlesOf c, l.nextTicket ≤ i.ticket

variable {c : Nat} {l l' l'' : EventLoop} {i : Idle} {rest : List Idle}

theorem InLine.le_of_batch (inLine : l.InLine) (batch : l.batch = i :: rest) {j : Idle}
    (member : j ∈ l.live) : i.ticket ≤ j.ticket := by
  unfold InLine live at inLine
  unfold live at member
  rw [batch, List.cons_append] at inLine member
  rcases List.mem_cons.mp member with rfl | later
  · exact Nat.le_refl _
  · exact Nat.le_of_lt ((List.pairwise_cons.mp inLine).1 j later)

namespace Queues

theorem of_sublist (live : l'.live.Sublist l.live) (next : l'.nextTicket = l.nextTicket) :
    Queues l l' :=
  ⟨Nat.le_of_eq next.symm, l'.live, [], (List.append_nil _).symm, live, .nil, by simp⟩

theorem of_eq (batch : l'.batch = l.batch) (queue : l'.queue = l.queue)
    (next : l'.nextTicket = l.nextTicket) : Queues l l' := by
  refine .of_sublist ?_ next
  rw [EventLoop.live, EventLoop.live, batch, queue]

theorem refl (l : EventLoop) : Queues l l := .of_eq rfl rfl rfl

theorem trans (h : Queues l l') (h' : Queues l' l'') : Queues l l'' := by
  obtain ⟨old, new, live, sublist, ascending, fresh⟩ := h.live
  obtain ⟨old', new', live', sublist', ascending', fresh'⟩ := h'.live
  rw [live] at sublist'
  obtain ⟨kept, left, rfl, keptSublist, leftSublist⟩ := List.sublist_append_iff.mp sublist'
  refine ⟨Nat.le_trans h.nextTicket_le h'.nextTicket_le, kept, left ++ new', ?_,
    keptSublist.trans sublist, ?_, ?_⟩
  · rw [live', List.append_assoc]
  · refine List.pairwise_append.mpr ⟨ascending.sublist leftSublist, ascending', ?_⟩
    intro i member j later
    exact Nat.lt_of_lt_of_le (fresh i (leftSublist.subset member)).2 (fresh' j later).1
  · intro i member
    rcases List.mem_append.mp member with first | second
    · obtain ⟨lower, upper⟩ := fresh i (leftSublist.subset first)
      exact ⟨lower, Nat.lt_of_lt_of_le upper h'.nextTicket_le⟩
    · obtain ⟨lower, upper⟩ := fresh' i second
      exact ⟨Nat.le_trans h.nextTicket_le lower, upper⟩

theorem mem_live (h : Queues l l') (member : i ∈ l'.live) :
    i ∈ l.live ∨ l.nextTicket ≤ i.ticket := by
  obtain ⟨old, new, live, sublist, _, fresh⟩ := h.live
  rw [live] at member
  rcases List.mem_append.mp member with kept | later
  · exact .inl (sublist.subset kept)
  · exact .inr (fresh i later).1

theorem inLine (h : Queues l l') (ticketed : l.Ticketed) (inLine : l.InLine) : l'.InLine := by
  obtain ⟨old, new, live, sublist, ascending, fresh⟩ := h.live
  unfold InLine
  rw [live]
  refine List.pairwise_append.mpr ⟨List.Pairwise.sublist sublist inLine, ascending, ?_⟩
  intro i member j later
  exact Nat.lt_of_lt_of_le (ticketed.lt_next i (sublist.subset member)) (fresh j later).1

end Queues

theorem queues_enqueueAll (l : EventLoop) (tasks : List Task) :
    Queues l (l.enqueueAll tasks) := by
  refine ⟨Nat.le_add_right _ _, l.live, idlesFrom tasks l.nextTicket, live_enqueueAll l tasks,
    List.Sublist.refl _, ?_, ?_⟩
  · have ascending : (List.range' l.nextTicket tasks.length).Pairwise (· < ·) :=
      List.pairwise_lt_range'
    rw [← map_ticket_idlesFrom] at ascending
    exact List.pairwise_map.mp ascending
  · intro i member
    exact (task_mem_of_mem_idlesFrom _ _ member).2

theorem queues_cancelAll (l : EventLoop) (tickets : List Ticket) :
    Queues l (l.cancelAll tickets) := by
  induction tickets generalizing l with
  | nil => exact .refl l
  | cons ticket tickets ih =>
    have cancelled : Queues l (l.cancel ticket) :=
      .of_sublist (List.eraseP_sublist.append List.eraseP_sublist) rfl
    exact cancelled.trans (ih (l.cancel ticket))

theorem queues_batch (batch : l.batch = i :: rest) (same : l'.batch = rest)
    (queue : l'.queue = l.queue) (next : l'.nextTicket = l.nextTicket) : Queues l l' := by
  refine .of_sublist ?_ next
  rw [live, live, batch, same, queue, List.cons_append]
  exact List.sublist_cons_self _ _

theorem requeued_of_idle (idle : l'.idlesOf c = []) : Requeued c l l' := by
  have none : ∀ i ∈ l'.live, i.isOf c = false := by
    intro i member
    simpa using List.filter_eq_nil_iff.mp idle i member
  refine ⟨fun i member => none i (List.mem_append_left _ member), ⟨l'.queue, ?_, ?_⟩, ?_⟩
  · rw [idle, List.append_nil]
  · exact fun i member => none i (List.mem_append_right _ member)
  · simp [idle]

/-- A clock that takes all its work off the loop and puts its tasks anew. -/
theorem requeued_without_enqueueAll {tasks : List Task} (later : l.nextTicket ≤ l'.nextTicket)
    (own : ∀ t ∈ tasks, t.owner? = some c) :
    Requeued c l ((l'.without c).enqueueAll tasks) := by
  have idles := idlesOf_without_enqueueAll l' own
  refine ⟨?_, ⟨l'.queue.filter (!·.isOf c), ?_, ?_⟩, ?_⟩
  · intro i member
    simpa using (List.mem_filter.mp member).2
  · rw [idles, queue_enqueueAll]
    rfl
  · intro i member
    simpa using (List.mem_filter.mp member).2
  · intro i member
    rw [idles] at member
    exact Nat.le_trans later (task_mem_of_mem_idlesFrom _ _ member).2.1

end VirtualClock.EventLoop
