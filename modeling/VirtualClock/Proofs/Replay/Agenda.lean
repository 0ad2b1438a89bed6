import Mathlib.Data.List.Nodup
import Mathlib.Tactic.Common
import VirtualClock.Replay

/-!
What the timers of a replay amount to on fake time: the armed ones in the order in which they are
due, those due at the same time in the order in which they were given. One more timer is a new
entry behind all that are due no later.
-/

namespace VirtualClock

namespace TimerSetting

/-- Milliseconds until the timer is due; zero for a timer that stays disarmed. -/
def millis (t : TimerSetting) : Nat := t.delay.toInt.toNat

/-- When the timer is due, armed at time zero. -/
def due (t : TimerSetting) : Duration := .ofMillis (.ofNat t.millis)

variable {t u : TimerSetting}

theorem millis_lt (t : TimerSetting) : t.millis < 2147483648 := by
  have := t.delay.toInt_lt
  unfold millis
  omega

theorem millis_pos_iff : 0 < t.millis ↔ 0 < t.delay.toInt := by
  unfold millis
  omega

@[simp] theorem nanos_due (t : TimerSetting) : t.due.nanos = t.millis * nanosPerMilli := by
  have := t.millis_lt
  rw [due, Duration.nanos_ofMillis, UInt64.toNat_ofNat_of_lt' (Nat.lt_trans this (by decide))]

theorem due_le_due_iff : t.due ≤ u.due ↔ t.millis ≤ u.millis := by
  rw [Duration.le_def, nanos_due, nanos_due]
  unfold nanosPerMilli
  omega

theorem due_lt_due_iff : t.due < u.due ↔ t.millis < u.millis := by
  rw [Duration.lt_def, nanos_due, nanos_due]
  unfold nanosPerMilli
  omega

end TimerSetting

namespace Replay

/-- Of two timers with their positions, the first is due first, or due together with the other and
given no later. -/
def Leads (a b : TimerSetting × Nat) : Prop :=
  a.1.millis < b.1.millis ∨ a.1.millis = b.1.millis ∧ a.2 ≤ b.2

instance (a b : TimerSetting × Nat) : Decidable (Leads a b) := inferInstanceAs (Decidable (_ ∨ _))

/-- The timers that will be armed, with their positions, in the order in which they are due. -/
def agenda (timers : List TimerSetting) : List (TimerSetting × Nat) :=
  (timers.zipIdx.filter (0 < ·.1.millis)).mergeSort fun a b => Leads a b

variable {timers : List TimerSetting} {t : TimerSetting} {a b c : TimerSetting × Nat}

theorem Leads.trans (h : Leads a b) (h' : Leads b c) : Leads a c := by
  unfold Leads at *
  omega

theorem Leads.total (a b : TimerSetting × Nat) : Leads a b ∨ Leads b a := by
  unfold Leads
  omega

@[simp] theorem agenda_nil : agenda [] = [] := by simp [agenda]

theorem agenda_perm (timers : List TimerSetting) :
    (agenda timers).Perm (timers.zipIdx.filter (0 < ·.1.millis)) :=
  List.mergeSort_perm ..

theorem pairwise_agenda (timers : List TimerSetting) : (agenda timers).Pairwise Leads := by
  refine List.Pairwise.imp (of_decide_eq_true ·) (List.pairwise_mergeSort ?_ ?_ _)
  · intro a b c h h'
    exact decide_eq_true ((of_decide_eq_true h).trans (of_decide_eq_true h'))
  · intro a b
    simpa using Leads.total a b

theorem mem_agenda : a ∈ agenda timers ↔ timers[a.2]? = some a.1 ∧ 0 < a.1.millis := by
  rw [(agenda_perm timers).mem_iff, List.mem_filter, List.mem_zipIdx_iff_getElem?]
  simp

theorem lt_length_of_mem_agenda (member : a ∈ agenda timers) : a.2 < timers.length :=
  (List.getElem?_eq_some_iff.mp (mem_agenda.mp member).1).1

theorem eq_agenda {order : List (TimerSetting × Nat)} (sorted : order.Pairwise Leads)
    (perm : order.Perm (timers.zipIdx.filter (0 < ·.1.millis))) : order = agenda timers := by
  have perm' := perm.trans (agenda_perm timers).symm
  refine perm'.eq_of_pairwise ?_ sorted (pairwise_agenda timers)
  intro a b ha hb before after
  have same : a.2 = b.2 := by
    unfold Leads at before after
    omega
  have left := (mem_agenda.mp (perm'.mem_iff.mp ha)).1
  have right := (mem_agenda.mp hb).1
  rw [same, right] at left
  exact Prod.ext (Option.some.inj left).symm same

theorem agenda_concat_of_zero (disarmed : t.millis = 0) :
    agenda (timers ++ [t]) = agenda timers := by
  refine (eq_agenda (pairwise_agenda timers) ?_).symm
  rw [List.zipIdx_append, List.filter_append]
  simpa [disarmed] using agenda_perm timers

/-- One more timer goes behind those due no later. -/
theorem agenda_concat_of_pos (armed : 0 < t.millis) :
    agenda (timers ++ [t]) =
      (agenda timers).filter (·.1.millis ≤ t.millis) ++
        (t, timers.length) :: (agenda timers).filter (t.millis < ·.1.millis) := by
  refine (eq_agenda ?_ ?_).symm
  · rw [List.pairwise_append, List.pairwise_cons]
    refine ⟨(pairwise_agenda timers).filter _, ⟨?_, (pairwise_agenda timers).filter _⟩, ?_⟩
    · intro b later
      exact .inl (of_decide_eq_true (List.mem_filter.mp later).2)
    · intro a early b late
      obtain ⟨member, le⟩ := List.mem_filter.mp early
      have le : a.1.millis ≤ t.millis := of_decide_eq_true le
      have given := lt_length_of_mem_agenda member
      rcases List.mem_cons.mp late with rfl | later
      · unfold Leads
        simp only
        omega
      · have lt : t.millis < b.1.millis := of_decide_eq_true (List.mem_filter.mp later).2
        exact .inl (Nat.lt_of_le_of_lt le lt)
  · have parts := List.filter_append_perm (fun a : TimerSetting × Nat => a.1.millis ≤ t.millis)
      (agenda timers)
    simp only [← decide_not, Nat.not_le] at parts
    rw [List.zipIdx_append, List.filter_append]
    refine List.perm_middle.trans ((parts.trans (agenda_perm timers)).cons _ |>.trans ?_)
    simpa [armed] using (List.perm_append_singleton ..).symm

theorem length_filter_agenda (timers : List TimerSetting) (start finish : Nat) :
    ((agenda timers).filter fun a => start < a.1.millis ∧ a.1.millis ≤ finish).length =
      timers.countP fun t => start < t.millis ∧ t.millis ≤ finish := by
  rw [← List.countP_eq_length_filter, (agenda_perm timers).countP_eq, List.countP_filter]
  conv_rhs => rw [← List.zipIdx_map_fst 0 timers, List.countP_map]
  apply List.countP_congr
  intro a _
  simp
  omega

end Replay

end VirtualClock
