import VirtualClock.Proofs.Replay.Playing

/-!
The steps of a replay on fake time. A step that fits leaves everything due by its end fired and
everything else armed; the first step that does not fit ends the replay, with an overflow if its end
is no time any more, and otherwise because it does not settle.
-/

namespace VirtualClock

namespace Replay

section split

variable {order : List (TimerSetting × Nat)} {start finish : Nat}

theorem filter_append_filter (sorted : order.Pairwise Leads) (n : Nat) :
    order.filter (·.1.millis ≤ n) ++ order.filter (n < ·.1.millis) = order := by
  have first : order.Pairwise fun a b =>
      decide (b.1.millis ≤ n) = true → decide (a.1.millis ≤ n) = true := by
    refine sorted.imp fun {a b} leads le => ?_
    have le : b.1.millis ≤ n := of_decide_eq_true le
    unfold Leads at leads
    exact decide_eq_true (by omega)
  have late : order.filter (n < ·.1.millis) = order.filter fun a => !decide (a.1.millis ≤ n) :=
    List.filter_congr fun a _ => by simp [← decide_not]
  rw [late, ← Keyed.takeWhile_eq_filter first, ← Keyed.dropWhile_eq_filter first,
    List.takeWhile_append_dropWhile]

variable (timers : List TimerSetting) (le : start ≤ finish)

include le in
theorem agenda_after :
    (agenda timers).filter (start < ·.1.millis) =
      (agenda timers).filter (fun a => start < a.1.millis ∧ a.1.millis ≤ finish) ++
        (agenda timers).filter (finish < ·.1.millis) := by
  have cut := filter_append_filter ((pairwise_agenda timers).filter (start < ·.1.millis)) finish
  rw [List.filter_filter, List.filter_filter] at cut
  rw [← cut]
  congr 1
  · exact List.filter_congr fun a _ => by simp [and_comm]
  · refine List.filter_congr fun a _ => ?_
    simp only [← Bool.decide_and]
    exact decide_eq_decide.mpr ⟨fun both => both.1, fun late => ⟨late, Nat.lt_of_le_of_lt le late⟩⟩

include le in
theorem agenda_upTo :
    (agenda timers).filter (·.1.millis ≤ start) ++
        (agenda timers).filter (fun a => start < a.1.millis ∧ a.1.millis ≤ finish) =
      (agenda timers).filter (·.1.millis ≤ finish) := by
  have cut := filter_append_filter ((pairwise_agenda timers).filter (·.1.millis ≤ finish)) start
  rw [List.filter_filter, List.filter_filter] at cut
  rw [← cut]
  congr 1
  · refine List.filter_congr fun a _ => ?_
    simp only [← Bool.decide_and]
    exact decide_eq_decide.mpr ⟨fun early => ⟨early, Nat.le_trans early le⟩, fun both => both.1⟩
  · exact List.filter_congr fun a _ => by simp

end split

/-- After `elapsed` milliseconds of fake time everything due until then has fired, and everything
else is armed. -/
def Reaches (timers : List TimerSetting) (elapsed : Nat) (w : World) : Prop :=
  ∃ r f, Plays timers ((agenda timers).filter (·.1.millis ≤ elapsed))
    ((agenda timers).filter (elapsed < ·.1.millis)) r f w ∧ f.now.nanos = elapsed * nanosPerMilli

section step

variable {timers : List TimerSetting} {elapsed : Nat} {w : World} {step : UInt64}

private theorem millis_lt_iff {n : Nat} :
    n < UInt64.size * 1000 ↔ n * nanosPerMilli < Duration.limit := by
  rw [Duration.limit_eq, UInt64.size]
  unfold nanosPerMilli
  omega

private theorem add?_ofMillis {now target : Duration} (at_ : now.nanos = elapsed * nanosPerMilli)
    (there : target.nanos = (elapsed + step.toNat) * nanosPerMilli) :
    now.add? (.ofMillis step) = some target := by
  rw [Duration.add?_eq_some_iff, there, at_, Duration.nanos_ofMillis, Nat.add_mul]

/-- A step divides what is still to come into what it reaches and what it does not. -/
theorem Reaches.divides (reaches : Reaches timers elapsed w)
    (near : elapsed + step.toNat < UInt64.size * 1000) :
    ∃ r f target, f.now.add? (.ofMillis step) = some target ∧
      target.nanos = (elapsed + step.toNat) * nanosPerMilli ∧
      Plays timers ((agenda timers).filter (·.1.millis ≤ elapsed))
        ((agenda timers).filter (fun a =>
          elapsed < a.1.millis ∧ a.1.millis ≤ elapsed + step.toNat) ++
            (agenda timers).filter (elapsed + step.toNat < ·.1.millis)) r f w ∧
      (∀ a ∈ (agenda timers).filter fun a =>
        elapsed < a.1.millis ∧ a.1.millis ≤ elapsed + step.toNat, a.1.due ≤ target) ∧
      ∀ a ∈ (agenda timers).filter (elapsed + step.toNat < ·.1.millis), target < a.1.due := by
  obtain ⟨r, f, plays, now⟩ := reaches
  let target : Duration := ⟨(elapsed + step.toNat) * nanosPerMilli, millis_lt_iff.mp near⟩
  rw [agenda_after timers (Nat.le_add_right elapsed step.toNat)] at plays
  refine ⟨r, f, target, add?_ofMillis now rfl, rfl, plays, ?_, ?_⟩
  · intro a member
    obtain ⟨_, upTo⟩ := of_decide_eq_true (List.mem_filter.mp member).2
    rw [Duration.le_def, a.1.nanos_due]
    exact Nat.mul_le_mul_right _ upTo
  · intro a member
    have past : elapsed + step.toNat < a.1.millis := of_decide_eq_true (List.mem_filter.mp member).2
    rw [Duration.lt_def, a.1.nanos_due]
    exact Nat.mul_lt_mul_of_pos_right past (by decide)

theorem Reaches.advance (reaches : Reaches timers elapsed w)
    (near : elapsed + step.toNat < UInt64.size * 1000) :
    (timers.countP (fun t => elapsed < t.millis ∧ t.millis ≤ elapsed + step.toNat) ≤ 1022 →
      ∃ w', Replay.advance w step = .ok w' ∧ Reaches timers (elapsed + step.toNat) w') ∧
    (1022 < timers.countP (fun t => elapsed < t.millis ∧ t.millis ≤ elapsed + step.toNat) →
      Replay.advance w step = .error .unsettled) := by
  obtain ⟨r, f, target, sum, there, plays, reached, ahead⟩ := reaches.divides near
  rw [← length_filter_agenda]
  constructor
  · intro few
    obtain ⟨w', r', f', advanced, plays', now'⟩ :=
      plays.advance sum reached ahead (Nat.lt_succ_of_le (Nat.succ_le_succ few))
    rw [agenda_upTo timers (Nat.le_add_right elapsed step.toNat)] at plays'
    exact ⟨w', advanced, r', f', plays', now' ▸ there⟩
  · intro many
    exact plays.advance_unsettled sum reached ahead (Nat.succ_le_succ many)

theorem Reaches.advance_overflow (reaches : Reaches timers elapsed w)
    (far : UInt64.size * 1000 ≤ elapsed + step.toNat) :
    Replay.advance w step = .error (.failed (.refused .timeOverflow)) := by
  obtain ⟨r, f, plays, now⟩ := reaches
  refine plays.advance_overflow (Duration.add?_eq_none_iff.mpr ?_)
  rw [now, Duration.nanos_ofMillis, ← Nat.add_mul]
  exact Nat.le_of_not_lt fun near => Nat.not_lt_of_le far (millis_lt_iff.mpr near)

end step

variable {r : Replay} {w : World} {j : Nat}

/-- Milliseconds of fake time once the first `j` steps are through. -/
def elapsed (r : Replay) (j : Nat) : Nat :=
  (r.advances.take j).foldl (fun millis step => millis + step.toNat) 0

/-- How many timers come to be due in the step after the first `j`. -/
def dueCount (r : Replay) (j : Nat) : Nat :=
  r.timers.countP fun t => r.elapsed j < t.millis ∧ t.millis ≤ r.elapsed (j + 1)

/-- The step after the first `j` ends at a time that there is, with no more timers due than it can
dispatch. -/
structure Fits (r : Replay) (j : Nat) : Prop where
  near : r.elapsed (j + 1) < UInt64.size * 1000
  few : r.dueCount j ≤ 1022

theorem fits_iff :
    r.Fits j ↔ r.elapsed (j + 1) < UInt64.size * 1000 ∧ r.dueCount j ≤ 1022 :=
  ⟨fun fits => ⟨fits.near, fits.few⟩, fun ⟨near, few⟩ => ⟨near, few⟩⟩

instance : Decidable (r.Fits j) := decidable_of_iff _ fits_iff.symm

theorem exists_first_misfit {n : Nat} (misfit : ¬∀ j < n, r.Fits j) :
    ∃ j < n, (∀ i < j, r.Fits i) ∧ ¬r.Fits j := by
  induction n with
  | zero => exact absurd (fun _ => nofun) misfit
  | succ n ih =>
    by_cases before : ∀ j < n, r.Fits j
    · refine ⟨n, Nat.lt_succ_self n, before, fun last => misfit fun j known => ?_⟩
      rcases Nat.lt_succ_iff_lt_or_eq.mp known with earlier | rfl
      · exact before j earlier
      · exact last
    · obtain ⟨j, known, rest⟩ := ih before
      exact ⟨j, Nat.lt_succ_of_lt known, rest⟩

theorem elapsed_succ (known : j < r.advances.length) :
    r.elapsed (j + 1) = r.elapsed j + r.advances[j].toNat := by
  rw [elapsed, ← List.take_append_getElem known, List.foldl_append]
  rfl

theorem Reaches.steps (start : Reaches r.timers 0 w) (known : j ≤ r.advances.length)
    (fits : ∀ i < j, r.Fits i) :
    ∃ w', (r.advances.take j).foldlM Replay.advance w = .ok w' ∧
      Reaches r.timers (r.elapsed j) w' := by
  induction j with
  | zero => exact ⟨w, rfl, start⟩
  | succ j ih =>
    obtain ⟨w', played, reaches⟩ :=
      ih (Nat.le_of_succ_le known) fun i earlier => fits i (Nat.lt_succ_of_lt earlier)
    obtain ⟨near, few⟩ := fits j (Nat.lt_succ_self j)
    rw [dueCount, elapsed_succ known] at few
    rw [elapsed_succ known] at near ⊢
    obtain ⟨w'', advanced, reaches'⟩ := (reaches.advance near).1 few
    refine ⟨w'', ?_, reaches'⟩
    rw [← List.take_append_getElem known, List.foldlM_append, played]
    exact (bind_pure _).trans advanced

theorem playFake_eq_ok (start : Reaches r.timers 0 w) (fits : ∀ j < r.advances.length, r.Fits j) :
    ∃ w', r.playFake w = .ok w' ∧ Reaches r.timers (r.elapsed r.advances.length) w' := by
  have all := start.steps (Nat.le_refl _) fits
  rwa [List.take_length] at all

theorem playFake_eq_error (start : Reaches r.timers 0 w) (known : j < r.advances.length)
    (fits : ∀ i < j, r.Fits i) (ends : ¬r.Fits j) :
    r.playFake w =
      .error (if r.elapsed (j + 1) < UInt64.size * 1000 then .unsettled
        else .failed (.refused .timeOverflow)) := by
  obtain ⟨w', played, reaches⟩ := start.steps (Nat.le_of_lt known) fits
  have failed : Replay.advance w' r.advances[j] =
      .error (if r.elapsed (j + 1) < UInt64.size * 1000 then .unsettled
        else .failed (.refused .timeOverflow)) := by
    split
    · next near =>
      have many : 1022 < r.dueCount j := Nat.lt_of_not_le fun few => ends ⟨near, few⟩
      rw [dueCount, elapsed_succ known] at many
      exact (reaches.advance (elapsed_succ known ▸ near)).2 many
    · next far =>
      exact reaches.advance_overflow (elapsed_succ known ▸ Nat.le_of_not_lt far)
  have split : r.advances = r.advances.take j ++ r.advances[j] :: r.advances.drop (j + 1) := by
    rw [← List.drop_eq_getElem_cons known, List.take_append_drop]
  rw [playFake, split, List.foldlM_append, played]
  change (r.advances[j] :: _).foldlM Replay.advance w' = _
  rw [List.foldlM_cons, failed]
  rfl

theorem reaches_of_playFake {w' : World} (start : Reaches r.timers 0 w)
    (played : r.playFake w = .ok w') : Reaches r.timers (r.elapsed r.advances.length) w' := by
  by_cases fits : ∀ j < r.advances.length, r.Fits j
  · obtain ⟨w'', played', reaches⟩ := playFake_eq_ok start fits
    cases played.symm.trans played'
    exact reaches
  · obtain ⟨j, known, before, ends⟩ := exists_first_misfit fits
    cases played.symm.trans (playFake_eq_error start known before ends)

end Replay

end VirtualClock
