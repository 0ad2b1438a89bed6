import VirtualClock.Proofs.CommandLine.Outcome

/-!
How much patience a replay has with a step. The clock is pending through one dispatch for each
timer due and settled with the next; the replay looks before each dispatch it may make and not
after the last, so what the last one does goes unseen: with 1023 timers due it settles the clock,
and the replay says that the clock did not settle.
-/

namespace VirtualClock

namespace Replay

variable {r : Replay} {j : Nat} {w : World}

/-- A step that ends at a time that there is: how long the clock is pending, and what the replay
makes of it. -/
theorem Reaches.settling (reaches : Reaches r.timers (r.elapsed j) w)
    (known : j < r.advances.length) (near : r.elapsed (j + 1) < UInt64.size * 1000) :
    ∃ w', w.exec (.advance 0 (.ofMillis r.advances[j])) = (.done, w') ∧
      (∀ n, (w'.dispatchTimes n).anyPending = true ↔ n ≤ r.dueCount j) ∧
      Replay.advance w r.advances[j] =
        if r.dueCount j + 1 < settleLimit then .ok (w'.dispatchTimes (r.dueCount j + 1))
        else .error .unsettled := by
  rw [elapsed_succ known] at near
  obtain ⟨_, f, target, sum, _, plays, reached, ahead⟩ := reaches.divides near
  obtain ⟨w', f', called, plays', pending⟩ := plays.advances sum
  rw [dueCount, elapsed_succ known, ← length_filter_agenda]
  exact ⟨w', called, fun n => plays'.pending_dispatchTimes_iff pending reached ahead,
    plays'.advance_eq pending reached ahead called⟩

theorem reaches_of_played {w' : World} (start : Reaches r.timers 0 w)
    (known : j ≤ r.advances.length)
    (played : (r.advances.take j).foldlM Replay.advance w = .ok w') :
    Reaches r.timers (r.elapsed j) w' := by
  let first : Replay := { r with advances := r.advances.take j }
  have reaches : Reaches r.timers (first.elapsed first.advances.length) w' :=
    reaches_of_playFake (r := first) start played
  have same : first.elapsed first.advances.length = r.elapsed j := by
    simp [first, elapsed, Nat.min_eq_left known, List.take_take]
  rwa [same] at reaches

/-- A step of a replay on fake time. If its end is a time that there is, the clock is pending for
as many dispatches as timers are due in the step and settled from the next one on. With fewer than
1023 timers due the replay goes on from the world in which the clock has just settled. With more it
gives up, and the clock is indeed still pending after the dispatches made. With exactly 1023 it
gives up as well, although the last of these dispatches has settled the clock. A step whose end is
no time fails with an overflow. -/
theorem settles_or_gives_up (fake : r.mode = .fake) {w₀ : World} (started : r.start 0 = .ok w₀)
    (known : j < r.advances.length)
    (played : (r.advances.take j).foldlM Replay.advance w₀ = .ok w) :
    (r.elapsed (j + 1) < UInt64.size * 1000 →
      ∃ w', w.exec (.advance 0 (.ofMillis r.advances[j])) = (.done, w') ∧
        (∀ n, (w'.dispatchTimes n).anyPending = true ↔ n ≤ r.dueCount j) ∧
        (r.dueCount j < 1023 →
          Replay.advance w r.advances[j] = .ok (w'.dispatchTimes (r.dueCount j + 1))) ∧
        (r.dueCount j = 1023 → Replay.advance w r.advances[j] = .error .unsettled ∧
          (w'.dispatchTimes settleLimit).anyPending = false) ∧
        (1023 < r.dueCount j → Replay.advance w r.advances[j] = .error .unsettled ∧
          (w'.dispatchTimes settleLimit).anyPending = true)) ∧
    (UInt64.size * 1000 ≤ r.elapsed (j + 1) →
      Replay.advance w r.advances[j] = .error (.failed (.refused .timeOverflow))) := by
  obtain ⟨w₁, registry, f, started₁, arms⟩ := r.start_eq_ok fake
  cases started.symm.trans started₁
  have reaches := reaches_of_played arms.reaches (Nat.le_of_lt known) played
  constructor
  · intro near
    obtain ⟨w', called, pending, advanced⟩ := reaches.settling known near
    have limit : settleLimit = 1023 + 1 := rfl
    refine ⟨w', called, pending, fun few => ?_, fun last => ⟨?_, ?_⟩, fun many => ⟨?_, ?_⟩⟩
    · rw [advanced, if_pos (by omega)]
    · rw [advanced, if_neg (by omega)]
    · rw [← Bool.not_eq_true, pending]
      omega
    · rw [advanced, if_neg (by omega)]
    · rw [pending]
      exact many
  · intro far
    rw [elapsed_succ known] at far
    exact reaches.advance_overflow far

/-- Two timers due at once in the second step, with a third one to come. -/
theorem settles_or_gives_up_tie :
    let timers := [⟨"tick", 2⟩, ⟨"late", 9⟩, ⟨"tock", 2⟩]
    let r : Replay := { mode := .fake, timers, advances := [1, 4] }
    ∃ w₀ w w', r.start 0 = .ok w₀ ∧ Replay.advance w₀ 1 = .ok w ∧
      w.exec (.advance 0 (.ofMillis 4)) = (.done, w') ∧
      (∀ n, (w'.dispatchTimes n).anyPending = true ↔ n ≤ 2) ∧
      Replay.advance w 4 = .ok (w'.dispatchTimes 3) := by
  intro timers r
  obtain ⟨w₀, _, _, started, arms⟩ := r.start_eq_ok rfl
  obtain ⟨w, played, _⟩ := arms.reaches.steps (j := 1) (by decide) (by decide)
  obtain ⟨w', called, pending, goesOn, _⟩ :=
    (settles_or_gives_up rfl started (by decide) played).1 (by decide)
  exact ⟨w₀, w, w', started, (bind_pure _).symm.trans played, called, pending, goesOn (by decide)⟩

/-- 1023 timers due at once: the replay says that the clock did not settle after 1024 dispatches,
which it did. -/
theorem gives_up_though_settled :
    let r : Replay := { mode := .fake, timers := .replicate 1023 ⟨"x", 1⟩, advances := [1] }
    ∃ w w', r.start 0 = .ok w ∧ w.exec (.advance 0 (.ofMillis 1)) = (.done, w') ∧
      (w'.dispatchTimes 1024).anyPending = false ∧
      Replay.advance w 1 = .error .unsettled ∧ r.run = .error .unsettled ∧
      ReplayError.unsettled.message = "fake clock did not settle after 1024 dispatches" := by
  intro r
  obtain ⟨w, _, _, started, arms⟩ := r.start_eq_ok rfl
  have count : r.dueCount 0 = 1023 := List.countP_replicate.trans rfl
  obtain ⟨w', called, pending, advanced⟩ :=
    Reaches.settling (r := r) (j := 0) arms.reaches (Nat.succ_pos 0) (by decide)
  rw [count] at pending advanced
  have misfit : ¬r.Fits 0 := fun fits => absurd (count ▸ fits.few) (by decide)
  refine ⟨w, w', started, called, ?_, advanced,
    run_eq_error rfl (Nat.succ_pos 0) (fun _ before => absurd before (Nat.not_lt_zero _)) misfit,
    rfl⟩
  rw [← Bool.not_eq_true, pending]
  decide

end Replay

end VirtualClock
