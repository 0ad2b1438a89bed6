import VirtualClock.CommandLine
import VirtualClock.Proofs.Replay.Arming
import VirtualClock.Proofs.Replay.Steps

/-!
What the program makes of a command line that asks for fake time: a line for each timer due within
the steps, or nothing but the reason why the first step that does not fit cannot be carried out.
-/

namespace VirtualClock

namespace Replay

variable {r : Replay} {registry : Registry} {f : FakeTime} {w : World}

theorem Arms.reaches (arms : Arms r.timers registry f w) : Reaches r.timers 0 w := by
  have past : (agenda r.timers).filter (·.1.millis ≤ 0) = [] :=
    List.filter_eq_nil_iff.mpr fun a member => by
      simpa using Nat.ne_of_gt (mem_agenda.mp member).2
  have coming : (agenda r.timers).filter (0 < ·.1.millis) = agenda r.timers :=
    List.filter_eq_self.mpr fun a member => by simpa using (mem_agenda.mp member).2
  refine ⟨registry, f, past.symm ▸ coming.symm ▸ arms.plays, ?_⟩
  rw [arms.start, Duration.nanos_zero, Nat.zero_mul]

theorem Reaches.close {timers : List TimerSetting} {elapsed : Nat}
    (reaches : Reaches timers elapsed w) : ∃ w', Replay.close w = .ok w' := by
  obtain ⟨_, _, plays, _⟩ := reaches
  exact plays.close

theorem run_eq_ok (fake : r.mode = .fake) (fits : ∀ j < r.advances.length, r.Fits j) :
    r.run = .ok (((agenda r.timers).filter
      (·.1.millis ≤ r.elapsed r.advances.length)).map firing) := by
  obtain ⟨w, registry, f, started, arms⟩ := r.start_eq_ok fake
  obtain ⟨w', played, reaches⟩ := playFake_eq_ok arms.reaches fits
  obtain ⟨w'', closed⟩ := reaches.close
  obtain ⟨_, _, plays, _⟩ := reaches
  have playing : r.play w = .ok w' := by
    rw [play, fake]
    exact played
  have finished : finish w' = .ok (firings w') := by
    rw [finish, closed]
    rfl
  rw [← plays.firings, ← finished, run, started]
  change (r.play w >>= finish) = _
  rw [playing]
  rfl

/-- A replay with a step that does not fit fails for the first of them. -/
theorem run_eq_error (fake : r.mode = .fake) {j : Nat} (known : j < r.advances.length)
    (fits : ∀ i < j, r.Fits i) (ends : ¬r.Fits j) :
    r.run =
      .error (if r.elapsed (j + 1) < UInt64.size * 1000 then .unsettled
        else .failed (.refused .timeOverflow)) := by
  obtain ⟨w, registry, f, started, arms⟩ := r.start_eq_ok fake
  have playing := playFake_eq_error arms.reaches known fits ends
  rw [run, started]
  change (r.play w >>= finish) = _
  rw [play, fake]
  change (r.playFake w >>= finish) = _
  rw [playing]
  rfl

end Replay

namespace CommandLine

/-- Fake time from arguments to texts. If every step fits, the program exits with code 0 and prints
a line for each timer due by the end, ordered by delay and then by position, each with its delay as
the time and its name. Otherwise it exits with code 1 and prints only the error of the first step
that does not fit: an overflow if its end is no time any more, and else that the clock did not
settle. The teardown after the steps never fails. -/
theorem run_on_fake_time {args : List (List UInt8)} {env : Environment} {files : FileReader}
    {a : Arguments} {replay : Replay} (parsed : Arguments.parse args = .ok a)
    (resolved : a.replay env files = .ok replay) (fake : replay.mode = .fake) :
    ((∀ j < replay.advances.length, replay.Fits j) →
      run args env files =
        { code := 0
          stdout := String.join (((Replay.agenda replay.timers).filter
            (·.1.millis ≤ replay.elapsed replay.advances.length)).map fun t =>
              Firing.line ⟨t.1.due, t.1.name⟩)
          stderr := "" }) ∧
    ((¬∀ j < replay.advances.length, replay.Fits j) →
      ∃ j < replay.advances.length, (∀ i < j, replay.Fits i) ∧ ¬replay.Fits j ∧
        run args env files =
          { code := 1
            stdout := ""
            stderr :=
              if replay.elapsed (j + 1) < UInt64.size * 1000 then
                "Error: fake clock did not settle after 1024 dispatches\n"
              else "Error: fake time overflowed\n" }) ∧
    ∃ w, replay.start 0 = .ok w ∧
      ∀ w', replay.play w = .ok w' → ∃ w'', Replay.close w' = .ok w'' := by
  have ran : run args env files = .ofReplay replay.run := by
    simp only [run, parsed, resolved]
  refine ⟨?_, ?_, ?_⟩
  · intro fits
    rw [ran, Replay.run_eq_ok fake fits, Outcome.ofReplay, Outcome.report, List.map_map]
    rfl
  · intro misfit
    obtain ⟨j, known, fits, ends⟩ := Replay.exists_first_misfit misfit
    refine ⟨j, known, fits, ends, ?_⟩
    rw [ran, Replay.run_eq_error fake known fits ends]
    split <;> rfl
  · obtain ⟨w, registry, f, started, arms⟩ := replay.start_eq_ok fake
    refine ⟨w, started, fun w' played => ?_⟩
    rw [Replay.play, fake] at played
    exact (Replay.reaches_of_playFake arms.reaches played).close

/-- Two timers due at once keep their order; one due after the end and one that stays disarmed
print nothing. -/
theorem run_on_fake_time_tie :
    run (["--mode=fake", "--timer=late=9", "--timer=tick=2", "--timer=off=0", "--timer=tock=2",
      "--advance=1", "--advance=4"].map (·.toUTF8.data.toList)) {} (fun _ => .error .notFound) =
      { stdout := "2.000ms\ttick\n2.000ms\ttock\n" } := by
  let timers : List TimerSetting := [⟨"late", 9⟩, ⟨"tick", 2⟩, ⟨"off", 0⟩, ⟨"tock", 2⟩]
  let replay : Replay := { mode := .fake, timers, advances := [1, 4] }
  have parsed : Arguments.parse (["--mode=fake", "--timer=late=9", "--timer=tick=2",
      "--timer=off=0", "--timer=tock=2", "--advance=1", "--advance=4"].map
        (·.toUTF8.data.toList)) = .ok { mode := some .fake, timers, advances := [1, 4] } := rfl
  have resolved : Arguments.replay { mode := some .fake, timers, advances := [1, 4] } {}
      (fun _ => .error .notFound) = .ok replay := rfl
  have agenda : Replay.agenda timers = [(⟨"tick", 2⟩, 1), (⟨"tock", 2⟩, 3), (⟨"late", 9⟩, 0)] :=
    (Replay.eq_agenda (by decide) (by decide)).symm
  have fits : ∀ j < replay.advances.length, replay.Fits j := by decide
  rw [(run_on_fake_time parsed resolved rfl).1 fits]
  change Outcome.mk 0 (String.join (((Replay.agenda timers).filter _).map _)) "" = _
  rw [agenda]
  rfl

end CommandLine

end VirtualClock
