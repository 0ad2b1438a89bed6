import VirtualClock.CommandLine
import VirtualClock.Proofs.Config.Sources

/-!
Which mode a replay runs in, told from the command line, the variables and the files. A
configuration that was asked for must be there and make sense, whatever else names a mode; the
variable and the default place only help where nothing was asked for.
-/

namespace VirtualClock

open Config

def Begins (start message : String) : Prop := start.toList <+: message.toList

instance (start message : String) : Decidable (Begins start message) :=
  inferInstanceAs (Decidable (start.toList <+: message.toList))

theorem Begins.append {start s : String} (begins : Begins start s) (t : String) :
    Begins start (s ++ t) := by
  rw [Begins, String.toList_append]
  exact List.prefix_append_of_prefix begins

theorem ConfigError.begins (why : ConfigError) :
    Begins "failed" why.message ∨ Begins "invalid" why.message := by
  cases why with
  | unreadable path why =>
    exact .inl (.append (.append (.append (by decide) _) _) _)
  | invalid path fault =>
    exact .inr (.append (.append (by decide) _) _)

theorem Failure.begins (why : Failure) :
    ∃ start ∈ ["clock", "cannot", "fake", "nanosecond", "timer"], Begins start why.message := by
  cases why with
  | refused why =>
    cases why with
    | unsupportedClockId id => exact ⟨"clock", by decide, .append (.append (by decide) _) _⟩
    | realTimeAdvance => exact ⟨"cannot", by decide, by decide⟩
    | noEventLoop => exact ⟨"clock", by decide, by decide⟩
    | timeOverflow => exact ⟨"fake", by decide, by decide⟩
    | invalidNanoseconds n => exact ⟨"nanosecond", by decide, .append (by decide) _⟩
  | breach what =>
    cases what with
    | destroyedWithTimers n | destroyedWithFakeTimers n =>
      exact ⟨"clock", by decide, .append (.append (by decide) _) _⟩
    | unknownToLoop h | unknownToClock h | updatedWithoutLoop h | removedWithoutLoop h =>
      exact ⟨"timer", by decide, .append (.append (by decide) _) _⟩

theorem ReplayError.begins (why : ReplayError) :
    ∃ start ∈ ["clock", "cannot", "fake", "nanosecond", "timer"], Begins start why.message := by
  cases why with
  | failed why => exact why.begins
  | unsettled => exact ⟨"fake", by decide, .append (.append (by decide) _) _⟩

/-- A refused configuration is told apart from a failed replay by what is printed. -/
theorem ConfigError.message_ne (why : ConfigError) (why' : ReplayError) :
    why.message ≠ why'.message := by
  intro same
  have apart : ∀ start ∈ ["failed", "invalid"],
      ∀ start' ∈ ["clock", "cannot", "fake", "nanosecond", "timer"],
        ¬(start.toList <+: start'.toList ∨ start'.toList <+: start.toList) := by decide
  have begins : ∃ start ∈ ["failed", "invalid"], Begins start why.message := by
    rcases why.begins with begins | begins
    · exact ⟨"failed", by decide, begins⟩
    · exact ⟨"invalid", by decide, begins⟩
  obtain ⟨start, known, begins⟩ := begins
  obtain ⟨start', known', begins'⟩ := why'.begins
  rw [← same] at begins'
  exact apart start known start' known' (List.prefix_or_prefix_of_prefix begins begins')

namespace CommandLine

/-- The replay that the arguments ask for, where the configuration says `configured`. -/
def Arguments.asked (a : Arguments) (configured : Mode) : Replay where
  mode := a.mode.getD configured
  timers := a.timers
  advances := a.advances

theorem Outcome.failure_ne_ofReplay (why : ConfigError)
    (result : Except ReplayError (List Firing)) : failure why.message ≠ ofReplay result := by
  intro same
  cases result with
  | ok firings =>
    have codes : (1 : UInt32) = 0 := congrArg Outcome.code same
    exact absurd codes (by decide)
  | error why' =>
    have texts : "Error: " ++ why.message ++ "\n" = "Error: " ++ why'.message ++ "\n" :=
      congrArg Outcome.stderr same
    exact why.message_ne why' (by simpa [← String.toList_inj] using texts)

variable {args : List (List UInt8)} {env : Environment} {files : FileReader} {a : Arguments}

theorem run_of_refused (parsed : Arguments.parse args = .ok a) {why : ConfigError}
    (refused : a.configuration env files = .error why) :
    run args env files = .failure why.message := by
  have resolved : a.replay env files = .error why := by
    rw [Arguments.replay, refused]
    rfl
  simp only [run, parsed, resolved]

theorem replay_of_configured {config : Config}
    (configured : a.configuration env files = .ok config) :
    a.replay env files = .ok (a.asked config.mode) := by
  rw [Arguments.replay, configured]
  rfl

theorem run_of_configured (parsed : Arguments.parse args = .ok a) {config : Config}
    (configured : a.configuration env files = .ok config) :
    run args env files = .ofReplay (a.asked config.mode).run := by
  simp only [run, parsed, replay_of_configured configured]

theorem exists_failure_iff (parsed : Arguments.parse args = .ok a) :
    (∃ why : ConfigError, run args env files = .failure why.message) ↔
      ∃ why, a.configuration env files = .error why := by
  cases configured : a.configuration env files with
  | error why => exact iff_of_true ⟨why, run_of_refused parsed configured⟩ ⟨why, rfl⟩
  | ok config =>
    refine iff_of_false ?_ ?_
    · rintro ⟨why, stopped⟩
      have played := run_of_configured parsed configured
      exact Outcome.failure_ne_ofReplay why _ (stopped.symm.trans played)
    · rintro ⟨why, refused⟩
      cases refused

theorem configuration_of_some {path : Path} (asked : a.config = some path) :
    a.configuration env files = read files path := by
  rw [Arguments.configuration, asked]

theorem configuration_of_none (unasked : a.config = none) :
    a.configuration env files = .ok (load files env) := by
  rw [Arguments.configuration, unasked]

/-- Which mode is used. With a file asked for, the program stops with that file's error just if the
file cannot be read strictly, also where the arguments give a mode, and whatever the variables hold;
else the file gives the mode. With none asked for, nothing about the configuration is an error, and
the mode is that of the first source that tells one, or real; to look first whether the file at the
default place is there would make no difference. A mode in the arguments goes before either. -/
theorem mode_resolution (parsed : Arguments.parse args = .ok a) :
    (∀ path, a.config = some path →
      (∃! result, Strict files path result) ∧
      (∀ why, Strict files path (.error why) → run args env files = .failure why.message) ∧
      (∀ config, Strict files path (.ok config) →
        a.replay env files = .ok (a.asked config.mode) ∧
          run args env files = .ofReplay (a.asked config.mode).run) ∧
      ((∃ why : ConfigError, run args env files = .failure why.message) ↔
        ∃ why, Strict files path (.error why)) ∧
      ∀ env', run args env' files = run args env files) ∧
    (a.config = none →
      (∃! mode, Lenient files env mode) ∧
      (∀ mode, Lenient files env mode →
        a.replay env files = .ok (a.asked mode) ∧
          run args env files = .ofReplay (a.asked mode).run) ∧
      (∀ why : ConfigError, run args env files ≠ .failure why.message) ∧
      ∀ present : Path → Bool, (∀ path bytes, files path = .ok bytes → present path) →
        run args env (files.among present) = run args env files) := by
  constructor
  · intro path asked
    have configured {result : Except ConfigError Config} {env : Environment}
        (strict : Strict files path result) : a.configuration env files = result :=
      (configuration_of_some asked).trans strict.read_eq
    refine ⟨⟨read files path, strict_read files path, ?_⟩, ?_, ?_, ?_, ?_⟩
    · exact fun result strict => strict.read_eq.symm
    · exact fun why strict => run_of_refused parsed (configured strict)
    · intro config strict
      exact ⟨replay_of_configured (configured strict), run_of_configured parsed (configured strict)⟩
    · rw [exists_failure_iff parsed, configuration_of_some asked]
      exact exists_congr fun why => read_eq_iff
    · intro env'
      have same : a.configuration env' files = a.configuration env files := by
        rw [configuration_of_some asked, configuration_of_some asked]
      simp only [run, parsed, Arguments.replay, same]
  · intro unasked
    have configured : a.configuration env files = .ok (load files env) :=
      configuration_of_none unasked
    refine ⟨⟨(load files env).mode, lenient_load files env, ?_⟩, ?_, ?_, ?_⟩
    · exact fun mode lenient => lenient.load_mode.symm
    · intro mode lenient
      rw [← lenient.load_mode]
      exact ⟨replay_of_configured configured, run_of_configured parsed configured⟩
    · intro why stopped
      obtain ⟨why, refused⟩ := (exists_failure_iff parsed).mp ⟨why, stopped⟩
      rw [configured] at refused
      cases refused
    · intro present honest
      rw [run_of_configured parsed (configuration_of_none unasked),
        run_of_configured parsed configured, load_of_present honest]

/-- A variable that names no mode and one that holds no text are passed over for the file below
home; a file that was asked for and is not there stops the program even where a mode is given. -/
theorem mode_resolution_below_home :
    run (["--timer=tick=2", "--advance=3"].map (·.toUTF8.data.toList))
        { configHome := some [0xFF], home := some "/h".toUTF8.data.toList,
          mode := some "sundial".toUTF8.data.toList }
        (fun path =>
          if path.bytes = "/h/.config/flick/clock.toml".toUTF8.data.toList then
            .ok "mode = \"fake\"\n".toUTF8.data.toList
          else .error .notFound) =
      .ofReplay (Replay.mk .fake [⟨"tick", 2⟩] [3]).run ∧
    run (["--mode=real", "--config=clock.toml"].map (·.toUTF8.data.toList)) {}
        (fun _ => .error .notFound) =
      .failure "failed to read clock config \"clock.toml\": No such file or directory (os error 2)" := by
  constructor
  · have parsed : Arguments.parse (["--timer=tick=2", "--advance=3"].map (·.toUTF8.data.toList)) =
        .ok { timers := [⟨"tick", 2⟩], advances := [3] } := rfl
    exact (((mode_resolution parsed).2 rfl).2.1 .fake
      (load_mode_eq_iff.mp (by decide +kernel))).2
  · have parsed : Arguments.parse
        (["--mode=real", "--config=clock.toml"].map (·.toUTF8.data.toList)) =
        .ok { mode := some .real, config := some ⟨"clock.toml".toUTF8.data.toList⟩ } := rfl
    rw [((mode_resolution parsed).1 _ rfl).2.1 _ (.unreadable rfl)]
    exact congrArg Outcome.failure (by decide +kernel)

end CommandLine

end VirtualClock
