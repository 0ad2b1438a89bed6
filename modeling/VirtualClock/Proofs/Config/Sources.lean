import VirtualClock.Config.Lookup
import VirtualClock.Proofs.Text.Encoding

/-!
Where a configuration comes from, told by what variables and files hold. A strict reading of a file
gives a configuration or the reason why there is none. When no file was asked for, the mode is that
of the first source that tells one: the variable, the file at the default place, and else host time.
-/

namespace VirtualClock

open Text

namespace Path

theorem bytes_ofString (s : String) : (ofString s).bytes = encode s.toList := toList_toUTF8 s

theorem bytes_ofString_append (s t : String) :
    (ofString (s ++ t)).bytes = (ofString s).bytes ++ (ofString t).bytes := by
  rw [bytes_ofString, bytes_ofString, bytes_ofString, String.toList_append, encode,
    List.flatMap_append]
  rfl

theorem join_of_getLast? {base : Path} {b : UInt8} (last : base.bytes.getLast? = some b)
    (solid : b ≠ slash) (below : String) :
    base.join below = ⟨base.bytes ++ [slash] ++ (ofString below).bytes⟩ := by
  rw [join, last]
  simp only [if_neg solid]

theorem join_join (base : Path) {first : String} {b : UInt8}
    (last : (ofString first).bytes.getLast? = some b) (solid : b ≠ slash) (second : String) :
    (base.join first).join second = base.join (first ++ "/" ++ second) := by
  have last' : (base.join first).bytes.getLast? = some b := by
    rw [join, List.getLast?_append, last]
    rfl
  have between : (ofString "/").bytes = [slash] := by
    rw [bytes_ofString]
    rfl
  rw [join_of_getLast? last' solid]
  simp only [join, bytes_ofString_append, between, List.append_assoc]

end Path

/-- A reader that sees no other paths than those that are present. -/
def FileReader.among (files : FileReader) (present : Path → Bool) : FileReader := fun path =>
  if present path then files path else .error .notFound

namespace Environment

/-- A variable is set to a text. -/
def Holds (value : Option (List UInt8)) (s : String) : Prop := value = some (encode s.toList)

theorem text?_eq_some_iff {value : Option (List UInt8)} {s : String} :
    text? value = some s ↔ Holds value s := by
  rw [text?, Option.bind_eq_some_iff]
  constructor
  · rintro ⟨bytes, rfl, decoded⟩
    exact congrArg some (decode?_eq_some_iff.mp decoded)
  · intro holds
    exact ⟨_, holds, decode?_eq_some_iff.mpr rfl⟩

theorem text?_eq_none_iff {value : Option (List UInt8)} :
    text? value = none ↔ ∀ s, ¬Holds value s := by
  rw [Option.eq_none_iff_forall_ne_some]
  exact forall_congr' fun s => not_congr text?_eq_some_iff

/-- The variable names a mode. -/
def Names (env : Environment) (mode : Mode) : Prop :=
  ∃ s, Holds env.mode s ∧ Mode.parse s = .ok mode

end Environment

namespace Config

open Environment

/-- What a strict reading of a file gives. -/
inductive Strict (files : FileReader) (path : Path) : Except ConfigError Config → Prop where
  | unreadable {why} : files path = .error why → Strict files path (.error (.unreadable path why))
  | noText {bytes} : files path = .ok bytes → (∀ s : String, bytes ≠ encode s.toList) →
      Strict files path (.error (.unreadable path .notText))
  | invalid {s fault} : files path = .ok (encode s.toList) → ofToml s = .error fault →
      Strict files path (.error (.invalid path fault))
  | valid {s config} : files path = .ok (encode s.toList) → ofToml s = .ok config →
      Strict files path (.ok config)

/-- The default place of the configuration. -/
inductive Place (env : Environment) : Path → Prop where
  | configHome {directory} : Holds env.configHome directory →
      Place env ((Path.ofString directory).join "flick/clock.toml")
  | home {directory} : (∀ s, ¬Holds env.configHome s) → Holds env.home directory →
      Place env ((Path.ofString directory).join ".config/flick/clock.toml")

/-- A strict reading of the file at the default place gives a mode. -/
def Offers (files : FileReader) (env : Environment) (mode : Mode) : Prop :=
  ∃ path config, Place env path ∧ Strict files path (.ok config) ∧ config.mode = mode

/-- The mode where no file was asked for. -/
inductive Lenient (files : FileReader) (env : Environment) : Mode → Prop where
  | named {mode} : env.Names mode → Lenient files env mode
  | offered {mode} : (∀ m, ¬env.Names m) → Offers files env mode → Lenient files env mode
  | neither : (∀ m, ¬env.Names m) → (∀ m, ¬Offers files env m) → Lenient files env .real

variable {files : FileReader} {env : Environment} {path : Path}

theorem readText_of_unreadable {why : ReadError} (found : files path = .error why) :
    files.readText path = .error why := by
  rw [FileReader.readText, found]
  rfl

theorem readText_of_text {s : String} (found : files path = .ok (encode s.toList)) :
    files.readText path = .ok s := by
  have decoded : decode? (encode s.toList) = some s := decode?_eq_some_iff.mpr rfl
  simp only [FileReader.readText, found, bind, Except.bind, decoded]

theorem readText_of_noText {bytes : List UInt8} (found : files path = .ok bytes)
    (noText : ∀ s : String, bytes ≠ encode s.toList) : files.readText path = .error .notText := by
  have decoded : decode? bytes = none := by
    rw [Option.eq_none_iff_forall_ne_some]
    exact fun s known => noText s (decode?_eq_some_iff.mp known)
  simp only [FileReader.readText, found, bind, Except.bind, decoded]

theorem strict_read (files : FileReader) (path : Path) : Strict files path (read files path) := by
  cases found : files path with
  | error why =>
    rw [read, readText_of_unreadable found]
    exact .unreadable found
  | ok bytes =>
    by_cases text : ∃ s : String, bytes = encode s.toList
    · obtain ⟨s, rfl⟩ := text
      rw [read, readText_of_text found]
      cases parsed : ofToml s with
      | error fault =>
        simp only [parsed]
        exact .invalid found parsed
      | ok config =>
        simp only [parsed]
        exact .valid found parsed
    · have noText : ∀ s : String, bytes ≠ encode s.toList := not_exists.mp text
      rw [read, readText_of_noText found noText]
      exact .noText found noText

theorem Strict.read_eq {result : Except ConfigError Config} (strict : Strict files path result) :
    read files path = result := by
  cases strict with
  | unreadable found => rw [read, readText_of_unreadable found]
  | noText found noText => rw [read, readText_of_noText found noText]
  | invalid found parsed => simp only [read, readText_of_text found, parsed]
  | valid found parsed => simp only [read, readText_of_text found, parsed]

theorem read_eq_iff {result : Except ConfigError Config} :
    read files path = result ↔ Strict files path result :=
  ⟨fun same => same ▸ strict_read files path, Strict.read_eq⟩

theorem path?_of_home (unset : text? env.configHome = none) :
    path? env = (text? env.home).map fun home =>
      (Path.ofString home).join ".config/flick/clock.toml" := by
  have config : (Path.ofString ".config").bytes.getLast? = some 103 := by
    rw [Path.bytes_ofString]
    rfl
  simp only [path?, unset, Option.map_map, Function.comp_def,
    Path.join_join _ config (by decide)]
  rfl

theorem path?_eq_some_iff : path? env = some path ↔ Place env path := by
  cases named : text? env.configHome with
  | some directory =>
    have holds : Holds env.configHome directory := text?_eq_some_iff.mp named
    have found : path? env = some ((Path.ofString directory).join "flick/clock.toml") := by
      simp only [path?, named, Option.map_some]
    rw [found, Option.some.injEq]
    constructor
    · rintro rfl
      exact .configHome holds
    · intro place
      cases place with
      | configHome holds' =>
        cases named.symm.trans (text?_eq_some_iff.mpr holds')
        rfl
      | home unset => exact absurd holds (unset directory)
  | none =>
    have unset := text?_eq_none_iff.mp named
    rw [path?_of_home named, Option.map_eq_some_iff]
    constructor
    · rintro ⟨home, known, rfl⟩
      exact .home unset (text?_eq_some_iff.mp known)
    · intro place
      cases place with
      | configHome holds => exact absurd holds (unset _)
      | home _ holds => exact ⟨_, text?_eq_some_iff.mpr holds, rfl⟩

def found? (files : FileReader) (env : Environment) : Option Config :=
  (path? env).bind fun path => (read files path).toOption

theorem found?_eq_some_iff {config : Config} :
    found? files env = some config ↔ ∃ path, Place env path ∧ Strict files path (.ok config) := by
  have kept (path : Path) :
      (read files path).toOption = some config ↔ read files path = .ok config := by
    cases read files path <;> simp [Except.toOption]
  simp only [found?, Option.bind_eq_some_iff, kept, path?_eq_some_iff, read_eq_iff]

theorem found?_eq_none (missing : ∀ m, ¬Offers files env m) : found? files env = none := by
  rw [Option.eq_none_iff_forall_ne_some]
  intro config found
  obtain ⟨path, place, strict⟩ := found?_eq_some_iff.mp found
  exact missing config.mode ⟨path, config, place, strict, rfl⟩

theorem load_mode_of_names {mode : Mode} (names : env.Names mode) :
    (load files env).mode = mode := by
  obtain ⟨s, holds, parsed⟩ := names
  simp only [load, text?_eq_some_iff.mpr holds, Option.map_some, parsed]

theorem load_of_unnamed (unnamed : ∀ m, ¬env.Names m) :
    load files env = (found? files env).getD {} := by
  rw [load]
  split
  · next named =>
      obtain ⟨s, text, parsed⟩ := Option.map_eq_some_iff.mp named
      exact absurd ⟨s, text?_eq_some_iff.mp text, parsed⟩ (unnamed _)
  · rfl

theorem lenient_load (files : FileReader) (env : Environment) :
    Lenient files env (load files env).mode := by
  by_cases named : ∃ m, env.Names m
  · obtain ⟨m, names⟩ := named
    rw [load_mode_of_names names]
    exact .named names
  have unnamed := not_exists.mp named
  rw [load_of_unnamed unnamed]
  cases found : found? files env with
  | some config =>
    obtain ⟨path, place, strict⟩ := found?_eq_some_iff.mp found
    exact .offered unnamed ⟨path, config, place, strict, rfl⟩
  | none =>
    refine .neither unnamed ?_
    rintro m ⟨path, config, place, strict, -⟩
    have offered := found?_eq_some_iff.mpr ⟨path, place, strict⟩
    rw [found] at offered
    cases offered

theorem Lenient.load_mode {mode : Mode} (lenient : Lenient files env mode) :
    (load files env).mode = mode := by
  cases lenient with
  | named names => exact load_mode_of_names names
  | offered unnamed offers =>
    obtain ⟨path, config, place, strict, same⟩ := offers
    rw [load_of_unnamed unnamed, found?_eq_some_iff.mpr ⟨path, place, strict⟩]
    exact same
  | neither unnamed missing =>
    rw [load_of_unnamed unnamed, found?_eq_none missing]
    rfl

theorem load_mode_eq_iff {mode : Mode} :
    (load files env).mode = mode ↔ Lenient files env mode :=
  ⟨fun same => same ▸ lenient_load files env, Lenient.load_mode⟩

/-- To look first whether the file is there changes nothing. -/
theorem load_of_present {present : Path → Bool}
    (honest : ∀ path bytes, files path = .ok bytes → present path) :
    load (files.among present) env = load files env := by
  have same (path : Path) :
      (read (files.among present) path).toOption = (read files path).toOption := by
    cases there : present path with
    | true => simp only [read, FileReader.readText, FileReader.among, there, if_true]
    | false =>
      cases found : files path with
      | ok bytes =>
        have absent := honest path bytes found
        rw [there] at absent
        cases absent
      | error why =>
        have hidden : files.among present path = .error .notFound := by
          rw [FileReader.among, there]
          rfl
        rw [(Strict.unreadable hidden).read_eq, (Strict.unreadable found).read_eq]
        rfl
  simp only [load, same]

end Config

end VirtualClock
