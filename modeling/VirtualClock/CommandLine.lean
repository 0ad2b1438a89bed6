import VirtualClock.CommandLine.Arguments
import VirtualClock.Config.Lookup
import VirtualClock.Replay

/-!
The command line program: arguments, environment and files in, an exit code and two texts out.
A command line that cannot be understood ends with code 2, a replay that fails with code 1 and
nothing on standard output.
-/

namespace VirtualClock.CommandLine

structure Outcome where
  code : UInt32 := 0
  stdout : String := ""
  stderr : String := ""

namespace Outcome

/-- A refusal after the command line was understood. -/
def failure (message : String) : Outcome := { code := 1, stderr := "Error: " ++ message ++ "\n" }

def misuse (why : UsageError) : Outcome where
  code := 2
  stderr := "error: " ++ why.message ++ "\n"

def report (firings : List Firing) : Outcome :=
  { stdout := String.join (firings.map Firing.line) }

/-- A row of the help text, with the switch in a column of its own. -/
def helpRow (s : Switch) : String :=
  let width := (Switch.all.map (·.synopsis.length)).foldl max 0
  let gap := width + 2 - s.synopsis.length
  "  " ++ s.synopsis ++ String.ofList (List.replicate gap ' ') ++ s.purpose ++ "\n"

def help : Outcome where
  stdout :=
    "Replay timers against the Flick compositor clock\n\nUsage: flick-clock [OPTIONS]\n\nOptions:\n"
      ++ String.join (Switch.all.map helpRow)

def ofInterruption : Interruption → Outcome
  | .help => help
  | .misuse why => misuse why

def ofReplay : Except ReplayError (List Firing) → Outcome
  | .error why => failure why.message
  | .ok firings => report firings

end Outcome

namespace Arguments

/-- The configuration file to look at, if there is one. -/
def configPath? (a : Arguments) (env : Environment) : Option Path :=
  a.config.or (Config.path? env)

/-- The configuration, also where a mode that was given wins over it. -/
def configuration
    (a : Arguments)
    (env : Environment)
    (files : FileReader) : Except ConfigError Config :=
  match a.config with
  | some path => Config.read files path
  | none => .ok (Config.load files env)

def replay (a : Arguments) (env : Environment) (files : FileReader) : Except ConfigError Replay := do
  let config ← a.configuration env files
  pure { mode := a.mode.getD config.mode, timers := a.timers, advances := a.advances }

end Arguments

/-- The program from its arguments to its report, with a host on which time passes only while
nothing is left to do. Its log is left out: what it writes to standard error and to the log file of
the day, and that a host with no place for that file stops it before any configuration is read. -/
def run (args : List (List UInt8)) (env : Environment) (files : FileReader) : Outcome :=
  match Arguments.parse args with
  | .error why => .ofInterruption why
  | .ok a =>
    match a.replay env files with
    | .error why => .failure why.message
    | .ok replay => .ofReplay replay.run

end VirtualClock.CommandLine
