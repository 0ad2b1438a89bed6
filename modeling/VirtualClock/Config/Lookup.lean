import VirtualClock.Config
import VirtualClock.Environment
import VirtualClock.FileTree

/-!
Where the configuration comes from. A file that was asked for is read strictly. Otherwise a file
at the default place is used if it can be, and the environment may name a mode that wins over
it; whatever is missing or wrong there is passed over.
-/

namespace VirtualClock

/-- Why a configuration file was refused. -/
inductive ConfigError where
  | unreadable (path : Path) (why : ReadError)
  | invalid (path : Path) (fault : ConfigFault)
  deriving DecidableEq

/-- Names the file; the first line does not go into what is wrong with its contents. -/
def ConfigError.message : ConfigError → String
  | unreadable path why =>
    "failed to read clock config " ++ Text.quotedBytes path.bytes ++ ": " ++ why.message
  | invalid path _ =>
    "invalid clock config " ++ Text.quotedBytes path.bytes ++ ": TOML parse error"

namespace Config

def read (files : FileReader) (path : Path) : Except ConfigError Config :=
  match files.readText path with
  | .error why => .error (.unreadable path why)
  | .ok text =>
    match ofToml text with
    | .error fault => .error (.invalid path fault)
    | .ok config => .ok config

/-- The default place, if the environment tells enough. -/
def path? (env : Environment) : Option Path :=
  let directory :=
    match Environment.text? env.configHome with
    | some d => some (Path.ofString d)
    | none => (Environment.text? env.home).map fun h => (Path.ofString h).join ".config"
  directory.map (·.join "flick/clock.toml")

def load (files : FileReader) (env : Environment) : Config :=
  let found := ((path? env).bind fun path => (read files path).toOption).getD {}
  match (Environment.text? env.mode).map Mode.parse with
  | some (.ok mode) => { found with mode }
  | _ => found

end Config

end VirtualClock
