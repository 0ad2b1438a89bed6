import VirtualClock.CommandLine

/-!
The program on a real host: its environment, the one file that it may read, its clock, and its
standard streams.
-/

namespace VirtualClock.CommandLine

def environment : IO Environment := do
  let get (name : String) : IO (Option (List UInt8)) := do
    pure ((← IO.getEnv name).map fun s => s.toUTF8.toList)
  pure ⟨← get "XDG_CONFIG_HOME", ← get "HOME", ← get "FLICK_CLOCK"⟩

def readError : IO.Error → ReadError
  | .noFileOrDirectory .. => .notFound
  | .noSuchThing .. => .notFound
  | .inappropriateType _ 21 _ => .isDirectory
  | .inappropriateType .. => .notDirectory
  | e@(.invalidArgument _ code _) =>
    -- an error on opening comes with its number negated
    if code.toNat + 36 = UInt32.size then .nameTooLong else .other (toString e)
  | e => .other (toString e)

/-- A reader that knows what the host has at one path. -/
def hostFile (path : Option Path) : IO FileReader := do
  let contents : Except ReadError (List UInt8) ← do
    match path with
    | none => pure (.error .notFound)
    | some p =>
      try pure (.ok (← IO.FS.readBinFile (Text.decodeLossy p.bytes)).toList)
      catch e => pure (.error (readError e))
  pure fun _ => contents

/-- Sleep until each deadline in turn and dispatch at the host's time. No timer is given up, however
late the host comes to it. -/
def playHost (w : World) : IO World := do
  let mut w := w
  for _ in List.range w.loop.sources.length do
    if let some s := w.loop.sources.head? then
      let now ← IO.monoNanosNow
      IO.sleep (.ofNat ((s.deadline - now + (nanosPerMilli - 1)) / nanosPerMilli))
      w := (w.passTo (max s.deadline (← IO.monoNanosNow))).dispatch
  pure w

def runReplay (replay : Replay) : IO Outcome := do
  match replay.mode with
  | .fake => pure (.ofReplay replay.run)
  | .real =>
    match replay.start (← IO.monoNanosNow) with
    | .error why => pure (.failure why.message)
    | .ok w => pure (.ofReplay (Replay.finish (← playHost w)))

def runHost (args : List String) : IO Outcome := do
  match Arguments.parse (args.map fun s => s.toUTF8.toList) with
  | .error why => pure (.ofInterruption why)
  | .ok a =>
    let env ← environment
    match a.replay env (← hostFile (a.configPath? env)) with
    | .error why => pure (.failure why.message)
    | .ok replay => runReplay replay

end VirtualClock.CommandLine

open VirtualClock.CommandLine in
def main (args : List String) : IO UInt32 := do
  let outcome ← runHost args
  IO.print outcome.stdout
  IO.eprint outcome.stderr
  pure outcome.code
