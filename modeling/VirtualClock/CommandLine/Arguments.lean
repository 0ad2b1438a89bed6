import VirtualClock.CommandLine.Switch
import VirtualClock.Mode
import VirtualClock.Path
import VirtualClock.Text.Terminal
import VirtualClock.Text.Utf8
import VirtualClock.TimerSetting

/-!
Reading command line arguments, one after the other. A value stands in the argument of its
switch or is the argument after it; a value that stands alone is looked at only when the next
switch or the end shows that it is complete, so a fault in what follows it may come first.
-/

namespace VirtualClock.CommandLine

/-- What a command line asks for. -/
structure Arguments where
  mode : Option Mode := none
  config : Option Path := none
  timers : List TimerSetting := []
  advances : List UInt64 := []
  debug : Bool := false

inductive UsageError where
  | unexpectedArgument (text : String)
  | unexpectedValue (text : String) (f : Flag)
  | missingValue (p : Parameter)
  | repeated (s : Switch)
  | invalidValue (text : String) (p : Parameter)
  | invalidTimer (text : String) (why : TimerSettingError)
  | invalidAdvance (text : String) (why : Text.IntegerError)
  | notText
  deriving DecidableEq

/-- What a user wrote goes into a message without the power to control the terminal. -/
def UsageError.message : UsageError → String
  | unexpectedArgument text => "unexpected argument '" ++ Text.withoutControl text ++ "' found"
  | unexpectedValue text f =>
    "unexpected value '" ++ Text.withoutControl text ++ "' for '" ++ f.usage
      ++ "' found; no more were expected"
  | missingValue p => "a value is required for '" ++ p.usage ++ "' but none was supplied"
  | repeated s => "the argument '" ++ s.usage ++ "' cannot be used multiple times"
  | invalidValue text p => invalid text p
  | invalidTimer text why => invalid text .timer ++ ": " ++ why.message
  | invalidAdvance text why => invalid text .advance ++ ": " ++ why.message
  | notText => "invalid UTF-8 was detected in one or more arguments"
where
  invalid (text : String) (p : Parameter) : String :=
    "invalid value '" ++ Text.withoutControl text ++ "' for '" ++ p.usage ++ "'"

/-- Why a command line is not carried out as asked. -/
inductive Interruption where
  | help
  | misuse (why : UsageError)

namespace Arguments

def setMode (a : Arguments) (value : List UInt8) : Except UsageError Arguments :=
  if a.mode.isSome then .error (.repeated (.parameter .mode))
  else if value.isEmpty then .error (.missingValue .mode)
  else
    match (Text.decode? value).bind Mode.ofName? with
    | none => .error (.invalidValue (Text.decodeLossy value) .mode)
    | some m => .ok { a with mode := some m }

def setConfig (a : Arguments) (value : List UInt8) : Except UsageError Arguments :=
  if a.config.isSome then .error (.repeated (.parameter .config))
  else if value.isEmpty then .error (.missingValue .config)
  else .ok { a with config := some ⟨value⟩ }

def addTimer (a : Arguments) (value : List UInt8) : Except UsageError Arguments :=
  match Text.decode? value with
  | none => .error .notText
  | some s =>
    match TimerSetting.parse s with
    | .error why => .error (.invalidTimer s why)
    | .ok t => .ok { a with timers := a.timers ++ [t] }

def addAdvance (a : Arguments) (value : List UInt8) : Except UsageError Arguments :=
  match Text.decode? value with
  | none => .error .notText
  | some s =>
    match Text.readInteger .unsigned64 s.toList with
    | .error why => .error (.invalidAdvance s why)
    | .ok n => .ok { a with advances := a.advances ++ [.ofNat n.toNat] }

/-- Set a parameter to a value, if it was given one. -/
def set
    (a : Arguments)
    (p : Parameter)
    (value : Option (List UInt8)) : Except UsageError Arguments :=
  match value with
  | none => .error (.missingValue p)
  | some value =>
    match p with
    | .mode => a.setMode value
    | .config => a.setConfig value
    | .timer => a.addTimer value
    | .advance => a.addAdvance value

def raise (a : Arguments) : Flag → Except Interruption Arguments
  | .help => .error .help
  | .debug =>
    if a.debug then .error (.misuse (.repeated (.flag .debug))) else .ok { a with debug := true }

end Arguments

/-- The form of one argument. -/
inductive Shape where
  /-- Two dashes alone: no switches follow. -/
  | separator
  | long (name : List UInt8) (value : Option (List UInt8))
  /-- Letters behind one dash. -/
  | letters (bytes : List UInt8)
  | plain

def equalsSign : UInt8 := 61

/-- A dash is the byte 45. -/
def Shape.of : List UInt8 → Shape
  | [45, 45] => .separator
  | 45 :: 45 :: rest =>
    match rest.dropWhile (· != equalsSign) with
    | [] => .long rest none
    | _ :: value => .long (rest.takeWhile (· != equalsSign)) (some value)
  | [45] => .plain
  | 45 :: rest => .letters rest
  | _ => .plain

/-- How far the reading has come. -/
structure Progress where
  found : Arguments := {}
  /-- A parameter whose value stands alone, with the value if it was read already. -/
  pending : Option (Parameter × Option (List UInt8)) := none
  onlyPlain : Bool := false

namespace Progress

/-- Set the pending parameter. -/
def resolve (r : Progress) : Except Interruption Progress :=
  match r.pending with
  | none => .ok r
  | some (p, value) =>
    match r.found.set p value with
    | .error why => .error (.misuse why)
    | .ok found => .ok { r with found, pending := none }

def raise (r : Progress) (f : Flag) : Except Interruption Progress := do
  let r ← r.resolve
  let found ← r.found.raise f
  pure { r with found }

/-- A parameter with its value in the same argument, or still without one. -/
def take
    (r : Progress)
    (p : Parameter)
    (value : Option (List UInt8)) : Except Interruption Progress := do
  let r ← r.resolve
  match value with
  | none => pure { r with pending := some (p, none) }
  | some value => resolve { r with pending := some (p, some value) }

def unexpected {α : Type} (text : String) : Except Interruption α :=
  .error (.misuse (.unexpectedArgument text))

def readLong
    (r : Progress)
    (name : List UInt8)
    (value : Option (List UInt8)) : Except Interruption Progress :=
  match (Text.decode? name).bind Switch.ofLong?, value with
  | none, _ => unexpected ("--" ++ Text.decodeLossy name)
  | some (.parameter p), value => r.take p value
  | some (.flag f), none => r.raise f
  | some (.flag f), some value =>
    .error (.misuse (.unexpectedValue (Text.decodeLossy value) f))

/-- The value behind a letter: an equals sign may come first, and nothing at all is no value. -/
def letterValue : List UInt8 → Option (List UInt8)
  | [] => none
  | b :: rest => some (if b = equalsSign then rest else b :: rest)

def readLetters (r : Progress) : List Text.Piece → Except Interruption Progress
  | [] => .ok r
  | .broken bytes :: rest =>
    unexpected ("-" ++ Text.decodeLossy (bytes ++ rest.flatMap (·.bytes)))
  | .char c :: rest =>
    match Switch.ofLetter? c with
    | none => unexpected ("-" ++ String.singleton c)
    | some (.flag f) => do (← r.raise f).readLetters rest
    | some (.parameter p) => r.take p (letterValue (rest.flatMap (·.bytes)))

/-- An argument that is no switch: the value that is being waited for. -/
def readPlain (r : Progress) (arg : List UInt8) : Except Interruption Progress :=
  match r.pending with
  | some (p, none) => .ok { r with pending := some (p, some arg) }
  | _ => unexpected (Text.decodeLossy arg)

def read (r : Progress) (arg : List UInt8) : Except Interruption Progress :=
  if r.onlyPlain then unexpected (Text.decodeLossy arg)
  else
    match Shape.of arg with
    | .separator => .ok { r with onlyPlain := true }
    | .long name value => r.readLong name value
    | .letters bytes => r.readLetters (Text.pieces bytes)
    | .plain => r.readPlain arg

end Progress

def Arguments.parse (args : List (List UInt8)) : Except Interruption Arguments := do
  let r ← args.foldlM Progress.read {}
  let r ← r.resolve
  pure r.found

end VirtualClock.CommandLine
