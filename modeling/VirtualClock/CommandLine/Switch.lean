/-!
What a command line may set: parameters, which take a value, and flags. Each has a long name
and a letter.
-/

namespace VirtualClock.CommandLine

inductive Parameter where
  | mode
  | config
  | timer
  | advance
  deriving DecidableEq

inductive Flag where
  | debug
  | help
  deriving DecidableEq

inductive Switch where
  | parameter (p : Parameter)
  | flag (f : Flag)
  deriving DecidableEq

namespace Parameter

def long : Parameter → String
  | mode => "mode"
  | config => "config"
  | timer => "timer"
  | advance => "advance"

/-- Stands for the value. -/
def placeholder : Parameter → String
  | mode => "MODE"
  | config => "CONFIG"
  | timer => "TIMERS"
  | advance => "ADVANCES"

def usage (p : Parameter) : String := "--" ++ p.long ++ " <" ++ p.placeholder ++ ">"

end Parameter

namespace Flag

def long : Flag → String
  | debug => "debug"
  | help => "help"

def usage (f : Flag) : String := "--" ++ f.long

end Flag

namespace Switch

def all : List Switch :=
  [parameter .mode, parameter .config, parameter .timer, parameter .advance, flag .debug,
    flag .help]

def long : Switch → String
  | parameter p => p.long
  | flag f => f.long

def letter : Switch → Char
  | parameter .mode => 'm'
  | parameter .config => 'c'
  | parameter .timer => 't'
  | parameter .advance => 'a'
  | flag .debug => 'd'
  | flag .help => 'h'

def usage : Switch → String
  | parameter p => p.usage
  | flag f => f.usage

def purpose : Switch → String
  | parameter .mode => "Clock mode, overrides the config file [possible values: real, fake]"
  | parameter .config => "Read clock config from this file instead of the default location"
  | parameter .timer => "Timer to arm, as NAME=MILLISECONDS"
  | parameter .advance => "Fake time step in milliseconds, applied in order"
  | flag .debug => "Enable verbose debug output"
  | flag .help => "Print help"

def ofLong? (name : String) : Option Switch := all.find? (·.long == name)

def ofLetter? (c : Char) : Option Switch := all.find? (·.letter == c)

/-- How the switch is written, both ways. -/
def synopsis (s : Switch) : String := "-" ++ String.singleton s.letter ++ ", " ++ s.usage

end Switch

end VirtualClock.CommandLine
