import VirtualClock.Text.Blank
import VirtualClock.Text.Quoted

/-!
The two ways a clock can take its time: from the host, or from fake time that moves only when
it is told to. Where a user writes a mode, white space around it and the case of ASCII letters
do not matter.
-/

namespace VirtualClock

inductive Mode where
  | real
  | fake
  deriving DecidableEq

namespace Mode

def name : Mode → String
  | real => "real"
  | fake => "fake"

/-- The name as the description of a clock writes it. -/
def title : Mode → String
  | real => "Real"
  | fake => "Fake"

def all : List Mode := [real, fake]

def ofName? (s : String) : Option Mode := all.find? (·.name == s)

theorem ofName?_name (m : Mode) : ofName? m.name = some m := by
  cases m <;> decide

end Mode

/-- A text that names no mode, as it was written. -/
structure UnknownMode where
  text : String
  deriving DecidableEq

def UnknownMode.message (e : UnknownMode) : String :=
  "unknown clock mode " ++ Text.quoted e.text ++ " (expected \"real\" or \"fake\")"

def Mode.parse (s : String) : Except UnknownMode Mode :=
  match ofName? (String.ofList ((Text.trim s.toList).map Char.toLower)) with
  | some m => .ok m
  | none => .error ⟨s⟩

end VirtualClock
