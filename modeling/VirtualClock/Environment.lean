import VirtualClock.Text.Utf8

/-!
The environment variables that matter to clocks. A variable that does not hold text counts as
unset; an empty one is set.
-/

namespace VirtualClock

structure Environment where
  /-- Directory of configuration files. -/
  configHome : Option (List UInt8) := none
  home : Option (List UInt8) := none
  /-- Overrides the mode of the configuration. -/
  mode : Option (List UInt8) := none

namespace Environment

def text? (value : Option (List UInt8)) : Option String := value.bind Text.decode?

end Environment

end VirtualClock
