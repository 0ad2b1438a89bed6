import VirtualClock.Text.Blank
import VirtualClock.Text.Integer
import VirtualClock.Text.Quoted

/-!
Timers as a user asks for them: a name, an equals sign and a delay in milliseconds. White space
around either part does not matter, and the first equals sign ends the name.
-/

namespace VirtualClock

structure TimerSetting where
  name : String
  /-- Milliseconds; a delay that is not positive leaves the timer disarmed. -/
  delay : Int32
  deriving DecidableEq

inductive TimerSettingError where
  | noDelay (text : String)
  /-- The name is as it was written. -/
  | badDelay (name : String) (why : Text.IntegerError)
  deriving DecidableEq

def TimerSettingError.message : TimerSettingError → String
  | noDelay text => "expected NAME=MILLISECONDS, got " ++ Text.quoted text
  | badDelay name why => "bad delay for timer " ++ Text.quoted name ++ ": " ++ why.message

def TimerSetting.parse (s : String) : Except TimerSettingError TimerSetting :=
  let name := s.toList.takeWhile (· != '=')
  match s.toList.dropWhile (· != '=') with
  | [] => .error (.noDelay s)
  | _ :: delay =>
    match Text.readInteger .signed32 (Text.trim delay) with
    | .error why => .error (.badDelay (String.ofList name) why)
    | .ok n => .ok ⟨String.ofList (Text.trim name), .ofInt n⟩

end VirtualClock
