/-!
Reading a whole number between two bounds: an optional sign and decimal digits, the minus sign
only where negative numbers are allowed. A text with several faults is refused for the one
that comes first.
-/

namespace VirtualClock.Text

inductive IntegerError where
  | empty
  | invalidDigit
  | tooLarge
  | tooSmall
  deriving DecidableEq

def IntegerError.message : IntegerError → String
  | empty => "cannot parse integer from empty string"
  | invalidDigit => "invalid digit found in string"
  | tooLarge => "number too large to fit in target type"
  | tooSmall => "number too small to fit in target type"

structure IntegerRange where
  low : Int
  high : Int

namespace IntegerRange

def signed32 : IntegerRange := ⟨-2147483648, 2147483647⟩

def unsigned64 : IntegerRange := ⟨0, 18446744073709551615⟩

end IntegerRange

def digit? (c : Char) : Option Nat :=
  if '0' ≤ c && c ≤ '9' then some (c.toNat - 48) else none

/-- Read digits onto `acc`, which counts away from zero in the direction of `sign`. -/
def readDigits (range : IntegerRange) (sign : Int) : Int → List Char → Except IntegerError Int
  | acc, [] => .ok acc
  | acc, c :: rest =>
    match digit? c with
    | none => .error .invalidDigit
    | some d =>
      let next := acc * 10 + sign * d
      if range.high < next then .error .tooLarge
      else if next < range.low then .error .tooSmall
      else readDigits range sign next rest

def readInteger (range : IntegerRange) (s : List Char) : Except IntegerError Int :=
  match s with
  | [] => .error .empty
  | ['+'] => .error .invalidDigit
  | ['-'] => .error .invalidDigit
  | '+' :: digits => readDigits range 1 0 digits
  | '-' :: digits =>
    if range.low < 0 then readDigits range (-1) 0 digits else .error .invalidDigit
  | digits => readDigits range 1 0 digits

end VirtualClock.Text
