import VirtualClock.Text.Combining

/-!
Quoted text, as messages show names and paths: in double quotes, with short escapes for the
quote, the backslash and the common control characters, and the code point in hexadecimal for
whatever else does not print or would combine with the character before it.
-/

namespace VirtualClock.Text

def hexDigits (n : Nat) : List Char := Nat.toDigits 16 n

def escape (c : Char) : List Char :=
  match c with
  | '"' => ['\\', '"']
  | '\\' => ['\\', '\\']
  | '\n' => ['\\', 'n']
  | '\r' => ['\\', 'r']
  | '\t' => ['\\', 't']
  | '\x00' => ['\\', '0']
  | c =>
    if isCombining c || isUnprintable c then
      ['\\', 'u', '\x7b'] ++ hexDigits c.toNat ++ ['\x7d']
    else [c]

def inQuotes (body : List Char) : String := String.ofList ('"' :: body ++ ['"'])

def quoted (s : String) : String := inQuotes (s.toList.flatMap escape)

end VirtualClock.Text
