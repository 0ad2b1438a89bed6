/-!
Text for a terminal that is not to be controlled by it: escape sequences and control characters
are left out. White space is kept, even inside most sequences. A terminal reads bytes, so a
character beyond ASCII ends a string when one of its bytes is the string terminator.
-/

namespace VirtualClock.Text

/-- What the characters that were read last belong to. -/
inductive TerminalState where
  | text
  /-- A sequence that has just begun. -/
  | escape
  /-- A sequence that the next character from `0` on ends. -/
  | intermediate
  /-- A control sequence, which a character from `@` on ends. -/
  | control
  /-- A command to the operating system, which a bell ends. -/
  | command
  /-- The opening of a device control string. -/
  | device
  /-- Parameters of a device control string. -/
  | deviceParameter
  /-- Characters between the parameters of a device control string and its body. -/
  | deviceIntermediate
  /-- The body of a string, which the byte `stringEnd` ends. -/
  | string
  deriving DecidableEq

/-- The string terminator among the control characters of one byte. -/
def stringEnd : UInt8 := 0x9C

namespace TerminalState

/-- White space that is a control character. -/
def isSpacing (c : Char) : Bool := c == '\t' || c == '\n' || c == '\x0c' || c == '\r'

/-- Whether the character stands for itself in a text. -/
def isPlain (c : Char) : Bool := isSpacing c || (' ' ≤ c && c != '\x7f')

def isBetween (low c high : Char) : Bool := low ≤ c && c ≤ high

/-- The state after a character inside a sequence. -/
def next (s : TerminalState) (c : Char) : TerminalState :=
  if c == '\x1b' then escape
  else if c == '\x18' || c == '\x1a' then text
  else
    match s with
    | text => text
    | escape =>
      if c == '[' then control
      else if c == ']' then command
      else if c == 'P' then device
      else if c == 'X' || c == '^' || c == '_' then string
      else if isBetween ' ' c '/' then intermediate
      else if isBetween '0' c '~' then text
      else escape
    | intermediate => if isBetween '0' c '~' then text else intermediate
    | control => if isBetween '@' c '~' then text else control
    | command => if c == '\x07' then text else command
    | device =>
      if isBetween ' ' c '/' then deviceIntermediate
      else if isBetween '0' c '?' then deviceParameter
      else if isBetween '@' c '~' then string
      else device
    | deviceParameter =>
      if isBetween ' ' c '/' then deviceIntermediate
      else if isBetween '<' c '~' then string
      else deviceParameter
    | deviceIntermediate => if isBetween '0' c '~' then string else deviceIntermediate
    | string => if stringEnd ∈ String.utf8EncodeChar c then text else string

/-- Whether white space is shown inside the sequence. -/
def showsSpacing : TerminalState → Bool
  | escape | intermediate | control => true
  | text | command | device | deviceParameter | deviceIntermediate | string => false

end TerminalState

open TerminalState in
/-- Once a character was shown, those after it are read as text until one cannot be shown. Then
a sequence that white space broke up goes on, unless a character beyond ASCII has ended it. -/
def withoutControlFrom : (shown : Bool) → TerminalState → List Char → List Char
  | _, _, [] => []
  | shown, s, c :: rest =>
    let visible := if shown || s == .text then isPlain c else s.showsSpacing && isSpacing c
    if visible then c :: withoutControlFrom true (if c.toNat < 0x80 then s else .text) rest
    else withoutControlFrom false (s.next c) rest

def withoutControl (s : String) : String :=
  String.ofList (withoutControlFrom false .text s.toList)

end VirtualClock.Text
