import VirtualClock.Toml.Number

/-!
Strings of a TOML document: basic ones with escapes and literal ones without, each on one line
or between triple quotes over many. In the long forms a newline right after the opening is
dropped, line ends count as one newline, and up to two quotes may stand before the closing.
-/

namespace VirtualClock.Toml

def isSpace (c : Char) : Bool := c == ' ' || c == '\t'

/-- Characters that may stand on a line: no control character but the tab. -/
def isLineChar (c : Char) : Bool :=
  c == '\t' || (0x20 ≤ c.toNat && c.toNat ≤ 0x7E) || 0x80 ≤ c.toNat

def newline? : List Char → Option (List Char)
  | '\n' :: rest => some rest
  | '\r' :: '\n' :: rest => some rest
  | _ => none

def prepend (c : Option Char) (r : Option (List Char × List Char)) :
    Option (List Char × List Char) :=
  match c, r with
  | some c, some (cs, rest) => some (c :: cs, rest)
  | _, _ => none

def escaped? : Char → Option Char
  | 'b' => some '\x08'
  | 't' => some '\t'
  | 'n' => some '\n'
  | 'f' => some '\x0c'
  | 'r' => some '\r'
  | '"' => some '"'
  | '\\' => some '\\'
  | _ => none

/-- The character with a code point in hexadecimal; surrogates have none. -/
def scalar? (digits : List Char) : Option Char :=
  if digits.all (isDigitOf 16) then
    let n := digitsValue 16 digits
    if n.isValidChar then some (Char.ofNat n) else none
  else none

/-- A basic string after its opening quote. -/
def basicBody : Reader (List Char)
  | [] => none
  | '"' :: rest => some ([], rest)
  | '\\' :: 'u' :: a :: b :: c :: d :: rest => prepend (scalar? [a, b, c, d]) (basicBody rest)
  | '\\' :: 'U' :: a :: b :: c :: d :: e :: f :: g :: h :: rest =>
    prepend (scalar? [a, b, c, d, e, f, g, h]) (basicBody rest)
  | '\\' :: c :: rest => prepend (escaped? c) (basicBody rest)
  | c :: rest => if c != '\\' && isLineChar c then prepend (some c) (basicBody rest) else none

/-- A literal string after its opening quote. -/
def literalBody : Reader (List Char)
  | [] => none
  | '\'' :: rest => some ([], rest)
  | c :: rest => if isLineChar c then prepend (some c) (literalBody rest) else none

/-- The closing of a long string, with up to two quotes of its text before it. -/
def closing? (quote : Char) : Reader (List Char)
  | a :: b :: c :: rest =>
    if a == quote && b == quote && c == quote then
      match rest with
      | d :: e :: more =>
        if d == quote && e == quote then some ([quote, quote], more)
        else if d == quote then some ([quote], e :: more)
        else some ([], rest)
      | [d] => if d == quote then some ([quote], []) else some ([], rest)
      | [] => some ([], [])
    else none
  | _ => none

def isBreak (c : Char) : Bool := isSpace c || c == '\n' || c == '\r'

/-- Past white space and line ends; a lone carriage return is neither. -/
def skipBreaks : List Char → List Char
  | '\r' :: '\n' :: rest => skipBreaks rest
  | c :: rest => if isSpace c || c == '\n' then skipBreaks rest else c :: rest
  | [] => []

/-- A long basic string after its opening. A backslash at the end of a line takes the white
space and line ends after it out of the text. Each character takes one unit of fuel. -/
def longBasicBody : (fuel : Nat) → Reader (List Char)
  | 0, _ => none
  | fuel + 1, s =>
    match closing? '"' s with
    | some r => some r
    | none =>
      match newline? s with
      | some rest => prepend (some '\n') (longBasicBody fuel rest)
      | none =>
        match s with
        | [] => none
        | '\\' :: 'u' :: a :: b :: c :: d :: rest =>
          prepend (scalar? [a, b, c, d]) (longBasicBody fuel rest)
        | '\\' :: 'U' :: a :: b :: c :: d :: e :: f :: g :: h :: rest =>
          prepend (scalar? [a, b, c, d, e, f, g, h]) (longBasicBody fuel rest)
        | '\\' :: c :: rest =>
          if isBreak c then
            match newline? ((c :: rest).dropWhile isSpace) with
            | some rest => longBasicBody fuel (skipBreaks rest)
            | none => none
          else prepend (escaped? c) (longBasicBody fuel rest)
        | c :: rest =>
          if c != '\\' && isLineChar c then prepend (some c) (longBasicBody fuel rest) else none

/-- A long literal string after its opening. Each character takes one unit of fuel. -/
def longLiteralBody : (fuel : Nat) → Reader (List Char)
  | 0, _ => none
  | fuel + 1, s =>
    match closing? '\'' s with
    | some r => some r
    | none =>
      match newline? s with
      | some rest => prepend (some '\n') (longLiteralBody fuel rest)
      | none =>
        match s with
        | [] => none
        | c :: rest =>
          if isLineChar c then prepend (some c) (longLiteralBody fuel rest) else none

def afterOpening (s : List Char) : List Char := (newline? s).getD s

def readString : Reader (List Char)
  | '"' :: '"' :: '"' :: rest =>
    let s := afterOpening rest
    longBasicBody (s.length + 1) s
  | '\'' :: '\'' :: '\'' :: rest =>
    let s := afterOpening rest
    longLiteralBody (s.length + 1) s
  | '"' :: rest => basicBody rest
  | '\'' :: rest => literalBody rest
  | _ => none

end VirtualClock.Toml
