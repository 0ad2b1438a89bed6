import VirtualClock.Text.Integer

/-!
Numbers of a TOML document. Digits may be separated by single underscores; a number has no
leading zeros; integers fit in 64 signed bits, and a float must not round to infinity.
-/

namespace VirtualClock.Toml

/-- Reads from the front of a text, giving what it read and the rest. -/
abbrev Reader (α : Type) := List Char → Option (α × List Char)

def isDigitOf (radix : Nat) (c : Char) : Bool :=
  match Text.digit? c with
  | some d => d < radix
  | none =>
    radix == 16 && (('a' ≤ c && c ≤ 'f') || ('A' ≤ c && c ≤ 'F'))

def digitValue (c : Char) : Nat :=
  match Text.digit? c with
  | some d => d
  | none => 10 + (c.toLower.toNat - 'a'.toNat)

def digitsValue (radix : Nat) (digits : List Char) : Nat :=
  digits.foldl (fun n c => n * radix + digitValue c) 0

/-- The rest of a run of digits, each underscore between two of them. -/
def moreDigits (radix : Nat) : Reader (List Char)
  | [] => some ([], [])
  | ['_'] => none
  | '_' :: d :: rest =>
    if isDigitOf radix d then (moreDigits radix rest).map fun (ds, rest) => (d :: ds, rest)
    else none
  | d :: rest =>
    if isDigitOf radix d then (moreDigits radix rest).map fun (ds, rest) => (d :: ds, rest)
    else some ([], d :: rest)

def someDigits (radix : Nat) : Reader (List Char)
  | [] => none
  | d :: rest =>
    if isDigitOf radix d then (moreDigits radix rest).map fun (ds, rest) => (d :: ds, rest)
    else none

/-- Decimal digits without a leading zero. -/
def wholeDigits : Reader (List Char)
  | '0' :: rest => some (['0'], rest)
  | s => someDigits 10 s

/-- An optional sign: whether it is a minus. -/
def readSign : List Char → Bool × List Char
  | '+' :: rest => (false, rest)
  | '-' :: rest => (true, rest)
  | s => (false, s)

def inRange64 (n : Int) : Bool := -9223372036854775808 ≤ n && n ≤ 9223372036854775807

def readRadix (radix : Nat) : Reader Int := fun s => do
  let (digits, rest) ← someDigits radix s
  let n : Int := digitsValue radix digits
  if inRange64 n then some (n, rest) else none

def readInteger : Reader Int
  | '0' :: 'x' :: rest => readRadix 16 rest
  | '0' :: 'o' :: rest => readRadix 8 rest
  | '0' :: 'b' :: rest => readRadix 2 rest
  | s => do
    let (negative, s) := readSign s
    let (digits, rest) ← wholeDigits s
    let n : Int := digitsValue 10 digits
    let n := if negative then -n else n
    if inRange64 n then some (n, rest) else none

def readExponent : Reader Int
  | c :: rest =>
    if c == 'e' || c == 'E' then do
      let (negative, s) := readSign rest
      let (digits, rest) ← someDigits 10 s
      let n : Int := digitsValue 10 digits
      some (if negative then -n else n, rest)
    else none
  | [] => none

/-- Least number that a 64-bit float rounds to infinity. -/
def infinityBound : Nat := Nat.pow 2 1024 - Nat.pow 2 970

/-- Whether `digits` with the point `places` from the right, times ten to the `exponent`,
rounds to infinity. Magnitude decides all but the numbers of 309 and 310 digits. -/
def isInfinite (digits : List Char) (places : Nat) (exponent : Int) : Bool :=
  let significant := digits.dropWhile (· == '0')
  let scale := exponent - places
  let magnitude := significant.length + scale
  let n := digitsValue 10 significant
  if significant.isEmpty || magnitude < 309 then false
  else if 310 < magnitude then true
  else if 0 ≤ scale then infinityBound ≤ n * Nat.pow 10 scale.toNat
  else infinityBound * Nat.pow 10 (-scale).toNat ≤ n

/-- Digits with a fraction, an exponent, or both. -/
def readDecimal : Reader Unit := fun s => do
  let (negative, s) := readSign s
  let (whole, s) ← wholeDigits s
  let (fraction, s) ← match s with
    | '.' :: rest => (someDigits 10 rest).map fun (ds, rest) => (some ds, rest)
    | s => some (none, s)
  let (exponent, s) ← match s with
    | 'e' :: _ | 'E' :: _ => (readExponent s).map fun (n, rest) => (some n, rest)
    | s => some (none, s)
  if fraction.isNone && exponent.isNone then none
  else
    let places := (fraction.getD []).length
    if !negative && isInfinite (whole ++ fraction.getD []) places (exponent.getD 0) then none
    else some ((), s)

def readFloat : Reader Unit := fun s =>
  match readDecimal s with
  | some r => some r
  | none =>
    match (readSign s).2 with
    | 'i' :: 'n' :: 'f' :: rest => some ((), rest)
    | 'n' :: 'a' :: 'n' :: rest => some ((), rest)
    | _ => none

end VirtualClock.Toml
