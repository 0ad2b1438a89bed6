import VirtualClock.Toml.Number

/-!
Dates and times of a TOML document: a date, a time, or both with an optional offset from UTC.
Months, days, leap years and the parts of a time are checked.
-/

namespace VirtualClock.Toml

/-- Exactly `n` digits, as a number. -/
def fixedNumber (n : Nat) : Reader Nat := fun s =>
  let digits := s.take n
  if digits.length == n && digits.all (isDigitOf 10) then
    some (digitsValue 10 digits, s.drop n)
  else none

def numberIn (n low high : Nat) : Reader Nat := fun s => do
  let (k, rest) ← fixedNumber n s
  if low ≤ k && k ≤ high then some (k, rest) else none

def expect (c : Char) : Reader Unit
  | d :: rest => if d == c then some ((), rest) else none
  | [] => none

def isLeapYear (year : Nat) : Bool := year % 4 == 0 && (year % 100 != 0 || year % 400 == 0)

def daysInMonth (year month : Nat) : Nat :=
  if month == 2 then (if isLeapYear year then 29 else 28)
  else if month == 4 || month == 6 || month == 9 || month == 11 then 30
  else 31

def readDate : Reader Unit := fun s => do
  let (year, s) ← fixedNumber 4 s
  let (_, s) ← expect '-' s
  let (month, s) ← numberIn 2 1 12 s
  let (_, s) ← expect '-' s
  let (_, s) ← numberIn 2 1 (daysInMonth year month) s
  some ((), s)

/-- Hours and minutes. -/
def readHourMinute : Reader Unit := fun s => do
  let (_, s) ← numberIn 2 0 23 s
  let (_, s) ← expect ':' s
  let (_, s) ← numberIn 2 0 59 s
  some ((), s)

/-- Hours, minutes and seconds, up to a leap second, with an optional fraction. -/
def readTime : Reader Unit := fun s => do
  let (_, s) ← readHourMinute s
  let (_, s) ← expect ':' s
  let (_, s) ← numberIn 2 0 60 s
  match s with
  | '.' :: d :: rest =>
    if isDigitOf 10 d then some ((), rest.dropWhile (isDigitOf 10)) else some ((), s)
  | s => some ((), s)

def skipOffset (s : List Char) : List Char :=
  match s with
  | 'Z' :: rest => rest
  | 'z' :: rest => rest
  | '+' :: rest => ((readHourMinute rest).map (·.2)).getD s
  | '-' :: rest => ((readHourMinute rest).map (·.2)).getD s
  | s => s

def isDelimiter (c : Char) : Bool := c == 'T' || c == 't' || c == ' '

def readDateTime : Reader Unit := fun s =>
  match readDate s with
  | none => readTime s
  | some (_, rest) =>
    match rest with
    | c :: after =>
      if isDelimiter c then
        match readTime after with
        | some (_, rest) => some ((), skipOffset rest)
        | none => some ((), rest)
      else some ((), rest)
    | [] => some ((), [])

end VirtualClock.Toml
