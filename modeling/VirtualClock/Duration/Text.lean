import VirtualClock.Duration
import VirtualClock.Text.Decimal

/-!
Durations as text. The unit is the largest of seconds, milli-, micro- and nanoseconds that
the duration reaches. The exact form writes every digit and drops trailing zeros; the form
with three places rounds to the nearest thousandth of the unit, a half to the even one.
-/

namespace VirtualClock.Duration

structure Unit where
  nanos : Nat
  /-- Decimal places that tell single nanoseconds apart. -/
  places : Nat
  symbol : String

def Unit.second : Unit := ⟨nanosPerSecond, 9, "s"⟩

def Unit.milli : Unit := ⟨nanosPerMilli, 6, "ms"⟩

def Unit.micro : Unit := ⟨1000, 3, "µs"⟩

def Unit.nano : Unit := ⟨1, 0, "ns"⟩

def unit (d : Duration) : Unit :=
  if nanosPerSecond ≤ d.nanos then .second
  else if nanosPerMilli ≤ d.nanos then .milli
  else if 1000 ≤ d.nanos then .micro
  else .nano

def exactText (d : Duration) : String :=
  let u := d.unit
  toString (d.nanos / u.nanos)
    ++ String.ofList (Text.fraction (Text.dropTrailingZeros (Text.fixedDigits u.places d.nanos)))
    ++ u.symbol

/-- Quotient to the nearest whole number, a half to the even one. -/
def roundDiv (n m : Nat) : Nat :=
  let q := n / m
  let twice := 2 * (n % m)
  if twice < m || (twice == m && q % 2 == 0) then q else q + 1

def threePlaceText (d : Duration) : String :=
  let u := d.unit
  let thousandths := roundDiv (d.nanos * 1000) u.nanos
  toString (thousandths / 1000)
    ++ String.ofList (Text.fraction (Text.fixedDigits 3 thousandths))
    ++ u.symbol

end VirtualClock.Duration
