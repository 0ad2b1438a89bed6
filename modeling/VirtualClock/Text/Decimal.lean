/-!
Decimal digits with a fixed number of places, and fractions without their trailing zeros.
-/

namespace VirtualClock.Text

def digitChar (d : Nat) : Char := Char.ofNat (48 + d % 10)

/-- The last `places` decimal digits of `n`, with leading zeros. -/
def fixedDigits : Nat → Nat → List Char
  | 0, _ => []
  | places + 1, n => fixedDigits places (n / 10) ++ [digitChar n]

@[simp] theorem length_fixedDigits (places n : Nat) : (fixedDigits places n).length = places := by
  induction places generalizing n with
  | zero => rfl
  | succ places ih => simp [fixedDigits, ih]

def dropTrailingZeros (digits : List Char) : List Char :=
  (digits.reverse.dropWhile (· == '0')).reverse

/-- The part of a decimal number after its point, point included; nothing without digits. -/
def fraction (digits : List Char) : List Char :=
  if digits.isEmpty then [] else '.' :: digits

end VirtualClock.Text
