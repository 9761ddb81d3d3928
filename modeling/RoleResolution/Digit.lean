/-!
# Digits

Reading and spelling of natural numbers in a base up to sixteen, the letters standing for the
digits from ten on.
-/

namespace RoleResolution.Digit

/-- The value of a decimal digit. -/
def value (c : Char) : Nat := c.toNat - '0'.toNat

/-- The value of a hexadecimal digit, with letters of either case. -/
def hexValue? (c : Char) : Option Nat :=
  if c.isDigit then some (value c)
  else if 'a' ≤ c ∧ c ≤ 'f' then some (c.toNat - 'a'.toNat + 10)
  else if 'A' ≤ c ∧ c ≤ 'F' then some (c.toNat - 'A'.toNat + 10)
  else none

/-- The number that digits spell in a base, the leading digit first. -/
def toNat (base : Nat) (digits : List Nat) : Nat :=
  digits.foldl (fun n d ↦ base * n + d) 0

/-- The decimal digits of a number, as text. -/
def decimal (n : Nat) : List Char := Nat.toDigits 10 n

/-- The number that decimal characters spell. -/
def ofDecimal (chars : List Char) : Nat := toNat 10 (chars.map value)

end RoleResolution.Digit
