import RoleResolution.Binary64.Decimal
import RoleResolution.Toml.Value

/-!
# TOML words: numbers, truth values and date-times

A word is a maximal run of the characters of which these values are made. Underscores may
stand between digits. Integers must fit 64 bits with a sign. A float that is too large is
refused, unless it is negative. A date must exist in the calendar, a time may have a leap
second.
-/

namespace RoleResolution.Toml

/-- A character of a word. -/
def isWordChar (c : Char) : Bool :=
  c.isAlphanum || c == '+' || c == '-' || c == '.' || c == '_' || c == ':'

/-- The value of a digit in a base up to sixteen. -/
def digitValue? (base : Nat) (c : Char) : Option Nat := (Digit.hexValue? c).filter (· < base)

/-- The digits at the start of a word, with underscores between them, and the rest of the word.
At least one digit must be there, and an underscore must be followed by a digit. -/
def takeDigits (base : Nat) : List Char → Option (List Nat × List Char)
  | [] => none
  | c :: rest =>
    match digitValue? base c with
    | none => none
    | some d =>
      match rest with
      | '_' :: more => (takeDigits base more).map fun (ds, tail) ↦ (d :: ds, tail)
      | more =>
        match takeDigits base more with
        | some (ds, tail) => some (d :: ds, tail)
        | none => if (more.head?.bind (digitValue? base)).isSome then none else some ([d], more)

/-- A whole part in decimal: `0`, or digits of which the first is not zero. -/
def takeWhole (word : List Char) : Option (List Nat × List Char) :=
  match word with
  | '0' :: rest => some ([0], rest)
  | _ => takeDigits 10 word

/-- Read an integer without a sign in another base. -/
def basedInteger? (base : Nat) (word : List Char) : Option Value :=
  match takeDigits base word with
  | some (digits, []) => if Digit.toNat base digits < Nat.pow 2 63 then some .integer else none
  | _ => none

/-- Read the exponent of a float: a mark, an optional sign and digits. -/
def exponent? : List Char → Option Int
  | mark :: rest =>
    if mark == 'e' || mark == 'E' then
      let (negative, digits) := Decimal.splitSign rest
      match takeDigits 10 digits with
      | some (ds, []) =>
        let n := Digit.toNat 10 ds
        some (if negative then -n else n)
      | _ => none
    else none
  | [] => none

/-- A decimal float: refused when it is too large and positive. -/
def decimalFloat? (negative : Bool) (whole fraction : List Nat) (exponent : Int) :
    Option Value :=
  let d : Decimal := ⟨Digit.toNat 10 (whole ++ fraction), exponent - fraction.length⟩
  if (Binary64.ofDecimal? negative d).isSome || negative then some .float else none

/-- Read a decimal number. -/
def decimalNumber? (word : List Char) : Option Value :=
  let (negative, digits) := Decimal.splitSign word
  match takeWhole digits with
  | none => none
  | some (whole, []) =>
    let n := Digit.toNat 10 whole
    if n < Nat.pow 2 63 ∨ (negative = true ∧ n = Nat.pow 2 63) then some .integer else none
  | some (whole, '.' :: rest) =>
    match takeDigits 10 rest with
    | none => none
    | some (fraction, []) => decimalFloat? negative whole fraction 0
    | some (fraction, rest) => (exponent? rest).bind (decimalFloat? negative whole fraction)
  | some (whole, rest) => (exponent? rest).bind (decimalFloat? negative whole [])

/-- Read a number. -/
def number? : List Char → Option Value
  | '0' :: 'x' :: rest => basedInteger? 16 rest
  | '0' :: 'o' :: rest => basedInteger? 8 rest
  | '0' :: 'b' :: rest => basedInteger? 2 rest
  | word =>
    let special := (Decimal.splitSign word).2
    if special = ['i', 'n', 'f'] ∨ special = ['n', 'a', 'n'] then some .float
    else decimalNumber? word

/-- Exactly `count` decimal digits at the start of a word, as a number, and the rest. -/
def fixedDigits (count : Nat) (word : List Char) : Option (Nat × List Char) :=
  let digits := word.take count
  if digits.length = count ∧ digits.all Char.isDigit then
    some (Digit.ofDecimal digits, word.drop count)
  else none

/-- A two-digit number between bounds at the start of a word. -/
def boundedPair (low high : Nat) (word : List Char) : Option (Nat × List Char) :=
  (fixedDigits 2 word).filter fun (n, _) ↦ low ≤ n ∧ n ≤ high

/-- Take one of some characters off a word. -/
def takeOne (chars : List Char) : List Char → Option (List Char)
  | c :: rest => if c ∈ chars then some rest else none
  | [] => none

/-- The number of days of a month. -/
def daysInMonth (year month : Nat) : Nat :=
  if month = 2 then
    if year % 4 = 0 ∧ (year % 100 ≠ 0 ∨ year % 400 = 0) then 29 else 28
  else if month = 4 ∨ month = 6 ∨ month = 9 ∨ month = 11 then 30
  else 31

/-- Take a date off a word. -/
def takeDate (word : List Char) : Option (List Char) := do
  let (year, word) ← fixedDigits 4 word
  let word ← takeOne ['-'] word
  let (month, word) ← boundedPair 1 12 word
  let word ← takeOne ['-'] word
  let (_, word) ← boundedPair 1 (daysInMonth year month) word
  some word

/-- Take a time of day off a word. -/
def takeTime (word : List Char) : Option (List Char) := do
  let (_, word) ← boundedPair 0 23 word
  let word ← takeOne [':'] word
  let (_, word) ← boundedPair 0 59 word
  let word ← takeOne [':'] word
  let (_, word) ← boundedPair 0 60 word
  match word with
  | '.' :: rest =>
    if (rest.head?.any Char.isDigit) then some (rest.dropWhile Char.isDigit) else none
  | _ => some word

/-- Take an optional offset from universal time off a word. -/
def takeOffset : List Char → Option (List Char)
  | 'Z' :: rest | 'z' :: rest => some rest
  | '+' :: rest | '-' :: rest => do
    let (_, word) ← boundedPair 0 23 rest
    let word ← takeOne [':'] word
    let (_, word) ← boundedPair 0 59 word
    some word
  | word => some word

/-- Whether a word is a date and nothing else. -/
def isDate (word : List Char) : Bool := takeDate word = some []

/-- Whether a word is a time of day with an optional offset. -/
def isTimeAndOffset (word : List Char) : Bool := (takeTime word).bind takeOffset = some []

/-- Whether a word is a date, a time or both. -/
def isDateTime (word : List Char) : Bool :=
  takeTime word = some [] ||
    match takeDate word with
    | some [] => true
    | some (mark :: rest) => (mark == 'T' || mark == 't') && isTimeAndOffset rest
    | none => false

/-- Read a word. -/
def scalar? (word : List Char) : Option Value :=
  if word = ['t', 'r', 'u', 'e'] then some (.flag true)
  else if word = ['f', 'a', 'l', 's', 'e'] then some (.flag false)
  else if isDateTime word then some .dateTime
  else number? word

end RoleResolution.Toml
