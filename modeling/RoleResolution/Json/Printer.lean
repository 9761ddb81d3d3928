import RoleResolution.Binary64.Decimal
import RoleResolution.Json.Value

/-!
# JSON values as text

The printer writes compact text: no white space, members in the order they are listed. Strings
escape the quote, the backslash and the control characters below the blank, by the
two-character escape where there is one. Floats use the shortest decimal that reads back,
positional from `10 ^ -5` up to below `10 ^ 16` and scientific elsewhere, always with a point or
an exponent.
-/

namespace RoleResolution

namespace Binary64

/-- A run of zeros. -/
def zeros (count : Nat) : List Char := List.replicate count '0'

/-- The text of a decimal whose coefficient has no trailing zero: with a point, or with an
exponent that always has its sign. -/
def decimalText (d : Decimal) : List Char :=
  let digits := Digit.decimal d.coefficient
  let place := d.exponent + digits.length
  if 0 ≤ d.exponent ∧ place ≤ 16 then
    digits ++ zeros d.exponent.toNat ++ ['.', '0']
  else if 0 < place ∧ place ≤ 16 then
    digits.take place.toNat ++ '.' :: digits.drop place.toNat
  else if -5 < place ∧ place ≤ 0 then
    '0' :: '.' :: zeros (-place).toNat ++ digits
  else
    let mantissa := match digits with
      | [] => []
      | [d] => [d]
      | d :: rest => d :: '.' :: rest
    let sign := if place - 1 < 0 then '-' else '+'
    mantissa ++ 'e' :: sign :: Digit.decimal (place - 1).natAbs

/-- The text of a finite number. -/
def text (x : Binary64) : List Char :=
  let magnitude := if x.isZero then ['0', '.', '0'] else decimalText (shortest x.steps)
  if x.negative then '-' :: magnitude else magnitude

end Binary64

namespace JsonNumber

/-- The decimal text of an integer. -/
def integerText : Int → List Char
  | .ofNat n => Digit.decimal n
  | .negSucc n => '-' :: Digit.decimal (n + 1)

/-- The text of a number. -/
def text : JsonNumber → List Char
  | .integer n => integerText n
  | .float x => x.text

end JsonNumber

namespace Json

/-- The lower-case hexadecimal digit of a value below sixteen. -/
def hexDigit (n : Nat) : Char :=
  if n < 10 then Char.ofNat ('0'.toNat + n) else Char.ofNat ('a'.toNat + (n - 10))

/-- A character as it stands in a quoted string. -/
def escapeChar (c : Char) : List Char :=
  if c = '"' then ['\\', '"']
  else if c = '\\' then ['\\', '\\']
  else if c = '\x08' then ['\\', 'b']
  else if c = '\x0c' then ['\\', 'f']
  else if c = '\n' then ['\\', 'n']
  else if c = '\r' then ['\\', 'r']
  else if c = '\t' then ['\\', 't']
  else if c < ' ' then
    ['\\', 'u', '0', '0', hexDigit (c.toNat / 16), hexDigit (c.toNat % 16)]
  else [c]

/-- A string in quotes. -/
def quote (s : String) : List Char := '"' :: s.toList.flatMap escapeChar ++ ['"']

mutual

/-- The characters of a value's compact text. -/
def chars : Json → List Char
  | .null => ['n', 'u', 'l', 'l']
  | .bool true => ['t', 'r', 'u', 'e']
  | .bool false => ['f', 'a', 'l', 's', 'e']
  | .number n => n.text
  | .string s => quote s
  | .array items => '[' :: charsOfItems items ++ [']']
  | .object fields => '{' :: charsOfFields fields ++ ['}']

/-- The items of an array, separated by commas. -/
def charsOfItems : List Json → List Char
  | [] => []
  | item :: rest => item.chars ++ charsOfMoreItems rest

/-- Further items, each after its comma. -/
def charsOfMoreItems : List Json → List Char
  | [] => []
  | item :: rest => ',' :: item.chars ++ charsOfMoreItems rest

/-- The fields of an object, separated by commas. -/
def charsOfFields : List (String × Json) → List Char
  | [] => []
  | (name, v) :: rest => quote name ++ ':' :: v.chars ++ charsOfMoreFields rest

/-- Further fields, each after its comma. -/
def charsOfMoreFields : List (String × Json) → List Char
  | [] => []
  | (name, v) :: rest => ',' :: quote name ++ ':' :: v.chars ++ charsOfMoreFields rest

end

/-- The compact text of a value. -/
def text (v : Json) : String := String.ofList v.chars

end Json
end RoleResolution
