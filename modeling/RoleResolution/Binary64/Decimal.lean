import RoleResolution.Binary64.Basic
import RoleResolution.Digit

/-!
# Binary64 numbers and decimal numerals

Two directions. `ofDecimal?` is the number nearest to `coefficient * 10 ^ exponent`.
`shortest` is the decimal with the fewest significant digits that still rounds to a given
number; among those of one length it is the nearest one, an exact tie going to the even
coefficient.
-/

namespace RoleResolution

/-- The number `coefficient * 10 ^ exponent`. -/
structure Decimal where
  coefficient : Nat
  exponent : Int
  deriving DecidableEq, Repr

namespace Decimal

/-- The decimal digits of a whole number; zero has one digit. -/
def digitCount (n : Nat) : Nat := (Digit.decimal n).length

/-- Move factors of ten from the coefficient to the exponent, at most `limit` of them. -/
def dropZeros : Nat → Decimal → Decimal
  | 0, d => d
  | limit + 1, d =>
    if d.coefficient ≠ 0 ∧ d.coefficient % 10 = 0 then
      dropZeros limit ⟨d.coefficient / 10, d.exponent + 1⟩
    else d

/-- Split a sign off the start of a numeral; the flag says whether it is a minus sign. -/
def splitSign : List Char → Bool × List Char
  | '-' :: rest => (true, rest)
  | '+' :: rest => (false, rest)
  | rest => (false, rest)

/-- Read an exponent: nothing, or a mark, an optional sign and digits. -/
def exponent? : List Char → Option Int
  | [] => some 0
  | mark :: rest =>
    let (negative, digits) := splitSign rest
    if (mark == 'e' || mark == 'E') && !digits.isEmpty && digits.all Char.isDigit then
      some (if negative then -Digit.ofDecimal digits else Digit.ofDecimal digits)
    else none

/-- Read a decimal numeral and its sign: digits with an optional point among or around them
and an optional exponent. There is at least one digit beside the point. -/
def ofText? (text : String) : Option (Bool × Decimal) := do
  let (negative, chars) := splitSign text.toList
  let whole := chars.takeWhile Char.isDigit
  let (fraction, rest) := match chars.dropWhile Char.isDigit with
    | '.' :: rest => (rest.takeWhile Char.isDigit, rest.dropWhile Char.isDigit)
    | rest => ([], rest)
  if whole.isEmpty && fraction.isEmpty then none
  else
    let exponent ← exponent? rest
    some (negative, ⟨Digit.ofDecimal (whole ++ fraction), exponent - fraction.length⟩)

end Decimal

namespace Binary64

/-- The number nearest to a decimal, or `none` when that is not finite.
Decimals far outside the range are settled by their order of magnitude. -/
def ofDecimal? (negative : Bool) (d : Decimal) : Option Binary64 :=
  let top := d.exponent + Decimal.digitCount d.coefficient
  if d.coefficient = 0 ∨ top < -330 then some ⟨negative, 0⟩
  else if 320 < top then none
  else match d.exponent with
    | .ofNat e => ofRatio? negative (d.coefficient * Nat.pow 10 e) 1
    | .negSucc e => ofRatio? negative d.coefficient (Nat.pow 10 (e + 1))

/-- Read a decimal numeral as the nearest number. The inner result is `none` when that is not
finite, as it is for the names of infinity and of no number. -/
def ofText? (text : String) : Option (Option Binary64) :=
  let name := text.map Char.toLower
  if name ∈ ["nan", "+nan", "-nan", "inf", "+inf", "-inf", "infinity", "+infinity", "-infinity"]
  then some none
  else (Decimal.ofText? text).map fun (negative, d) ↦ ofDecimal? negative d

/-- The place of the leading digit: a positive magnitude `x` lies between
`10 ^ (place x - 1)` and `10 ^ place x`. Every positive magnitude exceeds `10 ^ -400`. -/
def place (steps : Nat) : Int :=
  (Decimal.digitCount (steps * Nat.pow 10 400 / stepsPerOne) : Int) - 400

/-- Whether `coefficient * den`, with `num / den` the exact magnitude in grid units, lies among
the reals that round to a magnitude of `steps`; `scale` is one step in units of `num`.
The two ends belong to that interval exactly when the significand is even. -/
def roundsTo (steps scale num den coefficient : Nat) : Bool :=
  let gap := spacing steps
  let above := 2 * gap * scale
  let below := if steps = Nat.pow 2 steps.log2 ∧ 1 < gap then gap * scale else above
  let closed := steps / gap % 2 == 0
  let value := coefficient * den
  if num ≤ value then
    4 * (value - num) < above || (closed && 4 * (value - num) == above)
  else
    4 * (num - value) < below || (closed && 4 * (num - value) == below)

/-- The decimal of `count` significant digits nearest to a magnitude among those that round
to it, if there is one. -/
def shortestWithin? (steps count : Nat) : Option Decimal :=
  let exponent := place steps - count
  let (scale, den) := match exponent with
    | .ofNat e => (1, stepsPerOne * Nat.pow 10 e)
    | .negSucc e => (Nat.pow 10 (e + 1), stepsPerOne)
  let num := steps * scale
  let low := num / den
  let high := low + 1
  let fits := roundsTo steps scale num den
  match fits low, fits high with
  | true, true =>
    let lowError := num - low * den
    let highError := high * den - num
    if lowError < highError then some ⟨low, exponent⟩
    else if highError < lowError then some ⟨high, exponent⟩
    else if low % 2 = 0 then some ⟨low, exponent⟩
    else some ⟨high, exponent⟩
  | true, false => some ⟨low, exponent⟩
  | false, true => some ⟨high, exponent⟩
  | false, false => none

/-- The shortest decimal that rounds to a magnitude. Seventeen digits always suffice. -/
def shortest (steps : Nat) : Decimal :=
  let found := (List.range' 1 17).findSome? (shortestWithin? steps)
  Decimal.dropZeros 18 (found.getD ⟨0, 0⟩)

end Binary64
end RoleResolution
