import RoleResolution.Digit
import RoleResolution.Json.Document
import RoleResolution.Json.Value

/-!
# The value of a JSON numeral

A numeral without point and exponent is an integer if it fits 64 bits, signed or unsigned;
minus zero does not count as an integer. Any other numeral is a float, computed in steps that
each round on their own:

* the digits are gathered into a significand below `2 ^ 64`. A whole digit that no longer fits
  only raises the power of ten, and so do the whole digits after it; from the first digit after
  the point that no longer fits, the rest is dropped;
* the significand is rounded to a float, which is then multiplied or divided by a power of ten,
  itself rounded; beyond the three hundred and eighth power the division is made in several
  steps.

A numeral whose float is not finite has no value.
-/

namespace RoleResolution.Json.Numeral

/-- A gathered significand with its power of ten. -/
structure Scaled where
  significand : Nat
  exponent : Int
  deriving DecidableEq, Repr

/-- The bound on a gathered significand. -/
def significandLimit : Nat := Nat.pow 2 64

/-- The largest power of ten that is one factor. -/
def tenFactorLimit : Nat := 308

/-- The bound on the digits of an exponent; one that reaches it is beyond every range. -/
def exponentLimit : Nat := Nat.pow 2 31

/-- Gather whole digits; once one does not fit, all later ones count as powers of ten. -/
def gatherWhole (significand : Nat) : List Nat → Scaled
  | [] => ⟨significand, 0⟩
  | d :: rest =>
    if 10 * significand + d < significandLimit then gatherWhole (10 * significand + d) rest
    else ⟨significand, (rest.length + 1 : Nat)⟩

/-- Gather digits after the point until one does not fit. -/
def gatherFraction (s : Scaled) : List Nat → Scaled
  | [] => s
  | d :: rest =>
    if 10 * s.significand + d < significandLimit then
      gatherFraction ⟨10 * s.significand + d, s.exponent - 1⟩ rest
    else s

/-- The significand and power of ten before the written exponent is applied. -/
def scaled (n : Numeral) : Scaled :=
  gatherFraction (gatherWhole 0 n.whole) (n.fraction.getD [])

/-- Ten to the `k`, rounded. -/
def tenPower? (k : Nat) : Option Binary64 := Binary64.ofNat? (Nat.pow 10 k)

/-- Divide by ten to the `k`, three hundred and eight powers at a time. -/
def shrink? (x : Binary64) (k : Nat) : Option Binary64 := do
  if k ≤ tenFactorLimit then x.div? (← tenPower? k)
  else if x.isZero then some x
  else shrink? (← x.div? (← tenPower? tenFactorLimit)) (k - tenFactorLimit)
termination_by k
decreasing_by simp only [tenFactorLimit] at *; omega

/-- Multiply by a power of ten. -/
def shift? (x : Binary64) : Int → Option Binary64
  | .ofNat k => do
    if k ≤ tenFactorLimit then x.mul? (← tenPower? k)
    else if x.isZero then some x
    else none
  | .negSucc k => shrink? x (k + 1)

/-- The float of a magnitude, before its sign is applied. -/
def magnitude? (n : Numeral) : Option Binary64 := do
  let s := n.scaled
  match n.exponent with
  | none => shift? (← Binary64.ofNat? s.significand) s.exponent
  | some (negative, digits) =>
    let written := Digit.toNat 10 digits
    if exponentLimit ≤ written then
      if s.significand ≠ 0 ∧ negative = false then none else some Binary64.zero
    else
      let exponent := if negative then s.exponent - written else s.exponent + written
      shift? (← Binary64.ofNat? s.significand) exponent

/-- The float that a numeral denotes. -/
def float? (n : Numeral) : Option Binary64 :=
  n.magnitude?.map fun x ↦ if n.negative then x.neg else x

/-- The integer of a sign and a magnitude, if it fits 64 bits; minus zero is none. -/
def signedInteger? (negative : Bool) (size : Nat) : Option Int :=
  if negative then
    if size ≠ 0 ∧ size ≤ Nat.pow 2 63 then some (-size) else none
  else if size < Nat.pow 2 64 then some size
  else none

/-- The integer that a numeral denotes, if it is one. -/
def integer? (n : Numeral) : Option Int :=
  if n.fraction = none ∧ n.exponent = none then
    signedInteger? n.negative (Digit.toNat 10 n.whole)
  else none

/-- The number that a numeral denotes. -/
def number? (n : Numeral) : Option JsonNumber :=
  match n.integer? with
  | some i => some (.integer i)
  | none => n.float?.map .float

end RoleResolution.Json.Numeral
