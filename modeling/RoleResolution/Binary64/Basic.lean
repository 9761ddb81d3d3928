/-!
# Finite binary64 numbers

A finite binary64 number is a sign and a whole number of steps of `2 ^ -1074`, the least
positive magnitude of the format. Every operation is exact arithmetic on that number of
steps followed by one rounding to 53 significant bits, a half going to the even neighbour.
A result of magnitude `2 ^ 1024` or more has no finite form and is reported as `none`.
-/

namespace RoleResolution

/-- A finite binary64 number: its sign and its magnitude in steps of `2 ^ -1074`. -/
structure Binary64 where
  /-- Whether the sign is minus; zero has both signs. -/
  negative : Bool
  /-- The magnitude, in steps of `2 ^ -1074`. -/
  steps : Nat
  deriving DecidableEq, Repr

namespace Binary64

/-- The number of steps in one. -/
def stepsPerOne : Nat := Nat.pow 2 1074

/-- The least number of steps that is too large to be finite. -/
def stepLimit : Nat := Nat.pow 2 2098

/-- Positive zero. -/
def zero : Binary64 := ⟨false, 0⟩

/-- Whether the magnitude is zero. -/
def isZero (x : Binary64) : Bool := x.steps == 0

/-- The number of the other sign. -/
def neg (x : Binary64) : Binary64 := ⟨!x.negative, x.steps⟩

/-- The whole number nearest to `num / den`; a half goes to the even neighbour. -/
def roundQuotient (num den : Nat) : Nat :=
  let quotient := num / den
  let twice := 2 * (num % den)
  if twice < den then quotient
  else if den < twice then quotient + 1
  else quotient + quotient % 2

/-- The distance between neighbours of the format at a magnitude of `steps`. -/
def spacing (steps : Nat) : Nat := Nat.pow 2 (steps.log2 - 52)

/-- The number nearest to `num / den`, or `none` when that is not finite. -/
def ofRatio? (negative : Bool) (num den : Nat) : Option Binary64 :=
  let gap := spacing (num * stepsPerOne / den)
  let steps := roundQuotient (num * stepsPerOne) (den * gap) * gap
  if steps < stepLimit then some ⟨negative, steps⟩ else none

/-- The number nearest to a whole number. -/
def ofNat? (n : Nat) : Option Binary64 := ofRatio? false n 1

/-- The rounded product. -/
def mul? (x y : Binary64) : Option Binary64 :=
  ofRatio? (x.negative != y.negative) (x.steps * y.steps) (stepsPerOne * stepsPerOne)

/-- The rounded quotient; there is none by zero. -/
def div? (x y : Binary64) : Option Binary64 :=
  if y.isZero then none
  else ofRatio? (x.negative != y.negative) x.steps y.steps

/-- Numerical equality: the two zeros are equal. -/
def beq (x y : Binary64) : Bool :=
  x.steps == y.steps && (x.negative == y.negative || x.steps == 0)

instance : BEq Binary64 := ⟨beq⟩

/-- Numerical equality, spelled out on sign and magnitude. -/
theorem beq_iff (x y : Binary64) :
    (x == y) = true ↔ x.steps = y.steps ∧ (x.negative = y.negative ∨ x.steps = 0) := by
  change beq x y = true ↔ _
  simp [beq]

/-- Every finite number equals itself. -/
theorem beq_refl (x : Binary64) : (x == x) = true := by
  simp [beq_iff]

end Binary64
end RoleResolution
