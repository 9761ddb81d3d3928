import RoleResolution.Binary64.Basic
import RoleResolution.FieldMap

/-!
# JSON values

A `Json` value is what a JSON text means. Integers and floats are two kinds of number that are
never equal to each other; equality within a kind is numerical. A value is canonical when its
integers fit 64 bits, signed or unsigned, and every object lists its names in strictly
increasing order. Canonical objects are equal whenever they hold equal values under equal
names.
-/

namespace RoleResolution

/-- A JSON number. -/
inductive JsonNumber where
  | integer (value : Int)
  | float (value : Binary64)
  deriving DecidableEq, Repr

namespace JsonNumber

/-- Numerical equality within a kind of number. -/
def beq : JsonNumber → JsonNumber → Bool
  | .integer m, .integer n => m == n
  | .float x, .float y => x == y
  | _, _ => false

instance : BEq JsonNumber := ⟨beq⟩

/-- The integers of 64 bits, signed or unsigned. -/
def InRange (n : Int) : Prop := -Nat.pow 2 63 ≤ n ∧ n < Nat.pow 2 64

instance (n : Int) : Decidable (InRange n) := inferInstanceAs (Decidable (_ ∧ _))

/-- Every number equals itself. -/
theorem beq_refl (n : JsonNumber) : (n == n) = true := by
  change beq n n = true
  cases n with
  | integer n => simp [beq]
  | float x => exact Binary64.beq_refl x

end JsonNumber

/-- A JSON value. -/
inductive Json where
  | null
  | bool (value : Bool)
  | number (value : JsonNumber)
  | string (value : String)
  | array (items : List Json)
  | object (fields : List (String × Json))
  deriving Repr

namespace Json

/-- The integer `n`. -/
def ofInt (n : Int) : Json := .number (.integer n)

/-- The natural number `n`. -/
def ofNat (n : Nat) : Json := .ofInt n

mutual

/-- Equality of values. -/
def beq : Json → Json → Bool
  | .null, .null => true
  | .bool a, .bool b => a == b
  | .number a, .number b => a == b
  | .string a, .string b => a == b
  | .array a, .array b => beqItems a b
  | .object a, .object b => beqFields a b
  | _, _ => false

/-- Equality of item lists, item by item. -/
def beqItems : List Json → List Json → Bool
  | [], [] => true
  | a :: as, b :: bs => a.beq b && beqItems as bs
  | _, _ => false

/-- Equality of field lists, field by field. -/
def beqFields : List (String × Json) → List (String × Json) → Bool
  | [], [] => true
  | (m, a) :: as, (n, b) :: bs => m == n && a.beq b && beqFields as bs
  | _, _ => false

end

instance : BEq Json := ⟨beq⟩

mutual

/-- Integers fit 64 bits and every object has strictly increasing names. -/
def Canonical : Json → Prop
  | .null | .bool _ | .string _ => True
  | .number (.integer n) => JsonNumber.InRange n
  | .number (.float _) => True
  | .array items => CanonicalItems items
  | .object fields => FieldsSorted fields ∧ CanonicalFields fields

/-- Every item is canonical. -/
def CanonicalItems : List Json → Prop
  | [] => True
  | item :: rest => item.Canonical ∧ CanonicalItems rest

/-- Every field holds a canonical value. -/
def CanonicalFields : List (String × Json) → Prop
  | [] => True
  | (_, value) :: rest => value.Canonical ∧ CanonicalFields rest

end

mutual

/-- Being canonical can be decided. -/
def decideCanonical : (v : Json) → Decidable v.Canonical
  | .null | .bool _ | .string _ | .number (.float _) => .isTrue trivial
  | .number (.integer n) => inferInstanceAs (Decidable (JsonNumber.InRange n))
  | .array items => decideCanonicalItems items
  | .object fields =>
    have := decideCanonicalFields fields
    inferInstanceAs (Decidable (FieldsSorted fields ∧ CanonicalFields fields))

/-- Whether every item is canonical can be decided. -/
def decideCanonicalItems : (items : List Json) → Decidable (CanonicalItems items)
  | [] => .isTrue trivial
  | item :: rest =>
    have := decideCanonical item
    have := decideCanonicalItems rest
    inferInstanceAs (Decidable (item.Canonical ∧ CanonicalItems rest))

/-- Whether every field holds a canonical value can be decided. -/
def decideCanonicalFields : (fields : List (String × Json)) →
    Decidable (CanonicalFields fields)
  | [] => .isTrue trivial
  | (_, value) :: rest =>
    have := decideCanonical value
    have := decideCanonicalFields rest
    inferInstanceAs (Decidable (value.Canonical ∧ CanonicalFields rest))

end

instance (v : Json) : Decidable v.Canonical := decideCanonical v

/-- An item list is canonical exactly when all its members are. -/
theorem canonicalItems_iff {items : List Json} :
    CanonicalItems items ↔ ∀ v ∈ items, v.Canonical := by
  induction items with
  | nil => simp [CanonicalItems]
  | cons v rest ih => simp [CanonicalItems, ih]

/-- A field list is canonical exactly when all its values are. -/
theorem canonicalFields_iff {fields : List (String × Json)} :
    CanonicalFields fields ↔ ∀ f ∈ fields, f.2.Canonical := by
  induction fields with
  | nil => simp [CanonicalFields]
  | cons f rest ih => simp [CanonicalFields, ih]

mutual

/-- Every value equals itself; a float cannot be `NaN`. -/
theorem beq_refl : ∀ v : Json, v.beq v = true
  | .null => rfl
  | .bool b => by simp [beq]
  | .number n => by simpa [beq] using JsonNumber.beq_refl n
  | .string s => by simp [beq]
  | .array items => by simpa [beq] using beqItems_refl items
  | .object fields => by simpa [beq] using beqFields_refl fields

/-- Every item list equals itself. -/
theorem beqItems_refl : ∀ items : List Json, beqItems items items = true
  | [] => rfl
  | v :: rest => by simp [beqItems, beq_refl v, beqItems_refl rest]

/-- Every field list equals itself. -/
theorem beqFields_refl : ∀ fields : List (String × Json), beqFields fields fields = true
  | [] => rfl
  | (_, v) :: rest => by simp [beqFields, beq_refl v, beqFields_refl rest]

end

end Json
end RoleResolution
