import RoleResolution.Json.Value

/-!
# Role payloads

A payload is the attribute bag of a role: canonical JSON values under field names, in name
order. Equality is structural, so the order of the writes and overwritten values leave no
trace. The unit payload has no fields.
-/

namespace RoleResolution

/-- A value that a payload field can hold: a JSON value in canonical form. -/
structure Attribute where
  value : Json
  canonical : value.Canonical

namespace Attribute

/-- The attribute of a JSON value, if that is in canonical form. -/
def ofJson? (v : Json) : Option Attribute :=
  if h : v.Canonical then some ⟨v, h⟩ else none

instance : BEq Attribute := ⟨fun a b ↦ a.value == b.value⟩

/-- Attributes with the same value are the same. -/
@[ext]
theorem ext {a b : Attribute} (h : a.value = b.value) : a = b := by
  cases a
  cases b
  cases h
  rfl

end Attribute

/-- The attribute bag of a role. -/
structure Payload where
  fields : FieldMap Attribute

namespace Payload

/-- The payload without fields, which roles without attributes carry. -/
def unit : Payload := ⟨.empty⟩

/-- Write a field, replacing an earlier value. -/
def set (p : Payload) (field : String) (value : Attribute) : Payload :=
  ⟨p.fields.insert field value⟩

/-- Remove a field. -/
def erase (p : Payload) (field : String) : Payload := ⟨p.fields.erase field⟩

/-- The value of a field. -/
def get? (p : Payload) (field : String) : Option Attribute := p.fields.get? field

/-- Whether a field is present. -/
def contains (p : Payload) (field : String) : Bool := p.fields.contains field

/-- The field names, in order. -/
def names (p : Payload) : List String := p.fields.names

/-- The number of fields. -/
def size (p : Payload) : Nat := p.fields.size

/-- Whether there are no fields. -/
def isUnit (p : Payload) : Bool := p.fields.entries.isEmpty

/-- Whether `field` of `p` and `otherField` of `other` are both present and equal. -/
def fieldMatches (p : Payload) (field : String) (other : Payload) (otherField : String) :
    Bool :=
  match p.get? field, other.get? otherField with
  | some a, some b => a == b
  | _, _ => false

instance : BEq Payload := ⟨fun p q ↦ p.fields == q.fields⟩

/-- The payload as a JSON object. -/
def toJson (p : Payload) : Json :=
  .object (p.fields.entries.map fun e ↦ (e.1, e.2.value))

/-- The fields of a canonical object as attributes. -/
def attributes : (fields : List (String × Json)) → Json.CanonicalFields fields →
    List (String × Attribute)
  | [], _ => []
  | (name, v) :: rest, h => (name, ⟨v, h.1⟩) :: attributes rest h.2

/-- Attributes keep names and values. -/
theorem map_attributes : ∀ (fields : List (String × Json)) (h : Json.CanonicalFields fields),
    (attributes fields h).map (fun e ↦ (e.1, e.2.value)) = fields
  | [], _ => rfl
  | (_, _) :: rest, h => by simp [attributes, map_attributes rest h.2]

/-- Attributes keep the order of names. -/
theorem fieldsSorted_attributes {fields : List (String × Json)}
    (h : Json.CanonicalFields fields) (hs : FieldsSorted fields) :
    FieldsSorted (attributes fields h) := by
  rw [← map_attributes fields h] at hs
  unfold FieldsSorted at hs ⊢
  rwa [List.pairwise_map] at hs

/-- The payload of an object; other values have none. -/
def ofAttribute? : Attribute → Option Payload
  | ⟨.object fields, h⟩ => some ⟨⟨attributes fields h.2, fieldsSorted_attributes h.2 h.1⟩⟩
  | _ => none

/-- Two payloads with the same field map are the same. -/
@[ext]
theorem ext {p q : Payload} (h : p.fields = q.fields) : p = q := by
  cases p
  cases q
  cases h
  rfl

end Payload
end RoleResolution
