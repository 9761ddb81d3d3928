import RoleResolution.Role.Value

/-!
# Role definitions

A definition holds the rules of one role kind, each family in declaration order: the kinds
that always pass, the attribute rules, the delegated predicates with their guards, and the
conversions of the kind into others. It may also declare the fields of the kind's payloads.

Predicates and conversions are supplied by a caller. A caller may keep state between their
invocations, so they see the history of invocations so far besides their arguments. A function
whose answers do not depend on the history is deterministic.
-/

namespace RoleResolution

/-- One invocation of a caller's function, with its answer. The owner is the kind whose
definition holds the rule, and the index is the rule's position among its family there. -/
inductive Invocation (κ : Type) where
  | predicate (owner : κ) (index : Nat) (provided required : Payload) (answer : Bool)
  | conversion (owner : κ) (index : Nat) (payload : Payload) (answer : Option Payload)

/-- The invocations so far, in order. -/
abbrev History (κ : Type) := List (Invocation κ)

/-- A caller's predicate on the provided and the required payload. -/
abbrev Predicate (κ : Type) := History κ → Payload → Payload → Bool

/-- A caller's conversion of a payload; it answers `none` when the payload is not eligible. -/
abbrev Conversion (κ : Type) := History κ → Payload → Option Payload

/-- A role of `providedKind` satisfies the owner of the rule when its `providedField` equals
the `requiredField` of the required role. -/
structure AttributeRule (κ : Type) where
  providedField : String
  requiredField : String
  providedKind : κ
  deriving DecidableEq, Repr

/-- Whether the rule's two fields are present and equal. -/
def AttributeRule.holds {κ : Type} (rule : AttributeRule κ) (provided required : Payload) :
    Bool :=
  provided.fieldMatches rule.providedField required rule.requiredField

/-- An equality of two fields that a delegated predicate asks for beforehand. -/
structure GuardKey where
  providedField : String
  requiredField : String
  deriving DecidableEq, Repr

/-- Whether the guard's two fields are present and equal. -/
def GuardKey.holds (guard : GuardKey) (provided required : Payload) : Bool :=
  provided.fieldMatches guard.providedField required guard.requiredField

/-- A caller's predicate on roles of `providedKind`, behind its guards. -/
structure DelegatedPredicate (κ : Type) where
  providedKind : κ
  guards : List GuardKey
  predicate : Predicate κ

/-- Whether every guard holds. -/
def DelegatedPredicate.guardsHold {κ : Type} (rule : DelegatedPredicate κ)
    (provided required : Payload) : Bool :=
  rule.guards.all fun guard ↦ guard.holds provided required

/-- An offer to express the owner of the rule as a role of `targetKind`. -/
structure ConversionRule (κ : Type) where
  targetKind : κ
  conversion : Conversion κ

/-- The families of rules, as messages name them. -/
inductive RuleFamily where
  | unconditionalPass
  | attributeRule
  | delegatedPredicate
  | conversion
  deriving DecidableEq, Repr

/-- The name of a family in messages. -/
def RuleFamily.label : RuleFamily → String
  | .unconditionalPass => "unconditional pass"
  | .attributeRule => "attribute rule"
  | .delegatedPredicate => "delegated predicate"
  | .conversion => "conversion"

/-- The rules of one role kind. -/
structure RoleDefinition (κ : Type) where
  kind : κ
  /-- The fields that payloads of the kind have; without a schema any will do. -/
  schema : Option FieldSet
  /-- The kinds whose roles always satisfy this one. -/
  passes : List κ
  attributeRules : List (AttributeRule κ)
  delegated : List (DelegatedPredicate κ)
  conversions : List (ConversionRule κ)
  /-- Whether checks that involve the kind are logged in full. -/
  logging : Bool

namespace RoleDefinition

variable {κ : Type}

/-- The definition of a kind without schema and rules. -/
def ofKind (kind : κ) : RoleDefinition κ := ⟨kind, none, [], [], [], [], false⟩

/-- Declare the fields of the kind, in place of an earlier declaration. -/
def withFields (d : RoleDefinition κ) (names : List String) : RoleDefinition κ :=
  { d with schema := some (FieldSet.ofNames names) }

/-- Declare that the kind has no fields. -/
def withoutFields (d : RoleDefinition κ) : RoleDefinition κ := { d with schema := some .empty }

/-- Let every role of a kind pass. -/
def withPass [DecidableEq κ] (d : RoleDefinition κ) (kind : κ) : RoleDefinition κ :=
  if kind ∈ d.passes then d else { d with passes := d.passes ++ [kind] }

/-- Add an attribute rule. -/
def withAttributeRule (d : RoleDefinition κ) (rule : AttributeRule κ) : RoleDefinition κ :=
  { d with attributeRules := d.attributeRules ++ [rule] }

/-- Add a delegated predicate. -/
def withDelegated (d : RoleDefinition κ) (rule : DelegatedPredicate κ) : RoleDefinition κ :=
  { d with delegated := d.delegated ++ [rule] }

/-- Add a conversion. -/
def withConversion (d : RoleDefinition κ) (rule : ConversionRule κ) : RoleDefinition κ :=
  { d with conversions := d.conversions ++ [rule] }

/-- Say whether checks that involve the kind are logged in full. -/
def withLogging (d : RoleDefinition κ) (enabled : Bool) : RoleDefinition κ :=
  { d with logging := enabled }

/-- Whether the schema declares a field; without a schema every field counts as declared. -/
def declares (d : RoleDefinition κ) (field : String) : Bool :=
  match d.schema with
  | none => true
  | some fields => fields.contains field

/-- Whether every role of a kind passes. -/
def passesKind [DecidableEq κ] (d : RoleDefinition κ) (kind : κ) : Bool := kind ∈ d.passes

/-- Every kind that a rule refers to, family by family in declaration order. -/
def references (d : RoleDefinition κ) : List (RuleFamily × κ) :=
  d.passes.map (.unconditionalPass, ·) ++
    d.attributeRules.map (.attributeRule, ·.providedKind) ++
    d.delegated.map (.delegatedPredicate, ·.providedKind) ++
    d.conversions.map (.conversion, ·.targetKind)

end RoleDefinition
end RoleResolution
