import RoleResolution.Definition
import RoleResolution.Text.Quoted

/-!
# Definitions as diagnostic text

The text shows every part of a definition but the caller's functions, for which two dots stand.
Structures have named parts in braces, lists stand in brackets and kinds appear by name.
-/

namespace RoleResolution

namespace Diagnostic

/-- A structure with its parts; `isOpen` says that some parts are not shown. -/
def record (name : String) (parts : List (String × String)) (isOpen : Bool) : String :=
  let shown := parts.map fun part ↦ part.1 ++ ": " ++ part.2
  name ++ " \x7b " ++ ", ".intercalate (shown ++ if isOpen then [".."] else []) ++ " \x7d"

/-- A list of parts. -/
def list (parts : List String) : String := "[" ++ ", ".intercalate parts ++ "]"

/-- A truth value. -/
def flag (b : Bool) : String := if b then "true" else "false"

end Diagnostic

/-- The diagnostic text of an attribute rule. -/
def AttributeRule.diagnostic {κ : Type} (K : KindSet κ) (rule : AttributeRule κ) : String :=
  Diagnostic.record "AttributeRule" [("provided_field", Text.quoted rule.providedField),
    ("required_field", Text.quoted rule.requiredField),
    ("provided_kind", K.name rule.providedKind)] false

/-- The diagnostic text of a guard. -/
def GuardKey.diagnostic (guard : GuardKey) : String :=
  Diagnostic.record "GuardKey" [("provided_field", Text.quoted guard.providedField),
    ("required_field", Text.quoted guard.requiredField)] false

/-- The diagnostic text of a delegated predicate. -/
def DelegatedPredicate.diagnostic {κ : Type} (K : KindSet κ) (rule : DelegatedPredicate κ) :
    String :=
  Diagnostic.record "DelegatedPredicate" [("provided_kind", K.name rule.providedKind),
    ("guards", Diagnostic.list (rule.guards.map GuardKey.diagnostic))] true

/-- The diagnostic text of a conversion. -/
def ConversionRule.diagnostic {κ : Type} (K : KindSet κ) (rule : ConversionRule κ) : String :=
  Diagnostic.record "ConversionRule" [("target_kind", K.name rule.targetKind)] true

/-- The diagnostic text of a schema. -/
def schemaDiagnostic : Option FieldSet → String
  | none => "None"
  | some fields => "Some(\x7b" ++ ", ".intercalate (fields.names.map Text.quoted) ++ "\x7d)"

/-- The diagnostic text of a definition. -/
def RoleDefinition.diagnostic {κ : Type} (K : KindSet κ) (d : RoleDefinition κ) : String :=
  Diagnostic.record "RoleDefinition" [("kind", K.name d.kind),
    ("fields", schemaDiagnostic d.schema),
    ("unconditional_pass", Diagnostic.list (d.passes.map K.name)),
    ("attribute_rules", Diagnostic.list (d.attributeRules.map (·.diagnostic K))),
    ("delegated_predicates", Diagnostic.list (d.delegated.map (·.diagnostic K))),
    ("conversions", Diagnostic.list (d.conversions.map (·.diagnostic K))),
    ("log", Diagnostic.flag d.logging)] false

end RoleResolution
