import RoleResolution.Conversion.Graph
import RoleResolution.Event

/-!
# Registries

A registry holds one definition per kind of a closed set, by index. Roles made by the registry
have exactly the fields that the schema of their kind declares.
-/

namespace RoleResolution

/-- The definitions of the kinds of a closed set, by index. -/
structure Registry {κ : Type} (K : KindSet κ) where
  definitions : List (RoleDefinition κ)

/-- Why a payload does not make a role of a kind. -/
inductive SchemaError (κ : Type) where
  | missingField (kind : κ) (field : String)
  | undeclaredField (kind : κ) (field : String)
  deriving DecidableEq, Repr

/-- The wording of the error. -/
def SchemaError.message {κ : Type} (K : KindSet κ) : SchemaError κ → String
  | missingField kind field =>
    "Invalid input: Role " ++ K.name kind ++ " is missing field '" ++ field ++ "'"
  | undeclaredField kind field =>
    "Invalid input: Role " ++ K.name kind ++ " has no field '" ++ field ++ "'"

/-- The first declared field that a payload lacks, or else the first field that it has beyond
the schema. -/
def schemaError? {κ : Type} (schema : FieldSet) (kind : κ) (payload : Payload) :
    Option (SchemaError κ) :=
  match schema.names.find? fun field ↦ !payload.contains field with
  | some field => some (.missingField kind field)
  | none =>
    (payload.names.find? fun field ↦ !schema.contains field).map (.undeclaredField kind)

namespace Registry

variable {κ : Type} {K : KindSet κ} (R : Registry K)

/-- The definition at the index of a kind. -/
def lookup (kind : κ) : Except Fault (RoleDefinition κ) :=
  match R.definitions[K.index kind]? with
  | some d => .ok d
  | none => .error .indexOutOfRange

/-- The number of definitions. -/
def kindCount : Nat := R.definitions.length

/-- The conversion graph of the definitions. -/
def graph [DecidableEq κ] : ConversionGraph κ := .ofDefinitions R.definitions

/-- The role of a kind with a payload that fits the schema of the kind, and the events of
making it. A kind without a schema takes any payload. -/
def role (kind : κ) (payload : Payload) :
    Except (Failure (SchemaError κ)) (Role κ) × List (Event κ) :=
  match R.lookup kind with
  | .error fault => (.error (.fault fault), [])
  | .ok d =>
    match d.schema.bind fun schema ↦ schemaError? schema kind payload with
    | some e => (.error (.error e), [])
    | none => (.ok ⟨kind, payload⟩, [.roleConstructed ⟨kind, payload⟩])

/-- The role of a kind with the unit payload. -/
def unitRole (kind : κ) : Except (Failure (SchemaError κ)) (Role κ) × List (Event κ) :=
  R.role kind .unit

end Registry
end RoleResolution
