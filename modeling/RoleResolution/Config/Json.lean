import RoleResolution.Config.Reader
import RoleResolution.Json.Reader

/-!
# Configurations as JSON

Only the parts of a JSON text that a configuration uses are given a meaning; the values of
unknown keys merely have to be JSON by grammar.
-/

namespace RoleResolution.Config

/-- The names and data of object members, all names being well formed. -/
def namedMembers? : List (List Json.Piece × Json.Document) →
    Option (List (String × Json.Document))
  | [] => some []
  | (key, d) :: rest => do
    let name ← Json.textOfPieces? key
    let members ← namedMembers? rest
    some ((name, d) :: members)

/-- The shape of a JSON document. -/
def shapeOfDocument? : Json.Document → Option (Shape Json.Document)
  | .bool b => some (.flag b)
  | .string pieces => (Json.textOfPieces? pieces).map .text
  | .object members => (namedMembers? members).map .table
  | .array items => some (.list items)
  | .null | .number _ => some .other

/-- Whether a document is `null`. -/
def isNull : Json.Document → Bool
  | .null => true
  | _ => false

/-- The JSON format: `null` stands beside the name of a policy, and no list goes on after
the last field. -/
def jsonFormat : Format Json.Document := ⟨shapeOfDocument?, isNull, false⟩

/-- Read a configuration from JSON text. -/
def ofJsonText? (text : String) : Option Config := do
  let d ← Json.Document.parse? text
  jsonFormat.config? d

/-- The settings of a resolver as a JSON object. -/
def resolverToJson (c : ResolverConfig) : Json :=
  .object [("cycle_policy", .string c.cyclePolicy.name),
    ("trace_all_kinds", .bool c.traceAllKinds)]

/-- A configuration as a JSON object. -/
def toJson (c : Config) : Json :=
  .object [("registry", .object [("reject_conversion_cycles",
      .bool c.registry.rejectConversionCycles)]),
    ("resolver", resolverToJson c.resolver)]

end RoleResolution.Config
