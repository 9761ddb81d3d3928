import RoleResolution.MatchedRule
import RoleResolution.Role.Value

/-!
# Events

Registries and resolvers report what they do as events. Each event has a level, a message and
named fields; roles, rules and paths appear in the fields as text.
-/

namespace RoleResolution

/-- How much an event matters, from the least on. -/
inductive Level where
  | trace
  | debug
  | info
  | warn
  deriving DecidableEq, Repr

/-- The name of a level. -/
def Level.name : Level → String
  | .trace => "trace"
  | .debug => "debug"
  | .info => "info"
  | .warn => "warn"

/-- Something that a registry or a resolver reports. -/
inductive Event (κ : Type) where
  /-- The conversions of a registry under construction form a cycle. -/
  | conversionCycle (path : List κ)
  | registryBuilt (kinds edges cycles : Nat)
  | roleConstructed (role : Role κ)
  | directRuleMatched (provided : Role κ) (rule : MatchedRule)
  /-- A guard of the delegated predicate at a position does not hold. -/
  | guardMismatch (index : Nat)
  /-- A conversion is not eligible for a payload. -/
  | conversionDeclined (source target : κ)
  | roleConverted (source target : Role κ)
  /-- A check has ended; it was to be logged in full. -/
  | roleChecked (required provided : Role κ) (rule : Option MatchedRule) (hops : Nat)
  /-- A check has ended. -/
  | roleCheckedBriefly (required provided : Role κ) (satisfied : Bool)
  | heldRoleSatisfies (required candidate : Role κ) (position : Nat)
  /-- The conversions of a held role ran into a cycle, described by `cause`. -/
  | heldRoleSkipped (required candidate : Role κ) (position : Nat) (cause : String)

namespace Event

variable {κ : Type}

/-- The level of an event. -/
def level : Event κ → Level
  | conversionCycle _ | heldRoleSkipped _ _ _ _ => .warn
  | registryBuilt _ _ _ | roleChecked _ _ _ _ => .info
  | roleConstructed _ | roleCheckedBriefly _ _ _ | heldRoleSatisfies _ _ _ => .debug
  | directRuleMatched _ _ | guardMismatch _ | conversionDeclined _ _ | roleConverted _ _ =>
    .trace

/-- The message of an event. -/
def message : Event κ → String
  | conversionCycle _ => "Conversion cycle in role registry"
  | registryBuilt _ _ _ => "Role registry built"
  | roleConstructed _ => "Constructed role value"
  | directRuleMatched _ _ => "Direct rule matched"
  | guardMismatch _ => "Delegated predicate guard mismatch"
  | conversionDeclined _ _ => "Conversion not applicable"
  | roleConverted _ _ => "Converted provided role"
  | roleChecked _ _ _ _ | roleCheckedBriefly _ _ _ => "Role check"
  | heldRoleSatisfies _ _ _ => "Held role satisfies"
  | heldRoleSkipped _ _ _ _ => "Skipping held role with cyclic conversions"

/-- The diagnostic text of the rule that ended a check, if any. -/
def ruleText : Option MatchedRule → String
  | none => "None"
  | some rule => "Some(" ++ rule.diagnostic ++ ")"

/-- The named fields of an event. -/
def fields (K : KindSet κ) : Event κ → List (String × Json)
  | conversionCycle path => [("cycle", .string (K.pathText path))]
  | registryBuilt kinds edges cycles =>
    [("kinds", .ofNat kinds), ("conversion_edges", .ofNat edges),
      ("conversion_cycles", .ofNat cycles)]
  | roleConstructed role =>
    [("kind", .string (K.name role.kind)), ("payload", .string role.payload.display)]
  | directRuleMatched provided rule =>
    [("provided", .string (provided.display K)), ("rule", .string rule.display)]
  | guardMismatch index => [("index", .ofNat index)]
  | conversionDeclined source target =>
    [("from", .string (K.name source)), ("to", .string (K.name target))]
  | roleConverted source target =>
    [("from", .string (source.display K)), ("to", .string (target.display K))]
  | roleChecked required provided rule hops =>
    [("required", .string (required.display K)), ("provided", .string (provided.display K)),
      ("satisfied", .bool rule.isSome), ("rule", .string (ruleText rule)),
      ("hops", .ofNat hops)]
  | roleCheckedBriefly required provided satisfied =>
    [("required", .string (required.display K)), ("provided", .string (provided.display K)),
      ("satisfied", .bool satisfied)]
  | heldRoleSatisfies required candidate position =>
    [("required", .string (required.display K)), ("candidate", .string (candidate.display K)),
      ("position", .ofNat position)]
  | heldRoleSkipped required candidate position cause =>
    [("required", .string (required.display K)), ("candidate", .string (candidate.display K)),
      ("position", .ofNat position), ("error", .string cause)]

end Event
end RoleResolution
